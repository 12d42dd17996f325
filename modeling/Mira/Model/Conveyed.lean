import Mira.Model.MessagesMapper
import Mathlib.Data.List.Infix

/-!
What an encoded request carries of the conversation. A turn of the assistant is told apart from
the next one by its place alone, so a turn without content takes the place of the one after it:
the request carries the conversation exactly when nothing follows such a turn, the parts of tools
stand where they belong and no media type holds the delimiter of a data URL.
-/

namespace Mira.Model
open Mira Bytes Storage

section Meaning
variable (fetch : ArtifactRef → Option Bytes)

def partMeant : ModelContentPart → Option Block
  | .text text => some (.text text)
  | .image source _ => (fetch source).map fun bytes => .image source.mediaType (base64Encode bytes)
  | .file => none
  | .toolCall call => some (.toolUse call.providerCallId call.wireName call.arguments)
  | .toolResult result =>
      let content := toJsonString (resultOutput result)
      some (.toolResult result.providerCallId content (reportsError content))
  | .thinking text signature redacted =>
      some (if redacted then .redactedThinking text else .thinking text signature)

def partsMeant (content : List ModelContentPart) : List Block :=
  content.filterMap (partMeant fetch)

/-- A text byte by byte: it counts for nothing in how many blocks it stands. -/
def Block.spelled : Block → List Block
  | text bytes => bytes.map fun c => text [c]
  | block => [block]

def spelling (blocks : List Block) : List Block := blocks.flatMap Block.spelled

def wireRole : ModelRole → WireRole
  | .assistant => .assistant
  | _ => .user

/-- The assistant items between the items of others, the system's left aside; a run is empty
where two items of others follow each other. -/
def allRuns (input : List ModelInputItem) : List (List ModelInputItem) :=
  (input.filter fun item => !item.isSystem).splitOnP fun item => item.role ≠ .assistant

def assistantTurns (input : List ModelInputItem) : List (List ModelInputItem) :=
  (allRuns input).filter fun run => !run.isEmpty

def turnParts (run : List ModelInputItem) : List ModelContentPart := run.flatMap (·.content)

def told (messages : List WireMessage) : List (WireRole × Block) :=
  messages.flatMap fun message => (spelling message.content).map (message.role, ·)

def spokenItem (item : ModelInputItem) : List (WireRole × Block) :=
  (spelling (partsMeant fetch item.content)).map (wireRole item.role, ·)

structure Conveyed (input : List ModelInputItem) (wire : Wire) : Prop where
  complete : ∀ item ∈ input, ∀ part ∈ item.content, (partMeant fetch part).isSome
  system : spelling wire.system = (input.filter (·.isSystem)).flatMap
    fun item => spelling (partsMeant fetch item.content)
  conversation : told wire.messages =
    (input.filter fun item => !item.isSystem).flatMap (spokenItem fetch)
  alternating : wire.messages.IsChain fun earlier later => earlier.role ≠ later.role
  turns : ((wire.messages.filter fun message => message.role = .assistant).map (·.content)) =
    (((assistantTurns input).map turnParts).filter fun parts => !parts.isEmpty).map
      (partsMeant fetch)

end Meaning

/-- The calls of an item are the assistant's, its results not the system's, and no media type is
one that the mapper cuts. -/
structure Fitting (item : ModelInputItem) : Prop where
  calls : ∀ call, .toolCall call ∈ item.content → item.role = .assistant
  results : ∀ result, .toolResult result ∈ item.content → item.isSystem = false
  images : ∀ source detail, .image source detail ∈ item.content →
    ¬ delimiter <:+: source.mediaType

/-- The items are fitting, and no turn with content comes after one without. -/
structure Orderly (input : List ModelInputItem) : Prop where
  fitting : ∀ item ∈ input, Fitting item
  empties : ((assistantTurns input).map turnParts).Pairwise
    fun earlier later => earlier = [] → later = []

theorem mapM_cons_some {α β : Type} {f : α → Option β} {x : α} {xs : List α} {ys : List β}
    (mapped : (x :: xs).mapM f = some ys) :
    ∃ y rest, f x = some y ∧ xs.mapM f = some rest ∧ ys = y :: rest := by
  simp only [List.mapM_cons, bind, Option.bind_eq_some_iff, pure] at mapped
  obtain ⟨y, first, rest, later, same⟩ := mapped
  exact ⟨y, rest, first, later, (Option.some.inj same).symm⟩

theorem mapM_ne_nil {α β : Type} {f : α → Option β} {xs : List α} {ys : List β}
    (mapped : xs.mapM f = some ys) (some : xs ≠ []) : ys ≠ [] := by
  cases xs with
  | nil => exact absurd rfl some
  | cons x xs =>
      obtain ⟨_, _, _, _, rfl⟩ := mapM_cons_some mapped
      exact List.cons_ne_nil _ _

theorem mem_of_mapM {α β : Type} {f : α → Option β} {xs : List α} {ys : List β} {y : β}
    (mapped : xs.mapM f = some ys) (mem : y ∈ ys) : ∃ x ∈ xs, f x = some y := by
  induction xs generalizing ys with
  | nil =>
      cases mapped
      cases mem
  | cons x xs ih =>
      obtain ⟨first, rest, found, later, rfl⟩ := mapM_cons_some mapped
      cases mem with
      | head => exact ⟨x, List.mem_cons_self, found⟩
      | tail _ mem =>
          obtain ⟨z, inside, made⟩ := ih later mem
          exact ⟨z, List.mem_cons_of_mem _ inside, made⟩

theorem splitOnP_snoc {α : Type} (p : α → Bool) (xs : List α) (x : α) (other : p x = false) :
    ∃ runs last, xs.splitOnP p = runs ++ [last] ∧
      (xs ++ [x]).splitOnP p = runs ++ [last ++ [x]] := by
  induction xs with
  | nil => exact ⟨[], [], rfl, by simp [List.splitOnP_cons_eq_if_modifyHead, other]⟩
  | cons y ys ih =>
      obtain ⟨runs, last, split, longer⟩ := ih
      simp only [List.cons_append, List.splitOnP_cons_eq_if_modifyHead, split, longer]
      cases p y with
      | true => exact ⟨[] :: runs, last, rfl, rfl⟩
      | false =>
          cases runs with
          | nil => exact ⟨[], y :: last, rfl, rfl⟩
          | cons run runs => exact ⟨(y :: run) :: runs, last, rfl, rfl⟩

theorem pushLast_snoc {α : Type} (more last : List α) (groups : List (List α)) :
    pushLast more (groups ++ [last]) = groups ++ [last ++ more] := by
  simp [pushLast]

/-- The empty lists stand behind the others when there are no more of the others than stand
before them. -/
theorem empties_behind {α : Type} {groups : List (List α)} {n : Nat}
    (front : ∀ group ∈ groups.take n, group ≠ [])
    (count : (groups.filter fun group => !group.isEmpty).length = n) :
    groups.Pairwise fun earlier later => earlier = [] → later = [] := by
  have whole : (groups.take n).filter (fun group => !group.isEmpty) = groups.take n := by
    rw [List.filter_eq_self]
    intro group mem
    simpa using front group mem
  have behind : (groups.drop n).filter (fun group => !group.isEmpty) = [] := by
    have split := congrArg (List.filter fun group : List α => !group.isEmpty)
      (List.take_append_drop n groups)
    rw [List.filter_append, whole] at split
    have sizes := congrArg List.length split
    rw [List.length_append, count, List.length_take] at sizes
    have fits : n ≤ groups.length := count ▸ List.length_filter_le ..
    exact List.length_eq_zero_iff.1 (by omega)
  rw [← List.take_append_drop n groups, List.pairwise_append]
  have empty : ∀ group ∈ groups.drop n, group = [] := by
    intro group mem
    simpa using List.filter_eq_nil_iff.1 behind group mem
  refine ⟨List.Pairwise.imp_of_mem (fun mem _ _ isEmpty => absurd isEmpty (front _ mem))
      (List.pairwise_of_forall fun _ _ => trivial),
    List.Pairwise.imp_of_mem (fun _ mem _ _ => empty _ mem)
      (List.pairwise_of_forall fun _ _ => trivial),
    fun group mem later mem' isEmpty => absurd isEmpty (front group mem)⟩

theorem others_first {α : Type} {groups : List (List α)}
    (behind : groups.Pairwise fun earlier later => earlier = [] → later = []) :
    ∃ extra, groups = (groups.filter fun group => !group.isEmpty) ++ extra := by
  induction groups with
  | nil => exact ⟨[], rfl⟩
  | cons group rest ih =>
      rw [List.pairwise_cons] at behind
      cases group with
      | nil =>
          have none : rest.filter (fun group => !group.isEmpty) = [] := by
            rw [List.filter_eq_nil_iff]
            intro group mem
            simp [behind.1 group mem rfl]
          exact ⟨[] :: rest, by simp [none]⟩
      | cons c cs =>
          obtain ⟨extra, same⟩ := ih behind.2
          exact ⟨extra, by simpa using same⟩

theorem delimiter_head (text : Bytes) : delimiter <+: text → text.head? = some 59 := by
  rintro ⟨rest, rfl⟩
  rfl

/-- The delimiter after a text that does not hold it is the first one. -/
theorem cutDelimiter_append {text : Bytes} (rest : Bytes) (clean : ¬ delimiter <:+: text) :
    cutDelimiter (text ++ (delimiter ++ rest)) = some (text, rest) := by
  induction text with
  | nil => rfl
  | cons c text ih =>
      rw [List.infix_cons_iff, not_or] at clean
      have later : delimiter.isPrefixOf (c :: (text ++ (delimiter ++ rest))) = false := by
        rw [Bool.eq_false_iff, Ne, List.isPrefixOf_iff_prefix]
        intro early
        rw [← List.cons_append] at early
        by_cases long : delimiter.length ≤ (c :: text).length
        · exact clean.1 (List.prefix_of_prefix_length_le early (List.prefix_append ..) long)
        · -- the first character of the second occurrence would lie inside the first
          have at_ := List.IsPrefix.getElem early (i := (c :: text).length) (by omega)
          rw [List.getElem_append_right (Nat.le_refl _)] at at_
          simp only [Nat.sub_self] at at_
          have inside : ∀ i, (h : i < delimiter.length) → 0 < i → delimiter[i] ≠ 59 := by decide
          exact inside _ (by omega) (by simp) at_
      rw [List.cons_append, cutDelimiter, later, if_neg Bool.false_ne_true, ih clean.2]
      rfl

theorem cutDelimiter_clean {text : Bytes} {cut : Bytes × Bytes}
    (found : cutDelimiter text = some cut) : cut.1 <+: text ∧ ¬ delimiter <:+: cut.1 := by
  induction text generalizing cut with
  | nil => cases found
  | cons c text ih =>
      rw [cutDelimiter] at found
      split at found
      · cases found
        exact ⟨List.nil_prefix, fun inside => absurd (List.infix_nil.1 inside) (by decide)⟩
      · next later =>
        obtain ⟨inner, first, rfl⟩ := Option.map_eq_some_iff.1 found
        obtain ⟨start, clean⟩ := ih first
        refine ⟨List.cons_prefix_cons.2 ⟨rfl, start⟩, ?_⟩
        rw [List.infix_cons_iff]
        rintro (early | inside)
        · exact later (List.isPrefixOf_iff_prefix.2
            (early.trans (List.cons_prefix_cons.2 ⟨rfl, start⟩)))
        · exact clean inside

section Parts
variable (fetch : ArtifactRef → Option Bytes)

/-- What stands beside no tool in an item. -/
def PlainPart : ModelContentPart → Prop
  | .text _ => True
  | .image source _ => ¬ delimiter <:+: source.mediaType
  | _ => False

def pictures (content : List ModelContentPart) : List Block :=
  partsMeant fetch (content.filter (·.isImage))

variable {fetch}

theorem spelling_append (left right : List Block) :
    spelling (left ++ right) = spelling left ++ spelling right := List.flatMap_append

theorem partsMeant_append (left right : List ModelContentPart) :
    partsMeant fetch (left ++ right) = partsMeant fetch left ++ partsMeant fetch right :=
  List.filterMap_append

theorem partsMeant_cons {part : ModelContentPart} {block : Block}
    (meant : partMeant fetch part = some block) (rest : List ModelContentPart) :
    partsMeant fetch (part :: rest) = block :: partsMeant fetch rest :=
  List.filterMap_cons_some meant

theorem pictures_append (left right : List ModelContentPart) :
    pictures fetch (left ++ right) = pictures fetch left ++ pictures fetch right := by
  rw [pictures, List.filter_append, partsMeant_append]
  rfl

theorem imageUrl_meant {source : ArtifactRef} {url : Bytes} (detail : ImageDetail)
    (fetched : fetchImageDataUrl fetch source = some url)
    (clean : ¬ delimiter <:+: source.mediaType) :
    ∃ mediaType data, partMeant fetch (.image source detail) = some (.image mediaType data) ∧
      partBlock (.imageUrl url) = some (.image mediaType data) := by
  rw [fetchImageDataUrl] at fetched
  split at fetched
  · cases fetched
  · split at fetched
    · cases fetched
    · next bytes found =>
      split at fetched
      · cases fetched
      · cases fetched
        refine ⟨source.mediaType, base64Encode bytes, by rw [partMeant, found]; rfl, ?_⟩
        have whole : ¬ delimiter <:+: ascii "data:" ++ source.mediaType := by
          have skip : ∀ c (text : Bytes), c ≠ 59 → ¬ delimiter <:+: text →
              ¬ delimiter <:+: c :: text := by
            intro c text other clean
            rw [List.infix_cons_iff, not_or]
            refine ⟨fun early => ?_, clean⟩
            exact other (Option.some.inj (delimiter_head _ early))
          exact skip 100 _ (by decide) (skip 97 _ (by decide) (skip 116 _ (by decide)
            (skip 97 _ (by decide) (skip 58 _ (by decide) clean))))
        rw [partBlock, cutDelimiter_append _ whole]
        rfl

theorem encodePart_meant {part : ModelContentPart} {chat : List ChatPart}
    (plain : PlainPart part) (encoded : encodePart fetch part = some chat) :
    ∃ block, partMeant fetch part = some block ∧ chat.mapM partBlock = some [block] := by
  cases part with
  | text text =>
      cases encoded
      exact ⟨_, rfl, rfl⟩
  | image source detail =>
      obtain ⟨url, fetched, rfl⟩ := Option.map_eq_some_iff.1 encoded
      obtain ⟨mediaType, data, meant, cut⟩ := imageUrl_meant detail fetched plain
      refine ⟨_, meant, ?_⟩
      rw [List.mapM_cons, cut]
      rfl
  | file => exact absurd plain id
  | toolCall call => exact absurd plain id
  | toolResult result => exact absurd plain id
  | thinking text signature redacted => exact absurd plain id

theorem encodeParts_meant {content : List ModelContentPart} {parts : List (List ChatPart)}
    (plain : ∀ part ∈ content, PlainPart part)
    (encoded : content.mapM (encodePart fetch) = some parts) :
    (∀ part ∈ content, (partMeant fetch part).isSome) ∧
      parts.flatten.mapM partBlock = some (partsMeant fetch content) := by
  induction content generalizing parts with
  | nil =>
      cases encoded
      exact ⟨by simp, rfl⟩
  | cons part rest ih =>
      rw [List.forall_mem_cons] at plain
      obtain ⟨chat, chats, first, later, rfl⟩ := mapM_cons_some encoded
      obtain ⟨meants, translated⟩ := ih plain.2 later
      obtain ⟨block, meant, made⟩ := encodePart_meant plain.1 first
      refine ⟨List.forall_mem_cons.2 ⟨by rw [meant]; rfl, meants⟩, ?_⟩
      rw [List.flatten_cons, List.mapM_append, made, translated, partsMeant_cons meant]
      rfl

variable (fetch) in
theorem spelling_plainText {content : List ModelContentPart}
    (plain : ∀ part ∈ content, PlainPart part) (noImage : content.any (·.isImage) = false) :
    (∀ part ∈ content, (partMeant fetch part).isSome) ∧
      spelling (partsMeant fetch content) = (content.flatMap plainText).map fun c => .text [c] := by
  induction content with
  | nil => exact ⟨fun _ mem => absurd mem List.not_mem_nil, rfl⟩
  | cons part rest ih =>
      rw [List.forall_mem_cons] at plain
      rw [List.any_cons, Bool.or_eq_false_iff] at noImage
      obtain ⟨meant, spelled⟩ := ih plain.2 noImage.2
      cases part with
      | text text =>
          refine ⟨List.forall_mem_cons.2 ⟨rfl, meant⟩, ?_⟩
          rw [List.flatMap_cons, List.map_append, ← spelled]
          rfl
      | image source detail => cases noImage.1
      | file => exact absurd plain.1 id
      | toolCall call => exact absurd plain.1 id
      | toolResult result => exact absurd plain.1 id
      | thinking text signature redacted => exact absurd plain.1 id

theorem spelling_textBlock (text : Bytes) :
    spelling (if text.isEmpty then [] else [.text text]) = text.map fun c => .text [c] := by
  cases text with
  | nil => rfl
  | cons c rest => simp [spelling, Block.spelled]

/-- A part of an assistant item that the common encoder sees. -/
def PiecePart : ModelContentPart → Prop
  | .text _ => True
  | .image source _ => ¬ delimiter <:+: source.mediaType
  | .toolCall _ => True
  | _ => False

theorem isImage_callBlock {calls : List ChatCall} {blocks : List Block}
    (translated : calls.mapM callBlock = some blocks) : blocks.filter (·.isImage) = [] := by
  rw [List.filter_eq_nil_iff]
  intro block mem
  obtain ⟨call, _, made⟩ := mem_of_mapM translated mem
  rw [callBlock] at made
  split at made
  · split at made
    · cases made
      exact Bool.false_ne_true
    · cases made
  · cases made

/-- A single part of the assistant makes one message, whose images are those of the part. -/
theorem encodePiece {profile : ModelProfile} {part : ModelContentPart}
    {messages : List ChatMessage} (kind : PiecePart part)
    (encoded : encodeItem profile fetch ⟨.assistant, [part]⟩ = some messages) :
    ∃ message, messages = [message] ∧ message.role = .assistant ∧
      (partMeant fetch part).isSome ∧
      ∀ blocks, messageBlocks message = some blocks →
        blocks.filter (·.isImage) = pictures fetch [part] := by
  cases part with
  | text text =>
      cases encoded
      refine ⟨_, rfl, rfl, rfl, fun blocks translated => ?_⟩
      simp only [messageBlocks, contentBlocks, List.mapM_nil] at translated
      cases translated
      cases text <;> rfl
  | image source detail =>
      simp only [encodeItem, classifyItem, classifyFrom, Bool.or_self, Bool.false_eq_true,
        if_false, chatRole, Bool.and_self] at encoded
      split at encoded
      · next role content known made =>
        cases known
        cases encoded
        have made : (if profile.imageInput then
            ([ModelContentPart.image source detail].mapM (encodePart fetch)).map
              fun parts => ChatContent.parts parts.flatten
          else none) = some content := made
        split at made
        · obtain ⟨parts, part, rfl⟩ := Option.map_eq_some_iff.1 made
          have plain : ∀ part ∈ [ModelContentPart.image source detail], PlainPart part :=
            List.forall_mem_singleton.2 kind
          obtain ⟨_, _, first, _⟩ := mapM_cons_some part
          obtain ⟨url, fetched, _⟩ := Option.map_eq_some_iff.1 first
          obtain ⟨mediaType, data, meant, _⟩ := imageUrl_meant detail fetched kind
          refine ⟨_, rfl, rfl, by rw [meant]; rfl, fun blocks translated => ?_⟩
          simp only [messageBlocks, contentBlocks, List.mapM_nil] at translated
          split at translated
          · next made done =>
            cases done
            cases translated
            cases (encodeParts_meant plain part).2.symm.trans made
            change (partsMeant fetch [_] ++ []).filter _ = partsMeant fetch [_]
            rw [partsMeant_cons meant]
            rfl
          · cases translated
        · cases made
      · cases encoded
  | toolCall call =>
      simp only [encodeItem, classifyItem, classifyFrom, Bool.and_false, Bool.false_eq_true,
        if_false, if_true] at encoded
      split at encoded
      · cases encoded
        refine ⟨_, rfl, rfl, rfl, fun blocks translated => ?_⟩
        rw [messageBlocks] at translated
        split at translated
        · next content calls first second =>
          cases first
          cases translated
          exact isImage_callBlock second
        · cases translated
      · cases encoded
  | file => exact absurd kind id
  | toolResult result => exact absurd kind id
  | thinking text signature redacted => exact absurd kind id

theorem classifyFrom_ordinary {calls results : Bool} {content : List ModelContentPart}
    (shape : classifyFrom calls results content = .ordinary) :
    calls = false ∧ results = false ∧ (∀ call, .toolCall call ∉ content) ∧
      ∀ result, .toolResult result ∉ content := by
  induction content generalizing calls results with
  | nil => cases calls <;> cases results <;> simp_all [classifyFrom]
  | cons part rest ih =>
      cases part with
      | toolCall call => exact absurd (ih shape).1 (by decide)
      | toolResult result => exact absurd (ih shape).2.1 (by decide)
      | text | image | file | thinking =>
          simp only [classifyFrom] at shape
          split at shape
          · cases shape
          · obtain ⟨noCalls, noResults, calls, results⟩ := ih shape
            exact ⟨noCalls, noResults, by simpa using calls, by simpa using results⟩

variable (fetch) in
theorem encodeResult_meant {part : ModelContentPart} {message : ChatMessage}
    (encoded : encodeResult part = some message) :
    message.role = .tool ∧ (∃ result, part = .toolResult result) ∧
      ∃ block, partMeant fetch part = some block ∧ messageBlocks message = some [block] := by
  cases part with
  | toolResult result =>
      rw [encodeResult] at encoded
      split at encoded
      · cases encoded
      · cases encoded
        exact ⟨rfl, ⟨result, rfl⟩, _, rfl, rfl⟩
  | text | image | file | toolCall | thinking => cases encoded

theorem encodeResults_meant {content : List ModelContentPart} {messages : List ChatMessage}
    (encoded : content.mapM encodeResult = some messages) :
    (∀ part ∈ content, (partMeant fetch part).isSome) ∧
      (∀ message ∈ messages, message.role = .tool) ∧
      messages.mapM messageBlocks = some ((partsMeant fetch content).map fun block => [block]) := by
  induction content generalizing messages with
  | nil =>
      cases encoded
      exact ⟨by simp, by simp, rfl⟩
  | cons part rest ih =>
      obtain ⟨message, later, first, others, rfl⟩ := mapM_cons_some encoded
      obtain ⟨role, _, block, meant, made⟩ := encodeResult_meant fetch first
      obtain ⟨meants, roles, mades⟩ := ih others
      refine ⟨List.forall_mem_cons.2 ⟨by rw [meant]; rfl, meants⟩,
        List.forall_mem_cons.2 ⟨role, roles⟩, ?_⟩
      simp only [List.mapM_cons, made, mades, bind, Option.bind_some, pure,
        partsMeant_cons meant, List.map_cons]

theorem messageBlocks_text {role : ChatRole} (text : Bytes) (other : role ≠ .tool) :
    messageBlocks ⟨role, .text text, [], []⟩ =
      some (if text.isEmpty then [] else [.text text]) := by
  cases role with
  | tool => exact absurd rfl other
  | system | developer | user | assistant => simp [messageBlocks, contentBlocks]

theorem messageBlocks_parts {role : ChatRole} {parts : List ChatPart} {blocks : List Block}
    (made : messageBlocks ⟨role, .parts parts, [], []⟩ = some blocks) :
    parts.mapM partBlock = some blocks := by
  rw [messageBlocks] at made
  split at made
  · next content calls first second =>
    obtain rfl : calls = [] := (Option.some.inj second).symm
    cases made
    rw [List.append_nil]
    cases role <;> exact first
  · cases made

/-- What an item of the conversation says that is not the assistant's. -/
theorem encodeItem_spoken {profile : ModelProfile} {item : ModelInputItem}
    {messages : List ChatMessage}
    (noThinking : ∀ part ∈ item.content, part.isThinking = false)
    (noCalls : ∀ call, .toolCall call ∉ item.content)
    (clean : ∀ source detail, .image source detail ∈ item.content →
      ¬ delimiter <:+: source.mediaType)
    (encoded : encodeItem profile fetch item = some messages) :
    (∀ part ∈ item.content, (partMeant fetch part).isSome) ∧ messages ≠ [] ∧
      (∀ message ∈ messages, chatRole item.role = some message.role ∨
        (message.role = .tool ∧ ∃ result, .toolResult result ∈ item.content)) ∧
      ∀ blocks, messages.mapM messageBlocks = some blocks →
        spelling blocks.flatten = spelling (partsMeant fetch item.content) := by
  obtain ⟨role, content⟩ := item
  rw [encodeItem] at encoded
  split at encoded
  · cases encoded
  · -- a call would have to be there
    next shape =>
    split at encoded
    · obtain ⟨calls, made, _⟩ := Option.map_eq_some_iff.1 encoded
      cases content with
      | nil => cases shape
      | cons part rest =>
          obtain ⟨_, _, first, _⟩ := mapM_cons_some made
          cases part with
          | toolCall call => exact absurd List.mem_cons_self (noCalls call)
          | text | image | file | toolResult | thinking => cases first
    · cases encoded
  · next shape =>
    split at encoded
    · obtain ⟨meants, roles, blocks⟩ := encodeResults_meant encoded
      cases content with
      | nil => cases shape
      | cons part rest =>
          obtain ⟨message, later, first, _, rfl⟩ := mapM_cons_some encoded
          obtain ⟨_, ⟨result, rfl⟩, _⟩ := encodeResult_meant fetch first
          refine ⟨meants, List.cons_ne_nil _ _,
            fun message mem => .inr ⟨roles message mem, result, List.mem_cons_self⟩, ?_⟩
          intro found same
          rw [blocks] at same
          cases same
          rw [← List.flatMap_def, List.flatMap_singleton']
    · cases encoded
  · next shape =>
    split at encoded
    · next chat body known made =>
      cases encoded
      obtain ⟨-, -, -, noResults⟩ := classifyFrom_ordinary shape
      have other : chat ≠ .tool := by cases role <;> cases known <;> decide
      rw [encodeContent] at made
      split at made
      · cases made
      · next noFile =>
        have plain : ∀ part ∈ content, PlainPart part := by
          intro part mem
          cases part with
          | text text => trivial
          | image source detail => exact clean source detail mem
          | file => exact noFile (List.any_eq_true.2 ⟨_, mem, rfl⟩)
          | toolCall call => exact noCalls call mem
          | toolResult result => exact noResults result mem
          | thinking text signature redacted => cases noThinking _ mem
        have alone : ∀ message ∈ [(⟨chat, body, [], []⟩ : ChatMessage)],
            chatRole role = some message.role ∨
              (message.role = .tool ∧ ∃ result, .toolResult result ∈ content) :=
          List.forall_mem_singleton.2 (.inl known)
        split at made
        · split at made
          · obtain ⟨parts, part, rfl⟩ := Option.map_eq_some_iff.1 made
            obtain ⟨meants, made⟩ := encodeParts_meant plain part
            refine ⟨meants, List.cons_ne_nil _ _, alone, fun blocks translated => ?_⟩
            obtain ⟨_, _, first, rest, rfl⟩ := mapM_cons_some translated
            obtain rfl := (Option.some.inj rest).symm
            cases made.symm.trans (messageBlocks_parts first)
            simp
          · cases made
        · next noImage =>
          cases made
          obtain ⟨meants, spelled⟩ := spelling_plainText fetch plain
            (Bool.eq_false_iff.2 noImage)
          refine ⟨meants, List.cons_ne_nil _ _, alone, fun blocks translated => ?_⟩
          obtain ⟨_, _, first, rest, rfl⟩ := mapM_cons_some translated
          obtain rfl := (Option.some.inj rest).symm
          cases (messageBlocks_text _ other).symm.trans first
          simp only [List.reverse_nil, List.flatten_cons, List.flatten_nil, List.append_nil,
            spelling_textBlock, spelled]
    · cases encoded

end Parts

end Mira.Model
