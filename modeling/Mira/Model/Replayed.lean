import Mira.Model.Conveyed
import Mathlib.Data.List.Chain

/-!
The encoder over a whole conversation: the messages that it holds, segment by segment, with the
parts of the assistant that each stands for, and the groups that take their places.
-/

namespace Mira.Model
open Mira Bytes Storage

variable {segments : List Segment} {blocks : List Block} {messages : List ChatMessage}
variable {input : List ModelInputItem} {item : ModelInputItem} {wire : Wire}

/-- A message that the encoder holds, with the parts of the assistant that it is held for. -/
structure Segment where
  role : WireRole
  held : List Block
  parts : List ModelContentPart := []

def Segment.message (segment : Segment) : WireMessage := ⟨segment.role, segment.held⟩

def joinSegment (next : Segment) (segments : List Segment) : List Segment :=
  match segments.getLast? with
  | some last =>
      if last.role = next.role then
        segments.dropLast ++ [⟨next.role, last.held ++ next.held, last.parts ++ next.parts⟩]
      else segments ++ [next]
  | none => [next]

theorem joinSegment_cases (next : Segment) (segments : List Segment) :
    (∃ front last, segments = front ++ [last] ∧ last.role = next.role ∧
      joinSegment next segments =
        front ++ [⟨next.role, last.held ++ next.held, last.parts ++ next.parts⟩]) ∨
    ((∀ last ∈ segments.getLast?, last.role ≠ next.role) ∧
      joinSegment next segments = segments ++ [next]) := by
  rcases List.eq_nil_or_concat segments with rfl | ⟨front, last, rfl⟩
  · exact .inr ⟨by simp, rfl⟩
  · by_cases same : last.role = next.role
    · exact .inl ⟨front, last, by simp, same, by simp [joinSegment, same]⟩
    · exact .inr ⟨by simpa using same, by simp [joinSegment, same]⟩

theorem joinSegment_message (next : Segment) (segments : List Segment) :
    (joinSegment next segments).map Segment.message =
      mergeMessage next.role next.held (segments.map Segment.message) := by
  rcases joinSegment_cases next segments with ⟨front, last, rfl, same, joined⟩ | ⟨other, joined⟩
  · simp [joined, mergeMessage, Segment.message, same]
  · rcases List.eq_nil_or_concat segments with rfl | ⟨front, last, rfl⟩
    · rfl
    · rw [joined]
      have other : last.role ≠ next.role := by simpa using other
      simp [mergeMessage, Segment.message, other]

/-- What adds up over held blocks and parts adds up over the segments. -/
theorem joinSegment_flatMap {α : Type} {value : Segment → List α} (next : Segment)
    (segments : List Segment)
    (adds : ∀ held parts, value ⟨next.role, held ++ next.held, parts ++ next.parts⟩ =
      value ⟨next.role, held, parts⟩ ++ value next) :
    (joinSegment next segments).flatMap value = segments.flatMap value ++ value next := by
  rcases joinSegment_cases next segments with ⟨front, last, rfl, same, joined⟩ | ⟨other, joined⟩
  · obtain ⟨role, held, parts⟩ := last
    cases same
    simp [joined, adds]
  · simp [joined]

theorem joinSegment_alternates (next : Segment)
    (alternate : segments.IsChain fun earlier later => earlier.role ≠ later.role) :
    (joinSegment next segments).IsChain fun earlier later => earlier.role ≠ later.role := by
  rcases joinSegment_cases next segments with ⟨front, last, rfl, same, joined⟩ | ⟨other, joined⟩
  · rw [joined]
    rw [List.isChain_append] at alternate ⊢
    refine ⟨alternate.1, List.isChain_singleton _, fun earlier mem later mem' => ?_⟩
    cases Option.mem_some_iff.1 mem'
    exact same ▸ alternate.2.2 earlier mem last rfl
  · rw [joined, List.isChain_append]
    refine ⟨alternate, List.isChain_singleton _, fun earlier mem later mem' => ?_⟩
    cases Option.mem_some_iff.1 mem'
    exact other earlier mem

theorem mergeMessage_twice (role : WireRole) (blocks more : List Block)
    (messages : List WireMessage) :
    mergeMessage role more (mergeMessage role blocks messages) =
      mergeMessage role (blocks ++ more) messages := by
  rcases List.eq_nil_or_concat messages with rfl | ⟨front, last, rfl⟩
  · simp [mergeMessage]
  · by_cases same : last.role = role <;> simp [mergeMessage, same]

theorem mergeMessages {role : WireRole} {blocks : List (List Block)} (some : blocks ≠ [])
    (messages : List WireMessage) :
    blocks.foldl (fun held more => mergeMessage role more held) messages =
      mergeMessage role blocks.flatten messages := by
  induction blocks generalizing messages with
  | nil => exact absurd rfl some
  | cons first rest ih =>
      cases rest with
      | nil => simp
      | cons second rest =>
          rw [List.foldl_cons, ih (List.cons_ne_nil _ _), mergeMessage_twice,
            List.flatten_cons]
          rfl

def wireRoleOf (role : ChatRole) : WireRole := if role = .assistant then .assistant else .user

theorem placeMessages_spoken {role : WireRole} {wire placed : Wire}
    (same : ∀ message ∈ messages, message.role ≠ .system ∧ message.role ≠ .developer ∧
      wireRoleOf message.role = role)
    (run : messages.foldlM placeMessage wire = some placed) :
    ∃ blocks, messages.mapM messageBlocks = some blocks ∧ placed = { wire with
      messages := blocks.foldl (fun held more => mergeMessage role more held) wire.messages } := by
  induction messages generalizing wire with
  | nil =>
      cases run
      exact ⟨[], rfl, rfl⟩
  | cons message rest ih =>
      obtain ⟨next, first, later⟩ := Option.bind_eq_some_iff.1 run
      rw [List.forall_mem_cons] at same
      rw [placeMessage] at first
      split at first
      · cases first
      · next blocks made =>
        rw [if_neg (by simp [same.1])] at first
        cases first
        obtain ⟨others, mades, rfl⟩ := ih same.2 later
        refine ⟨blocks :: others, by rw [List.mapM_cons, made, mades]; rfl, ?_⟩
        rw [List.foldl_cons, ← same.1.2.2]
        rfl

theorem placeMessages_system {wire placed : Wire}
    (same : ∀ message ∈ messages, message.role = .system ∨ message.role = .developer)
    (run : messages.foldlM placeMessage wire = some placed) :
    ∃ blocks, messages.mapM messageBlocks = some blocks ∧
      placed = { wire with system := wire.system ++ blocks.flatten } := by
  induction messages generalizing wire with
  | nil =>
      cases run
      exact ⟨[], rfl, by simp⟩
  | cons message rest ih =>
      obtain ⟨next, first, later⟩ := Option.bind_eq_some_iff.1 run
      rw [List.forall_mem_cons] at same
      rw [placeMessage] at first
      split at first
      · cases first
      · next blocks made =>
        rw [if_pos same.1] at first
        split at first
        · cases first
          obtain ⟨others, mades, rfl⟩ := ih same.2 later
          refine ⟨blocks :: others, by rw [List.mapM_cons, made, mades]; rfl, ?_⟩
          simp
        · cases first

section Runs
theorem allRuns_system (system : item.isSystem) : allRuns (input ++ [item]) = allRuns input := by
  simp [allRuns, List.filter_append, system]

theorem allRuns_other (talk : item.isSystem = false) (other : item.role ≠ .assistant) :
    allRuns (input ++ [item]) = allRuns input ++ [[]] := by
  rw [allRuns, List.filter_append, List.filter_singleton, talk]
  exact (List.splitOnP_append_cons _ [] (by simpa using other)).trans rfl

variable (input) in
theorem allRuns_assistant (mine : item.role = .assistant) :
    ∃ runs last, allRuns input = runs ++ [last] ∧
      allRuns (input ++ [item]) = runs ++ [last ++ [item]] := by
  have talk : item.isSystem = false := by simp [ModelInputItem.isSystem, mine]
  obtain ⟨runs, last, split, longer⟩ := splitOnP_snoc
    (fun item : ModelInputItem => decide (item.role ≠ .assistant))
    (input.filter fun item => !item.isSystem) item (by simpa using mine)
  refine ⟨runs, last, split, ?_⟩
  rw [allRuns, List.filter_append, List.filter_singleton, talk]
  exact longer

end Runs

def mark (part : ModelContentPart) : Block := (replayBlock part).getD .validatedImage

def marks (run : List ModelInputItem) : List Block := (turnParts run).map mark

theorem mapM_replayBlock {content : List ModelContentPart}
    (taken : content.mapM replayBlock = some blocks) :
    blocks = content.map mark ∧ ∀ part ∈ content, (replayBlock part).isSome := by
  induction content generalizing blocks with
  | nil =>
      cases taken
      exact ⟨rfl, by simp⟩
  | cons part rest ih =>
      obtain ⟨block, others, first, later, rfl⟩ := mapM_cons_some taken
      obtain ⟨rfl, whole⟩ := ih later
      refine ⟨?_, List.forall_mem_cons.2 ⟨by rw [first]; rfl, whole⟩⟩
      rw [List.map_cons, mark, first]
      rfl

structure SplitOf (input : List ModelInputItem) (state : AssistantSplit) : Prop where
  translated : state.translated = input.flatMap pieces
  groups : state.groups = (assistantTurns input).map marks
  open_ : state.lastAssistant = !((allRuns input).getLastD []).isEmpty
  taken : ∀ item ∈ input, item.role = .assistant → ∀ part ∈ item.content, (replayBlock part).isSome
  plain : ∀ item ∈ input, item.role ≠ .assistant → ∀ part ∈ item.content, part.isThinking = false

theorem SplitOf.step {state next : AssistantSplit} (split : SplitOf input state)
    (done : splitItem state item = some next) : SplitOf (input ++ [item]) next := by
  rw [splitItem] at done
  split at done
  · next mine =>
    obtain ⟨blocks, taken, rfl⟩ := Option.map_eq_some_iff.1 done
    obtain ⟨rfl, whole⟩ := mapM_replayBlock taken
    obtain ⟨runs, last, before, after⟩ := allRuns_assistant input mine
    refine ⟨by simp [split.translated], ?_, by simp [after],
      List.forall_mem_append.2 ⟨split.taken, List.forall_mem_singleton.2 fun _ => whole⟩,
      List.forall_mem_append.2 ⟨split.plain,
        List.forall_mem_singleton.2 fun other => absurd mine other⟩⟩
    have opened : (if state.lastAssistant then state.groups else state.groups ++ [[]]) =
        ((runs.filter fun run => !run.isEmpty).map marks) ++ [marks last] := by
      rw [split.open_, split.groups, assistantTurns, before, List.filter_append]
      cases last with
      | nil => simp [marks, turnParts]
      | cons first rest => simp
    simp only [opened, pushLast_snoc, assistantTurns, after]
    simp [marks, turnParts]
  · next other =>
    split at done
    · cases done
    · next noThinking =>
      cases done
      have plain : ∀ part ∈ item.content, part.isThinking = false := by simpa using noThinking
      have kept : assistantTurns (input ++ [item]) = assistantTurns input ∧
          (if item.isSystem then state.lastAssistant else false) =
            !((allRuns (input ++ [item])).getLastD []).isEmpty := by
        cases talk : item.isSystem with
        | true =>
            rw [assistantTurns, allRuns_system talk, if_pos rfl]
            exact ⟨rfl, split.open_⟩
        | false =>
            rw [assistantTurns, allRuns_other talk other]
            simp [assistantTurns]
      refine ⟨by simp [split.translated], by rw [kept.1]; exact split.groups, kept.2,
        List.forall_mem_append.2 ⟨split.taken,
          List.forall_mem_singleton.2 fun mine => absurd mine other⟩,
        List.forall_mem_append.2 ⟨split.plain, List.forall_mem_singleton.2 fun _ => plain⟩⟩

theorem SplitOf.run {input rest : List ModelInputItem} {state last : AssistantSplit}
    (split : SplitOf input state) (done : rest.foldlM splitItem state = some last) :
    SplitOf (input ++ rest) last := by
  induction rest generalizing input state with
  | nil =>
      cases done
      rwa [List.append_nil]
  | cons item rest ih =>
      obtain ⟨next, first, later⟩ := Option.bind_eq_some_iff.1 done
      simpa using ih (split.step first) later

section Held
variable (fetch : ArtifactRef → Option Bytes)

def Segment.final (segment : Segment) : WireMessage :=
  ⟨segment.role,
    if segment.role = .assistant then partsMeant fetch segment.parts else segment.held⟩

def Segment.told (segment : Segment) : List (WireRole × Block) :=
  Model.told [segment.final fetch]

/-- The parts of a turn are replayed, and the held images are theirs. -/
def Segment.Sound (segment : Segment) : Prop :=
  segment.role = .assistant →
    (∀ part ∈ segment.parts, (replayBlock part).isSome ∧ (partMeant fetch part).isSome) ∧
      segment.held.filter (·.isImage) = pictures fetch segment.parts

def fullTurns (input : List ModelInputItem) : List (List ModelContentPart) :=
  ((assistantTurns input).map turnParts).filter fun parts => !parts.isEmpty

def heldTurns (segments : List Segment) : List (List ModelContentPart) :=
  (segments.filter fun segment => segment.role = .assistant).map Segment.parts

/-- What the messages of an input have come to. -/
structure Placed (input : List ModelInputItem) (wire : Wire) (segments : List Segment) : Prop where
  messages : wire.messages = segments.map Segment.message
  sound : ∀ segment ∈ segments, segment.Sound fetch
  alternating : segments.IsChain fun earlier later => earlier.role ≠ later.role
  complete : ∀ item ∈ input, ∀ part ∈ item.content, (partMeant fetch part).isSome
  system : spelling wire.system = (input.filter (·.isSystem)).flatMap
    fun item => spelling (partsMeant fetch item.content)
  conversation : segments.flatMap (Segment.told fetch) =
    (input.filter fun item => !item.isSystem).flatMap (spokenItem fetch)
  turns : heldTurns segments = fullTurns input
  open_ : segments.getLast?.map Segment.role = some .assistant ↔
    turnParts ((allRuns input).getLastD []) ≠ []

variable {fetch}

theorem fullTurns_eq (input : List ModelInputItem) :
    fullTurns input = ((allRuns input).map turnParts).filter fun parts => !parts.isEmpty := by
  rw [fullTurns, assistantTurns]
  generalize allRuns input = runs
  induction runs with
  | nil => rfl
  | cons run runs ih =>
      cases run with
      | nil => simpa [turnParts] using ih
      | cons item rest =>
          rw [List.filter_cons_of_pos (by simp), List.map_cons, List.map_cons, List.filter_cons,
            List.filter_cons, ih]

theorem Placed.system_step (placed : Placed fetch input wire segments)
    (system : item.isSystem) (meant : ∀ part ∈ item.content, (partMeant fetch part).isSome)
    (spelled : spelling blocks = spelling (partsMeant fetch item.content)) :
    Placed fetch (input ++ [item]) { wire with system := wire.system ++ blocks } segments where
  messages := placed.messages
  sound := placed.sound
  alternating := placed.alternating
  complete := List.forall_mem_append.2 ⟨placed.complete, List.forall_mem_singleton.2 meant⟩
  system := by
    simp only [spelling_append, placed.system, List.filter_append, List.flatMap_append, spelled]
    simp [system]
  conversation := by
    simp only [placed.conversation, List.filter_append, List.flatMap_append]
    simp [system]
  turns := by rw [placed.turns, fullTurns_eq, fullTurns_eq, allRuns_system system]
  open_ := by rw [allRuns_system system]; exact placed.open_

theorem joinSegment_role (next : Segment) (segments : List Segment) :
    (joinSegment next segments).getLast?.map Segment.role = some next.role := by
  rcases joinSegment_cases next segments with ⟨front, last, rfl, same, joined⟩ | ⟨other, joined⟩ <;>
    simp [joined]

theorem joinSegment_sound {next : Segment} (new : next.Sound fetch)
    (sound : ∀ segment ∈ segments, segment.Sound fetch) :
    ∀ segment ∈ joinSegment next segments, segment.Sound fetch := by
  rcases joinSegment_cases next segments with ⟨front, last, rfl, same, joined⟩ | ⟨other, joined⟩
  · rw [List.forall_mem_append, List.forall_mem_singleton] at sound
    rw [joined, List.forall_mem_append, List.forall_mem_singleton]
    refine ⟨sound.1, fun mine => ?_⟩
    obtain ⟨oldParts, oldHeld⟩ := sound.2 (same.trans mine)
    obtain ⟨newParts, newHeld⟩ := new mine
    exact ⟨List.forall_mem_append.2 ⟨oldParts, newParts⟩,
      by rw [List.filter_append, oldHeld, newHeld, pictures_append]⟩
  · rw [joined, List.forall_mem_append, List.forall_mem_singleton]
    exact ⟨sound, new⟩

theorem heldTurns_user (held : List Block) (segments : List Segment) :
    heldTurns (joinSegment ⟨.user, held, []⟩ segments) = heldTurns segments := by
  rcases joinSegment_cases ⟨.user, held, []⟩ segments with
    ⟨front, last, rfl, same, joined⟩ | ⟨other, joined⟩
  · have same : last.role = .user := same
    simp [joined, heldTurns, same]
  · simp [joined, heldTurns]

/-- A message for an item that is not the system's. -/
theorem Placed.conversation_step (placed : Placed fetch input wire segments)
    (talk : item.isSystem = false) {next : Segment}
    (told : next.told fetch = spokenItem fetch item) :
    (joinSegment next segments).flatMap (Segment.told fetch) =
      ((input ++ [item]).filter fun item => !item.isSystem).flatMap (spokenItem fetch) := by
  have adds : ∀ held parts, Segment.told fetch ⟨next.role, held ++ next.held, parts ++ next.parts⟩ =
      Segment.told fetch ⟨next.role, held, parts⟩ ++ Segment.told fetch next := by
    intro held parts
    simp only [Segment.told, Model.told, Segment.final, List.flatMap_cons, List.flatMap_nil,
      List.append_nil, ← List.map_append, ← spelling_append]
    split <;> simp only [partsMeant_append]
  rw [joinSegment_flatMap next segments adds, placed.conversation, told]
  simp [talk]

theorem Placed.user_step (placed : Placed fetch input wire segments)
    (talk : item.isSystem = false) (other : item.role ≠ .assistant)
    (meant : ∀ part ∈ item.content, (partMeant fetch part).isSome)
    (spelled : spelling blocks = spelling (partsMeant fetch item.content)) :
    Placed fetch (input ++ [item])
      { wire with messages := mergeMessage .user blocks wire.messages }
      (joinSegment ⟨.user, blocks, []⟩ segments) where
  messages := by rw [joinSegment_message, placed.messages]
  sound := joinSegment_sound (by intro mine; cases mine) placed.sound
  alternating := joinSegment_alternates _ placed.alternating
  complete := List.forall_mem_append.2 ⟨placed.complete, List.forall_mem_singleton.2 meant⟩
  system := by
    rw [placed.system]
    simp [talk]
  conversation := by
    apply placed.conversation_step talk
    have role : wireRole item.role = .user := by
      obtain ⟨role, content⟩ := item
      cases role <;> first | rfl | exact absurd rfl other
    simp [Segment.told, told, Segment.final, spokenItem, role, spelled]
  turns := by
    rw [heldTurns_user, placed.turns, fullTurns_eq, fullTurns_eq, allRuns_other talk other]
    simp [turnParts]
  open_ := by
    rw [joinSegment_role, allRuns_other talk other]
    simp [turnParts]

theorem Placed.assistant_step {checked : List Block} (placed : Placed fetch input wire segments)
    (mine : item.role = .assistant) (some : item.content ≠ [])
    (sound : Segment.Sound fetch ⟨.assistant, checked, item.content⟩) :
    Placed fetch (input ++ [item])
      { wire with messages := mergeMessage .assistant checked wire.messages }
      (joinSegment ⟨.assistant, checked, item.content⟩ segments) := by
  have talk : item.isSystem = false := by simp [ModelInputItem.isSystem, mine]
  obtain ⟨runs, last, before, after⟩ := allRuns_assistant input mine
  have longer : turnParts (last ++ [item]) = turnParts last ++ item.content := by
    simp [turnParts]
  refine ⟨by rw [joinSegment_message, placed.messages], joinSegment_sound sound placed.sound,
    joinSegment_alternates _ placed.alternating,
    List.forall_mem_append.2 ⟨placed.complete,
      List.forall_mem_singleton.2 fun part mem => ((sound rfl).1 part mem).2⟩,
    by rw [placed.system]; simp [talk], placed.conversation_step talk ?_, ?_, ?_⟩
  · simp [Segment.told, told, Segment.final, spokenItem, mine, wireRole]
  · have turns := placed.turns
    have opened := placed.open_
    rw [fullTurns_eq, before] at turns
    rw [fullTurns_eq, after, List.map_append, List.filter_append, List.map_singleton, longer]
    rw [before, List.getLastD_concat] at opened
    rcases joinSegment_cases ⟨.assistant, checked, item.content⟩ segments with
      ⟨front, held, rfl, same, joined⟩ | ⟨other, joined⟩
    · -- the turn that is open goes on
      have same : held.role = .assistant := same
      have going : turnParts last ≠ [] := opened.1 (by simp [same])
      have split : heldTurns front = (runs.map turnParts).filter (fun parts => !parts.isEmpty) ∧
          held.parts = turnParts last := by
        simpa [heldTurns, same, going] using turns
      rw [joined, ← split.1, ← split.2]
      simp [heldTurns, some]
    · have idle : turnParts last = [] := by
        rw [← not_not (a := turnParts last = []), ← ne_eq, ← opened]
        intro open_
        obtain ⟨held, found, same⟩ := Option.map_eq_some_iff.1 open_
        exact other held found same
      rw [List.map_append, List.filter_append, List.map_singleton, idle] at turns
      rw [joined, idle]
      simpa [heldTurns, some] using turns
  · rw [joinSegment_role, after, List.getLastD_concat, longer]
    simp [some]

theorem Placed.silent_step (placed : Placed fetch input wire segments)
    (mine : item.role = .assistant) (none : item.content = []) :
    Placed fetch (input ++ [item]) wire segments := by
  have talk : item.isSystem = false := by simp [ModelInputItem.isSystem, mine]
  obtain ⟨runs, last, before, after⟩ := allRuns_assistant input mine
  have same : turnParts (last ++ [item]) = turnParts last := by simp [turnParts, none]
  refine { placed with complete := ?_, system := ?_, conversation := ?_, turns := ?_, open_ := ?_ }
  · exact List.forall_mem_append.2 ⟨placed.complete, List.forall_mem_singleton.2 (by simp [none])⟩
  · rw [placed.system]
    simp [talk]
  · rw [placed.conversation]
    simp [talk, spokenItem, none, partsMeant, spelling]
  · rw [placed.turns, fullTurns_eq, fullTurns_eq, before, after]
    simp [same]
  · rw [placed.open_, before, after]
    simp [same]

theorem chatRole_system {role : ChatRole}
    (known : chatRole item.role = some role) :
    (item.isSystem → role = .system ∨ role = .developer) ∧
      (item.isSystem = false → item.role ≠ .assistant → role = .user) := by
  obtain ⟨itemRole, content⟩ := item
  cases itemRole <;> cases known <;> simp [ModelInputItem.isSystem]

variable {profile : ModelProfile}

theorem encodePieces {parts : List ModelContentPart} {chunks : List (List ChatMessage)}
    (kinds : ∀ part ∈ parts, PiecePart part)
    (encoded : (parts.map fun part => (⟨.assistant, [part]⟩ : ModelInputItem)).mapM
      (encodeItem profile fetch) = some chunks) :
    (∀ part ∈ parts, (partMeant fetch part).isSome) ∧ chunks.flatten.length = parts.length ∧
      (∀ message ∈ chunks.flatten, message.role = .assistant) ∧
      ∀ blocks, chunks.flatten.mapM messageBlocks = some blocks →
        blocks.flatten.filter (·.isImage) = pictures fetch parts := by
  induction parts generalizing chunks with
  | nil =>
      cases encoded
      refine ⟨by simp, rfl, by simp, fun blocks made => ?_⟩
      cases made
      rfl
  | cons part rest ih =>
      rw [List.forall_mem_cons] at kinds
      obtain ⟨_, others, first, later, rfl⟩ := mapM_cons_some encoded
      obtain ⟨message, rfl, role, meant, images⟩ := encodePiece kinds.1 first
      obtain ⟨meants, length, roles, allImages⟩ := ih kinds.2 later
      refine ⟨List.forall_mem_cons.2 ⟨meant, meants⟩, by simp [← length],
        List.forall_mem_cons.2 ⟨role, roles⟩, fun blocks made => ?_⟩
      obtain ⟨block, blocks, now, after, rfl⟩ := mapM_cons_some made
      rw [List.flatten_cons, List.filter_append, images _ now, allImages _ after,
        ← pictures_append]
      rfl

variable (fetch) in
/-- The pieces of an assistant item with content are single parts with the item's images. -/
theorem pieces_assistant (mine : item.role = .assistant)
    (some : item.content ≠ []) (taken : ∀ part ∈ item.content, (replayBlock part).isSome)
    (clean : ∀ source detail, .image source detail ∈ item.content →
      ¬ delimiter <:+: source.mediaType) :
    ∃ parts, parts ≠ [] ∧ pieces item = parts.map (fun part => ⟨.assistant, [part]⟩) ∧
      (∀ part ∈ parts, PiecePart part) ∧ pictures fetch parts = pictures fetch item.content ∧
      ∀ part ∈ item.content, part.isThinking = false → part ∈ parts := by
  have same : ∀ content : List ModelContentPart,
      (content.filter fun part => !part.isThinking).filter (·.isImage) =
        content.filter (·.isImage) := by
    intro content
    rw [List.filter_filter]
    apply List.filter_congr
    intro part _
    cases part <;> rfl
  have kinds : ∀ part ∈ item.content.filter (fun part => !part.isThinking), PiecePart part := by
    intro part mem
    rw [List.mem_filter] at mem
    cases part with
    | text text => trivial
    | image source detail => exact clean source detail mem.1
    | toolCall call => trivial
    | file => cases taken _ mem.1
    | toolResult result => cases taken _ mem.1
    | thinking text signature redacted => cases mem.2
  cases thoughts : item.content.all (·.isThinking) with
  | true =>
      have none : (item.content.filter fun part => !part.isThinking) = [] := by
        rw [List.filter_eq_nil_iff]
        intro part mem
        simp [List.all_eq_true.1 thoughts part mem]
      refine ⟨[.text []], by simp, by simp [pieces, mine, none, some, thoughts],
        List.forall_mem_singleton.2 trivial, ?_, fun part mem other => ?_⟩
      · rw [pictures, pictures, ← same item.content, none]
        rfl
      · exact absurd (List.all_eq_true.1 thoughts part mem) (by simp [other])
  | false =>
      refine ⟨_, ?_, by simp [pieces, mine, thoughts], kinds, by rw [pictures, same]; rfl,
        fun part mem other => List.mem_filter.2 ⟨mem, by simp [other]⟩⟩
      intro none
      rw [List.all_eq_false] at thoughts
      obtain ⟨part, mem, other⟩ := thoughts
      exact List.filter_eq_nil_iff.1 none part mem (by simp [other])

theorem Placed.step {wire next : Wire} {chunks : List (List ChatMessage)}
    (placed : Placed fetch input wire segments) (fitting : Fitting item)
    (taken : item.role = .assistant → ∀ part ∈ item.content, (replayBlock part).isSome)
    (plain : item.role ≠ .assistant → ∀ part ∈ item.content, part.isThinking = false)
    (encoded : (pieces item).mapM (encodeItem profile fetch) = some chunks)
    (run : chunks.flatten.foldlM placeMessage wire = some next) :
    ∃ segments, Placed fetch (input ++ [item]) next segments := by
  by_cases mine : item.role = .assistant
  · by_cases none : item.content = []
    · have silent : pieces item = [] := by simp [pieces, mine, none]
      rw [silent] at encoded
      cases encoded
      cases run
      exact ⟨segments, placed.silent_step mine none⟩
    · obtain ⟨parts, some, same, kinds, images, inside⟩ :=
        pieces_assistant fetch mine none (taken mine) fitting.images
      rw [same] at encoded
      obtain ⟨meants, length, roles, held⟩ := encodePieces kinds encoded
      have same : ∀ message ∈ chunks.flatten, message.role ≠ .system ∧
          message.role ≠ .developer ∧ wireRoleOf message.role = .assistant := by
        intro message mem
        rw [roles message mem]
        decide
      obtain ⟨blocks, made, rfl⟩ := placeMessages_spoken same run
      have begun : chunks.flatten ≠ [] := by
        intro empty
        rw [empty] at length
        exact some (List.length_eq_zero_iff.1 length.symm)
      rw [mergeMessages (mapM_ne_nil made begun)]
      refine ⟨_, placed.assistant_step mine none fun _ =>
        ⟨fun part mem => ⟨taken mine part mem, ?_⟩, (held _ made).trans images⟩⟩
      cases thought : part.isThinking with
      | false => exact meants part (inside part mem thought)
      | true =>
          cases part with
          | thinking text signature redacted => rfl
          | text | image | file | toolCall | toolResult => cases thought
  · have alone : pieces item = [item] := by simp [pieces, mine]
    rw [alone] at encoded
    obtain ⟨messages, _, first, rest, rfl⟩ := mapM_cons_some encoded
    obtain rfl := (Option.some.inj rest).symm
    have run : messages.foldlM placeMessage wire = some next := by simpa using run
    obtain ⟨meants, begun, roles, spelled⟩ := encodeItem_spoken (plain mine)
      (fun call mem => mine (fitting.calls call mem)) fitting.images first
    cases talk : item.isSystem with
    | true =>
        have same : ∀ message ∈ messages, message.role = .system ∨ message.role = .developer := by
          intro message mem
          cases roles message mem with
          | inl known => exact (chatRole_system known).1 talk
          | inr tool =>
              obtain ⟨_, result, inside⟩ := tool
              cases talk.symm.trans (fitting.results result inside)
        obtain ⟨blocks, made, rfl⟩ := placeMessages_system same run
        exact ⟨segments, placed.system_step talk meants (spelled _ made)⟩
    | false =>
        have same : ∀ message ∈ messages, message.role ≠ .system ∧ message.role ≠ .developer ∧
            wireRoleOf message.role = .user := by
          intro message mem
          cases roles message mem with
          | inl known =>
              rw [(chatRole_system known).2 talk mine]
              decide
          | inr tool =>
              rw [tool.1]
              decide
        obtain ⟨blocks, made, rfl⟩ := placeMessages_spoken same run
        rw [mergeMessages (mapM_ne_nil made begun)]
        exact ⟨_, placed.user_step talk mine meants (spelled _ made)⟩

theorem Placed.run {input rest : List ModelInputItem} {wire last : Wire}
    {chunks : List (List ChatMessage)}
    (placed : Placed fetch input wire segments) (fitting : ∀ item ∈ rest, Fitting item)
    (taken : ∀ item ∈ rest, item.role = .assistant →
      ∀ part ∈ item.content, (replayBlock part).isSome)
    (plain : ∀ item ∈ rest, item.role ≠ .assistant →
      ∀ part ∈ item.content, part.isThinking = false)
    (encoded : (rest.flatMap pieces).mapM (encodeItem profile fetch) = some chunks)
    (run : chunks.flatten.foldlM placeMessage wire = some last) :
    ∃ segments, Placed fetch (input ++ rest) last segments := by
  induction rest generalizing input wire segments chunks with
  | nil =>
      cases encoded
      cases run
      rw [List.append_nil]
      exact ⟨segments, placed⟩
  | cons item rest ih =>
      rw [List.flatMap_cons, List.mapM_append] at encoded
      obtain ⟨now, first, encoded⟩ := Option.bind_eq_some_iff.1 encoded
      obtain ⟨after, later, same⟩ := Option.bind_eq_some_iff.1 encoded
      cases same
      rw [List.flatten_append, List.foldlM_append] at run
      obtain ⟨next, placing, run⟩ := Option.bind_eq_some_iff.1 run
      rw [List.forall_mem_cons] at fitting taken plain
      obtain ⟨segments, placed⟩ := placed.step fitting.1 taken.1 plain.1 first placing
      simpa using ih placed fitting.2 taken.2 plain.2 later run

theorem mark_meant {part : ModelContentPart} {block : Block}
    (taken : (replayBlock part).isSome) (plain : part.isImage = false)
    (meant : partMeant fetch part = some block) : mark part = block ∧ block ≠ .validatedImage := by
  cases part with
  | text text =>
      cases meant
      exact ⟨rfl, by simp⟩
  | toolCall call =>
      cases meant
      exact ⟨rfl, by simp⟩
  | thinking text signature redacted =>
      cases meant
      rw [replayBlock] at taken
      rw [mark, replayBlock]
      split at taken
      · cases taken
      · next fits =>
        rw [if_neg fits]
        cases redacted <;> exact ⟨rfl, by simp⟩
  | image source detail => cases plain
  | file => cases taken
  | toolResult result => cases taken

theorem fillImages_other {block : Block} (other : block ≠ .validatedImage)
    (rest validated : List Block) :
    fillImages (block :: rest) validated = (fillImages rest validated).map (block :: ·) := by
  cases block <;> first | rfl | exact absurd rfl other

theorem fillImages_meant {parts : List ModelContentPart} {validated : List Block}
    (whole : ∀ part ∈ parts, (replayBlock part).isSome ∧ (partMeant fetch part).isSome)
    (images : validated.filter (·.isImage) = pictures fetch parts) :
    fillImages (parts.map mark) validated = some (partsMeant fetch parts) := by
  induction parts generalizing validated with
  | nil => rfl
  | cons part rest ih =>
      rw [List.forall_mem_cons] at whole
      obtain ⟨⟨taken, meant⟩, others⟩ := whole
      obtain ⟨block, meant⟩ := Option.isSome_iff_exists.1 meant
      rw [partsMeant_cons meant, List.map_cons]
      cases image : part.isImage with
      | false =>
          obtain ⟨same, other⟩ := mark_meant taken image meant
          rw [pictures, List.filter_cons_of_neg (by simp [image])] at images
          rw [same, fillImages_other other, ih others images]
          rfl
      | true =>
          rw [pictures, List.filter_cons_of_pos image, partsMeant_cons meant] at images
          obtain ⟨before, after, rfl, none, picture, later⟩ := List.filter_eq_cons_iff.1 images
          have found : (before ++ block :: after).dropWhile (fun block => !block.isImage) =
              block :: after := by
            rw [List.dropWhile_append_of_pos (by simpa using none)]
            simp [picture]
          have marked : mark part = .validatedImage := by
            cases part <;> first | rfl | cases image
          rw [marked, fillImages, found]
          simp only [ih others later, Option.map_some]

theorem replayGroups_final
    (sound : ∀ segment ∈ segments, segment.Sound fetch) (extra : List (List Block)) :
    replayGroups (segments.map Segment.message)
      ((heldTurns segments).map (fun parts => parts.map mark) ++ extra) =
        some (segments.map (Segment.final fetch)) := by
  induction segments with
  | nil => rfl
  | cons segment rest ih =>
      rw [List.forall_mem_cons] at sound
      obtain ⟨role, held, parts⟩ := segment
      cases role with
      | user =>
          have skip : heldTurns (⟨.user, held, parts⟩ :: rest) = heldTurns rest := rfl
          simp only [skip, List.map_cons, replayGroups, Segment.message, ih sound.2]
          rfl
      | assistant =>
          have take : heldTurns (⟨.assistant, held, parts⟩ :: rest) = parts :: heldTurns rest := rfl
          obtain ⟨whole, images⟩ := sound.1 rfl
          simp only [take, List.map_cons, List.cons_append, replayGroups, Segment.message,
            fillImages_meant whole images, ih sound.2]
          rfl

theorem fillImages_length {group validated blocks : List Block}
    (filled : fillImages group validated = some blocks) : blocks.length = group.length := by
  induction group generalizing validated blocks with
  | nil =>
      cases filled
      rfl
  | cons block rest ih =>
      rw [fillImages.eq_def] at filled
      split at filled
      · next same => cases same
      · next same =>
        cases same
        split at filled
        · cases filled
        · obtain ⟨others, later, rfl⟩ := Option.map_eq_some_iff.1 filled
          simp [ih later]
      · next same =>
        cases same
        obtain ⟨others, later, rfl⟩ := Option.map_eq_some_iff.1 filled
        simp [ih later]

def turnMessages (messages : List WireMessage) : List WireMessage :=
  messages.filter fun message => message.role = .assistant

/-- The turns are as long as the first groups. -/
theorem replayGroups_length {messages replayed : List WireMessage} {groups : List (List Block)}
    (done : replayGroups messages groups = some replayed) :
    (turnMessages replayed).map (fun message => message.content.length) =
      (groups.take (turnMessages messages).length).map List.length := by
  induction messages generalizing groups replayed with
  | nil =>
      cases done
      rfl
  | cons message rest ih =>
      simp only [replayGroups] at done
      split at done
      · next mine =>
        split at done
        · cases done
        · split at done
          · next filled later =>
            cases done
            simpa [turnMessages, mine, fillImages_length filled] using ih later
          · cases done
      · next other =>
        obtain ⟨tail, later, rfl⟩ := Option.map_eq_some_iff.1 done
        simpa [turnMessages, other] using ih later

/-- A call stands under the assistant, and no media type holds the delimiter. -/
def Stands (role : WireRole) : Block → Prop
  | .image mediaType _ => ¬ delimiter <:+: mediaType
  | .toolUse .. => role = .assistant
  | _ => True

/-- A message with calls is the assistant's. -/
def CallsOwned (message : ChatMessage) : Prop :=
  message.toolCalls = [] ∨ message.role = .assistant

theorem encodeItem_owned (encoded : encodeItem profile fetch item = some messages) :
    ∀ message ∈ messages, CallsOwned message := by
  rw [encodeItem] at encoded
  split at encoded
  · cases encoded
  · split at encoded
    · obtain ⟨calls, _, rfl⟩ := Option.map_eq_some_iff.1 encoded
      exact List.forall_mem_singleton.2 (.inr rfl)
    · cases encoded
  · split at encoded
    · intro message mem
      obtain ⟨part, _, made⟩ := mem_of_mapM encoded mem
      cases part with
      | toolResult result =>
          rw [encodeResult] at made
          split at made
          · cases made
          · cases made
            exact .inl rfl
      | text | image | file | toolCall | thinking => cases made
    · cases encoded
  · split at encoded
    · cases encoded
      exact List.forall_mem_singleton.2 (.inl rfl)
    · cases encoded

theorem partBlock_allowed {part : ChatPart} {block : Block} (role : WireRole)
    (made : partBlock part = some block) : Stands role block := by
  cases part with
  | text text =>
      cases made
      trivial
  | imageUrl url =>
      obtain ⟨cut, found, rfl⟩ := Option.map_eq_some_iff.1 made
      exact fun inside => (cutDelimiter_clean found).2 (inside.trans (List.drop_suffix ..).isInfix)

theorem contentBlocks_allowed {message : ChatMessage} (role : WireRole)
    (made : contentBlocks message = some blocks) : ∀ block ∈ blocks, Stands role block := by
  rw [contentBlocks] at made
  split at made
  · cases made
    exact List.forall_mem_singleton.2 trivial
  · cases made
    exact fun _ mem => absurd mem List.not_mem_nil
  · cases made
    split
    · exact fun _ mem => absurd mem List.not_mem_nil
    · exact List.forall_mem_singleton.2 trivial
  · intro block mem
    obtain ⟨part, _, found⟩ := mem_of_mapM made mem
    exact partBlock_allowed role found

theorem messageBlocks_allowed {message : ChatMessage}
    (owned : CallsOwned message) (made : messageBlocks message = some blocks) :
    ∀ block ∈ blocks, Stands (wireRoleOf message.role) block := by
  rw [messageBlocks] at made
  split at made
  · next content calls first second =>
    cases made
    refine List.forall_mem_append.2 ⟨contentBlocks_allowed _ first, fun block mem => ?_⟩
    obtain ⟨call, inside, found⟩ := mem_of_mapM second mem
    cases owned with
    | inl none =>
        rw [none] at inside
        cases inside
    | inr mine =>
        rw [callBlock] at found
        split at found
        · split at found
          · cases found
            rw [mine]
            rfl
          · cases found
        · cases found
  · cases made

/-- A wire request with nothing out of place. -/
structure WellPlaced (wire : Wire) : Prop where
  system : ∀ block ∈ wire.system, block.isText
  messages : ∀ message ∈ wire.messages, ∀ block ∈ message.content, Stands message.role block

theorem mergeMessage_allowed {role : WireRole} {messages : List WireMessage}
    (allowed : ∀ message ∈ messages, ∀ block ∈ message.content, Stands message.role block)
    (new : ∀ block ∈ blocks, Stands role block) :
    ∀ message ∈ mergeMessage role blocks messages, ∀ block ∈ message.content,
      Stands message.role block := by
  rcases List.eq_nil_or_concat messages with rfl | ⟨front, last, rfl⟩
  · exact List.forall_mem_singleton.2 new
  · rw [List.concat_eq_append, List.forall_mem_append, List.forall_mem_singleton] at allowed
    by_cases same : last.role = role
    · have joined : mergeMessage role blocks (front ++ [last]) =
          front ++ [⟨role, last.content ++ blocks⟩] := by simp [mergeMessage, same]
      rw [List.concat_eq_append, joined, List.forall_mem_append, List.forall_mem_singleton]
      exact ⟨allowed.1, List.forall_mem_append.2 ⟨same ▸ allowed.2, new⟩⟩
    · have apart : mergeMessage role blocks (front ++ [last]) =
          front ++ [last] ++ [⟨role, blocks⟩] := by simp [mergeMessage, same]
      rw [List.concat_eq_append, apart, List.forall_mem_append, List.forall_mem_append,
        List.forall_mem_singleton, List.forall_mem_singleton]
      exact ⟨allowed, new⟩

theorem placeMessages_wellPlaced {wire placed : Wire}
    (well : WellPlaced wire) (owned : ∀ message ∈ messages, CallsOwned message)
    (run : messages.foldlM placeMessage wire = some placed) : WellPlaced placed := by
  induction messages generalizing wire with
  | nil =>
      cases run
      exact well
  | cons message rest ih =>
      obtain ⟨next, first, later⟩ := Option.bind_eq_some_iff.1 run
      rw [List.forall_mem_cons] at owned
      refine ih ?_ owned.2 later
      rw [placeMessage] at first
      split at first
      · cases first
      · next blocks made =>
        split at first
        · split at first
          · next texts =>
            cases first
            exact ⟨List.forall_mem_append.2 ⟨well.system, List.all_eq_true.1 texts⟩, well.messages⟩
          · cases first
        · cases first
          exact ⟨well.system,
            mergeMessage_allowed well.messages (messageBlocks_allowed owned.1 made)⟩

theorem mark_allowed (part : ModelContentPart) : Stands .assistant (mark part) := by
  cases part with
  | thinking text signature redacted =>
      rw [mark, replayBlock]
      split
      · trivial
      · cases redacted <;> trivial
  | text | file | toolResult | image => trivial
  | toolCall call => rfl

theorem fillImages_allowed {group validated blocks : List Block}
    (marked : ∀ block ∈ group, Stands .assistant block)
    (held : ∀ block ∈ validated, Stands .assistant block)
    (filled : fillImages group validated = some blocks) :
    ∀ block ∈ blocks, Stands .assistant block := by
  induction group generalizing validated blocks with
  | nil =>
      cases filled
      exact fun _ mem => absurd mem List.not_mem_nil
  | cons first rest ih =>
      rw [List.forall_mem_cons] at marked
      rw [fillImages.eq_def] at filled
      split at filled
      · next same => cases same
      · next same =>
        cases same
        split at filled
        · cases filled
        · next picture after found =>
          obtain ⟨others, later, rfl⟩ := Option.map_eq_some_iff.1 filled
          have inside : ∀ block ∈ picture :: after, Stands .assistant block := fun block mem =>
            held block ((List.dropWhile_suffix _).subset (found ▸ mem))
          rw [List.forall_mem_cons] at inside
          exact List.forall_mem_cons.2 ⟨inside.1, ih marked.2 inside.2 later⟩
      · next same =>
        cases same
        obtain ⟨others, later, rfl⟩ := Option.map_eq_some_iff.1 filled
        exact List.forall_mem_cons.2 ⟨marked.1, ih marked.2 held later⟩

theorem replayGroups_allowed {messages replayed : List WireMessage} {groups : List (List Block)}
    (allowed : ∀ message ∈ messages, ∀ block ∈ message.content, Stands message.role block)
    (marked : ∀ group ∈ groups, ∀ block ∈ group, Stands .assistant block)
    (done : replayGroups messages groups = some replayed) :
    ∀ message ∈ replayed, ∀ block ∈ message.content, Stands message.role block := by
  induction messages generalizing groups replayed with
  | nil =>
      cases done
      exact fun _ mem => absurd mem List.not_mem_nil
  | cons message rest ih =>
      rw [List.forall_mem_cons] at allowed
      simp only [replayGroups] at done
      split at done
      · next mine =>
        split at done
        · cases done
        · split at done
          · next filled later =>
            cases done
            rw [List.forall_mem_cons] at marked
            exact List.forall_mem_cons.2
              ⟨fillImages_allowed marked.1 (mine ▸ allowed.1) filled, ih allowed.2 marked.2 later⟩
          · cases done
      · obtain ⟨tail, later, rfl⟩ := Option.map_eq_some_iff.1 done
        exact List.forall_mem_cons.2 ⟨allowed.1, ih allowed.2 marked later⟩

end Held

end Mira.Model
