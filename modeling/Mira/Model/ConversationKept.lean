import Mira.Model.Replayed

/-!
The encoded request carries the conversation exactly when the input is orderly.
-/

namespace Mira.Model
open Mira Bytes Storage

section Kept
variable {request : ModelRequest} {profile : ModelProfile} {stream : Bool}
variable {fetch : ArtifactRef → Option Bytes} {wire : Wire}

/-- The steps of an encoding that is accepted. -/
theorem encodeRequest_steps (accepted : encodeRequest request profile stream fetch = some wire) :
    ∃ split chunks held replayed, SplitOf request.input split ∧
      (request.input.flatMap pieces).mapM (encodeItem profile fetch) = some chunks ∧
      chunks.flatten.foldlM placeMessage {} = some held ∧
      replayGroups held.messages split.groups = some replayed ∧
      wire = { held with messages := replayed } := by
  rw [encodeRequest] at accepted
  split at accepted
  · cases accepted
  · obtain ⟨split, done, accepted⟩ := Option.bind_eq_some_iff.1 accepted
    split at accepted
    · cases accepted
    · obtain ⟨messages, chat, accepted⟩ := Option.bind_eq_some_iff.1 accepted
      obtain ⟨held, placed, accepted⟩ := Option.bind_eq_some_iff.1 accepted
      obtain ⟨replayed, replay, same⟩ := Option.bind_eq_some_iff.1 accepted
      cases same
      have start : SplitOf [] {} :=
        ⟨rfl, by simp [assistantTurns, allRuns], by simp [allRuns], by simp, by simp⟩
      have splitOf := start.run done
      rw [chatMessages, splitOf.translated] at chat
      split at chat
      · cases chat
      · obtain ⟨chunks, encoded, rfl⟩ := Option.map_eq_some_iff.1 chat
        exact ⟨split, chunks, held, replayed, splitOf, encoded, placed, replay, rfl⟩

theorem placed_start : Placed fetch [] {} [] where
  messages := rfl
  sound := by simp
  alternating := List.isChain_nil
  complete := by simp
  system := rfl
  conversation := rfl
  turns := by simp [fullTurns_eq, allRuns, heldTurns, turnParts]
  open_ := by simp [allRuns, turnParts]

theorem told_finals (segments : List Segment) :
    told (segments.map (Segment.final fetch)) = segments.flatMap (Segment.told fetch) := by
  rw [told, List.flatMap_map]
  apply List.flatMap_congr
  intro segment _
  simp [Segment.told, told]

theorem turns_finals (segments : List Segment) :
    (turnMessages (segments.map (Segment.final fetch))).map (·.content) =
      (heldTurns segments).map (partsMeant fetch) := by
  induction segments with
  | nil => rfl
  | cons segment rest ih =>
      obtain ⟨role, held, parts⟩ := segment
      cases role with
      | user => exact ih
      | assistant => exact congrArg (partsMeant fetch parts :: ·) ih

/-- An orderly input is carried. -/
theorem encodeRequest_conveys (orderly : Orderly request.input)
    (accepted : encodeRequest request profile stream fetch = some wire) :
    Conveyed fetch request.input wire := by
  obtain ⟨split, chunks, held, replayed, splitOf, encoded, run, replay, rfl⟩ :=
    encodeRequest_steps accepted
  obtain ⟨segments, placed⟩ :=
    placed_start.run orderly.fitting splitOf.taken splitOf.plain encoded run
  rw [List.nil_append] at placed
  obtain ⟨extra, groups⟩ := others_first orderly.empties
  have same : split.groups = (heldTurns segments).map (fun parts => parts.map mark) ++
      extra.map fun parts => parts.map mark := by
    have turns : split.groups = ((assistantTurns request.input).map turnParts).map
        fun parts => parts.map mark := by
      rw [splitOf.groups, List.map_map]
      rfl
    rw [turns, groups, List.map_append, placed.turns]
    rfl
  rw [placed.messages, same, replayGroups_final placed.sound] at replay
  cases replay
  refine ⟨placed.complete, placed.system, (told_finals segments).trans placed.conversation, ?_,
    (turns_finals segments).trans (congrArg _ placed.turns)⟩
  rw [List.isChain_map]
  exact placed.alternating

theorem encodeRequest_wellPlaced
    (accepted : encodeRequest request profile stream fetch = some wire) : WellPlaced wire := by
  obtain ⟨split, chunks, held, replayed, splitOf, encoded, run, replay, rfl⟩ :=
    encodeRequest_steps accepted
  have owned : ∀ message ∈ chunks.flatten, CallsOwned message := by
    intro message mem
    obtain ⟨chunk, inside, mem⟩ := List.mem_flatten.1 mem
    obtain ⟨item, _, made⟩ := mem_of_mapM encoded inside
    exact encodeItem_owned made message mem
  have start : WellPlaced {} := ⟨by simp, by simp⟩
  have well := placeMessages_wellPlaced start owned run
  refine ⟨well.system, replayGroups_allowed well.messages ?_ replay⟩
  intro group mem block inside
  rw [splitOf.groups] at mem
  obtain ⟨run, _, rfl⟩ := List.mem_map.1 mem
  obtain ⟨part, _, rfl⟩ := List.mem_map.1 inside
  exact mark_allowed part

theorem mem_spelled {block other : Block} (mem : block ∈ other.spelled) :
    block = other ∨ block.isText := by
  cases other with
  | text text =>
      obtain ⟨c, _, rfl⟩ := List.mem_map.1 mem
      exact .inr rfl
  | image | toolUse | toolResult | thinking | redactedThinking | validatedImage =>
      exact .inl (List.mem_singleton.1 mem)

theorem mem_spelling {item : ModelInputItem} {part : ModelContentPart} {block : Block}
    (mem : part ∈ item.content) (meant : partMeant fetch part = some block)
    (other : block.isText = false) : block ∈ spelling (partsMeant fetch item.content) := by
  refine List.mem_flatMap.2 ⟨block, List.mem_filterMap.2 ⟨part, mem, meant⟩, ?_⟩
  cases block with
  | text text => cases other
  | image | toolUse | toolResult | thinking | redactedThinking | validatedImage =>
      exact List.mem_singleton.2 rfl

/-- A block that is no text stands under the role of its item. -/
theorem Conveyed.allowed {input : List ModelInputItem} {item : ModelInputItem}
    {part : ModelContentPart} {block : Block} (conveyed : Conveyed fetch input wire)
    (well : WellPlaced wire) (inside : item ∈ input) (mem : part ∈ item.content)
    (meant : partMeant fetch part = some block) (other : block.isText = false) :
    item.isSystem = false ∧ Stands (wireRole item.role) block := by
  have spelled := mem_spelling mem meant other
  cases talk : item.isSystem with
  | true =>
      have found : block ∈ spelling wire.system := by
        rw [conveyed.system]
        exact List.mem_flatMap.2 ⟨item, List.mem_filter.2 ⟨inside, talk⟩, spelled⟩
      obtain ⟨text, held, found⟩ := List.mem_flatMap.1 found
      cases mem_spelled found with
      | inl same => cases other.symm.trans (same ▸ well.system text held)
      | inr isText => cases other.symm.trans isText
  | false =>
      have found : (wireRole item.role, block) ∈ told wire.messages := by
        rw [conveyed.conversation]
        exact List.mem_flatMap.2 ⟨item, List.mem_filter.2 ⟨inside, by simp [talk]⟩,
          List.mem_map.2 ⟨block, spelled, rfl⟩⟩
      obtain ⟨message, held, pair⟩ := List.mem_flatMap.1 found
      obtain ⟨shown, part, same⟩ := List.mem_map.1 pair
      obtain ⟨role, rfl⟩ := Prod.mk.inj same
      obtain ⟨text, standing, found⟩ := List.mem_flatMap.1 part
      refine ⟨rfl, ?_⟩
      rw [← role]
      cases mem_spelled found with
      | inl same => exact same ▸ well.messages message held text standing
      | inr isText => cases other.symm.trans isText

theorem Conveyed.fitting {input : List ModelInputItem} (conveyed : Conveyed fetch input wire)
    (well : WellPlaced wire) : ∀ item ∈ input, Fitting item := by
  intro item inside
  refine ⟨fun call mem => ?_, fun result mem => ?_, fun source detail mem => ?_⟩
  · have mine := (conveyed.allowed well inside mem rfl rfl).2
    obtain ⟨role, content⟩ := item
    cases role <;> first | rfl | cases mine
  · exact (conveyed.allowed well inside mem rfl rfl).1
  · obtain ⟨block, meant⟩ := Option.isSome_iff_exists.1 (conveyed.complete item inside _ mem)
    obtain ⟨bytes, found, rfl⟩ := Option.map_eq_some_iff.1 meant
    exact (conveyed.allowed well inside mem meant rfl).2

/-- A turn without content is shown by a message without any where another turn follows. -/
theorem encodeRequest_orderly (accepted : encodeRequest request profile stream fetch = some wire)
    (conveyed : Conveyed fetch request.input wire) : Orderly request.input := by
  have fitting := conveyed.fitting (encodeRequest_wellPlaced accepted)
  obtain ⟨split, chunks, held, replayed, splitOf, encoded, run, replay, rfl⟩ :=
    encodeRequest_steps accepted
  obtain ⟨segments, placed⟩ :=
    placed_start.run fitting splitOf.taken splitOf.plain encoded run
  rw [List.nil_append] at placed
  have count : (turnMessages held.messages).length = (fullTurns request.input).length := by
    rw [← placed.turns, placed.messages, turnMessages, heldTurns, List.filter_map,
      List.length_map, List.length_map]
    rfl
  have lengths := replayGroups_length replay
  have turns : (turnMessages replayed).map (·.content) =
      (fullTurns request.input).map (partsMeant fetch) := conveyed.turns
  refine ⟨fitting, empties_behind (n := (fullTurns request.input).length) ?_ rfl⟩
  rintro group mem rfl
  have sizes : (split.groups.take (fullTurns request.input).length).map List.length =
      (((assistantTurns request.input).map turnParts).take
        (fullTurns request.input).length).map List.length := by
    simp only [splitOf.groups, ← List.map_take, List.map_map]
    apply List.map_congr_left
    intro turn _
    simp [marks]
  rw [count, sizes] at lengths
  have short : 0 ∈ (turnMessages replayed).map fun message => message.content.length := by
    rw [lengths]
    exact List.mem_map.2 ⟨[], mem, rfl⟩
  obtain ⟨message, held, none⟩ := List.mem_map.1 short
  have said : message.content ∈ (fullTurns request.input).map (partsMeant fetch) := by
    rw [← turns]
    exact List.mem_map.2 ⟨message, held, rfl⟩
  obtain ⟨parts, full, same⟩ := List.mem_map.1 said
  have some : parts ≠ [] := by simpa using (List.mem_filter.1 full).2
  rw [← placed.turns] at full
  obtain ⟨segment, inside, rfl⟩ := List.mem_map.1 full
  rw [List.mem_filter, decide_eq_true_iff] at inside
  obtain ⟨whole, _⟩ := placed.sound segment inside.1 inside.2
  obtain ⟨part, first⟩ := List.exists_mem_of_ne_nil _ some
  obtain ⟨block, meant⟩ := Option.isSome_iff_exists.1 (whole part first).2
  have there : block ∈ message.content := same ▸ List.mem_filterMap.2 ⟨part, first, meant⟩
  rw [List.length_eq_zero_iff.1 none] at there
  cases there

end Kept

/-- The Messages encoding carries the conversation exactly when the input is orderly. -/
theorem encodeRequest_conveys_iff (request : ModelRequest) (profile : ModelProfile)
    (stream : Bool) (fetch : ArtifactRef → Option Bytes) (wire : Wire)
    (accepted : encodeRequest request profile stream fetch = some wire) :
    Conveyed fetch request.input wire ↔ Orderly request.input :=
  ⟨encodeRequest_orderly accepted, fun orderly => encodeRequest_conveys orderly accepted⟩

def onePixel : ArtifactRef where
  id := default
  digest := ⟨List.replicate 32 0, rfl⟩
  byteSize := 3
  mediaType := ascii "image/png"

def looking : ModelRequest where
  input :=
    [⟨.system, [.text (ascii "look")]⟩, ⟨.user, [.text (ascii "a"), .image onePixel .auto]⟩,
      ⟨.assistant, [.thinking (ascii "t") (ascii "s") false, .text (ascii "b")]⟩,
      ⟨.assistant, []⟩, ⟨.user, [.text (ascii "c")]⟩]
  options := { maxOutputTokens := some 16 }

theorem looking_conveyed : ∃ wire,
    encodeRequest looking {} false (fun _ => some [1, 2, 3]) = some wire ∧
      wire.messages.length = 3 ∧ Conveyed (fun _ => some [1, 2, 3]) looking.input wire := by
  refine ⟨_, rfl, rfl, (encodeRequest_conveys_iff looking {} false _ _ rfl).2 ⟨?_, ?_⟩⟩
  · simp only [looking, List.forall_mem_cons, List.not_mem_nil, false_imp_iff, implies_true,
      and_true]
    refine ⟨⟨by simp, by simp, by simp⟩, ⟨by simp, by simp, ?_⟩, ⟨by simp, by simp, by simp⟩,
      ⟨by simp, by simp, by simp⟩, ⟨by simp, by simp, by simp⟩⟩
    intro source detail mem
    simp only [List.mem_cons, reduceCtorEq, ModelContentPart.image.injEq, List.not_mem_nil,
      or_false, false_or] at mem
    rw [mem.1]
    decide
  · exact List.pairwise_singleton ..

def silence : ModelRequest where
  input :=
    [⟨.user, [.text (ascii "a")]⟩, ⟨.assistant, []⟩, ⟨.user, [.text (ascii "b")]⟩,
      ⟨.assistant, [.text (ascii "c")]⟩]
  options := { maxOutputTokens := some 16 }

/-- The answer after the silence is sent without its content. -/
theorem answer_lost : ∃ wire, encodeRequest silence {} false (fun _ => none) = some wire ∧
    ¬ Conveyed (fun _ => none) silence.input wire := by
  refine ⟨_, rfl, fun conveyed => ?_⟩
  have sizes := congrArg (List.map List.length) conveyed.turns
  revert sizes
  decide

end Mira.Model
