import Mira.Interaction.Stream
import Mira.Events.LogWire
import Mira.Json.Characters

/-!
Bounded texts in the records of the ledger.

A bound is a number of bytes, so it may fall inside a character. What is left of the
character is copied by the writer and refused by the parser: the record that carries the text
is skipped when the ledger is rebuilt, and the line of the event log that carries the record
stops the recovery of the store. The bound is harmless exactly where the byte at the limit
begins a character.
-/

namespace Mira.Interaction
open Mira Bytes Events

def roomyLimits (size : Nat) : JsonLimits :=
  { maxDocumentBytes := size, maxStringBytes := 1024 * 1024 + size }

theorem within_roomyLimits (size : Nat) : ({} : JsonLimits).Within (roomyLimits size) :=
  ⟨Nat.le_add_right _ _, Nat.le_refl _, Nat.le_refl _⟩

theorem parseJson_larger {limits limits' : JsonLimits} (within : limits.Within limits')
    (depth : limits'.maxDepth = limits.maxDepth) {text : Bytes} {value value' : JsonValue}
    (small : parseJson (123 :: text) limits = .ok value)
    (large : parseJson (123 :: text) limits' = .ok value') : value = value' := by
  have inside : ∀ {bounds : JsonLimits} {found : JsonValue},
      parseJson (123 :: text) bounds = .ok found →
      ∃ rest, parseValue bounds bounds.maxDepth (123 :: text) = .ok (found, rest) := by
    intro bounds found read
    unfold parseJson at read
    split at read
    · cases read
    · exact parseDocument_value bounds _ found read
  obtain ⟨rest, read⟩ := inside small
  obtain ⟨rest', read'⟩ := inside large
  rw [depth] at read'
  cases levels : limits.maxDepth with
  | zero => rw [levels] at read; cases read
  | succ levels' =>
      rw [levels] at read read'
      obtain ⟨_, _, extend⟩ := parseObject_reads levels' within _ _ _ read
      have same := extend []
      rw [List.append_nil, List.append_nil] at same
      have both : Except.ok (value, rest) = Except.ok (value', rest') := same.symm.trans read'
      cases both
      rfl

section Objects
variable {members : Members} (flat : Flat members)
  (numbers : ∀ key value, (key, JsonValue.integer value) ∈ members → value ≠ -2 ^ 63)
include flat numbers

theorem Flat.parsed_roomy
    (texts : ∀ key text, (key, JsonValue.string text) ∈ members → ValidUtf8 text) :
    parseJson (toJsonString (.object members))
      (roomyLimits (toJsonString (.object members)).length) = .ok (.object members) := by
  have portable : (JsonValue.object members).Portable
      (roomyLimits (toJsonString (.object members)).length) 32 := by
    have few := flat.few
    rw [List.length_map] at few
    have room : 100 ≤ (roomyLimits (toJsonString (.object members)).length).maxObjectMembers := by
      change 100 ≤ ({} : JsonLimits).maxObjectMembers
      decide
    refine .object members (few.trans room) flat.keys.1 ?_ ?_
    · intro member present
      obtain ⟨low, short⟩ := flat.keys.2 member.1 (List.mem_map_of_mem present)
      have room : 64 ≤ 1024 * 1024 + (toJsonString (.object members)).length := by omega
      exact ⟨validUtf8_printable_ascii _ low, short.trans_le room⟩
    · intro member present
      obtain ⟨key, value⟩ := member
      have held := flat.values _ present
      cases value with
      | string text =>
          have size := (length_member false members _ present).2
          have written := length_writeString text
          rw [writeValue] at size
          refine .string text (texts key text present) ?_
          change text.length < 1024 * 1024 + (writeValue false (.object members)).length
          omega
      | integer number =>
          exact .integer number (lt_of_le_of_ne held.1 (numbers key number present).symm) held.2
      | _ => cases held
  have read := parseJson_writeValue false _ _ portable (Nat.le_refl _)
  rw [JsonValue.arrange_false portable] at read
  exact read

theorem Flat.valid_iff :
    ValidUtf8 (toJsonString (.object members)) ↔
      ∀ key text, (key, JsonValue.string text) ∈ members → ValidUtf8 text :=
  ⟨fun valid _ _ held => validUtf8_of_object valid held,
    fun texts => validUtf8_of_parseJson (flat.parsed_roomy numbers texts)⟩

theorem Flat.accepted_iff :
    (∃ document, parseJson (toJsonString (.object members)) {} = .ok document) ↔
      Legible members := by
  constructor
  · intro ⟨document, read⟩
    have valid := (flat.valid_iff numbers).mp (validUtf8_of_parseJson read)
    have same : document = .object members :=
      parseJson_larger (within_roomyLimits _) rfl read (flat.parsed_roomy numbers valid)
    obtain ⟨size, fits⟩ := parseJson_fits read
    rw [same] at fits
    refine ⟨?_, numbers, size⟩
    intro key text held
    cases fits with
    | object _ each =>
        cases each _ held with
        | string _ room => exact ⟨valid key text held, room⟩
  · exact fun legible => ⟨_, legible.parsed flat⟩

end Objects

/-- The text that the record of a transition carries for its caller. -/
def LedgerTransition.carried (transition : LedgerTransition) : Bytes :=
  match transition.stage with
  | .accepted => transition.clarification.getD []
  | .rejected => (transition.error.map InteractionError.safeMessage).getD transition.note
  | .routed | .answered | .taskSettled => transition.note

section Records
variable {entry : LedgerEntry} {transition : LedgerTransition} {type : InteractionEventType}
  {members : Members}

theorem record_numbers (recorded : entry.record transition = some (type, members)) :
    ∀ key value, (key, JsonValue.integer value) ∈ members → value ≠ -2 ^ 63 := by
  have code (reason : Int32) : reason.toInt ≠ -2 ^ 63 := by
    have low := reason.le_toInt
    omega
  intro key value held
  simp only [LedgerEntry.record] at recorded
  split at recorded
  · cases recorded
    have own : key = ascii "reason_code" ∧ value = ((transition.error.map
        InteractionError.domainCode).getD InteractionDomainCode.unknown.value).toInt := by
      simpa [rejectedPayload, headMembers] using held
    exact own.2 ▸ code _
  · cases recorded
    simp [routedPayload, headMembers] at held
  · cases recorded
    simp [answeredPayload, headMembers] at held
  · cases recorded
    simp [settledPayload, headMembers] at held
  · split at recorded
    · cases recorded
      simp [clarifiedPayload, headMembers] at held
    · cases recorded

/-- A value that is a text has the property. -/
def HoldsText (holds : Bytes → Prop) : JsonValue → Prop
  | .string text => holds text
  | _ => True

theorem texts_iff (holds : Bytes → Prop) (members : Members) :
    (∀ key text, (key, JsonValue.string text) ∈ members → holds text) ↔
      ∀ member ∈ members, HoldsText holds member.2 := by
  constructor
  · intro texts member held
    obtain ⟨key, value⟩ := member
    cases value with
    | string text => exact texts key text held
    | _ => trivial
  · exact fun each key text held => each _ held

theorem record_texts (recorded : entry.record transition = some (type, members))
    {holds : Bytes → Prop}
    (plain : ∀ text : Bytes, (∀ b ∈ text, b.toNat < 128) → text.length ≤ 64 → holds text) :
    (∀ key text, (key, JsonValue.string text) ∈ members → holds text) ↔
      holds entry.inputId ∧ holds transition.carried := by
  have schema (kind : InteractionEventType) : holds kind.schema := by
    apply plain
    · cases kind <;> decide
    · cases kind <;> decide
  have name (intent : Option RouteIntent) : holds ((intent.map RouteIntent.name).getD []) := by
    cases intent with
    | none => exact plain [] (by simp) (by simp)
    | some intent =>
        apply plain
        · cases intent <;> decide
        · cases intent <;> decide
  have named {tag : IdTag} (id : StrongId tag) : holds id.toString :=
    plain _ (toHex_ascii _) (by rw [id.length_toString]; decide)
  have optional {tag : IdTag} (id : Option (StrongId tag)) : holds (idText id) := by
    cases id with
    | none => exact plain [] (by simp) (by simp)
    | some id => exact named id
  rw [texts_iff]
  simp only [LedgerEntry.record] at recorded
  split at recorded
  · next stage =>
      cases recorded
      simp [rejectedPayload, headMembers, LedgerTransition.carried, stage, HoldsText, schema,
        named]
  · next stage =>
      cases recorded
      simp [routedPayload, headMembers, LedgerTransition.carried, stage, HoldsText, schema, named,
        name, optional]
  · next stage =>
      cases recorded
      simp [answeredPayload, headMembers, LedgerTransition.carried, stage, HoldsText, schema,
        named, optional]
  · next stage =>
      cases recorded
      simp [settledPayload, headMembers, LedgerTransition.carried, stage, HoldsText, schema, named,
        optional]
  · next stage =>
      split at recorded
      · cases recorded
        simp [clarifiedPayload, headMembers, LedgerTransition.carried, stage, HoldsText, schema,
          named]
      · cases recorded

end Records

def goalLine (task : PrincipalTaskEntry) : Bytes := ascii "\n- " ++ boundText task.goal 120

/-- Each goal is cut at a character where its line ends within the room that is left. -/
def GoalsCut : Nat → List PrincipalTaskEntry → Prop
  | _, [] => True
  | room, task :: rest =>
      CutsAtCharacter task.goal (min (room - 3) 120) ∧
        GoalsCut (room - (goalLine task).length) rest

theorem clarifyingQuestion_eq (live : List PrincipalTaskEntry) :
    clarifyingQuestion live =
      ascii "Which item should this apply to?" ++ live.flatMap goalLine := by
  have folded (start : Bytes) :
      live.foldl (fun question task =>
        question ++ ascii "\n- " ++ boundText task.goal 120) start =
        start ++ live.flatMap goalLine := by
    induction live generalizing start with
    | nil => simp
    | cons task rest ih => rw [List.foldl_cons, ih, List.flatMap_cons, goalLine]; simp
  exact folded _

theorem validUtf8_append_iff {first second : Bytes}
    (meets : ∀ b ∈ second.head?, b.toNat < 128) :
    ValidUtf8 (first ++ second) ↔ ValidUtf8 first ∧ ValidUtf8 second := by
  constructor
  · intro whole
    have own := whole.cut fun b starts => not_isContinuation_ascii (meets b starts)
    exact ⟨own, own.after whole⟩
  · exact fun parts => parts.1.append parts.2

variable {live : List PrincipalTaskEntry}

theorem goals_cut_iff (room : Nat) (valid : ∀ task ∈ live, ValidUtf8 task.goal) :
    ValidUtf8 ((live.flatMap goalLine).take room) ↔ GoalsCut room live := by
  induction live generalizing room with
  | nil => simp [GoalsCut, validUtf8_nil]
  | cons task rest ih =>
      obtain ⟨own, others⟩ := List.forall_mem_cons.mp valid
      have meets : ∀ b ∈ ((rest.flatMap goalLine).take (room - (goalLine task).length)).head?,
          b.toNat < 128 := by
        intro b starts
        cases rest with
        | nil => simp at starts
        | cons next rest =>
            cases left : room - (goalLine task).length with
            | zero => rw [left] at starts; cases starts
            | succ left' =>
                rw [left] at starts
                cases starts
                decide
      have lineStart : ValidUtf8 ((ascii "\n- ").take room) :=
        validUtf8_printable_ascii _ fun b held =>
          (by decide : ∀ b ∈ ascii "\n- ", b.toNat < 128) b (List.mem_of_mem_take held)
      have line : (goalLine task).take room =
          (ascii "\n- ").take room ++ task.goal.take (min (room - 3) 120) := by
        have three : (ascii "\n- ").length = 3 := rfl
        rw [goalLine, List.take_append, three, boundText, List.take_take]
      rw [List.flatMap_cons, List.take_append, validUtf8_append_iff meets, ih _ others, GoalsCut,
        line, ← own.take_iff]
      exact and_congr_left fun _ => ⟨lineStart.after, lineStart.append⟩

theorem clarification_cut_iff (valid : ∀ task ∈ live, ValidUtf8 task.goal) :
    ValidUtf8 (boundText (clarifyingQuestion live) maxClarificationBytes) ↔
      GoalsCut (maxClarificationBytes - 32) live := by
  have asked : (ascii "Which item should this apply to?").length = 32 := rfl
  have plain : ValidUtf8 (ascii "Which item should this apply to?") :=
    validUtf8_printable_ascii _ (by decide)
  rw [← goals_cut_iff _ valid, clarifyingQuestion_eq, boundText, List.take_append, asked,
    List.take_of_length_le (by rw [asked]; decide)]
  exact ⟨plain.after, plain.append⟩

variable {entry : LedgerEntry} {transition : LedgerTransition} {type : InteractionEventType}
  {members : Members}

theorem record_accepted_iff (recorded : entry.record transition = some (type, members)) :
    (∃ document, parseJson (toJsonString (.object members)) {} = .ok document) ↔
      Readable entry.inputId ∧ Readable transition.carried ∧
        (toJsonString (.object members)).length ≤ 4 * 1024 * 1024 := by
  have numbers := record_numbers recorded
  have texts : (∀ key text, (key, JsonValue.string text) ∈ members → Readable text) ↔
      Readable entry.inputId ∧ Readable transition.carried :=
    record_texts recorded fun text plain short =>
      ⟨validUtf8_printable_ascii _ plain, short.trans_lt (by decide)⟩
  rw [(record_flat recorded).accepted_iff numbers, ← and_assoc, ← texts]
  exact ⟨fun legible => ⟨legible.texts, legible.size⟩,
    fun ⟨readable, size⟩ => ⟨readable, numbers, size⟩⟩

theorem record_valid_iff (recorded : entry.record transition = some (type, members)) :
    ValidUtf8 (toJsonString (.object members)) ↔
      ValidUtf8 entry.inputId ∧ ValidUtf8 transition.carried := by
  rw [(record_flat recorded).valid_iff (record_numbers recorded),
    record_texts recorded fun text plain _ => validUtf8_printable_ascii _ plain]

theorem line_decoded_iff {record : LogWire.Record}
    (writable : ValidUtf8 record.request.payload.data → LogWire.Writable record) :
    (∃ read, LogWire.decodeV2 (LogWire.encode record) = .ok read) ↔
      ValidUtf8 record.request.payload.data := by
  constructor
  · intro ⟨read, decoded⟩
    have marked : (ascii "E2 ").isPrefixOf (LogWire.encode record) = true := by
      rw [LogWire.encode_eq, List.isPrefixOf_iff_prefix]
      exact List.prefix_append _ _
    have body : (LogWire.encode record).drop 3 =
        canonicalJsonString (.object (LogWire.members record)) := by
      rw [LogWire.encode_eq]
      rfl
    rw [LogWire.decodeV2, if_neg (by simp [marked]), body] at decoded
    split at decoded
    · cases decoded
    · next accepted =>
        refine @validUtf8_of_object _ _ _ (validUtf8_of_parseJson accepted) (ascii "data") ?_
        simp [LogWire.members, LogWire.fields]
  · exact fun valid => ⟨_, LogWire.decodeV2_encode record (writable valid)⟩

/-- A bounded text is a prefix within the limit, and it is UTF-8, its record is accepted and the
line that carries the record is read back exactly where the limit falls between characters. -/
theorem bounded_text_storable (text : Bytes) (limit : Nat) (valid : ValidUtf8 text) :
    ((boundText text limit).length ≤ limit ∧ boundText text limit <+: text ∧
      (ValidUtf8 (boundText text limit) ↔ CutsAtCharacter text limit)) ∧
    (∀ (entry : LedgerEntry) (transition : LedgerTransition) (type : InteractionEventType)
      (members : Members), entry.record transition = some (type, members) →
      transition.carried = boundText text limit →
      ((∃ document, parseJson (toJsonString (.object members)) {} = .ok document) ↔
        CutsAtCharacter text limit ∧ Readable entry.inputId ∧
          (boundText text limit).length < 1024 * 1024 ∧
          (toJsonString (.object members)).length ≤ 4 * 1024 * 1024) ∧
      ∀ record : LogWire.Record,
        record.request.payload.data = toJsonString (.object members) →
        (ValidUtf8 record.request.payload.data → LogWire.Writable record) →
        ((∃ read, LogWire.decodeV2 (LogWire.encode record) = .ok read) ↔
          CutsAtCharacter text limit ∧ ValidUtf8 entry.inputId)) ∧
    (∀ live : List PrincipalTaskEntry, (∀ task ∈ live, ValidUtf8 task.goal) →
      (ValidUtf8 (boundText (clarifyingQuestion live) maxClarificationBytes) ↔
        GoalsCut (maxClarificationBytes - 32) live)) := by
  have cut : ValidUtf8 (boundText text limit) ↔ CutsAtCharacter text limit := valid.take_iff limit
  refine ⟨⟨List.length_take_le _ _, List.take_prefix _ _, cut⟩, ?_,
    fun _ goals => clarification_cut_iff goals⟩
  intro entry transition type members recorded carries
  constructor
  · rw [record_accepted_iff recorded, carries, Readable, Readable, cut]
    tauto
  · intro record data writable
    rw [line_decoded_iff writable, data, record_valid_iff recorded, carries, cut, and_comm]

/-- A rationale of the host that its bound cuts inside the last character. -/
def cutRationale : Bytes := List.replicate 511 97 ++ ascii "é"

theorem bounded_text_whole : ValidUtf8 (boundText cutRationale 513) := by
  have whole := bounded_text_storable cutRationale 513
    ((validUtf8_printable_ascii _ (by decide +kernel)).append (validUtf8_char 'é'))
  refine whole.1.2.2.mpr ?_
  have beyond : cutRationale[513]? = none := by decide +kernel
  rw [CutsAtCharacter, beyond]
  exact fun _ absent => absurd absent (by simp)

theorem bounded_text_lost :
    ValidUtf8 cutRationale ∧ ¬ValidUtf8 (boundText cutRationale 512) ∧
    (parseJson (toJsonString (.object (routedPayload
      { inputId := ascii "i", ingressId := .filled 1 }
      { stage := .routed, note := boundText cutRationale 512 })))).toOption = none := by
  refine ⟨(validUtf8_printable_ascii _ (by decide +kernel)).append (validUtf8_char 'é'), ?_, ?_⟩
  · intro whole
    have shape : boundText cutRationale 512 = List.replicate 511 97 ++ [0xC3] := by
      decide +kernel
    rw [shape] at whole
    have alone : ValidUtf8 [(0xC3 : UInt8)] :=
      (validUtf8_printable_ascii (List.replicate 511 97) (by decide +kernel)).after whole
    exact not_validUtf8_single 0xC3 (by decide) alone
  · decide +kernel

end Mira.Interaction
