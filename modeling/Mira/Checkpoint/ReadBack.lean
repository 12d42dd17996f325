import Mira.Checkpoint.Stored

/-!
When a stored checkpoint is read back. The texts and the sizes a checkpoint may have are
those of the parser that reads its document.
-/

namespace Mira.Checkpoint
open Mira Bytes

variable {levels : Nat}

theorem eventIds_portable {ids : List EventId} (few : ids.length ≤ 100000) :
    (eventIdsToJson ids).Portable {} (levels + 2) := by
  refine .array _ (by rwa [List.length_map]) ?_
  intro item present
  obtain ⟨id, _, rfl⟩ := List.mem_map.mp present
  exact id_portable id

structure EntryKeysPlain : Prop where
  constraint : PlainKeys [ascii "key", ascii "requirement", ascii "safety", ascii "provenance"]
  fact : PlainKeys [ascii "key", ascii "value", ascii "provenance", ascii "valid_from",
    ascii "valid_until"]
  step : PlainKeys [ascii "step_id", ascii "summary", ascii "provenance"]
  objective : PlainKeys [ascii "objective", ascii "provenance"]
  issue : PlainKeys [ascii "issue", ascii "provenance"]
  sideEffect : PlainKeys [ascii "action_id", ascii "action_kind", ascii "reason",
    ascii "provenance"]
  actionSummary : PlainKeys [ascii "action_id", ascii "kind", ascii "outcome", ascii "sequence"]
  observationRef : PlainKeys [ascii "observation_id", ascii "digest", ascii "sequence"]
  schemaVersion : PlainKeys [ascii "major", ascii "minor"]

theorem entryKeys_plain : EntryKeysPlain := by
  constructor <;> decide

section Entries
variable {levels : Nat}

theorem constraint_portable {held : CheckpointConstraint}
    (texts : Readable held.key ∧ Readable held.requirement)
    (few : held.provenance.length ≤ 100000) :
    (constraintToJson held).Portable {} (levels + 3) := by
  refine object_portable (entryKeys_plain).constraint (.refl _) (by decide) ?_
  simp only [List.forall_mem_cons, List.not_mem_nil, IsEmpty.forall_iff, implies_true, and_true]
  exact ⟨texts.1.portable, texts.2.portable, .boolean _, eventIds_portable few⟩

theorem fact_portable {fact : VerifiedFact} (texts : Readable fact.key ∧ Readable fact.value)
    (few : fact.provenance.length ≤ 100000)
    (bounds : ∀ bound ∈ fact.validFrom.toList ++ fact.validUntil.toList,
      -2 ^ 63 < bound ∧ bound < 2 ^ 63) :
    (factToJson fact).Portable {} (levels + 3) := by
  obtain ⟨from_, until_⟩ := List.forall_mem_append.mp bounds
  have part (key : String) (value : Option JsonValue) :
      ((optionalMember key value).map Prod.fst).Sublist [ascii key] := by
    cases value with
    | none => exact List.nil_sublist _
    | some value => exact .refl _
  have bound (key : String) (value : Option Int)
      (small : ∀ bound ∈ value.toList, -2 ^ 63 < bound ∧ bound < 2 ^ 63) :
      ∀ member ∈ optionalMember key (value.map .integer),
        member.2.Portable {} (levels + 2) := by
    intro member present
    cases value with
    | none => cases present
    | some value =>
        rw [List.mem_singleton.mp present]
        obtain ⟨low, high⟩ := small value List.mem_cons_self
        exact .integer value low high
  refine object_portable (entryKeys_plain).fact ?_ (by decide) ?_
  · simp only [List.map_append]
    exact (List.Sublist.append (.refl [ascii "key", ascii "value", ascii "provenance"])
      (part "valid_from" _)).append (part "valid_until" _)
  · simp only [List.forall_mem_append, List.forall_mem_cons, List.not_mem_nil, IsEmpty.forall_iff,
      implies_true, and_true]
    exact ⟨⟨⟨texts.1.portable, texts.2.portable, eventIds_portable few⟩, bound _ _ from_⟩,
      bound _ _ until_⟩

theorem step_portable {step : CompletedStep} (text : Readable step.summary)
    (few : step.provenance.length ≤ 100000) : (stepToJson step).Portable {} (levels + 3) := by
  refine object_portable (entryKeys_plain).step (.refl _) (by decide) ?_
  simp only [List.forall_mem_cons, List.not_mem_nil, IsEmpty.forall_iff, implies_true, and_true]
  exact ⟨id_portable _, text.portable, eventIds_portable few⟩

theorem objective_portable {held : PendingObjective} (text : Readable held.objective)
    (few : held.provenance.length ≤ 100000) : (objectiveToJson held).Portable {} (levels + 3) := by
  refine object_portable (entryKeys_plain).objective (.refl _) (by decide) ?_
  simp only [List.forall_mem_cons, List.not_mem_nil, IsEmpty.forall_iff, implies_true, and_true]
  exact ⟨text.portable, eventIds_portable few⟩

theorem issue_portable {held : UnresolvedIssue} (text : Readable held.issue)
    (few : held.provenance.length ≤ 100000) : (issueToJson held).Portable {} (levels + 3) := by
  refine object_portable (entryKeys_plain).issue (.refl _) (by decide) ?_
  simp only [List.forall_mem_cons, List.not_mem_nil, IsEmpty.forall_iff, implies_true, and_true]
  exact ⟨text.portable, eventIds_portable few⟩

theorem sideEffect_portable {effect : UncertainSideEffect}
    (texts : Readable effect.actionKind ∧ Readable effect.reason)
    (few : effect.provenance.length ≤ 100000) :
    (sideEffectToJson effect).Portable {} (levels + 3) := by
  refine object_portable (entryKeys_plain).sideEffect (.refl _) (by decide) ?_
  simp only [List.forall_mem_cons, List.not_mem_nil, IsEmpty.forall_iff, implies_true, and_true]
  exact ⟨id_portable _, texts.1.portable, texts.2.portable, eventIds_portable few⟩

theorem actionSummary_portable {summary : CheckpointActionSummary}
    (texts : Readable summary.kind ∧ Readable summary.outcome)
    (counter : summary.sequence ≠ 2 ^ 63) (small : summary.sequence < 2 ^ 64) :
    (actionSummaryToJson summary).Portable {} (levels + 3) := by
  refine object_portable (entryKeys_plain).actionSummary (.refl _) (by decide) ?_
  simp only [List.forall_mem_cons, List.not_mem_nil, IsEmpty.forall_iff, implies_true, and_true]
  exact ⟨id_portable _, texts.1.portable, texts.2.portable, counter_portable counter small⟩

theorem observationRef_portable {reference : CheckpointObservationRef}
    (counter : reference.sequence ≠ 2 ^ 63) (small : reference.sequence < 2 ^ 64) :
    (observationRefToJson reference).Portable {} (levels + 3) := by
  refine object_portable (entryKeys_plain).observationRef (.refl _) (by decide) ?_
  simp only [List.forall_mem_cons, List.not_mem_nil, IsEmpty.forall_iff, implies_true, and_true]
  exact ⟨id_portable _, hex_portable (Nat.le_of_eq reference.digest.size),
    counter_portable counter small⟩

end Entries

/-- What validation leaves to be true of a checkpoint's lists and states. -/
structure Validated (checkpoint : TaskCheckpoint) : Prop where
  schema : validateSchemaVersion checkpoint.schemaVersion checkpointSchemaCurrent = .ok ()
  constraints : checkpoint.constraints.length ≤ 100000
  facts : checkpoint.verifiedFacts.length ≤ 100000
  steps : checkpoint.completedSteps.length ≤ 100000
  objectives : checkpoint.pendingObjectives.length ≤ 100000
  issues : checkpoint.unresolvedIssues.length ≤ 100000
  effects : checkpoint.uncertainSideEffects.length ≤ 100000
  actions : checkpoint.recentActions.length ≤ 100000
  terminal : ∀ state, checkpoint.terminalState = some state → state.isTerminal = true
  validity : ∀ fact ∈ checkpoint.verifiedFacts,
    factValidityValid fact checkpoint.schemaVersion = true

variable {checkpoint : TaskCheckpoint}

theorem validate_validated (valid : checkpoint.validate = .ok ()) : Validated checkpoint := by
  simp only [TaskCheckpoint.validate] at valid
  split at valid
  · cases valid
  · next schema =>
      split_ifs at valid with named sizes terminal keyed validity
      have terminal' : ∀ state, checkpoint.terminalState = some state →
          state.isTerminal = true := by
        intro state held
        rw [held, Option.any_some, Bool.not_eq_true', Bool.not_eq_false] at terminal
        exact terminal
      have validity' : ∀ fact ∈ checkpoint.verifiedFacts,
          factValidityValid fact checkpoint.schemaVersion = true := by
        intro fact present
        by_contra invalid
        apply validity
        exact List.any_eq_true.mpr ⟨fact, present, by simpa using invalid⟩
      exact ⟨schema, by omega, by omega, by omega, by omega, by omega, by omega, by omega, terminal',
        validity'⟩

theorem bounds_readable {fact : VerifiedFact} {schema : SchemaVersion}
    (valid : factValidityValid fact schema = true)
    (sized : ∀ bound ∈ fact.validFrom.toList ++ fact.validUntil.toList,
      -2 ^ 63 ≤ bound ∧ bound < 2 ^ 63) :
    ∀ bound ∈ fact.validFrom.toList ++ fact.validUntil.toList,
      -2 ^ 63 < bound ∧ bound < 2 ^ 63 := by
  intro bound present
  refine ⟨?_, (sized bound present).2⟩
  obtain ⟨key, value, provenance, start, stop⟩ := fact
  cases start with
  | none =>
      cases stop with
      | none => cases present
      | some stop => cases valid
  | some start =>
      cases stop with
      | none => cases valid
      | some stop =>
          simp only [factValidityValid, Option.isSome_some, decide_true, Bool.true_and,
            Option.all_some, Bool.and_eq_true, decide_eq_true_eq] at valid
          simp only [Option.toList_some, List.cons_append, List.nil_append, List.mem_cons,
            List.not_mem_nil, or_false] at present
          omega

theorem forall_presentMembers {entries : List (Bytes × Option JsonValue)} {p : JsonValue → Prop}
    (each : ∀ entry ∈ entries, ∀ value, entry.2 = some value → p value) :
    ∀ member ∈ presentMembers entries, p member.2 := by
  intro member present
  obtain ⟨entry, listed, own⟩ := List.mem_filterMap.mp present
  obtain ⟨value, held, rfl⟩ := Option.map_eq_some_iff.mp own
  exact each entry listed value held

theorem checkpoint_portable (validated : Validated checkpoint) (sized : WordSized checkpoint)
    (utf8 : ∀ text ∈ checkpoint.texts, ValidUtf8 text) (storable : Storable checkpoint) :
    (checkpointToJson checkpoint).Portable {} (levels + 5) := by
  have readable : ∀ text ∈ checkpoint.texts, Readable text :=
    fun text present => ⟨utf8 text present, storable.texts text present⟩
  obtain ⟨goal, criterion, narrative, constraints, facts, steps, objectives, issues, effects,
    actions⟩ := forall_texts.mp readable
  obtain ⟨constraintIds, factIds, stepIds, objectiveIds, issueIds, effectIds⟩ :=
    forall_provenances.mp storable.provenances
  obtain ⟨task, environment, through, observation, sequences⟩ := forall_counters.mp storable.counters
  obtain ⟨task', environment', through', observation', sequences'⟩ :=
    forall_counters.mp sized.counters
  have plain : PlainKeys ((checkpointEntries {}).map Prod.fst) := by decide
  have time : ∀ time ∈ checkpoint.times, -2 ^ 63 < time ∧ time < 2 ^ 63 := fun time present =>
    ⟨lt_of_le_of_ne (sized.times time present).1 (storable.times time present).symm,
      (sized.times time present).2⟩
  have versions : (JsonValue.object
      [(ascii "major", .integer checkpoint.schemaVersion.major),
        (ascii "minor", .integer checkpoint.schemaVersion.minor)]).Portable {} (levels + 4) := by
    have small := sized.schema
    refine object_portable (entryKeys_plain).schemaVersion (.refl _) (by decide) ?_
    simp only [List.forall_mem_cons, List.not_mem_nil, IsEmpty.forall_iff, implies_true, and_true]
    exact ⟨.integer _ (by omega) (by omega), .integer _ (by omega) (by omega)⟩
  refine object_portable plain ?_ (by decide) ?_
  · rw [← checkpointEntries_keys checkpoint]
    exact presentMembers_keys _
  · apply forall_presentMembers
    simp only [checkpointEntries, List.forall_mem_cons, List.not_mem_nil, IsEmpty.forall_iff,
      implies_true, and_true, Option.some.injEq, forall_eq', Option.map_eq_some_iff,
      forall_exists_index, and_imp, forall_apply_eq_imp_iff₂]
    refine ⟨versions, id_portable _, id_portable _, id_portable _, counter_portable task task',
      counter_portable environment environment', counter_portable through through', ?_, ?_,
      goal.portable, ?_, ?_, ?_, ?_, ?_, ?_, ?_, ?_, ?_, .boolean _, ?_, ?_⟩
    · obtain ⟨low, high⟩ := time checkpoint.createdAt.wall List.mem_cons_self
      exact .integer _ low high
    · obtain ⟨low, high⟩ := time checkpoint.createdAt.monotonic
        (List.mem_cons_of_mem _ List.mem_cons_self)
      exact .integer _ low high
    · intro text held
      exact (criterion text held).portable
    · exact array_portable validated.constraints fun held present =>
        constraint_portable (constraints held present) (constraintIds held present)
    · exact array_portable validated.facts fun fact present =>
        fact_portable (facts fact present) (factIds fact present)
          (bounds_readable (validated.validity fact present) (sized.bounds fact present))
    · exact array_portable validated.steps fun step present =>
        step_portable (steps step present) (stepIds step present)
    · exact array_portable validated.objectives fun held present =>
        objective_portable (objectives held present) (objectiveIds held present)
    · exact array_portable validated.issues fun held present =>
        issue_portable (issues held present) (issueIds held present)
    · exact array_portable validated.effects fun effect present =>
        sideEffect_portable (effects effect present) (effectIds effect present)
    · intro reference held
      exact observationRef_portable (observation reference held) (observation' reference held)
    · exact array_portable validated.actions fun summary present =>
        actionSummary_portable (actions summary present) (sequences summary present)
          (sequences' summary present)
    · intro state held
      have names : ∀ state ∈ taskStates, (∀ b ∈ ascii (taskStateName state), b.toNat < 128) ∧
          (ascii (taskStateName state)).length < 64 := by
        decide
      have listed : ∀ state : TaskState, state ∈ taskStates := by
        intro state
        cases state <;> decide
      obtain ⟨low, short⟩ := names _ (listed (if state.isTerminal then state else .failed))
      exact text_portable (validUtf8_printable_ascii _ low) (short.trans (by decide))
    · intro text held
      exact (narrative text held).portable

theorem decodeRow_document (valid : checkpoint.validate = .ok ()) (sized : WordSized checkpoint)
    (utf8 : ∀ text ∈ checkpoint.texts, ValidUtf8 text) (storable : Storable checkpoint) :
    decodeRow checkpoint.document = .ok checkpoint := by
  have validated := validate_validated valid
  have portable : (checkpointToJson checkpoint).Portable {} 32 :=
    checkpoint_portable validated sized utf8 storable
  have parsed := parseJson_writeValue false {} _ portable storable.document
  rw [JsonValue.arrange_false portable] at parsed
  have id : stringMember (checkpointToJson checkpoint) "id" = some checkpoint.id.toString :=
    stringMember_at 1 rfl
  have facts : (checkpoint.verifiedFacts.any fun fact =>
      !factValidityValid fact checkpoint.schemaVersion) = false := by
    rw [List.any_eq_false]
    intro fact present
    rw [validated.validity fact present]
    nofun
  have decoded : checkpointFromJson (checkpointToJson checkpoint) = .ok checkpoint := by
    have shape : (checkpointToJson checkpoint).isObject = true := rfl
    simp only [checkpointFromJson, shape, Bool.true_eq_false, if_false,
      schemaFrom_toJson sized.schema, validated.schema, id, StrongId.parse_toString,
      checkpointFrom_toJson sized validated.terminal, facts, Bool.false_eq_true]
  rw [decodeRow, TaskCheckpoint.document, toJsonString, parsed]
  simp only [decoded]

/-- The values the parser returns. -/
def Parsable (value : JsonValue) : Prop := value.Fits {} ∧ value.WellFormed

theorem parseJson_parsable {text : Bytes} {value : JsonValue} (read : parseJson text = .ok value) :
    text.length ≤ 4 * 1024 * 1024 ∧ Parsable value :=
  ⟨(parseJson_fits read).1, (parseJson_fits read).2, parseJson_wellFormed text {} value read⟩

section Members
variable {document : JsonValue} (parsable : Parsable document)
include parsable

theorem Parsable.find {key : Bytes} {value : JsonValue} (found : document.find key = some value) :
    Parsable value :=
  ⟨parsable.1.find found, parsable.2.find found⟩

variable {key : String}

theorem stringMember_length {text : Bytes} (found : stringMember document key = some text) :
    text.length < 1024 * 1024 := by
  obtain ⟨value, listed, own⟩ := Option.bind_eq_some_iff.mp found
  cases (parsable.find listed).1 with
  | string written room =>
      cases own
      exact room
  | _ => cases own

theorem textMember_length (key : String) : (textMember document key).length < 1024 * 1024 := by
  rw [textMember]
  cases found : stringMember document key with
  | none => decide
  | some text => exact stringMember_length parsable found

theorem integerMember_low {value : Int} (found : integerMember document key = some value) :
    -2 ^ 63 < value ∧ value < 2 ^ 63 := by
  simp only [integerMember] at found
  split at found
  · next listed =>
      cases found
      cases (parsable.find listed).2 with
      | integer value low high => exact ⟨low, high⟩
  · cases found

theorem counterMember_ne (key : String) : counterMember document key ≠ 2 ^ 63 := by
  rw [counterMember]
  cases found : integerMember document key with
  | none => decide
  | some value =>
      obtain ⟨low, high⟩ := integerMember_low parsable found
      simp only [Option.map_some, Option.getD_some, toUnsigned]
      omega

theorem provenanceMember_length : (provenanceMember document).length ≤ 100000 := by
  rw [provenanceMember]
  cases found : document.find (ascii "provenance") with
  | none => decide
  | some value =>
      cases (parsable.find found).1 with
      | array items room =>
          exact (List.length_filterMap_le _ _).trans room
      | _ => exact Nat.zero_le _

theorem forall_objectsMember {α : Type} {decode : JsonValue → α} {p : α → Prop}
    (each : ∀ entry, Parsable entry → p (decode entry)) :
    ∀ item ∈ objectsMember decode document key, p item := by
  intro item present
  simp only [objectsMember] at present
  obtain ⟨entry, kept, rfl⟩ := List.mem_map.mp present
  apply each
  have listed := (List.mem_filter.mp kept).1
  cases found : document.find (ascii key) with
  | none =>
      rw [found] at listed
      cases listed
  | some value =>
      rw [found] at listed
      obtain ⟨fits, formed⟩ := parsable.find found
      cases value with
      | array items =>
          cases fits with
          | array _ _ each =>
              cases formed with
              | array _ each' => exact ⟨each entry listed, each' entry listed⟩
      | _ => cases listed

theorem observation_ne {reference : CheckpointObservationRef}
    (held : ((document.find (ascii "current_observation")).filter JsonValue.isObject).map
      observationRefFrom = some reference) : reference.sequence ≠ 2 ^ 63 := by
  obtain ⟨entry, kept, rfl⟩ := Option.map_eq_some_iff.mp held
  exact counterMember_ne (parsable.find (Option.filter_eq_some_iff.mp kept).1) "sequence"

theorem timestampFrom_ne :
    (timestampFrom document).wall ≠ -2 ^ 63 ∧ (timestampFrom document).monotonic ≠ -2 ^ 63 := by
  simp only [timestampFrom]
  split
  · decide
  · next wall found =>
      refine ⟨(integerMember_low parsable found).1.ne', ?_⟩
      cases found' : integerMember document "created_at_monotonic" with
      | none => exact (by decide : (0 : Int) ≠ -2 ^ 63)
      | some monotonic => exact (integerMember_low parsable found').1.ne'

end Members

theorem checkpointFrom_within {document : JsonValue} (parsable : Parsable document)
    (id : CheckpointId) :
    (∀ text ∈ (checkpointFrom document id).texts, text.length < 1024 * 1024) ∧
    (∀ ids ∈ (checkpointFrom document id).provenances, ids.length ≤ 100000) ∧
    (∀ counter ∈ (checkpointFrom document id).counters, counter ≠ 2 ^ 63) ∧
    ∀ time ∈ (checkpointFrom document id).times, time ≠ -2 ^ 63 := by
  refine ⟨forall_texts.mpr ⟨textMember_length parsable _,
      fun _ found => stringMember_length parsable found,
      fun _ found => stringMember_length parsable found,
      forall_objectsMember parsable fun _ entry =>
        ⟨textMember_length entry _, textMember_length entry _⟩,
      forall_objectsMember parsable fun _ entry =>
        ⟨textMember_length entry _, textMember_length entry _⟩,
      forall_objectsMember parsable fun _ entry => textMember_length entry _,
      forall_objectsMember parsable fun _ entry => textMember_length entry _,
      forall_objectsMember parsable fun _ entry => textMember_length entry _,
      forall_objectsMember parsable fun _ entry =>
        ⟨textMember_length entry _, textMember_length entry _⟩,
      forall_objectsMember parsable fun _ entry =>
        ⟨textMember_length entry _, textMember_length entry _⟩⟩,
    forall_provenances.mpr
      ⟨forall_objectsMember parsable fun _ => provenanceMember_length,
        forall_objectsMember parsable fun _ => provenanceMember_length,
        forall_objectsMember parsable fun _ => provenanceMember_length,
        forall_objectsMember parsable fun _ => provenanceMember_length,
        forall_objectsMember parsable fun _ => provenanceMember_length,
        forall_objectsMember parsable fun _ => provenanceMember_length⟩,
    forall_counters.mpr
      ⟨counterMember_ne parsable _, counterMember_ne parsable _, counterMember_ne parsable _,
        fun _ held => observation_ne parsable held,
        forall_objectsMember parsable fun _ entry => counterMember_ne entry _⟩, ?_⟩
  simp only [TaskCheckpoint.times, List.forall_mem_cons, List.not_mem_nil, IsEmpty.forall_iff,
    implies_true, and_true]
  exact timestampFrom_ne parsable

theorem storable_of_decodeRow (decoded : decodeRow checkpoint.document = .ok checkpoint) :
    Storable checkpoint := by
  simp only [decodeRow] at decoded
  split at decoded
  · cases decoded
  · next document parsed =>
      obtain ⟨room, parsable⟩ := parseJson_parsable parsed
      split at decoded
      · cases decoded
      · next result read =>
          cases decoded
          simp only [checkpointFromJson] at read
          split at read
          · cases read
          · split at read
            · cases read
            · split at read
              · cases read
              · split at read
                · cases read
                · next id _ =>
                    split at read
                    · cases read
                    · have same := Except.ok.inj read
                      have within := checkpointFrom_within parsable id
                      rw [same] at within
                      obtain ⟨texts, provenances, counters, times⟩ := within
                      exact ⟨texts, provenances, counters, times, room⟩

/-- When an accepted checkpoint can be read back. It is decoded to itself exactly if its
texts, provenances and document fit the limits of the parser and none of its counters
and times is the smallest signed integer when written. -/
theorem document_readable_iff (checkpoint : TaskCheckpoint) (valid : checkpoint.validate = .ok ())
    (sized : WordSized checkpoint) (utf8 : ∀ text ∈ checkpoint.texts, ValidUtf8 text) :
    decodeRow checkpoint.document = .ok checkpoint ↔ Storable checkpoint :=
  ⟨storable_of_decodeRow, decodeRow_document valid sized utf8⟩

/-- A checkpoint with nothing but its identity, a goal and an epoch. -/
def plainCheckpoint (taskEpoch : Nat) : TaskCheckpoint :=
  { id := .filled 5
    taskId := .filled 3
    sessionId := .filled 2
    taskEpoch := taskEpoch
    goalStatement := ascii "open the door" }

theorem plainCheckpoint_utf8 (taskEpoch : Nat) :
    ∀ text ∈ (plainCheckpoint taskEpoch).texts, ValidUtf8 text := by
  intro text present
  have low : ∀ b ∈ ascii "open the door", b.toNat < 128 := by decide
  rw [List.mem_singleton.mp present]
  exact validUtf8_printable_ascii _ low

theorem plainCheckpoint_sized {taskEpoch : Nat} (small : taskEpoch < 2 ^ 64) :
    WordSized (plainCheckpoint taskEpoch) := by
  have zero : 0 < 2 ^ 64 := by decide
  have schema : checkpointSchemaCurrent.major < 2 ^ 16 ∧ checkpointSchemaCurrent.minor < 2 ^ 16 := by
    decide
  refine ⟨forall_counters.mpr ⟨small, zero, zero, nofun, nofun⟩, ?_, nofun, schema⟩
  simp [TaskCheckpoint.times, plainCheckpoint]

/-- An ordinary epoch comes back. -/
theorem plain_checkpoint_readable :
    decodeRow (plainCheckpoint 7).document = .ok (plainCheckpoint 7) := by
  refine (document_readable_iff (plainCheckpoint 7) (by decide +kernel)
    (plainCheckpoint_sized (by decide)) (plainCheckpoint_utf8 7)).mpr ?_
  exact ⟨by decide +kernel, by decide +kernel, by decide +kernel, by decide +kernel,
    by decide +kernel⟩

/-- The epoch in the middle of the unsigned range comes back as zero. -/
theorem middle_epoch_lost :
    (plainCheckpoint (2 ^ 63)).validate = .ok () ∧ WordSized (plainCheckpoint (2 ^ 63)) ∧
    (∀ text ∈ (plainCheckpoint (2 ^ 63)).texts, ValidUtf8 text) ∧
    decodeRow (plainCheckpoint (2 ^ 63)).document = .ok (plainCheckpoint 0) ∧
    plainCheckpoint (2 ^ 63) ≠ plainCheckpoint 0 := by
  refine ⟨by decide +kernel, plainCheckpoint_sized (by decide), plainCheckpoint_utf8 _,
    by decide +kernel, by decide +kernel⟩

end Mira.Checkpoint
