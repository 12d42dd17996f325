import Mira.Checkpoint.Contracts
import Mira.Checkpoint.VerifiedFact

/-!
The stored form of a checkpoint. Every field has a decoder of its own that leaves the
default in place when it cannot read what it finds; counters pass through signed
integers.
-/

namespace Mira.Checkpoint
open Mira Bytes

/-- A cast of a signed 64-bit integer to an unsigned one of that width. -/
def toUnsigned (width : Nat) (value : Int) : Nat := (value % 2 ^ width).toNat

/-- The members of the stored document, those that are left out with no value. -/
def checkpointEntries (checkpoint : TaskCheckpoint) : List (Bytes × Option JsonValue) :=
  [(ascii "schema_version", some (.object
      [(ascii "major", .integer checkpoint.schemaVersion.major),
        (ascii "minor", .integer checkpoint.schemaVersion.minor)])),
    (ascii "id", some (.string checkpoint.id.toString)),
    (ascii "task_id", some (.string checkpoint.taskId.toString)),
    (ascii "session_id", some (.string checkpoint.sessionId.toString)),
    (ascii "task_epoch", some (.integer (toInt64 checkpoint.taskEpoch))),
    (ascii "environment_epoch", some (.integer (toInt64 checkpoint.environmentEpoch))),
    (ascii "through_event_sequence", some (.integer (toInt64 checkpoint.throughEventSequence))),
    (ascii "created_at", some (.integer checkpoint.createdAt.wall)),
    (ascii "created_at_monotonic", some (.integer checkpoint.createdAt.monotonic)),
    (ascii "goal_statement", some (.string checkpoint.goalStatement)),
    (ascii "success_criterion", checkpoint.successCriterion.map .string),
    (ascii "constraints", some (.array (checkpoint.constraints.map constraintToJson))),
    (ascii "verified_facts", some (.array (checkpoint.verifiedFacts.map factToJson))),
    (ascii "completed_steps", some (.array (checkpoint.completedSteps.map stepToJson))),
    (ascii "pending_objectives", some (.array (checkpoint.pendingObjectives.map objectiveToJson))),
    (ascii "unresolved_issues", some (.array (checkpoint.unresolvedIssues.map issueToJson))),
    (ascii "uncertain_side_effects",
      some (.array (checkpoint.uncertainSideEffects.map sideEffectToJson))),
    (ascii "current_observation", checkpoint.currentObservation.map observationRefToJson),
    (ascii "recent_actions", some (.array (checkpoint.recentActions.map actionSummaryToJson))),
    (ascii "verification_pending", some (.boolean checkpoint.verificationPending)),
    -- The fallback is for checkpoints that were never validated.
    (ascii "terminal_state", checkpoint.terminalState.map fun state =>
      .string (ascii (taskStateName (if state.isTerminal then state else .failed)))),
    (ascii "narrative_summary", checkpoint.narrativeSummary.map .string)]

def presentMembers (entries : List (Bytes × Option JsonValue)) : List (Bytes × JsonValue) :=
  entries.filterMap fun entry => entry.2.map fun value => (entry.1, value)

def checkpointToJson (checkpoint : TaskCheckpoint) : JsonValue :=
  .object (presentMembers (checkpointEntries checkpoint))

def textMember (document : JsonValue) (key : String) : Bytes := (stringMember document key).getD []

def identifierMember {tag : IdTag} (document : JsonValue) (key : String) : StrongId tag :=
  ((stringMember document key).bind StrongId.parse).getD default

/-- `read_u64`. -/
def counterMember (document : JsonValue) (key : String) : Nat :=
  ((integerMember document key).map (toUnsigned 64)).getD 0

def eventIdsFromJson : JsonValue → List EventId
  | .array items => items.filterMap fun entry => StrongId.parse (entry.asString.getD [])
  | _ => []

def provenanceMember (document : JsonValue) : List EventId :=
  ((document.find (ascii "provenance")).map eventIdsFromJson).getD []

/-- `read_array`: entries that are no objects are dropped. -/
def objectsMember {α : Type} (decode : JsonValue → α) (document : JsonValue) (key : String) :
    List α :=
  (((document.find (ascii key)).bind JsonValue.asArray).getD []).filter JsonValue.isObject
    |>.map decode

/-- A malformed bound must fail validation, never become unbounded. -/
def boundMember (document : JsonValue) (key : String) : Option Int :=
  (document.find (ascii key)).map fun value => if value.isInteger then value.asInteger.getD 0 else 0

def constraintFrom (document : JsonValue) : CheckpointConstraint :=
  { key := textMember document "key"
    requirement := textMember document "requirement"
    safety := ((document.find (ascii "safety")).bind JsonValue.asBoolean).getD false
    provenance := provenanceMember document }

def checkpointFactFrom (document : JsonValue) : VerifiedFact :=
  { key := textMember document "key"
    value := textMember document "value"
    provenance := provenanceMember document
    validFrom := boundMember document "valid_from"
    validUntil := boundMember document "valid_until" }

def stepFrom (document : JsonValue) : CompletedStep :=
  { stepId := identifierMember document "step_id"
    summary := textMember document "summary"
    provenance := provenanceMember document }

def objectiveFrom (document : JsonValue) : PendingObjective :=
  { objective := textMember document "objective"
    provenance := provenanceMember document }

def issueFrom (document : JsonValue) : UnresolvedIssue :=
  { issue := textMember document "issue"
    provenance := provenanceMember document }

def sideEffectFrom (document : JsonValue) : UncertainSideEffect :=
  { actionId := identifierMember document "action_id"
    actionKind := textMember document "action_kind"
    reason := textMember document "reason"
    provenance := provenanceMember document }

def actionSummaryFrom (document : JsonValue) : CheckpointActionSummary :=
  { actionId := identifierMember document "action_id"
    kind := textMember document "kind"
    outcome := textMember document "outcome"
    sequence := counterMember document "sequence" }

def observationRefFrom (document : JsonValue) : CheckpointObservationRef :=
  { observationId := identifierMember document "observation_id"
    digest := ((stringMember document "digest").bind digestFromHex).getD .zero
    sequence := counterMember document "sequence" }

/-- The schema of the document; without a readable one it is the current schema. -/
def schemaFrom (document : JsonValue) : SchemaVersion :=
  match (document.find (ascii "schema_version")).filter JsonValue.isObject with
  | none => checkpointSchemaCurrent
  | some schema =>
      match integerMember schema "major", integerMember schema "minor" with
      | some major, some minor => ⟨toUnsigned 16 major, toUnsigned 16 minor⟩
      | _, _ => checkpointSchemaCurrent

def timestampFrom (document : JsonValue) : Timestamp :=
  match integerMember document "created_at" with
  | none => {}
  | some wall =>
      { wall := wall, monotonic := (integerMember document "created_at_monotonic").getD 0 }

/-- The checkpoint a document describes, apart from what can be wrong with it. -/
def checkpointFrom (document : JsonValue) (id : CheckpointId) : TaskCheckpoint :=
  { id := id
    schemaVersion := schemaFrom document
    taskId := identifierMember document "task_id"
    sessionId := identifierMember document "session_id"
    taskEpoch := counterMember document "task_epoch"
    environmentEpoch := counterMember document "environment_epoch"
    throughEventSequence := counterMember document "through_event_sequence"
    createdAt := timestampFrom document
    goalStatement := textMember document "goal_statement"
    successCriterion := stringMember document "success_criterion"
    constraints := objectsMember constraintFrom document "constraints"
    verifiedFacts := objectsMember checkpointFactFrom document "verified_facts"
    completedSteps := objectsMember stepFrom document "completed_steps"
    pendingObjectives := objectsMember objectiveFrom document "pending_objectives"
    unresolvedIssues := objectsMember issueFrom document "unresolved_issues"
    uncertainSideEffects := objectsMember sideEffectFrom document "uncertain_side_effects"
    recentActions := objectsMember actionSummaryFrom document "recent_actions"
    currentObservation :=
      ((document.find (ascii "current_observation")).filter JsonValue.isObject).map
        observationRefFrom
    verificationPending :=
      ((document.find (ascii "verification_pending")).bind JsonValue.asBoolean).getD false
    terminalState := (stringMember document "terminal_state").bind taskStateFromName
    narrativeSummary := stringMember document "narrative_summary" }

def checkpointFromJson (document : JsonValue) : Result TaskCheckpoint :=
  if document.isObject = false then
    .error (checkpointError .invalidArgument "checkpoint must be an object")
  else
    match validateSchemaVersion (schemaFrom document) checkpointSchemaCurrent with
    | .error reason => .error reason
    | .ok () =>
        match stringMember document "id" with
        | none => .error (checkpointError .invalidArgument "checkpoint requires an id")
        | some text =>
            match (StrongId.parse text : Option CheckpointId) with
            | none => .error (checkpointError .invalidArgument "checkpoint id is malformed")
            | some id =>
                let checkpoint := checkpointFrom document id
                if checkpoint.verifiedFacts.any fun fact =>
                    !factValidityValid fact checkpoint.schemaVersion then
                  .error (checkpointError .invalidArgument "checkpoint fact validity is invalid")
                else .ok checkpoint

theorem presentMembers_keys (entries : List (Bytes × Option JsonValue)) :
    ((presentMembers entries).map Prod.fst).Sublist (entries.map Prod.fst) := by
  induction entries with
  | nil => exact .slnil
  | cons entry rest ih =>
      simp only [presentMembers, List.filterMap_cons, List.map_cons]
      cases entry.2 with
      | none => exact ih.cons _
      | some value => exact ih.cons_cons _

variable {value : Option JsonValue}

theorem find_presentMembers {entries : List (Bytes × Option JsonValue)}
    (distinct : (entries.map Prod.fst).Nodup) {key : Bytes} (listed : (key, value) ∈ entries) :
    (JsonValue.object (presentMembers entries)).find key = value := by
  induction entries with
  | nil => cases listed
  | cons entry rest ih =>
      rw [List.map_cons, List.nodup_cons] at distinct
      have absent (later : key ∉ rest.map Prod.fst) :
          (JsonValue.object (presentMembers rest)).find key = none := by
        simp only [JsonValue.find, Option.map_eq_none_iff, List.find?_eq_none]
        intro member present same
        have named := (presentMembers_keys rest).subset (List.mem_map_of_mem present)
        rw [of_decide_eq_true same] at named
        exact later named
      cases List.mem_cons.mp listed with
      | inl own =>
          subst own
          simp only [presentMembers, List.filterMap_cons]
          cases value with
          | none => exact absent distinct.1
          | some value => simp [JsonValue.find]
      | inr later =>
          have other : entry.1 ≠ key := by
            intro same
            rw [same] at distinct
            exact distinct.1 (List.mem_map_of_mem later)
          have found := ih distinct.2 later
          simp only [presentMembers, List.filterMap_cons]
          cases entry.2 with
          | none => exact found
          | some first =>
              rw [← found]
              simp only [Option.map_some, JsonValue.find]
              rw [List.find?_cons_of_neg (by simpa using other)]
              rfl

variable (checkpoint : TaskCheckpoint)

theorem checkpointEntries_keys :
    (checkpointEntries checkpoint).map Prod.fst = (checkpointEntries {}).map Prod.fst := rfl

theorem checkpointEntries_distinct : ((checkpointEntries checkpoint).map Prod.fst).Nodup := by
  rw [checkpointEntries_keys]
  decide

theorem find_checkpoint {checkpoint : TaskCheckpoint} {key : Bytes} (index : Nat)
    (listed : (checkpointEntries checkpoint)[index]? = some (key, value)) :
    (checkpointToJson checkpoint).find key = value :=
  find_presentMembers (checkpointEntries_distinct checkpoint) (List.mem_of_getElem? listed)

theorem toUnsigned_toInt64 {n : Nat} (small : n < 2 ^ 64) : toUnsigned 64 (toInt64 n) = n := by
  simp only [toUnsigned, toInt64, Nat.mod_eq_of_lt small]
  split <;> omega

theorem toUnsigned_small {n width : Nat} (small : n < 2 ^ width) : toUnsigned width n = n := by
  have fits : (n : Int) < 2 ^ width := by exact_mod_cast small
  rw [toUnsigned, Int.emod_eq_of_lt (Int.natCast_nonneg n) fits, Int.toNat_natCast]

theorem eventIdsFromJson_toJson (ids : List EventId) :
    eventIdsFromJson (eventIdsToJson ids) = ids := by
  simp only [eventIdsFromJson, eventIdsToJson, List.filterMap_map]
  have parsed : (fun entry : JsonValue => (StrongId.parse (entry.asString.getD []) : Option EventId)) ∘
      (fun id : EventId => JsonValue.string id.toString) = some := by
    funext id
    exact StrongId.parse_toString id
  rw [parsed, List.filterMap_some]

theorem constraintFrom_toJson (constraint : CheckpointConstraint) :
    constraintFrom (constraintToJson constraint) = constraint := by
  have read : constraintFrom (constraintToJson constraint) =
      { constraint with
        provenance := eventIdsFromJson (eventIdsToJson constraint.provenance) } := rfl
  rw [read, eventIdsFromJson_toJson]

theorem checkpointFactFrom_toJson (fact : VerifiedFact) : checkpointFactFrom (factToJson fact) = fact := by
  obtain ⟨key, value, provenance, start, stop⟩ := fact
  have read : checkpointFactFrom (factToJson ⟨key, value, provenance, start, stop⟩) =
      ⟨key, value, eventIdsFromJson (eventIdsToJson provenance), start, stop⟩ := by
    cases start <;> cases stop <;> rfl
  rw [read, eventIdsFromJson_toJson]

theorem stepFrom_toJson (step : CompletedStep) : stepFrom (stepToJson step) = step := by
  have read : stepFrom (stepToJson step) =
      { step with
        stepId := (StrongId.parse step.stepId.toString).getD default
        provenance := eventIdsFromJson (eventIdsToJson step.provenance) } := rfl
  rw [read, eventIdsFromJson_toJson, StrongId.parse_toString]
  rfl

theorem objectiveFrom_toJson (objective : PendingObjective) :
    objectiveFrom (objectiveToJson objective) = objective := by
  have read : objectiveFrom (objectiveToJson objective) =
      { objective with
        provenance := eventIdsFromJson (eventIdsToJson objective.provenance) } := rfl
  rw [read, eventIdsFromJson_toJson]

theorem issueFrom_toJson (issue : UnresolvedIssue) : issueFrom (issueToJson issue) = issue := by
  have read : issueFrom (issueToJson issue) =
      { issue with
        provenance := eventIdsFromJson (eventIdsToJson issue.provenance) } := rfl
  rw [read, eventIdsFromJson_toJson]

theorem sideEffectFrom_toJson (effect : UncertainSideEffect) :
    sideEffectFrom (sideEffectToJson effect) = effect := by
  have read : sideEffectFrom (sideEffectToJson effect) =
      { effect with
        actionId := (StrongId.parse effect.actionId.toString).getD default
        provenance := eventIdsFromJson (eventIdsToJson effect.provenance) } := rfl
  rw [read, eventIdsFromJson_toJson, StrongId.parse_toString]
  rfl

theorem actionSummaryFrom_toJson {summary : CheckpointActionSummary}
    (small : summary.sequence < 2 ^ 64) :
    actionSummaryFrom (actionSummaryToJson summary) = summary := by
  have read : actionSummaryFrom (actionSummaryToJson summary) =
      { summary with
        actionId := (StrongId.parse summary.actionId.toString).getD default
        sequence := toUnsigned 64 (toInt64 summary.sequence) } := rfl
  rw [read, toUnsigned_toInt64 small, StrongId.parse_toString]
  rfl

theorem observationRefFrom_toJson {reference : CheckpointObservationRef}
    (small : reference.sequence < 2 ^ 64) :
    observationRefFrom (observationRefToJson reference) = reference := by
  have read : observationRefFrom (observationRefToJson reference) =
      { observationId := (StrongId.parse reference.observationId.toString).getD default
        digest := (digestFromHex reference.digest.toString).getD .zero
        sequence := toUnsigned 64 (toInt64 reference.sequence) } := rfl
  rw [read, toUnsigned_toInt64 small, StrongId.parse_toString, digestFromHex_toString]
  rfl

theorem objectsMember_map {α : Type} {decode : JsonValue → α} {encode : α → JsonValue}
    {document : JsonValue} {key : String} {items : List α}
    (found : document.find (ascii key) = some (.array (items.map encode)))
    (objects : ∀ item, (encode item).isObject = true)
    (inverse : ∀ item ∈ items, decode (encode item) = item) :
    objectsMember decode document key = items := by
  have kept : (items.map encode).filter JsonValue.isObject = items.map encode := by
    apply List.filter_eq_self.mpr
    intro entry present
    obtain ⟨item, _, rfl⟩ := List.mem_map.mp present
    exact objects item
  simp only [objectsMember, found, Option.bind_some, JsonValue.asArray, Option.getD_some, kept,
    List.map_map]
  have same : items.map (decode ∘ encode) = items.map id := List.map_congr_left inverse
  rw [same, List.map_id]

end Mira.Checkpoint
