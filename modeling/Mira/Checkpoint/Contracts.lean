import Mira.Digest.Sha256
import Mira.Json.Value

/-!
The task checkpoint: the projection that the reducer folds from the events of a
task, with what identifies the snapshot around it. The digest covers the
projection and the schema, and neither the identifier nor the time of the
snapshot.
-/

namespace Mira.Checkpoint
open Mira Bytes

def checkpointSchemaCurrent : SchemaVersion := ⟨2, 0⟩

structure CheckpointConstraint where
  key : Bytes
  requirement : Bytes
  safety : Bool := false
  provenance : List EventId := []
  deriving DecidableEq

/-- Legacy facts have no validity interval. -/
structure VerifiedFact where
  key : Bytes
  value : Bytes
  provenance : List EventId := []
  validFrom : Option Int := none
  validUntil : Option Int := none
  deriving DecidableEq

def VerifiedFact.validAt (fact : VerifiedFact) (now : Int) : Bool :=
  (fact.validFrom.all fun start => start ≤ now) && (fact.validUntil.all fun stop => now < stop)

structure CompletedStep where
  stepId : StepId
  summary : Bytes
  provenance : List EventId := []
  deriving DecidableEq

structure PendingObjective where
  objective : Bytes
  provenance : List EventId := []
  deriving DecidableEq

structure UnresolvedIssue where
  issue : Bytes
  provenance : List EventId := []
  deriving DecidableEq

structure UncertainSideEffect where
  actionId : ActionId
  actionKind : Bytes
  reason : Bytes
  provenance : List EventId := []
  deriving DecidableEq

structure CheckpointActionSummary where
  actionId : ActionId
  kind : Bytes
  outcome : Bytes
  sequence : Nat := 0
  deriving DecidableEq

structure CheckpointObservationRef where
  observationId : ObservationId
  digest : Sha256Digest := .zero
  sequence : Nat := 0
  deriving DecidableEq

/-- What the reducer folds. -/
structure Projection where
  taskId : TaskId := default
  sessionId : SessionId := default
  taskEpoch : Nat := 0
  environmentEpoch : Nat := 0
  throughEventSequence : Nat := 0
  goalStatement : Bytes := []
  successCriterion : Option Bytes := none
  constraints : List CheckpointConstraint := []
  verifiedFacts : List VerifiedFact := []
  completedSteps : List CompletedStep := []
  pendingObjectives : List PendingObjective := []
  unresolvedIssues : List UnresolvedIssue := []
  uncertainSideEffects : List UncertainSideEffect := []
  currentObservation : Option CheckpointObservationRef := none
  recentActions : List CheckpointActionSummary := []
  verificationPending : Bool := false
  terminalState : Option TaskState := none
  deriving DecidableEq

/-- A snapshot. The narrative is never authoritative. -/
structure TaskCheckpoint extends Projection where
  id : CheckpointId := default
  createdAt : Timestamp := {}
  narrativeSummary : Option Bytes := none
  schemaVersion : SchemaVersion := checkpointSchemaCurrent
  deriving DecidableEq

def checkpointError (code : ErrorCode) (message : String) : Error :=
  { code := code, domain := "mira.checkpoint", safeMessage := message }

/-- A fact has both bounds or none; with bounds it needs the current schema, a
positive start and a stop behind it. -/
def factValidityValid (fact : VerifiedFact) (schema : SchemaVersion) : Bool :=
  fact.validFrom.isSome = fact.validUntil.isSome &&
    (fact.validFrom.all fun start =>
      2 ≤ schema.major && 0 < start && fact.validUntil.all fun stop => start < stop)

def TaskCheckpoint.validate (checkpoint : TaskCheckpoint) : Result Unit :=
  match validateSchemaVersion checkpoint.schemaVersion checkpointSchemaCurrent with
  | .error reason => .error reason
  | .ok () =>
      if checkpoint.id.isNil ∨ checkpoint.taskId.isNil ∨ checkpoint.sessionId.isNil then
        .error (checkpointError .invalidArgument "checkpoint ids must be non-nil")
      else if 1024 < checkpoint.constraints.length ∨ 4096 < checkpoint.verifiedFacts.length ∨
          8192 < checkpoint.completedSteps.length ∨
          2048 < checkpoint.pendingObjectives.length ∨
          2048 < checkpoint.unresolvedIssues.length ∨
          4096 < checkpoint.uncertainSideEffects.length ∨
          128 < checkpoint.recentActions.length then
        .error (checkpointError .invalidArgument "checkpoint vector exceeds bounds")
      else if checkpoint.terminalState.any fun state => !state.isTerminal then
        .error (checkpointError .invalidArgument "checkpoint terminal state must be terminal")
      else if checkpoint.constraints.any fun constraint =>
          constraint.key.isEmpty || constraint.requirement.isEmpty then
        .error (checkpointError .invalidArgument "checkpoint constraints must be keyed")
      else if checkpoint.verifiedFacts.any fun fact =>
          !factValidityValid fact checkpoint.schemaVersion then
        .error (checkpointError .invalidArgument "checkpoint fact validity is invalid")
      else .ok ()

def eventIdsToJson (ids : List EventId) : JsonValue :=
  .array (ids.map fun id => .string id.toString)

def constraintToJson (constraint : CheckpointConstraint) : JsonValue :=
  .object
    [(ascii "key", .string constraint.key), (ascii "requirement", .string constraint.requirement),
      (ascii "safety", .boolean constraint.safety),
      (ascii "provenance", eventIdsToJson constraint.provenance)]

/-- A member that is left out when there is no value. -/
def optionalMember (key : String) (value : Option JsonValue) : List (Bytes × JsonValue) :=
  value.toList.map fun present => (ascii key, present)

def factToJson (fact : VerifiedFact) : JsonValue :=
  .object
    ([(ascii "key", .string fact.key), (ascii "value", .string fact.value),
        (ascii "provenance", eventIdsToJson fact.provenance)] ++
      optionalMember "valid_from" (fact.validFrom.map .integer) ++
      optionalMember "valid_until" (fact.validUntil.map .integer))

def stepToJson (step : CompletedStep) : JsonValue :=
  .object
    [(ascii "step_id", .string step.stepId.toString), (ascii "summary", .string step.summary),
      (ascii "provenance", eventIdsToJson step.provenance)]

def objectiveToJson (objective : PendingObjective) : JsonValue :=
  .object
    [(ascii "objective", .string objective.objective),
      (ascii "provenance", eventIdsToJson objective.provenance)]

def issueToJson (issue : UnresolvedIssue) : JsonValue :=
  .object
    [(ascii "issue", .string issue.issue), (ascii "provenance", eventIdsToJson issue.provenance)]

def sideEffectToJson (effect : UncertainSideEffect) : JsonValue :=
  .object
    [(ascii "action_id", .string effect.actionId.toString),
      (ascii "action_kind", .string effect.actionKind), (ascii "reason", .string effect.reason),
      (ascii "provenance", eventIdsToJson effect.provenance)]

def actionSummaryToJson (summary : CheckpointActionSummary) : JsonValue :=
  .object
    [(ascii "action_id", .string summary.actionId.toString), (ascii "kind", .string summary.kind),
      (ascii "outcome", .string summary.outcome),
      (ascii "sequence", .integer (toInt64 summary.sequence))]

def observationRefToJson (reference : CheckpointObservationRef) : JsonValue :=
  .object
    [(ascii "observation_id", .string reference.observationId.toString),
      (ascii "digest", .string reference.digest.toString),
      (ascii "sequence", .integer (toInt64 reference.sequence))]

/-- The document the digest is taken over. -/
def TaskCheckpoint.projectionJson (checkpoint : TaskCheckpoint) : JsonValue :=
  .object
    ([(ascii "schema_version", .object
          [(ascii "major", .integer checkpoint.schemaVersion.major),
            (ascii "minor", .integer checkpoint.schemaVersion.minor)]),
        (ascii "task_id", .string checkpoint.taskId.toString),
        (ascii "session_id", .string checkpoint.sessionId.toString),
        (ascii "task_epoch", .integer (toInt64 checkpoint.taskEpoch)),
        (ascii "environment_epoch", .integer (toInt64 checkpoint.environmentEpoch)),
        (ascii "through_event_sequence", .integer (toInt64 checkpoint.throughEventSequence)),
        (ascii "goal_statement", .string checkpoint.goalStatement)] ++
      optionalMember "success_criterion" (checkpoint.successCriterion.map .string) ++
      [(ascii "constraints", .array (checkpoint.constraints.map constraintToJson)),
        (ascii "verified_facts", .array (checkpoint.verifiedFacts.map factToJson)),
        (ascii "completed_steps", .array (checkpoint.completedSteps.map stepToJson)),
        (ascii "pending_objectives", .array (checkpoint.pendingObjectives.map objectiveToJson)),
        (ascii "unresolved_issues", .array (checkpoint.unresolvedIssues.map issueToJson)),
        (ascii "uncertain_side_effects",
          .array (checkpoint.uncertainSideEffects.map sideEffectToJson))] ++
      optionalMember "current_observation"
        (checkpoint.currentObservation.map observationRefToJson) ++
      [(ascii "recent_actions", .array (checkpoint.recentActions.map actionSummaryToJson)),
        (ascii "verification_pending", .boolean checkpoint.verificationPending)] ++
      optionalMember "terminal_state" (checkpoint.terminalState.map fun state =>
        .string (ascii (taskStateName (if state.isTerminal then state else .failed)))))

def TaskCheckpoint.projectionDigest (checkpoint : TaskCheckpoint) : Sha256Digest :=
  digestString (canonicalJsonString checkpoint.projectionJson)

end Mira.Checkpoint

namespace Mira.Checkpoint.Journal
open Mira Bytes

/-- No control byte; a field is not empty and holds no separator either. -/
def safeText (text : Bytes) (limit : Nat) (field : Bool) : Bool :=
  text.length ≤ limit && !(field && text.isEmpty) &&
    text.all fun c => 0x20 ≤ c && c ≠ 0x7f && !(field && c = 124)

structure ResourceDescriptor where
  type : Bytes
  id : Bytes
  scope : Bytes
  deriving DecidableEq

structure Payload where
  actionId : ActionId
  taskId : TaskId
  taskEpoch : Nat := 0
  environmentEpoch : Nat := 0
  digest : Sha256Digest
  target : ResourceDescriptor
  suffix : Bytes := []

/-- The fields that a separator must end, and what is left behind them. -/
def takeFields : Nat → Bytes → Option (List Bytes × Bytes)
  | 0, data => some ([], data)
  | count + 1, data =>
      match splitAtByte 124 data with
      | (_, none) => none
      | (field, some rest) =>
          (takeFields count rest).map fun (fields, last) => (field :: fields, last)

def assemble (fields : List Bytes) (last suffix : Bytes) : Option Payload :=
  match fields with
  | [action, task, taskEpoch, environmentEpoch, digest, type, id] =>
      match (StrongId.parse action : Option ActionId), (StrongId.parse task : Option TaskId),
          digestFromHex digest with
      | some action, some task, some digest =>
          if action.isNil ∨ task.isNil ∨ safeText type 1024 true = false ∨
              safeText id 1024 true = false ∨ safeText last 1024 true = false ∨
              safeText suffix 4096 false = false then none
          else
            match ofDecimal (2 ^ 64) taskEpoch, ofDecimal (2 ^ 64) environmentEpoch with
            | some taskEpoch, some environmentEpoch =>
                some ⟨action, task, taskEpoch, environmentEpoch, digest, ⟨type, id, last⟩, suffix⟩
            | _, _ => none
      | _, _, _ => none
  | _ => none

def parse (data : Bytes) : Option Payload :=
  if 16384 < data.length then none
  else
    match takeFields 7 data with
    | none => none
    | some (fields, rest) =>
        assemble fields (splitAtByte 124 rest).1 ((splitAtByte 124 rest).2.getD [])

end Mira.Checkpoint.Journal
