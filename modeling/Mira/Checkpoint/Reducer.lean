import Mira.Checkpoint.Contracts
import Mira.Checkpoint.VerifiedFact
import Mira.Library.Roster

/-!
The checkpoint reducer. Each event of the task that the projection has not seen yet
is applied, counted as malformed or stale, or ignored; exactly one of these. A build
folds the events onto a base and then drops the facts that are not valid at its
time.
-/

namespace Mira.Checkpoint
open Mira Bytes Events

structure CheckpointReducerConfig where
  maxRecentActions : Nat := 16
  maxVerifiedFacts : Nat := 256
  maxCompletedSteps : Nat := 512
  maxPendingObjectives : Nat := 128
  maxUnresolvedIssues : Nat := 128

/-- The counter of the statistics that an event increments. -/
inductive Outcome
  | applied | ignored | malformed | stale
  deriving DecidableEq

structure ReducerStats where
  applied : Nat := 0
  ignored : Nat := 0
  malformed : Nat := 0
  staleSkipped : Nat := 0
  deriving DecidableEq

/-- The events with a JSON payload. -/
inductive TaskEvent
  | goalSet | constraintAdded | constraintRemoved | factVerified | stepCompleted
  | objectiveAdded | objectiveCompleted | issueRaised | issueResolved | stateChanged
  | epochAdvanced | environmentEpochChanged | observationRecorded | actionDispatched
  | verificationResult | loopSettled
  deriving DecidableEq

def taskEvents : List (String × TaskEvent) :=
  [("TaskGoalSet", .goalSet), ("TaskConstraintAdded", .constraintAdded),
    ("TaskConstraintRemoved", .constraintRemoved), ("TaskFactVerified", .factVerified),
    ("TaskStepCompleted", .stepCompleted), ("TaskObjectiveAdded", .objectiveAdded),
    ("TaskObjectiveCompleted", .objectiveCompleted), ("TaskIssueRaised", .issueRaised),
    ("TaskIssueResolved", .issueResolved), ("TaskStateChanged", .stateChanged),
    ("TaskEpochAdvanced", .epochAdvanced), ("EnvironmentEpochChanged", .environmentEpochChanged),
    ("ObservationRecorded", .observationRecorded), ("ActionDispatched", .actionDispatched),
    ("VerificationResult", .verificationResult), ("LoopSettled", .loopSettled)]

def taskEventFrom (type : Bytes) : Option TaskEvent :=
  (taskEvents.find? fun entry => ascii entry.1 = type).map Prod.snd

inductive JournalEvent
  | prepared | dispatchStarted | receipt | executionUncertain
  deriving DecidableEq

def journalEvents : List (String × JournalEvent) :=
  [("ActionPrepared", .prepared), ("ActionDispatchStarted", .dispatchStarted),
    ("ActionReceipt", .receipt), ("ActionExecutionUncertain", .executionUncertain)]

def journalEventFrom (type : Bytes) : Option JournalEvent :=
  (journalEvents.find? fun entry => ascii entry.1 = type).map Prod.snd

/-- Updates the outcome of the first summary of that action. -/
def setOutcome (action : ActionId) (outcome : Bytes) :
    List CheckpointActionSummary → List CheckpointActionSummary
  | [] => []
  | summary :: rest =>
      if summary.actionId = action then { summary with outcome := outcome } :: rest
      else summary :: setOutcome action outcome rest

def applyRecentAction (config : CheckpointReducerConfig) (action : ActionId)
    (kind outcome : Bytes) (sequence : Nat) (projection : Projection) : Projection :=
  { projection with
    recentActions :=
      if action.isNil = false ∧ Roster.holds (·.actionId) action projection.recentActions then
        setOutcome action outcome projection.recentActions
      else
        Roster.push config.maxRecentActions ⟨action, kind, outcome, sequence⟩
          projection.recentActions }

def naturalMember (payload : JsonValue) (key : String) : Option Nat :=
  match integerMember payload key with
  | some value => if value < 0 then none else some value.toNat
  | none => none

def factOf (projection : Projection) (payload : JsonValue) (event : EventEnvelope) :
    Except Outcome (VerifiedFact × Projection) :=
  if (payload.find (ascii "schema")).isSome then
    match parsePublishedTaskFact event with
    | .error _ => .error .malformed
    | .ok published =>
        let c := published.claim
        if projection.terminalState.isSome ∨ c.taskEpoch < projection.taskEpoch ∨
            c.environmentEpoch < projection.environmentEpoch then .error .stale
        else
          .ok ({ key := c.key, value := c.value, provenance := [event.eventId, c.evidenceEvent]
                 validFrom := some c.validFrom, validUntil := some c.validUntil },
            { projection with taskEpoch := c.taskEpoch, environmentEpoch := c.environmentEpoch })
  else
    match stringMember payload "key", stringMember payload "value" with
    | some key, some value =>
        .ok ({ key := key, value := value, provenance := [event.eventId] }, projection)
    | _, _ => .error .malformed

def settledState (outcome : Bytes) : Option TaskState :=
  if outcome = ascii "Completed" then some .completed
  else if outcome = ascii "Failed" ∨ outcome = ascii "MaxSteps" then some .failed
  else if outcome = ascii "Cancelled" then some .cancelled
  else none

def applyJsonEvent (config : CheckpointReducerConfig) (projection : Projection)
    (kind : TaskEvent) (payload : JsonValue) (event : EventEnvelope) : Projection × Outcome :=
  match kind with
  | .goalSet =>
      match stringMember payload "statement" with
      | none => (projection, .malformed)
      | some statement =>
          ({ projection with
              goalStatement := statement
              successCriterion := stringMember payload "success_criterion" }, .applied)
  | .constraintAdded =>
      match stringMember payload "key", stringMember payload "requirement" with
      | some key, some requirement =>
          let safety := ((payload.find (ascii "safety")).bind JsonValue.asBoolean).getD false
          ({ projection with
              constraints := Roster.put (·.key) ⟨key, requirement, safety, [event.eventId]⟩
                projection.constraints }, .applied)
      | _, _ => (projection, .malformed)
  | .constraintRemoved =>
      match stringMember payload "key" with
      | none => (projection, .malformed)
      | some key =>
          ({ projection with
              constraints := projection.constraints.filter fun held => held.key ≠ key }, .applied)
  | .factVerified =>
      match factOf projection payload event with
      | .error outcome => (projection, outcome)
      | .ok (fact, projection) =>
          ({ projection with
              verifiedFacts := Roster.putWithin (·.key) config.maxVerifiedFacts fact
                projection.verifiedFacts }, .applied)
  | .stepCompleted =>
      match stringMember payload "summary",
          (stringMember payload "step_id").bind (StrongId.parse : Bytes → Option StepId) with
      | some summary, some step =>
          ({ projection with
              completedSteps := Roster.push config.maxCompletedSteps
                ⟨step, summary, [event.eventId]⟩ projection.completedSteps }, .applied)
      | _, _ => (projection, .malformed)
  | .objectiveAdded =>
      match stringMember payload "objective" with
      | none => (projection, .malformed)
      | some objective =>
          ({ projection with
              pendingObjectives :=
                if Roster.holds (·.objective) objective projection.pendingObjectives then
                  projection.pendingObjectives
                else
                  Roster.push config.maxPendingObjectives ⟨objective, [event.eventId]⟩
                    projection.pendingObjectives }, .applied)
  | .objectiveCompleted =>
      match stringMember payload "objective" with
      | none => (projection, .malformed)
      | some objective =>
          ({ projection with
              pendingObjectives := projection.pendingObjectives.filter fun held =>
                held.objective ≠ objective }, .applied)
  | .issueRaised =>
      match stringMember payload "issue" with
      | none => (projection, .malformed)
      | some issue =>
          ({ projection with
              unresolvedIssues :=
                if Roster.holds (·.issue) issue projection.unresolvedIssues then
                  projection.unresolvedIssues
                else
                  Roster.push config.maxUnresolvedIssues ⟨issue, [event.eventId]⟩
                    projection.unresolvedIssues }, .applied)
  | .issueResolved =>
      match stringMember payload "issue" with
      | none => (projection, .malformed)
      | some issue =>
          ({ projection with
              unresolvedIssues := projection.unresolvedIssues.filter fun held =>
                held.issue ≠ issue }, .applied)
  | .stateChanged =>
      -- A revival after a terminal state is rejected, not a silent resurrection.
      match (stringMember payload "to").bind taskStateFromName with
      | none => (projection, .malformed)
      | some target =>
          if projection.terminalState.isSome then (projection, .malformed)
          else if target.isTerminal then
            ({ projection with terminalState := some target }, .applied)
          else (projection, .applied)
  | .epochAdvanced =>
      match naturalMember payload "epoch" with
      | none => (projection, .malformed)
      | some epoch => ({ projection with taskEpoch := max projection.taskEpoch epoch }, .applied)
  | .environmentEpochChanged =>
      match naturalMember payload "epoch" with
      | none => (projection, .malformed)
      | some epoch =>
          ({ projection with environmentEpoch := max projection.environmentEpoch epoch }, .applied)
  | .observationRecorded =>
      match (stringMember payload "observation_id").bind
          (StrongId.parse : Bytes → Option ObservationId) with
      | none => (projection, .malformed)
      | some observation =>
          let digest := ((stringMember payload "digest").bind digestFromHex).getD .zero
          ({ projection with
              currentObservation := some ⟨observation, digest, event.sessionSequence⟩ }, .applied)
  | .actionDispatched =>
      match stringMember payload "action" with
      | none => (projection, .malformed)
      | some action =>
          ({ applyRecentAction config default action (ascii "dispatched") event.sessionSequence
              projection with verificationPending := true }, .applied)
  | .verificationResult =>
      ({ projection with verificationPending := false, uncertainSideEffects := [] }, .applied)
  | .loopSettled =>
      match stringMember payload "outcome" with
      | none => (projection, .malformed)
      | some outcome =>
          if projection.terminalState.isSome then (projection, .applied)
          else ({ projection with terminalState := settledState outcome }, .applied)

def journalPayload (event : EventEnvelope) : Option Journal.Payload :=
  (Journal.parse event.payload.data).filter fun parsed => event.taskId = some parsed.taskId

def applyJournalEvent (config : CheckpointReducerConfig) (projection : Projection)
    (kind : JournalEvent) (parsed : Journal.Payload) (event : EventEnvelope) : Projection :=
  let projection :=
    { projection with
      taskEpoch := max projection.taskEpoch parsed.taskEpoch
      environmentEpoch := max projection.environmentEpoch parsed.environmentEpoch }
  match kind with
  | .prepared => projection
  | .dispatchStarted =>
      { applyRecentAction config parsed.actionId parsed.target.type (ascii "dispatched")
          event.sessionSequence projection with verificationPending := true }
  | .receipt =>
      applyRecentAction config parsed.actionId parsed.target.type (ascii "receipt")
        event.sessionSequence projection
  | .executionUncertain =>
      let reason := if parsed.suffix.isEmpty then ascii "execution uncertain" else parsed.suffix
      if Roster.holds (·.actionId) parsed.actionId projection.uncertainSideEffects then projection
      else
        { projection with
          uncertainSideEffects := projection.uncertainSideEffects ++
            [⟨parsed.actionId, parsed.target.type, reason, [event.eventId]⟩] }

/-- The kinds that loop producers wrap in a task and epoch envelope. -/
def TaskEvent.wrapped (kind : TaskEvent) : Bool :=
  kind = .actionDispatched || kind = .verificationResult || kind = .loopSettled

/-- The details of a wrapped payload, and the projection moved to its epoch. A flat
payload stands for itself. -/
def unwrap (projection : Projection) (kind : TaskEvent) (body : JsonValue)
    (event : EventEnvelope) : Except Outcome (JsonValue × Projection) :=
  match if kind.wrapped then body.find (ascii "detail") else none with
  | none => .ok (body, projection)
  | some detail =>
      match naturalMember body "task_epoch" with
      | none => .error .malformed
      | some epoch =>
          if detail.isObject = false ∨ event.taskId = none ∨
              stringMember body "task_id" ≠ event.taskId.map StrongId.toString then
            .error .malformed
          else if epoch < projection.taskEpoch then .error .stale
          else .ok (detail, { projection with taskEpoch := epoch })

def applyEvent (config : CheckpointReducerConfig) (projection : Projection)
    (event : EventEnvelope) : Projection × Outcome :=
  match journalEventFrom event.payload.type with
  | some kind =>
      match journalPayload event with
      | none => (projection, .malformed)
      | some parsed => (applyJournalEvent config projection kind parsed event, .applied)
  | none =>
      match parseJson event.payload.data with
      | .error _ => (projection, .malformed)
      | .ok body =>
          match taskEventFrom event.payload.type with
          | none => (projection, .ignored)
          | some kind =>
              match unwrap projection kind body event with
              | .error outcome => (projection, outcome)
              | .ok (body, projection) => applyJsonEvent config projection kind body event

/-- One round of the fold. An event of another task or one that was seen before is
skipped. -/
def foldStep (config : CheckpointReducerConfig) (projection : Projection)
    (event : EventEnvelope) : Projection × Option Outcome :=
  if event.taskId.any fun task => task ≠ projection.taskId then (projection, none)
  else if event.sessionSequence ≤ projection.throughEventSequence then (projection, none)
  else
    let applied := applyEvent config
      { projection with throughEventSequence := event.sessionSequence } event
    (applied.1, some applied.2)

def ReducerStats.count (stats : ReducerStats) : Option Outcome → ReducerStats
  | some .applied => { stats with applied := stats.applied + 1 }
  | some .ignored => { stats with ignored := stats.ignored + 1 }
  | some .malformed => { stats with malformed := stats.malformed + 1 }
  | some .stale | none => { stats with staleSkipped := stats.staleSkipped + 1 }

/-- A full rebuild adopts the identity of the first event that has a task. -/
def adopt (events : List EventEnvelope) : Projection :=
  match events.find? fun event => event.taskId.isSome with
  | some event => { taskId := event.taskId.getD default, sessionId := event.sessionId }
  | none => {}

structure CheckpointBuildResult where
  checkpoint : TaskCheckpoint
  stats : ReducerStats

/-- `CheckpointBuilder::build`. The new identifier is made of the entropy. -/
def build (config : CheckpointReducerConfig) (base : Option TaskCheckpoint)
    (events : List EventEnvelope) (now : Timestamp) (entropy : Id128) : CheckpointBuildResult :=
  let start : TaskCheckpoint := base.getD { toProjection := adopt events }
  let folded := Execution.run (foldStep config) start.toProjection events
  { checkpoint :=
      { start with
        toProjection := { folded with
          verifiedFacts := folded.verifiedFacts.filter fun fact => fact.validAt now.wall }
        schemaVersion := checkpointSchemaCurrent
        id := .generate entropy
        createdAt := now }
    stats :=
      (Execution.outputs (foldStep config) start.toProjection events).foldl ReducerStats.count {} }

end Mira.Checkpoint
