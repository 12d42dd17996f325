import Mira.Checkpoint.Incremental
import Mira.Checkpoint.InFlight
import Mira.Library.Paging

/-!
Recovery planning. The planner reads the events of a task page by page, takes the
newest checkpoint the store offers and folds what is left onto it. Whatever
checkpoint was built from the beginning of the same log, the plan is that of the log
alone.
-/

namespace Mira.Checkpoint
open Mira Bytes Events

inductive RecoveryAction
  | resumeObserving | resumeVerifying | alreadyTerminal | noState

structure RecoveryOutcome where
  action : RecoveryAction := .noState
  checkpoint : Option TaskCheckpoint := none
  durableSequence : Nat := 0
  taskEpoch : Nat := 0
  environmentEpoch : Nat := 0
  pendingSideEffects : List UncertainSideEffect := []
  stats : ReducerStats := {}

structure RecoveryPolicy where
  maxSupportedSchema : SchemaVersion := checkpointSchemaCurrent
  maxEventsScanned : Nat := 1000000

def recoveryError (code : ErrorCode) (message : String) : Error :=
  { code := code, domain := "mira.recovery", safeMessage := message }

structure RecoverySource where
  read : MemoryEventStore.EventQuery → Result MemoryEventStore.EventPage
  latestAtOrBefore : TaskId → Nat → Result (Option TaskCheckpoint)

structure RecoveryScan where
  collected : List EventEnvelope := []
  after : Option Nat := none
  scanned : Nat := 0

/-- One page, unless it holds too much or makes no progress. -/
def RecoveryScan.fetch (read : MemoryEventStore.EventQuery → Result MemoryEventStore.EventPage) (policy : RecoveryPolicy)
    (session : SessionId) (scan : RecoveryScan) : Result (List EventEnvelope × Bool) :=
  let limit := min 1024 (policy.maxEventsScanned - scan.scanned)
  match read ⟨session, scan.after, limit⟩ with
  | .error reason => .error reason
  | .ok page =>
      if limit < page.events.length ∨ (page.events.isEmpty ∧ page.hasMore) then
        .error (recoveryError .dataLoss "recovery page made no valid progress")
      else .ok (page.events, page.hasMore)

def RecoveryScan.visit (task : TaskId) (session : SessionId) (scan : RecoveryScan)
    (event : EventEnvelope) : Result RecoveryScan :=
  if event.sessionId ≠ session ∨ event.sessionSequence ≤ scan.after.getD 0 then
    .error (recoveryError .dataLoss "recovery page identity or order is invalid")
  else
    .ok { collected := if event.taskId = some task then scan.collected ++ [event]
            else scan.collected
          after := some event.sessionSequence
          scanned := scan.scanned + 1 }

def RecoveryScan.again (policy : RecoveryPolicy) (scan : RecoveryScan) : Result Unit :=
  if scan.scanned = policy.maxEventsScanned then
    .error (recoveryError .resourceExhausted "recovery scan exceeded the event bound")
  else .ok ()

/-- The rounds are bounded by the events: each page but the last one holds some. -/
def RecoveryScan.run (read : MemoryEventStore.EventQuery → Result MemoryEventStore.EventPage) (policy : RecoveryPolicy)
    (task : TaskId) (session : SessionId) : Option (Result RecoveryScan) :=
  Paging.scan (fetch read policy session) (visit task session) (again policy)
    (policy.maxEventsScanned + 1) {}

theorem RecoveryScan.ends_on_any_store (read : MemoryEventStore.EventQuery → Result MemoryEventStore.EventPage) (policy : RecoveryPolicy)
    (task : TaskId) (session : SessionId) : run read policy task session ≠ none := by
  apply Paging.scan_ends RecoveryScan.scanned policy.maxEventsScanned
  · intro scan event next visited
    simp only [visit] at visited
    split at visited
    · cases visited
    · cases visited
      rfl
  · intro scan events more fetched
    simp only [fetch] at fetched
    split at fetched
    · cases fetched
    · split at fetched
      · cases fetched
      · next valid =>
          cases fetched
          obtain ⟨limited, some_⟩ := not_or.mp valid
          exact ⟨by omega, fun more empty => some_ ⟨by rw [empty]; rfl, more⟩⟩
  · exact Nat.lt_succ_self _

/-- `RecoveryPlanner::read_task_events`. -/
def readRecoveryEvents (read : MemoryEventStore.EventQuery → Result MemoryEventStore.EventPage) (policy : RecoveryPolicy)
    (task : TaskId) (session : SessionId) : Result (List EventEnvelope) :=
  if policy.maxEventsScanned = 0 then
    .error (recoveryError .invalidArgument "recovery scan bound must be positive")
  else
    match RecoveryScan.run read policy task session with
    | some (.ok scan) => .ok scan.collected
    | some (.error reason) => .error reason
    | none => .error (recoveryError .internal "unreachable")

variable {policy : RecoveryPolicy} {task : TaskId} {session : SessionId}
  {events : List EventEnvelope}

/-- What was collected is in the order of the session and of the task alone. -/
structure RecoveryScan.Ordered (task : TaskId) (session : SessionId) (scan : RecoveryScan) :
    Prop where
  order : scan.collected.Pairwise (·.sessionSequence < ·.sessionSequence)
  reached : ∀ event ∈ scan.collected, event.sessionSequence ≤ scan.after.getD 0
  own : ∀ event ∈ scan.collected, event.taskId = some task ∧ event.sessionId = session

theorem RecoveryScan.Ordered.visited {scan next : RecoveryScan} {event : EventEnvelope}
    (ordered : scan.Ordered task session) (visited : scan.visit task session event = .ok next) :
    next.Ordered task session := by
  simp only [visit] at visited
  split at visited
  · cases visited
  · next valid =>
      cases visited
      obtain ⟨same, later⟩ := not_or.mp valid
      obtain ⟨order, reached, own⟩ := ordered
      constructor <;> grind

theorem readRecoveryEvents_scan
    {read : MemoryEventStore.EventQuery → Result MemoryEventStore.EventPage}
    (collected : readRecoveryEvents read policy task session = .ok events) :
    ∃ scan : RecoveryScan, scan.Ordered task session ∧ scan.collected = events := by
  simp only [readRecoveryEvents] at collected
  split at collected
  · cases collected
  · split at collected
    · next scan ran =>
        cases collected
        have ordered := Paging.scan_invariant (·.Ordered task session) (fun _ => True)
          (fun _ _ _ _ _ _ => trivial) (fun _ _ _ held _ visited => held.visited visited) _ _
          ⟨.nil, by simp, by simp⟩ scan ran
        exact ⟨scan, ordered, rfl⟩
    · cases collected
    · cases collected

theorem readRecoveryEvents_own
    {read : MemoryEventStore.EventQuery → Result MemoryEventStore.EventPage}
    (collected : readRecoveryEvents read policy task session = .ok events) :
    ∀ event ∈ events, event.taskId = some task ∧ event.sessionId = session := by
  obtain ⟨scan, ordered, rfl⟩ := readRecoveryEvents_scan collected
  exact ordered.own

/-- What stands in the way of folding onto a checkpoint. -/
def baseError (policy : RecoveryPolicy) (task : TaskId) (session : SessionId)
    (base : TaskCheckpoint) : Option Error :=
  match validateSchemaVersion base.schemaVersion policy.maxSupportedSchema with
  | .error reason => some reason
  | .ok () =>
      if base.sessionId ≠ session ∨ base.taskId ≠ task then
        some (recoveryError .invalidState "checkpoint does not belong to the recovering task")
      else none

def plannedAction (projection : Projection) : RecoveryAction :=
  if projection.terminalState.isSome then .alreadyTerminal
  else if projection.uncertainSideEffects ≠ [] then .resumeObserving
  else if projection.verificationPending then .resumeVerifying
  else .resumeObserving

def durableSequence (events : List EventEnvelope) : Nat :=
  events.foldl (fun high event => max high event.sessionSequence) 0

def plan (source : RecoverySource) (policy : RecoveryPolicy) (task : TaskId)
    (session : SessionId) (now : Timestamp) (entropy : Id128) : Result RecoveryOutcome :=
  if task.isNil ∨ session.isNil then
    .error (recoveryError .invalidArgument "recovery requires task and session ids")
  else
    match readRecoveryEvents source.read policy task session with
    | .error reason => .error reason
    | .ok events =>
        match source.latestAtOrBefore task (durableSequence events) with
        | .error reason => .error reason
        | .ok base =>
            match base.bind (baseError policy task session) with
            | some reason => .error reason
            | none =>
                if base.isNone ∧ events.isEmpty then .ok { durableSequence := durableSequence events }
                else
                  let built := build {} base events now entropy
                  .ok { action := plannedAction built.checkpoint.toProjection
                        checkpoint := some built.checkpoint
                        durableSequence := durableSequence events
                        taskEpoch := built.checkpoint.taskEpoch
                        environmentEpoch := built.checkpoint.environmentEpoch
                        pendingSideEffects := built.checkpoint.uncertainSideEffects
                        stats := built.stats }

theorem adopt_session (some_ : events ≠ [])
    (own : ∀ event ∈ events, event.taskId = some task ∧ event.sessionId = session) :
    (adopt events).sessionId = session := by
  cases events with
  | nil => exact absurd rfl some_
  | cons first rest =>
      obtain ⟨scope, place⟩ := own first List.mem_cons_self
      simp [adopt, scope, place]

theorem Built.schema {config : CheckpointReducerConfig} {seen : List EventEnvelope}
    {checkpoint : TaskCheckpoint} (built : Built config seen checkpoint) :
    checkpoint.schemaVersion = checkpointSchemaCurrent := by
  cases built with
  | full => rfl
  | onto => rfl

/-- A valid checkpoint of the beginning of a log. -/
def CheckpointOf (events : List EventEnvelope) (checkpoint : TaskCheckpoint) : Prop :=
  checkpoint.validate = .ok () ∧ ∃ seen, seen <+: events ∧ Built {} seen checkpoint

section Base
variable {task : TaskId} {session : SessionId} {events : List EventEnvelope}
  (own : ∀ event ∈ events, event.taskId = some task ∧ event.sessionId = session)
include own

variable {checkpoint : TaskCheckpoint}

theorem CheckpointOf.usable (stored : CheckpointOf events checkpoint) {policy : RecoveryPolicy}
    (supported : validateSchemaVersion checkpointSchemaCurrent policy.maxSupportedSchema = .ok ()) :
    events ≠ [] ∧ baseError policy task session checkpoint = none := by
  obtain ⟨valid, seen, start, built⟩ := stored
  have own' : ∀ event ∈ seen, event.taskId = some task ∧ event.sessionId = session :=
    fun event present => own event (start.subset present)
  obtain ⟨some_, same⟩ := built.core (fun event present => (own' event present).1)
    (validate_named valid)
  have identity := run_identity {} (adopt seen) seen
  have task_eq : checkpoint.taskId = task :=
    (congrArg Projection.taskId same).trans
      (identity.1.trans (adopt_task some_ fun event present => (own' event present).1))
  have session_eq : checkpoint.sessionId = session :=
    (congrArg Projection.sessionId same).trans (identity.2.trans (adopt_session some_ own'))
  refine ⟨fun empty => some_ (List.prefix_nil.mp (empty ▸ start)), ?_⟩
  simp only [baseError, built.schema, supported, task_eq, session_eq, ne_eq, not_true_eq_false,
    or_self, if_false]

theorem CheckpointOf.build_core (stored : CheckpointOf events checkpoint) (now : Timestamp)
    (entropy : Id128) :
    (build {} (some checkpoint) events now entropy).checkpoint.toProjection.core =
      (foldAll {} events).core := by
  obtain ⟨valid, seen, start, built⟩ := stored
  have whole := built.extended start now entropy
  have identity := run_identity {} checkpoint.toProjection events
  refine (whole.core (fun event present => (own event present).1) ?_).2
  have named := validate_named valid
  rw [← identity.1] at named
  exact named

end Base

structure Decision where
  action : RecoveryAction
  taskEpoch : Nat
  environmentEpoch : Nat
  pendingSideEffects : List UncertainSideEffect

def RecoveryOutcome.decision (outcome : RecoveryOutcome) : Decision :=
  ⟨outcome.action, outcome.taskEpoch, outcome.environmentEpoch, outcome.pendingSideEffects⟩

def Projection.decision (projection : Projection) : Decision :=
  ⟨plannedAction projection, projection.taskEpoch, projection.environmentEpoch,
    projection.uncertainSideEffects⟩

theorem decision_core {left right : Projection} (same : left.core = right.core) :
    left.decision = right.decision := by
  have apart (projection : Projection) : projection.core.decision = projection.decision := rfl
  rw [← apart left, same, apart]

/-- The decision the log alone gives. -/
def decisionOf (events : List EventEnvelope) : Decision :=
  if events = [] then ⟨.noState, 0, 0, []⟩ else (foldAll {} events).decision

theorem decisionOf_in_flight (events : List EventEnvelope) :
    let entries := entriesOf events
    ((∃ entry ∈ entries, Settles entry) → (decisionOf events).action = .alreadyTerminal) ∧
    (∀ action, action ∈ (decisionOf events).pendingSideEffects.map (·.actionId) ↔
      Execution.Since (Uncertain action) Verified entries) ∧
    (Execution.Since Dispatched Verified entries →
      (decisionOf events).action = .alreadyTerminal ∨
        (decisionOf events).action = .resumeVerifying ∨
        ((decisionOf events).action = .resumeObserving ∧
          (decisionOf events).pendingSideEffects ≠ [])) := by
  intro entries
  by_cases empty : events = []
  · subst empty
    have none_ : entries = [] := rfl
    have quiet {raises clears : Entry → Prop} :
        ¬ Execution.Since raises clears entries := by
      intro since
      obtain ⟨entry, present, _⟩ := since.exists_mem
      rw [none_] at present
      cases present
    refine ⟨fun settled => ?_, fun action => iff_of_false List.not_mem_nil quiet,
      fun since => absurd since quiet⟩
    obtain ⟨entry, present, _⟩ := settled
    rw [none_] at present
    cases present
  · simp only [decisionOf, if_neg empty, Projection.decision]
    refine ⟨fun settled => ?_, run_uncertain {} events, fun dispatched => ?_⟩
    · have terminal := (run_settles {} events).mpr settled
      exact if_pos (Option.isSome_iff_ne_none.mpr terminal)
    · have pending := (run_pending {} events).mpr dispatched
      simp only [plannedAction]
      split_ifs with terminal uncertain
      · exact .inl rfl
      · exact .inr (.inr ⟨rfl, uncertain⟩)
      · exact .inr (.inl rfl)

theorem plan_decision (source : RecoverySource) {base : Option TaskCheckpoint}
    (named : task.isNil = false ∧ session.isNil = false)
    (supported : validateSchemaVersion checkpointSchemaCurrent policy.maxSupportedSchema = .ok ())
    (log : readRecoveryEvents source.read policy task session = .ok events)
    (answered : source.latestAtOrBefore task (durableSequence events) = .ok base)
    (stored : ∀ checkpoint, base = some checkpoint → CheckpointOf events checkpoint)
    (now : Timestamp) (entropy : Id128) :
    ∃ outcome, plan source policy task session now entropy = .ok outcome ∧
      outcome.decision = decisionOf events := by
  have own := readRecoveryEvents_own log
  simp only [plan, named.1, named.2, Bool.false_eq_true, or_self, if_false, log, answered]
  cases base with
  | none =>
      simp only [Option.bind_none, Option.isNone_none, true_and, List.isEmpty_iff]
      by_cases empty : events = []
      · exact ⟨_, if_pos empty, by rw [decisionOf, if_pos empty]; rfl⟩
      · exact ⟨_, if_neg empty, by rw [decisionOf, if_neg empty]; rfl⟩
  | some checkpoint =>
      have checkpointOf := stored checkpoint rfl
      obtain ⟨some_, usable⟩ := checkpointOf.usable own supported
      have same := checkpointOf.build_core own now entropy
      simp only [Option.bind_some, usable, Option.isNone_some, Bool.false_eq_true, false_and,
        if_false]
      refine ⟨_, rfl, ?_⟩
      rw [decisionOf, if_neg some_]
      exact decision_core same

/-- The same stores with no checkpoint in them. -/
def RecoverySource.withoutCheckpoints (source : RecoverySource) : RecoverySource :=
  { source with latestAtOrBefore := fun _ _ => .ok none }

/-- A plan does not depend on the checkpoint it starts from. Whatever valid checkpoint of
the beginning of the log the store answers with, the plan agrees with the one made
without checkpoints; a settled task is terminal, and an action that was dispatched or
left uncertain since the last verification is verified or listed as pending. -/
theorem plan_independent (source : RecoverySource) (policy : RecoveryPolicy) (task : TaskId)
    (session : SessionId) (now : Timestamp) (entropy entropy' : Id128)
    (supported : validateSchemaVersion checkpointSchemaCurrent policy.maxSupportedSchema = .ok ())
    (stored : ∀ events, readRecoveryEvents source.read policy task session = .ok events →
      ∃ base, source.latestAtOrBefore task (durableSequence events) = .ok base ∧
        ∀ checkpoint, base = some checkpoint → CheckpointOf events checkpoint) :
    (plan source policy task session now entropy).map RecoveryOutcome.decision =
      (plan source.withoutCheckpoints policy task session now entropy').map
        RecoveryOutcome.decision ∧
    ∀ events, task.isNil = false → session.isNil = false →
      readRecoveryEvents source.read policy task session = .ok events →
      ∃ outcome, plan source policy task session now entropy = .ok outcome ∧
        let entries := entriesOf events
        ((∃ entry ∈ entries, Settles entry) → outcome.action = .alreadyTerminal) ∧
        (∀ action, action ∈ outcome.pendingSideEffects.map (·.actionId) ↔
          Execution.Since (Uncertain action) Verified entries) ∧
        (Execution.Since Dispatched Verified entries →
          outcome.action = .alreadyTerminal ∨ outcome.action = .resumeVerifying ∨
            (outcome.action = .resumeObserving ∧ outcome.pendingSideEffects ≠ [])) := by
  refine ⟨?_, ?_⟩
  · by_cases named : task.isNil = false ∧ session.isNil = false
    · cases log : readRecoveryEvents source.read policy task session with
      | error reason =>
          have log' : readRecoveryEvents source.withoutCheckpoints.read policy task session =
            .error reason := log
          simp only [plan, log, log']
      | ok events =>
          obtain ⟨base, answered, checkpoints⟩ := stored events log
          have log' : readRecoveryEvents source.withoutCheckpoints.read policy task session =
            .ok events := log
          have empty : source.withoutCheckpoints.latestAtOrBefore task (durableSequence events) =
            .ok none := rfl
          have unstored : ∀ checkpoint, none = some checkpoint → CheckpointOf events checkpoint := by
            intro checkpoint present
            cases present
          obtain ⟨outcome, planned, decided⟩ :=
            plan_decision source named supported log answered checkpoints now entropy
          obtain ⟨outcome', planned', decided'⟩ :=
            plan_decision source.withoutCheckpoints named supported log' empty unstored now
              entropy'
          rw [planned, planned']
          exact congrArg Except.ok (decided.trans decided'.symm)
    · have nil : task.isNil = true ∨ session.isNil = true := by
        rw [not_and_or, Bool.not_eq_false, Bool.not_eq_false] at named
        exact named
      simp only [plan, if_pos nil]
  · intro events task_named session_named log
    obtain ⟨base, answered, checkpoints⟩ := stored events log
    obtain ⟨outcome, planned, decided⟩ :=
      plan_decision source ⟨task_named, session_named⟩ supported log answered checkpoints now entropy
    have kept := decisionOf_in_flight events
    rw [← decided] at kept
    exact ⟨outcome, planned, kept⟩

def dispatchedThenSettled : List EventEnvelope :=
  let event (sequence : Nat) (type : String) (body : JsonValue) : EventEnvelope :=
    { eventId := .filled 4
      runtimeId := .filled 1
      sessionId := .filled 2
      taskId := some (.filled 3)
      sessionSequence := sequence
      payload := { type := ascii type, data := canonicalJsonString body } }
  [event 1 "ActionDispatched" (.object [(ascii "action", .string (ascii "open"))]),
    event 2 "LoopSettled" (.object [(ascii "outcome", .string (ascii "Completed"))])]

/-- A store with that log and a checkpoint taken in between. -/
def interruptedSource : RecoverySource :=
  { read := fun query => .ok (MemoryEventStore.read { events := dispatchedThenSettled } query)
    latestAtOrBefore := fun _ _ =>
      .ok (some (build {} none (dispatchedThenSettled.take 1) {} .nil).checkpoint) }

theorem interrupted_plan :
    (plan interruptedSource {} (.filled 3) (.filled 2) {} .nil).map RecoveryOutcome.decision =
      (plan interruptedSource.withoutCheckpoints {} (.filled 3) (.filled 2) {} .nil).map
        RecoveryOutcome.decision ∧
    ∃ outcome, plan interruptedSource {} (.filled 3) (.filled 2) {} .nil = .ok outcome ∧
      outcome.action = .alreadyTerminal := by
  have log : readRecoveryEvents interruptedSource.read {} (.filled 3) (.filled 2) =
    .ok dispatchedThenSettled := by rfl
  have stored : ∀ events,
      readRecoveryEvents interruptedSource.read {} (.filled 3) (.filled 2) = .ok events →
      ∃ base, interruptedSource.latestAtOrBefore (.filled 3) (durableSequence events) = .ok base ∧
        ∀ checkpoint, base = some checkpoint → CheckpointOf events checkpoint := by
    intro events read
    cases log.symm.trans read
    refine ⟨_, rfl, fun checkpoint held => ?_⟩
    cases held
    exact ⟨by decide +kernel, _, List.take_prefix 1 dispatchedThenSettled, .full _ _ _⟩
  obtain ⟨same, planned⟩ := plan_independent interruptedSource {} (.filled 3) (.filled 2) {} .nil
    .nil rfl stored
  obtain ⟨outcome, ok, terminal, _⟩ :=
    planned dispatchedThenSettled (by decide) (by decide) log
  refine ⟨same, outcome, ok, terminal ?_⟩
  rw [← run_settles {}]
  decide +kernel

/-- Whatever a store answers, the planner reads events of the task, each later than the one
before. -/
theorem readRecoveryEvents_ordered
    {read : MemoryEventStore.EventQuery → Result MemoryEventStore.EventPage}
    (collected : readRecoveryEvents read policy task session = .ok events) :
    events.Pairwise (·.sessionSequence < ·.sessionSequence) ∧
      ∀ event ∈ events, event.taskId = some task ∧ event.sessionId = session := by
  obtain ⟨scan, ordered, rfl⟩ := readRecoveryEvents_scan collected
  exact ⟨ordered.order, ordered.own⟩

theorem interrupted_log_ordered :
    dispatchedThenSettled.Pairwise (·.sessionSequence < ·.sessionSequence) ∧
      ∀ event ∈ dispatchedThenSettled,
        event.taskId = some (.filled 3) ∧ event.sessionId = .filled 2 :=
  readRecoveryEvents_ordered (show readRecoveryEvents interruptedSource.read {} _ _ = _ by rfl)

end Mira.Checkpoint
