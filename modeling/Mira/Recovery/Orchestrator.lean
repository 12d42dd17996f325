import Mira.Library.Interleaving
import Mira.Library.KeyedTable
import Mira.Workflow.Contracts

/-!
The recovery orchestrator: which attempts it tracks for a run, how an attempt is started in the
background, admitted and settled, and what a wait for it finds. What an attempt makes of the run
and of the model comes from outside here. The turns are the sections under the mutex and what lies
between them; the audit event and the hook after a settlement leave the tracking as it is.
-/

namespace Mira.Recovery
open Mira Bytes Workflow

structure WorkflowRunId where
  value : Id128
  deriving DecidableEq

structure WorkflowRecoveryConfig where
  maxAttemptsPerRun : Nat := 8
  maxConcurrentAttempts : Nat := 1
  maxTrackedRuns : Nat := 32

inductive WorkflowRecoveryOutcome
  | patchedAndResumed | resumedWithoutPatch | cancelRequested | deferredToHost | aborted
  deriving DecidableEq

/-- The result of an attempt, as far as the tracking keeps it. -/
structure WorkflowRecoveryAttempt where
  runId : WorkflowRunId
  ordinal : Nat
  outcome : WorkflowRecoveryOutcome
  reasonCode : Bytes
  deriving DecidableEq

structure RecoveryError where
  code : ErrorCode
  safeMessage : Bytes
  retryable : Bool := false
  deriving DecidableEq

def recoveryError (code : ErrorCode) (message : String) (retryable : Bool := false) :
    RecoveryError :=
  ⟨code, ascii message, retryable⟩

abbrev RecoveryResult (α : Type) := Except RecoveryError α

/-- The future of an attempt in the background is its number. -/
abbrev Ticket := Nat

structure RunTracking where
  ordinal : Nat := 0
  attemptsUsed : Nat := 0
  inFlight : Bool := false
  lastResult : Option WorkflowRecoveryAttempt := none
  pending : Option Ticket := none

/-- What the orchestrator keeps. The results are those of the pipelines that have returned; the
attempts that `start_recovery` has recorded are history, the latest first. -/
structure Orchestrator where
  tracking : KeyedTable WorkflowRunId RunTracking := .empty
  asyncInFlight : Nat := 0
  accepting : Bool := true
  submitted : Nat := 0
  results : KeyedTable Ticket (RecoveryResult WorkflowRecoveryAttempt) := .empty
  started : List (WorkflowRunId × Ticket) := []

namespace Orchestrator

def tracked (shared : Orchestrator) (run : WorkflowRunId) : RunTracking :=
  (shared.tracking.find? run).getD {}

/-- The pipeline returns. -/
def finish (shared : Orchestrator) (ticket : Ticket)
    (result : RecoveryResult WorkflowRecoveryAttempt) : Orchestrator :=
  { shared with results := shared.results.assign ticket result }

/-- The first section of `start_recovery`. -/
def checkStart (config : WorkflowRecoveryConfig) (shared : Orchestrator) (run : WorkflowRunId) :
    RecoveryResult Unit :=
  if shared.accepting = false then
    .error (recoveryError .unavailable "recovery orchestrator is shutting down")
  else if (shared.tracked run).inFlight ∨ (shared.tracked run).pending.isSome then
    .error (recoveryError .invalidState "a recovery attempt is already in flight for the run")
  else if config.maxConcurrentAttempts ≤ shared.asyncInFlight then
    .error (recoveryError .resourceExhausted
      "concurrent recovery attempt capacity is exhausted" true)
  else .ok ()

/-- Its second section. -/
def record (shared : Orchestrator) (run : WorkflowRunId) (ticket : Ticket) : Orchestrator :=
  { shared with
    tracking := shared.tracking.assign run { shared.tracked run with pending := some ticket }
    asyncInFlight := shared.asyncInFlight + 1
    started := (run, ticket) :: shared.started }

inductive Waited
  | answered (result : RecoveryResult WorkflowRecoveryAttempt)
  | awaits (ticket : Ticket)
  deriving DecidableEq

/-- What `wait_recovery` finds. -/
def waitRecovery (shared : Orchestrator) (run : WorkflowRunId) : Waited :=
  match shared.tracking.find? run with
  | none => .answered (.error (recoveryError .notFound "no recovery attempt was started"))
  | some tracked =>
      match tracked.lastResult, tracked.pending with
      | some attempt, _ => .answered (.ok attempt)
      | none, some ticket => .awaits ticket
      | none, none =>
          .answered (.error (recoveryError .notFound "no recovery attempt was started"))

inductive Admission
  | admitted (ordinal : Nat)
  | settled (attempt : WorkflowRecoveryAttempt)
  | error (error : RecoveryError)

def admission (config : WorkflowRecoveryConfig) (shared : Orchestrator) (run : WorkflowRunId)
    (state : WorkflowRunState) : Admission :=
  let tracked := shared.tracked run
  let rejection (outcome : WorkflowRecoveryOutcome) (reason : String) : Admission :=
    .settled ⟨run, tracked.ordinal, outcome, ascii reason⟩
  if shared.accepting = false then rejection .aborted "shutdown"
  else if state ≠ .waitingAgent then rejection .aborted "not-waiting-agent"
  else if tracked.inFlight then rejection .aborted "attempt-in-progress"
  else if config.maxAttemptsPerRun ≤ tracked.attemptsUsed then
    rejection .deferredToHost "attempt-budget-exhausted"
  else if shared.tracking.contains run = false ∧ config.maxTrackedRuns ≤ shared.tracking.size then
    .error (recoveryError .resourceExhausted "recovery tracking table is full" true)
  else .admitted (tracked.ordinal + 1)

/-- The entry of a run that an attempt is admitted for. -/
def enlist (shared : Orchestrator) (run : WorkflowRunId) : Orchestrator :=
  { shared with
    tracking := shared.tracking.assign run
      { shared.tracked run with
        ordinal := (shared.tracked run).ordinal + 1
        inFlight := true
        lastResult := none } }

def useSlot (shared : Orchestrator) (run : WorkflowRunId) : Orchestrator :=
  { shared with
    tracking := shared.tracking.assign run
      { shared.tracked run with attemptsUsed := (shared.tracked run).attemptsUsed + 1 } }

def settleTracking (shared : Orchestrator) (attempt : WorkflowRecoveryAttempt) : Orchestrator :=
  match shared.tracking.find? attempt.runId with
  | none => shared
  | some tracked =>
      { shared with
        tracking := shared.tracking.assign attempt.runId
          { tracked with inFlight := false, pending := none, lastResult := some attempt }
        asyncInFlight :=
          if tracked.pending.isSome then shared.asyncInFlight - 1 else shared.asyncInFlight }

def recordEarlyResult (shared : Orchestrator) (attempt : WorkflowRecoveryAttempt) :
    Orchestrator :=
  match shared.tracking.find? attempt.runId with
  | none => shared
  | some tracked =>
      if tracked.inFlight then shared
      else
        { shared with
          tracking := shared.tracking.assign attempt.runId
            { tracked with lastResult := some attempt } }

def idleRuns (shared : Orchestrator) : List WorkflowRunId :=
  (shared.tracking.entries.filter fun entry =>
    !entry.2.inFlight && entry.2.pending.isNone).map Prod.fst

def evict (shared : Orchestrator) (run : WorkflowRunId) : Orchestrator :=
  if (shared.tracked run).inFlight ∨ (shared.tracked run).pending.isSome then shared
  else { shared with tracking := shared.tracking.erase run }

end Orchestrator

inductive PipelinePoint
  | snapshot
  | admitting (state : WorkflowRunState) (again : Bool)
  | rejected (attempt : WorkflowRecoveryAttempt)
  | evicting (state : WorkflowRunState)
  | probing (state : WorkflowRunState) (candidates : List WorkflowRunId)
  | erasing (state : WorkflowRunState) (terminal : List WorkflowRunId)
  | preparing (ordinal : Nat)
  | requesting (ordinal : Nat)
  | settling (attempt : WorkflowRecoveryAttempt)

inductive RecoveryPoint
  | starting (run : WorkflowRunId)
  | submitting (run : WorkflowRunId)
  | recording (run : WorkflowRunId) (ticket : Ticket)
  | pipeline (run : WorkflowRunId) (ticket : Ticket) (point : PipelinePoint)
  | waiting (run : WorkflowRunId)
  | awaiting (ticket : Ticket)
  | shutdown

/-- What a turn is told from outside. -/
structure RecoveryAnswer where
  /-- The executor takes the pipeline. -/
  accepted : Bool := true
  /-- The state of the run, if there is one. -/
  snapshot : Option WorkflowRunState := some .waitingAgent
  /-- The runs that are found to be over. -/
  terminal : List WorkflowRunId := []
  /-- The attempt comes to ask the model. -/
  asks : Bool := true
  outcome : WorkflowRecoveryOutcome := .aborted
  reasonCode : Bytes := []
  expired : Bool := false

def pipelineTurn (config : WorkflowRecoveryConfig) (shared : Orchestrator) (run : WorkflowRunId)
    (ticket : Ticket) (answer : RecoveryAnswer) :
    PipelinePoint → Orchestrator × List RecoveryPoint
  | .snapshot =>
      match answer.snapshot with
      | none =>
          (shared.finish ticket (.error (recoveryError .notFound "workflow run was not found")), [])
      | some state => (shared, [.pipeline run ticket (.admitting state false)])
  | .admitting state again =>
      match shared.admission config run state with
      | .admitted ordinal => (shared.enlist run, [.pipeline run ticket (.preparing ordinal)])
      | .settled attempt => (shared, [.pipeline run ticket (.rejected attempt)])
      | .error error =>
          if again then (shared.finish ticket (.error error), [])
          else (shared, [.pipeline run ticket (.evicting state)])
  | .rejected attempt => ((shared.recordEarlyResult attempt).finish ticket (.ok attempt), [])
  | .evicting state => (shared, [.pipeline run ticket (.probing state shared.idleRuns)])
  | .probing state candidates =>
      (shared,
        [.pipeline run ticket
          (match candidates.filter (· ∈ answer.terminal) with
            | [] => .admitting state true
            | terminal => .erasing state terminal)])
  | .erasing state terminal =>
      (terminal.foldl Orchestrator.evict shared, [.pipeline run ticket (.admitting state true)])
  | .preparing ordinal =>
      if answer.asks then (shared.useSlot run, [.pipeline run ticket (.requesting ordinal)])
      else
        (shared, [.pipeline run ticket (.settling ⟨run, ordinal, answer.outcome, answer.reasonCode⟩)])
  | .requesting ordinal =>
      (shared, [.pipeline run ticket (.settling ⟨run, ordinal, answer.outcome, answer.reasonCode⟩)])
  | .settling attempt => ((shared.settleTracking attempt).finish ticket (.ok attempt), [])

def advance (config : WorkflowRecoveryConfig) (shared : Orchestrator) (point : RecoveryPoint)
    (answer : RecoveryAnswer) : Orchestrator × List RecoveryPoint :=
  match point with
  | .starting run =>
      match shared.checkStart config run with
      | .error _ => (shared, [])
      | .ok () => (shared, [.submitting run])
  | .submitting run =>
      if answer.accepted then
        ({ shared with submitted := shared.submitted + 1 },
          [.recording run shared.submitted, .pipeline run shared.submitted .snapshot])
      else (shared, [])
  | .recording run ticket => (shared.record run ticket, [])
  | .pipeline run ticket point => pipelineTurn config shared run ticket answer point
  | .waiting run =>
      (shared,
        match shared.waitRecovery run with
        | .answered _ => []
        | .awaits ticket => [.awaiting ticket])
  | .awaiting ticket =>
      (shared,
        if (shared.results.find? ticket).isSome ∨ answer.expired then [] else [.awaiting ticket])
  | .shutdown => ({ shared with accepting := false }, [])

inductive RecoveryCall
  | startRecovery (run : WorkflowRunId)
  | waitRecovery (run : WorkflowRunId)
  | shutdown

def enterCall : RecoveryCall → RecoveryPoint
  | .startRecovery run => .starting run
  | .waitRecovery run => .waiting run
  | .shutdown => .shutdown

abbrev RecoveryPool := Interleaving.Pool Orchestrator RecoveryPoint
abbrev RecoveryTurn := Interleaving.Turn RecoveryCall RecoveryAnswer

def machine (config : WorkflowRecoveryConfig) : RecoveryPool → RecoveryTurn → RecoveryPool × Unit :=
  Interleaving.takeTurn enterCall (advance config)

end Mira.Recovery
