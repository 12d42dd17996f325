import Mira.Library.Interleaving
import Mira.Workflow.PatchedRun

/-!
A run as the calls of the runtime see it between their critical sections: the record that they
share, what a call waits for from outside, and the points its program can stand at. The record
of one run is here with the number of asynchronous drives of all of them. The journal is the
history that the statements about runs are made in; it has the events of the source and some
that it does not emit, the latest first.
-/

namespace Mira.Workflow
open Mira Bytes

/-- A patch on its way. The queue of the source does not keep whether a decision confirmed it;
that is history here. -/
structure PendingPatch where
  patchId : WorkflowPatchId
  digest : Sha256Digest
  entries : List WorkflowPatchEntry := []
  confirmed : Bool := false

/-- What `resolve_interrupted_step` makes of a side effect that was cut short. -/
inductive RecoveryVerdict
  | completed | fellBack | uncertain
  deriving DecidableEq

inductive RunEvent
  | moved (index : Nat)
  | entered (index : Nat)
  | handedOff (index : Nat)
  | executed (index : Nat)
  | dispatched (index : Nat) (sideEffects : Bool)
  | navigated (index : Nat)
  | cut (index : Nat)
  | cleared (index : Nat)
  | recovered (index : Nat) (verdict : RecoveryVerdict)
  | retried (index : Nat)
  | observed
  | resumed
  | committed (patchId : WorkflowPatchId) (confirmed admitted : Bool)
  | decisionRaised (decision : WorkflowDecisionId)
  | decisionResolved (decision : WorkflowDecisionId)
  deriving DecidableEq

/-- A counter of each step. -/
abbrev StepCounts := Nat → Nat

def StepCounts.bump (counts : StepCounts) (index : Nat) : StepCounts :=
  fun other => if other = index then counts other + 1 else counts other

structure RunRecord where
  view : WorkflowRunView := {}
  effective : EffectiveState
  cursor : Nat := 0
  interrupted : Bool := false
  driveActive : Bool := false
  decision : Option WorkflowDecisionRequest := none
  attempts : StepCounts := fun _ => 0
  retries : StepCounts := fun _ => 0
  jumps : StepCounts := fun _ => 0
  checkpointArrivals : StepCounts := fun _ => 0
  checkpointHandoffs : StepCounts := fun _ => 0
  executions : Nat := 0
  escalations : Nat := 0
  applied : List AppliedPatch := []
  pending : List PendingPatch := []

structure Shared where
  run : RunRecord
  asyncDrives : Nat := 0
  accepting : Bool := true
  journal : List RunEvent := []

/-- The pinned definition of the run, and what the runtime was set up with. -/
structure Setup where
  host : Host
  config : WorkflowRuntimeConfig := {}
  definition : WorkflowDefinition

inductive ToolOutcome
  | completed (result : JsonValue)
  | failedRecord (summary : Bytes)
  | error (error : WorkflowError)

/-- A fresh observation, one that failed, or one that the executor refused to start. -/
inductive ObservationOutcome
  | fresh | failed | refused
  deriving DecidableEq

/-- The plan of a navigation as the number of its edges. -/
inductive RouteOutcome
  | planned (edges : Nat)
  | unplanned (error : WorkflowError)

structure Answer where
  /-- The executor takes what is submitted to it. -/
  accepted : Bool := true
  /-- The monitor of the drive has seen the task withdrawn. -/
  withdrawn : Bool := false
  /-- The context of the call is cancelled, as it is read once and again. -/
  cancelled : Bool := false
  stillCancelled : Bool := false
  /-- The task is in the pause family. -/
  pauseFamily : Bool := true
  /-- The command to the task was carried out. -/
  obeyed : Bool := true
  /-- The wait is over without what it waits for. -/
  expired : Bool := false
  /-- The edge still stands in the model and its tool in the registry. -/
  edge : WorkflowResult Unit := .ok ()
  arrived : Bool := true
  route : RouteOutcome := .planned 0
  verdict : WorkflowPredicateResult := .satisfied
  outcome : ToolOutcome := .completed .null
  observation : ObservationOutcome := .fresh
  drawn : Id128 := .nil

/-- What a drive keeps on its own: whether it runs in the call that asked for it, the marks of
checkpoint arrivals and the flag of its withdrawal monitor. -/
structure Drive where
  synchronous : Bool
  fresh : Bool := false
  first : Bool := true
  previous : Option Nat := none
  withdrawn : Bool := false

inductive DrivePoint
  | begin | start | top | drain | boundary | pausing
  | precondition (index : Nat)
  | arrive (index : Nat)
  | plan (index : Nat)
  | verify (index : Nat)
  | dispatch (index : Nat)
  | inFlight (index : Nat) (tool : ExposedTool)
  | observe (index : Nat)
  | judge (index : Nat)
  | navigate (index : Nat)
  | edges (index remaining : Nat) (last : JsonValue)
  | edge (index remaining : Nat)
  | failing (index : Nat) (failure : WorkflowError)
  | reobserve (index : Nat)
  | escalate
  | handoff (checkpoint : Option Nat)
  | ending

/-- Who settles a run or raises a decision: the host, the call that made the run active, or a
drive at its end. -/
inductive Back
  | caller
  | continuation
  | drive (drive : Drive)

/-- Who submits a patch: the host, the answer to a decision, or a drive with the patches that
come after it. -/
inductive Submitter
  | caller
  | decided (decision : WorkflowDecisionId)
  | draining (drive : Drive) (rest : List PendingPatch)

/-- How a run is settled. -/
inductive Settlement
  | completed | failed | cancelled

def Settlement.state : Settlement → WorkflowRunState
  | .completed => .completed
  | .failed => .failed
  | .cancelled => .cancelled

inductive ControlPoint
  | startRun | executeRun
  | submitDrive (resumed : Bool)
  | restorePause | release
  | pauseRun | pausePoll | pauseCommit
  | cancelRun | cancelPoll
  | resumeRun | converge | capacity | reobserve | activate
  | resolveInterrupted
  | judgeInterrupted (index : Nat)
  | launch
  | resolveDecision (decision : WorkflowDecisionId) (digest : Sha256Digest)
      (resolution : WorkflowDecisionResolution)
  | reject (decision : WorkflowDecisionId)
  | rejectRun
  | accept (decision : WorkflowDecisionId)
  | rollbackRunPatch (patchId fresh : WorkflowPatchId)
  | userInput (decision : WorkflowDecisionRequest)
  | otherRun | otherDrive
  | shutdown | shutdownCheck

inductive Point
  | drive (drive : Drive) (point : DrivePoint)
  | control (point : ControlPoint)
  | settle (target : Settlement) (back : Back)
  | stage (decision : WorkflowDecisionRequest) (back : Back)
  | waitUser (decision : WorkflowDecisionRequest) (back : Back)
  | unstage (back : Back)
  | submit (patch : PendingPatch) (submitter : Submitter)
  | enqueue (patch : PendingPatch) (submitter : Submitter)
  | snapshot (patch : PendingPatch) (submitter : Submitter)
  | commit (patch : PendingPatch) (patched : EffectiveState) (submitter : Submitter)

/-- The calls of the host. The ids that are drawn for them come with them. -/
inductive Call
  | startRun | executeRun | pauseRun | cancelRun | resumeRun
  | resolveDecision (decision : WorkflowDecisionId) (digest : Sha256Digest)
      (resolution : WorkflowDecisionResolution)
  | patchRun (patchId : WorkflowPatchId) (entries : List WorkflowPatchEntry)
  | rollbackRunPatch (patchId fresh : WorkflowPatchId)
  | requestUserInput (decision : WorkflowDecisionId) (prompt : Bytes)
      (proposal : List WorkflowPatchEntry)
  | otherRun | shutdown

def promptDecision (decision : WorkflowDecisionId) (prompt : Bytes)
    (proposal : List WorkflowPatchEntry) : WorkflowDecisionRequest :=
  { decisionId := decision
    payloadDigest := decisionPayloadDigest prompt proposal
    kind := .agentPrompt
    proposal := proposal
    safeSummary := boundedSummary prompt }

def pendingPatch (patchId : WorkflowPatchId) (entries : List WorkflowPatchEntry)
    (confirmed : Bool) : PendingPatch :=
  ⟨patchId, workflowPatchDigest patchId entries, entries, confirmed⟩

def enterCall : Call → Point
  | .startRun => .control .startRun
  | .executeRun => .control .executeRun
  | .pauseRun => .control .pauseRun
  | .cancelRun => .control .cancelRun
  | .resumeRun => .control .resumeRun
  | .resolveDecision decision digest resolution =>
      .control (.resolveDecision decision digest resolution)
  | .patchRun patchId entries => .submit (pendingPatch patchId entries false) .caller
  | .rollbackRunPatch patchId fresh => .control (.rollbackRunPatch patchId fresh)
  | .requestUserInput decision prompt proposal =>
      .control (.userInput (promptDecision decision prompt proposal))
  | .otherRun => .control .otherRun
  | .shutdown => .control .shutdown

/-!
The drive of a run: the loop that takes the run from step to step. A turn is a critical section
with what the drive does on its own up to the next one. Sections that only add to the settled
records or the summaries of the run are part of the turn they stand in.
-/

def Shared.note (shared : Shared) (event : RunEvent) : Shared :=
  { shared with journal := event :: shared.journal }

/-- `commit_transition`. -/
def Shared.transition (shared : Shared) (target : WorkflowRunState) : WorkflowResult Shared :=
  match applyWorkflowRunTransition shared.run.view target with
  | .error error => .error error
  | .ok view =>
      .ok
        { shared with
          run :=
            { shared.run with
              view := view
              decision :=
                if shared.run.view.state = .waitingUser then none else shared.run.decision } }

/-- The transition, or nothing where the table has none. -/
def Shared.tryTransition (shared : Shared) (target : WorkflowRunState) : Shared :=
  match shared.transition target with
  | .error _ => shared
  | .ok moved => moved

/-- The cursor set to a step. -/
def Shared.moveTo (shared : Shared) (index : Nat) : Shared :=
  { shared with
    run := { shared.run with cursor := index }
    journal := .moved index :: shared.journal }

def Shared.cutShort (shared : Shared) (index : Nat) : Shared :=
  { shared with
    run := { shared.run with interrupted := true }
    journal := .cut index :: shared.journal }

def Shared.setResult (shared : Shared) (step : WorkflowStep) (value : JsonValue) : Shared :=
  { shared with
    run :=
      { shared.run with
        effective :=
          { shared.run.effective with
            context := setMember shared.run.effective.context (resultKey step.id) value } } }

namespace Setup

def step (setup : Setup) (index : Nat) : Option WorkflowStep := setup.definition.steps[index]?

def argumentsAt (shared : Shared) (index : Nat) : JsonValue :=
  shared.run.effective.resolved.getD index .null

end Setup

def precondNotEvaluable : WorkflowError :=
  makeRuntimeError .verifyNotEvaluable (ascii "precondition is not evaluable")

def loopBudget : WorkflowError :=
  makeRuntimeError .loopBudgetExceeded (ascii "loop iteration budget exceeded")

def stepBudget : WorkflowError :=
  makeRuntimeError .stepBudgetExceeded (ascii "run step budget exhausted")

def verdictFailure : WorkflowPredicateResult → WorkflowError
  | .notSatisfied => makeRuntimeError .verifyFailed (ascii "verification predicate failed")
  | _ => makeRuntimeError .verifyNotEvaluable (ascii "verification predicate is not evaluable")

def toolDispatchFailed (summary : Bytes) : WorkflowError :=
  makeRuntimeError .toolDispatchFailed
    (if summary.isEmpty then ascii "tool execution failed" else summary)

/-- The decision that a failed step of an interactive run raises. -/
def failureDecision (step : WorkflowStep) (failure : WorkflowError) (drawn : Id128) :
    WorkflowDecisionRequest :=
  let skip : WorkflowPatchEntry :=
    { target := .stepArguments, op := .skip, path := step.id.toString }
  let summary := boundedSummary failure.safeMessage
  { decisionId := .generate drawn
    payloadDigest := decisionPayloadDigest summary [skip]
    kind := .stepFailure
    stepId := some step.id
    proposal := [skip]
    safeSummary := summary }

def Drive.at (drive : Drive) (point : DrivePoint) : List Point := [.drive drive point]

/-- The first of the patches to apply, or the boundary when there is none. -/
def drainNext (drive : Drive) : List PendingPatch → List Point
  | [] => drive.at .boundary
  | patch :: rest => [.snapshot patch (.draining drive rest)]

def settleDrive (drive : Drive) (target : Settlement) : List Point :=
  [.settle target (.drive drive)]

def completeStep (shared : Shared) (drive : Drive) : Shared × List Point :=
  (shared.moveTo (shared.run.cursor + 1), drive.at .top)

def driveBegin (shared : Shared) (drive : Drive) : Shared × List Point :=
  (shared, if shared.run.view.state = .created then drive.at .start else drive.at .top)

def driveStart (shared : Shared) (drive : Drive) : Shared × List Point :=
  match shared.transition .running with
  | .error _ => (shared, settleDrive drive .failed)
  | .ok moved => (moved, { drive with fresh := true }.at .top)

def driveTop (shared : Shared) (drive : Drive) : Shared × List Point :=
  (shared, if shared.run.view.state = .running then drive.at .drain else drive.at .ending)

def driveDrain (shared : Shared) (drive : Drive) : Shared × List Point :=
  ({ shared with run := { shared.run with pending := [] } }, drainNext drive shared.run.pending)

def driveBoundary (setup : Setup) (shared : Shared) (drive : Drive) (answer : Answer) :
    Shared × List Point :=
  let withdrawn := drive.withdrawn || answer.withdrawn
  if withdrawn || answer.cancelled then
    (shared,
      if answer.stillCancelled = false ∧ answer.pauseFamily then drive.at .pausing
      else settleDrive drive .cancelled)
  else if setup.config.maxStepExecutionsPerRun ≤ shared.run.executions then
    (shared, settleDrive drive .failed)
  else
    match setup.step shared.run.cursor with
    | none => (shared, settleDrive drive .completed)
    | some step =>
        if shared.run.effective.skipped.contains step.id.toString then
          completeStep shared drive
        else if step.precondition.isSome then
          (shared, drive.at (.precondition shared.run.cursor))
        else (shared, drive.at (.arrive shared.run.cursor))

def drivePrecondition (shared : Shared) (drive : Drive) (index : Nat) (answer : Answer) :
    Shared × List Point :=
  match answer.verdict with
  | .notEvaluable => (shared, drive.at (.failing index precondNotEvaluable))
  | .notSatisfied => completeStep shared drive
  | .satisfied => (shared, drive.at (.arrive index))

/-- Whether the drive takes the step for one that the cursor newly arrived at. -/
def Drive.enters (drive : Drive) (index : Nat) : Bool :=
  (drive.first && drive.fresh) || (!drive.first && drive.previous ≠ some index)

def Drive.arrived (drive : Drive) (index : Nat) : Drive :=
  { drive with first := false, previous := some index }

def Shared.countArrival (shared : Shared) (entered : Bool) (index : Nat) : Shared :=
  if entered then
    { shared with
      run :=
        { shared.run with checkpointArrivals := shared.run.checkpointArrivals.bump index }
      journal := .entered index :: shared.journal }
  else shared

def handsOff (shared : Shared) (entered : Bool) (step : WorkflowStep) (index : Nat) : Bool :=
  entered && shared.run.effective.policy = .agentAssisted &&
    step.recoveryMode = some .agentEscalation &&
    shared.run.checkpointHandoffs index < shared.run.checkpointArrivals index

def Shared.countHandoff (shared : Shared) (index : Nat) : Shared :=
  { shared with
    run := { shared.run with checkpointHandoffs := shared.run.checkpointHandoffs.bump index } }

def Shared.countExecution (shared : Shared) (index : Nat) : Shared :=
  { shared with
    run :=
      { shared.run with
        attempts := shared.run.attempts.bump index
        executions := shared.run.executions + 1 }
    journal := .executed index :: shared.journal }

def controlJump (setup : Setup) (shared : Shared) (drive : Drive) (step : WorkflowStep)
    (index : Nat) : Shared × List Point :=
  if step.maxIterations < shared.run.jumps index + 1 then
    (shared, drive.at (.failing index loopBudget))
  else
    let target := (step.jumpTo.map (stepIndex setup.definition)).getD
      setup.definition.steps.length
    ({ shared with run := { shared.run with jumps := shared.run.jumps.bump index } }.moveTo target,
      drive.at .top)

def executeStep (setup : Setup) (shared : Shared) (drive : Drive) (step : WorkflowStep)
    (index : Nat) : Shared × List Point :=
  match step.kind with
  | .control => controlJump setup shared drive step index
  | .navigate => (shared, drive.at (.navigate index))
  | .toolCall =>
      (shared, if shared.run.effective.policy.dispatchesSideEffects then
        drive.at (.dispatch index) else drive.at (.plan index))
  | .verify =>
      (shared, if shared.run.effective.policy.dispatchesSideEffects then
        drive.at (.verify index) else drive.at (.plan index))

def driveArrive (setup : Setup) (shared : Shared) (drive : Drive) (index : Nat) :
    Shared × List Point :=
  match setup.step index with
  | none => (shared, drive.at .top)
  | some step =>
      let entered := drive.enters index
      let counted := shared.countArrival entered index
      let drive := drive.arrived index
      if handsOff counted entered step index then
        (counted.countHandoff index, drive.at (.handoff (some index)))
      else executeStep setup (counted.countExecution index) drive step index

/-- Planning a step that is not dispatched. -/
def drivePlan (setup : Setup) (shared : Shared) (drive : Drive) (index : Nat) (answer : Answer) :
    Shared × List Point :=
  if ((setup.step index).bind WorkflowStep.verification).isSome ∧
      answer.verdict = .notSatisfied then
    (shared, drive.at (.failing index
      (makeRuntimeError .verifyFailed (ascii "dry-run verification failed"))))
  else completeStep shared drive

/-- The verdict of the verification predicate. -/
def driveJudge (shared : Shared) (drive : Drive) (index : Nat) (answer : Answer) :
    Shared × List Point :=
  if answer.verdict = .satisfied then completeStep shared drive
  else (shared, drive.at (.failing index (verdictFailure answer.verdict)))

def driveDispatch (setup : Setup) (shared : Shared) (drive : Drive) (index : Nat)
    (answer : Answer) : Shared × List Point :=
  let name := (((Setup.argumentsAt shared index).find (ascii "tool")).bind
    JsonValue.asString).getD []
  match setup.host.tool name with
  | none => (shared, drive.at (.failing index toolNotRegistered))
  | some tool =>
      if answer.accepted then
        (shared.note (.dispatched index tool.hasSideEffects), drive.at (.inFlight index tool))
      else
        (shared, drive.at (.failing index (workflowError .resourceExhausted "refused" true)))

/-- The flag of the monitor, which is only ever raised. -/
def Drive.watch (drive : Drive) (answer : Answer) : Drive :=
  { drive with withdrawn := drive.withdrawn || answer.withdrawn }

def isCancelled : ToolOutcome → Bool
  | .error error => error.code = .cancelled
  | _ => false

def outcomeFailure : ToolOutcome → WorkflowError
  | .error error => error
  | .failedRecord summary => toolDispatchFailed summary
  | .completed _ => toolDispatchFailed []

/-- A tool that comes back. One that was cancelled leaves the step cut short. -/
def driveInFlight (setup : Setup) (shared : Shared) (drive : Drive) (index : Nat)
    (tool : ExposedTool) (answer : Answer) : Shared × List Point :=
  let drive := drive.watch answer
  match answer.outcome with
  | .completed result =>
      match setup.step index with
      | none => (shared, drive.at .top)
      | some step =>
          let shared := shared.setResult step result
          if step.verification.isNone then completeStep shared drive
          else if tool.hasSideEffects then (shared, drive.at (.observe index))
          else (shared, drive.at (.judge index))
  | outcome =>
      if isCancelled outcome then (shared.cutShort index, drive.at .top)
      else (shared, drive.at (.failing index (outcomeFailure outcome)))

/-- The observation after a side effect. The executor may refuse it with an exception that ends
the drive where it stands. -/
def driveObserve (shared : Shared) (drive : Drive) (index : Nat) (answer : Answer) :
    Shared × List Point :=
  match answer.observation with
  | .fresh => (shared.note .observed, drive.at (.judge index))
  | .failed =>
      (shared, drive.at (.failing index
        (makeRuntimeError .verifyFailed (ascii "verification observation failed"))))
  | .refused => (shared, [])

def driveNavigate (setup : Setup) (shared : Shared) (drive : Drive) (index : Nat)
    (answer : Answer) : Shared × List Point :=
  let dispatches := shared.run.effective.policy.dispatchesSideEffects
  let verified := ((setup.step index).bind WorkflowStep.verification).isSome
  if (targetName (Setup.argumentsAt shared index)).isNone then
    (shared, drive.at (.failing index (makeRuntimeError .navigateTargetInvalid
      (ascii "navigate arguments must name a string \"target\" member"))))
  else if setup.host.navigation = false then
    if dispatches then
      (shared, drive.at (.failing index (makeRuntimeError .navigateUnresolvable
        (ascii "navigation context is no longer installed"))))
    else completeStep shared drive
  else
    match answer.route with
    | .unplanned error => (shared, drive.at (.failing index error))
    | .planned edges =>
        if dispatches = false then
          if verified ∧ answer.verdict = .notSatisfied then
            (shared, drive.at (.failing index
              (makeRuntimeError .verifyFailed (ascii "dry-run verification failed"))))
          else completeStep shared drive
        else if setup.host.tools.isNone then
          (shared, drive.at (.failing index (workflowError .invalidState
            "a tool registry is required to dispatch navigation edges")))
        else (shared.note (.navigated index), drive.at (.edges index edges .null))

def driveEdges (setup : Setup) (shared : Shared) (drive : Drive) (index remaining : Nat)
    (last : JsonValue) (answer : Answer) : Shared × List Point :=
  match setup.step index, remaining with
  | none, _ => (shared, drive.at .top)
  | some step, 0 =>
      let shared := if last.isNull then shared else shared.setResult step last
      if step.verification.isNone then completeStep shared drive
      else (shared, drive.at (.judge index))
  | some _, remaining + 1 =>
      let drive := drive.watch answer
      if drive.withdrawn || answer.cancelled then (shared.cutShort index, drive.at .top)
      else if setup.config.maxStepExecutionsPerRun ≤ shared.run.executions then
        (shared, drive.at (.failing index stepBudget))
      else
        match answer.edge with
        | .error error => (shared, drive.at (.failing index error))
        | .ok () =>
            let counted :=
              { shared with run := { shared.run with executions := shared.run.executions + 1 } }
            if answer.accepted then (counted, drive.at (.edge index remaining))
            else
              (counted, drive.at (.failing index
                (workflowError .resourceExhausted "refused" true)))

def driveEdge (shared : Shared) (drive : Drive) (index remaining : Nat) (answer : Answer) :
    Shared × List Point :=
  let drive := drive.watch answer
  match answer.outcome with
  | .completed result =>
      if answer.arrived then (shared, drive.at (.edges index remaining result))
      else
        (shared, drive.at (.failing index (makeRuntimeError .navigateArrivalUnverified
          (ascii "edge did not arrive"))))
  | outcome =>
      if isCancelled outcome then (shared.cutShort index, drive.at .top)
      else (shared, drive.at (.failing index (outcomeFailure outcome)))

def retries (shared : Shared) (step : WorkflowStep) (index : Nat) : Bool :=
  step.recoveryMode = some .retry && shared.run.attempts index < step.maxAttempts &&
    shared.run.retries index < (step.recovery.map WorkflowRecoveryHook.maxRetries).getD 0

def fallbackIndex (setup : Setup) (step : WorkflowStep) : Nat :=
  ((step.recovery.bind WorkflowRecoveryHook.fallbackStep).map
    (stepIndex setup.definition)).getD setup.definition.steps.length

/-- `handle_step_failure`. -/
def driveFailing (setup : Setup) (shared : Shared) (drive : Drive) (index : Nat)
    (failure : WorkflowError) (answer : Answer) : Shared × List Point :=
  match setup.step index with
  | none => (shared, drive.at .top)
  | some step =>
      let policy := shared.run.effective.policy
      if retries shared step index then
        ({ shared with
            run := { shared.run with retries := shared.run.retries.bump index }
            journal := .retried index :: shared.journal },
          if step.kind = .toolCall ∧
              stepToolHasSideEffects setup.host (Setup.argumentsAt shared index) then
            drive.at (.reobserve index)
          else drive.at .top)
      else if step.recoveryMode = some .fallbackStep then
        (shared.moveTo (fallbackIndex setup step), drive.at .top)
      else if step.recoveryMode = some .agentEscalation ∧ policy.allowsAgent then
        (shared, drive.at .escalate)
      else if policy = .interactive then
        (shared, [.stage (failureDecision step failure answer.drawn) (.drive drive)])
      else if policy.allowsAgent then (shared, drive.at .escalate)
      else (shared, settleDrive drive .failed)

def driveReobserve (shared : Shared) (drive : Drive) (answer : Answer) : Shared × List Point :=
  match answer.observation with
  | .fresh => (shared.note .observed, drive.at .top)
  | .failed => (shared, settleDrive drive .failed)
  | .refused => (shared, [])

def driveEscalate (setup : Setup) (shared : Shared) (drive : Drive) : Shared × List Point :=
  if setup.config.maxEscalationsPerRun ≤ shared.run.escalations then
    (shared, settleDrive drive .failed)
  else
    ({ shared with run := { shared.run with escalations := shared.run.escalations + 1 } },
      drive.at (.handoff none))

/-- `enter_waiting_agent`, at a checkpoint or after a failure. -/
def driveHandoff (shared : Shared) (drive : Drive) (checkpoint : Option Nat) :
    Shared × List Point :=
  match shared.transition .waitingAgent with
  | .error _ => (shared, settleDrive drive .failed)
  | .ok moved =>
      ((checkpoint.map fun index => moved.note (.handedOff index)).getD moved,
        drive.at .ending)

/-- The section after the loop. -/
def driveEnding (shared : Shared) (drive : Drive) : Shared × List Point :=
  ({ shared with
      run := { shared.run with driveActive := false }
      asyncDrives :=
        if drive.synchronous then shared.asyncDrives else shared.asyncDrives - 1 }, [])

def driveTurn (setup : Setup) (shared : Shared) (drive : Drive) (answer : Answer) :
    DrivePoint → Shared × List Point
  | .begin => driveBegin shared drive
  | .start => driveStart shared drive
  | .top => driveTop shared drive
  | .drain => driveDrain shared drive
  | .boundary => driveBoundary setup shared drive answer
  | .pausing => (shared.tryTransition .paused, drive.at .ending)
  | .precondition index => drivePrecondition shared drive index answer
  | .arrive index => driveArrive setup shared drive index
  | .plan index => drivePlan setup shared drive index answer
  | .verify index => driveJudge shared drive index answer
  | .dispatch index => driveDispatch setup shared drive index answer
  | .inFlight index tool => driveInFlight setup shared drive index tool answer
  | .observe index => driveObserve shared drive index answer
  | .judge index => driveJudge shared drive index answer
  | .navigate index => driveNavigate setup shared drive index answer
  | .edges index remaining last => driveEdges setup shared drive index remaining last answer
  | .edge index remaining => driveEdge shared drive index remaining answer
  | .failing index failure => driveFailing setup shared drive index failure answer
  | .reobserve _ => driveReobserve shared drive answer
  | .escalate => driveEscalate setup shared drive
  | .handoff checkpoint => driveHandoff shared drive checkpoint
  | .ending => driveEnding shared drive

end Mira.Workflow
