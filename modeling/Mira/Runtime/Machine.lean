import Mira.Core.Contracts
import Mira.Library.KeyedTable
import Mira.Library.Search
import Mira.Library.Execution

/-!
The records the serial control plane owns, and the receipts and outcomes it
settles commands with. A session's environment is represented by the answer its
`interrupt` gives when a command calls it; the principal, which no command
reads, is left out.
-/

namespace Mira.Runtime
open Mira

structure TaskOutcome where
  terminalState : TaskState := .failed
  error : Option Error := none
  deriving DecidableEq

structure TaskSnapshot where
  id : TaskId
  sessionId : SessionId
  state : TaskState := .idle
  epoch : Nat := 0
  environmentEpoch : Nat := 0
  activeStep : Option StepId := none
  activeOperation : Option OperationId := none
  completedSteps : Nat := 0
  updatedAt : Timestamp := {}
  controlSequence : Nat := 0
  terminalOutcome : Option TaskOutcome := none
  userConstraints : List Bytes := []

structure SessionRecord where
  id : SessionId
  state : SessionState := .opening
  environmentEpoch : Nat := 0

structure TaskRecord where
  snapshot : TaskSnapshot
  goal : Bytes
  sessionId : SessionId

structure OperationKey where
  taskId : TaskId
  taskEpoch : Nat := 0
  stepId : StepId
  operationId : OperationId
  deriving DecidableEq

inductive OperationState
  | created | submitted | running | cancelRequested | completionReceived | settled
  deriving DecidableEq

structure OperationRecord where
  key : OperationKey
  state : OperationState := .created

structure Records where
  sessions : KeyedTable SessionId SessionRecord := .empty
  tasks : KeyedTable TaskId TaskRecord := .empty
  operations : KeyedTable OperationId OperationRecord := .empty

inductive CommandKind
  | openSession | closeSession | submitTask | pauseTask | resumeTask | cancelTask
  | completeTask | requestTakeover | releaseTakeover | operationCompletion
  | shutdownRuntime | beginTaskRecovery

inductive ReceiptStatus
  | accepted | rejected
  deriving DecidableEq

inductive SettlementStatus
  | applied | noOp | failed | superseded
  deriving DecidableEq

structure CommandReceipt where
  kind : CommandKind
  status : ReceiptStatus
  controlSequence : Nat
  error : Option Error := none

structure CommandOutcome where
  status : SettlementStatus
  error : Option Error := none
  task : Option TaskSnapshot := none

structure Settlement where
  receipt : CommandReceipt
  outcome : CommandOutcome

/-- What `IEnvironment::interrupt` did: it returned, or an exception left it. A
foreign exception carries no text. -/
inductive InterruptResult
  | released
  | refused (error : Error)
  | threw (what : Option String)

/-- What a callback of the serial control context receives from outside. -/
structure ControlContext where
  sequence : Nat
  now : Timestamp := {}
  interrupt : SessionId → InterruptResult := fun _ => .released

def makeError (code : ErrorCode) (message : String) (retryable : Bool := false) : Error :=
  { code := code, domain := "mira.runtime", safeMessage := message, retryable := retryable }

/-- Reachability over the frozen task transition table. -/
def taskStatePathExists (source target : TaskState) : Bool :=
  if source = target then true
  else
    (Search.explore validTaskTransition taskStates target (taskStates.length + 2) [source]
      [source]).getD false

abbrev TaskPath : TaskState → TaskState → Prop := Search.Path validTaskTransition

theorem taskStatePathExists_sound (source target : TaskState)
    (found : taskStatePathExists source target = true) : TaskPath source target := by
  unfold taskStatePathExists at found
  split at found
  · next same => exact same ▸ Relation.ReflTransGen.refl
  · apply Search.explore_sound validTaskTransition source target taskStates
      (taskStates.length + 2) [source] [source]
    · intro x hx
      rw [List.mem_singleton.mp hx]
    · cases h : Search.explore validTaskTransition taskStates target (taskStates.length + 2)
          [source] [source] with
      | none => simp [h] at found
      | some value => simpa [h] using found

/-!
The callbacks of the control-plane commands, one definition per command body.
Each takes the records it finds and returns the records it leaves together with
the receipt and the outcome it settles the handle with. A callback that an
exception escapes keeps the writes it had already made; the surrounding
dispatcher then settles it as failed.
-/

def rejected (kind : CommandKind) (context : ControlContext) (reason : Error)
    (task : Option TaskSnapshot := none) : Settlement :=
  ⟨⟨kind, .rejected, context.sequence, some reason⟩, ⟨.failed, some reason, task⟩⟩

def accepted (kind : CommandKind) (context : ControlContext) (status : SettlementStatus)
    (task : Option TaskSnapshot := none) (reason : Option Error := none) : Settlement :=
  ⟨⟨kind, .accepted, context.sequence, none⟩, ⟨status, reason, task⟩⟩

def escaped (kind : CommandKind) (context : ControlContext) (what : Option String) : Settlement :=
  let failure := makeError .internal (what.getD "command callback failed")
  ⟨⟨kind, .accepted, context.sequence, some failure⟩, ⟨.failed, some failure, none⟩⟩

def openSession (id : SessionId) (context : ControlContext) (records : Records) :
    Records × Settlement :=
  if records.sessions.contains id then
    (records, rejected .openSession context (makeError .alreadyExists "session ID collision"))
  else
    ({ records with sessions := records.sessions.emplace id { id := id, state := .autonomous } },
      accepted .openSession context .applied)

def submitTask (session : SessionId) (id : TaskId) (goal : Bytes) (constraints : List Bytes)
    (context : ControlContext) (records : Records) : Records × Settlement :=
  if (records.sessions.find? session).map SessionRecord.state ≠ some .autonomous then
    (records, rejected .submitTask context (makeError .invalidState "session is not autonomous"))
  else
    let snapshot : TaskSnapshot :=
      { id := id, sessionId := session, updatedAt := context.now,
        controlSequence := context.sequence, userConstraints := constraints }
    ({ records with tasks := records.tasks.emplace id ⟨snapshot, goal, session⟩ },
      accepted .submitTask context .applied (some snapshot))

/-- Both legs of a two-step transition are legal. -/
def transitionVia (state intermediate target : TaskState) : Bool :=
  validTaskTransition state intermediate && validTaskTransition intermediate target

/-- The state `simple_task_command` moves out of: an attempted pause, then an
attempted cancellation, leave their intermediate state behind when they succeed.
`none` is the refusal. -/
def simplePreviousState (state target : TaskState) : Option TaskState :=
  let direct := validTaskTransition state target
  let pause := target = .paused && state ≠ .pausing && transitionVia state .pausing target
  let afterPause := if pause then .pausing else state
  let cancel := target = .cancelled && afterPause ≠ .cancelling &&
    transitionVia afterPause .cancelling target
  let previous := if cancel then .cancelling else afterPause
  if direct || pause || cancel then some previous else none

/-- The writes of an admitted simple command. Resuming out of a suspended,
paused or recovering state advances the epoch, and so does entering one. -/
def simpleTaskMove (previous target : TaskState) (context : ControlContext)
    (snapshot : TaskSnapshot) : TaskSnapshot :=
  let resumed := target = .observing &&
    (previous = .paused || previous = .suspendedForTakeover || previous = .recovering)
  let withdrawn := target = .paused || target = .suspendedForTakeover ||
    target = .cancelled || target = .recovering
  { snapshot with
    state := target
    epoch := snapshot.epoch + (if resumed then 1 else 0) + (if withdrawn then 1 else 0)
    terminalOutcome :=
      if target = .cancelled then some ⟨.cancelled, none⟩ else snapshot.terminalOutcome
    controlSequence := context.sequence
    updatedAt := context.now }

def TaskRecord.mapSnapshot (f : TaskSnapshot → TaskSnapshot) (record : TaskRecord) : TaskRecord :=
  { record with snapshot := f record.snapshot }

def simpleTaskCommand (kind : CommandKind) (id : TaskId) (target : TaskState)
    (context : ControlContext) (records : Records) : Records × Settlement :=
  match records.tasks.find? id with
  | none => (records, rejected kind context (makeError .notFound "task was not found"))
  | some record =>
      let snapshot := record.snapshot
      if snapshot.state.isTerminal && snapshot.state = target then
        (records, accepted kind context .noOp (some snapshot))
      else
        match simplePreviousState snapshot.state target with
        | none =>
            (records, rejected kind context
              (makeError .invalidState "task state transition is not allowed") (some snapshot))
        | some previous =>
            let moved := simpleTaskMove previous target context snapshot
            ({ records with
                tasks := records.tasks.update id (TaskRecord.mapSnapshot fun _ => moved) },
              accepted kind context .applied (some moved))

def completeTaskMove (outcome : TaskOutcome) (context : ControlContext)
    (snapshot : TaskSnapshot) : TaskSnapshot :=
  { snapshot with
    state := outcome.terminalState
    epoch := snapshot.epoch + 1
    terminalOutcome := some outcome
    controlSequence := context.sequence
    updatedAt := context.now }

def completeTask (id : TaskId) (outcome : TaskOutcome) (context : ControlContext)
    (records : Records) : Records × Settlement :=
  match records.tasks.find? id with
  | none =>
      (records, rejected .completeTask context (makeError .notFound "task was not found"))
  | some record =>
      let snapshot := record.snapshot
      if outcome.terminalState ≠ .completed ∧ outcome.terminalState ≠ .failed then
        (records, rejected .completeTask context (makeError .invalidArgument
          "task completion requires the Completed or Failed terminal state") (some snapshot))
      else if snapshot.state.isTerminal then
        if snapshot.state = outcome.terminalState then
          let reason := makeError .invalidState
            "task already settled in the requested terminal state"
          (records, ⟨⟨.completeTask, .accepted, context.sequence, some reason⟩,
            ⟨.noOp, some reason, some snapshot⟩⟩)
        else
          (records, rejected .completeTask context (makeError .invalidState
            "task already settled in a different terminal state") (some snapshot))
      else if taskStatePathExists snapshot.state outcome.terminalState = false then
        (records, rejected .completeTask context (makeError .invalidState
          "no legal task transition path to the requested terminal state") (some snapshot))
      else
        let moved := completeTaskMove outcome context snapshot
        ({ records with
            tasks := records.tasks.update id (TaskRecord.mapSnapshot fun _ => moved) },
          accepted .completeTask context .applied (some moved))

/-- One task of the sweep of `request_human_takeover`. -/
def takeoverTask (session : SessionId) (context : ControlContext) (record : TaskRecord) :
    TaskRecord :=
  if record.sessionId ≠ session ∨ record.snapshot.state.isTerminal then record
  else if validTaskTransition record.snapshot.state .takeoverSettling then
    record.mapSnapshot fun snapshot =>
      { snapshot with
        state := .suspendedForTakeover
        epoch := snapshot.epoch + 1
        controlSequence := context.sequence
        updatedAt := context.now }
  else record

def SessionRecord.withState (state : SessionState) (record : SessionRecord) : SessionRecord :=
  { record with state := state }

def requestHumanTakeover (session : SessionId) (context : ControlContext) (records : Records) :
    Records × Settlement :=
  match records.sessions.find? session with
  | none =>
      (records, rejected .requestTakeover context (makeError .notFound "session was not found"))
  | some record =>
      if record.state = .humanControlled ∨ record.state = .takeoverPending then
        (records, accepted .requestTakeover context .noOp)
      else if validSessionTransition record.state .takeoverPending = false then
        (records, rejected .requestTakeover context
          (makeError .invalidState "session cannot enter takeover"))
      else
        let taken : Records :=
          { records with
            sessions := records.sessions.update session (.withState .humanControlled)
            tasks := records.tasks.mapValues fun _ => takeoverTask session context }
        match context.interrupt session with
        | .threw what => (taken, escaped .requestTakeover context what)
        | _ => (taken, accepted .requestTakeover context .applied)

/-- One task of the sweep of `release_human_takeover`. -/
def releaseTask (session : SessionId) (environmentEpoch : Nat) (context : ControlContext)
    (record : TaskRecord) : TaskRecord :=
  if record.sessionId ≠ session ∨ record.snapshot.state ≠ .suspendedForTakeover then record
  else
    record.mapSnapshot fun snapshot =>
      { snapshot with
        state := .observing
        epoch := snapshot.epoch + 1
        environmentEpoch := environmentEpoch
        controlSequence := context.sequence
        updatedAt := context.now }

def releaseHumanTakeover (session : SessionId) (context : ControlContext) (records : Records) :
    Records × Settlement :=
  match records.sessions.find? session with
  | none =>
      (records, rejected .releaseTakeover context (makeError .notFound "session was not found"))
  | some record =>
      if record.state = .autonomous then (records, accepted .releaseTakeover context .noOp)
      else if record.state ≠ .humanControlled ∨
          validSessionTransition record.state .resuming = false then
        (records, rejected .releaseTakeover context
          (makeError .invalidState "session is not human controlled"))
      else
        let environmentEpoch := record.environmentEpoch + 1
        ({ records with
            sessions := records.sessions.update session fun found =>
              { found with state := .autonomous, environmentEpoch := environmentEpoch }
            tasks := records.tasks.mapValues fun _ =>
              releaseTask session environmentEpoch context },
          accepted .releaseTakeover context .applied)

/-- The cancellation that closing a session and shutting down write. -/
def cancelledSnapshot (context : ControlContext) (snapshot : TaskSnapshot) : TaskSnapshot :=
  { snapshot with
    state := .cancelled
    epoch := snapshot.epoch + 1
    terminalOutcome := some ⟨.cancelled, none⟩
    controlSequence := context.sequence
    updatedAt := context.now }

/-- One task of the sweep of `close_session`. -/
def closeTask (session : SessionId) (context : ControlContext) (record : TaskRecord) :
    TaskRecord :=
  if record.sessionId ≠ session ∨ record.snapshot.state.isTerminal then record
  else record.mapSnapshot (cancelledSnapshot context)

def closeSession (session : SessionId) (context : ControlContext) (records : Records) :
    Records × Settlement :=
  match records.sessions.find? session with
  | none =>
      (records, rejected .closeSession context (makeError .notFound "session was not found"))
  | some record =>
      if record.state = .closed then (records, accepted .closeSession context .noOp)
      else if validSessionTransition record.state .closing = false then
        (records, rejected .closeSession context
          (makeError .invalidState "session cannot be closed"))
      else
        let swept := records.tasks.mapValues fun _ => closeTask session context
        match context.interrupt session with
        | .threw what =>
            -- The session stays in the state written before the interrupt.
            ({ records with
                sessions := records.sessions.update session (.withState .closing)
                tasks := swept },
              escaped .closeSession context what)
        | _ =>
            ({ records with
                sessions := records.sessions.update session (.withState .closed)
                tasks := swept },
              accepted .closeSession context .applied)

def admitOperationCompletion (key : OperationKey) (context : ControlContext)
    (records : Records) : Records × Settlement :=
  match records.operations.find? key.operationId, records.tasks.find? key.taskId with
  | some operation, some task =>
      let snapshot := task.snapshot
      let settled := records.operations.update key.operationId fun found =>
        { found with state := .settled }
      if operation.state = .settled then
        (records, accepted .operationCompletion context .noOp (some snapshot)
          (some (makeError .invalidState "operation completion is duplicate")))
      else if snapshot.epoch ≠ key.taskEpoch ∨ snapshot.state = .cancelled ∨
          snapshot.state = .completed ∨ snapshot.state = .failed then
        ({ records with operations := settled },
          accepted .operationCompletion context .noOp (some snapshot)
            (some (makeError .staleObservation "stale operation completion ignored")))
      else
        let touched : TaskSnapshot :=
          { snapshot with controlSequence := context.sequence, updatedAt := context.now }
        ({ records with
            operations := settled
            tasks := records.tasks.update key.taskId (TaskRecord.mapSnapshot fun _ => touched) },
          accepted .operationCompletion context .applied (some touched))
  | _, _ =>
      (records, rejected .operationCompletion context
        (makeError .notFound "operation or task was not found"))

def shutdownTask (context : ControlContext) (record : TaskRecord) : TaskRecord :=
  if record.snapshot.state.isTerminal then record
  else record.mapSnapshot (cancelledSnapshot context)

/-- One session of the sweep: a failed or throwing release fails the session. -/
def shutdownSession (context : ControlContext) (id : SessionId) (record : SessionRecord) :
    SessionRecord :=
  if record.state.isTerminal then record
  else
    match context.interrupt id with
    | .released => record.withState .closed
    | _ => record.withState .failed

/-- The first failure the sweep over the sessions meets. -/
def shutdownFailure (context : ControlContext) (records : Records) : Option Error :=
  records.sessions.entries.findSome? fun (id, record) =>
    if record.state.isTerminal then none
    else
      match context.interrupt id with
      | .released => none
      | .refused error => some error
      | .threw _ => some (makeError .internal "environment interrupt threw during shutdown")

/-!
The runtime as a machine. A host call admits a command under the admission lock
and appends it to the queue of the serial control context; a dispatch runs the
oldest queued command; `begin_operation` writes the operation table directly
under the same locks. Any interleaving of host threads and the control context
is a sequence of these inputs. Whether the executor accepts a submission and what
an environment answers are inputs, because neither is decided here.
-/

/-- A queued command with the identifiers its host call generated. -/
inductive Command
  | openSession (id : SessionId)
  | submitTask (session : SessionId) (id : TaskId) (goal : Bytes) (constraints : List Bytes)
  | pauseTask (id : TaskId)
  | resumeTask (id : TaskId)
  | cancelTask (id : TaskId)
  | beginTaskRecovery (id : TaskId)
  | completeTask (id : TaskId) (outcome : TaskOutcome)
  | requestHumanTakeover (session : SessionId)
  | releaseHumanTakeover (session : SessionId)
  | closeSession (session : SessionId)
  | admitOperationCompletion (key : OperationKey)
  | shutdownRuntime
  deriving DecidableEq

structure MiraRuntime where
  state : RuntimeState := .constructed
  executorInitialized : Bool := false
  shutdownCommand : Bool := false
  controlSequence : Nat := 0
  records : Records := {}
  queue : List Command := []

/-- The guarded store of the runtime state; it refuses an illegal transition. -/
def MiraRuntime.transition (runtime : MiraRuntime) (source target : RuntimeState) : Option MiraRuntime :=
  if validRuntimeTransition source target && runtime.state = source then
    some { runtime with state := target }
  else none

variable (runtime : MiraRuntime)

theorem MiraRuntime.transition_eq (finished : MiraRuntime) (source target : RuntimeState)
    (h : runtime.transition source target = some finished) :
    finished = { runtime with state := target } := by
  unfold MiraRuntime.transition at h
  split at h
  · exact (Option.some.inj h).symm
  · exact absurd h (by simp)

/-- `initialize`, given whether the configured limits are positive and whether
the executor starts. -/
def initializeRuntime (limits executor : Bool) (runtime : MiraRuntime) :
    MiraRuntime × Result Unit :=
  match runtime.transition .constructed .initializing with
  | none =>
      (runtime, .error (makeError .invalidState "runtime was already initialized or stopped"))
  | some entered =>
      let failure : Option Error :=
        if limits = false then
          some (makeError .invalidArgument "runtime limits must be positive")
        else if executor = false then
          some (makeError .unavailable "executor initialization failed" true)
        else none
      let ready := { entered with executorInitialized := limits && executor }
      match ready.transition .initializing (if failure.isSome then .failed else .running) with
      | none =>
          (ready, .error (makeError .invalidState
            "runtime initialization state transition rejected"))
      | some finished =>
          match failure with
          | some reason => (finished, .error reason)
          | none => (finished, .ok ())

/-- `enqueue_admitted`. The shutdown command is the one command admitted outside
the running state. The queue stands for the serial execution context of the executor,
which is documented to run what it accepts one at a time, in the order of submission. -/
def enqueueAdmitted (command : Command) (submitted : Bool) (runtime : MiraRuntime) :
    MiraRuntime × Result Unit :=
  if runtime.state ≠ .running ∧ command ≠ .shutdownRuntime then
    (runtime, .error (makeError .invalidState "runtime is not accepting this command"))
  else if submitted then ({ runtime with queue := runtime.queue ++ [command] }, .ok ())
  else
    (runtime, .error (makeError .resourceExhausted "runtime command submission rejected" true))

/-- A host call. An empty goal is refused before the command is queued. -/
def hostCall (command : Command) (submitted : Bool) (runtime : MiraRuntime) :
    MiraRuntime × Result Unit :=
  match command with
  | .submitTask _ _ [] _ =>
      (runtime, .error (makeError .invalidArgument "task goal must not be empty"))
  | .shutdownRuntime =>
      if runtime.shutdownCommand ∨ runtime.state = .stopped ∨ runtime.state = .quiesced ∨
          runtime.state = .stopping then
        (runtime, .error (makeError .invalidState "runtime shutdown is already in progress"))
      else
        match runtime.transition runtime.state .stopping with
        | none =>
            (runtime, .error (makeError .invalidState
              "runtime shutdown state transition rejected"))
        | some stopping =>
            if stopping.executorInitialized = false then
              (stopping, .error (makeError .invalidState "runtime was not initialized"))
            else
              match enqueueAdmitted .shutdownRuntime submitted stopping with
              | (queued, .ok ()) => ({ queued with shutdownCommand := true }, .ok ())
              | refused => refused
  | command => enqueueAdmitted command submitted runtime

/-- `begin_operation`. The new identifier is whatever the generator returned. -/
def beginOperation (task : TaskId) (step : StepId) (operation : OperationId)
    (runtime : MiraRuntime) : MiraRuntime × Result OperationKey :=
  if runtime.state ≠ .running then
    (runtime, .error (makeError .invalidState "runtime is not accepting operations"))
  else
    match runtime.records.tasks.find? task with
    | none => (runtime, .error (makeError .notFound "task was not found"))
    | some record =>
        let state := record.snapshot.state
        if state.isTerminal then
          (runtime, .error (makeError .invalidState "task is terminal"))
        else if state = .paused ∨ state = .suspendedForTakeover then
          (runtime, .error (makeError .invalidState
            "task is paused or under human takeover; no new operations are admitted"))
        else
          let key : OperationKey := ⟨task, record.snapshot.epoch, step, operation⟩
          ({ runtime with
              records :=
                { runtime.records with
                  operations := runtime.records.operations.emplace operation
                    ⟨key, .submitted⟩ } },
            .ok key)

def shutdownRecords (context : ControlContext) (records : Records) : Records :=
  { records with
    tasks := records.tasks.mapValues fun _ => shutdownTask context
    sessions := records.sessions.mapValues (shutdownSession context) }

def shutdownRuntime (context : ControlContext) (runtime : MiraRuntime) :
    MiraRuntime × Settlement :=
  let failure := shutdownFailure context runtime.records
  let swept := { runtime with records := shutdownRecords context runtime.records }
  let receipt : CommandReceipt := ⟨.shutdownRuntime, .accepted, context.sequence, none⟩
  match swept.transition .stopping (if failure.isSome then .failed else .quiesced) with
  | some finished =>
      (finished, ⟨receipt, ⟨if failure.isSome then .failed else .applied, failure, none⟩⟩)
  | none =>
      (swept, ⟨receipt, ⟨.failed, some (makeError .invalidState
        "runtime shutdown state transition rejected"), none⟩⟩)

theorem shutdownRuntime_records (context : ControlContext) (runtime : MiraRuntime) :
    (shutdownRuntime context runtime).1.records = shutdownRecords context runtime.records := by
  unfold shutdownRuntime
  dsimp only
  split
  · next finished h => rw [MiraRuntime.transition_eq _ finished _ _ h]
  · rfl

def onRecords (callback : ControlContext → Records → Records × Settlement)
    (context : ControlContext) (runtime : MiraRuntime) : MiraRuntime × Settlement :=
  let result := callback context runtime.records
  ({ runtime with records := result.1 }, result.2)

def execute : Command → ControlContext → MiraRuntime → MiraRuntime × Settlement
  | .openSession id => onRecords (openSession id)
  | .submitTask session id goal constraints => onRecords (submitTask session id goal constraints)
  | .pauseTask id => onRecords (simpleTaskCommand .pauseTask id .paused)
  | .resumeTask id => onRecords (simpleTaskCommand .resumeTask id .observing)
  | .cancelTask id => onRecords (simpleTaskCommand .cancelTask id .cancelled)
  | .beginTaskRecovery id => onRecords (simpleTaskCommand .beginTaskRecovery id .recovering)
  | .completeTask id outcome => onRecords (completeTask id outcome)
  | .requestHumanTakeover session => onRecords (requestHumanTakeover session)
  | .releaseHumanTakeover session => onRecords (releaseHumanTakeover session)
  | .closeSession session => onRecords (closeSession session)
  | .admitOperationCompletion key => onRecords (admitOperationCompletion key)
  | .shutdownRuntime => shutdownRuntime

inductive Input
  | initializeRuntime (limits executor : Bool)
  | hostCall (command : Command) (submitted : Bool)
  | dispatch (now : Timestamp) (interrupt : SessionId → InterruptResult)
  | beginOperation (task : TaskId) (step : StepId) (operation : OperationId)

inductive Output
  | answered (result : Result Unit)
  | operation (result : Result OperationKey)
  | settled (command : Command) (settlement : Settlement)
  | idle

/-- One step. A dispatch numbers the command before its callback runs. -/
def step (runtime : MiraRuntime) : Input → MiraRuntime × Output
  | .initializeRuntime limits executor =>
      let result := initializeRuntime limits executor runtime
      (result.1, .answered result.2)
  | .hostCall command submitted =>
      let result := hostCall command submitted runtime
      (result.1, .answered result.2)
  | .beginOperation task stepId operation =>
      let result := beginOperation task stepId operation runtime
      (result.1, .operation result.2)
  | .dispatch now interrupt =>
      match runtime.queue with
      | [] => (runtime, .idle)
      | command :: rest =>
          let sequence := runtime.controlSequence + 1
          let result := execute command ⟨sequence, now, interrupt⟩
            { runtime with controlSequence := sequence, queue := rest }
          (result.1, .settled command result.2)

/-- The runtime a dispatched callback starts from: numbered and unqueued. -/
def MiraRuntime.numbered (runtime : MiraRuntime) (rest : List Command) : MiraRuntime :=
  { runtime with controlSequence := runtime.controlSequence + 1, queue := rest }

variable (now : Timestamp) (interrupt : SessionId → InterruptResult)

theorem step_dispatch (command : Command) (rest : List Command)
    (queued : runtime.queue = command :: rest) :
    step runtime (.dispatch now interrupt) =
      ((execute command ⟨runtime.controlSequence + 1, now, interrupt⟩
          (runtime.numbered rest)).1,
        .settled command (execute command ⟨runtime.controlSequence + 1, now, interrupt⟩
          (runtime.numbered rest)).2) := by
  simp only [step, queued, MiraRuntime.numbered]

theorem step_dispatch_idle (queued : runtime.queue = []) :
    step runtime (.dispatch now interrupt) = (runtime, .idle) := by
  simp only [step, queued]

abbrev run : MiraRuntime → List Input → MiraRuntime := Execution.run step

/-- The command a dispatch in this state would run. -/
def Dispatches (runtime : MiraRuntime) (input : Input) (command : Command) : Prop :=
  (∃ now interrupt, input = .dispatch now interrupt) ∧ runtime.queue.head? = some command

end Mira.Runtime
