import Mira.Interaction.Ledger
import Mira.Runtime.Machine

/-!
The work of the coordinator on an admitted input: it decides which work item the input is
for, has the runtime carry out what that takes and hands the input to the loop of the task.
What the hosts, the executor and the sinks answer are inputs of a call, and so is what other
threads make the runtime do while a call waits for it.
-/

namespace Mira.Interaction
open Mira Bytes Events

def makeError (code : ErrorCode) (domainCode : InteractionDomainCode) (message : Bytes)
    (retryable : Bool := false) : InteractionError :=
  { code := code
    domain := interactionErrorDomain
    domainCode := domainCode.value
    retryable := retryable
    safeMessage := message }

structure PrincipalKey where
  tenantId : TenantId
  userId : UserId
  deriving DecidableEq

/-- `key_of`. -/
def PrincipalContext.key (principal : PrincipalContext) : PrincipalKey :=
  ⟨principal.tenantId, principal.userId⟩

/-- The hosts tell their sinks apart. -/
abbrev SinkId := Nat

/-- An input that a sink accepted for a task. -/
structure Delivery where
  sink : SinkId
  taskId : TaskId
  envelope : InputEnvelope

/-- What the coordinator works on: its own tables, the runtime, and what the sinks have
accepted so far. -/
structure Workspace where
  registry : KeyedTable PrincipalKey PrincipalState := .empty
  sinks : KeyedTable TaskId SinkId := .empty
  pending : KeyedTable TaskId (List InputEnvelope) := .empty
  runtime : Runtime.MiraRuntime := {}
  accepted : List Delivery := []

namespace Workspace

/-- `snapshot`. -/
def principalState (work : Workspace) (key : PrincipalKey) : PrincipalState :=
  (work.registry.find? key).getD {}

/-- Edits the entry of a principal, which is created if there is none. -/
def onPrincipal (work : Workspace) (key : PrincipalKey) (f : PrincipalState → PrincipalState) :
    Workspace :=
  { work with registry := (work.registry.emplace key {}).update key f }

def waitingFor (work : Workspace) (task : TaskId) : List InputEnvelope :=
  (work.pending.find? task).getD []

end Workspace

/-- The cached state of a task is replaced by that of the runtime, if it knows the task. -/
def refreshed (runtime : Runtime.MiraRuntime) (task : PrincipalTaskEntry) : PrincipalTaskEntry :=
  match runtime.records.tasks.find? task.taskId with
  | some record => { task with state := record.snapshot.state }
  | none => task

def Workspace.refreshTaskStates (work : Workspace) : Workspace :=
  { work with
    registry := work.registry.mapValues fun _ entry =>
      { entry with tasks := entry.tasks.map (refreshed work.runtime) } }

/-- Edits the first task of that id, the one that `task_of` finds. -/
def editTask (taskId : TaskId) (f : PrincipalTaskEntry → PrincipalTaskEntry) :
    List PrincipalTaskEntry → List PrincipalTaskEntry
  | [] => []
  | task :: rest => if task.taskId = taskId then f task :: rest else task :: editTask taskId f rest

/-- What the threads do around a command: what the runtime does before it is submitted,
whether the executor takes it, and what the runtime does while the call waits. -/
structure CommandPlan where
  before : List Runtime.Input := []
  submitted : Bool := true
  during : List Runtime.Input := []

inductive CommandAnswer
  | refused (message : Bytes)
  | unsettled
  | settled (settlement : Runtime.Settlement)

/-- Waits for the outcome of the command that has so many others ahead of it in the queue. -/
def awaitOutcome : Runtime.MiraRuntime → Nat → List Runtime.Input →
    Runtime.MiraRuntime × Option Runtime.Settlement
  | runtime, _, [] => (runtime, none)
  | runtime, ahead, input :: rest =>
      match Runtime.step runtime input with
      | (next, .settled _ settlement) =>
          match ahead with
          | 0 => (Runtime.run next rest, some settlement)
          | ahead + 1 => awaitOutcome next ahead rest
      | (next, _) => awaitOutcome next ahead rest

def issue (runtime : Runtime.MiraRuntime) (command : Runtime.Command) (plan : CommandPlan) :
    Runtime.MiraRuntime × CommandAnswer :=
  match Runtime.hostCall command plan.submitted (Runtime.run runtime plan.before) with
  | (runtime, .error reason) => (runtime, .refused (ascii reason.safeMessage))
  | (runtime, .ok ()) =>
      match awaitOutcome runtime (runtime.queue.length - 1) plan.during with
      | (runtime, none) => (runtime, .unsettled)
      | (runtime, some settlement) => (runtime, .settled settlement)

/-- Only whether the outcome arrived in time is looked at. -/
def CommandAnswer.failure : CommandAnswer → Option InteractionError
  | .refused message => some (makeError .invalidState .runtimeCommandFailed message)
  | .unsettled =>
      some (makeError .deadlineExceeded .runtimeCommandTimeout
        (ascii "command handle wait timed out") true)
  | .settled _ => none

structure IssuedCommand where
  command : Runtime.Command
  answer : CommandAnswer

/-- What the environment provider does; it may supply a null pointer. -/
inductive EnvironmentAnswer
  | unbound
  | refused (message : Bytes)
  | supplied (present : Bool)

/-- What becomes of the context preparation on the executor. A preparation that sees the
shutdown is skipped. -/
inductive Preparation
  | prepared
  | skipped
  | shuttingDown
  | capacityExhausted (what : Bytes)
  | executorStopping (what : Bytes)
  | notRunning (what : Bytes)
  | notSubmitted (what : Bytes)
  | late
  | threw (what : Bytes)

def Preparation.failure : Preparation → Option InteractionError
  | .prepared => none
  | .skipped => none
  | .shuttingDown =>
      some (makeError .cancelled .executorRejected
        (ascii "the interaction coordinator is shutting down"))
  | .capacityExhausted what =>
      some (makeError .resourceExhausted .executorRejected
        (ascii "the executor refused the context preparation: " ++ what) true)
  | .executorStopping what =>
      some (makeError .unavailable .executorRejected
        (ascii "the executor is stopping: " ++ what) true)
  | .notRunning what =>
      some (makeError .unavailable .executorRejected
        (ascii "the executor refused the context preparation: " ++ what) true)
  | .notSubmitted what =>
      some (makeError .internal .executorRejected
        (ascii "the context preparation could not be submitted: " ++ what))
  | .late =>
      some (makeError .deadlineExceeded .runtimeCommandTimeout
        (ascii "the context preparation did not settle in time") true)
  | .threw what =>
      some (makeError .internal .executorRejected
        (ascii "the context preparation failed: " ++ what))

/-- An input with everything its submission reads, draws and is answered. A sink refuses a
delivery with a message. -/
structure Submission where
  envelope : InputEnvelope
  readings : AdmissionReadings
  admissionFate : AppendFate
  now : Int64
  suggest : PrincipalState → Option RouteSuggestion := fun _ => none
  environment : EnvironmentAnswer := .unbound
  sessionId : SessionId
  taskId : TaskId
  opening : CommandPlan := {}
  commanding : CommandPlan := {}
  preparation : Preparation := .prepared
  refusal : Option Bytes := none
  transitionId : EventId
  transitionFate : AppendFate

/-- How the work on an admitted input ends, before the ledger is told. -/
inductive Verdict
  | unrecorded (reason : InteractionError)
  | denied (reason : InteractionError)
  | clarified (question : Option Bytes) (note : Bytes)
  | failed (reason : InteractionError)
  | routed (session : Option SessionId) (task : TaskId) (intent : RouteIntent) (note : Bytes)

/-- What the work on an input did. -/
structure Outcome where
  work : Workspace
  issued : List IssuedCommand := []
  /-- The task whose sink or queue took the input. -/
  handed : Option TaskId := none
  verdict : Verdict

namespace Submission

def key (call : Submission) : PrincipalKey := call.envelope.principal.key

def decision (call : Submission) (work : Workspace) : RoutingDecision :=
  decideRoute call.envelope (work.principalState call.key)
    (call.suggest (work.principalState call.key))

/-- Pauses or cancels a task, whether or not the runtime agrees. -/
def controlTask (call : Submission) (decision : RoutingDecision) (work : Workspace) : Outcome :=
  match decision.taskId with
  | none =>
      { work := work
        verdict := .unrecorded (makeError .invalidState .routeRejected
          (ascii "the routing decision has no task to act on")) }
  | some task =>
      let command : Runtime.Command :=
        if decision.intent = .pauseTask then .pauseTask task else .cancelTask task
      let (runtime, answer) := issue work.runtime command call.commanding
      { work := { work with runtime := runtime }
        issued := [⟨command, answer⟩]
        verdict :=
          match answer.failure with
          | some reason => .failed reason
          | none =>
              .routed decision.sessionId task decision.intent (boundText decision.rationale 512) }

def sessionFor (call : Submission) (config : CoordinatorConfig) (decision : RoutingDecision)
    (work : Workspace) : Workspace × List IssuedCommand × Except InteractionError SessionId :=
  match decision.sessionId with
  | some session => (work, [], .ok session)
  | none =>
      if config.maxSessionsPerPrincipal ≤ (work.principalState call.key).sessions.length ∧
          work.registry.contains call.key then
        (work, [], .error (makeError .resourceExhausted .routeRejected
          (ascii "the principal has too many tracked sessions")))
      else
        match call.environment with
        | .unbound =>
            (work, [], .error (makeError .invalidState .noSessionAvailable
              (ascii "no environment provider is bound to the coordinator")))
        | .refused message =>
            (work, [], .error (makeError .unavailable .noSessionAvailable message true))
        | .supplied false =>
            (work, [], .error (makeError .invalidState .runtimeCommandFailed
              (ascii "environment must not be null")))
        | .supplied true =>
            let command := Runtime.Command.openSession call.sessionId
            let (runtime, answer) := issue work.runtime command call.opening
            let work := { work with runtime := runtime }
            match answer.failure with
            | some reason => (work, [⟨command, answer⟩], .error reason)
            | none =>
                (work.onPrincipal call.key fun entry =>
                    { entry with sessions := entry.sessions ++ [call.sessionId] },
                  [⟨command, answer⟩], .ok call.sessionId)

/-- The goal and the constraints of new work. Resumed work takes those of its task. -/
def specFor (call : Submission) (decision : RoutingDecision) (state : PrincipalState) :
    Bytes × List Bytes :=
  let previous :=
    if decision.intent = .resumeTask then decision.taskId.bind (findTask state) else none
  let goal := (previous.map PrincipalTaskEntry.goal).getD []
  (if goal.isEmpty then boundText call.envelope.content maxGoalBytes else goal,
    (previous.map PrincipalTaskEntry.constraints).getD [])

def newEntry (call : Submission) (decision : RoutingDecision) (session : SessionId)
    (spec : Bytes × List Bytes) : PrincipalTaskEntry :=
  { taskId := call.taskId
    sessionId := session
    goal := spec.1
    constraints := spec.2
    resumedFrom := decision.taskId }

/-- Submits the task of new work and registers it, whether or not the runtime agrees. -/
def taskFor (call : Submission) (config : CoordinatorConfig) (decision : RoutingDecision)
    (session : SessionId) (spec : Bytes × List Bytes) (work : Workspace) :
    Workspace × List IssuedCommand × Except InteractionError TaskId :=
  let command := Runtime.Command.submitTask session call.taskId spec.1 spec.2
  let (runtime, answer) := issue work.runtime command call.commanding
  let work := { work with runtime := runtime }
  match answer.failure with
  | some reason => (work, [⟨command, answer⟩], .error reason)
  | none =>
      if config.maxTasksPerPrincipal ≤ (work.principalState call.key).tasks.length then
        (work.onPrincipal call.key id, [⟨command, answer⟩], .error (makeError
          .resourceExhausted .routeRejected (ascii "the principal has too many tracked tasks")))
      else
        (work.onPrincipal call.key fun entry =>
            { entry with tasks := entry.tasks ++ [call.newEntry decision session spec] },
          [⟨command, answer⟩], .ok call.taskId)

end Submission

/-- `append_constraint`. -/
def appendConstraint (constraint : Bytes) (constraints : List Bytes) : List Bytes :=
  let all := constraints ++ [constraint]
  all.drop (all.length - maxConstraintsPerTask)

/-- `assemble_context`. -/
def assembleContext (task : PrincipalTaskEntry) : Bytes :=
  ascii "goal: " ++ boundText task.goal maxGoalBytes ++ ascii "\nstate: " ++
    ascii (taskStateName task.state) ++
    (if task.constraints.isEmpty then []
    else ascii "\nconstraints:" ++ task.constraints.flatMap fun constraint =>
      ascii "\n- " ++ constraint)

/-- The prepared context is written to the first task of that id. -/
def Workspace.prepareContext (work : Workspace) (task : TaskId) : Workspace :=
  match work.registry.entries.find? fun entry => entry.2.tasks.any fun held => held.taskId = task with
  | none => work
  | some (key, _) =>
      work.onPrincipal key fun entry =>
        { entry with
          tasks := editTask task (fun held => { held with contextBlock := assembleContext held })
            entry.tasks }

def Preparation.written (preparation : Preparation) (task : TaskId) (work : Workspace) :
    Workspace :=
  match preparation with
  | .prepared => work.prepareContext task
  | _ => work

namespace Submission

def attachInput (call : Submission) (intent : RouteIntent) (task : TaskId) (work : Workspace) :
    Workspace :=
  work.onPrincipal call.key fun entry =>
    { entry with
      tasks := editTask task (fun held =>
        { held with
          inputIds := held.inputIds ++ [call.envelope.inputId]
          constraints :=
            if intent = .supplementTask ∨ intent = .continueCurrent then
              appendConstraint (boundText call.envelope.content maxConstraintBytes)
                held.constraints
            else held.constraints }) entry.tasks }

/-- A bound sink gets the input now; otherwise the input waits for one. -/
def deliver (call : Submission) (config : CoordinatorConfig) (task : TaskId) (work : Workspace) :
    Workspace × Except InteractionError Bytes :=
  match work.sinks.find? task with
  | some sink =>
      match call.refusal with
      | some message =>
          (work, .error (makeError .unavailable .sinkUnavailable message))
      | none =>
          ({ work with accepted := work.accepted ++ [⟨sink, task, call.envelope⟩] },
            .ok (ascii "delivered"))
  | none =>
      if config.maxPendingDeliveries ≤ (work.waitingFor task).length then
        ({ work with pending := work.pending.emplace task [] }, .error (makeError
          .resourceExhausted .sinkUnavailable
          (ascii "too many inputs are waiting for the loop of this task")))
      else
        ({ work with
            pending := work.pending.assign task (work.waitingFor task ++ [call.envelope]) },
          .ok (ascii "awaiting the loop of the task"))

/-- From the work item on: the context is prepared and the input is delivered. -/
def workOn (call : Submission) (config : CoordinatorConfig) (decision : RoutingDecision)
    (session : SessionId) (task : TaskId) (issued : List IssuedCommand) (work : Workspace) :
    Outcome :=
  let work := call.attachInput decision.intent task work
  match call.preparation.failure with
  | some reason => { work := work, issued := issued, verdict := .failed reason }
  | none =>
      match call.deliver config task (call.preparation.written task work) with
      | (work, .error reason) => { work := work, issued := issued, verdict := .failed reason }
      | (work, .ok note) =>
          { work := work
            issued := issued
            handed := some task
            verdict := .routed (some session) task decision.intent
              (boundText decision.rationale 512 ++ ascii " (" ++ note ++ ascii ")") }

/-- New work: a session, a task in it, and the input handed to it. -/
def startWork (call : Submission) (config : CoordinatorConfig) (decision : RoutingDecision)
    (work : Workspace) : Outcome :=
  match call.sessionFor config decision work with
  | (work', issued, .error reason) =>
      { work := work', issued := issued, verdict := .failed reason }
  | (work', issued, .ok session) =>
      let spec := call.specFor decision (work.principalState call.key)
      match call.taskFor config decision session spec work' with
      | (work', more, .error reason) =>
          { work := work', issued := issued ++ more, verdict := .failed reason }
      | (work', more, .ok task) =>
          call.workOn config decision session task (issued ++ more) work'

def arrange (call : Submission) (config : CoordinatorConfig) (work : Workspace) : Outcome :=
  if permitted call.envelope.principal config call.now = false then
    { work := work
      verdict := .denied (makeError .permissionDenied .permissionDenied
        (ascii "the principal lacks the required capability")) }
  else
    let work := work.refreshTaskStates
    let decision := call.decision work
    match decision.intent with
    | .reject =>
        { work := work
          verdict := .denied (makeError .safetyRejected .routeRejected
            (boundText decision.rationale 512)) }
    | .clarify =>
        { work := work
          verdict := .clarified decision.clarification (boundText decision.rationale 512) }
    | .pauseTask | .cancelTask => call.controlTask decision work
    | .continueCurrent | .supplementTask =>
        match decision.taskId, decision.sessionId with
        | some task, some session => call.workOn config decision session task [] work
        | _, _ =>
            { work := work
              verdict := .unrecorded (makeError .invalidState .routeRejected
                (ascii "the routing decision has no live target")) }
    | .newTask | .resumeTask => call.startWork config decision work

end Submission

end Mira.Interaction
