import Mira.Interaction.Workspace
import Mira.Interaction.LedgerCalls

/-!
The interaction coordinator: submissions are admitted to the ledger, worked on and concluded
in the ledger; sinks come and go; and the ledger is told of answers, settlements and
rejections.
-/

namespace Mira.Interaction
open Mira Bytes Events

structure InputDisposition where
  ingressId : ControlIngressId := ⟨.nil⟩
  inputId : Bytes
  stage : InputStage := .accepted
  duplicate : Bool := false
  sessionId : Option SessionId := none
  taskId : Option TaskId := none
  error : Option InteractionError := none
  clarification : Option Bytes := none

def rejection (reason : InteractionError) : LedgerTransition :=
  { stage := .rejected, note := reason.safeMessage, error := some reason }

def Verdict.transition : Verdict → Option LedgerTransition
  | .unrecorded _ => none
  | .denied reason => some (rejection reason)
  | .clarified question note => some { clarification := question, note := note }
  | .failed reason => some (rejection reason)
  | .routed session task intent note =>
      some { stage := .routed, sessionId := session, taskId := some task, intent := some intent
             note := note }

def Verdict.disposition (entry : LedgerEntry) (answer : LedgerResult LedgerEntry) :
    Verdict → InputDisposition
  | .unrecorded reason =>
      { ingressId := entry.ingressId, inputId := entry.inputId, stage := .rejected
        error := some reason }
  | .denied reason =>
      { ingressId := entry.ingressId, inputId := entry.inputId, stage := .rejected
        error :=
          match answer with
          | .ok kept => kept.error
          | .error _ => some reason }
  | .clarified question _ =>
      match answer with
      | .ok _ =>
          { ingressId := entry.ingressId, inputId := entry.inputId, clarification := question }
      | .error reason =>
          { ingressId := entry.ingressId, inputId := entry.inputId, stage := .rejected
            clarification := question, error := some reason }
  | .failed reason =>
      { ingressId := entry.ingressId, inputId := entry.inputId, stage := .rejected
        error := some reason }
  | .routed session task _ _ =>
      match answer with
      | .ok _ =>
          { ingressId := entry.ingressId, inputId := entry.inputId, stage := .routed
            sessionId := session, taskId := some task }
      | .error reason =>
          { ingressId := entry.ingressId, inputId := entry.inputId, stage := .rejected
            sessionId := session, taskId := some task, error := some reason }

def repeatDisposition (entry : LedgerEntry) : InputDisposition :=
  { ingressId := entry.ingressId
    inputId := entry.inputId
    stage := entry.stage
    duplicate := true
    sessionId := entry.sessionId
    taskId := entry.taskId
    clarification := entry.clarification
    error := entry.error }

structure InteractionCoordinator where
  config : CoordinatorConfig := {}
  ledger : EventStoreInputLedger
  log : List EventEnvelope := []
  work : Workspace := {}
  initialized : Bool := false
  stopping : Bool := false

/-- What a submission returned, the commands it issued and the task it was handed to. -/
structure SubmissionReport where
  result : LedgerResult InputDisposition
  issued : List IssuedCommand := []
  handed : Option TaskId := none

namespace InteractionCoordinator

def callLedger (coordinator : InteractionCoordinator) (fate : AppendFate) (call : LedgerCall) :
    InteractionCoordinator :=
  { coordinator with
    ledger := call.ledger
    log := appended coordinator.log fate call.sent }

/-- `initialize`: the index is rebuilt from the stream. The rounds suffice for every log in
order. -/
def initializeLedger (coordinator : InteractionCoordinator) :
    InteractionCoordinator × Option (LedgerResult Unit) :=
  if coordinator.initialized then
    (coordinator, some (.error (makeError .invalidState .notInitialized
      (ascii "the interaction coordinator was already initialized"))))
  else
    match coordinator.ledger.rebuild (readLog coordinator.log) (coordinator.log.length + 1) with
    | none => (coordinator, none)
    | some (ledger, .error reason) => ({ coordinator with ledger := ledger }, some (.error reason))
    | some (ledger, .ok ()) =>
        ({ coordinator with ledger := ledger, initialized := true }, some (.ok ()))

/-- The ledger is told how the work on an input ended. -/
def conclude (coordinator : InteractionCoordinator) (call : Submission) (entry : LedgerEntry)
    (outcome : Outcome) : InteractionCoordinator × SubmissionReport :=
  let coordinator := { coordinator with work := outcome.work }
  match outcome.verdict.transition with
  | none =>
      (coordinator,
        ⟨.ok (outcome.verdict.disposition entry (.ok entry)), outcome.issued, outcome.handed⟩)
  | some transition =>
      let advanced := coordinator.ledger.advance (fun _ => call.transitionFate.result)
        entry.inputId transition call.transitionId
      (coordinator.callLedger call.transitionFate advanced,
        ⟨.ok (outcome.verdict.disposition entry advanced.result), outcome.issued,
          outcome.handed⟩)

def submitInput (coordinator : InteractionCoordinator) (call : Submission) :
    InteractionCoordinator × SubmissionReport :=
  if coordinator.stopping then
    (coordinator, ⟨.error (makeError .unavailable .routeRejected
      (ascii "the interaction coordinator is shutting down")), [], none⟩)
  else if coordinator.initialized = false then
    (coordinator, ⟨.error (makeError .invalidState .notInitialized
      (ascii "the interaction coordinator was not initialized")), [], none⟩)
  else if call.envelope.inputId.isEmpty then
    (coordinator, ⟨.error (makeError .invalidArgument .inputInvalid
      (ascii "the input id must not be empty")), [], none⟩)
  else
    let admission := coordinator.ledger.admitInput (fun _ => call.admissionFate.result)
      call.envelope call.readings
    let coordinator := coordinator.callLedger call.admissionFate admission
    match admission.result with
    | .error reason =>
        (coordinator, ⟨.ok { inputId := call.envelope.inputId, stage := .rejected
                             error := some reason }, [], none⟩)
    | .ok entry =>
        if entry.duplicate then (coordinator, ⟨.ok (repeatDisposition entry), [], none⟩)
        else coordinator.conclude call entry (call.arrange coordinator.config coordinator.work)

/-- Offers the waiting inputs in order, up to the first that is refused. -/
def offer (sink : SinkId) (task : TaskId) : List InputEnvelope → (Nat → Option Bytes) →
    List Delivery × Option (InputEnvelope × Bytes)
  | [], _ => ([], none)
  | envelope :: rest, refusals =>
      match refusals 0 with
      | some message => ([], some (envelope, message))
      | none =>
          let offered := offer sink task rest fun index => refusals (index + 1)
          (⟨sink, task, envelope⟩ :: offered.1, offered.2)

/-- The sink is bound before it is offered anything. Of what it was offered, only the input
that it refused is put back. -/
def registerSink (coordinator : InteractionCoordinator) (task : TaskId) (sink : Option SinkId)
    (refusals : Nat → Option Bytes) : InteractionCoordinator × LedgerResult Unit :=
  match sink with
  | none =>
      (coordinator, .error (makeError .invalidArgument .sinkUnavailable
        (ascii "the input sink must not be null")))
  | some sink =>
      let work := coordinator.work
      if coordinator.config.maxSinks ≤ work.sinks.size ∧ work.sinks.contains task = false then
        (coordinator, .error (makeError .resourceExhausted .sinkUnavailable
          (ascii "too many input sinks are registered")))
      else
        let offered := offer sink task (work.waitingFor task) refusals
        let work :=
          { work with
            sinks := work.sinks.assign task sink
            pending := work.pending.erase task
            accepted := work.accepted ++ offered.1 }
        match offered.2 with
        | none => ({ coordinator with work := work }, .ok ())
        | some (envelope, message) =>
            ({ coordinator with
                work := { work with pending := work.pending.assign task [envelope] } },
              .error (makeError .unavailable .sinkUnavailable message))

def unregisterSink (coordinator : InteractionCoordinator) (task : TaskId) :
    InteractionCoordinator :=
  { coordinator with
    work := { coordinator.work with sinks := coordinator.work.sinks.erase task } }

/-- Reports a transition of a recorded input and returns what the record then says. -/
def recordTransition (coordinator : InteractionCoordinator) (inputId : Bytes)
    (transition : LedgerTransition) (eventId : EventId) (fate : AppendFate) :
    InteractionCoordinator × LedgerResult LedgerEntry :=
  if coordinator.initialized = false then
    (coordinator, .error (makeError .invalidState .notInitialized
      (ascii "the interaction coordinator was not initialized")))
  else
    let advanced := coordinator.ledger.advance (fun _ => fate.result) inputId transition eventId
    (coordinator.callLedger fate advanced, advanced.result)

def recordAnswer (coordinator : InteractionCoordinator) (inputId summary : Bytes)
    (eventId : EventId) (fate : AppendFate) :
    InteractionCoordinator × LedgerResult InputDisposition :=
  let reported := coordinator.recordTransition inputId
    { stage := .answered, note := boundText summary maxConstraintBytes } eventId fate
  (reported.1, reported.2.map fun entry =>
    { ingressId := entry.ingressId, inputId := entry.inputId, stage := entry.stage
      sessionId := entry.sessionId, taskId := entry.taskId
      clarification := entry.clarification })

def recordSettlement (coordinator : InteractionCoordinator) (inputId : Bytes)
    (terminal : TaskState) (eventId : EventId) (fate : AppendFate) :
    InteractionCoordinator × LedgerResult InputDisposition :=
  if coordinator.initialized ∧ terminal.isTerminal = false then
    (coordinator, .error (makeError .invalidArgument .inputInvalid
      (ascii "a settlement needs a terminal task state")))
  else
    let reported := coordinator.recordTransition inputId
      { stage := .taskSettled, note := ascii "terminal: " ++ ascii (taskStateName terminal) }
      eventId fate
    (reported.1, reported.2.map fun entry =>
      { ingressId := entry.ingressId, inputId := entry.inputId, stage := entry.stage
        sessionId := entry.sessionId, taskId := entry.taskId })

def recordRejection (coordinator : InteractionCoordinator) (inputId reason : Bytes)
    (eventId : EventId) (fate : AppendFate) :
    InteractionCoordinator × LedgerResult InputDisposition :=
  let reported := coordinator.recordTransition inputId
    (rejection (makeError .safetyRejected .routeRejected (boundText reason maxConstraintBytes)))
    eventId fate
  (reported.1, reported.2.map fun entry =>
    { ingressId := entry.ingressId, inputId := entry.inputId, stage := entry.stage
      sessionId := entry.sessionId, taskId := entry.taskId, error := entry.error })

/-- Only the first shutdown does anything. -/
def shutdown (coordinator : InteractionCoordinator) : InteractionCoordinator :=
  if coordinator.stopping then coordinator
  else
    { coordinator with
      stopping := true
      initialized := false
      work := { coordinator.work with sinks := .empty, pending := .empty } }

end InteractionCoordinator

/-- The calls of the hosts, a step of the runtime, and a context preparation that finishes
after its call stopped waiting for it. Reading the state of a principal refreshes the
cached states. -/
inductive CoordinatorInput
  | initializeLedger
  | submitInput (call : Submission)
  | registerSink (task : TaskId) (sink : Option SinkId) (refusals : Nat → Option Bytes)
  | unregisterSink (task : TaskId)
  | recordAnswer (inputId summary : Bytes) (eventId : EventId) (fate : AppendFate)
  | recordSettlement (inputId : Bytes) (terminal : TaskState) (eventId : EventId)
      (fate : AppendFate)
  | recordRejection (inputId reason : Bytes) (eventId : EventId) (fate : AppendFate)
  | principalState (principal : PrincipalContext)
  | lateContext (task : TaskId)
  | runtime (input : Runtime.Input)
  | shutdown

inductive CoordinatorAnswer
  | done
  | initialized (result : Option (LedgerResult Unit))
  | submitted (report : SubmissionReport)
  | registered (result : LedgerResult Unit)
  | recorded (result : LedgerResult InputDisposition)
  | state (state : PrincipalState)

namespace InteractionCoordinator

def start (config : CoordinatorConfig) (runtime : RuntimeId) (log : List EventEnvelope) :
    InteractionCoordinator :=
  { config := config
    ledger :=
      { runtime := runtime
        options :=
          { idempotencyWindow := config.idempotencyWindow
            maxEntries := config.maxLedgerEntries } }
    log := log }

def step (coordinator : InteractionCoordinator) :
    CoordinatorInput → InteractionCoordinator × CoordinatorAnswer
  | .initializeLedger =>
      let called := coordinator.initializeLedger
      (called.1, .initialized called.2)
  | .submitInput call =>
      let called := coordinator.submitInput call
      (called.1, .submitted called.2)
  | .registerSink task sink refusals =>
      let called := coordinator.registerSink task sink refusals
      (called.1, .registered called.2)
  | .unregisterSink task => (coordinator.unregisterSink task, .done)
  | .recordAnswer inputId summary eventId fate =>
      let called := coordinator.recordAnswer inputId summary eventId fate
      (called.1, .recorded called.2)
  | .recordSettlement inputId terminal eventId fate =>
      let called := coordinator.recordSettlement inputId terminal eventId fate
      (called.1, .recorded called.2)
  | .recordRejection inputId reason eventId fate =>
      let called := coordinator.recordRejection inputId reason eventId fate
      (called.1, .recorded called.2)
  | .principalState principal =>
      let work := coordinator.work.refreshTaskStates
      ({ coordinator with work := work }, .state (work.principalState principal.key))
  | .lateContext task =>
      ({ coordinator with work := coordinator.work.prepareContext task }, .done)
  | .runtime input =>
      ({ coordinator with
          work :=
            { coordinator.work with
              runtime := (Runtime.step coordinator.work.runtime input).1 } }, .done)
  | .shutdown => (coordinator.shutdown, .done)

end InteractionCoordinator

namespace InteractionCoordinator
variable (coordinator : InteractionCoordinator) (call : Submission)

def admission : LedgerCall :=
  coordinator.ledger.admitInput (fun _ => call.admissionFate.result) call.envelope call.readings

def afterAdmission : InteractionCoordinator :=
  coordinator.callLedger call.admissionFate (coordinator.admission call)

/-- Submissions are only taken in between. -/
def Open : Prop :=
  coordinator.stopping = false ∧ coordinator.initialized = true

inductive Submitted : InteractionCoordinator × SubmissionReport → Prop
  | closed (reason : InteractionError) : Submitted (coordinator, ⟨.error reason, [], none⟩)
  | refused (reason : InteractionError) (isOpen : coordinator.Open)
      (result : (coordinator.admission call).result = .error reason) :
      Submitted (coordinator.afterAdmission call,
        ⟨.ok { inputId := call.envelope.inputId, stage := .rejected, error := some reason }, [],
          none⟩)
  | repeated (entry : LedgerEntry) (isOpen : coordinator.Open)
      (held : coordinator.ledger.index.find? call.envelope.inputId = some entry) :
      Submitted (coordinator.afterAdmission call,
        ⟨.ok (repeatDisposition { entry with duplicate := true }), [], none⟩)
  | fresh (isOpen : coordinator.Open)
      (absent : coordinator.ledger.index.find? call.envelope.inputId = none)
      (result : (coordinator.admission call).result =
        .ok (coordinator.ledger.freshEntry call.envelope call.readings)) :
      Submitted ((coordinator.afterAdmission call).conclude call
        (coordinator.ledger.freshEntry call.envelope call.readings)
        (call.arrange coordinator.config coordinator.work))

theorem submitInput_submitted : Submitted coordinator call (coordinator.submitInput call) := by
  have outcome := coordinator.ledger.admitInput_admission (fun _ => call.admissionFate.result)
    call.envelope call.readings
  have own : coordinator.admission call = coordinator.ledger.admitInput
      (fun _ => call.admissionFate.result) call.envelope call.readings := rfl
  have after : coordinator.callLedger call.admissionFate (coordinator.admission call) =
      coordinator.afterAdmission call := rfl
  have config : (coordinator.afterAdmission call).config = coordinator.config := rfl
  have work : (coordinator.afterAdmission call).work = coordinator.work := rfl
  simp only [submitInput]
  split
  · exact .closed _
  · next running =>
      split
      · exact .closed _
      · next ready =>
          have isOpen : coordinator.Open :=
            ⟨Bool.not_eq_true _ ▸ running, Bool.not_eq_false _ ▸ ready⟩
          split
          · exact .closed _
          · rw [← own] at outcome ⊢
            rw [after]
            split
            · next reason result => exact .refused reason isOpen result
            · next entry result =>
                generalize called : coordinator.admission call = admitted at outcome result
                cases outcome with
                | empty reason => cases result
                | full reason absent => cases result
                | failed sent reason absent answer => cases result
                | repeated held found =>
                    simp only [repeatAnswer] at result
                    split at result
                    · cases result
                    · cases result
                      exact .repeated held isOpen found
                | fresh receipt absent answer =>
                    cases result
                    rw [config, work]
                    refine .fresh isOpen absent ?_
                    rw [called]

end InteractionCoordinator

variable (coordinator : InteractionCoordinator) (call : Submission) (entry : LedgerEntry)

theorem conclude_frame (outcome : Outcome) :
    (coordinator.conclude call entry outcome).1.work = outcome.work ∧
      (coordinator.conclude call entry outcome).1.config = coordinator.config ∧
      (coordinator.conclude call entry outcome).2.issued = outcome.issued ∧
      (coordinator.conclude call entry outcome).2.handed = outcome.handed := by
  simp only [InteractionCoordinator.conclude]
  split <;> exact ⟨rfl, rfl, rfl, rfl⟩

/-- What the ledger answers to the verdict on an input. -/
def InteractionCoordinator.concluded (coordinator : InteractionCoordinator) (call : Submission)
    (entry : LedgerEntry) (outcome : Outcome) : LedgerResult LedgerEntry :=
  match outcome.verdict.transition with
  | none => .ok entry
  | some transition =>
      (coordinator.ledger.advance (fun _ => call.transitionFate.result) entry.inputId transition
        call.transitionId).result

theorem conclude_result (outcome : Outcome) :
    (coordinator.conclude call entry outcome).2.result =
      .ok (outcome.verdict.disposition entry
        (coordinator.concluded call entry outcome)) := by
  simp only [InteractionCoordinator.conclude, InteractionCoordinator.concluded]
  cases outcome.verdict.transition with
  | none => rfl
  | some transition => rfl

theorem disposition_routed {verdict : Verdict} {entry : LedgerEntry}
    {answer : LedgerResult LedgerEntry}
    (routed : (verdict.disposition entry answer).stage = .routed) :
    ∃ session task intent note, verdict = .routed session task intent note ∧
      (verdict.disposition entry answer).taskId = some task := by
  cases verdict with
  | unrecorded reason => cases routed
  | denied reason => cases routed
  | clarified question note => cases answer <;> cases routed
  | failed reason => cases routed
  | routed session task intent note =>
      refine ⟨session, task, intent, note, rfl, ?_⟩
      cases answer with
      | ok kept => rfl
      | error reason => rfl

namespace Workspace

/-- Nothing about deliveries has changed. -/
structure SameDeliveries (before after : Workspace) : Prop where
  sinks : after.sinks = before.sinks
  accepted : after.accepted = before.accepted
  waiting : ∀ task, after.waitingFor task = before.waitingFor task

variable (work : Workspace)

theorem SameDeliveries.refl : work.SameDeliveries work :=
  ⟨rfl, rfl, fun _ => rfl⟩

theorem SameDeliveries.trans {a b c : Workspace} (first : a.SameDeliveries b)
    (second : b.SameDeliveries c) : a.SameDeliveries c :=
  ⟨second.sinks.trans first.sinks, second.accepted.trans first.accepted,
    fun task => (second.waiting task).trans (first.waiting task)⟩

theorem prepareContext_deliveries (task : TaskId) :
    work.SameDeliveries (work.prepareContext task) := by
  simp only [prepareContext]
  split <;> exact ⟨rfl, rfl, fun _ => rfl⟩

end Workspace

theorem Preparation.written_deliveries (preparation : Preparation) (task : TaskId)
    (work : Workspace) : work.SameDeliveries (preparation.written task work) := by
  simp only [Preparation.written]
  split
  · exact work.prepareContext_deliveries task
  · exact .refl work

namespace Workspace

/-- How an input is taken by a task: by its sink or by its queue. -/
inductive Taken (work : Workspace) (envelope : InputEnvelope) (task : TaskId) :
    Workspace → Prop
  | delivered (sink : SinkId) (after : Workspace) (bound : work.sinks.find? task = some sink)
      (sinks : after.sinks = work.sinks)
      (accepted : after.accepted = work.accepted ++ [⟨sink, task, envelope⟩])
      (waiting : ∀ other, after.waitingFor other = work.waitingFor other) :
      Taken work envelope task after
  | queued (after : Workspace) (unbound : work.sinks.find? task = none)
      (sinks : after.sinks = work.sinks) (accepted : after.accepted = work.accepted)
      (waiting : ∀ other, after.waitingFor other =
        if other = task then work.waitingFor task ++ [envelope] else work.waitingFor other) :
      Taken work envelope task after

theorem Taken.after_same {before work after : Workspace} {envelope : InputEnvelope}
    {task : TaskId} (same : before.SameDeliveries work)
    (taken : work.Taken envelope task after) : before.Taken envelope task after := by
  cases taken with
  | delivered sink after bound sinks accepted waiting =>
      refine .delivered sink after (same.sinks ▸ bound) (sinks.trans same.sinks) ?_ ?_
      · rw [accepted, same.accepted]
      · exact fun other => (waiting other).trans (same.waiting other)
  | queued after unbound sinks accepted waiting =>
      refine .queued after (same.sinks ▸ unbound) (sinks.trans same.sinks)
        (accepted.trans same.accepted) ?_
      intro other
      rw [waiting other, same.waiting task, same.waiting other]

end Workspace

/-- What the work on an input does about deliveries. -/
def Outcome.Delivers (outcome : Outcome) (work : Workspace) (envelope : InputEnvelope) : Prop :=
  match outcome.handed with
  | none => work.SameDeliveries outcome.work
  | some task => work.Taken envelope task outcome.work

namespace Submission
variable (call : Submission) (config : CoordinatorConfig) (decision : RoutingDecision)
  (work : Workspace)

theorem deliver_effect (task : TaskId) :
    ((∃ reason, (call.deliver config task work).2 = .error reason) ∧
        work.SameDeliveries (call.deliver config task work).1) ∨
      ((∃ note, (call.deliver config task work).2 = .ok note) ∧
        work.Taken call.envelope task (call.deliver config task work).1) := by
  simp only [deliver]
  split
  · next sink bound =>
      split
      · exact .inl ⟨⟨_, rfl⟩, .refl work⟩
      · exact .inr ⟨⟨_, rfl⟩, .delivered sink _ bound rfl rfl fun _ => rfl⟩
  · next unbound =>
      split
      · refine .inl ⟨⟨_, rfl⟩, rfl, rfl, fun other => ?_⟩
        simp only [Workspace.waitingFor, KeyedTable.find?_emplace]
        split
        · next own =>
            rw [own]
            cases work.pending.find? task <;> rfl
        · rfl
      · refine .inr ⟨⟨_, rfl⟩, .queued _ unbound rfl rfl fun other => ?_⟩
        simp only [Workspace.waitingFor, KeyedTable.find?_assign]
        split <;> rfl

variable (session : SessionId)

theorem workOn_delivers (task : TaskId) (issued : List IssuedCommand) :
    (call.workOn config decision session task issued work).Delivers work call.envelope := by
  have attached : work.SameDeliveries (call.attachInput decision.intent task work) :=
    ⟨rfl, rfl, fun _ => rfl⟩
  simp only [workOn]
  split
  · exact attached
  · have ready := attached.trans
      (call.preparation.written_deliveries task (call.attachInput decision.intent task work))
    have effect := call.deliver_effect config
      (call.preparation.written task (call.attachInput decision.intent task work)) task
    split
    · next after reason answer =>
        rw [answer] at effect
        rcases effect with ⟨_, same⟩ | ⟨⟨note, other⟩, _⟩
        · exact ready.trans same
        · cases other
    · next after note answer =>
        rw [answer] at effect
        rcases effect with ⟨⟨reason, other⟩, _⟩ | ⟨_, taken⟩
        · cases other
        · exact taken.after_same ready

theorem controlTask_delivers :
    (call.controlTask decision work).Delivers work call.envelope := by
  simp only [controlTask]
  split
  · exact .refl work
  · exact ⟨rfl, rfl, fun _ => rfl⟩

theorem sessionFor_deliveries :
    work.SameDeliveries (call.sessionFor config decision work).1 := by
  simp only [sessionFor]
  split
  · exact .refl work
  · split
    · exact .refl work
    · split
      · exact .refl work
      · exact .refl work
      · exact .refl work
      · split <;> exact ⟨rfl, rfl, fun _ => rfl⟩

theorem taskFor_deliveries (spec : Bytes × List Bytes) :
    work.SameDeliveries (call.taskFor config decision session spec work).1 := by
  simp only [taskFor]
  split
  · exact ⟨rfl, rfl, fun _ => rfl⟩
  · split <;> exact ⟨rfl, rfl, fun _ => rfl⟩

theorem startWork_delivers :
    (call.startWork config decision work).Delivers work call.envelope := by
  have opened := call.sessionFor_deliveries config decision work
  simp only [startWork]
  split
  · next answer =>
      rw [answer] at opened
      exact opened
  · next after issued session answer =>
      have opened : work.SameDeliveries after := by rwa [answer] at opened
      have submitted := call.taskFor_deliveries config decision after session
        (call.specFor decision (work.principalState call.key))
      split
      · next answer' =>
          rw [answer'] at submitted
          exact opened.trans submitted
      · next after' more task answer' =>
          have submitted : after.SameDeliveries after' := by rwa [answer'] at submitted
          have delivered := call.workOn_delivers config decision after' session task
            (issued ++ more)
          simp only [Outcome.Delivers] at delivered ⊢
          split
          · next none_ =>
              rw [none_] at delivered
              exact (opened.trans submitted).trans delivered
          · next handed some_ =>
              rw [some_] at delivered
              exact delivered.after_same (opened.trans submitted)

theorem arrange_delivers : (call.arrange config work).Delivers work call.envelope := by
  have refreshed : work.SameDeliveries work.refreshTaskStates := ⟨rfl, rfl, fun _ => rfl⟩
  have after {outcome : Outcome}
      (delivers : outcome.Delivers work.refreshTaskStates call.envelope) :
      outcome.Delivers work call.envelope := by
    simp only [Outcome.Delivers] at delivers ⊢
    split
    · next none_ =>
        rw [none_] at delivers
        exact refreshed.trans delivers
    · next handed some_ =>
        rw [some_] at delivers
        exact delivers.after_same refreshed
  simp only [arrange]
  split
  · exact .refl work
  · apply after
    split
    · exact .refl _
    · exact .refl _
    · exact call.controlTask_delivers _ _
    · exact call.controlTask_delivers _ _
    · split
      · exact call.workOn_delivers _ _ _ _ _ _
      · exact .refl _
    · split
      · exact call.workOn_delivers _ _ _ _ _ _
      · exact .refl _
    · exact call.startWork_delivers _ _ _
    · exact call.startWork_delivers _ _ _

end Submission

/-- A principal that may submit inputs. -/
def trusted (user : UInt8) : PrincipalContext :=
  { tenantId := .filled 1
    userId := .filled user
    grants := [{ capability := ascii "mira.interaction.input" }] }

def saying (user : UInt8) (inputId content : String) : InputEnvelope :=
  { principal := trusted user, inputId := ascii inputId, content := ascii content }

/-- The control context runs the command while the call waits. -/
def settling : CommandPlan := { during := [.dispatch {} fun _ => .released] }

/-- A submission that draws the given identifiers and finds everything at its service. -/
def served (envelope : InputEnvelope) (drawn : UInt8) : Submission where
  envelope := envelope
  readings := readingsAt 100 drawn
  admissionFate := acknowledgedBy drawn
  now := 0
  environment := .supplied true
  sessionId := .filled drawn
  taskId := .filled drawn
  opening := settling
  commanding := settling
  transitionId := .filled (drawn + 100)
  transitionFate := acknowledgedBy (drawn + 100)

def readiness : List CoordinatorInput := [.runtime (.initializeRuntime true true), .initializeLedger]

def ready : InteractionCoordinator :=
  Execution.run InteractionCoordinator.step (.start {} (.filled 3) []) readiness

def SubmissionReport.placed (report : SubmissionReport) : Option (InputStage × Option TaskId) :=
  report.result.toOption.map fun disposition => (disposition.stage, disposition.taskId)

end Mira.Interaction
