import Mira.Interaction.RuntimeAgreement

/-!
Routed means that the runtime agreed, over whole runs: the registry and the routes in the
ledger stay within the tasks of the runtime. A ledger that was rebuilt from routed records
knows routes of tasks that this runtime never had.
-/

namespace Mira.Interaction
open Mira Bytes Events

/-- Every input that the index has as routed is routed to a task of the runtime. -/
def RoutesKnown (index : LedgerIndex) (runtime : Runtime.MiraRuntime) : Prop :=
  ∀ inputId entry, index.find? inputId = some entry → entry.stage = .routed →
    ∃ task, entry.taskId = some task ∧ runtime.Knows task

/-- A transition that only names tasks of the runtime. -/
structure LedgerTransition.Known (transition : LedgerTransition)
    (runtime : Runtime.MiraRuntime) : Prop where
  task : ∀ task, transition.taskId = some task → runtime.Knows task
  routed : transition.stage = .routed → transition.taskId.isSome = true

section Routes
variable {ledger : EventStoreInputLedger} {runtime : Runtime.MiraRuntime}

theorem RoutesKnown.keep {index : LedgerIndex} {after : Runtime.MiraRuntime}
    (known : RoutesKnown index runtime) (kept : Runtime.KeepsTasks runtime after) :
    RoutesKnown index after := by
  intro inputId entry held routed
  obtain ⟨task, named, exists_⟩ := known inputId entry held routed
  exact ⟨task, named, kept task exists_⟩

theorem RoutesKnown.withRoom (known : RoutesKnown ledger.index runtime) (now : Int64) :
    RoutesKnown (ledger.withRoom now).index runtime := by
  simp only [EventStoreInputLedger.withRoom]
  split
  · intro inputId entry held routed
    rw [KeyedTable.find?_retain, Option.filter_eq_some_iff] at held
    exact known inputId entry held.1 routed
  · exact known

theorem admitInput_routesKnown (known : RoutesKnown ledger.index runtime)
    (store : AppendRequest → Result AppendReceipt) (envelope : InputEnvelope)
    (readings : AdmissionReadings) :
    RoutesKnown (ledger.admitInput store envelope readings).ledger.index runtime := by
  have outcome := ledger.admitInput_admission store envelope readings
  generalize ledger.admitInput store envelope readings = call at outcome ⊢
  cases outcome with
  | empty reason => exact known
  | repeated entry held => exact known
  | full reason absent => exact known.withRoom readings.now
  | failed sent reason absent answer => exact known.withRoom readings.now
  | fresh receipt absent answer =>
      intro inputId entry held routed
      rw [KeyedTable.find?_emplace] at held
      split at held
      · cases older : (ledger.withRoom readings.now).index.find? envelope.inputId with
        | some old =>
            rw [older] at held
            exact known.withRoom readings.now _ entry (older.trans held) routed
        | none =>
            rw [older] at held
            cases held
            cases routed
      · exact known.withRoom readings.now inputId entry held routed

variable {transition : LedgerTransition}

theorem edited_known {entry : LedgerEntry}
    (known : entry.stage = .routed → ∃ task, entry.taskId = some task ∧ runtime.Knows task)
    (named : transition.Known runtime) (routed : (entry.edited transition).stage = .routed) :
    ∃ task, (entry.edited transition).taskId = some task ∧ runtime.Knows task := by
  simp only [LedgerEntry.edited] at routed ⊢
  cases own : transition.taskId with
  | some task => exact ⟨task, rfl, named.task task own⟩
  | none =>
      rw [Option.none_or]
      split at routed
      · have present := named.routed routed
        rw [own] at present
        cases present
      · exact known routed

theorem advance_routesKnown (known : RoutesKnown ledger.index runtime)
    (store : AppendRequest → Result AppendReceipt) (inputId : Bytes)
    (named : transition.Known runtime) (eventId : EventId) :
    RoutesKnown (ledger.advance store inputId transition eventId).ledger.index runtime := by
  have edit {entry : LedgerEntry} (held : ledger.index.find? inputId = some entry) :
      RoutesKnown (ledger.withEntry inputId (entry.edited transition)).index runtime := by
    intro other found present routed
    rw [find?_withEntry held] at present
    split at present
    · cases present
      exact edited_known (known inputId entry held) named routed
    · exact known other found present routed
  have outcome := ledger.advance_advance store inputId transition eventId
  generalize ledger.advance store inputId transition eventId = call at outcome ⊢
  cases outcome with
  | unknown absent => exact known
  | ignored entry held late => exact known
  | silent entry held due unrecorded => exact edit held
  | failed entry held due type object recorded sent reason answer => exact edit held
  | recorded entry held due type object recorded answer => exact edit held

end Routes

variable {transition : LedgerTransition}

theorem report_known (unnamed : transition.taskId = none) (other : transition.stage ≠ .routed)
    (runtime : Runtime.MiraRuntime) : transition.Known runtime := by
  refine ⟨fun task named => ?_, fun routed => absurd routed other⟩
  rw [unnamed] at named
  cases named

theorem Verdict.transition_known {verdict : Verdict} {runtime : Runtime.MiraRuntime}
    (told : verdict.transition = some transition)
    (known : ∀ session task intent note, verdict = .routed session task intent note →
      runtime.Knows task) : transition.Known runtime := by
  cases verdict with
  | unrecorded reason => cases told
  | denied reason =>
      cases told
      exact report_known rfl (fun other => by cases other) runtime
  | clarified question note =>
      cases told
      exact report_known rfl (fun other => by cases other) runtime
  | failed reason =>
      cases told
      exact report_known rfl (fun other => by cases other) runtime
  | routed session task intent note =>
      cases told
      refine ⟨fun named same => ?_, fun _ => rfl⟩
      cases same
      exact known session task intent note rfl

/-- The stream that the coordinator starts from has no input as routed. -/
def InteractionCoordinator.Unrouted (coordinator : InteractionCoordinator) : Prop :=
  ∀ ledger, coordinator.ledger.rebuild (readLog coordinator.log)
      (coordinator.log.length + 1) = some (ledger, .ok ()) →
    ∀ inputId entry, ledger.index.find? inputId = some entry → entry.stage ≠ .routed

/-- The registry is known, and so are the routes in the ledger from the time it is rebuilt
until the coordinator stops. -/
structure Agreeing (origin coordinator : InteractionCoordinator) : Prop where
  registry : coordinator.work.RegistryKnown
  phase : coordinator.stopping = true ∨
    (coordinator.initialized = true ∧
      RoutesKnown coordinator.ledger.index coordinator.work.runtime) ∨
    (coordinator.initialized = false ∧ coordinator.ledger = origin.ledger ∧
      coordinator.log = origin.log)

/-- What the runtime has to admit: the commands of the inputs that are new. -/
def Agreeable (coordinator : InteractionCoordinator) : CoordinatorInput → Prop
  | .submitInput call =>
      coordinator.ledger.index.find? call.envelope.inputId = none → call.Agrees coordinator.work
  | _ => True

variable {origin coordinator : InteractionCoordinator}

theorem Agreeing.open_ (agreeing : Agreeing origin coordinator) (isOpen : coordinator.Open) :
    RoutesKnown coordinator.ledger.index coordinator.work.runtime := by
  rcases agreeing.phase with stopped | ⟨_, known⟩ | ⟨unready, _⟩
  · rw [isOpen.1] at stopped
    cases stopped
  · exact known
  · rw [isOpen.2] at unready
    cases unready

theorem Agreeing.onWork {work : Workspace} (agreeing : Agreeing origin coordinator)
    (tasks : ∀ key, work.taskIds key = coordinator.work.taskIds key)
    (kept : Runtime.KeepsTasks coordinator.work.runtime work.runtime) :
    Agreeing origin { coordinator with work := work } := by
  refine ⟨agreeing.registry.keep tasks kept, ?_⟩
  rcases agreeing.phase with stopped | ⟨ready, known⟩ | unready
  · exact .inl stopped
  · exact .inr (.inl ⟨ready, known.keep kept⟩)
  · exact .inr (.inr unready)

theorem rebuild_error {ledger after : EventStoreInputLedger}
    {read : MemoryEventStore.EventQuery → Answer MemoryEventStore.EventPage} {rounds : Nat}
    {reason : InteractionError} (failed : ledger.rebuild read rounds = some (after, .error reason)) :
    after = ledger := by
  simp only [EventStoreInputLedger.rebuild] at failed
  split at failed
  · cases failed
    rfl
  · obtain ⟨scanned, _, own⟩ := Option.map_eq_some_iff.mp failed
    cases scanned with
    | error reason =>
        cases own
        rfl
    | ok scan => cases own

namespace InteractionCoordinator
variable {origin coordinator : InteractionCoordinator}

theorem initializeLedger_agreeing (unrouted : origin.Unrouted)
    (agreeing : Agreeing origin coordinator) : Agreeing origin coordinator.initializeLedger.1 := by
  simp only [initializeLedger]
  split
  · exact agreeing
  · next unready =>
      have unready : coordinator.initialized = false := Bool.not_eq_true _ ▸ unready
      split
      · exact agreeing
      · next ledger reason failed =>
          refine ⟨agreeing.registry, ?_⟩
          rw [rebuild_error failed]
          exact agreeing.phase
      · next ledger rebuilt =>
          refine ⟨agreeing.registry, ?_⟩
          rcases agreeing.phase with stopped | ⟨ready, _⟩ | ⟨_, own, log⟩
          · exact .inl stopped
          · rw [unready] at ready
            cases ready
          · rw [own, log] at rebuilt
            refine .inr (.inl ⟨rfl, ?_⟩)
            intro inputId entry held routed
            exact absurd routed (unrouted ledger rebuilt inputId entry held)

theorem recordTransition_agreeing {transition : LedgerTransition}
    (agreeing : Agreeing origin coordinator)
    (named : ∀ runtime, transition.Known runtime) (inputId : Bytes) (eventId : EventId)
    (fate : AppendFate) :
    Agreeing origin (coordinator.recordTransition inputId transition eventId fate).1 := by
  simp only [recordTransition]
  split
  · exact agreeing
  · next ready =>
      have ready : coordinator.initialized = true := Bool.not_eq_false _ ▸ ready
      refine ⟨agreeing.registry, ?_⟩
      rcases agreeing.phase with stopped | ⟨_, known⟩ | ⟨unready, _⟩
      · exact .inl stopped
      · refine .inr (.inl ⟨ready, ?_⟩)
        exact advance_routesKnown known _ inputId (named _) eventId
      · rw [ready] at unready
        cases unready

theorem submitInput_agreed {call : Submission} (agreeing : Agreeing origin coordinator)
    (agreeable : Agreeable coordinator (.submitInput call)) :
    Agreeing origin (coordinator.submitInput call).1 ∧
      ∀ disposition, (coordinator.submitInput call).2.result = .ok disposition →
        disposition.stage = .routed →
        ∃ task, disposition.taskId = some task ∧
          (coordinator.submitInput call).1.work.runtime.Knows task ∧
          ∀ issued ∈ (coordinator.submitInput call).2.issued, issued.Agreed := by
  have outcome := coordinator.submitInput_submitted call
  generalize coordinator.submitInput call = answered at outcome ⊢
  have admitted (isOpen : coordinator.Open) :
      RoutesKnown (coordinator.afterAdmission call).ledger.index coordinator.work.runtime :=
    admitInput_routesKnown (agreeing.open_ isOpen) _ call.envelope call.readings
  cases outcome with
  | closed reason => exact ⟨agreeing, fun _ other => by cases other⟩
  | refused reason isOpen result =>
      refine ⟨⟨agreeing.registry, .inr (.inl ⟨isOpen.2, admitted isOpen⟩)⟩, ?_⟩
      intro disposition same routed
      cases same
      cases routed
  | repeated entry isOpen held =>
      refine ⟨⟨agreeing.registry, .inr (.inl ⟨isOpen.2, admitted isOpen⟩)⟩, ?_⟩
      intro disposition same routed
      cases same
      obtain ⟨task, named, exists_⟩ := agreeing.open_ isOpen _ entry held routed
      exact ⟨task, named, exists_, fun _ absent => absurd absent List.not_mem_nil⟩
  | fresh isOpen absent result =>
      have agreed := call.arrange_agreed coordinator.config coordinator.work agreeing.registry
        (agreeable absent)
      generalize call.arrange coordinator.config coordinator.work = outcome at agreed ⊢
      obtain ⟨work, _, issued, _⟩ := conclude_frame (coordinator.afterAdmission call) call
        (coordinator.ledger.freshEntry call.envelope call.readings) outcome
      refine ⟨⟨?_, .inr (.inl ?_)⟩, ?_⟩
      · rw [work]
        exact agreed.registry
      · have known := (admitted isOpen).keep agreed.kept
        simp only [conclude]
        cases told : outcome.verdict.transition with
        | none => exact ⟨isOpen.2, known⟩
        | some transition =>
            refine ⟨isOpen.2, advance_routesKnown known _ _ ?_ _⟩
            exact Verdict.transition_known told fun session task intent note routed =>
              (agreed.routed session task intent note routed).1
      · intro disposition same routed
        rw [conclude_result] at same
        cases same
        obtain ⟨session, task, intent, note, verdict, named⟩ := disposition_routed routed
        rw [work, issued]
        exact ⟨task, named, agreed.routed session task intent note verdict⟩

theorem step_agreeing (unrouted : origin.Unrouted) (coordinator : InteractionCoordinator)
    (input : CoordinatorInput) (agreeable : Agreeable coordinator input)
    (agreeing : Agreeing origin coordinator) : Agreeing origin (coordinator.step input).1 := by
  cases input with
  | initializeLedger => exact initializeLedger_agreeing unrouted agreeing
  | submitInput call => exact (submitInput_agreed agreeing agreeable).1
  | registerSink task sink refusals =>
      have registered : ∃ work, (coordinator.registerSink task sink refusals).1 =
            { coordinator with work := work } ∧
          work.registry = coordinator.work.registry ∧
          work.runtime = coordinator.work.runtime := by
        cases sink with
        | none => exact ⟨coordinator.work, rfl, rfl, rfl⟩
        | some sink =>
            simp only [registerSink]
            split
            · exact ⟨coordinator.work, rfl, rfl, rfl⟩
            · split <;> exact ⟨_, rfl, rfl, rfl⟩
      obtain ⟨work, same, registry, runtime⟩ := registered
      simp only [step, same]
      apply agreeing.onWork
      · intro key
        rw [Workspace.taskIds, Workspace.taskIds, Workspace.principalState,
          Workspace.principalState, registry]
      · rw [runtime]
        exact .refl _
  | unregisterSink task => exact agreeing.onWork (fun _ => rfl) (.refl _)
  | recordAnswer inputId summary eventId fate =>
      apply recordTransition_agreeing agreeing
      apply report_known rfl
      exact fun other => by cases other
  | recordSettlement inputId terminal eventId fate =>
      simp only [step, recordSettlement]
      split
      · exact agreeing
      · apply recordTransition_agreeing agreeing
        apply report_known rfl
        exact fun other => by cases other
  | recordRejection inputId reason eventId fate =>
      apply recordTransition_agreeing agreeing
      apply report_known rfl
      exact fun other => by cases other
  | principalState principal =>
      exact agreeing.onWork (taskIds_refreshed coordinator.work) (.refl _)
  | lateContext task =>
      apply agreeing.onWork (taskIds_prepareContext coordinator.work task)
      simp only [Workspace.prepareContext]
      split <;> exact .refl _
  | runtime input =>
      exact agreeing.onWork (fun _ => rfl) (Runtime.step_keepsTasks coordinator.work.runtime input)
  | shutdown =>
      simp only [step, shutdown]
      split
      · exact agreeing
      · exact ⟨agreeing.registry, .inl rfl⟩

end InteractionCoordinator

/-- In every run in which the runtime admits the commands of the new inputs, from a stream
without routed inputs: the task of every routed disposition exists in the runtime and every
command issued for it was applied or had nothing to do, and every task of a principal exists
in the runtime. -/
theorem routed_inputs_agreed (config : CoordinatorConfig) (runtime : RuntimeId)
    (log : List EventEnvelope) (inputs : List CoordinatorInput)
    (unrouted : (InteractionCoordinator.start config runtime log).Unrouted)
    (agreeable : Execution.Guarded InteractionCoordinator.step Agreeable
      (.start config runtime log) inputs) :
    let origin := InteractionCoordinator.start config runtime log
    (Execution.run InteractionCoordinator.step origin inputs).work.RegistryKnown ∧
    ∀ before call after disposition, inputs = before ++ .submitInput call :: after →
      let submitted :=
        (Execution.run InteractionCoordinator.step origin before).submitInput call
      submitted.2.result = .ok disposition → disposition.stage = .routed →
      ∃ task, disposition.taskId = some task ∧ submitted.1.work.runtime.Knows task ∧
        ∀ issued ∈ submitted.2.issued, issued.Agreed := by
  have initial : Agreeing (.start config runtime log) (.start config runtime log) := by
    refine ⟨fun key task present => ?_, .inr (.inr ⟨rfl, rfl, rfl⟩)⟩
    cases present
  have reaches (inputs : List CoordinatorInput) (guarded : Execution.Guarded
      InteractionCoordinator.step Agreeable (.start config runtime log) inputs) :=
    Execution.run_invariant InteractionCoordinator.step Agreeable
      (Agreeing (.start config runtime log))
      (fun coordinator input => InteractionCoordinator.step_agreeing unrouted coordinator input)
      (.start config runtime log) inputs initial guarded
  refine ⟨(reaches inputs agreeable).registry, ?_⟩
  intro before call after disposition whole
  rw [whole, Execution.guarded_append] at agreeable
  exact (InteractionCoordinator.submitInput_agreed (reaches before agreeable.1)
    agreeable.2.1).2 disposition

/-- A first input of a principal, answered as routed to the task that was made for it. -/
theorem first_input_agreed :
    let submitted := ready.submitInput (served firstSaying 7)
    submitted.2.placed = some (.routed, some (.filled 7)) ∧
      submitted.1.work.runtime.Knows (.filled 7) := by
  have placed : (ready.submitInput (served firstSaying 7)).2.placed =
      some (.routed, some (.filled 7)) := by
    decide +kernel
  have unrouted : (InteractionCoordinator.start {} (.filled 3) []).Unrouted := by
    intro ledger rebuilt inputId entry held
    cases rebuilt
    cases held
  have intent : ((served firstSaying 7).decision ready.work.refreshTaskStates).intent =
      .newTask := by
    decide +kernel
  have agrees : (served firstSaying 7).Agrees ready.work := by
    simp only [Submission.Agrees, intent]
    refine ⟨fun _ found turn => ?_, fun found turn => ?_⟩
    · cases turn
      decide +kernel
    · cases turn
      decide +kernel
  have guarded : Execution.Guarded InteractionCoordinator.step Agreeable
      (.start {} (.filled 3) []) (readiness ++ [.submitInput (served firstSaying 7)]) :=
    ⟨trivial, trivial, fun _ => agrees, trivial⟩
  refine ⟨placed, ?_⟩
  cases answered : (ready.submitInput (served firstSaying 7)).2.result with
  | error reason =>
      rw [SubmissionReport.placed, answered] at placed
      cases placed
  | ok disposition =>
      rw [SubmissionReport.placed, answered] at placed
      simp only [Except.toOption, Option.map_some, Option.some.injEq, Prod.mk.injEq] at placed
      obtain ⟨task, named, exists_, _⟩ := (routed_inputs_agreed {} (.filled 3) []
        _ unrouted guarded).2 readiness (served firstSaying 7) [] disposition rfl answered
        placed.1
      rw [placed.2] at named
      cases named
      exact exists_

def CommandAnswer.status : CommandAnswer → Option Runtime.SettlementStatus
  | .settled settlement => some settlement.outcome.status
  | _ => none

/-- The session of the first input is closed. The reply to it resumes the work in that session,
which the runtime refuses, and is answered as routed to a task that does not exist. -/
theorem closed_session_routed :
    let one := (ready.submitInput (served firstSaying 7)).1
    let closed := Execution.run InteractionCoordinator.step one
      [.runtime (.hostCall (.closeSession (.filled 7)) true),
        .runtime (.dispatch {} fun _ => .released)]
    let reply := closed.submitInput
      (served { secondSaying with replyTo := some firstSaying.inputId } 8)
    reply.2.placed = some (.routed, some (.filled 8)) ∧
      reply.1.work.runtime.records.tasks.contains (.filled 8) = false ∧
      (reply.1.work.taskIds (trusted 2).key).contains (.filled 8) = true ∧
      reply.2.issued.map (fun issued => issued.answer.status) = [some .failed] := by
  decide +kernel

end Mira.Interaction
