import Mira.Interaction.Submitted

/-!
No input that is handed to a task is lost, duplicated or reordered on its way to the sinks,
as long as a sink that is registered accepts all the inputs waiting for it but perhaps the
last, and nothing is submitted past an input that its sink has refused.
-/

namespace Mira.Interaction
open Mira Bytes Events

namespace Workspace

def acceptedFor (work : Workspace) (task : TaskId) : List InputEnvelope :=
  (work.accepted.filter fun delivery => delivery.taskId = task).map Delivery.envelope

/-- The inputs of a task: first those that were accepted, then those that wait. -/
def lineOf (work : Workspace) (task : TaskId) : List InputEnvelope :=
  work.acceptedFor task ++ work.waitingFor task

variable {after : Workspace}

theorem SameDeliveries.line {before : Workspace} (same : before.SameDeliveries after)
    (task : TaskId) : after.lineOf task = before.lineOf task := by
  rw [lineOf, lineOf, acceptedFor, acceptedFor, same.accepted, same.waiting]

variable {work : Workspace}

theorem acceptedFor_append {deliveries : List Delivery}
    (accepted : after.accepted = work.accepted ++ deliveries) (task : TaskId) :
    after.acceptedFor task = work.acceptedFor task ++
      (deliveries.filter fun delivery => delivery.taskId = task).map Delivery.envelope := by
  rw [acceptedFor, acceptedFor, accepted, List.filter_append, List.map_append]

theorem Taken.line {envelope : InputEnvelope} {task : TaskId}
    (taken : work.Taken envelope task after)
    (inTurn : work.sinks.contains task = true → work.waitingFor task = []) (other : TaskId) :
    after.lineOf other = work.lineOf other ++ if other = task then [envelope] else [] := by
  cases taken with
  | delivered sink after bound sinks accepted waiting =>
      have empty : work.waitingFor task = [] :=
        inTurn (by rw [KeyedTable.contains, bound, Option.isSome_some])
      rw [lineOf, lineOf, acceptedFor_append accepted, waiting]
      by_cases own : other = task
      · rw [own, if_pos rfl, empty, List.append_nil, List.append_nil]
        simp
      · have foreign : ¬ task = other := fun same => own same.symm
        rw [if_neg own, List.append_nil]
        simp [foreign]
  | queued after unbound sinks accepted waiting =>
      rw [lineOf, lineOf, acceptedFor, accepted, waiting, ← acceptedFor]
      by_cases own : other = task
      · rw [if_pos own, if_pos own, own, List.append_assoc]
      · rw [if_neg own, if_neg own, List.append_nil]

end Workspace

section Offer
variable (sink : SinkId) (task : TaskId)

variable (waiting : List InputEnvelope) (refusals : Nat → Option Bytes)

theorem offer_all (inTurn : ∀ index, index + 1 < waiting.length → refusals index = none) :
    (InteractionCoordinator.offer sink task waiting refusals).1.map Delivery.envelope ++
      ((InteractionCoordinator.offer sink task waiting refusals).2.map Prod.fst).toList =
        waiting := by
  induction waiting generalizing refusals with
  | nil => rfl
  | cons envelope rest ih =>
      rw [InteractionCoordinator.offer]
      cases held : refusals 0 with
      | none =>
          have shifted : ∀ index, index + 1 < rest.length → refusals (index + 1) = none :=
            fun index short => inTurn (index + 1) (Nat.succ_lt_succ short)
          have whole := ih (fun index => refusals (index + 1)) shifted
          simpa using whole
      | some message =>
          have last : rest = [] := by
            cases rest with
            | nil => rfl
            | cons next rest =>
                have accepted := inTurn 0 (Nat.succ_lt_succ (Nat.succ_pos _))
                rw [held] at accepted
                cases accepted
          rw [last]
          rfl

theorem offer_task :
    ∀ delivery ∈ (InteractionCoordinator.offer sink task waiting refusals).1,
      delivery.taskId = task := by
  induction waiting generalizing refusals with
  | nil => exact fun _ absent => absurd absent List.not_mem_nil
  | cons envelope rest ih =>
      rw [InteractionCoordinator.offer]
      cases refusals 0 with
      | none => exact List.forall_mem_cons.mpr ⟨rfl, ih _⟩
      | some message => exact fun _ absent => absurd absent List.not_mem_nil

end Offer

/-- The registered sink accepts what is offered to it, except perhaps the last input. -/
def AcceptsInTurn (work : Workspace) (task : TaskId) (refusals : Nat → Option Bytes) : Prop :=
  ∀ index, index + 1 < (work.waitingFor task).length → refusals index = none

theorem registerSink_line (coordinator : InteractionCoordinator) (task : TaskId)
    (sink : Option SinkId) (refusals : Nat → Option Bytes)
    (inTurn : AcceptsInTurn coordinator.work task refusals) (other : TaskId) :
    (coordinator.registerSink task sink refusals).1.work.lineOf other =
      coordinator.work.lineOf other := by
  cases sink with
  | none => rfl
  | some sink =>
      simp only [InteractionCoordinator.registerSink]
      split
      · rfl
      · have whole := offer_all sink task (coordinator.work.waitingFor task) refusals inTurn
        have own := offer_task sink task (coordinator.work.waitingFor task) refusals
        generalize InteractionCoordinator.offer sink task (coordinator.work.waitingFor task)
          refusals = offered at whole own
        -- The deliveries are all of this task, so the lines of the others keep their shape.
        have deliveries : (offered.1.filter fun delivery => delivery.taskId = other) =
            if other = task then offered.1 else [] := by
          by_cases same : other = task
          · rw [if_pos same, List.filter_eq_self, same]
            exact fun delivery present => decide_eq_true (own delivery present)
          · rw [if_neg same, List.filter_eq_nil_iff]
            intro delivery present matching
            exact same ((of_decide_eq_true matching).symm.trans (own delivery present))
        split
        · next all =>
            rw [all] at whole
            simp only [Workspace.lineOf, Workspace.acceptedFor, List.filter_append,
              List.map_append, deliveries, Workspace.waitingFor, KeyedTable.find?_erase]
            by_cases same : other = task
            · simp only [same, if_true, Option.getD_none, List.append_nil]
              rw [← Workspace.waitingFor, ← whole]
              simp
            · simp only [same, if_false, List.map_nil, List.append_nil]
        · next envelope message refused =>
            rw [refused] at whole
            simp only [Workspace.lineOf, Workspace.acceptedFor, List.filter_append,
              List.map_append, deliveries, Workspace.waitingFor, KeyedTable.find?_assign,
              KeyedTable.find?_erase]
            by_cases same : other = task
            · simp only [same, if_true, Option.getD_some]
              rw [← Workspace.waitingFor, ← whole, List.append_assoc]
              simp
            · simp only [same, if_false, List.map_nil, List.append_nil]

def Submission.target (call : Submission) (work : Workspace) : Option TaskId :=
  match (call.decision work.refreshTaskStates).intent with
  | .continueCurrent | .supplementTask => (call.decision work.refreshTaskStates).taskId
  | .newTask | .resumeTask => some call.taskId
  | _ => none

namespace Submission
variable (call : Submission) (config : CoordinatorConfig) (work : Workspace)

variable {decision : RoutingDecision} {session : SessionId} {task handed : TaskId}
  {issued : List IssuedCommand}

theorem workOn_handed
    (taken : (call.workOn config decision session task issued work).handed = some handed) :
    handed = task := by
  simp only [workOn] at taken
  split at taken
  · cases taken
  · split at taken
    · cases taken
    · exact (Option.some.inj taken).symm

theorem taskFor_ok {spec : Bytes × List Bytes} {after : Workspace}
    (answer : call.taskFor config decision session spec work = (after, issued, .ok task)) :
    task = call.taskId := by
  simp only [taskFor] at answer
  split at answer
  · cases answer
  · split at answer <;> cases answer
    rfl

theorem startWork_handed (taken : (call.startWork config decision work).handed = some handed) :
    handed = call.taskId := by
  simp only [startWork] at taken
  split at taken
  · cases taken
  · split at taken
    · cases taken
    · next after more task answer =>
        exact (call.workOn_handed config _ taken).trans (call.taskFor_ok config _ answer)

theorem arrange_handed (taken : (call.arrange config work).handed = some handed) :
    call.target work = some handed := by
  simp only [arrange] at taken
  split at taken
  · cases taken
  · simp only [target]
    split at taken
    · cases taken
    · cases taken
    · simp only [controlTask] at taken
      split at taken <;> cases taken
    · simp only [controlTask] at taken
      split at taken <;> cases taken
    · next intent =>
        rw [intent]
        split at taken
        · next task session own _ =>
            rw [call.workOn_handed config _ taken]
            exact own
        · cases taken
    · next intent =>
        rw [intent]
        split at taken
        · next task session own _ =>
            rw [call.workOn_handed config _ taken]
            exact own
        · cases taken
    · next intent =>
        rw [intent, call.startWork_handed config _ taken]
    · next intent =>
        rw [intent, call.startWork_handed config _ taken]

variable {intent : RouteIntent} {note : Bytes}

theorem workOn_routed {session' : Option SessionId} {task' : TaskId}
    (routed : (call.workOn config decision session task issued work).verdict =
      .routed session' task' intent note) :
    (call.workOn config decision session task issued work).handed = some task' := by
  simp only [workOn] at routed ⊢
  split at routed
  · cases routed
  · split at routed
    · cases routed
    · next answer =>
        cases routed
        rfl

theorem startWork_routed {session : Option SessionId}
    (routed : (call.startWork config decision work).verdict = .routed session task intent note) :
    (call.startWork config decision work).handed = some task := by
  simp only [startWork] at routed ⊢
  split at routed
  · cases routed
  · split at routed
    · cases routed
    · exact call.workOn_routed config _ routed

theorem controlTask_routed {session : Option SessionId}
    (routed : (call.controlTask decision work).verdict = .routed session task intent note) :
    ∃ settlement,
      (call.controlTask decision work).issued = [⟨.pauseTask task, .settled settlement⟩] ∨
        (call.controlTask decision work).issued = [⟨.cancelTask task, .settled settlement⟩] := by
  simp only [controlTask] at routed ⊢
  split at routed
  · cases routed
  · next target own =>
      generalize issue work.runtime (if decision.intent = .pauseTask then .pauseTask target
        else .cancelTask target) call.commanding = answered at routed ⊢
      obtain ⟨runtime, answer⟩ := answered
      cases answer with
      | refused message => cases routed
      | unsettled => cases routed
      | settled settlement =>
          cases routed
          refine ⟨settlement, ?_⟩
          split
          · exact .inl rfl
          · exact .inr rfl

theorem arrange_routed {session : Option SessionId}
    (routed : (call.arrange config work).verdict = .routed session task intent note) :
    (call.arrange config work).handed = some task ∨
      ∃ settlement,
        (call.arrange config work).issued = [⟨.pauseTask task, .settled settlement⟩] ∨
          (call.arrange config work).issued = [⟨.cancelTask task, .settled settlement⟩] := by
  simp only [arrange] at routed ⊢
  split at routed
  · cases routed
  · next allowed =>
      rw [if_neg allowed]
      split at routed
      · cases routed
      · cases routed
      · exact .inr (call.controlTask_routed _ routed)
      · exact .inr (call.controlTask_routed _ routed)
      · split at routed
        · exact .inl (call.workOn_routed config _ routed)
        · cases routed
      · split at routed
        · exact .inl (call.workOn_routed config _ routed)
        · cases routed
      · exact .inl (call.startWork_routed config _ routed)
      · exact .inl (call.startWork_routed config _ routed)

end Submission

def handedBy (task : TaskId) : CoordinatorInput × CoordinatorAnswer → List InputEnvelope
  | (.submitInput call, .submitted report) =>
      if report.handed = some task then [call.envelope] else []
  | _ => []

/-- What keeps the deliveries in order: a registered sink refuses at most the last of the
inputs waiting for it, and an input is only submitted for a task with a sink when none waits
for it. A shutdown drops the inputs that wait. -/
def InTurn (coordinator : InteractionCoordinator) : CoordinatorInput → Prop
  | .registerSink task _ refusals => AcceptsInTurn coordinator.work task refusals
  | .submitInput call => ∀ task, call.target coordinator.work = some task →
      coordinator.work.sinks.contains task = true → coordinator.work.waitingFor task = []
  | .shutdown => False
  | _ => True

namespace InteractionCoordinator
variable (coordinator : InteractionCoordinator)

variable (call : Submission)

theorem submitInput_line (inTurn : ∀ task, call.target coordinator.work = some task →
      coordinator.work.sinks.contains task = true → coordinator.work.waitingFor task = [])
    (task : TaskId) :
    (coordinator.submitInput call).1.work.lineOf task = coordinator.work.lineOf task ++
      if (coordinator.submitInput call).2.handed = some task then [call.envelope] else [] := by
  have outcome := coordinator.submitInput_submitted call
  generalize coordinator.submitInput call = answered at outcome
  cases outcome with
  | closed reason => exact (List.append_nil _).symm
  | refused reason isOpen result => exact (List.append_nil _).symm
  | repeated entry isOpen held => exact (List.append_nil _).symm
  | fresh isOpen absent result =>
      obtain ⟨work, _, _, handed⟩ := conclude_frame (coordinator.afterAdmission call) call
        (coordinator.ledger.freshEntry call.envelope call.readings)
        (call.arrange coordinator.config coordinator.work)
      rw [work, handed]
      have delivers := call.arrange_delivers coordinator.config coordinator.work
      simp only [Outcome.Delivers] at delivers
      split at delivers
      · next none_ =>
          rw [none_, if_neg (by simp), List.append_nil]
          exact delivers.line task
      · next taker some_ =>
          have own := call.arrange_handed coordinator.config coordinator.work some_
          rw [some_, delivers.line (inTurn taker own) task]
          by_cases same : task = taker
          · rw [if_pos same, if_pos (congrArg some same.symm)]
          · rw [if_neg same, if_neg fun equal => same (Option.some.inj equal).symm]

theorem step_line (task : TaskId) (input : CoordinatorInput) (inTurn : InTurn coordinator input) :
    (coordinator.step input).1.work.lineOf task =
      coordinator.work.lineOf task ++ handedBy task (input, (coordinator.step input).2) := by
  have kept {after : Workspace} (same : coordinator.work.SameDeliveries after) :
      after.lineOf task = coordinator.work.lineOf task ++ [] := by
    rw [List.append_nil]
    exact same.line task
  cases input with
  | submitInput call => exact coordinator.submitInput_line call inTurn task
  | registerSink other sink refusals =>
      exact (registerSink_line coordinator other sink refusals inTurn task).trans
        (List.append_nil _).symm
  | shutdown => exact absurd inTurn id
  | initializeLedger =>
      simp only [step, initializeLedger]
      split
      · exact kept (.refl _)
      · split <;> exact kept (.refl _)
  | unregisterSink other => exact (List.append_nil _).symm
  | recordAnswer inputId summary eventId fate =>
      simp only [step, recordAnswer, recordTransition]
      split <;> exact kept (.refl _)
  | recordSettlement inputId terminal eventId fate =>
      simp only [step, recordSettlement, recordTransition]
      split
      · exact kept (.refl _)
      · split <;> exact kept (.refl _)
  | recordRejection inputId reason eventId fate =>
      simp only [step, recordRejection, recordTransition]
      split <;> exact kept (.refl _)
  | principalState principal => exact kept ⟨rfl, rfl, fun _ => rfl⟩
  | lateContext other => exact kept (coordinator.work.prepareContext_deliveries other)
  | runtime input => exact kept ⟨rfl, rfl, fun _ => rfl⟩

theorem submitInput_routed {disposition : InputDisposition}
    (answered : (coordinator.submitInput call).2.result = .ok disposition)
    (routed : disposition.stage = .routed) (fresh : disposition.duplicate = false) :
    ∃ task, disposition.taskId = some task ∧
      ((coordinator.submitInput call).2.handed = some task ∨
        ∃ settlement,
          (coordinator.submitInput call).2.issued = [⟨.pauseTask task, .settled settlement⟩] ∨
            (coordinator.submitInput call).2.issued =
              [⟨.cancelTask task, .settled settlement⟩]) := by
  have outcome := coordinator.submitInput_submitted call
  generalize coordinator.submitInput call = after at outcome answered
  cases outcome with
  | closed reason => cases answered
  | refused reason isOpen result =>
      cases answered
      cases routed
  | repeated entry isOpen held =>
      cases answered
      cases fresh
  | fresh isOpen absent result =>
      rw [conclude_result] at answered
      cases answered
      obtain ⟨_, _, issued, handed⟩ := conclude_frame (coordinator.afterAdmission call) call
        (coordinator.ledger.freshEntry call.envelope call.readings)
        (call.arrange coordinator.config coordinator.work)
      obtain ⟨session, task, intent, note, verdict, own⟩ := disposition_routed routed
      rw [issued, handed]
      exact ⟨task, own, call.arrange_routed coordinator.config coordinator.work verdict⟩

end InteractionCoordinator

/-- At every moment of a run in turn, the inputs that a task was handed are, in the order they
were submitted and each once, those that its sinks accepted and then those that wait for it;
and every fresh input that is routed was handed to its task, unless it was a command that the
runtime settled. -/
theorem deliveries_in_order (config : CoordinatorConfig) (runtime : RuntimeId)
    (log : List EventEnvelope) (inputs : List CoordinatorInput)
    (inTurn : Execution.Guarded InteractionCoordinator.step InTurn
      (.start config runtime log) inputs) :
    let trace := Execution.trace InteractionCoordinator.step (.start config runtime log) inputs
    let reached := Execution.run InteractionCoordinator.step (.start config runtime log) inputs
    (∀ task, reached.work.acceptedFor task ++ reached.work.waitingFor task =
      trace.flatMap (handedBy task)) ∧
    ∀ call report disposition, (.submitInput call, .submitted report) ∈ trace →
      report.result = .ok disposition → disposition.stage = .routed →
      disposition.duplicate = false →
      ∃ task, disposition.taskId = some task ∧ (report.handed = some task ∨
        ∃ settlement, report.issued = [⟨.pauseTask task, .settled settlement⟩] ∨
          report.issued = [⟨.cancelTask task, .settled settlement⟩]) := by
  refine ⟨?_, ?_⟩
  · intro task
    exact Execution.run_accumulates InteractionCoordinator.step InTurn
      (fun coordinator => coordinator.work.lineOf task) (handedBy task)
      (fun coordinator input inTurn => coordinator.step_line task input inTurn) _ inputs inTurn
  · intro call report disposition present answered routed fresh
    obtain ⟨before, _, _, answer⟩ := Execution.mem_trace _ present
    cases answer
    exact InteractionCoordinator.submitInput_routed _ call answered routed fresh

def firstSaying : InputEnvelope := saying 2 "first" "tidy the desk"
def secondSaying : InputEnvelope := saying 2 "second" "and the drawer"

/-- Two inputs that wait are delivered to the sink that is registered for their task. -/
def awaitedSink : List CoordinatorInput :=
  readiness ++ [.submitInput (served firstSaying 7), .submitInput (served secondSaying 8),
    .registerSink (.filled 7) (some 1) fun _ => none]

theorem waiting_input_delivered :
    let reached := Execution.run InteractionCoordinator.step (.start {} (.filled 3) []) awaitedSink
    reached.work.acceptedFor (.filled 7) ++ reached.work.waitingFor (.filled 7) =
      [firstSaying, secondSaying] := by
  have inTurn : Execution.Guarded InteractionCoordinator.step InTurn (.start {} (.filled 3) [])
      awaitedSink := by
    refine ⟨trivial, trivial, ?_, ?_, ?_, trivial⟩
    · intro task _ bound
      cases bound
    · intro task _ bound
      cases bound
    · intro index short
      rfl
  have told : (Execution.trace InteractionCoordinator.step (.start {} (.filled 3) [])
      awaitedSink).flatMap (handedBy (.filled 7)) = [firstSaying, secondSaying] := by
    decide +kernel
  exact ((deliveries_in_order {} (.filled 3) [] awaitedSink inTurn).1 (.filled 7)).trans told

/-- Both inputs are routed to the task and wait for its sink. The sink refuses the first, and
the second is neither accepted nor waiting any more. -/
theorem refused_input_drops_next :
    let one := ready.submitInput (served firstSaying 7)
    let two := one.1.submitInput (served secondSaying 8)
    let refused := (two.1.registerSink (.filled 7) (some 1) fun index =>
      if index = 0 then some (ascii "busy") else none).1
    one.2.placed = some (.routed, some (.filled 7)) ∧
      two.2.placed = some (.routed, some (.filled 7)) ∧
      refused.work.acceptedFor (.filled 7) = [] ∧
      refused.work.waitingFor (.filled 7) = [firstSaying] := by
  decide +kernel

end Mira.Interaction
