import Mira.Interaction.Delivery
import Mira.Interaction.Registry

/-!
Routed means that the runtime agreed. The coordinator looks at whether a command was settled
in time and not at how, so this holds in the runs in which the runtime admits every command
of the coordinator when its turn comes, and for the inputs that the coordinator routed itself.
-/

namespace Mira.Runtime
open Mira

def simpleAdmits (target state : TaskState) : Bool :=
  (state.isTerminal && state = target) || (simplePreviousState state target).isSome

/-- Whether the records let a command of the coordinator take effect. -/
def admissible (records : Records) : Command → Bool
  | .openSession id => !records.sessions.contains id
  | .submitTask session _ _ _ =>
      (records.sessions.find? session).map SessionRecord.state = some .autonomous
  | .pauseTask id =>
      (records.tasks.find? id).any fun record => simpleAdmits .paused record.snapshot.state
  | .cancelTask id =>
      (records.tasks.find? id).any fun record => simpleAdmits .cancelled record.snapshot.state
  | _ => false

def Settlement.Agreed (settlement : Settlement) : Prop :=
  settlement.outcome.status = .applied ∨ settlement.outcome.status = .noOp

variable {context : ControlContext}

theorem simpleTaskCommand_agreed {kind : CommandKind} {id : TaskId} {target : TaskState}
    {records : Records} (admits : ((records.tasks.find? id).any fun record =>
      simpleAdmits target record.snapshot.state) = true) :
    (simpleTaskCommand kind id target context records).2.Agreed := by
  cases held : records.tasks.find? id with
  | none =>
      rw [held] at admits
      cases admits
  | some record =>
      rw [held, Option.any_some, simpleAdmits, Bool.or_eq_true] at admits
      simp only [simpleTaskCommand, held]
      split
      · exact .inr rfl
      · next other =>
          cases previous : simplePreviousState record.snapshot.state target with
          | none =>
              rw [previous] at admits
              rcases admits with same | absent
              · exact absurd same other
              · cases absent
          | some state => exact .inl rfl

variable {runtime : MiraRuntime}

theorem execute_agreed {command : Command} (admits : admissible runtime.records command = true) :
    (execute command context runtime).2.Agreed := by
  cases command with
  | openSession id =>
      have unused : ¬ runtime.records.sessions.contains id = true := by
        simpa [admissible] using admits
      simp only [execute, onRecords, openSession, if_neg unused]
      exact .inl rfl
  | submitTask session id goal constraints =>
      have autonomous := of_decide_eq_true admits
      simp only [execute, onRecords, submitTask, autonomous, ne_eq, not_true_eq_false, if_false]
      exact .inl rfl
  | pauseTask id => exact simpleTaskCommand_agreed admits
  | cancelTask id => exact simpleTaskCommand_agreed admits
  | _ => cases admits

theorem execute_submitTask_knows {session : SessionId} {id : TaskId} {goal : Bytes}
    {constraints : List Bytes}
    (admits : admissible runtime.records (.submitTask session id goal constraints) = true) :
    (execute (.submitTask session id goal constraints) context runtime).1.Knows id := by
  have autonomous := of_decide_eq_true admits
  simp only [MiraRuntime.Knows, execute, onRecords, submitTask, autonomous, ne_eq,
    not_true_eq_false, if_false, KeyedTable.contains, KeyedTable.find?_emplace, if_true]
  rfl

end Mira.Runtime

namespace Mira.Interaction
open Mira Bytes Events

/-- The runtime admits the command when its turn comes. -/
def Admits (runtime : Runtime.MiraRuntime) (command : Runtime.Command) (plan : CommandPlan) :
    Prop :=
  ∀ found ∈ dispatchedIn runtime command plan, Runtime.admissible found.records command = true

def IssuedCommand.Agreed (issued : IssuedCommand) : Prop :=
  ∃ settlement, issued.answer = .settled settlement ∧ settlement.Agreed

theorem CommandAnswer.settled_of_failure {answer : CommandAnswer} (fine : answer.failure = none) :
    ∃ settlement, answer = .settled settlement := by
  cases answer with
  | refused message => cases fine
  | unsettled => cases fine
  | settled settlement => exact ⟨settlement, rfl⟩

variable {runtime : Runtime.MiraRuntime} {plan : CommandPlan}

theorem issue_agreed {command : Runtime.Command} (admits : Admits runtime command plan)
    (fine : (issue runtime command plan).2.failure = none) :
    IssuedCommand.Agreed ⟨command, (issue runtime command plan).2⟩ := by
  obtain ⟨settlement, settled⟩ := CommandAnswer.settled_of_failure fine
  obtain ⟨found, context, ready, turn, records, own, _⟩ := issue_settled settled
  refine ⟨settlement, settled, ?_⟩
  rw [own]
  apply Runtime.execute_agreed
  rw [records]
  exact admits found turn

theorem issue_submitTask_knows {session : SessionId} {task : TaskId} {goal : Bytes}
    {constraints : List Bytes}
    (admits : Admits runtime (.submitTask session task goal constraints) plan)
    (fine : (issue runtime (.submitTask session task goal constraints) plan).2.failure = none) :
    (issue runtime (.submitTask session task goal constraints) plan).1.Knows task := by
  obtain ⟨settlement, settled⟩ := CommandAnswer.settled_of_failure fine
  obtain ⟨found, context, ready, turn, records, _, kept⟩ := issue_settled settled
  apply kept
  apply Runtime.execute_submitTask_knows
  rw [records]
  exact admits found turn

/-- Every task of a principal exists in the runtime. -/
def Workspace.RegistryKnown (work : Workspace) : Prop :=
  ∀ key, ∀ task ∈ work.taskIds key, work.runtime.Knows task

variable {before : Workspace}

theorem Workspace.RegistryKnown.keep {after : Workspace} (known : before.RegistryKnown)
    (tasks : ∀ key, after.taskIds key = before.taskIds key)
    (kept : Runtime.KeepsTasks before.runtime after.runtime) : after.RegistryKnown := by
  intro key task present
  rw [tasks] at present
  exact kept task (known key task present)

/-- The work on an input kept the registry known, and was only routed if the runtime
agreed. -/
structure Outcome.Agreed (outcome : Outcome) (before : Workspace) : Prop where
  kept : Runtime.KeepsTasks before.runtime outcome.work.runtime
  registry : outcome.work.RegistryKnown
  routed : ∀ session task intent note, outcome.verdict = .routed session task intent note →
    outcome.work.runtime.Knows task ∧ ∀ issued ∈ outcome.issued, issued.Agreed

theorem Outcome.Agreed.unrouted {outcome : Outcome}
    (kept : Runtime.KeepsTasks before.runtime outcome.work.runtime)
    (registry : outcome.work.RegistryKnown)
    (other : ∀ session task intent note, outcome.verdict ≠ .routed session task intent note) :
    outcome.Agreed before :=
  ⟨kept, registry, fun session task intent note same =>
    absurd same (other session task intent note)⟩

namespace Submission
variable (call : Submission) (config : CoordinatorConfig) (decision : RoutingDecision)
  (work : Workspace)

/-- The runtime that new work is submitted to. -/
def runtimeFor : Runtime.MiraRuntime :=
  match decision.sessionId with
  | some _ => work.runtime
  | none => (issue work.runtime (.openSession call.sessionId) call.opening).1

/-- The runtime admits the commands of the submission. -/
def Agrees : Prop :=
  let work := work.refreshTaskStates
  let decision := call.decision work
  match decision.intent with
  | .pauseTask => ∀ task ∈ decision.taskId, Admits work.runtime (.pauseTask task) call.commanding
  | .cancelTask => ∀ task ∈ decision.taskId, Admits work.runtime (.cancelTask task) call.commanding
  | .newTask | .resumeTask =>
      let spec := call.specFor decision (work.principalState call.key)
      (decision.sessionId = none →
        Admits work.runtime (.openSession call.sessionId) call.opening) ∧
      Admits (call.runtimeFor decision work)
        (.submitTask (decision.sessionId.getD call.sessionId) call.taskId spec.1 spec.2)
        call.commanding
  | _ => True

variable {session : SessionId}

theorem workOn_agreed {task : TaskId} {issued : List IssuedCommand} (known : work.RegistryKnown)
    (exists_ : work.runtime.Knows task) (agreed : ∀ command ∈ issued, command.Agreed) :
    (call.workOn config decision session task issued work).Agreed work := by
  obtain ⟨tasks, runtime, same⟩ := call.workOn_frame config decision work session task issued
  have kept : Runtime.KeepsTasks work.runtime
      (call.workOn config decision session task issued work).work.runtime := by
    rw [runtime]
    exact .refl _
  refine ⟨kept, known.keep tasks kept, ?_⟩
  intro session' task' intent note routed
  have handed := call.workOn_routed config work routed
  rw [call.workOn_handed config work handed, same]
  exact ⟨kept task exists_, agreed⟩

theorem controlTask_agreed (known : work.RegistryKnown)
    (own : ∀ task ∈ decision.taskId, task ∈ work.taskIds call.key)
    (admits : ∀ task ∈ decision.taskId, Admits work.runtime
      (if decision.intent = .pauseTask then .pauseTask task else .cancelTask task)
      call.commanding) :
    (call.controlTask decision work).Agreed work := by
  simp only [controlTask]
  split
  · exact .unrouted (.refl _) known fun _ _ _ _ same => by cases same
  · next task named =>
      have kept := issue_keepsTasks work.runtime
        (if decision.intent = .pauseTask then .pauseTask task else .cancelTask task)
        call.commanding
      have agreed := @issue_agreed _ _ _ (admits task named)
      refine ⟨kept, known.keep (fun _ => rfl) kept, ?_⟩
      intro session task' intent note routed
      generalize issue work.runtime (if decision.intent = .pauseTask then .pauseTask task
        else .cancelTask task) call.commanding = answered at kept agreed routed ⊢
      cases fine : answered.2.failure with
      | some reason =>
          simp only [fine] at routed
          cases routed
      | none =>
          simp only [fine] at routed
          cases routed
          refine ⟨kept task (known call.key task (own task named)), ?_⟩
          intro issued present
          rw [List.mem_singleton.mp present]
          exact agreed fine

theorem sessionFor_agreed
    (admits : decision.sessionId = none →
      Admits work.runtime (.openSession call.sessionId) call.opening) :
    let made := call.sessionFor config decision work
    Runtime.KeepsTasks work.runtime made.1.runtime ∧
      (∀ key, made.1.taskIds key = work.taskIds key) ∧
      ∀ session, made.2.2 = .ok session → session = decision.sessionId.getD call.sessionId ∧
        made.1.runtime = call.runtimeFor decision work ∧ ∀ issued ∈ made.2.1, issued.Agreed := by
  have unopened (reason : InteractionError) :
      Runtime.KeepsTasks work.runtime work.runtime ∧
        (∀ key, work.taskIds key = work.taskIds key) ∧
        ∀ session, Except.error reason = .ok session →
          session = decision.sessionId.getD call.sessionId ∧
          work.runtime = call.runtimeFor decision work ∧
          ∀ issued ∈ ([] : List IssuedCommand), issued.Agreed :=
    ⟨.refl _, fun _ => rfl, fun _ other => by cases other⟩
  cases named : decision.sessionId with
  | some session =>
      simp only [sessionFor, runtimeFor, named]
      refine ⟨.refl _, fun _ => trivial, fun found same => ?_⟩
      cases same
      exact ⟨rfl, trivial, fun _ absent => absurd absent List.not_mem_nil⟩
  | none =>
      rw [named] at unopened
      have kept := issue_keepsTasks work.runtime (.openSession call.sessionId) call.opening
      have agreed := @issue_agreed _ _ _ (admits named)
      simp only [sessionFor, named]
      split
      · exact unopened _
      · split
        · exact unopened _
        · exact unopened _
        · exact unopened _
        · simp only [runtimeFor, named]
          split
          · exact ⟨kept, fun _ => rfl, fun _ other => by cases other⟩
          · next fine =>
              refine ⟨kept, fun key => ?_, fun session same => ?_⟩
              · apply taskIds_onPrincipal
                exact fun _ => rfl
              · cases same
                refine ⟨rfl, rfl, fun issued present => ?_⟩
                rw [List.mem_singleton.mp present]
                exact agreed fine

theorem taskFor_agreed {spec : Bytes × List Bytes} (known : work.RegistryKnown)
    (admits : Admits work.runtime (.submitTask session call.taskId spec.1 spec.2)
      call.commanding) :
    let made := call.taskFor config decision session spec work
    Runtime.KeepsTasks work.runtime made.1.runtime ∧ made.1.RegistryKnown ∧
      ∀ task, made.2.2 = .ok task →
        made.1.runtime.Knows task ∧ ∀ issued ∈ made.2.1, issued.Agreed := by
  have kept := issue_keepsTasks work.runtime
    (.submitTask session call.taskId spec.1 spec.2) call.commanding
  have agreed := @issue_agreed _ _ _ admits
  have exists_ := issue_submitTask_knows admits
  simp only [taskFor]
  split
  · exact ⟨kept, known.keep (fun _ => rfl) kept, fun _ other => by cases other⟩
  · next fine =>
      split
      · refine ⟨kept, known.keep (fun key => ?_) kept, fun _ other => by cases other⟩
        apply taskIds_onPrincipal
        exact fun _ => rfl
      · refine ⟨kept, ?_, fun task same => ?_⟩
        · intro key task present
          rw [Workspace.taskIds, Workspace.principalState_onPrincipal] at present
          split at present
          · rw [List.map_append, List.mem_append] at present
            rcases present with old | new
            · exact kept task (known call.key task old)
            · rw [List.map_singleton, List.mem_singleton] at new
              rw [new]
              exact exists_ fine
          · exact kept task (known key task present)
        · cases same
          refine ⟨exists_ fine, fun issued present => ?_⟩
          rw [List.mem_singleton.mp present]
          exact agreed fine

theorem startWork_agreed (known : work.RegistryKnown)
    (opening : decision.sessionId = none →
      Admits work.runtime (.openSession call.sessionId) call.opening)
    (submitting : Admits (call.runtimeFor decision work)
      (.submitTask (decision.sessionId.getD call.sessionId) call.taskId
        (call.specFor decision (work.principalState call.key)).1
        (call.specFor decision (work.principalState call.key)).2) call.commanding) :
    (call.startWork config decision work).Agreed work := by
  have opened := call.sessionFor_agreed config decision work opening
  simp only [startWork]
  generalize call.sessionFor config decision work = made at opened ⊢
  obtain ⟨after, issued, answer⟩ := made
  obtain ⟨kept, tasks, ready⟩ := opened
  have known' : after.RegistryKnown := known.keep tasks kept
  cases answer with
  | error reason => exact .unrouted kept known' fun _ _ _ _ same => by cases same
  | ok session =>
      obtain ⟨own, runtime, agreed⟩ := ready session rfl
      rw [← own, ← runtime] at submitting
      have submitted := call.taskFor_agreed config decision after known' submitting
      simp only [] at submitted ⊢
      generalize call.taskFor config decision session
        (call.specFor decision (work.principalState call.key)) after = made at submitted ⊢
      obtain ⟨last, more, answer⟩ := made
      obtain ⟨kept', known'', placed⟩ := submitted
      cases answer with
      | error reason =>
          exact .unrouted (kept.trans kept') known'' fun _ _ _ _ same => by cases same
      | ok task =>
          obtain ⟨exists_, agreed'⟩ := placed task rfl
          have both : ∀ command ∈ issued ++ more, command.Agreed := by
            intro command present
            rcases List.mem_append.mp present with old | new
            · exact agreed command old
            · exact agreed' command new
          have done : (call.workOn config decision session task (issued ++ more) last).Agreed last :=
            call.workOn_agreed config decision last known'' exists_ both
          exact ⟨(kept.trans kept').trans done.kept, done.registry, done.routed⟩

theorem arrange_agreed (known : work.RegistryKnown) (agrees : call.Agrees work) :
    (call.arrange config work).Agreed work := by
  have known' : work.refreshTaskStates.RegistryKnown :=
    known.keep (taskIds_refreshed work) (.refl _)
  have own : ∀ task ∈ (call.decision work.refreshTaskStates).taskId,
      task ∈ work.refreshTaskStates.taskIds call.key := fun task named => decision_task named
  simp only [Agrees] at agrees
  simp only [arrange]
  split
  · exact .unrouted (.refl _) known fun _ _ _ _ same => by cases same
  · suffices later : Outcome.Agreed _ work.refreshTaskStates from
      ⟨later.kept, later.registry, later.routed⟩
    split
    · exact .unrouted (.refl _) known' fun _ _ _ _ same => by cases same
    · exact .unrouted (.refl _) known' fun _ _ _ _ same => by cases same
    · next intent =>
        rw [intent] at agrees
        refine call.controlTask_agreed _ _ known' own ?_
        rw [intent]
        exact agrees
    · next intent =>
        rw [intent] at agrees
        refine call.controlTask_agreed _ _ known' own ?_
        rw [intent]
        exact agrees
    · split
      · next named _ =>
          exact call.workOn_agreed config _ _ known' (known' call.key _ (own _ named))
            fun _ absent => absurd absent List.not_mem_nil
      · exact .unrouted (.refl _) known' fun _ _ _ _ same => by cases same
    · split
      · next named _ =>
          exact call.workOn_agreed config _ _ known' (known' call.key _ (own _ named))
            fun _ absent => absurd absent List.not_mem_nil
      · exact .unrouted (.refl _) known' fun _ _ _ _ same => by cases same
    · next intent =>
        rw [intent] at agrees
        exact call.startWork_agreed config _ _ known' agrees.1 agrees.2
    · next intent =>
        rw [intent] at agrees
        exact call.startWork_agreed config _ _ known' agrees.1 agrees.2

end Submission

end Mira.Interaction
