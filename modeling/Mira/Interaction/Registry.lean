import Mira.Interaction.RouteTargets
import Mira.Interaction.Workspace
import Mira.Runtime.Lifecycle

/-!
What a command of the coordinator comes to. The runtime works through its queue in order, so
a command that waited long enough was run on the records of the moment its turn came; tasks
are never dropped on the way.
-/

namespace Mira.Runtime
open Mira

def MiraRuntime.Knows (runtime : MiraRuntime) (task : TaskId) : Prop :=
  runtime.records.tasks.contains task = true

/-- The second runtime knows every task that the first one does. -/
def KeepsTasks (before after : MiraRuntime) : Prop := ∀ task, before.Knows task → after.Knows task

variable (runtime : MiraRuntime)

theorem KeepsTasks.refl : KeepsTasks runtime runtime := fun _ known => known

theorem KeepsTasks.trans {a b c : MiraRuntime} (first : KeepsTasks a b) (second : KeepsTasks b c) :
    KeepsTasks a c :=
  fun task known => second task (first task known)

theorem TaskStep.isSome {command : Command} {sequence : Nat} {id : TaskId}
    {before after : Option TaskRecord} (step : TaskStep command sequence id before after)
    (known : before.isSome = true) : after.isSome = true := by
  cases step with
  | same record => exact known
  | created record origin idle fresh stamped => cases known
  | moved old new move => rfl

variable (input : Input)

theorem step_keepsTasks : KeepsTasks runtime (step runtime input).1 := by
  intro task known
  rcases step_tasks runtime input with ⟨tasks, _, _⟩ | ⟨command, _, _, tasks⟩
  · rw [MiraRuntime.Knows, tasks]
    exact known
  · exact (tasks task).isSome known

theorem run_keepsTasks (inputs : List Input) : KeepsTasks runtime (run runtime inputs) :=
  Execution.run_relation step (fun _ => True) KeepsTasks KeepsTasks.refl
    (fun first second => first.trans second) (fun _ _ _ => trivial)
    (fun runtime input _ => step_keepsTasks runtime input) runtime inputs trivial

variable (command : Command) (submitted : Bool)

theorem hostCall_keepsTasks (runtime : MiraRuntime) :
    KeepsTasks runtime (hostCall command submitted runtime).1 := by
  intro task known
  rw [MiraRuntime.Knows, (hostCall_records command submitted runtime).1]
  exact known

theorem transition_queue {runtime finished : MiraRuntime} {source target : RuntimeState}
    (moved : runtime.transition source target = some finished) : finished.queue = runtime.queue := by
  rw [MiraRuntime.transition_eq runtime finished source target moved]

theorem execute_queue (context : ControlContext) (runtime : MiraRuntime) :
    (execute command context runtime).1.queue = runtime.queue := by
  cases command with
  | shutdownRuntime =>
      simp only [execute, shutdownRuntime]
      split
      · next finished moved =>
          have same := transition_queue moved
          exact same
      · rfl
  | _ => rfl

theorem initializeRuntime_queue (limits executor : Bool) (runtime : MiraRuntime) :
    (initializeRuntime limits executor runtime).1.queue = runtime.queue := by
  simp only [initializeRuntime]
  split
  · rfl
  · next entered moved =>
      have same := transition_queue moved
      generalize (if limits = false then _ else _ : Option Error) = failure
      split
      · exact same
      · next finished moved' =>
          have same' := transition_queue moved'
          cases failure <;> exact same'.trans same

theorem beginOperation_queue (task : TaskId) (stepId : StepId) (operation : OperationId)
    (runtime : MiraRuntime) :
    (beginOperation task stepId operation runtime).1.queue = runtime.queue := by
  simp only [beginOperation]
  split
  · rfl
  · split
    · rfl
    · split
      · rfl
      · split <;> rfl

theorem enqueueAdmitted_queue (runtime : MiraRuntime) :
    ((enqueueAdmitted command submitted runtime).2 = .ok () ∧
        (enqueueAdmitted command submitted runtime).1.queue = runtime.queue ++ [command]) ∨
      ((∃ reason, (enqueueAdmitted command submitted runtime).2 = .error reason) ∧
        (enqueueAdmitted command submitted runtime).1.queue = runtime.queue) := by
  simp only [enqueueAdmitted]
  split
  · exact .inr ⟨⟨_, rfl⟩, rfl⟩
  · split
    · exact .inl ⟨rfl, rfl⟩
    · exact .inr ⟨⟨_, rfl⟩, rfl⟩

theorem hostCall_queue (runtime : MiraRuntime) :
    ((hostCall command submitted runtime).2 = .ok () ∧
        (hostCall command submitted runtime).1.queue = runtime.queue ++ [command]) ∨
      ((∃ reason, (hostCall command submitted runtime).2 = .error reason) ∧
        (hostCall command submitted runtime).1.queue = runtime.queue) := by
  simp only [hostCall]
  split
  · exact .inr ⟨⟨_, rfl⟩, rfl⟩
  · split
    · exact .inr ⟨⟨_, rfl⟩, rfl⟩
    · split
      · exact .inr ⟨⟨_, rfl⟩, rfl⟩
      · next stopping moved =>
          have same := transition_queue moved
          split
          · exact .inr ⟨⟨_, rfl⟩, same⟩
          · have queued := enqueueAdmitted_queue .shutdownRuntime submitted stopping
            split
            · next after accepted =>
                rw [accepted] at queued
                rcases queued with ⟨_, queue⟩ | ⟨⟨reason, other⟩, _⟩
                · refine .inl ⟨rfl, ?_⟩
                  rw [← same]
                  exact queue
                · cases other
            · next refused =>
                rcases queued with ⟨accepted, queue⟩ | ⟨reason, queue⟩
                · have whole : enqueueAdmitted .shutdownRuntime submitted stopping =
                      ((enqueueAdmitted .shutdownRuntime submitted stopping).1, .ok ()) :=
                    Prod.ext rfl accepted
                  exact absurd whole (refused _)
                · exact .inr ⟨reason, queue.trans same⟩
  · exact enqueueAdmitted_queue command submitted runtime

theorem step_queue :
    (∃ command rest now interrupt, runtime.queue = command :: rest ∧
        input = .dispatch now interrupt ∧ (step runtime input).1.queue = rest) ∨
      ((∀ command settlement, (step runtime input).2 ≠ .settled command settlement) ∧
        ∃ more, (step runtime input).1.queue = runtime.queue ++ more) := by
  cases input with
  | initializeRuntime limits executor =>
      have queue := initializeRuntime_queue limits executor runtime
      rw [← List.append_nil runtime.queue] at queue
      exact .inr ⟨fun _ _ same => Output.noConfusion same, [], queue⟩
  | hostCall command submitted =>
      refine .inr ⟨fun _ _ same => Output.noConfusion same, ?_⟩
      rcases hostCall_queue command submitted runtime with ⟨_, queue⟩ | ⟨_, queue⟩
      · exact ⟨[command], queue⟩
      · exact ⟨[], queue.trans (List.append_nil _).symm⟩
  | beginOperation task stepId operation =>
      have queue := beginOperation_queue task stepId operation runtime
      rw [← List.append_nil runtime.queue] at queue
      exact .inr ⟨fun _ _ same => Output.noConfusion same, [], queue⟩
  | dispatch now interrupt =>
      cases queued : runtime.queue with
      | nil =>
          rw [step_dispatch_idle runtime now interrupt queued]
          exact .inr ⟨fun _ _ same => Output.noConfusion same, [], queued⟩
      | cons command rest =>
          refine .inl ⟨command, rest, now, interrupt, rfl, rfl, ?_⟩
          rw [step_dispatch runtime now interrupt command rest queued]
          exact execute_queue command _ _

end Mira.Runtime

namespace Mira.Interaction
open Mira Bytes

/-- The runtime that the command with so many others ahead of it finds when its turn comes. -/
def turnOf : Runtime.MiraRuntime → Nat → List Runtime.Input → Option Runtime.MiraRuntime
  | _, _, [] => none
  | runtime, ahead, input :: rest =>
      match Runtime.step runtime input with
      | (next, .settled _ _) =>
          match ahead with
          | 0 => some runtime
          | ahead + 1 => turnOf next ahead rest
      | (next, _) => turnOf next ahead rest

variable (runtime : Runtime.MiraRuntime)

theorem awaitOutcome_keepsTasks (ahead : Nat) (inputs : List Runtime.Input) :
    Runtime.KeepsTasks runtime (awaitOutcome runtime ahead inputs).1 := by
  induction inputs generalizing runtime ahead with
  | nil => exact .refl runtime
  | cons input rest ih =>
      have first := Runtime.step_keepsTasks runtime input
      rw [awaitOutcome]
      split
      · next next command settlement stepped =>
          rw [stepped] at first
          cases ahead with
          | zero => exact first.trans (Runtime.run_keepsTasks next rest)
          | succ ahead => exact first.trans (ih next ahead)
      · next next output quiet stepped =>
          rw [stepped] at first
          exact first.trans (ih next ahead)

variable {command : Runtime.Command} {settlement : Runtime.Settlement}

theorem awaitOutcome_settled {runtime after : Runtime.MiraRuntime} {ahead : Nat}
    {inputs : List Runtime.Input} (placed : runtime.queue[ahead]? = some command)
    (settled : awaitOutcome runtime ahead inputs = (after, some settlement)) :
    ∃ found context ready, turnOf runtime ahead inputs = some found ∧
      ready.records = found.records ∧ settlement = (Runtime.execute command context ready).2 ∧
      Runtime.KeepsTasks (Runtime.execute command context ready).1 after := by
  induction inputs generalizing runtime ahead with
  | nil => cases settled
  | cons input rest ih =>
      rw [awaitOutcome] at settled
      rw [turnOf]
      rcases Runtime.step_queue runtime input with
        ⟨head, tail, now, interrupt, queued, dispatched, queue⟩ | ⟨quiet, more, queue⟩
      · rw [dispatched, Runtime.step_dispatch runtime now interrupt head tail queued] at settled queue ⊢
        cases ahead with
        | zero =>
            rw [queued] at placed
            cases placed
            cases settled
            exact ⟨runtime, ⟨runtime.controlSequence + 1, now, interrupt⟩,
              runtime.numbered tail, rfl, rfl, rfl, Runtime.run_keepsTasks _ rest⟩
        | succ ahead =>
            refine ih ?_ settled
            rw [queue]
            rwa [queued, List.getElem?_cons_succ] at placed
      · have kept : (Runtime.step runtime input).1.queue[ahead]? = some command := by
          rw [queue, List.getElem?_append_left (List.getElem?_eq_some_iff.mp placed).1]
          exact placed
        generalize Runtime.step runtime input = stepped at settled quiet kept ⊢
        obtain ⟨next, output⟩ := stepped
        cases output with
        | settled command settlement => exact absurd rfl (quiet command settlement)
        | answered result => exact ih kept settled
        | operation result => exact ih kept settled
        | idle => exact ih kept settled

/-- The runtime in which the turn of a command of the coordinator comes, if it does. -/
def dispatchedIn (runtime : Runtime.MiraRuntime) (command : Runtime.Command)
    (plan : CommandPlan) : Option Runtime.MiraRuntime :=
  let called := Runtime.hostCall command plan.submitted (Runtime.run runtime plan.before)
  match called.2 with
  | .error _ => none
  | .ok () => turnOf called.1 (called.1.queue.length - 1) plan.during

theorem issue_keepsTasks (command : Runtime.Command) (plan : CommandPlan) :
    Runtime.KeepsTasks runtime (issue runtime command plan).1 := by
  have called := (Runtime.run_keepsTasks runtime plan.before).trans
    (Runtime.hostCall_keepsTasks command plan.submitted (Runtime.run runtime plan.before))
  simp only [issue]
  split
  · next next reason answer =>
      rw [answer] at called
      exact called
  · next next answer =>
      rw [answer] at called
      have waited := awaitOutcome_keepsTasks next (next.queue.length - 1) plan.during
      split
      · next last outcome =>
          rw [outcome] at waited
          exact called.trans waited
      · next last settlement outcome =>
          rw [outcome] at waited
          exact called.trans waited

theorem issue_settled {runtime : Runtime.MiraRuntime} {plan : CommandPlan}
    (settled : (issue runtime command plan).2 = .settled settlement) :
    ∃ found context ready, dispatchedIn runtime command plan = some found ∧
      ready.records = found.records ∧ settlement = (Runtime.execute command context ready).2 ∧
      Runtime.KeepsTasks (Runtime.execute command context ready).1
        (issue runtime command plan).1 := by
  have queued := Runtime.hostCall_queue command plan.submitted (Runtime.run runtime plan.before)
  simp only [issue] at settled ⊢
  simp only [dispatchedIn]
  split at settled
  · cases settled
  · next next answer =>
      rw [answer] at queued ⊢
      rcases queued with ⟨_, queue⟩ | ⟨⟨reason, other⟩, _⟩
      · have placed : next.queue[next.queue.length - 1]? = some command := by
          rw [queue, List.length_append, List.length_singleton, Nat.add_sub_cancel,
            List.getElem?_append_right (Nat.le_refl _), Nat.sub_self]
          rfl
        split at settled
        · cases settled
        · next last outcome waited =>
            cases settled
            exact awaitOutcome_settled placed waited
      · cases other

namespace Workspace

variable (work : Workspace) (key : PrincipalKey)

theorem principalState_onPrincipal (other : PrincipalKey) (f : PrincipalState → PrincipalState) :
    (work.onPrincipal key f).principalState other =
      if other = key then f (work.principalState key) else work.principalState other := by
  simp only [principalState, onPrincipal, KeyedTable.find?_update, KeyedTable.find?_emplace]
  by_cases own : other = key
  · simp only [own, if_true, Option.map_some, Option.getD_some]
  · simp only [own, if_false]

theorem principalState_refreshed :
    work.refreshTaskStates.principalState key =
      { work.principalState key with
        tasks := (work.principalState key).tasks.map (refreshed work.runtime) } := by
  simp only [principalState, refreshTaskStates, KeyedTable.find?_mapValues]
  cases work.registry.find? key <;> rfl

def taskIds (work : Workspace) (key : PrincipalKey) : List TaskId :=
  (work.principalState key).tasks.map PrincipalTaskEntry.taskId

end Workspace

theorem refreshed_taskId (runtime : Runtime.MiraRuntime) (task : PrincipalTaskEntry) :
    (refreshed runtime task).taskId = task.taskId := by
  simp only [refreshed]
  split <;> rfl

variable (work : Workspace) (key : PrincipalKey)

theorem taskIds_refreshed : work.refreshTaskStates.taskIds key = work.taskIds key := by
  rw [Workspace.taskIds, Workspace.principalState_refreshed, List.map_map]
  refine List.map_congr_left fun task _ => ?_
  exact refreshed_taskId work.runtime task

theorem editTask_map {α : Type*} (field : PrincipalTaskEntry → α) (task : TaskId)
    {f : PrincipalTaskEntry → PrincipalTaskEntry} (same : ∀ held, field (f held) = field held)
    (tasks : List PrincipalTaskEntry) :
    (editTask task f tasks).map field = tasks.map field := by
  induction tasks with
  | nil => rfl
  | cons held rest ih =>
      rw [editTask]
      split
      · rw [List.map_cons, List.map_cons, same]
      · rw [List.map_cons, List.map_cons, ih]

theorem taskIds_onPrincipal (other : PrincipalKey) {f : PrincipalState → PrincipalState}
    (same : ∀ entry, (f entry).tasks.map PrincipalTaskEntry.taskId =
      entry.tasks.map PrincipalTaskEntry.taskId) :
    (work.onPrincipal key f).taskIds other = work.taskIds other := by
  rw [Workspace.taskIds, Workspace.principalState_onPrincipal]
  split
  · next own => rw [same, own, Workspace.taskIds]
  · rfl

theorem taskIds_prepareContext (task : TaskId) (key : PrincipalKey) :
    (work.prepareContext task).taskIds key = work.taskIds key := by
  simp only [Workspace.prepareContext]
  split
  · rfl
  · apply taskIds_onPrincipal
    intro entry
    apply editTask_map
    exact fun _ => rfl

theorem taskIds_written (preparation : Preparation) (task : TaskId) (work : Workspace)
    (key : PrincipalKey) : (preparation.written task work).taskIds key = work.taskIds key := by
  simp only [Preparation.written]
  split
  · exact taskIds_prepareContext work task key
  · rfl

namespace Submission
variable (call : Submission) (config : CoordinatorConfig) (decision : RoutingDecision)
  (work : Workspace)

theorem taskIds_attachInput (intent : RouteIntent) (task : TaskId) (key : PrincipalKey) :
    (call.attachInput intent task work).taskIds key = work.taskIds key := by
  apply taskIds_onPrincipal
  intro entry
  apply editTask_map
  exact fun _ => rfl

theorem deliver_frame (task : TaskId) :
    (call.deliver config task work).1.registry = work.registry ∧
      (call.deliver config task work).1.runtime = work.runtime := by
  simp only [deliver]
  split
  · split <;> exact ⟨rfl, rfl⟩
  · split <;> exact ⟨rfl, rfl⟩

theorem workOn_frame (session : SessionId) (task : TaskId) (issued : List IssuedCommand) :
    (∀ key, (call.workOn config decision session task issued work).work.taskIds key =
        work.taskIds key) ∧
      (call.workOn config decision session task issued work).work.runtime = work.runtime ∧
      (call.workOn config decision session task issued work).issued = issued := by
  have attached := call.taskIds_attachInput work decision.intent task
  simp only [workOn]
  split
  · exact ⟨attached, rfl, rfl⟩
  · have runtime : (call.preparation.written task
        (call.attachInput decision.intent task work)).runtime = work.runtime := by
      simp only [Preparation.written, Workspace.prepareContext]
      split
      · split <;> rfl
      · rfl
    have written := taskIds_written call.preparation task
      (call.attachInput decision.intent task work)
    have frame := call.deliver_frame config
      (call.preparation.written task (call.attachInput decision.intent task work)) task
    split
    · next after reason answer =>
        rw [answer] at frame
        refine ⟨fun key => ?_, frame.2.trans runtime, rfl⟩
        rw [Workspace.taskIds, Workspace.principalState, frame.1, ← Workspace.principalState,
          ← Workspace.taskIds, written, attached]
    · next after note answer =>
        rw [answer] at frame
        refine ⟨fun key => ?_, frame.2.trans runtime, rfl⟩
        rw [Workspace.taskIds, Workspace.principalState, frame.1, ← Workspace.principalState,
          ← Workspace.taskIds, written, attached]

end Submission

/-- A decision that names a task names its session as well. -/
def RoutingDecision.Owned (decision : RoutingDecision) (state : PrincipalState) : Prop :=
  decision.taskId = none ∧ decision.sessionId = none ∨
    ∃ task ∈ state.tasks, decision.taskId = some task.taskId ∧
      decision.sessionId = some task.sessionId

theorem decideRoute_owned (envelope : InputEnvelope) (state : PrincipalState)
    (suggestion : Option RouteSuggestion) :
    (decideRoute envelope state suggestion).Owned state := by
  have aimed := decideRoute_aimed envelope state suggestion
  generalize decideRoute envelope state suggestion = decision at aimed
  have owned {terminal : Bool} (target : decision.Targets state terminal) :
      decision.Owned state := by
    obtain ⟨task, held, _, session, id⟩ := target
    exact .inr ⟨task, held, id, session⟩
  rw [RoutingDecision.Aimed] at aimed
  cases intent : decision.intent with
  | newTask | reject =>
      rw [intent] at aimed
      exact .inl ⟨aimed.2, aimed.1⟩
  | clarify =>
      rw [intent] at aimed
      exact .inl ⟨aimed.1.2, aimed.1.1⟩
  | _ =>
      rw [intent] at aimed
      exact owned aimed

theorem decision_task {call : Submission} {work : Workspace} {task : TaskId}
    (named : (call.decision work).taskId = some task) : task ∈ work.taskIds call.key := by
  rcases decideRoute_owned call.envelope (work.principalState call.key)
    (call.suggest (work.principalState call.key)) with ⟨none_, _⟩ | ⟨held, present, own, _⟩
  · rw [Submission.decision, none_] at named
    cases named
  · rw [Submission.decision, own] at named
    rw [← Option.some.inj named]
    exact List.mem_map_of_mem present

end Mira.Interaction
