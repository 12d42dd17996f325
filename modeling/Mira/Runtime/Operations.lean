import Mira.Runtime.Lifecycle

/-!
Operations and their completions. An operation is keyed by the epoch its task had
when the operation began, and a completion takes effect only while that epoch is
current and the operation is not yet settled. Since every command that withdraws
a task advances its epoch and settlement is never undone, late and repeated
completions are inert in every interleaving.
-/

namespace Mira.Runtime
open Mira

/-- Records of operations are never dropped, and settlement is final. -/
def OperationsLater (before after : MiraRuntime) : Prop :=
  ∀ id old, before.records.operations.find? id = some old →
    ∃ new, after.records.operations.find? id = some new ∧
      (old.state = .settled → new.state = .settled)

theorem OperationsLater.of_eq {before after : MiraRuntime}
    (same : after.records.operations = before.records.operations) :
    OperationsLater before after :=
  fun _ old found => ⟨old, by rw [same]; exact found, fun settled => settled⟩

variable (command : Command) (context : ControlContext) (runtime : MiraRuntime)

theorem execute_operations (other : ∀ key, command ≠ .admitOperationCompletion key) :
    (execute command context runtime).1.records.operations = runtime.records.operations := by
  cases command with
  | openSession | submitTask =>
      simp only [execute, onRecords, openSession, submitTask]
      split <;> rfl
  | pauseTask | resumeTask | cancelTask | beginTaskRecovery =>
      simp only [execute, onRecords, simpleTaskCommand]
      split
      · rfl
      · split
        · rfl
        · split <;> rfl
  | completeTask =>
      simp only [execute, onRecords, completeTask]
      split
      · rfl
      · split
        · rfl
        · split
          · split <;> rfl
          · split <;> rfl
  | requestHumanTakeover =>
      simp only [execute, onRecords, requestHumanTakeover]
      split
      · rfl
      · split
        · rfl
        · split
          · rfl
          · split <;> rfl
  | releaseHumanTakeover =>
      simp only [execute, onRecords, releaseHumanTakeover]
      split
      · rfl
      · split
        · rfl
        · split <;> rfl
  | closeSession =>
      simp only [execute, onRecords, closeSession]
      split
      · rfl
      · split
        · rfl
        · split
          · rfl
          · split <;> rfl
  | admitOperationCompletion key => exact absurd rfl (other key)
  | shutdownRuntime => simp only [execute, shutdownRuntime_records, shutdownRecords]

/-- What a completion finds and does. Three ways out: the operation or the task is
unknown, the completion is inert, or it is applied. -/
inductive CompletionStep (key : OperationKey) (records after : Records)
    (outcome : CommandOutcome) : Prop
  | unknown (same : after = records) (failed : outcome.status = .failed)
      (missing : records.operations.find? key.operationId = none ∨
        records.tasks.find? key.taskId = none)
  | inert (operation : OperationRecord)
      (found : records.operations.find? key.operationId = some operation)
      (tasks : after.tasks = records.tasks) (noOp : outcome.status = .noOp)
      (settled : ∃ new, after.operations.find? key.operationId = some new ∧ new.state = .settled)
      (others : ∀ id, id ≠ key.operationId →
        after.operations.find? id = records.operations.find? id)
  | applied (operation : OperationRecord) (task : TaskRecord)
      (found : records.operations.find? key.operationId = some operation)
      (open_ : operation.state ≠ .settled)
      (target : records.tasks.find? key.taskId = some task)
      (current : task.snapshot.epoch = key.taskEpoch)
      (live : task.snapshot.state.isTerminal = false) (status : outcome.status = .applied)
      (settled : ∃ new, after.operations.find? key.operationId = some new ∧ new.state = .settled)
      (others : ∀ id, id ≠ key.operationId →
        after.operations.find? id = records.operations.find? id)

theorem settle_find? (operations : KeyedTable OperationId OperationRecord) (id : OperationId)
    (operation : OperationRecord) (found : operations.find? id = some operation) :
    (∃ new, (operations.update id fun old => { old with state := .settled }).find? id = some new ∧
      new.state = .settled) ∧
    ∀ other, other ≠ id →
      (operations.update id fun old => { old with state := .settled }).find? other =
        operations.find? other := by
  constructor
  · exact ⟨{ operation with state := .settled },
      by rw [KeyedTable.find?_update, if_pos rfl, found]; rfl, rfl⟩
  · intro other different
    rw [KeyedTable.find?_update, if_neg different]

theorem admitOperationCompletion_cases (key : OperationKey) (context : ControlContext)
    (records : Records) :
    CompletionStep key records (admitOperationCompletion key context records).1
      (admitOperationCompletion key context records).2.outcome := by
  unfold admitOperationCompletion
  split
  · next operation task found target =>
      obtain ⟨written, others⟩ := settle_find? records.operations key.operationId operation found
      dsimp only
      split
      · next already =>
          exact .inert operation found rfl rfl ⟨operation, found, already⟩ fun _ _ => rfl
      · next pending =>
          split
          · exact .inert operation found rfl rfl written others
          · next current =>
              obtain ⟨epoch, terminal⟩ := not_or.mp current
              refine .applied operation task found pending target (not_not.mp epoch) ?_ rfl
                written others
              revert terminal
              cases task.snapshot.state <;> decide
  · next unmatched =>
      refine .unknown rfl rfl ?_
      by_contra both
      obtain ⟨operation, task⟩ := not_or.mp both
      obtain ⟨operation, hoperation⟩ := Option.ne_none_iff_exists'.mp operation
      obtain ⟨task, htask⟩ := Option.ne_none_iff_exists'.mp task
      exact unmatched operation task hoperation htask

theorem execute_operationsLater : OperationsLater runtime (execute command context runtime).1 := by
  by_cases completion : ∃ key, command = .admitOperationCompletion key
  · obtain ⟨key, rfl⟩ := completion
    intro id old found
    cases admitOperationCompletion_cases key context runtime.records with
    | unknown same =>
        exact ⟨old, by simp only [execute, onRecords, same, found], fun settled => settled⟩
    | inert _ _ _ _ settled others | applied _ _ _ _ _ _ _ _ settled others =>
        by_cases own : id = key.operationId
        · subst own
          obtain ⟨new, hnew, final⟩ := settled
          exact ⟨new, hnew, fun _ => final⟩
        · exact ⟨old, (others id own).trans found, fun settled => settled⟩
  · exact .of_eq (execute_operations command context runtime
      fun key same => completion ⟨key, same⟩)

variable (task : TaskId) (stepId : StepId) (operation : OperationId)

theorem beginOperation_operationsLater (runtime : MiraRuntime) :
    OperationsLater runtime (beginOperation task stepId operation runtime).1 := by
  unfold beginOperation
  split
  · exact .of_eq rfl
  · split
    · exact .of_eq rfl
    · dsimp only
      split
      · exact .of_eq rfl
      · split
        · exact .of_eq rfl
        · intro id old found
          refine ⟨old, ?_, fun settled => settled⟩
          dsimp only
          rw [KeyedTable.find?_emplace]
          by_cases own : id = operation
          · rw [if_pos own, ← own, found]; rfl
          · rw [if_neg own, found]

variable (input : Input)

theorem step_operationsLater : OperationsLater runtime (step runtime input).1 := by
  cases input with
  | initializeRuntime limits executor =>
      exact .of_eq (congrArg Records.operations
        (initializeRuntime_records limits executor runtime).1)
  | hostCall command submitted =>
      exact .of_eq (congrArg Records.operations (hostCall_records command submitted runtime).1)
  | beginOperation task stepId operation =>
      exact beginOperation_operationsLater task stepId operation runtime
  | dispatch now interrupt =>
      cases queued : runtime.queue with
      | nil =>
          rw [step_dispatch_idle runtime now interrupt queued]
          exact .of_eq rfl
      | cons command rest =>
          rw [step_dispatch runtime now interrupt command rest queued]
          exact execute_operationsLater command _ (runtime.numbered rest)

variable (inputs : List Input)

theorem run_operationsLater : OperationsLater runtime (run runtime inputs) := by
  apply Execution.run_relation step (fun _ => True) OperationsLater
  · exact fun _ => .of_eq rfl
  · intro a b c first second id old found
    obtain ⟨middle, hmiddle, hfirst⟩ := first id old found
    obtain ⟨new, hnew, hsecond⟩ := second id middle hmiddle
    exact ⟨new, hnew, fun settled => hsecond (hfirst settled)⟩
  · exact fun _ _ _ => trivial
  · exact fun runtime input _ => step_operationsLater runtime input
  · trivial

def Output.appliesTo (operation : OperationId) : Output → Bool
  | .settled (.admitOperationCompletion key) settlement =>
      key.operationId = operation && settlement.outcome.status = .applied
  | _ => false

def SettledIn (runtime : MiraRuntime) (operation : OperationId) : Prop :=
  ∃ record, runtime.records.operations.find? operation = some record ∧ record.state = .settled

theorem SettledIn.step {runtime : MiraRuntime} {operation : OperationId}
    (settled : SettledIn runtime operation) (input : Input) :
    SettledIn (step runtime input).1 operation := by
  obtain ⟨record, found, final⟩ := settled
  obtain ⟨new, hnew, kept⟩ := step_operationsLater runtime input operation record found
  exact ⟨new, hnew, kept final⟩

theorem step_completion (key : OperationKey) (settlement : Settlement)
    (settled : (step runtime input).2 = .settled (.admitOperationCompletion key) settlement) :
    CompletionStep key runtime.records (step runtime input).1.records settlement.outcome := by
  cases input with
  | initializeRuntime | hostCall | beginOperation => cases settled
  | dispatch now interrupt =>
      cases queued : runtime.queue with
      | nil =>
          rw [step_dispatch_idle runtime now interrupt queued] at settled
          cases settled
      | cons command rest =>
          rw [step_dispatch runtime now interrupt command rest queued] at settled ⊢
          cases settled
          exact admitOperationCompletion_cases key _ runtime.records

theorem step_appliesTo (operation : OperationId)
    (applies : (step runtime input).2.appliesTo operation = true) :
    ¬ SettledIn runtime operation ∧ SettledIn (step runtime input).1 operation := by
  generalize houtput : (step runtime input).2 = output at applies
  unfold Output.appliesTo at applies
  split at applies
  · next key settlement =>
      simp only [Bool.and_eq_true, decide_eq_true_eq] at applies
      obtain ⟨rfl, applied⟩ := applies
      cases step_completion runtime input key settlement houtput with
      | unknown _ failed => rw [applied] at failed; cases failed
      | inert _ _ _ noOp => rw [applied] at noOp; cases noOp
      | applied record _ found pending _ _ _ _ settled =>
          refine ⟨?_, settled⟩
          rintro ⟨other, hother, final⟩
          rw [found] at hother
          cases hother
          exact pending final
  · cases applies

theorem outputs_settled (operation : OperationId) (settled : SettledIn runtime operation) :
    (Execution.outputs step runtime inputs).countP (Output.appliesTo operation) = 0 := by
  induction inputs generalizing runtime with
  | nil => rfl
  | cons input rest ih =>
      rw [Execution.outputs, List.countP_cons_of_neg, ih _ (settled.step input)]
      intro applies
      exact (step_appliesTo runtime input operation applies).1 settled

theorem outputs_applied_once (operation : OperationId) :
    (Execution.outputs step runtime inputs).countP (Output.appliesTo operation) ≤ 1 := by
  induction inputs generalizing runtime with
  | nil => exact Nat.zero_le 1
  | cons input rest ih =>
      by_cases applies : (step runtime input).2.appliesTo operation = true
      · have settled := (step_appliesTo runtime input operation applies).2
        rw [Execution.outputs, List.countP_cons_of_pos applies,
          outputs_settled _ rest operation settled]
      · rw [Execution.outputs, List.countP_cons_of_neg applies]
        exact ih (step runtime input).1

/-- A command took effect on the task in this step and withdrew it from the
autonomy its operations were started under. -/
def Withdraws (id : TaskId) (runtime : MiraRuntime) (input : Input) : Prop :=
  ∃ command record, Dispatches runtime input command ∧
    runtime.records.tasks.find? id = some record ∧
    command.withdrawsFrom record.snapshot.state = true ∧
    (step runtime input).1.records.tasks.find? id ≠ some record

theorem not_withdraws_of_epoch (id : TaskId) (old new : TaskRecord)
    (found : runtime.records.tasks.find? id = some old)
    (after : (step runtime input).1.records.tasks.find? id = some new)
    (epoch : new.snapshot.epoch = old.snapshot.epoch) : ¬ Withdraws id runtime input := by
  rintro ⟨command, record, dispatches, hrecord, withdraws, changed⟩
  rw [found] at hrecord
  cases hrecord
  rcases step_tasks runtime input with ⟨tasks, _, _⟩ | ⟨other, dispatches', _, tasks⟩
  · rw [tasks, found] at changed
    exact changed rfl
  · have same : other = command := Option.some.inj (dispatches'.2.symm.trans dispatches.2)
    subst same
    have h := tasks id
    rw [found, after] at h
    rw [after] at changed
    cases h with
    | same => exact changed rfl
    | moved _ _ move => rw [move.quiet epoch] at withdraws; cases withdraws

theorem guarded_of_epoch (id : TaskId) (formed : TasksWellFormed runtime) (old new : TaskRecord)
    (found : runtime.records.tasks.find? id = some old)
    (after : (run runtime inputs).records.tasks.find? id = some new)
    (epoch : new.snapshot.epoch = old.snapshot.epoch) :
    Execution.Guarded step (fun state input => ¬ Withdraws id state input) runtime inputs := by
  induction inputs generalizing runtime old with
  | nil => trivial
  | cons input rest ih =>
      obtain ⟨middle, hmiddle, first⟩ := step_later runtime input formed id old found
      have formed' := step_wellFormed runtime input formed
      obtain ⟨last, hlast, second⟩ := run_later _ rest formed' id middle hmiddle
      have same : last = new := Option.some.inj (hlast.symm.trans after)
      subst same
      have lower := first.epoch
      have upper := second.epoch
      refine ⟨not_withdraws_of_epoch runtime input id old middle found hmiddle (by omega), ?_⟩
      exact ih (step runtime input).1 formed' middle hmiddle after (by omega)

theorem beginOperation_key (key : OperationKey)
    (began : (step runtime (.beginOperation task stepId operation)).2 = .operation (.ok key)) :
    key.taskId = task ∧ key.operationId = operation ∧
      (∃ record,
        (step runtime (.beginOperation task stepId operation)).1.records.tasks.find? task =
          some record ∧ record.snapshot.epoch = key.taskEpoch) ∧
      ∃ record,
        (step runtime (.beginOperation task stepId operation)).1.records.operations.find?
          operation = some record := by
  simp only [step, Output.operation.injEq] at began ⊢
  unfold beginOperation at began ⊢
  split at began
  · cases began
  · next running =>
      rw [if_neg running]
      split at began
      · cases began
      · next record found =>
          dsimp only at began ⊢
          split at began
          · cases began
          · next live =>
              split at began
              · cases began
              · next admitted =>
                  cases began
                  rw [if_neg live, if_neg admitted]
                  refine ⟨rfl, rfl, ⟨record, found, rfl⟩, ?_⟩
                  dsimp only
                  rw [KeyedTable.find?_emplace, if_pos rfl]
                  exact ⟨_, rfl⟩

/-- Stale and duplicate completions are inert. Whatever happens between the start
of an operation and a delivery of its completion, the delivery is applied only to
a live task that no command withdrew meanwhile, and only if no delivery was
applied before; any other delivery is settled as a no-op and changes no task. -/
theorem stale_completions_inert (before between : List Input) (task : TaskId)
    (stepId : StepId) (operation : OperationId) (key : OperationKey) (input : Input)
    (settlement : Settlement)
    (began : (step (run {} before) (.beginOperation task stepId operation)).2 =
      .operation (.ok key))
    (delivered :
      (step (run {} (before ++ .beginOperation task stepId operation :: between)) input).2 =
        .settled (.admitOperationCompletion key) settlement) :
    let start := (step (run {} before) (.beginOperation task stepId operation)).1
    let reached := run {} (before ++ .beginOperation task stepId operation :: between)
    (Execution.outputs step {}
        (before ++ .beginOperation task stepId operation :: between ++ [input])).countP
      (Output.appliesTo operation) ≤ 1 ∧
    ((settlement.outcome.status = .applied ∧
        (∃ record, reached.records.tasks.find? task = some record ∧
          record.snapshot.state.isTerminal = false) ∧
        Execution.Guarded step (fun state input => ¬ Withdraws task state input) start between ∧
        (Execution.outputs step {}
          (before ++ .beginOperation task stepId operation :: between)).countP
            (Output.appliesTo operation) = 0) ∨
      (settlement.outcome.status = .noOp ∧
        (step reached input).1.records.tasks = reached.records.tasks)) := by
  intro start reached
  obtain ⟨rfl, rfl, ⟨first, hfirst, epoch⟩, ⟨operation, hoperation⟩⟩ :=
    beginOperation_key _ task stepId operation key began
  have once := outputs_applied_once {}
    (before ++ .beginOperation key.taskId stepId key.operationId :: between ++ [input])
    key.operationId
  refine ⟨once, ?_⟩
  have split : reached = run start between := by
    simp only [reached, start, run, Execution.run_append, Execution.run]
  have formed : TasksWellFormed start :=
    step_wellFormed _ _ (run_wellFormed {} before initial_wellFormed)
  obtain ⟨last, hlast, _⟩ := run_later start between formed key.taskId first hfirst
  obtain ⟨known, hknown, _⟩ := run_operationsLater start between _ operation hoperation
  rw [← split] at hlast hknown
  cases step_completion reached input key settlement delivered with
  | unknown _ _ missing =>
      rcases missing with missing | missing
      · rw [hknown] at missing; cases missing
      · rw [hlast] at missing; cases missing
  | inert _ _ tasks noOp => exact Or.inr ⟨noOp, tasks⟩
  | applied record target found pending htarget current live status =>
      have same : target = last := Option.some.inj (htarget.symm.trans hlast)
      subst same
      refine Or.inl ⟨status, ⟨target, htarget, live⟩, ?_, ?_⟩
      · apply guarded_of_epoch start between key.taskId formed first target hfirst
        · rw [← split]; exact hlast
        · exact current.trans epoch.symm
      · -- This delivery already accounts for the one application a run may hold.
        rw [Execution.outputs_append, List.countP_append] at once
        have this : (Execution.outputs step reached [input]).countP
            (Output.appliesTo key.operationId) = 1 := by
          change [(step reached input).2].countP _ = 1
          rw [show (step reached input).2 = _ from delivered]
          simp [Output.appliesTo, status]
        change _ + (Execution.outputs step reached [input]).countP _ ≤ 1 at once
        omega

/-- A run with one session and one idle task. -/
def submittedRun : List Input :=
  [.initializeRuntime true true,
    .hostCall (.openSession (.filled 1)) true, .dispatch {} fun _ => .released,
    .hostCall (.submitTask (.filled 1) (.filled 2) [103] []) true,
    .dispatch {} fun _ => .released]

/-- An operation on that task that completes undisturbed. -/
theorem undisturbed_completion_applied :
    let key : OperationKey := ⟨.filled 2, 0, .filled 3, .filled 4⟩
    let run := run {} (submittedRun ++
      [.beginOperation (.filled 2) (.filled 3) (.filled 4),
        .hostCall (.admitOperationCompletion key) true])
    (step run (.dispatch {} fun _ => .released)).2.appliesTo (.filled 4) = true ∧
      ∃ record, run.records.tasks.find? (.filled 2) = some record ∧
        record.snapshot.state.isTerminal = false := by
  refine ⟨by decide, ?_⟩
  have inert := stale_completions_inert submittedRun
    [.hostCall (.admitOperationCompletion ⟨.filled 2, 0, .filled 3, .filled 4⟩) true]
    (.filled 2) (.filled 3) (.filled 4) ⟨.filled 2, 0, .filled 3, .filled 4⟩
    (.dispatch {} fun _ => .released) _ rfl rfl
  rcases inert.2 with ⟨_, live, _⟩ | ⟨noOp, _⟩
  · exact live
  · exact absurd noOp (by decide)

end Mira.Runtime
