import Mira.Runtime.TaskEffects

/-!
The task lifecycle over whole runs: terminal states absorb, epochs and control
sequences never decrease, the recorded outcome agrees with the state, and every
change is a path of the transition table. All of it follows from `TaskStep`; the
runs quantify over every interleaving of host calls, dispatches and operations.
-/

namespace Mira.Runtime
open Mira

variable (command : Command) (context : ControlContext) (runtime : MiraRuntime)

theorem execute_controlSequence :
    (execute command context runtime).1.controlSequence = runtime.controlSequence := by
  cases command with
  | shutdownRuntime =>
      simp only [execute, shutdownRuntime]
      split
      · next finished h => rw [MiraRuntime.transition_eq _ finished _ _ h]
      · rfl
  | _ => rfl

theorem hostCall_records (submitted : Bool) (runtime : MiraRuntime) :
    (hostCall command submitted runtime).1.records = runtime.records ∧
      (hostCall command submitted runtime).1.controlSequence = runtime.controlSequence := by
  have admitted (other : Command) (base : MiraRuntime) :
      (enqueueAdmitted other submitted base).1.records = base.records ∧
        (enqueueAdmitted other submitted base).1.controlSequence = base.controlSequence := by
    unfold enqueueAdmitted
    split
    · exact ⟨rfl, rfl⟩
    · split <;> exact ⟨rfl, rfl⟩
  unfold hostCall
  split
  · exact ⟨rfl, rfl⟩
  · split
    · exact ⟨rfl, rfl⟩
    · split
      · exact ⟨rfl, rfl⟩
      · next stopping h =>
          have same := MiraRuntime.transition_eq _ stopping _ _ h
          have queued := admitted .shutdownRuntime stopping
          rw [same] at queued ⊢
          split
          · exact ⟨rfl, rfl⟩
          · split
            · next outcome => rw [outcome] at queued; exact queued
            · exact queued
  · exact admitted command runtime

theorem initializeRuntime_records (limits executor : Bool) (runtime : MiraRuntime) :
    (initializeRuntime limits executor runtime).1.records = runtime.records ∧
      (initializeRuntime limits executor runtime).1.controlSequence =
        runtime.controlSequence := by
  unfold initializeRuntime
  split
  · exact ⟨rfl, rfl⟩
  · next entered h =>
      have same := MiraRuntime.transition_eq _ entered _ _ h
      dsimp only
      generalize (if limits = false then _ else _ : Option Error) = failure
      split
      · rw [same]; exact ⟨rfl, rfl⟩
      · next finished h' =>
          have same' := MiraRuntime.transition_eq _ finished _ _ h'
          cases failure <;> rw [same', same] <;> exact ⟨rfl, rfl⟩

theorem beginOperation_tasks (task : TaskId) (stepId : StepId) (operation : OperationId)
    (runtime : MiraRuntime) :
    (beginOperation task stepId operation runtime).1.records.tasks = runtime.records.tasks ∧
      (beginOperation task stepId operation runtime).1.records.sessions =
        runtime.records.sessions ∧
      (beginOperation task stepId operation runtime).1.controlSequence =
        runtime.controlSequence := by
  unfold beginOperation
  split
  · exact ⟨rfl, rfl, rfl⟩
  · split
    · exact ⟨rfl, rfl, rfl⟩
    · dsimp only
      split
      · exact ⟨rfl, rfl, rfl⟩
      · split <;> exact ⟨rfl, rfl, rfl⟩

variable (input : Input)

theorem step_tasks :
    ((step runtime input).1.records.tasks = runtime.records.tasks ∧
        (step runtime input).1.records.sessions = runtime.records.sessions ∧
        (step runtime input).1.controlSequence = runtime.controlSequence) ∨
      ∃ command, Dispatches runtime input command ∧
        (step runtime input).1.controlSequence = runtime.controlSequence + 1 ∧
        ∀ id, TaskStep command (runtime.controlSequence + 1) id (runtime.records.tasks.find? id)
          ((step runtime input).1.records.tasks.find? id) := by
  cases input with
  | initializeRuntime limits executor =>
      have h := initializeRuntime_records limits executor runtime
      exact Or.inl ⟨congrArg Records.tasks h.1, congrArg Records.sessions h.1, h.2⟩
  | hostCall command submitted =>
      have h := hostCall_records command submitted runtime
      exact Or.inl ⟨congrArg Records.tasks h.1, congrArg Records.sessions h.1, h.2⟩
  | beginOperation task stepId operation =>
      exact Or.inl (beginOperation_tasks task stepId operation runtime)
  | dispatch now interrupt =>
      cases queued : runtime.queue with
      | nil =>
          rw [step_dispatch_idle runtime now interrupt queued]
          exact Or.inl ⟨rfl, rfl, rfl⟩
      | cons command rest =>
          rw [step_dispatch runtime now interrupt command rest queued]
          refine Or.inr ⟨command, ⟨⟨now, interrupt, rfl⟩, by simp [queued]⟩, ?_, ?_⟩
          · exact execute_controlSequence command _ _
          · exact execute_taskStep command ⟨runtime.controlSequence + 1, now, interrupt⟩
              (runtime.numbered rest)

/-- What every reached state satisfies, task by task. -/
structure TaskWellFormed (sequence : Nat) (record : TaskRecord) : Prop where
  outcome : OutcomeAgrees record.snapshot
  rest : atRest record.snapshot.state = true
  stamped : record.snapshot.controlSequence ≤ sequence

def TasksWellFormed (runtime : MiraRuntime) : Prop :=
  ∀ id record, runtime.records.tasks.find? id = some record →
    TaskWellFormed runtime.controlSequence record

theorem TaskStep.wellFormed {command : Command} {sequence : Nat} {id : TaskId}
    {old : Option TaskRecord} {new : TaskRecord}
    (h : TaskStep command (sequence + 1) id old (some new))
    (before : ∀ record, old = some record → TaskWellFormed sequence record) :
    TaskWellFormed (sequence + 1) new := by
  cases h with
  | same =>
      have same := before new rfl
      exact ⟨same.outcome, same.rest, Nat.le_succ_of_le same.stamped⟩
  | created _ _ idle fresh stamped =>
      refine ⟨?_, ?_, Nat.le_of_eq stamped⟩
      · simp [OutcomeAgrees, fresh, idle, TaskState.isTerminal]
      · rw [idle]; rfl
  | moved old _ move =>
      have was := before old rfl
      exact ⟨move.outcome was.outcome, move.rest was.rest, Nat.le_of_eq move.stamped⟩

theorem step_wellFormed (before : TasksWellFormed runtime) :
    TasksWellFormed (step runtime input).1 := by
  intro id record found
  rcases step_tasks runtime input with ⟨tasks, _, sequence⟩ | ⟨command, _, sequence, tasks⟩
  · rw [tasks] at found
    rw [sequence]
    exact before id record found
  · rw [sequence]
    have h := tasks id
    rw [found] at h
    exact h.wellFormed fun old hold => before id old hold

variable (inputs : List Input)

theorem run_wellFormed (before : TasksWellFormed runtime) : TasksWellFormed (run runtime inputs) :=
  Execution.run_invariant_always step TasksWellFormed step_wellFormed runtime inputs before

theorem initial_wellFormed : TasksWellFormed {} := by
  intro id record found
  simp at found

/-- How a record may differ between an earlier and a later state of one run. -/
structure Later (old new : TaskSnapshot) : Prop where
  absorbed : old.state.isTerminal = true →
    new.state = old.state ∧ new.epoch = old.epoch ∧ new.terminalOutcome = old.terminalOutcome
  epoch : old.epoch ≤ new.epoch
  controlSequence : old.controlSequence ≤ new.controlSequence
  path : TaskPath old.state new.state

theorem Later.refl (snapshot : TaskSnapshot) : Later snapshot snapshot :=
  ⟨fun _ => ⟨rfl, rfl, rfl⟩, Nat.le_refl _, Nat.le_refl _, .refl⟩

theorem Later.trans {a b c : TaskSnapshot} (first : Later a b) (second : Later b c) :
    Later a c where
  absorbed := by
    intro terminal
    obtain ⟨state, epoch, outcome⟩ := first.absorbed terminal
    obtain ⟨state', epoch', outcome'⟩ := second.absorbed (by rw [state]; exact terminal)
    exact ⟨state'.trans state, epoch'.trans epoch, outcome'.trans outcome⟩
  epoch := first.epoch.trans second.epoch
  controlSequence := first.controlSequence.trans second.controlSequence
  path := first.path.trans second.path

/-- Records are never dropped, and each one only moves on. -/
def RecordsLater (before after : MiraRuntime) : Prop :=
  ∀ id old, before.records.tasks.find? id = some old →
    ∃ new, after.records.tasks.find? id = some new ∧ Later old.snapshot new.snapshot

theorem step_later (formed : TasksWellFormed runtime) :
    RecordsLater runtime (step runtime input).1 := by
  intro id old found
  rcases step_tasks runtime input with ⟨tasks, _, _⟩ | ⟨command, _, _, tasks⟩
  · exact ⟨old, by rw [tasks]; exact found, Later.refl _⟩
  · have h := tasks id
    rw [found] at h
    generalize hnew : (step runtime input).1.records.tasks.find? id = after at h
    cases h with
    | same => exact ⟨old, rfl, Later.refl _⟩
    | moved _ new move =>
        refine ⟨new, rfl, ?_, move.epoch, ?_, move.path⟩
        · intro terminal
          rw [move.live] at terminal
          cases terminal
        · rw [move.stamped]
          exact Nat.le_succ_of_le (formed id old found).stamped

theorem run_later (formed : TasksWellFormed runtime) :
    RecordsLater runtime (run runtime inputs) := by
  apply Execution.run_relation step TasksWellFormed RecordsLater
  · exact fun _ _ old found => ⟨old, found, Later.refl _⟩
  · intro a b c first second id old found
    obtain ⟨middle, hmiddle, hfirst⟩ := first id old found
    obtain ⟨new, hnew, hsecond⟩ := second id middle hmiddle
    exact ⟨new, hnew, hfirst.trans hsecond⟩
  · exact step_wellFormed
  · exact step_later
  · exact formed

/-! Refusals. A rejected command never reached a write; a failed one may have,
but only when an exception left the interrupt of a takeover or a close, or when a
shutdown reports a session it could not release. -/

def Settlement.Refused (settlement : Settlement) : Prop :=
  settlement.receipt.status = .rejected ∨ settlement.outcome.status = .failed

/-- The refusals that promise unchanged records. -/
def Settlement.Inert (context : ControlContext) (settlement : Settlement) : Prop :=
  settlement.receipt.status = .rejected ∨
    (settlement.outcome.status = .failed ∧ ∀ session what, context.interrupt session ≠ .threw what)

/-- A callback whose inert refusals return the records they found. -/
def RefusesInertly (context : ControlContext) (records : Records)
    (result : Records × Settlement) : Prop :=
  result.2.Inert context → result.1 = records

theorem refusesInertly_same (records : Records) (settlement : Settlement) :
    RefusesInertly context records (records, settlement) :=
  fun _ => rfl

theorem refusesInertly_accepted (records changed : Records) (kind : CommandKind)
    (status : SettlementStatus) (task : Option TaskSnapshot) (reason : Option Error)
    (notFailed : status ≠ .failed) :
    RefusesInertly context records (changed, accepted kind context status task reason) := by
  rintro (h | ⟨h, _⟩)
  · simp [accepted] at h
  · exact absurd h notFailed

theorem refusesInertly_escaped (records changed : Records) (kind : CommandKind)
    (session : SessionId) (what : Option String) (threw : context.interrupt session = .threw what) :
    RefusesInertly context records (changed, escaped kind context what) := by
  rintro (h | ⟨_, h⟩)
  · simp [escaped] at h
  · exact absurd threw (h session what)

section Bodies
variable (context : ControlContext) (records : Records)

theorem simpleTaskCommand_refuses (kind : CommandKind) (id : TaskId) (target : TaskState) :
    RefusesInertly context records (simpleTaskCommand kind id target context records) := by
  unfold simpleTaskCommand
  split
  · exact refusesInertly_same _ _ _
  · dsimp only
    split
    · exact refusesInertly_same _ _ _
    · split
      · exact refusesInertly_same _ _ _
      · exact refusesInertly_accepted _ _ _ _ _ _ _ (by decide)

theorem completeTask_refuses (id : TaskId) (outcome : TaskOutcome) :
    RefusesInertly context records (completeTask id outcome context records) := by
  unfold completeTask
  split
  · exact refusesInertly_same _ _ _
  · dsimp only
    split
    · exact refusesInertly_same _ _ _
    · split
      · split <;> exact refusesInertly_same _ _ _
      · split
        · exact refusesInertly_same _ _ _
        · exact refusesInertly_accepted _ _ _ _ _ _ _ (by decide)

variable (session : SessionId)

theorem requestHumanTakeover_refuses :
    RefusesInertly context records (requestHumanTakeover session context records) := by
  unfold requestHumanTakeover
  split
  · exact refusesInertly_same _ _ _
  · split
    · exact refusesInertly_same _ _ _
    · split
      · exact refusesInertly_same _ _ _
      · dsimp only
        split
        · next what threw => exact refusesInertly_escaped context records _ _ session what threw
        · exact refusesInertly_accepted _ _ _ _ _ _ _ (by decide)

theorem releaseHumanTakeover_refuses :
    RefusesInertly context records (releaseHumanTakeover session context records) := by
  unfold releaseHumanTakeover
  split
  · exact refusesInertly_same _ _ _
  · split
    · exact refusesInertly_same _ _ _
    · split
      · exact refusesInertly_same _ _ _
      · exact refusesInertly_accepted _ _ _ _ _ _ _ (by decide)

theorem closeSession_refuses :
    RefusesInertly context records (closeSession session context records) := by
  unfold closeSession
  split
  · exact refusesInertly_same _ _ _
  · split
    · exact refusesInertly_same _ _ _
    · split
      · exact refusesInertly_same _ _ _
      · dsimp only
        split
        · next what threw => exact refusesInertly_escaped context records _ _ session what threw
        · exact refusesInertly_accepted _ _ _ _ _ _ _ (by decide)

theorem admitOperationCompletion_refuses (key : OperationKey) :
    RefusesInertly context records (admitOperationCompletion key context records) := by
  unfold admitOperationCompletion
  split
  · dsimp only
    split
    · exact refusesInertly_same _ _ _
    · split <;> exact refusesInertly_accepted _ _ _ _ _ _ _ (by decide)
  · exact refusesInertly_same _ _ _

end Bodies

theorem execute_refuses (notShutdown : command ≠ .shutdownRuntime)
    (inert : (execute command context runtime).2.Inert context) :
    (execute command context runtime).1.records = runtime.records := by
  cases command with
  | openSession session =>
      revert inert
      simp only [execute, onRecords, openSession]
      split
      · exact refusesInertly_same _ _ _
      · exact refusesInertly_accepted _ _ _ _ _ _ _ (by decide)
  | submitTask session task goal constraints =>
      revert inert
      simp only [execute, onRecords, submitTask]
      split
      · exact refusesInertly_same _ _ _
      · exact refusesInertly_accepted _ _ _ _ _ _ _ (by decide)
  | pauseTask | resumeTask | cancelTask | beginTaskRecovery =>
      exact simpleTaskCommand_refuses _ _ _ _ _ inert
  | completeTask => exact completeTask_refuses _ _ _ _ inert
  | requestHumanTakeover => exact requestHumanTakeover_refuses _ _ _ inert
  | releaseHumanTakeover => exact releaseHumanTakeover_refuses _ _ _ inert
  | closeSession => exact closeSession_refuses _ _ _ inert
  | admitOperationCompletion => exact admitOperationCompletion_refuses _ _ _ inert
  | shutdownRuntime => exact absurd rfl notShutdown

/-- No environment throws out of an interrupt this step calls. -/
def Input.NeverThrows : Input → Prop
  | .dispatch _ interrupt => ∀ session what, interrupt session ≠ .threw what
  | _ => True

theorem shutdownRuntime_accepted :
    (shutdownRuntime context runtime).2.receipt.status = .accepted := by
  unfold shutdownRuntime
  dsimp only
  split <;> rfl

/-- A command whose receipt is a rejection, and a command other than shutdown
that failed without an exception, found and left the same records. -/
theorem step_refuses (command : Command) (settlement : Settlement)
    (settled : (step runtime input).2 = .settled command settlement)
    (refused : settlement.receipt.status = .rejected ∨
      (settlement.outcome.status = .failed ∧ command ≠ .shutdownRuntime ∧ input.NeverThrows)) :
    (step runtime input).1.records = runtime.records := by
  cases input with
  | initializeRuntime | hostCall | beginOperation => cases settled
  | dispatch now interrupt =>
      cases queued : runtime.queue with
      | nil =>
          rw [step_dispatch_idle runtime now interrupt queued] at settled
          cases settled
      | cons head rest =>
          rw [step_dispatch runtime now interrupt head rest queued] at settled ⊢
          cases settled
          by_cases shutdown : command = .shutdownRuntime
          · subst shutdown
            have receipt := shutdownRuntime_accepted
              ⟨runtime.controlSequence + 1, now, interrupt⟩ (runtime.numbered rest)
            rcases refused with rejected | ⟨_, other, _⟩
            · exact absurd (rejected.symm.trans receipt) (by decide)
            · exact absurd rfl other
          · apply execute_refuses command _ _ shutdown
            rcases refused with rejected | ⟨failed, _, quiet⟩
            · exact Or.inl rejected
            · exact Or.inr ⟨failed, quiet⟩

/-- The lifecycle law. From any reached state on, a terminal task keeps its state,
epoch and outcome, no counter decreases, outcomes agree with states, one step
changes a state only along the table, and a refusal changes nothing unless a
shutdown reports it or an environment threw. -/
theorem task_lifecycle_monotone (inputs later : List Input) (input : Input) (id : TaskId) :
    (∀ old, (run {} inputs).records.tasks.find? id = some old →
      ∃ new, (run {} (inputs ++ later)).records.tasks.find? id = some new ∧
        (old.snapshot.state.isTerminal = true →
          new.snapshot.state = old.snapshot.state ∧
          new.snapshot.epoch = old.snapshot.epoch ∧
          new.snapshot.terminalOutcome = old.snapshot.terminalOutcome) ∧
        old.snapshot.epoch ≤ new.snapshot.epoch ∧
        old.snapshot.controlSequence ≤ new.snapshot.controlSequence) ∧
    (∀ record, (run {} inputs).records.tasks.find? id = some record →
      OutcomeAgrees record.snapshot) ∧
    (∀ old new, (run {} inputs).records.tasks.find? id = some old →
      (step (run {} inputs) input).1.records.tasks.find? id = some new →
      TaskPath old.snapshot.state new.snapshot.state) ∧
    (∀ command settlement,
      (step (run {} inputs) input).2 = .settled command settlement →
      (settlement.receipt.status = .rejected ∨
        (settlement.outcome.status = .failed ∧ command ≠ .shutdownRuntime ∧
          input.NeverThrows)) →
      (step (run {} inputs) input).1.records.sessions = (run {} inputs).records.sessions ∧
      (step (run {} inputs) input).1.records.tasks = (run {} inputs).records.tasks) := by
  have formed : TasksWellFormed (run {} inputs) := run_wellFormed {} inputs initial_wellFormed
  refine ⟨?_, ?_, ?_, ?_⟩
  · intro old found
    obtain ⟨new, hnew, hlater⟩ := run_later (run {} inputs) later formed id old found
    refine ⟨new, ?_, hlater.absorbed, hlater.epoch, hlater.controlSequence⟩
    rw [run, Execution.run_append]
    exact hnew
  · exact fun record found => (formed id record found).outcome
  · intro old new found hnew
    obtain ⟨new', hnew', hlater⟩ := step_later (run {} inputs) input formed id old found
    rw [hnew] at hnew'
    cases hnew'
    exact hlater.path
  · intro command settlement settled refused
    have same := step_refuses (run {} inputs) input command settlement settled refused
    exact ⟨congrArg Records.sessions same, congrArg Records.tasks same⟩

/-- A shutdown that cannot release an environment settles as failed after it has
cancelled the live tasks, so a failed settlement alone promises nothing. -/
theorem failed_shutdown_cancels_tasks :
    ¬ ∀ (inputs : List Input) (input : Input) (command : Command) (settlement : Settlement),
      (step (run {} inputs) input).2 = .settled command settlement →
      settlement.Refused →
      (step (run {} inputs) input).1.records.sessions = (run {} inputs).records.sessions ∧
      (step (run {} inputs) input).1.records.tasks = (run {} inputs).records.tasks := by
  intro law
  let session : SessionId := .filled 1
  let task : TaskId := .filled 2
  have unchanged := law
    [.initializeRuntime true true, .hostCall (.openSession session) true,
      .dispatch {} fun _ => .released, .hostCall (.submitTask session task [103] []) true,
      .dispatch {} fun _ => .released, .hostCall .shutdownRuntime true]
    (.dispatch {} fun _ => .refused (makeError .unavailable "environment is gone"))
    .shutdownRuntime _ rfl (Or.inr rfl)
  have state := congrArg
    (fun tasks => (tasks.find? task).map fun record => record.snapshot.state) unchanged.2
  exact absurd state (by decide)

end Mira.Runtime
