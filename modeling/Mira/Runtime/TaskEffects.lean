import Mira.Runtime.Machine

/-!
What one command can do to one task record. Every code path that writes a task
(the simple commands with their in-place intermediate state, completion by
reachability, takeover, release, session close, shutdown and an applied operation
completion) is shown once to be one of three things: nothing, the creation of an
idle task, or a move described by `Moved`. The laws over runs use only that.
-/

namespace Mira.Runtime
open Mira

/-- Whether a command that takes effect on a task in this state withdraws it from
the autonomy its running operations were started under. -/
def Command.withdrawsFrom : Command → TaskState → Bool
  | .pauseTask _, _ | .cancelTask _, _ | .beginTaskRecovery _, _ | .completeTask _ _, _ => true
  | .requestHumanTakeover _, _ | .releaseHumanTakeover _, _ | .closeSession _, _ => true
  | .shutdownRuntime, _ => true
  | .resumeTask _, state =>
      state = .paused || state = .suspendedForTakeover || state = .recovering
  | .openSession _, _ | .submitTask .., _ | .admitOperationCompletion _, _ => false

/-- The two commands that may put a taken-over task back to work. -/
def Command.frees : Command → TaskId → SessionId → Bool
  | .resumeTask task, id, _ => task = id
  | .releaseHumanTakeover released, _, session => released = session
  | _, _, _ => false

def atRest (state : TaskState) : Bool :=
  state = .idle || state = .observing || state = .recovering || state = .paused ||
    state = .suspendedForTakeover || state.isTerminal

/-- The recorded outcome is present exactly in a terminal state and names it. -/
def OutcomeAgrees (snapshot : TaskSnapshot) : Prop :=
  match snapshot.terminalOutcome with
  | none => snapshot.state.isTerminal = false
  | some outcome => snapshot.state.isTerminal = true ∧ outcome.terminalState = snapshot.state

structure Moved (command : Command) (sequence : Nat) (id : TaskId) (old new : TaskRecord) :
    Prop where
  session : new.sessionId = old.sessionId
  live : old.snapshot.state.isTerminal = false
  path : TaskPath old.snapshot.state new.snapshot.state
  rest : atRest old.snapshot.state = true → atRest new.snapshot.state = true
  epoch : old.snapshot.epoch ≤ new.snapshot.epoch
  quiet : new.snapshot.epoch = old.snapshot.epoch →
    command.withdrawsFrom old.snapshot.state = false
  held : old.snapshot.state = .suspendedForTakeover →
    command.frees id old.sessionId = false →
    new.snapshot.state.isTerminal = true ∨ new.snapshot.state = .suspendedForTakeover
  stamped : new.snapshot.controlSequence = sequence
  outcome : OutcomeAgrees old.snapshot → OutcomeAgrees new.snapshot

inductive TaskStep (command : Command) (sequence : Nat) (id : TaskId) :
    Option TaskRecord → Option TaskRecord → Prop
  | same (record : Option TaskRecord) : TaskStep command sequence id record record
  | created (record : TaskRecord)
      (origin : ∃ goal constraints, command = .submitTask record.sessionId id goal constraints)
      (idle : record.snapshot.state = .idle)
      (fresh : record.snapshot.terminalOutcome = none)
      (stamped : record.snapshot.controlSequence = sequence) :
      TaskStep command sequence id none (some record)
  | moved (old new : TaskRecord) (move : Moved command sequence id old new) :
      TaskStep command sequence id (some old) (some new)

/-- The commands that share `simple_task_command`, each with its target. -/
inductive SimpleCommand (id : TaskId) : Command → TaskState → Prop
  | pause : SimpleCommand id (.pauseTask id) .paused
  | resume : SimpleCommand id (.resumeTask id) .observing
  | cancel : SimpleCommand id (.cancelTask id) .cancelled
  | recover : SimpleCommand id (.beginTaskRecovery id) .recovering

variable (state : TaskState)

theorem mem_taskStates : state ∈ taskStates := by
  cases state <;> decide

theorem path_cancelled (live : state.isTerminal = false) : TaskPath state .cancelled := by
  apply taskStatePathExists_sound
  revert live
  cases state <;> decide

theorem path_suspended (valid : validTaskTransition state .takeoverSettling = true) :
    TaskPath state .suspendedForTakeover := by
  have settled : TaskPath state .takeoverSettling := Relation.ReflTransGen.single valid
  exact settled.tail (by decide)

variable (target previous : TaskState)

theorem simplePreviousState_path (h : simplePreviousState state target = some previous) :
    TaskPath state target := by
  apply taskStatePathExists_sound
  have all : ∀ s ∈ taskStates, ∀ t ∈ taskStates,
      (simplePreviousState s t).isSome = true → taskStatePathExists s t = true := by
    decide
  exact all state (mem_taskStates state) target (mem_taskStates target) (by rw [h]; rfl)

theorem simplePreviousState_live (h : simplePreviousState state target = some previous)
    (other : (state.isTerminal && state = target) = false) : state.isTerminal = false := by
  have all : ∀ s ∈ taskStates, ∀ t ∈ taskStates, (simplePreviousState s t).isSome = true →
      (s.isTerminal && decide (s = t)) = false → s.isTerminal = false := by
    decide
  exact all state (mem_taskStates state) target (mem_taskStates target) (by rw [h]; rfl) other

theorem simplePreviousState_observing (h : simplePreviousState state .observing = some previous) :
    previous = state := by
  unfold simplePreviousState at h
  simp only [reduceCtorEq, decide_false, Bool.false_and, Bool.or_false] at h
  split at h
  · exact (Option.some.inj h).symm
  · cases h

theorem OutcomeAgrees.absent {snapshot : TaskSnapshot} (agrees : OutcomeAgrees snapshot)
    (live : snapshot.state.isTerminal = false) : snapshot.terminalOutcome = none := by
  unfold OutcomeAgrees at agrees
  cases h : snapshot.terminalOutcome with
  | none => rfl
  | some outcome => rw [h] at agrees; simp [live] at agrees

variable (command : Command) (id : TaskId) (record : TaskRecord)

theorem simpleTaskMove_moved (target previous : TaskState) (context : ControlContext)
    (simple : SimpleCommand id command target)
    (admitted : simplePreviousState record.snapshot.state target = some previous)
    (other : (record.snapshot.state.isTerminal && record.snapshot.state = target) = false) :
    Moved command context.sequence id record
      (record.mapSnapshot fun _ => simpleTaskMove previous target context record.snapshot) where
  session := rfl
  live := simplePreviousState_live _ _ _ admitted other
  path := simplePreviousState_path _ _ _ admitted
  rest := by
    intro _
    cases simple <;> rfl
  epoch := by
    change record.snapshot.epoch ≤ record.snapshot.epoch + _ + _
    omega
  quiet := by
    intro h
    change record.snapshot.epoch + _ + _ = record.snapshot.epoch at h
    cases simple with
    | resume =>
        rw [simplePreviousState_observing _ _ admitted] at h
        simpa [Command.withdrawsFrom] using h
    | pause | cancel | recover => simp at h
  held := by
    intro suspended frees
    rw [suspended] at admitted
    cases simple with
    | cancel => exact Or.inl rfl
    | resume => simp [Command.frees] at frees
    | pause | recover => cases (show (none : Option TaskState) = some previous from admitted)
  stamped := rfl
  outcome := by
    intro agrees
    have absent := agrees.absent (simplePreviousState_live _ _ _ admitted other)
    cases simple <;>
      simp [OutcomeAgrees, simpleTaskMove, TaskRecord.mapSnapshot, absent, TaskState.isTerminal]

theorem completeTaskMove_moved (outcome : TaskOutcome) (record : TaskRecord)
    (context : ControlContext)
    (terminal : outcome.terminalState = .completed ∨ outcome.terminalState = .failed)
    (live : record.snapshot.state.isTerminal = false)
    (path : taskStatePathExists record.snapshot.state outcome.terminalState = true) :
    Moved (.completeTask id outcome) context.sequence id record
      (record.mapSnapshot fun _ => completeTaskMove outcome context record.snapshot) where
  session := rfl
  live := live
  path := taskStatePathExists_sound _ _ path
  rest := by
    intro _
    rcases terminal with h | h <;> simp [TaskRecord.mapSnapshot, completeTaskMove, h] <;> rfl
  epoch := Nat.le_succ _
  quiet := fun h => absurd h (Nat.succ_ne_self _)
  held := by
    intro _ _
    rcases terminal with h | h <;>
      simp [TaskRecord.mapSnapshot, completeTaskMove, h, TaskState.isTerminal]
  stamped := rfl
  outcome := by
    intro _
    rcases terminal with h | h <;>
      simp [OutcomeAgrees, TaskRecord.mapSnapshot, completeTaskMove, h, TaskState.isTerminal]

variable (context : ControlContext)

theorem cancelledSnapshot_moved (live : record.snapshot.state.isTerminal = false) :
    Moved command context.sequence id record
      (record.mapSnapshot (cancelledSnapshot context)) where
  session := rfl
  live := live
  path := path_cancelled _ live
  rest := fun _ => rfl
  epoch := Nat.le_succ _
  quiet := fun h => absurd h (Nat.succ_ne_self _)
  held := fun _ _ => Or.inl rfl
  stamped := rfl
  outcome := fun _ => ⟨rfl, rfl⟩

variable (session : SessionId)

theorem takeoverTask_moved (record : TaskRecord) (context : ControlContext) :
    takeoverTask session context record = record ∨
      Moved command context.sequence id record (takeoverTask session context record) := by
  unfold takeoverTask
  split
  · exact Or.inl rfl
  · next mine =>
      split
      · next valid =>
          have live : record.snapshot.state.isTerminal = false := by
            simpa using (not_or.mp mine).2
          exact Or.inr
            { session := rfl, live := live, path := path_suspended _ valid
              rest := fun _ => rfl, epoch := Nat.le_succ _
              quiet := fun h => absurd h (Nat.succ_ne_self _)
              held := fun _ _ => Or.inr rfl, stamped := rfl
              outcome := fun agrees => by
                simp [OutcomeAgrees, TaskRecord.mapSnapshot, agrees.absent live,
                  TaskState.isTerminal] }
      · exact Or.inl rfl

theorem releaseTask_moved (environmentEpoch : Nat) (record : TaskRecord) (context : ControlContext) :
    releaseTask session environmentEpoch context record = record ∨
      Moved (.releaseHumanTakeover session) context.sequence id record
        (releaseTask session environmentEpoch context record) := by
  unfold releaseTask
  split
  · exact Or.inl rfl
  · next mine =>
      have suspended : record.snapshot.state = .suspendedForTakeover := by
        simpa using (not_or.mp mine).2
      have live : record.snapshot.state.isTerminal = false := by rw [suspended]; rfl
      exact Or.inr
        { session := rfl, live := live
          path := by
            rw [suspended]
            exact Relation.ReflTransGen.single rfl
          rest := fun _ => rfl, epoch := Nat.le_succ _
          quiet := fun h => absurd h (Nat.succ_ne_self _)
          held := fun _ frees => by
            have own : record.sessionId = session := by simpa using (not_or.mp mine).1
            simp [Command.frees, own] at frees
          stamped := rfl
          outcome := fun agrees => by
            simp [OutcomeAgrees, TaskRecord.mapSnapshot, agrees.absent live,
              TaskState.isTerminal] }

theorem closeTask_moved (record : TaskRecord) (context : ControlContext) :
    closeTask session context record = record ∨
      Moved command context.sequence id record (closeTask session context record) := by
  unfold closeTask
  split
  · exact Or.inl rfl
  · next mine =>
      exact Or.inr (cancelledSnapshot_moved command id record context
        (by simpa using (not_or.mp mine).2))

theorem shutdownTask_moved :
    shutdownTask context record = record ∨
      Moved command context.sequence id record (shutdownTask context record) := by
  unfold shutdownTask
  split
  · exact Or.inl rfl
  · next live =>
      exact Or.inr (cancelledSnapshot_moved command id record context (by simpa using live))

section Steps
variable (context : ControlContext) (records : Records) (id : TaskId)

variable (command : Command) (sequence : Nat)

theorem taskStep_mapValues (f : TaskId → TaskRecord → TaskRecord) (each : ∀ key record,
      f key record = record ∨ Moved command sequence key record (f key record)) :
    TaskStep command sequence id (records.tasks.find? id)
      ((records.tasks.mapValues f).find? id) := by
  rw [KeyedTable.find?_mapValues]
  cases h : records.tasks.find? id with
  | none => exact .same none
  | some record =>
      rcases each id record with same | move
      · simpa [same] using TaskStep.same (some record)
      · exact .moved record _ move

theorem taskStep_update (target : TaskId) (f : TaskRecord → TaskRecord)
    (each : ∀ record, records.tasks.find? target = some record →
      Moved command sequence target record (f record)) :
    TaskStep command sequence id (records.tasks.find? id)
      ((records.tasks.update target f).find? id) := by
  rw [KeyedTable.find?_update]
  by_cases hid : id = target
  · subst hid
    rw [if_pos rfl]
    cases h : records.tasks.find? id with
    | none => exact .same none
    | some record => exact .moved record _ (each record h)
  · rw [if_neg hid]
    exact .same _

theorem simpleTaskCommand_taskStep (kind : CommandKind) (task : TaskId) (target : TaskState)
    (simple : SimpleCommand task command target) :
    TaskStep command context.sequence id (records.tasks.find? id)
      ((simpleTaskCommand kind task target context records).1.tasks.find? id) := by
  unfold simpleTaskCommand
  split
  · exact .same _
  · next record found =>
      dsimp only
      split
      · exact .same _
      · next other =>
          split
          · exact .same _
          · next previous admitted =>
              apply taskStep_update
              intro record' found'
              rw [found] at found'
              cases found'
              exact simpleTaskMove_moved command task record target previous context simple
                admitted (by simpa using other)

theorem completeTask_taskStep (task : TaskId) (outcome : TaskOutcome) :
    TaskStep (.completeTask task outcome) context.sequence id (records.tasks.find? id)
      ((completeTask task outcome context records).1.tasks.find? id) := by
  unfold completeTask
  split
  · exact .same _
  · next record found =>
      dsimp only
      split
      · exact .same _
      · next terminal =>
          split
          · split <;> exact .same _
          · next live =>
              split
              · exact .same _
              · next path =>
                  apply taskStep_update
                  intro record' found'
                  rw [found] at found'
                  cases found'
                  apply completeTaskMove_moved task outcome record context
                  · by_contra neither
                    exact terminal (not_or.mp neither)
                  · simpa using live
                  · simpa using path

variable (session : SessionId)

theorem requestHumanTakeover_taskStep :
    TaskStep (.requestHumanTakeover session) context.sequence id (records.tasks.find? id)
      ((requestHumanTakeover session context records).1.tasks.find? id) := by
  unfold requestHumanTakeover
  split
  · exact .same _
  · split
    · exact .same _
    · split
      · exact .same _
      · dsimp only
        split <;>
          exact taskStep_mapValues records id _ _ _ fun key record =>
            takeoverTask_moved _ key session record context

theorem releaseHumanTakeover_taskStep :
    TaskStep (.releaseHumanTakeover session) context.sequence id (records.tasks.find? id)
      ((releaseHumanTakeover session context records).1.tasks.find? id) := by
  unfold releaseHumanTakeover
  split
  · exact .same _
  · split
    · exact .same _
    · split
      · exact .same _
      · exact taskStep_mapValues records id _ _ _ fun key record =>
          releaseTask_moved key session _ record context

theorem closeSession_taskStep :
    TaskStep (.closeSession session) context.sequence id (records.tasks.find? id)
      ((closeSession session context records).1.tasks.find? id) := by
  unfold closeSession
  split
  · exact .same _
  · split
    · exact .same _
    · split
      · exact .same _
      · dsimp only
        split <;>
          exact taskStep_mapValues records id _ _ _ fun key record =>
            closeTask_moved _ key session record context

theorem admitOperationCompletion_taskStep (key : OperationKey) :
    TaskStep (.admitOperationCompletion key) context.sequence id (records.tasks.find? id)
      ((admitOperationCompletion key context records).1.tasks.find? id) := by
  unfold admitOperationCompletion
  split
  · next operation task _ found =>
      dsimp only
      split
      · exact .same _
      · split
        · exact .same _
        · next current =>
            apply taskStep_update
            intro record' found'
            rw [found] at found'
            cases found'
            obtain ⟨_, current⟩ := not_or.mp current
            exact
              { session := rfl
                live := by
                  revert current
                  change ¬(task.snapshot.state = _ ∨ task.snapshot.state = _ ∨
                    task.snapshot.state = _) → _
                  cases task.snapshot.state <;> decide
                path := Relation.ReflTransGen.refl
                rest := fun rest => rest
                epoch := Nat.le_refl _
                quiet := fun _ => rfl
                held := fun suspended _ => Or.inr suspended
                stamped := rfl
                outcome := fun agrees => agrees }
  · exact .same _

theorem submitTask_taskStep (task : TaskId) (goal : Bytes) (constraints : List Bytes) :
    TaskStep (.submitTask session task goal constraints) context.sequence id
      (records.tasks.find? id)
      ((submitTask session task goal constraints context records).1.tasks.find? id) := by
  unfold submitTask
  split
  · exact .same _
  · dsimp only
    rw [KeyedTable.find?_emplace]
    by_cases hid : id = task
    · subst hid
      rw [if_pos rfl]
      -- A colliding identifier keeps the record it finds.
      cases records.tasks.find? id with
      | none => exact .created _ ⟨goal, constraints, rfl⟩ rfl rfl rfl
      | some record => exact .same _
    · rw [if_neg hid]
      exact .same _

end Steps

theorem execute_taskStep (runtime : MiraRuntime) (id : TaskId) :
    TaskStep command context.sequence id (runtime.records.tasks.find? id)
      ((execute command context runtime).1.records.tasks.find? id) := by
  cases command with
  | openSession session =>
      simp only [execute, onRecords, openSession]
      split <;> exact .same _
  | submitTask session task goal constraints =>
      exact submitTask_taskStep context runtime.records id session task goal constraints
  | pauseTask task =>
      exact simpleTaskCommand_taskStep context runtime.records id _ _ task _ .pause
  | resumeTask task =>
      exact simpleTaskCommand_taskStep context runtime.records id _ _ task _ .resume
  | cancelTask task =>
      exact simpleTaskCommand_taskStep context runtime.records id _ _ task _ .cancel
  | beginTaskRecovery task =>
      exact simpleTaskCommand_taskStep context runtime.records id _ _ task _ .recover
  | completeTask task outcome =>
      exact completeTask_taskStep context runtime.records id task outcome
  | requestHumanTakeover session =>
      exact requestHumanTakeover_taskStep context runtime.records id session
  | releaseHumanTakeover session =>
      exact releaseHumanTakeover_taskStep context runtime.records id session
  | closeSession session => exact closeSession_taskStep context runtime.records id session
  | admitOperationCompletion key =>
      exact admitOperationCompletion_taskStep context runtime.records id key
  | shutdownRuntime =>
      simp only [execute, shutdownRuntime_records]
      exact taskStep_mapValues runtime.records id _ _ _ fun key record =>
        shutdownTask_moved _ key record context

end Mira.Runtime
