import Mira.Runtime.Lifecycle

/-!
Human takeover as a session-wide exclusion. While a session is human controlled
every task of it should be terminal or suspended, and no operation should start
on one. The simple task commands never look at the session, so a resumption of a
suspended task breaks the exclusion; it is the only command that does.
-/

namespace Mira.Runtime
open Mira

def Withdrawn (record : TaskRecord) : Prop :=
  record.snapshot.state.isTerminal = true ∨ record.snapshot.state = .suspendedForTakeover

/-- The exclusion on the records. -/
def Excludes (records : Records) : Prop :=
  ∀ session record id task, records.sessions.find? session = some record →
    record.state = .humanControlled → records.tasks.find? id = some task →
    task.sessionId = session → Withdrawn task

/-- The exclusion as a host sees it, with the refusal of new operations. -/
def TakeoverExclusive (runtime : MiraRuntime) : Prop :=
  ∀ session record id task, runtime.records.sessions.find? session = some record →
    record.state = .humanControlled → runtime.records.tasks.find? id = some task →
    task.sessionId = session →
    Withdrawn task ∧
      ∀ stepId operation, ∃ reason,
        (beginOperation id stepId operation runtime).2 = .error reason

/-- The step is not the resumption of a task that a human-controlled session has
suspended. -/
def AvoidsSuspendedResume (runtime : MiraRuntime) (input : Input) : Prop :=
  ∀ id task record, Dispatches runtime input (.resumeTask id) →
    runtime.records.tasks.find? id = some task →
    runtime.records.sessions.find? task.sessionId = some record →
    ¬ (task.snapshot.state = .suspendedForTakeover ∧ record.state = .humanControlled)

variable (runtime : MiraRuntime)

theorem beginOperation_withdrawn (id : TaskId) (task : TaskRecord)
    (found : runtime.records.tasks.find? id = some task) (withdrawn : Withdrawn task)
    (stepId : StepId) (operation : OperationId) :
    ∃ reason, (beginOperation id stepId operation runtime).2 = .error reason := by
  unfold beginOperation
  split
  · exact ⟨_, rfl⟩
  · simp only [found]
    rcases withdrawn with terminal | suspended
    · rw [if_pos terminal]
      exact ⟨_, rfl⟩
    · split
      · exact ⟨_, rfl⟩
      · rw [if_pos (Or.inr suspended)]
        exact ⟨_, rfl⟩

variable (session : SessionId) (context : ControlContext)

theorem takeoverTask_withdrawn (task : TaskRecord) (own : task.sessionId = session)
    (rest : atRest task.snapshot.state = true) : Withdrawn (takeoverTask session context task) := by
  unfold takeoverTask
  by_cases terminal : task.snapshot.state.isTerminal = true
  · rw [if_pos (Or.inr terminal)]
    exact Or.inl terminal
  · rw [if_neg (by simp [own, terminal])]
    split
    · exact Or.inr rfl
    · next stuck =>
        -- The states without an edge to settling that a task can rest in are the
        -- terminal ones and the suspension itself.
        refine Or.inr ?_
        revert rest terminal stuck
        cases task.snapshot.state <;> decide

theorem takeoverTask_sessionId (task : TaskRecord) :
    (takeoverTask session context task).sessionId = task.sessionId := by
  unfold takeoverTask
  split
  · rfl
  · split <;> rfl

theorem find?_update_state (table : KeyedTable SessionId SessionRecord) (target id : SessionId)
    (f : SessionRecord → SessionRecord) (record : SessionRecord)
    (found : (table.update target f).find? id = some record) :
    (id ≠ target ∧ table.find? id = some record) ∨
      (id = target ∧ ∃ old, table.find? target = some old ∧ record = f old) := by
  rw [KeyedTable.find?_update] at found
  by_cases same : id = target
  · rw [if_pos same] at found
    obtain ⟨old, hold, rfl⟩ := Option.map_eq_some_iff.mp found
    exact Or.inr ⟨same, old, hold, rfl⟩
  · rw [if_neg same] at found
    exact Or.inl ⟨same, found⟩

/-- A session is human controlled after a command only if it was before and was
not released, or if the command just took it over. -/
def ControlKept (command : Command) (before after : Records) : Prop :=
  ∀ session record, after.sessions.find? session = some record →
    record.state = .humanControlled →
    (command ≠ .releaseHumanTakeover session ∧
      ∃ old, before.sessions.find? session = some old ∧ old.state = .humanControlled) ∨
    (command = .requestHumanTakeover session ∧
      ∀ id task, after.tasks.find? id = some task → task.sessionId = session →
        (∀ id task, before.tasks.find? id = some task → atRest task.snapshot.state = true) →
        Withdrawn task)

variable (command : Command)

theorem controlKept_same (before after : Records) (same : after.sessions = before.sessions)
    (notRelease : ∀ session, command ≠ .releaseHumanTakeover session) :
    ControlKept command before after := by
  intro session record found human
  rw [same] at found
  exact Or.inl ⟨notRelease session, record, found, human⟩

theorem requestHumanTakeover_kept (records : Records) :
    ControlKept (.requestHumanTakeover session) records
      (requestHumanTakeover session context records).1 := by
  have noRelease : ∀ other, Command.requestHumanTakeover session ≠ .releaseHumanTakeover other :=
    fun _ h => by cases h
  unfold requestHumanTakeover
  split
  · exact controlKept_same _ _ _ rfl noRelease
  · split
    · exact controlKept_same _ _ _ rfl noRelease
    · split
      · exact controlKept_same _ _ _ rfl noRelease
      · have taken : ControlKept (.requestHumanTakeover session) records
            { records with
              sessions := records.sessions.update session (.withState .humanControlled)
              tasks := records.tasks.mapValues fun _ => takeoverTask session context } := by
          intro id record found human
          rcases find?_update_state _ _ _ _ _ found with ⟨_, kept⟩ | ⟨same, _⟩
          · exact Or.inl ⟨noRelease id, record, kept, human⟩
          · subst same
            refine Or.inr ⟨rfl, ?_⟩
            intro tid task htask own rest
            rw [KeyedTable.find?_mapValues] at htask
            obtain ⟨old, hold, rfl⟩ := Option.map_eq_some_iff.mp htask
            rw [takeoverTask_sessionId] at own
            exact takeoverTask_withdrawn id context old own (rest tid old hold)
        dsimp only
        split <;> exact taken

theorem releaseHumanTakeover_kept (records : Records) :
    ControlKept (.releaseHumanTakeover session) records
      (releaseHumanTakeover session context records).1 := by
  -- A release that changes nothing found the session missing or not human controlled.
  have unchanged (h : ∀ record, records.sessions.find? session = some record →
      record.state ≠ .humanControlled) :
      ControlKept (.releaseHumanTakeover session) records records := by
    intro id record found human
    refine Or.inl ⟨?_, record, found, human⟩
    rintro ⟨⟩
    exact h record found human
  unfold releaseHumanTakeover
  split
  · next missing => exact unchanged fun record found => by rw [missing] at found; cases found
  · next old hold =>
      split
      · next autonomous =>
          refine unchanged fun record found => ?_
          rw [hold] at found
          cases found
          rw [autonomous]
          decide
      · split
        · next refused =>
            refine unchanged fun record found human => ?_
            rw [hold] at found
            cases found
            rcases refused with other | invalid
            · exact other human
            · rw [human] at invalid
              exact absurd invalid (by decide)
        · intro id record found human
          rcases find?_update_state _ _ _ _ _ found with ⟨other, kept⟩ | ⟨_, was, _, rfl⟩
          · refine Or.inl ⟨?_, record, kept, human⟩
            rintro ⟨⟩
            exact other rfl
          · exact absurd human (by simp)

theorem closeSession_kept (records : Records) :
    ControlKept (.closeSession session) records (closeSession session context records).1 := by
  have noRelease : ∀ other, Command.closeSession session ≠ .releaseHumanTakeover other :=
    fun _ h => by cases h
  have closing (state : SessionState) (h : state ≠ .humanControlled)
      (tasks : KeyedTable TaskId TaskRecord) :
      ControlKept (.closeSession session) records
        { records with
          sessions := records.sessions.update session (.withState state), tasks := tasks } := by
    intro id record found human
    rcases find?_update_state _ _ _ _ _ found with ⟨_, kept⟩ | ⟨_, _, _, rfl⟩
    · exact Or.inl ⟨noRelease id, record, kept, human⟩
    · exact absurd human h
  unfold closeSession
  split
  · exact controlKept_same _ _ _ rfl noRelease
  · split
    · exact controlKept_same _ _ _ rfl noRelease
    · split
      · exact controlKept_same _ _ _ rfl noRelease
      · dsimp only
        split
        · exact closing .closing (by decide) _
        · exact closing .closed (by decide) _

theorem shutdownRecords_kept (records : Records) :
    ControlKept .shutdownRuntime records (shutdownRecords context records) := by
  intro id record found human
  simp only [shutdownRecords, KeyedTable.find?_mapValues] at found
  obtain ⟨old, hold, rfl⟩ := Option.map_eq_some_iff.mp found
  unfold shutdownSession at human
  split at human
  · exact Or.inl ⟨(fun h => by cases h), old, hold, human⟩
  · split at human <;> cases human

theorem simpleTaskCommand_sessions (kind : CommandKind) (id : TaskId) (target : TaskState)
    (context : ControlContext) (records : Records) :
    (simpleTaskCommand kind id target context records).1.sessions = records.sessions := by
  unfold simpleTaskCommand
  split
  · rfl
  · dsimp only
    split
    · rfl
    · split <;> rfl

theorem completeTask_sessions (id : TaskId) (outcome : TaskOutcome) (context : ControlContext)
    (records : Records) :
    (completeTask id outcome context records).1.sessions = records.sessions := by
  unfold completeTask
  split
  · rfl
  · dsimp only
    split
    · rfl
    · split
      · split <;> rfl
      · split <;> rfl

theorem admitOperationCompletion_sessions (key : OperationKey) (context : ControlContext)
    (records : Records) :
    (admitOperationCompletion key context records).1.sessions = records.sessions := by
  unfold admitOperationCompletion
  split
  · dsimp only
    split
    · rfl
    · split <;> rfl
  · rfl

theorem openSession_kept (records : Records) :
    ControlKept (.openSession session) records (openSession session context records).1 := by
  have noRelease : ∀ other, Command.openSession session ≠ .releaseHumanTakeover other :=
    fun _ h => by cases h
  unfold openSession
  split
  · exact controlKept_same _ _ _ rfl noRelease
  · next absent =>
      intro id record found human
      dsimp only at found
      rw [KeyedTable.find?_emplace] at found
      by_cases same : id = session
      · have missing : records.sessions.find? session = none := by
          simpa [KeyedTable.contains] using absent
        rw [if_pos same, missing] at found
        cases found
        exact absurd human (by simp)
      · rw [if_neg same] at found
        exact Or.inl ⟨noRelease id, record, found, human⟩

theorem execute_kept (context : ControlContext) (runtime : MiraRuntime) :
    ControlKept command runtime.records (execute command context runtime).1.records := by
  cases command with
  | openSession session => exact openSession_kept session context runtime.records
  | submitTask session task goal constraints =>
      apply controlKept_same _ _ _ _ fun _ h => by cases h
      simp only [execute, onRecords, submitTask]
      split <;> rfl
  | pauseTask | resumeTask | cancelTask | beginTaskRecovery =>
      exact controlKept_same _ _ _ (simpleTaskCommand_sessions ..) fun _ h => by cases h
  | completeTask =>
      exact controlKept_same _ _ _ (completeTask_sessions ..) fun _ h => by cases h
  | requestHumanTakeover session => exact requestHumanTakeover_kept session context _
  | releaseHumanTakeover session => exact releaseHumanTakeover_kept session context _
  | closeSession session => exact closeSession_kept session context _
  | admitOperationCompletion =>
      exact controlKept_same _ _ _ (admitOperationCompletion_sessions ..) fun _ h => by cases h
  | shutdownRuntime =>
      simp only [execute, shutdownRuntime_records]
      exact shutdownRecords_kept context runtime.records

theorem submitTask_autonomous (id : TaskId) (goal : Bytes) (constraints : List Bytes)
    (context : ControlContext) (records : Records) (task : TaskRecord)
    (absent : records.tasks.find? id = none)
    (present : (submitTask session id goal constraints context records).1.tasks.find? id =
      some task) : (records.sessions.find? session).map SessionRecord.state = some .autonomous := by
  unfold submitTask at present
  split at present
  · rw [absent] at present; cases present
  · next autonomous => exact not_not.mp autonomous

/-- Preservation: the guard rules out the one command that frees a suspended task
of a session it leaves human controlled. -/
theorem execute_excludes (context : ControlContext) (runtime : MiraRuntime)
    (rest : ∀ id task, runtime.records.tasks.find? id = some task →
      atRest task.snapshot.state = true) (guard : ∀ id task record, command = .resumeTask id →
      runtime.records.tasks.find? id = some task →
      runtime.records.sessions.find? task.sessionId = some record →
      ¬ (task.snapshot.state = .suspendedForTakeover ∧ record.state = .humanControlled))
    (before : Excludes runtime.records) : Excludes (execute command context runtime).1.records := by
  intro session record id task hsession human htask own
  rcases execute_kept command context runtime session record hsession human with
    ⟨notRelease, old, hold, was⟩ | ⟨_, taken⟩
  · have h := execute_taskStep command context runtime id
    rw [htask] at h
    generalize hbefore : runtime.records.tasks.find? id = earlier at h
    cases h with
    | same => exact before session old id task hold was hbefore own
    | created _ origin =>
        obtain ⟨goal, constraints, rfl⟩ := origin
        have autonomous := submitTask_autonomous task.sessionId id goal constraints context
          runtime.records task hbefore htask
        rw [own, hold] at autonomous
        simp [was] at autonomous
    | moved earlier _ move =>
        have ownBefore : earlier.sessionId = session := move.session ▸ own
        rcases before session old id earlier hold was hbefore ownBefore with
          terminal | suspended
        · rw [move.live] at terminal
          cases terminal
        · apply move.held suspended
          cases command with
          | resumeTask other =>
              by_contra same
              have target : other = id := by simpa [Command.frees] using same
              subst target
              exact guard other earlier old rfl hbefore (by rw [ownBefore]; exact hold)
                ⟨suspended, was⟩
          | releaseHumanTakeover released =>
              have other : released ≠ session := fun e => notRelease (by rw [e])
              simp [Command.frees, ownBefore, other]
          | _ => rfl
  · exact taken id task htask own rest

/-- The invariant the exclusion is carried with. -/
def TakeoverInvariant (runtime : MiraRuntime) : Prop :=
  TasksWellFormed runtime ∧ Excludes runtime.records

theorem step_takeover (input : Input) (guard : AvoidsSuspendedResume runtime input)
    (before : TakeoverInvariant runtime) : TakeoverInvariant (step runtime input).1 := by
  refine ⟨step_wellFormed runtime input before.1, ?_⟩
  have quiet (tasks : (step runtime input).1.records.tasks = runtime.records.tasks)
      (sessions : (step runtime input).1.records.sessions = runtime.records.sessions) :
      Excludes (step runtime input).1.records := by
    intro session record id task hsession human htask own
    rw [sessions] at hsession
    rw [tasks] at htask
    exact before.2 session record id task hsession human htask own
  cases input with
  | initializeRuntime limits executor =>
      have h := (initializeRuntime_records limits executor runtime).1
      exact quiet (congrArg Records.tasks h) (congrArg Records.sessions h)
  | hostCall command submitted =>
      have h := (hostCall_records command submitted runtime).1
      exact quiet (congrArg Records.tasks h) (congrArg Records.sessions h)
  | beginOperation task stepId operation =>
      have h := beginOperation_tasks task stepId operation runtime
      exact quiet h.1 h.2.1
  | dispatch now interrupt =>
      cases queued : runtime.queue with
      | nil =>
          rw [step_dispatch_idle runtime now interrupt queued]
          exact before.2
      | cons command rest =>
          rw [step_dispatch runtime now interrupt command rest queued]
          apply execute_excludes command _ (runtime.numbered rest)
          · exact fun id task found => (before.1 id task found).rest
          · rintro id task record rfl htask hsession
            exact guard id task record ⟨⟨now, interrupt, rfl⟩, by simp [queued]⟩ htask hsession
          · exact before.2

theorem takeoverExclusive_of_excludes (excludes : Excludes runtime.records) :
    TakeoverExclusive runtime := by
  intro session record id task hsession human htask own
  have withdrawn := excludes session record id task hsession human htask own
  exact ⟨withdrawn, beginOperation_withdrawn runtime id task htask withdrawn⟩

/-- In every run that never resumes a task a human-controlled session suspended,
every reached state keeps the takeover exclusion. -/
theorem takeover_exclusive_without_suspended_resume (inputs : List Input)
    (guarded : Execution.Guarded step AvoidsSuspendedResume {} inputs) :
    TakeoverExclusive (run {} inputs) := by
  apply takeoverExclusive_of_excludes
  refine (Execution.run_invariant step AvoidsSuspendedResume TakeoverInvariant step_takeover {}
    inputs ⟨initial_wellFormed, ?_⟩ guarded).2
  intro session record id task hsession
  simp at hsession

/-- A run with one session and one task that a takeover suspends. -/
def takenOverRun : List Input :=
  [.initializeRuntime true true,
    .hostCall (.openSession (.filled 1)) true, .dispatch {} fun _ => .released,
    .hostCall (.submitTask (.filled 1) (.filled 2) [103] []) true,
    .dispatch {} fun _ => .released,
    .hostCall (.requestHumanTakeover (.filled 1)) true, .dispatch {} fun _ => .released]

theorem takeover_exclusive_taken_over_run :
    TakeoverExclusive (run {} takenOverRun) ∧
      ((run {} takenOverRun).records.sessions.find? (.filled 1)).map SessionRecord.state =
        some .humanControlled := by
  refine ⟨takeover_exclusive_without_suspended_resume takenOverRun ?_, by decide⟩
  have noResume (runtime : MiraRuntime) (input : Input)
      (h : ∀ id, runtime.queue.head? ≠ some (.resumeTask id)) :
      AvoidsSuspendedResume runtime input :=
    fun id _ _ dispatches => absurd dispatches.2 (h id)
  refine ⟨?_, ?_, ?_, ?_, ?_, ?_, ?_, trivial⟩ <;> apply noResume <;> intro id h <;> cases h

/-- Resuming the suspended task puts it back to work, and admits operations on
it, while the session is still human controlled. -/
theorem suspended_resume_breaks_takeover :
    ¬ ∀ inputs : List Input, (∀ input ∈ inputs, input.NeverThrows) →
      TakeoverExclusive (run {} inputs) := by
  intro law
  have exclusive := law
    (takenOverRun ++ [.hostCall (.resumeTask (.filled 2)) true, .dispatch {} fun _ => .released])
    (by
      intro input member
      simp only [takenOverRun, List.cons_append, List.nil_append, List.mem_cons,
        List.not_mem_nil, or_false] at member
      rcases member with rfl | rfl | rfl | rfl | rfl | rfl | rfl | rfl | rfl <;>
        simp [Input.NeverThrows])
  have broken := (exclusive (.filled 1) _ (.filled 2) _ rfl rfl rfl rfl).1
  rcases broken with terminal | suspended
  · exact absurd terminal (by decide)
  · exact absurd suspended (by decide)

end Mira.Runtime
