import Mira.Recovery.Orchestrator

/-!
Whether the attempts in the background are accounted for. An attempt that is admitted, and whose
start was recorded before it settles, leaves nothing behind; one that is turned away, or is over
before its start is recorded, leaves the counter and the pending result for good.
-/

namespace Mira.Recovery
open Mira Bytes Workflow

/-- The attempts that `start_recovery` has recorded and that have not returned. -/
def Orchestrator.unreturned (shared : Orchestrator) : List (WorkflowRunId × Ticket) :=
  shared.started.filter fun start => (shared.results.find? start.2).isNone

/-- The last attempt of a run that `start_recovery` has recorded. -/
def Orchestrator.lastStarted (shared : Orchestrator) (run : WorkflowRunId) : Option Ticket :=
  (shared.started.find? fun start => start.1 = run).map Prod.snd

/-- An attempt between its admission and its settlement. -/
def RecoveryPoint.admitted (run : WorkflowRunId) : RecoveryPoint → Bool
  | .pipeline own _ (.preparing _) | .pipeline own _ (.requesting _)
  | .pipeline own _ (.settling _) => own = run
  | _ => false

/-- A pipeline of the run that has not returned. -/
def RunsFor (run : WorkflowRunId) (threads : List RecoveryPoint) : Prop :=
  ∃ ticket point, .pipeline run ticket point ∈ threads

/-- The entry is there, the attempt in flight is recorded, and no result of an earlier attempt
stands in its place. -/
def Awaitable (shared : Orchestrator) (run : WorkflowRunId) : Prop :=
  ∃ tracked, shared.tracking.find? run = some tracked ∧
    (tracked.inFlight = true → tracked.pending.isSome = true) ∧
    (tracked.pending.isSome = true → tracked.lastResult = none)

/-- What a wait finds of an attempt: its result, or the attempt itself. -/
def Finds (shared : Orchestrator) (ticket : Ticket) :
    Orchestrator.Waited → Prop
  | .answered result => shared.results.find? ticket = some result
  | .awaits other => other = ticket

structure Accounted (config : WorkflowRecoveryConfig) (shared : Orchestrator)
    (threads : List RecoveryPoint) : Prop where
  counted : shared.asyncInFlight = shared.unreturned.length
  single : ∀ run, threads.countP (RecoveryPoint.admitted run) ≤ 1
  free : ∀ run, ¬ RunsFor run threads → shared.checkStart config run ≠
    .error (recoveryError .invalidState "a recovery attempt is already in flight for the run")
  found : ∀ run, Awaitable shared run → ∀ ticket, shared.lastStarted run = some ticket →
    Finds shared ticket (shared.waitRecovery run)

/-- A start is recorded before its attempt is over and while no other of the run is pending, no
attempt is turned away, and an attempt settles as the one that was recorded. -/
def Recorded (config : WorkflowRecoveryConfig) (shared : Orchestrator) (point : RecoveryPoint)
    (_ : List RecoveryPoint) (answer : RecoveryAnswer) : Prop :=
  match point with
  | .recording run ticket =>
      (shared.results.find? ticket).isNone = true ∧ (shared.tracked run).pending = none
  | .pipeline _ _ .snapshot => answer.snapshot.isSome = true
  | .pipeline run _ (.admitting state again) =>
      (∃ ordinal, shared.admission config run state = .admitted ordinal) ∨
        (again = false ∧ ∃ error, shared.admission config run state = .error error)
  | .pipeline _ _ (.rejected _) => False
  | .pipeline run ticket (.settling _) => (shared.tracked run).pending = some ticket
  | _ => True

def recordingTicket : RecoveryPoint → Option Ticket
  | .recording _ ticket => some ticket
  | _ => none

structure Inv (shared : Orchestrator) (threads : List RecoveryPoint) : Prop where
  counted : shared.asyncInFlight = shared.unreturned.length
  admitted : ∀ run, threads.countP (RecoveryPoint.admitted run) =
    if (shared.tracked run).inFlight then 1 else 0
  pending : ∀ run ticket, (shared.tracked run).pending = some ticket →
    shared.results.find? ticket = none ∧ shared.lastStarted run = some ticket ∧
      ∃ point, .pipeline run ticket point ∈ threads
  started : ∀ run ticket, (run, ticket) ∈ shared.started → shared.results.find? ticket = none →
    (shared.tracked run).pending = some ticket
  distinct : (threads.filterMap recordingTicket ++ shared.started.map Prod.snd).Nodup
  drawn : ∀ ticket ∈ threads.filterMap recordingTicket ++ shared.started.map Prod.snd,
    ticket < shared.submitted
  starting : ∀ run ticket, .recording run ticket ∈ threads → shared.results.find? ticket = none →
    ∃ point, .pipeline run ticket point ∈ threads
  flying : ∀ run, (shared.tracked run).inFlight = true → (shared.tracked run).lastResult = none
  rested : ∀ run tracked, shared.tracking.find? run = some tracked → tracked.inFlight = false →
    tracked.pending = none → ∃ ticket attempt, shared.lastStarted run = some ticket ∧
      shared.results.find? ticket = some (.ok attempt) ∧ tracked.lastResult = some attempt
  own : ∀ run ticket attempt, .pipeline run ticket (.settling attempt) ∈ threads →
    attempt.runId = run

section
variable {config : WorkflowRecoveryConfig} {shared : Orchestrator} {thread : RecoveryPoint}
variable {others next : List RecoveryPoint} {run : WorkflowRunId} {ticket : Ticket}
variable {answer : RecoveryAnswer}

theorem tracked_of_find {tracked : RunTracking} (found : shared.tracking.find? run = some tracked) :
    shared.tracked run = tracked := by
  rw [Orchestrator.tracked, found, Option.getD_some]

variable {point : PipelinePoint}

theorem Inv.replace (inv : Inv shared (thread :: others))
    (admits : ∀ run, next.countP (RecoveryPoint.admitted run) =
      if thread.admitted run then 1 else 0)
    (undrawn : recordingTicket thread = none) (idle : next.filterMap recordingTicket = [])
    (keeps : ∀ run ticket point, thread = .pipeline run ticket point →
      ∃ after, .pipeline run ticket after ∈ next)
    (own : ∀ run ticket attempt, .pipeline run ticket (.settling attempt) ∈ next →
      attempt.runId = run) :
    Inv shared (next ++ others) := by
  have carried (run : WorkflowRunId) (ticket : Ticket)
      (present : ∃ point, .pipeline run ticket point ∈ thread :: others) :
      ∃ point, .pipeline run ticket point ∈ next ++ others := by
    obtain ⟨point, present⟩ := present
    cases List.mem_cons.mp present with
    | inl same =>
        obtain ⟨after, mem⟩ := keeps run ticket point same.symm
        exact ⟨after, List.mem_append_left _ mem⟩
    | inr beside => exact ⟨point, List.mem_append_right _ beside⟩
  have drawn : (next ++ others).filterMap recordingTicket =
      (thread :: others).filterMap recordingTicket := by
    rw [List.filterMap_append, idle, List.nil_append, List.filterMap_cons_none undrawn]
  refine ⟨inv.counted, ?_, ?_, inv.started, ?_, ?_, ?_, inv.flying, inv.rested, ?_⟩
  · intro run
    rw [List.countP_append, admits, ← inv.admitted run, List.countP_cons]
    omega
  · intro run ticket pending
    obtain ⟨unreturned, last, live⟩ := inv.pending run ticket pending
    exact ⟨unreturned, last, carried run ticket live⟩
  · rw [drawn]
    exact inv.distinct
  · rw [drawn]
    exact inv.drawn
  · intro run ticket present unreturned
    refine carried run ticket (inv.starting run ticket ?_ unreturned)
    cases List.mem_append.mp present with
    | inl fresh =>
        have listed : ticket ∈ next.filterMap recordingTicket :=
          List.mem_filterMap.mpr ⟨_, fresh, rfl⟩
        rw [idle] at listed
        cases listed
    | inr beside => exact List.mem_cons_of_mem _ beside
  · intro run ticket attempt present
    cases List.mem_append.mp present with
    | inl fresh => exact own run ticket attempt fresh
    | inr beside => exact inv.own run ticket attempt (List.mem_cons_of_mem _ beside)

theorem Inv.goes {after : PipelinePoint} (inv : Inv shared (.pipeline run ticket point :: others))
    (same : ∀ other, (RecoveryPoint.pipeline run ticket after).admitted other =
      (RecoveryPoint.pipeline run ticket point).admitted other)
    (own : ∀ attempt, after = .settling attempt → attempt.runId = run) :
    Inv shared (.pipeline run ticket after :: others) := by
  have moved : Inv shared ([.pipeline run ticket after] ++ others) := inv.replace ?_ rfl rfl ?_ ?_
  · exact moved
  · intro other
    rw [List.countP_singleton, same]
  · intro other drawn before is
    cases is
    exact ⟨after, List.mem_singleton.mpr rfl⟩
  · intro other drawn attempt present
    cases List.mem_singleton.mp present
    exact own attempt rfl

theorem Inv.aside (inv : Inv shared (thread :: others))
    (admits : ∀ run, thread.admitted run = false) (undrawn : recordingTicket thread = none)
    (free : ∀ run ticket point, thread ≠ .pipeline run ticket point)
    (unadmitted : ∀ point ∈ next, ∀ run, point.admitted run = false)
    (idle : next.filterMap recordingTicket = [])
    (none : ∀ run ticket point, .pipeline run ticket point ∉ next) : Inv shared (next ++ others) := by
  refine inv.replace ?_ undrawn idle (fun run ticket point same => absurd same (free _ _ _))
    (fun run ticket attempt present => absurd present (none _ _ _))
  intro run
  rw [admits, List.countP_eq_zero.mpr fun point among => by rw [unadmitted point among run]; simp]
  simp

end

end Mira.Recovery
