import Mira.Context.WorkingContext
import Mira.Library.Interleaving

/-!
Commits of working context snapshots. A commit reads the latest snapshot of the session, compares
it with the candidate and then puts the candidate; other commits take their turns between the two
steps. The store keeps a ring of snapshots for each session, whichever task they are of, and both
steps look at the last of them only.
-/

namespace Mira.Context
open Mira Bytes Workflow

structure WorkingContextStorePolicy where
  maxSnapshotsPerSession : Nat := 8

structure TaskFrame where
  session : SessionId
  task : TaskId
  taskEpoch : Nat
  environmentEpoch : Nat
  deriving DecidableEq

def WorkingContextSnapshot.frame (snapshot : WorkingContextSnapshot) : TaskFrame :=
  ⟨snapshot.sessionId, snapshot.taskId, snapshot.taskEpoch, snapshot.environmentEpoch⟩

structure InMemoryWorkingContextStore where
  snapshots : SessionId → List WorkingContextSnapshot := fun _ => []

namespace InMemoryWorkingContextStore

def latest (store : InMemoryWorkingContextStore) (session : SessionId) :
    Option WorkingContextSnapshot :=
  (store.snapshots session).getLast?

/-- The identity chain of the stored snapshot that a put is compared with. -/
def regresses (latest snapshot : WorkingContextSnapshot) : Bool :=
  latest.taskId = snapshot.taskId && latest.taskEpoch = snapshot.taskEpoch &&
    latest.environmentEpoch = snapshot.environmentEpoch &&
    decide (snapshot.throughEventSequence < latest.throughEventSequence)

def pushed (policy : WorkingContextStorePolicy) (ring : List WorkingContextSnapshot)
    (snapshot : WorkingContextSnapshot) : List WorkingContextSnapshot :=
  if policy.maxSnapshotsPerSession < (ring ++ [snapshot]).length then (ring ++ [snapshot]).drop 1
  else ring ++ [snapshot]

def put (policy : WorkingContextStorePolicy) (store : InMemoryWorkingContextStore)
    (snapshot : WorkingContextSnapshot) : Result InMemoryWorkingContextStore :=
  match snapshot.validate with
  | .error reason => .error reason
  | .ok () =>
      if (store.latest snapshot.sessionId).any (regresses · snapshot) then
        .error (workingContextError .invalidState
          "snapshot watermark regresses behind the stored one in the same identity chain")
      else
        .ok ⟨Function.update store.snapshots snapshot.sessionId
          (pushed policy (store.snapshots snapshot.sessionId) snapshot)⟩

end InMemoryWorkingContextStore

structure WorkingContextCommitState where
  session : SessionId
  task : TaskId
  taskEpoch : Nat := 0
  environmentEpoch : Nat := 0
  sessionTerminal : Bool := false
  taskTerminal : Bool := false

inductive WorkingContextCommitDisposition
  | committed | idempotentNoOp | discardedStale | discardedTerminal

structure WorkingContextCommitOutcome where
  disposition : WorkingContextCommitDisposition := .discardedStale
  reasonCode : String
  committed : Option WorkingContextSnapshot := none

def discard (disposition : WorkingContextCommitDisposition) (reasonCode : String) :
    WorkingContextCommitOutcome :=
  { disposition := disposition, reasonCode := reasonCode }

def discardedAgainst (live : WorkingContextCommitState) (candidate : WorkingContextSnapshot) :
    Option WorkingContextCommitOutcome :=
  if candidate.validate.isOk = false then some (discard .discardedStale "invalid-candidate")
  else if live.sessionTerminal then some (discard .discardedTerminal "session-terminal")
  else if live.taskTerminal then some (discard .discardedTerminal "task-terminal")
  else if candidate.sessionId ≠ live.session then some (discard .discardedStale "session-mismatch")
  else if candidate.taskId ≠ live.task then some (discard .discardedStale "task-mismatch")
  else if candidate.taskEpoch ≠ live.taskEpoch then
    some (discard .discardedStale "task-epoch-mismatch")
  else if candidate.environmentEpoch ≠ live.environmentEpoch then
    some (discard .discardedStale "environment-epoch-mismatch")
  else none

def discardedBehind (existing candidate : WorkingContextSnapshot) :
    Option WorkingContextCommitOutcome :=
  if existing.taskId = candidate.taskId ∧ existing.taskEpoch = candidate.taskEpoch ∧
      existing.environmentEpoch = candidate.environmentEpoch then
    if candidate.throughEventSequence < existing.throughEventSequence then
      some (discard .discardedStale "stale-watermark")
    else if candidate.throughEventSequence = existing.throughEventSequence then
      if candidate.stateDigest = existing.stateDigest then
        some (discard .idempotentNoOp "idempotent-replay")
      else some (discard .discardedStale "conflicting-watermark")
    else none
  else none

/-- Where a commit stands between its two uses of the store. -/
inductive CommitPoint
  | reading (candidate : WorkingContextSnapshot) (live : WorkingContextCommitState)
  | writing (candidate : WorkingContextSnapshot)

/-- The store, with what was put into it and what the commits answered. -/
structure Commits where
  store : InMemoryWorkingContextStore := {}
  history : List WorkingContextSnapshot := []
  outcomes : List WorkingContextCommitOutcome := []

def Commits.answer (commits : Commits) (outcome : WorkingContextCommitOutcome) : Commits :=
  { commits with outcomes := commits.outcomes ++ [outcome] }

structure CommitCall where
  candidate : WorkingContextSnapshot
  live : WorkingContextCommitState

def enterCommit (call : CommitCall) : CommitPoint := .reading call.candidate call.live

/-- `commit_working_context` up to its next use of the store. -/
def advanceCommit (policy : WorkingContextStorePolicy) (commits : Commits) (point : CommitPoint)
    (_ : Unit) : Commits × List CommitPoint :=
  match point with
  | .reading candidate live =>
      match discardedAgainst live candidate with
      | some outcome => (commits.answer outcome, [])
      | none =>
          match (commits.store.latest candidate.sessionId).bind (discardedBehind · candidate) with
          | some outcome => (commits.answer outcome, [])
          | none => (commits, [.writing candidate])
  | .writing candidate =>
      match commits.store.put policy candidate with
      | .error _ => (commits.answer (discard .discardedStale "store-rejected"), [])
      | .ok store =>
          ({ commits with store := store, history := commits.history ++ [candidate] }.answer
            { disposition := .committed, reasonCode := "committed", committed := some candidate },
            [])

abbrev CommitPool := Interleaving.Pool Commits CommitPoint

abbrev CommitTurn := Interleaving.Turn CommitCall Unit

def commitMachine (policy : WorkingContextStorePolicy) :
    CommitPool → CommitTurn → CommitPool × Unit :=
  Interleaving.takeTurn enterCommit (advanceCommit policy)

def noCommits : CommitPool := ⟨{}, []⟩

/-- The watermarks of a frame increase along what was put. -/
def Increasing (history : List WorkingContextSnapshot) : Prop :=
  history.Pairwise fun earlier later =>
    earlier.frame = later.frame → earlier.throughEventSequence < later.throughEventSequence

/-- The candidate is beyond everything that was put for its frame. -/
def Newest (history : List WorkingContextSnapshot) (candidate : WorkingContextSnapshot) : Prop :=
  ∀ earlier ∈ history, earlier.frame = candidate.frame →
    earlier.throughEventSequence < candidate.throughEventSequence

/-- Where the latest snapshot of the session is of the candidate's frame, nobody put the
candidate's watermark in the meantime; where it is not, the candidate is the newest of its
frame. -/
def Ahead (commits : Commits) (candidate : WorkingContextSnapshot) : Prop :=
  match commits.store.latest candidate.sessionId with
  | none => Newest commits.history candidate
  | some latest =>
      if latest.frame = candidate.frame then
        latest.throughEventSequence ≠ candidate.throughEventSequence
      else Newest commits.history candidate

def PutAhead (commits : Commits) (point : CommitPoint) (_ : List CommitPoint) (_ : Unit) : Prop :=
  match point with
  | .reading _ _ => True
  | .writing candidate => Ahead commits candidate

theorem increasing_append (history : List WorkingContextSnapshot)
    (candidate : WorkingContextSnapshot) :
    Increasing (history ++ [candidate]) ↔ Increasing history ∧ Newest history candidate := by
  simp only [Increasing, Newest, List.pairwise_append, List.pairwise_singleton, List.mem_singleton,
    forall_eq, true_and]

/-- The last snapshot of a ring is the last one put for the session, and what is to be written
was validated. -/
structure CommitInv (commits : Commits) (points : List CommitPoint) : Prop where
  last : ∀ session latest, commits.store.latest session = some latest →
    (commits.history.filter (·.sessionId = session)).getLast? = some latest
  valid : ∀ candidate, CommitPoint.writing candidate ∈ points → candidate.validate = .ok ()

section
open InMemoryWorkingContextStore
variable {policy : WorkingContextStorePolicy} {store : InMemoryWorkingContextStore}
variable {commits : Commits} {points : List CommitPoint} {live : WorkingContextCommitState}
variable {candidate latest : WorkingContextSnapshot} {reason : Error}

theorem CommitInv.answer (inv : CommitInv commits points)
    (outcome : WorkingContextCommitOutcome) :
    CommitInv (commits.answer outcome) points :=
  ⟨inv.last, inv.valid⟩

theorem validate_of_discardedAgainst (passed : discardedAgainst live candidate = none) :
    candidate.validate = .ok () := by
  unfold discardedAgainst at passed
  split at passed
  · cases passed
  · next valid =>
      cases checked : candidate.validate with
      | error reason => rw [checked] at valid; exact absurd rfl valid
      | ok found => rfl

/-- A commit that goes on to its write was beyond the latest snapshot of its frame. -/
theorem writing_beyond
    (goes : .writing candidate ∈ (advanceCommit policy commits (.reading candidate live) ()).2)
    (stored : commits.store.latest candidate.sessionId = some latest)
    (frame : latest.frame = candidate.frame) :
    latest.throughEventSequence < candidate.throughEventSequence := by
  rw [advanceCommit] at goes
  split at goes
  · cases goes
  · rw [stored, Option.bind_some] at goes
    split at goes
    · cases goes
    · next passed =>
        rw [WorkingContextSnapshot.frame, WorkingContextSnapshot.frame,
          TaskFrame.mk.injEq] at frame
        rw [discardedBehind, if_pos ⟨frame.2.1, frame.2.2.1, frame.2.2.2⟩] at passed
        split at passed
        · cases passed
        · split at passed
          · split at passed <;> cases passed
          · omega

theorem put_ok {store' : InMemoryWorkingContextStore}
    (accepted : store.put policy candidate = .ok store') :
    (∀ latest, store.latest candidate.sessionId = some latest →
      regresses latest candidate = false) ∧
    store'.snapshots = Function.update store.snapshots candidate.sessionId
      (pushed policy (store.snapshots candidate.sessionId) candidate) := by
  unfold put at accepted
  split at accepted
  · cases accepted
  · split at accepted
    · cases accepted
    · next forward =>
        cases accepted
        refine ⟨fun latest here => ?_, rfl⟩
        rw [here, Option.any_some] at forward
        exact Bool.eq_false_iff.mpr forward

theorem put_rejected (valid : candidate.validate = .ok ())
    (rejected : store.put policy candidate = .error reason) :
    ∃ latest, store.latest candidate.sessionId = some latest ∧
      regresses latest candidate = true := by
  unfold put at rejected
  rw [valid] at rejected
  dsimp only at rejected
  split at rejected
  · next behind => exact Option.any_eq_true _ _ |>.mp behind
  · cases rejected

theorem latest_pushed (policy : WorkingContextStorePolicy) (ring : List WorkingContextSnapshot)
    (candidate latest : WorkingContextSnapshot)
    (last : (pushed policy ring candidate).getLast? = some latest) : latest = candidate := by
  unfold pushed at last
  split at last
  · cases ring with
    | nil => cases last
    | cons first ring =>
        rw [List.cons_append, List.drop_one, List.tail_cons, List.getLast?_append] at last
        exact (Option.some.inj last).symm
  · rw [List.getLast?_append] at last
    exact (Option.some.inj last).symm

theorem CommitInv.put (inv : CommitInv commits points)
    (accepted : commits.store.put policy candidate = .ok store) :
    CommitInv { commits with store := store, history := commits.history ++ [candidate] }
      points := by
  obtain ⟨_, written⟩ := put_ok accepted
  refine ⟨fun session latest here => ?_, inv.valid⟩
  rw [InMemoryWorkingContextStore.latest, written] at here
  rw [List.filter_append]
  by_cases own : session = candidate.sessionId
  · subst own
    rw [Function.update_self] at here
    rw [latest_pushed policy _ candidate latest here]
    simp
  · rw [Function.update_of_ne own] at here
    have other : candidate.sessionId ≠ session := fun same => own same.symm
    have kept := inv.last session latest here
    simpa [other] using kept

theorem commitInv_turn (policy : WorkingContextStorePolicy) (commits : Commits)
    (point : CommitPoint) (others : List CommitPoint) (answer : Unit)
    (inv : CommitInv commits (point :: others)) :
    CommitInv (advanceCommit policy commits point answer).1
      ((advanceCommit policy commits point answer).2 ++ others) := by
  have rest : CommitInv commits others :=
    ⟨inv.last, fun candidate present => inv.valid candidate (.tail _ present)⟩
  cases point with
  | reading candidate live =>
      rw [advanceCommit]
      split
      · exact rest.answer _
      · next passed =>
          split
          · exact rest.answer _
          · refine ⟨inv.last, fun other present => ?_⟩
            cases present with
            | head => exact validate_of_discardedAgainst passed
            | tail _ later => exact rest.valid other later
  | writing candidate =>
      rw [advanceCommit]
      split
      · exact rest.answer _
      · next accepted => exact (rest.put accepted).answer _

theorem commitInv_run (policy : WorkingContextStorePolicy) (pool : CommitPool)
    (turns : List CommitTurn) (start : CommitInv pool.shared pool.threads) :
    CommitInv (Execution.run (commitMachine policy) pool turns).shared
      (Execution.run (commitMachine policy) pool turns).threads := by
  refine Interleaving.run_invariant (fun _ _ _ _ => True) CommitInv ?_ ?_ ?_ pool turns start
    (Interleaving.guarded_of_forall (fun _ _ _ _ => trivial) pool turns)
  · intro commits first second perm inv
    exact ⟨inv.last, fun candidate present => inv.valid candidate (perm.mem_iff.mpr present)⟩
  · intro commits points call inv
    refine ⟨inv.last, fun candidate present => ?_⟩
    cases present with
    | tail _ later => exact inv.valid candidate later
  · intro commits point others answer _ inv
    exact commitInv_turn policy commits point others answer inv

theorem newest_of_last {history : List WorkingContextSnapshot} (monotone : Increasing history)
    (last : (history.filter (·.sessionId = candidate.sessionId)).getLast? = some latest)
    (behind : latest.throughEventSequence < candidate.throughEventSequence)
    (same : latest.frame = candidate.frame) : Newest history candidate := by
  intro earlier present frame
  have session : earlier.sessionId = candidate.sessionId := congrArg TaskFrame.session frame
  have own : earlier ∈ history.filter (·.sessionId = candidate.sessionId) :=
    List.mem_filter.mpr ⟨present, decide_eq_true session⟩
  have increasing := monotone.filter (·.sessionId = candidate.sessionId)
  obtain ⟨before, shape⟩ := List.getLast?_eq_some_iff.mp last
  rw [shape] at own increasing
  cases List.mem_append.mp own with
  | inl older =>
      have step := (List.pairwise_append.mp increasing).2.2 earlier older latest (by simp)
        (frame.trans same.symm)
      omega
  | inr here =>
      rw [List.mem_singleton.mp here]
      exact behind

theorem regresses_iff (session : latest.sessionId = candidate.sessionId) :
    regresses latest candidate = true ↔ latest.frame = candidate.frame ∧
      candidate.throughEventSequence < latest.throughEventSequence := by
  simp only [regresses, WorkingContextSnapshot.frame, Bool.and_eq_true, decide_eq_true_eq,
    TaskFrame.mk.injEq, session, true_and, and_assoc]

theorem put_ahead_iff (inv : CommitInv commits points)
    (monotone : Increasing commits.history)
    (accepted : commits.store.put policy candidate = .ok store) :
    Ahead commits candidate ↔ Newest commits.history candidate := by
  unfold Ahead
  cases found : commits.store.latest candidate.sessionId with
  | none => exact Iff.rfl
  | some latest =>
      have last := inv.last _ latest found
      have present := List.mem_filter.mp (List.mem_of_getLast? last)
      have session : latest.sessionId = candidate.sessionId := of_decide_eq_true present.2
      have forward := (put_ok accepted).1 latest found
      dsimp only
      split
      · next same =>
          constructor
          · intro other
            refine newest_of_last monotone last ?_ same
            by_contra behind
            have back := (regresses_iff session).mpr ⟨same, by omega⟩
            rw [forward] at back
            cases back
          · intro newest
            exact Nat.ne_of_lt (newest latest present.1 same)
      · exact Iff.rfl

theorem ahead_of_rejected (inv : CommitInv commits points)
    (valid : candidate.validate = .ok ())
    (rejected : commits.store.put policy candidate = .error reason) : Ahead commits candidate := by
  obtain ⟨latest, found, behind⟩ := put_rejected valid rejected
  have present := List.mem_filter.mp (List.mem_of_getLast? (inv.last _ latest found))
  have back := (regresses_iff (of_decide_eq_true present.2)).mp behind
  rw [Ahead, found]
  dsimp only
  rw [if_pos back.1]
  exact Nat.ne_of_gt back.2

theorem increasing_advance {point : CommitPoint} {others : List CommitPoint} {answer : Unit}
    (inv : CommitInv commits (point :: others)) (monotone : Increasing commits.history) :
    Increasing (advanceCommit policy commits point answer).1.history ↔
      PutAhead commits point others answer := by
  cases point with
  | reading candidate live =>
      have kept : (advanceCommit policy commits (.reading candidate live) answer).1.history =
          commits.history := by
        rw [advanceCommit]
        split
        · rfl
        · split
          · rfl
          · rfl
      rw [kept]
      exact iff_of_true monotone trivial
  | writing candidate =>
      rw [advanceCommit]
      split
      · next rejected =>
          exact iff_of_true monotone
            (ahead_of_rejected inv (inv.valid candidate (.head _)) rejected)
      · next accepted =>
          refine (increasing_append commits.history candidate).trans ?_
          rw [and_iff_right monotone]
          exact (put_ahead_iff inv monotone accepted).symm

theorem history_advance (policy : WorkingContextStorePolicy) (commits : Commits)
    (point : CommitPoint) (answer : Unit) :
    ∃ more, (advanceCommit policy commits point answer).1.history = commits.history ++ more := by
  cases point with
  | reading candidate live =>
      rw [advanceCommit]
      split
      · exact ⟨[], (List.append_nil _).symm⟩
      · split
        · exact ⟨[], (List.append_nil _).symm⟩
        · exact ⟨[], (List.append_nil _).symm⟩
  | writing candidate =>
      rw [advanceCommit]
      split
      · exact ⟨[], (List.append_nil _).symm⟩
      · exact ⟨[candidate], rfl⟩

theorem increasing_turn {pool : CommitPool} (turn : CommitTurn)
    (inv : CommitInv pool.shared pool.threads) :
    Increasing (commitMachine policy pool turn).1.shared.history ↔
      Increasing pool.shared.history ∧ Interleaving.TurnGuard PutAhead pool turn := by
  cases turn with
  | call entry => exact (and_iff_left trivial).symm
  | turn index answer =>
      rw [commitMachine, Interleaving.takeTurn]
      split
      · next absent =>
          refine (and_iff_left fun thread present => ?_).symm
          cases absent.symm.trans present
      · next thread present =>
          have perm := Interleaving.perm_cons_eraseIdx present
          have own : CommitInv pool.shared (thread :: pool.threads.eraseIdx index) :=
            ⟨inv.last, fun candidate here => inv.valid candidate (perm.mem_iff.mp here)⟩
          obtain ⟨more, grown⟩ := history_advance policy pool.shared thread answer
          constructor
          · intro monotone
            have before : Increasing pool.shared.history := by
              rw [grown] at monotone
              exact (List.pairwise_append.mp monotone).1
            refine ⟨before, fun other here => ?_⟩
            cases present.symm.trans here
            exact (increasing_advance own before).mp monotone
          · rintro ⟨before, guarded⟩
            exact (increasing_advance own before).mpr (guarded thread present)

end

/-- The watermarks of every frame increase along a run exactly where each put of the run is
ahead. -/
theorem commits_monotone (policy : WorkingContextStorePolicy) (turns : List CommitTurn) :
    Increasing (Execution.run (commitMachine policy) noCommits turns).shared.history ↔
      Execution.Guarded (commitMachine policy) (Interleaving.TurnGuard PutAhead) noCommits
        turns := by
  have general (pool : CommitPool) (inv : CommitInv pool.shared pool.threads) :
      Increasing (Execution.run (commitMachine policy) pool turns).shared.history ↔
        Increasing pool.shared.history ∧
          Execution.Guarded (commitMachine policy) (Interleaving.TurnGuard PutAhead) pool
            turns := by
    induction turns generalizing pool with
    | nil => exact (and_iff_left trivial).symm
    | cons turn rest ih =>
        have next : CommitInv (commitMachine policy pool turn).1.shared
            (commitMachine policy pool turn).1.threads := commitInv_run policy pool [turn] inv
        rw [Execution.run, ih _ next, increasing_turn turn inv, Execution.Guarded, and_assoc]
  have empty : CommitInv noCommits.shared noCommits.threads :=
    { last := fun session latest here => by cases here
      valid := fun candidate present => by cases present }
  rw [general noCommits empty]
  exact and_iff_right List.Pairwise.nil

def frameSnapshot (task watermark : Nat) : WorkingContextSnapshot where
  id := ⟨Id128.mk (List.replicate 16 1) rfl⟩
  sessionId := ⟨Id128.mk (List.replicate 16 2) rfl⟩
  taskId := ⟨Id128.mk (List.replicate 16 (UInt8.ofNat task)) rfl⟩
  throughEventSequence := watermark
  sourceCheckpoints := [⟨Id128.mk (List.replicate 16 3) rfl⟩]

def frameCall (task watermark : Nat) : CommitCall where
  candidate := frameSnapshot task watermark
  live := { session := (frameSnapshot task watermark).sessionId
            task := (frameSnapshot task watermark).taskId }

/-- Three commits after one another: a task, another one, and an older state of the first. -/
def switchedTasks : List CommitTurn :=
  [.call (frameCall 5 10), .turn 0 (), .turn 0 (), .call (frameCall 6 12), .turn 0 (), .turn 0 (),
    .call (frameCall 5 4), .turn 0 (), .turn 0 ()]

theorem older_state_committed :
    ¬ Increasing (Execution.run (commitMachine {}) noCommits switchedTasks).shared.history := by
  have history : (Execution.run (commitMachine {}) noCommits switchedTasks).shared.history =
      [frameSnapshot 5 10, frameSnapshot 6 12, frameSnapshot 5 4] := by rfl
  rw [history]
  intro monotone
  have pair := (List.pairwise_cons.mp monotone).1 (frameSnapshot 5 4) (by simp) rfl
  exact absurd pair (by decide)

end Mira.Context
