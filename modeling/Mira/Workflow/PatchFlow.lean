import Mira.Workflow.SingleDrive

/-!
The call that has a run. A drive has it from its claim to its end, and so has a continuation
from the section that makes the run active to the drive that it launches. The other calls leave
the progress of the run alone and can make it neither new nor active. Two sections take a run
without a look at who has it: the claim of a drive, which looks at the drive flag only, and the
transition of a continuation.
-/

namespace Mira.Workflow
open Mira Bytes

/-- Where the thread that has a run stands: in a drive, at its settlement or the escalation of
it, between its patches, or in a continuation. -/
inductive Role
  | drive (driver : Drive) (point : DrivePoint)
  | settling (driver : Option Drive)
  | patching (driver : Drive)
  | control (point : ControlPoint)

def Back.role : Back → Option Role
  | .caller => none
  | .continuation => some (.settling none)
  | .drive driver => some (.settling (some driver))

def Submitter.role : Submitter → Option Role
  | .draining driver _ => some (.patching driver)
  | _ => none

def ControlPoint.owns : ControlPoint → Bool
  | .submitDrive _ | .restorePause | .release | .resolveInterrupted | .judgeInterrupted _
  | .launch => true
  | _ => false

def Point.role : Point → Option Role
  | .drive driver point => some (.drive driver point)
  | .control point => if point.owns then some (.control point) else none
  | .settle _ back | .stage _ back | .waitUser _ back | .unstage back => back.role
  | .submit _ submitter | .enqueue _ submitter | .snapshot _ submitter
  | .commit _ _ submitter => submitter.role

/-- The thread has the run. -/
def Point.owns (point : Point) : Bool := point.role.isSome

/-- The turn of the thread takes the run: it is a claim that is not refused or a transition that
the table has. -/
def Point.takes (setup : Setup) (shared : Shared) : Point → Bool
  | .control .startRun =>
      claimable shared && decide (shared.asyncDrives < setup.config.maxConcurrentAsyncDrives)
  | .control .executeRun => claimable shared
  | .control .activate | .control .rejectRun => (shared.transition .running).isOk
  | _ => false

/-- A run is taken when no other thread has it. -/
def TakesAlone (setup : Setup) (shared : Shared) (point : Point) (others : List Point)
    (_ : Answer) : Prop :=
  point.takes setup shared = true → ∀ other ∈ others, other.owns = false

instance (setup : Setup) (shared : Shared) (point : Point) (others : List Point)
    (answer : Answer) : Decidable (TakesAlone setup shared point others answer) :=
  inferInstanceAs (Decidable (_ → _))

/-- What the threads that do not have the run leave. -/
structure Undisturbed (shared after : Shared) : Prop where
  progress : ∃ events : List RunEvent, (∀ event ∈ events, event.inert = true) ∧
    after.progress = { shared.progress with journal := events ++ shared.journal }
  running : after.run.view.state = .running → shared.run.view.state = .running
  created : after.run.view.state = .created → shared.run.view.state = .created
  dropped : shared.run.view.state = .created →
    after.run.view.state = .created ∨ after.run.view.state = .cancelled
  settled : shared.run.view.state = .cancelled → after.run.view.state = .cancelled

/-- What a thread that does not have the run can do. -/
inductive OutsideTurned (setup : Setup) (shared : Shared) : Point → Shared × List Point → Prop
  | quiet {point : Point} {after : Shared} {next : List Point}
      (undisturbed : Undisturbed shared after) (nexts : ∀ thread ∈ next, thread.owns = false) :
      OutsideTurned setup shared point (after, next)
  | started (takes : (Point.control .startRun).takes setup shared = true) :
      OutsideTurned setup shared (.control .startRun)
        (shared.claim false, [.control (.submitDrive false)])
  | executed (takes : (Point.control .executeRun).takes setup shared = true) :
      OutsideTurned setup shared (.control .executeRun)
        (shared.claim true, [.drive { synchronous := true } .begin])
  | activated {moved : Shared} (done : shared.transition .running = .ok moved) :
      OutsideTurned setup shared (.control .activate)
        (moved.note .resumed,
          if moved.run.interrupted then [.control .resolveInterrupted] else [.control .launch])
  | rejected {moved : Shared} (done : shared.transition .running = .ok moved) :
      OutsideTurned setup shared (.control .rejectRun) (moved, [.settle .failed .continuation])

section
variable {setup : Setup} {shared after moved : Shared} {target : WorkflowRunState}

theorem transition_progress (done : shared.transition target = .ok moved) :
    moved.progress = shared.progress := by
  obtain ⟨view, _, rfl⟩ := transition_ok done
  rfl

theorem transition_state (done : shared.transition target = .ok moved) :
    moved.run.view.state = target ∧
      validWorkflowRunTransition shared.run.view.state target = true := by
  obtain ⟨view, applied, rfl⟩ := transition_ok done
  rw [applyWorkflowRunTransition] at applied
  split at applied
  · split at applied <;> cases applied
  · split at applied
    · cases applied
    · next valid =>
        cases applied
        exact ⟨rfl, by simpa using valid⟩

theorem takes_of_done (done : shared.transition .running = .ok moved) :
    (Point.control .activate).takes setup shared = true ∧
      (Point.control .rejectRun).takes setup shared = true := by
  rw [Point.takes, Point.takes, done]
  exact ⟨rfl, rfl⟩

theorem undisturbed_same (same : after.progress = shared.progress)
    (state : after.run.view.state = shared.run.view.state) : Undisturbed shared after :=
  ⟨⟨[], by simp, by rw [same]; rfl⟩, fun now => state ▸ now, fun now => state ▸ now,
    fun before => .inl (state.trans before), fun before => state.trans before⟩

theorem undisturbed_note {event : RunEvent} (inert : event.inert = true)
    (same : after.progress = { shared.progress with journal := event :: shared.journal })
    (state : after.run.view.state = shared.run.view.state) : Undisturbed shared after :=
  ⟨⟨[event], by simpa using inert, same⟩, fun now => state ▸ now, fun now => state ▸ now,
    fun before => .inl (state.trans before), fun before => state.trans before⟩

theorem undisturbed_moved (done : shared.transition target = .ok moved)
    (passive : target ≠ .running) (old : target ≠ .created) : Undisturbed shared moved := by
  obtain ⟨state, valid⟩ := transition_state done
  refine ⟨⟨[], by simp, by rw [transition_progress done]; rfl⟩, ?_, ?_, ?_, ?_⟩
  · intro now
    exact absurd (state.symm.trans now) passive
  · intro now
    exact absurd (state.symm.trans now) old
  · intro before
    rw [before] at valid
    cases target <;> first | exact .inr state | exact absurd rfl passive | cases valid
  · intro before
    rw [before] at valid
    cases valid

theorem undisturbed_tried (shared : Shared) (passive : target ≠ .running)
    (old : target ≠ .created) : Undisturbed shared (shared.tryTransition target) := by
  cases tryTransition_cases shared target with
  | inl same => exact undisturbed_same (congrArg Shared.progress same) (by rw [same])
  | inr done => exact undisturbed_moved done passive old

theorem Undisturbed.trans {last : Shared} (first : Undisturbed shared after)
    (second : Undisturbed after last) : Undisturbed shared last := by
  obtain ⟨events, inert, before⟩ := first.progress
  obtain ⟨more, calm, then_⟩ := second.progress
  refine ⟨⟨more ++ events, ?_, ?_⟩, fun now => first.running (second.running now),
    fun now => first.created (second.created now), ?_,
    fun before => second.settled (first.settled before)⟩
  · intro event among
    cases List.mem_append.1 among with
    | inl later => exact calm event later
    | inr earlier => exact inert event earlier
  · have journal : after.journal = events ++ shared.journal :=
      congrArg Progress.journal before
    rw [then_, before, journal, List.append_assoc]
  · intro before_
    cases first.dropped before_ with
    | inl new => exact second.dropped new
    | inr dropped => exact .inr (second.settled dropped)

theorem plain_unowned {point : Point} (plain : point.plain = true) : point.owns = false := by
  cases point with
  | drive driver point => cases plain
  | control point => cases point <;> first | rfl | cases plain
  | settle target back | stage decision back | waitUser decision back | unstage back =>
      cases back <;> first | rfl | cases plain
  | submit patch submitter | enqueue patch submitter | snapshot patch submitter
  | commit patch patched submitter =>
      cases submitter <;> first | rfl | cases plain

end

variable (setup : Setup) (shared : Shared) (answer : Answer) (point : ControlPoint)

theorem controlTurn_outside (out : (Point.control point).owns = false) :
    OutsideTurned setup shared (.control point) (controlTurn setup shared answer point) := by
  generalize turn : controlTurn setup shared answer point = result
  cases turn ▸ controlTurn_cases setup shared answer point with
  | quiet events next plain inert nexts =>
      exact .quiet ⟨⟨events, inert, rfl⟩, id, id, .inl, id⟩
        fun thread among => plain_unowned (nexts thread among)
  | started claims room => exact .started (by simp [Point.takes, claims, room])
  | executed claims => exact .executed claims
  | reobserved =>
      exact .quiet (undisturbed_note rfl rfl rfl) (by simp [Point.owns, Point.role, ControlPoint.owns])
  | unmoved => exact .quiet (undisturbed_same rfl rfl) (by simp)
  | activated done => exact .activated done
  | rejected done => exact .rejected done
  | paused => exact .quiet (undisturbed_tried shared (by decide) (by decide)) (by simp)
  | otherStarted => exact .quiet (undisturbed_same rfl rfl) (by simp [Point.owns, Point.role, ControlPoint.owns])
  | otherEnded => exact .quiet (undisturbed_same rfl rfl) (by simp)
  | shutDown => exact .quiet (undisturbed_same rfl rfl) (by simp [Point.owns, Point.role, ControlPoint.owns])
  | _ => cases out

theorem ended_unowned {back : Back} (out : back.role.isSome = false) : back.ended = [] := by
  cases back <;> first | rfl | cases out

theorem unescalated_unowned {back : Back} (out : back.role.isSome = false) : back.unescalated = [] := by
  cases back <;> first | rfl | cases out

variable {submitter : Submitter}

theorem refused_unowned (out : submitter.role.isSome = false) : submitter.refused = [] := by
  cases submitter <;> first | rfl | cases out

theorem patched_unowned (out : submitter.role.isSome = false) :
    Undisturbed shared (submitter.patched shared).1 ∧
      ∀ thread ∈ (submitter.patched shared).2, thread.owns = false := by
  cases submitter with
  | caller => exact ⟨undisturbed_same rfl rfl, by simp [Submitter.patched]⟩
  | decided decision =>
      exact ⟨undisturbed_note rfl rfl rfl, by simp [Submitter.patched, Point.owns, Point.role, ControlPoint.owns]⟩
  | draining driver rest => cases out

theorem advance_outside (point : Point) (answer : Answer) (out : point.owns = false) :
    OutsideTurned setup shared point (advance setup shared point answer) := by
  have same : Undisturbed shared shared := undisturbed_same rfl rfl
  cases point with
  | drive driver point => cases out
  | control point => exact controlTurn_outside setup shared answer point out
  | settle target back =>
      rw [advance, settleTurn, ended_unowned out]
      exact .quiet (undisturbed_tried shared (by cases target <;> decide)
        (by cases target <;> decide)) (by simp)
  | stage decision back =>
      rw [advance, stageTurn]
      split
      · rw [unescalated_unowned out]
        exact .quiet same (by simp)
      · exact .quiet (undisturbed_same rfl rfl) (List.forall_mem_singleton.2 out)
  | waitUser decision back =>
      rw [advance, waitUserTurn]
      split
      · exact .quiet same (List.forall_mem_singleton.2 out)
      · next moved done =>
          rw [ended_unowned out]
          have entered := undisturbed_moved done (by decide) (by decide)
          exact .quiet (entered.trans (undisturbed_note rfl rfl rfl)) (by simp)
  | unstage back =>
      rw [advance, unstageTurn, unescalated_unowned out]
      exact .quiet (undisturbed_same rfl rfl) (by simp)
  | submit patch submitter =>
      rw [advance]
      generalize turn : submitTurn setup shared patch submitter = result
      cases turn ▸ submitTurn_cases setup shared patch submitter with
      | refused =>
          rw [refused_unowned out]
          exact .quiet same (by simp)
      | replayed =>
          obtain ⟨calm, nexts⟩ := patched_unowned shared out
          exact .quiet calm nexts
      | applies => exact .quiet same (List.forall_mem_singleton.2 out)
      | queues => exact .quiet same (List.forall_mem_singleton.2 out)
  | enqueue patch submitter =>
      rw [advance, enqueueTurn]
      have added : Undisturbed shared
          { shared with run := { shared.run with pending := shared.run.pending ++ [patch] } } :=
        undisturbed_same rfl rfl
      obtain ⟨calm, nexts⟩ := patched_unowned
        { shared with run := { shared.run with pending := shared.run.pending ++ [patch] } } out
      exact .quiet (added.trans calm) nexts
  | snapshot patch submitter =>
      rw [advance, snapshotTurn]
      split
      · rw [refused_unowned out]
        exact .quiet same (by simp)
      · split
        · rw [refused_unowned out]
          exact .quiet same (by simp)
        · exact .quiet same (List.forall_mem_singleton.2 out)
  | commit patch patched submitter =>
      rw [advance, commitTurn]
      split
      · rw [refused_unowned out]
        exact .quiet same (by simp)
      · obtain ⟨calm, nexts⟩ := patched_unowned (shared.commitPatch patch patched) out
        have written : Undisturbed shared (shared.commitPatch patch patched) :=
          undisturbed_note rfl rfl rfl
        exact .quiet (written.trans calm) nexts

/-!
The patches of a run on their way: from the check that admits one, through the queue and the
batch of a drive, to the section that writes it. The check, the queueing and the writing are
sections of their own, and a drive takes the whole queue out before it writes any of it. As long
as no id is submitted twice while it is on its way, the queue keeps room for those that were
admitted to it, and the run stops admitting patches only when none is on its way, a patch is
written once, and only while the run admits it.
-/

def Submitter.rest : Submitter → List PendingPatch
  | .draining _ rest => rest
  | _ => []

/-- The patches that a thread has admitted or taken out of the queue and not written yet. -/
def Point.patches : Point → List PendingPatch
  | .submit _ submitter => submitter.rest
  | .enqueue patch submitter | .snapshot patch submitter | .commit patch _ submitter =>
      patch :: submitter.rest
  | _ => []

/-- What is left of them after the turn. -/
def Point.behind : Point → List PendingPatch
  | .submit _ submitter | .enqueue _ submitter | .snapshot _ submitter
  | .commit _ _ submitter => submitter.rest
  | _ => []

def Point.submits : Point → Option PendingPatch
  | .submit patch _ => some patch
  | _ => none

def Point.queues : Point → Bool
  | .enqueue _ _ => true
  | _ => false

def patchesIn (threads : List Point) : List PendingPatch := threads.flatMap Point.patches

def queueing (threads : List Point) : Nat := threads.countP Point.queues

/-- The state that a turn takes the run to, if the table has the transition. -/
def Point.aims : Point → Option WorkflowRunState
  | .drive _ .start | .control .activate | .control .rejectRun => some .running
  | .drive _ .pausing | .control .restorePause | .control .pauseCommit => some .paused
  | .drive _ (.handoff _) => some .waitingAgent
  | .settle target _ => some target.state
  | .waitUser _ _ => some .waitingUser
  | _ => none

def admits (policy : WorkflowPolicy) (state : WorkflowRunState) : Bool :=
  policy = .interactive || (state = .waitingAgent && policy.allowsAgent)

def Point.policyAfter (shared : Shared) : Point → WorkflowPolicy
  | .commit _ patched _ => patched.policy
  | _ => shared.run.effective.policy

def Point.stateAfter (shared : Shared) (point : Point) : WorkflowRunState :=
  (point.aims.filter (validWorkflowRunTransition shared.run.view.state)).getD
    shared.run.view.state

def Point.closes (shared : Shared) (point : Point) : Bool :=
  admitsPatches shared.run && !admits (point.policyAfter shared) (point.stateAfter shared)

/-- A patch is submitted while no other with its id is on its way and the queue has room for it
beside those that were admitted to it; the run stops admitting patches when those on their way
have been confirmed. -/
def PatchesApart (setup : Setup) (shared : Shared) (point : Point) (others : List Point)
    (_ : Answer) : Prop :=
  (∀ patch ∈ point.submits,
    patch.patchId ∉ (patchesIn (point :: others)).map PendingPatch.patchId ∧
      (shared.run.view.state = .running →
        shared.run.pending.length < setup.config.maxPendingPatchesPerRun →
          shared.run.pending.length + queueing others < setup.config.maxPendingPatchesPerRun)) ∧
    (point.closes shared = true →
      ∀ patch ∈ shared.run.pending ++ (point.behind ++ patchesIn others), patch.confirmed = true)

instance (setup : Setup) (shared : Shared) (point : Point) (others : List Point)
    (answer : Answer) : Decidable (PatchesApart setup shared point others answer) :=
  inferInstanceAs (Decidable (_ ∧ _))

structure PatchFlow (setup : Setup) (shared : Shared) (threads : List Point) : Prop where
  epoch : shared.run.view.runPatchEpoch = shared.run.applied.length
  distinct : ∀ patchId,
    (shared.run.applied.map AppliedPatch.patchId).count patchId +
      (shared.run.pending.map PendingPatch.patchId).count patchId +
      ((patchesIn threads).map PendingPatch.patchId).count patchId ≤ 1
  room : shared.run.pending.length + queueing threads ≤ setup.config.maxPendingPatchesPerRun
  admitted : ∀ patch ∈ shared.run.pending ++ patchesIn threads,
    patch.confirmed = true ∨ admitsPatches shared.run = true
  written : shared.journal.filterMap RunEvent.commitId =
    (shared.run.applied.map AppliedPatch.patchId).reverse
  licensed : ∀ patchId admits, .committed patchId false admits ∈ shared.journal → admits = true

/-- A turn leaves the patches, the policy and the epoch, and commits nothing. -/
structure PatchesKept (shared after : Shared) : Prop where
  applied : after.run.applied = shared.run.applied
  pending : after.run.pending = shared.run.pending
  epoch : after.run.view.runPatchEpoch = shared.run.view.runPatchEpoch
  policy : after.run.effective.policy = shared.run.effective.policy
  journal : ∃ events, (∀ event ∈ events, RunEvent.commitId event = none) ∧
    after.journal = events ++ shared.journal

section
variable {shared after last : Shared} {point : Point} {threads : List Point}

theorem PatchesKept.refl (shared : Shared) : PatchesKept shared shared :=
  ⟨rfl, rfl, rfl, rfl, [], by simp, rfl⟩

theorem PatchesKept.trans (first : PatchesKept shared after) (second : PatchesKept after last) :
    PatchesKept shared last := by
  obtain ⟨events, silent, journal⟩ := first.journal
  obtain ⟨more, also, rest⟩ := second.journal
  refine ⟨second.applied.trans first.applied, second.pending.trans first.pending,
    second.epoch.trans first.epoch, second.policy.trans first.policy, more ++ events, ?_,
    by rw [rest, journal, List.append_assoc]⟩
  intro event among
  cases List.mem_append.1 among with
  | inl later => exact also event later
  | inr earlier => exact silent event earlier

theorem patchesKept_note (event : RunEvent) (silent : event.commitId = none) :
    PatchesKept shared (shared.note event) :=
  ⟨rfl, rfl, rfl, rfl, [event], by simpa using silent, rfl⟩

theorem Kept.patches (kept : Kept shared after) : PatchesKept shared after := by
  obtain ⟨control, progress⟩ := kept
  exact ⟨congrArg RunControls.applied control, congrArg RunControls.pending control,
    congrArg (fun controls : RunControls => controls.view.runPatchEpoch) control,
    congrArg RunControls.policy control, [], by simp, congrArg Progress.journal progress⟩

theorem transition_patches {target : WorkflowRunState}
    (done : shared.transition target = .ok after) : PatchesKept shared after := by
  obtain ⟨view, applied, rfl⟩ := transition_ok done
  rw [applyWorkflowRunTransition] at applied
  split at applied
  · split at applied <;> cases applied
  · split at applied <;> cases applied
    exact ⟨rfl, rfl, rfl, rfl, [], by simp, rfl⟩

end

/-- What a turn does to the patches. -/
inductive PatchEffect (setup : Setup) (shared : Shared) :
    Point → Shared × List Point → Prop
  | carried {point : Point} {after : Shared} {next : List Point} (kept : PatchesKept shared after)
      (state : after.run.view.state = shared.run.view.state ∨
        point.policyAfter shared = shared.run.effective.policy ∧
          after.run.view.state = point.stateAfter shared ∧ patchesIn next = [])
      (left : (patchesIn next).Sublist point.patches) (queued : queueing next = 0) :
      PatchEffect setup shared point (after, next)
  | admitted {patch : PendingPatch} {submitter : Submitter} {next : Point}
      (fresh : heldDigest shared.run patch.patchId = none)
      (allowed : patch.confirmed = true ∨ admitsPatches shared.run = true)
      (left : next.patches = patch :: submitter.rest)
      (queued : next.queues = true → shared.run.view.state = .running ∧
        shared.run.pending.length < setup.config.maxPendingPatchesPerRun) :
      PatchEffect setup shared (.submit patch submitter) (shared, [next])
  | queued {patch : PendingPatch} {submitter : Submitter} {after : Shared} {next : List Point}
      (kept : PatchesKept
        { shared with run := { shared.run with pending := shared.run.pending ++ [patch] } } after)
      (state : after.run.view.state = shared.run.view.state)
      (left : patchesIn next = submitter.rest) (none : queueing next = 0) :
      PatchEffect setup shared (.enqueue patch submitter) (after, next)
  | drained {driver : Drive} {next : List Point} (left : patchesIn next = shared.run.pending)
      (none : queueing next = 0) :
      PatchEffect setup shared (.drive driver .drain)
        ({ shared with run := { shared.run with pending := [] } }, next)
  | committed {patch : PendingPatch} {patched : EffectiveState} {submitter : Submitter}
      {after : Shared} {next : List Point}
      (kept : PatchesKept (shared.commitPatch patch patched) after)
      (state : after.run.view.state = shared.run.view.state)
      (left : patchesIn next = submitter.rest) (none : queueing next = 0) :
      PatchEffect setup shared (.commit patch patched submitter) (after, next)

section
variable {setup : Setup} {shared after : Shared} {point : Point} {threads : List Point}

theorem patchesIn_none (free : ∀ thread ∈ threads, thread.patches = []) : patchesIn threads = [] :=
  List.flatMap_eq_nil_iff.2 free

theorem queueing_none (free : ∀ thread ∈ threads, thread.queues = false) : queueing threads = 0 :=
  List.countP_eq_zero.2 fun thread among => by simp [free thread among]

theorem PatchEffect.stays (kept : PatchesKept shared after)
    (state : after.run.view.state = shared.run.view.state)
    (left : ∀ thread ∈ threads, thread.patches = [] ∧ thread.queues = false) :
    PatchEffect setup shared point (after, threads) := by
  refine .carried kept (.inl state) ?_ (queueing_none fun thread among => (left _ among).2)
  rw [patchesIn_none fun thread among => (left thread among).1]
  exact List.nil_sublist _

variable {target : WorkflowRunState}

theorem PatchEffect.moves (aims : point.aims = some target)
    (policy : point.policyAfter shared = shared.run.effective.policy)
    (kept : PatchesKept shared after) (state : after.run.view.state = target)
    (valid : validWorkflowRunTransition shared.run.view.state target = true)
    (left : ∀ thread ∈ threads, thread.patches = [] ∧ thread.queues = false) :
    PatchEffect setup shared point (after, threads) := by
  have reaches : point.stateAfter shared = target := by
    rw [Point.stateAfter, aims, Option.filter_some, if_pos valid]
    rfl
  have nothing : patchesIn threads = [] :=
    patchesIn_none fun thread among => (left thread among).1
  refine .carried kept (.inr ⟨policy, state.trans reaches.symm, nothing⟩) ?_
    (queueing_none fun thread among => (left _ among).2)
  rw [nothing]
  exact List.nil_sublist _

theorem PatchEffect.tries (aims : point.aims = some target)
    (policy : point.policyAfter shared = shared.run.effective.policy)
    (left : ∀ thread ∈ threads, thread.patches = [] ∧ thread.queues = false) :
    PatchEffect setup shared point (shared.tryTransition target, threads) := by
  cases tryTransition_cases shared target with
  | inl same =>
      rw [same]
      exact .stays (.refl shared) rfl left
  | inr done =>
      obtain ⟨state, valid⟩ := transition_state done
      exact .moves aims policy (transition_patches done) state valid left

theorem ended_empty (back : Back) :
    ∀ thread ∈ back.ended, thread.patches = [] ∧ thread.queues = false := by
  cases back <;> simp [Back.ended, Drive.at, Point.patches, Point.queues]

theorem unescalated_empty (back : Back) :
    ∀ thread ∈ back.unescalated, thread.patches = [] ∧ thread.queues = false := by
  cases back <;> simp [Back.unescalated, settleDrive, Point.patches, Point.queues]

theorem plain_empty (plain : point.plain = true) : point.patches = [] ∧ point.queues = false := by
  cases point with
  | submit patch submitter => cases submitter <;> first | exact ⟨rfl, rfl⟩ | cases plain
  | _ => first | exact ⟨rfl, rfl⟩ | cases plain

theorem drainNext_patches (driver : Drive) (rest : List PendingPatch) :
    patchesIn (drainNext driver rest) = rest ∧ queueing (drainNext driver rest) = 0 := by
  cases rest with
  | nil => exact ⟨rfl, rfl⟩
  | cons patch rest =>
      refine ⟨?_, rfl⟩
      rw [drainNext, patchesIn, List.flatMap_singleton]
      rfl

theorem refused_patches (submitter : Submitter) :
    patchesIn submitter.refused = submitter.rest ∧ queueing submitter.refused = 0 := by
  cases submitter with
  | caller | decided decision => exact ⟨rfl, rfl⟩
  | draining driver rest => exact drainNext_patches driver rest

theorem patched_patches (shared : Shared) (submitter : Submitter) :
    PatchesKept shared (submitter.patched shared).1 ∧
      (submitter.patched shared).1.run.view.state = shared.run.view.state ∧
      patchesIn (submitter.patched shared).2 = submitter.rest ∧
      queueing (submitter.patched shared).2 = 0 := by
  cases submitter with
  | caller => exact ⟨.refl shared, rfl, rfl, rfl⟩
  | decided decision =>
      exact ⟨patchesKept_note (.decisionResolved decision) rfl, rfl, rfl, rfl⟩
  | draining driver rest =>
      exact ⟨.refl shared, rfl, drainNext_patches driver rest⟩

end

variable (entered : Bool)

theorem countArrival_patches (index : Nat) :
    PatchesKept shared (shared.countArrival entered index) ∧
      (shared.countArrival entered index).run.view.state = shared.run.view.state := by
  rw [Shared.countArrival]
  split
  · exact ⟨⟨rfl, rfl, rfl, rfl, [.entered index], by simp [RunEvent.commitId], rfl⟩, rfl⟩
  · exact ⟨.refl shared, rfl⟩

theorem countExecution_patches (index : Nat) :
    PatchesKept shared ((shared.countArrival entered index).countExecution index) :=
  (countArrival_patches shared entered index).1.trans
    ⟨rfl, rfl, rfl, rfl, [.executed index], by simp [RunEvent.commitId], rfl⟩

theorem patchesKept_moveTo {shared after : Shared} (kept : PatchesKept shared after)
    (target : Nat) : PatchesKept shared (after.moveTo target) :=
  kept.trans ⟨rfl, rfl, rfl, rfl, [.moved target], by simp [RunEvent.commitId], rfl⟩

theorem driveTurn_patches (driver : Drive) (answer : Answer) (point : DrivePoint) :
    PatchEffect setup shared (.drive driver point)
      (driveTurn setup shared driver answer point) := by
  have goes : ∀ (later : Drive) (target : DrivePoint), ∀ thread ∈ later.at target,
      thread.patches = [] ∧ thread.queues = false := by
    simp [Drive.at, Point.patches, Point.queues]
  have settles : ∀ target, ∀ thread ∈ settleDrive driver target,
      thread.patches = [] ∧ thread.queues = false := by
    simp [settleDrive, Point.patches, Point.queues]
  generalize turn : driveTurn setup shared driver answer point = result
  cases turn ▸ driveTurn_cases setup shared driver answer point with
  | started done =>
      obtain ⟨state, valid⟩ := transition_state done
      exact .moves rfl rfl (transition_patches done) state valid (goes _ _)
  | drained => exact .drained (drainNext_patches _ _).1 (drainNext_patches _ _).2
  | settles target => exact .stays (.refl shared) rfl (settles target)
  | unhanded checkpoint => exact .stays (.refl shared) rfl (settles .failed)
  | paused => exact .tries rfl rfl (goes _ _)
  | skipped => exact .stays (patchesKept_moveTo (.refl shared) _) rfl (goes _ _)
  | fails failure about kept | goes about within evidence kind order kept =>
      exact .stays kept.patches kept.state (goes _ _)
  | completes about kept =>
      exact .stays (patchesKept_moveTo kept.patches _) kept.state (goes _ _)
  | handsOff index =>
      obtain ⟨kept, state⟩ := countArrival_patches shared true index
      exact .stays ⟨kept.applied, kept.pending, kept.epoch, kept.policy, kept.journal⟩ state
        (goes _ _)
  | executes index =>
      exact .stays (countExecution_patches shared _ index)
        (countArrival_patches shared _ index).2 (goes _ _)
  | jumps index target found undue kept =>
      exact .stays (patchesKept_moveTo ((countExecution_patches shared _ index).trans kept.patches)
        target) (kept.state.trans (countArrival_patches shared _ index).2) (goes _ _)
  | cutShort about =>
      exact .stays ⟨rfl, rfl, rfl, rfl, [.cut _], by simp [RunEvent.commitId], rfl⟩ rfl
        (goes _ _)
  | dispatches | navigates | observes | reobserves =>
      exact .stays (patchesKept_note _ rfl) rfl (goes _ _)
  | lost | ended => exact .stays ⟨rfl, rfl, rfl, rfl, [], by simp, rfl⟩ rfl (by simp)
  | retries index =>
      exact .stays ⟨rfl, rfl, rfl, rfl, [.retried index], by simp [RunEvent.commitId], rfl⟩ rfl
        (goes _ _)
  | fallsBack index failure target =>
      exact .stays (patchesKept_moveTo (.refl shared) target) rfl (goes _ _)
  | stages => exact .stays (.refl shared) rfl (by simp [Point.patches, Point.queues])
  | escalated kept => exact .stays kept.patches kept.state (goes _ _)
  | handedOff checkpoint done =>
      obtain ⟨state, valid⟩ := transition_state done
      cases checkpoint with
      | none => exact .moves rfl rfl (transition_patches done) state valid (goes _ _)
      | some index =>
          exact .moves rfl rfl ((transition_patches done).trans (patchesKept_note _ rfl)) state
            valid (goes _ _)
  | _ => exact .stays (.refl shared) rfl (goes _ _)

theorem controlTurn_patches :
    PatchEffect setup shared (.control point) (controlTurn setup shared answer point) := by
  generalize turn : controlTurn setup shared answer point = result
  cases turn ▸ controlTurn_cases setup shared answer point with
  | quiet events next plain inert nexts uncommitted =>
      exact .stays ⟨rfl, rfl, rfl, rfl, events, uncommitted, rfl⟩ rfl
        fun thread among => plain_empty (nexts thread among)
  | restored | paused => exact .tries rfl rfl (by simp [Point.patches, Point.queues])
  | reobserved =>
      exact .stays (patchesKept_note _ rfl) rfl (by simp [Point.patches, Point.queues])
  | activated done =>
      obtain ⟨state, valid⟩ := transition_state done
      refine .moves rfl rfl ((transition_patches done).trans (patchesKept_note _ rfl)) state valid ?_
      split <;> simp [Point.patches, Point.queues]
  | rejected done =>
      obtain ⟨state, valid⟩ := transition_state done
      exact .moves rfl rfl (transition_patches done) state valid
        (by simp [Point.patches, Point.queues])
  | cleared =>
      exact .stays ⟨rfl, rfl, rfl, rfl, [.cleared _], by simp [RunEvent.commitId], rfl⟩ rfl
        (by simp [Point.patches, Point.queues])
  | skipped =>
      exact .stays ⟨rfl, rfl, rfl, rfl, [.moved _], by simp [RunEvent.commitId], rfl⟩ rfl
        (by simp [Point.patches, Point.queues])
  | recovered index verdict target =>
      exact .stays ⟨rfl, rfl, rfl, rfl, [.moved target, .recovered index verdict],
        by simp [RunEvent.commitId], rfl⟩ rfl (by simp [Point.patches, Point.queues])
  | uncertain index =>
      exact .stays ⟨rfl, rfl, rfl, rfl, [.cleared _, .recovered index .uncertain],
        by simp [RunEvent.commitId], rfl⟩ rfl (by simp [Point.patches, Point.queues])
  | _ =>
      exact .stays ⟨rfl, rfl, rfl, rfl, [], by simp, rfl⟩ rfl
        (by simp [Drive.at, Point.patches, Point.queues])

theorem advance_patches (point : Point) (answer : Answer) :
    PatchEffect setup shared point (advance setup shared point answer) := by
  cases point with
  | drive driver point => exact driveTurn_patches setup shared driver answer point
  | control point => exact controlTurn_patches setup shared answer point
  | settle target back => exact .tries rfl rfl (ended_empty back)
  | stage decision back =>
      rw [advance, stageTurn]
      split
      · exact .stays (.refl shared) rfl (unescalated_empty back)
      · exact .stays ⟨rfl, rfl, rfl, rfl, [], by simp, rfl⟩ rfl
          (by simp [Point.patches, Point.queues])
  | waitUser decision back =>
      rw [advance, waitUserTurn]
      split
      · exact .stays (.refl shared) rfl (by simp [Point.patches, Point.queues])
      · next moved done =>
          obtain ⟨state, valid⟩ := transition_state done
          exact .moves rfl rfl ((transition_patches done).trans (patchesKept_note _ rfl)) state
            valid (ended_empty back)
  | unstage back =>
      exact .stays ⟨rfl, rfl, rfl, rfl, [], by simp, rfl⟩ rfl (unescalated_empty back)
  | submit patch submitter =>
      rw [advance]
      generalize turn : submitTurn setup shared patch submitter = result
      cases turn ▸ submitTurn_cases setup shared patch submitter with
      | refused =>
          obtain ⟨left, none⟩ := refused_patches submitter
          exact .carried (.refl shared) (.inl rfl) (left ▸ List.Sublist.refl _) none
      | replayed =>
          obtain ⟨kept, state, left, none⟩ := patched_patches shared submitter
          exact .carried kept (.inl state) (left ▸ List.Sublist.refl _) none
      | applies fresh admitted aside =>
          exact .admitted fresh admitted rfl fun queues => absurd queues Bool.false_ne_true
      | queues fresh admitted active room =>
          exact .admitted fresh admitted rfl fun _ => ⟨active, room⟩
  | enqueue patch submitter =>
      obtain ⟨kept, state, left, none⟩ := patched_patches
        { shared with run := { shared.run with pending := shared.run.pending ++ [patch] } }
        submitter
      exact .queued kept state left none
  | snapshot patch submitter =>
      obtain ⟨left, none⟩ := refused_patches submitter
      have dropped : (patchesIn submitter.refused).Sublist (patch :: submitter.rest) :=
        left ▸ List.sublist_cons_self _ _
      rw [advance, snapshotTurn]
      split
      · exact .carried (.refl shared) (.inl rfl) dropped none
      · split
        · exact .carried (.refl shared) (.inl rfl) dropped none
        · refine .carried (.refl shared) (.inl rfl) ?_ rfl
          rw [patchesIn, List.flatMap_singleton]
          exact List.Sublist.refl _
  | commit patch patched submitter =>
      rw [advance, commitTurn]
      split
      · obtain ⟨left, none⟩ := refused_patches submitter
        exact .carried (.refl shared) (.inl rfl) (left ▸ List.sublist_cons_self _ _) none
      · obtain ⟨kept, state, left, none⟩ := patched_patches (shared.commitPatch patch patched)
          submitter
        exact .committed kept state left none

end Mira.Workflow
