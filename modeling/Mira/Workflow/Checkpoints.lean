import Mira.Workflow.Recovered

/-!
The checkpoints of a run. A step with an escalation hook hands the run to the agent before it is
first executed. A drive tells an arrival by marks of its own, which do not outlive it: it counts
the arrival if it started the run or has come from another step. The visit of the cursor is what
they stand for.
-/

namespace Mira.Workflow
open Mira Bytes Interleaving

/-- The step hands off to the agent. -/
def hooked (setup : Setup) (index : Nat) : Bool :=
  match setup.step index with
  | some step => step.recoveryMode = some .agentEscalation
  | none => false

/-- The drive arrives at a step, and whether it takes the arrival for a new one. -/
def Point.arrival : Point → Option (Nat × Bool)
  | .drive driver (.arrive index) => some (index, driver.enters index)
  | _ => none

def Point.handsCheckpoint : Point → Bool
  | .drive _ (.handoff (some _)) => true
  | _ => false

/-- An arrival under `AgentAssisted` at a step with a hook is told or was told before in its
visit, and a run that hands off at a checkpoint is active. -/
def ArrivalsTold (setup : Setup) (shared : Shared) (point : Point) (others : List Point)
    (answer : Answer) : Prop :=
  TakesAlone setup shared point others answer ∧
    (∀ arrival ∈ point.arrival, shared.run.effective.policy = .agentAssisted ∧
      (hooked setup arrival.1 = true →
        arrival.2 = true ∨ .entered arrival.1 ∈ visit shared.journal)) ∧
    (point.handsCheckpoint = true → shared.run.view.state = .running)

instance (setup : Setup) (shared : Shared) (point : Point) (others : List Point)
    (answer : Answer) : Decidable (ArrivalsTold setup shared point others answer) :=
  inferInstanceAs (Decidable (_ ∧ _ ∧ _))

/-- The first execution of a step with a hook in a visit comes after one handoff. -/
def HandedBefore (setup : Setup) : RunEvent → List RunEvent → Prop
  | .executed index, earlier =>
      hooked setup index = true → .executed index ∉ visit earlier →
        (visit earlier).count (.handedOff index) = 1
  | _, _ => True

structure CheckpointBase (setup : Setup) (progress : Progress) : Prop where
  justified : Justified (HandedBefore setup) progress.journal
  counts : ∀ index,
    progress.checkpointHandoffs index ≤ progress.checkpointArrivals index
  unhanded : .entered progress.cursor ∉ visit progress.journal →
    (visit progress.journal).count (.handedOff progress.cursor) = 0

/-- The run has handed off at the step of the cursor if it has arrived there. -/
def Handed (setup : Setup) (progress : Progress) : Prop :=
  hooked setup progress.cursor = true → .entered progress.cursor ∈ visit progress.journal →
    (visit progress.journal).count (.handedOff progress.cursor) = 1

/-- A drive does not take an arrival that was told for a new one. -/
def Told (progress : Progress) (driver : Drive) : Prop :=
  .entered progress.cursor ∈ visit progress.journal → driver.enters progress.cursor = false

def DrivePoint.begun : DrivePoint → Bool
  | .begin | .start | .pausing | .escalate | .handoff _ | .ending => false
  | _ => true

def DrivePoint.starts : DrivePoint → Bool
  | .start => true
  | _ => false

def DrivePoint.checkpoint : DrivePoint → Option Nat
  | .handoff checkpoint => checkpoint
  | _ => none

/-- The handoff of the step of the cursor is done, or is what the drive is about to do. -/
def HandedOrDue (setup : Setup) (progress : Progress) : Option Nat → Prop
  | none => Handed setup progress
  | some index =>
      index = progress.cursor ∧ hooked setup progress.cursor = true ∧
        .entered progress.cursor ∈ visit progress.journal ∧
        (visit progress.journal).count (.handedOff progress.cursor) = 0

def CheckpointAt (setup : Setup) (shared : Shared) : Role → Prop
  | .drive driver point =>
      Told shared.progress driver ∧ HandedOrDue setup shared.progress point.checkpoint ∧
        (point.begun = true → shared.run.view.state ≠ .created) ∧
        (point.starts = true →
          shared.run.view.state = .created ∨ shared.run.view.state = .cancelled)
  | .settling driver =>
      (∀ own ∈ driver, Told shared.progress own) ∧ Handed setup shared.progress
  | .patching driver =>
      Told shared.progress driver ∧ Handed setup shared.progress ∧
        shared.run.view.state ≠ .created
  | .control _ => Handed setup shared.progress

/-- A run that has not started has arrived nowhere. -/
def CheckpointNew (shared : Shared) : Prop :=
  shared.run.view.state = .created → .entered shared.run.cursor ∉ visit shared.journal

def CheckpointFact (setup : Setup) (shared : Shared) (role : Role) : Prop :=
  CheckpointBase setup shared.progress ∧ CheckpointNew shared ∧ CheckpointAt setup shared role

def CheckpointIdle (setup : Setup) (shared : Shared) : Prop :=
  CheckpointBase setup shared.progress ∧ CheckpointNew shared ∧ Handed setup shared.progress

def RunEvent.mute : RunEvent → Bool
  | .moved _ | .entered _ | .handedOff _ | .executed _ => false
  | _ => true

/-- The run is where it was, with mute events added to its journal. -/
structure Muted (before after : Progress) : Prop where
  cursor : after.cursor = before.cursor
  arrivals : after.checkpointArrivals = before.checkpointArrivals
  handoffs : after.checkpointHandoffs = before.checkpointHandoffs
  journal : ∃ events, (∀ event ∈ events, RunEvent.mute event = true) ∧
    after.journal = events ++ before.journal

section
variable {setup : Setup} {before after : Progress} {driver later : Drive}

variable {event : RunEvent}

theorem mute_apart (mute : event.mute = true) :
    event.isMove = false ∧ ∀ index, event ≠ .entered index ∧ event ≠ .handedOff index := by
  cases event <;> first | exact absurd mute Bool.false_ne_true | exact ⟨rfl, by simp⟩

theorem mute_justified (mute : event.mute = true) (earlier : List RunEvent) :
    HandedBefore setup event earlier := by
  cases event <;> first | exact absurd mute Bool.false_ne_true | trivial

theorem Muted.same (muted : Muted before after) (index : Nat) :
    (.entered index ∈ visit after.journal ↔ .entered index ∈ visit before.journal) ∧
      (visit after.journal).count (.handedOff index) =
        (visit before.journal).count (.handedOff index) := by
  obtain ⟨events, mute, journal⟩ := muted.journal
  rw [journal]
  clear journal
  induction events with
  | nil => exact ⟨Iff.rfl, rfl⟩
  | cons event rest ih =>
      obtain ⟨still, apart⟩ := mute_apart (mute event List.mem_cons_self)
      obtain ⟨entered, handed⟩ := ih fun other among => mute other (List.mem_cons_of_mem _ among)
      rw [List.cons_append, visit_cons still]
      constructor
      · rw [List.mem_cons, entered]
        exact or_iff_right fun same => (apart index).1 same.symm
      · rw [List.count_cons_of_ne (apart index).2, handed]

theorem Muted.base (muted : Muted before after) (base : CheckpointBase setup before) :
    CheckpointBase setup after := by
  obtain ⟨entered, handed⟩ := muted.same before.cursor
  refine ⟨?_, ?_, ?_⟩
  · obtain ⟨events, mute, journal⟩ := muted.journal
    rw [journal]
    clear journal
    induction events with
    | nil => exact base.justified
    | cons event rest ih =>
        exact ⟨mute_justified (mute event List.mem_cons_self) _,
          ih fun other among => mute other (List.mem_cons_of_mem _ among)⟩
  · rw [muted.arrivals, muted.handoffs]
    exact base.counts
  · rw [muted.cursor, entered, handed]
    exact base.unhanded

theorem Muted.handed (muted : Muted before after) (has : Handed setup before) :
    Handed setup after := by
  obtain ⟨entered, handed⟩ := muted.same before.cursor
  rw [Handed, muted.cursor, entered, handed]
  exact has

theorem Muted.told (muted : Muted before after) (told : Told before driver) :
    Told after driver := by
  obtain ⟨entered, _⟩ := muted.same before.cursor
  rw [Told, muted.cursor, entered]
  exact told

theorem muted_refl (progress : Progress) : Muted progress progress :=
  ⟨rfl, rfl, rfl, [], by simp, rfl⟩

theorem muted_note (event : RunEvent) (mute : event.mute = true)
    (cursor : after.cursor = before.cursor)
    (arrivals : after.checkpointArrivals = before.checkpointArrivals)
    (handoffs : after.checkpointHandoffs = before.checkpointHandoffs)
    (journal : after.journal = event :: before.journal) : Muted before after :=
  ⟨cursor, arrivals, handoffs, [event], by simpa using mute, journal⟩

theorem muted_of_eq (same : after = before) : Muted before after := same ▸ muted_refl before

theorem Undisturbed.muted {shared last : Shared} (undisturbed : Undisturbed shared last) :
    Muted shared.progress last.progress := by
  obtain ⟨events, inert, same⟩ := undisturbed.progress
  rw [same]
  refine ⟨rfl, rfl, rfl, events, ?_, rfl⟩
  intro event among
  have own := inert event among
  cases event <;> first | rfl | cases own

theorem sameMarks_enters (marks : driver.SameMarks later) (index : Nat) :
    later.enters index = driver.enters index := by
  obtain ⟨_, fresh, first, previous⟩ := marks
  rw [Drive.enters, Drive.enters, fresh, first, previous]

theorem Told.marks (told : Told before driver) (marks : driver.SameMarks later) :
    Told before later :=
  fun entered => (sameMarks_enters marks _).trans (told entered)

theorem told_begin (synchronous : Bool) : Told before { synchronous := synchronous } :=
  fun _ => rfl

theorem told_arrived (driver : Drive) (index : Nat) (here : after.cursor = index) :
    Told after (driver.arrived index) := by
  intro _
  simp [Drive.enters, Drive.arrived, here]

variable {target : Nat} {earlier : List RunEvent}

theorem told_moved (journal : after.journal = .moved target :: earlier) : Told after driver := by
  intro entered
  rw [journal, visit_moved] at entered
  cases entered

theorem handed_moved (journal : after.journal = .moved target :: earlier) : Handed setup after := by
  intro _ entered
  rw [journal, visit_moved] at entered
  cases entered

theorem CheckpointBase.moved (base : CheckpointBase setup before)
    (arrivals : after.checkpointArrivals = before.checkpointArrivals)
    (handoffs : after.checkpointHandoffs = before.checkpointHandoffs)
    (journal : after.journal = .moved target :: before.journal) : CheckpointBase setup after := by
  refine ⟨?_, ?_, ?_⟩
  · rw [journal]
    exact ⟨trivial, base.justified⟩
  · rw [arrivals, handoffs]
    exact base.counts
  · intro _
    rw [journal, visit_moved]
    rfl

end

section
variable {setup : Setup} {shared after : Shared} {driver later : Drive}

theorem CheckpointNew.muted (muted : Muted shared.progress after.progress)
    (old : after.run.view.state = .created → shared.run.view.state = .created)
    (new : CheckpointNew shared) : CheckpointNew after := by
  intro created entered
  have same := (muted.same after.run.cursor).1
  have here : after.run.cursor = shared.run.cursor := muted.cursor
  exact new (old created) (here ▸ same.1 entered)

theorem CheckpointNew.moved {target : Nat} {earlier : List RunEvent}
    (journal : after.journal = .moved target :: earlier) : CheckpointNew after := by
  intro _ entered
  rw [journal, visit_moved] at entered
  cases entered

theorem checkpointAt_drive {point : DrivePoint} (told : Told after.progress later)
    (handed : Handed setup after.progress)
    (begun : point.begun = true → after.run.view.state ≠ .created)
    (open_ : point.checkpoint = none) (going : point.starts = false) :
    CheckpointAt setup after (.drive later point) := by
  refine ⟨told, ?_, begun, fun starts => ?_⟩
  · rw [open_]
    exact handed
  · rw [going] at starts
    cases starts

theorem Muted.handedOrDue {before after : Progress} (muted : Muted before after)
    {checkpoint : Option Nat} (due : HandedOrDue setup before checkpoint) :
    HandedOrDue setup after checkpoint := by
  cases checkpoint with
  | none => exact muted.handed due
  | some index =>
      obtain ⟨same, count⟩ := muted.same before.cursor
      obtain ⟨here, hook, entered, unhanded⟩ := due
      rw [HandedOrDue, muted.cursor]
      exact ⟨here, hook, same.2 entered, count.trans unhanded⟩

theorem checkpoint_undisturbed (undisturbed : Undisturbed shared after) {role : Role}
    (at_ : CheckpointAt setup shared role) : CheckpointAt setup after role := by
  have muted := undisturbed.muted
  cases role with
  | drive driver point =>
      obtain ⟨told, due, begun, starts⟩ := at_
      refine ⟨muted.told told, muted.handedOrDue due,
        fun now created => begun now (undisturbed.created created), fun now => ?_⟩
      cases starts now with
      | inl new => exact undisturbed.dropped new
      | inr dropped => exact .inr (undisturbed.settled dropped)
  | settling driver => exact ⟨fun own among => muted.told (at_.1 own among), muted.handed at_.2⟩
  | patching driver =>
      exact ⟨muted.told at_.1, muted.handed at_.2.1,
        fun now => at_.2.2 (undisturbed.created now)⟩
  | control point => exact muted.handed at_

theorem checkpoint_asides {role : Role} {next : List Role}
    (turned : AsideTurned setup shared role after next)
    (fact : CheckpointFact setup shared role) :
    Leaves (CheckpointIdle setup) (CheckpointFact setup) after next := by
  obtain ⟨base, new, at_⟩ := fact
  cases turned with
  | settles driver undisturbed | patches driver undisturbed =>
      exact ⟨undisturbed.muted.base base, new.muted undisturbed.muted undisturbed.created,
        checkpoint_undisturbed undisturbed at_⟩
  | restored undisturbed | launched undisturbed =>
      exact ⟨undisturbed.muted.base base, new.muted undisturbed.muted undisturbed.created,
        undisturbed.muted.handed at_⟩
  | settled driver undisturbed =>
      have muted := undisturbed.muted
      exact ⟨muted.base base, new.muted muted undisturbed.created,
        checkpointAt_drive (muted.told (at_.1 driver rfl)) (muted.handed at_.2) (fun begun => by cases begun)
          rfl rfl⟩
  | patched driver undisturbed =>
      have muted := undisturbed.muted
      exact ⟨muted.base base, new.muted muted undisturbed.created,
        checkpointAt_drive (muted.told at_.1) (muted.handed at_.2.1)
          (fun _ now => at_.2.2 (undisturbed.created now)) rfl rfl⟩
  | failed undisturbed =>
      exact ⟨undisturbed.muted.base base, new.muted undisturbed.muted undisturbed.created,
        undisturbed.muted.handed at_.2⟩
  | released undisturbed =>
      exact ⟨undisturbed.muted.base base, new.muted undisturbed.muted undisturbed.created,
        undisturbed.muted.handed at_⟩
  | submitted resumed =>
      exact ⟨base, new, checkpointAt_drive (told_begin false) at_ (fun begun => by cases begun) rfl rfl⟩
  | withdrawn | dropped | judged found calls => exact ⟨base, new, at_⟩
  | undefined missing => exact ⟨base, new, at_⟩
  | cleared =>
      have muted : Muted shared.progress shared.clearInterrupted.progress :=
        muted_note (.cleared shared.run.cursor) rfl rfl rfl rfl rfl
      exact ⟨muted.base base, new.muted muted id, muted.handed at_⟩
  | skipped =>
      exact ⟨base.moved rfl rfl rfl, CheckpointNew.moved rfl, handed_moved rfl⟩
  | recovered index verdict target =>
      have muted : Muted shared.progress (shared.note (.recovered index verdict)).progress :=
        muted_note (.recovered index verdict) rfl rfl rfl rfl rfl
      exact ⟨(muted.base base).moved rfl rfl rfl, CheckpointNew.moved rfl, handed_moved rfl⟩
  | uncertain index =>
      have muted : Muted shared.progress
          (shared.note (.recovered index .uncertain)).clearInterrupted.progress :=
        ⟨rfl, rfl, rfl, [.cleared shared.run.cursor, .recovered index .uncertain],
          by simp [RunEvent.mute], rfl⟩
      exact ⟨muted.base base, new.muted muted id, by simp, muted.handed at_⟩

end

end Mira.Workflow
