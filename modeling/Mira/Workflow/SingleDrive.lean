import Mira.Workflow.Frame

/-!
At most one drive of a run. A drive is held from the section that claims it to the one that
releases it. `start_run` and `execute_run` claim it in the section that looks at it;
`continue_run` looks at it long before, so its launch is the one step that can make a second
holder, and an exception out of an observation is the one end that releases nothing.
-/

namespace Mira.Workflow
open Mira Bytes

def Back.holds : Back → Option Bool
  | .drive driver => some driver.synchronous
  | _ => none

def Submitter.holds : Submitter → Option Bool
  | .draining driver _ => some driver.synchronous
  | _ => none

/-- Whether the drive that a thread holds runs in the call that asked for it. -/
def Point.holds : Point → Option Bool
  | .drive driver _ => some driver.synchronous
  | .control (.submitDrive _) | .control .restorePause | .control .release => some false
  | .control _ => none
  | .settle _ back | .stage _ back | .waitUser _ back | .unstage back => back.holds
  | .submit _ submitter | .enqueue _ submitter | .snapshot _ submitter
  | .commit _ _ submitter => submitter.holds

def Point.isOther : Point → Bool
  | .control .otherDrive => true
  | _ => false

def holders (threads : List Point) : Nat := threads.countP fun point => point.holds.isSome

def asyncHolders (threads : List Point) : Nat :=
  threads.countP fun point => point.holds = some false

def otherDrives (threads : List Point) : Nat := threads.countP Point.isOther

structure SingleDrive (shared : Shared) (threads : List Point) : Prop where
  single : holders threads ≤ 1
  active : shared.run.driveActive = true ↔ holders threads = 1
  async : shared.asyncDrives = asyncHolders threads + otherDrives threads

def Point.launches : Point → Bool
  | .control .launch => true
  | _ => false

def Point.observes : Point → Bool
  | .drive _ (.observe _) | .drive _ (.reobserve _) => true
  | _ => false

/-- A launch finds no drive, and no observation of a drive is refused. -/
def DriveKept (shared : Shared) (point : Point) (_ : List Point) (answer : Answer) : Prop :=
  (point.launches = true → shared.run.driveActive = false) ∧
    (point.observes = true → answer.observation ≠ .refused)

instance (shared : Shared) (point : Point) (others : List Point) (answer : Answer) :
    Decidable (DriveKept shared point others answer) :=
  inferInstanceAs (Decidable (_ ∧ _))

/-- The threads weigh the same. -/
structure SameDrives (first second : List Point) : Prop where
  all : holders first = holders second
  async : asyncHolders first = asyncHolders second
  other : otherDrives first = otherDrives second

inductive DriveEffect (shared : Shared) (point : Point) (result : Shared × List Point) : Prop
  | carried (active : result.1.run.driveActive = shared.run.driveActive)
      (drives : result.1.asyncDrives = shared.asyncDrives) (same : SameDrives result.2 [point])
  | claimed (next : Point) (synchronous : Bool) (free : shared.run.driveActive = false)
      (outside : point.holds = none) (own : point.isOther = false)
      (active : result.1 = shared.claim synchronous) (left : result.2 = [next])
      (inside : next.holds = some synchronous) (kept : next.isOther = false)
  | released (synchronous : Bool) (inside : point.holds = some synchronous)
      (own : point.isOther = false) (active : result.1.run.driveActive = false)
      (drives : result.1.asyncDrives =
        if synchronous then shared.asyncDrives else shared.asyncDrives - 1)
      (left : result.2 = [])
  | started (outside : point.holds = none) (own : point.isOther = false)
      (result_eq : result =
        ({ shared with asyncDrives := shared.asyncDrives + 1 }, [.control .otherDrive]))
  | ended (point_eq : point = .control .otherDrive)
      (result_eq : result = ({ shared with asyncDrives := shared.asyncDrives - 1 }, []))

section
variable {shared next : Shared} {point later : Point}

theorem sameDrives_single {first second : Point} (held : first.holds = second.holds)
    (other : first.isOther = second.isOther) : SameDrives [first] [second] := by
  refine ⟨?_, ?_, ?_⟩
  · simp only [holders, List.countP_singleton, held]
  · simp only [asyncHolders, List.countP_singleton, held]
  · simp only [otherDrives, List.countP_singleton, other]

theorem sameDrives_none (free : point.holds = none) (own : point.isOther = false) :
    SameDrives [] [point] := by
  refine ⟨?_, ?_, ?_⟩
  · simp [holders, free]
  · simp [asyncHolders, free]
  · simp [otherDrives, own]

/-- A turn leaves the drive flag and the number of drives. -/
def DrivesKept (shared next : Shared) : Prop :=
  next.run.driveActive = shared.run.driveActive ∧ next.asyncDrives = shared.asyncDrives

theorem transition_drives {moved : Shared} {target : WorkflowRunState}
    (done : shared.transition target = .ok moved) : DrivesKept shared moved := by
  obtain ⟨view, _, rfl⟩ := transition_ok done
  exact ⟨rfl, rfl⟩

theorem tryTransition_drives (shared : Shared) (target : WorkflowRunState) :
    DrivesKept shared (shared.tryTransition target) := by
  cases tryTransition_cases shared target with
  | inl same =>
      rw [same]
      exact ⟨rfl, rfl⟩
  | inr done => exact transition_drives done

theorem DriveEffect.goes (kept : DrivesKept shared next) (held : later.holds = point.holds)
    (other : later.isOther = point.isOther) : DriveEffect shared point (next, [later]) :=
  .carried kept.1 kept.2 (sameDrives_single held other)

theorem DriveEffect.stops (kept : DrivesKept shared next) (free : point.holds = none)
    (own : point.isOther = false) : DriveEffect shared point (next, []) :=
  .carried kept.1 kept.2 (sameDrives_none free own)

theorem drainNext_effect {driver : Drive} {rest : List PendingPatch}
    (kept : DrivesKept shared next) (held : point.holds = some driver.synchronous)
    (own : point.isOther = false) : DriveEffect shared point (next, drainNext driver rest) := by
  cases rest with
  | nil => exact .goes kept held.symm own.symm
  | cons patch rest => exact .goes kept held.symm own.symm

variable {submitter : Submitter}

theorem refused_effect (kept : DrivesKept shared next) (held : point.holds = submitter.holds)
    (own : point.isOther = false) : DriveEffect shared point (next, submitter.refused) := by
  cases submitter with
  | caller | decided decision => exact .stops kept held own
  | draining driver rest => exact drainNext_effect kept held own

theorem patched_effect (kept : DrivesKept shared next) (held : point.holds = submitter.holds)
    (own : point.isOther = false) : DriveEffect shared point (submitter.patched next) := by
  cases submitter with
  | caller => exact .stops kept held own
  | decided decision => exact .goes kept held.symm own.symm
  | draining driver rest => exact drainNext_effect kept held own

theorem ended_effect {back : Back} (kept : DrivesKept shared next)
    (held : point.holds = back.holds) (own : point.isOther = false) :
    DriveEffect shared point (next, back.ended) := by
  cases back with
  | caller | continuation => exact .stops kept held own
  | drive driver => exact .goes kept held.symm own.symm

theorem unescalated_effect {back : Back} (kept : DrivesKept shared next)
    (held : point.holds = back.holds) (own : point.isOther = false) :
    DriveEffect shared point (next, back.unescalated) := by
  cases back with
  | caller | continuation => exact .stops kept held own
  | drive driver => exact .goes kept held.symm own.symm

end

variable (setup : Setup) (shared : Shared)

theorem driveTurn_drives (driver : Drive) (answer : Answer) (point : DrivePoint)
    (kept : DriveKept shared (.drive driver point) [] answer) :
    DriveEffect shared (.drive driver point) (driveTurn setup shared driver answer point) := by
  cases inside : point.inner with
  | true =>
      obtain ⟨control, next⟩ := driveTurn_inner setup shared driver answer point inside
      have same : DrivesKept shared (driveTurn setup shared driver answer point).1 :=
        ⟨congrArg RunControls.driveActive control, congrArg RunControls.asyncDrives control⟩
      generalize driveTurn setup shared driver answer point = result at next same
      obtain ⟨moved, points⟩ := result
      cases next with
      | goes later target eq => exact .goes same (congrArg some eq) rfl
      | settles target => exact .goes same rfl rfl
      | stages decision => exact .goes same rfl rfl
      | lost refused observes =>
          have waits : (Point.drive driver point).observes = true := by
            obtain ⟨index, first | again⟩ := observes
            · rw [first]
              rfl
            · rw [again]
              rfl
          exact absurd refused (kept.2 waits)
  | false =>
      cases point with
      | start =>
          rw [driveTurn, driveStart]
          split
          · exact .goes ⟨rfl, rfl⟩ rfl rfl
          · next moved done => exact .goes (transition_drives done) rfl rfl
      | drain =>
          rw [driveTurn, driveDrain]
          exact drainNext_effect ⟨rfl, rfl⟩ rfl rfl
      | pausing =>
          rw [driveTurn]
          exact .goes (tryTransition_drives shared .paused) rfl rfl
      | handoff checkpoint =>
          rw [driveTurn, driveHandoff]
          split
          · exact .goes ⟨rfl, rfl⟩ rfl rfl
          · next moved done =>
              have same := transition_drives done
              cases checkpoint with
              | none => exact .goes same rfl rfl
              | some index => exact .goes ⟨same.1, same.2⟩ rfl rfl
      | ending => exact .released driver.synchronous rfl rfl rfl rfl rfl
      | _ => cases inside

variable {point : Point}

theorem plain_free (plain : point.plain = true) : point.holds = none ∧ point.isOther = false := by
  cases point with
  | drive driver point => cases plain
  | control point => cases point <;> first | exact ⟨rfl, rfl⟩ | cases plain
  | settle target back | stage decision back | waitUser decision back | unstage back =>
      cases back <;> first | exact ⟨rfl, rfl⟩ | cases plain
  | submit patch submitter | enqueue patch submitter | snapshot patch submitter
  | commit patch patched submitter =>
      cases submitter <;> first | exact ⟨rfl, rfl⟩ | cases plain

variable {threads : List Point}

theorem sameDrives_plain (nexts : ∀ thread ∈ threads, thread.plain = true)
    (plain : point.plain = true) : SameDrives threads [point] := by
  obtain ⟨free, own⟩ := plain_free plain
  have weightless := sameDrives_none free own
  refine ⟨?_, ?_, ?_⟩
  · rw [← weightless.all]
    refine List.countP_eq_zero.2 fun thread among => ?_
    simp [(plain_free (nexts thread among)).1]
  · rw [← weightless.async]
    refine List.countP_eq_zero.2 fun thread among => ?_
    simp [(plain_free (nexts thread among)).1]
  · rw [← weightless.other]
    refine List.countP_eq_zero.2 fun thread among => ?_
    simp [(plain_free (nexts thread among)).2]

theorem claimable_free {shared : Shared} (claims : claimable shared = true) :
    shared.run.driveActive = false := by
  simp only [claimable, Bool.and_eq_true, Bool.not_eq_true'] at claims
  exact claims.1.2

theorem controlTurn_drives (answer : Answer) (point : ControlPoint)
    (kept : DriveKept shared (.control point) [] answer) :
    DriveEffect shared (.control point) (controlTurn setup shared answer point) := by
  generalize turn : controlTurn setup shared answer point = result
  cases turn ▸ controlTurn_cases setup shared answer point with
  | quiet events next plain inert nexts => exact .carried rfl rfl (sameDrives_plain nexts plain)
  | started claims => exact .claimed _ false (claimable_free claims) rfl rfl rfl rfl rfl rfl
  | executed claims => exact .claimed _ true (claimable_free claims) rfl rfl rfl rfl rfl rfl
  | submitted resumed => exact .goes ⟨rfl, rfl⟩ rfl rfl
  | withdrawn | dropped => exact .goes ⟨rfl, rfl⟩ rfl rfl
  | restored => exact .goes (tryTransition_drives shared .paused) rfl rfl
  | released => exact .released false rfl rfl rfl rfl rfl
  | paused => exact .stops (tryTransition_drives shared .paused) rfl rfl
  | unmoved => exact .stops ⟨rfl, rfl⟩ rfl rfl
  | activated done =>
      have same := transition_drives done
      split <;> exact .goes ⟨same.1, same.2⟩ rfl rfl
  | reobserved | cleared | skipped | judged found calls => exact .goes ⟨rfl, rfl⟩ rfl rfl
  | undefined missing => exact .stops ⟨rfl, rfl⟩ rfl rfl
  | recovered index verdict target => exact .goes ⟨rfl, rfl⟩ rfl rfl
  | uncertain index => exact .goes ⟨rfl, rfl⟩ rfl rfl
  | launched => exact .claimed _ false (kept.1 rfl) rfl rfl rfl rfl rfl rfl
  | rejected done => exact .goes (transition_drives done) rfl rfl
  | otherStarted => exact .started rfl rfl rfl
  | otherEnded => exact .ended rfl rfl
  | shutDown => exact .goes ⟨rfl, rfl⟩ rfl rfl

theorem advance_drives (point : Point) (others : List Point) (answer : Answer)
    (kept : DriveKept shared point others answer) :
    DriveEffect shared point (advance setup shared point answer) := by
  cases point with
  | drive driver point => exact driveTurn_drives setup shared driver answer point kept
  | control point => exact controlTurn_drives setup shared answer point kept
  | settle target back => exact ended_effect (tryTransition_drives shared target.state) rfl rfl
  | stage decision back =>
      rw [advance, stageTurn]
      split
      · exact unescalated_effect ⟨rfl, rfl⟩ rfl rfl
      · exact .goes ⟨rfl, rfl⟩ rfl rfl
  | waitUser decision back =>
      rw [advance, waitUserTurn]
      split
      · exact .goes ⟨rfl, rfl⟩ rfl rfl
      · next moved done =>
          have same := transition_drives done
          exact ended_effect ⟨same.1, same.2⟩ rfl rfl
  | unstage back => exact unescalated_effect ⟨rfl, rfl⟩ rfl rfl
  | submit patch submitter =>
      rw [advance]
      generalize turn : submitTurn setup shared patch submitter = result
      cases turn ▸ submitTurn_cases setup shared patch submitter with
      | refused => exact refused_effect ⟨rfl, rfl⟩ rfl rfl
      | replayed => exact patched_effect ⟨rfl, rfl⟩ rfl rfl
      | applies => exact .goes ⟨rfl, rfl⟩ rfl rfl
      | queues => exact .goes ⟨rfl, rfl⟩ rfl rfl
  | enqueue patch submitter => exact patched_effect ⟨rfl, rfl⟩ rfl rfl
  | snapshot patch submitter =>
      rw [advance, snapshotTurn]
      split
      · exact refused_effect ⟨rfl, rfl⟩ rfl rfl
      · split
        · exact refused_effect ⟨rfl, rfl⟩ rfl rfl
        · exact .goes ⟨rfl, rfl⟩ rfl rfl
  | commit patch patched submitter =>
      rw [advance, commitTurn]
      split
      · exact refused_effect ⟨rfl, rfl⟩ rfl rfl
      · exact patched_effect ⟨rfl, rfl⟩ rfl rfl

variable (first second : List Point)

theorem holders_append :
    holders (first ++ second) = holders first + holders second := List.countP_append

theorem asyncHolders_append :
    asyncHolders (first ++ second) = asyncHolders first + asyncHolders second :=
  List.countP_append

theorem otherDrives_append :
    otherDrives (first ++ second) = otherDrives first + otherDrives second := List.countP_append

theorem holders_single {synchronous : Bool} (held : point.holds = some synchronous) :
    holders [point] = 1 ∧ asyncHolders [point] = if synchronous then 0 else 1 := by
  refine ⟨?_, ?_⟩
  · simp [holders, held]
  · cases synchronous <;> simp [asyncHolders, held]

theorem singleDrive_split (others : List Point) :
    SingleDrive shared (first ++ others) ↔
      holders first + holders others ≤ 1 ∧
        (shared.run.driveActive = true ↔ holders first + holders others = 1) ∧
        shared.asyncDrives = asyncHolders first + asyncHolders others +
          (otherDrives first + otherDrives others) := by
  rw [← holders_append, ← asyncHolders_append, ← otherDrives_append]
  exact ⟨fun inv => ⟨inv.single, inv.active, inv.async⟩, fun inv => ⟨inv.1, inv.2.1, inv.2.2⟩⟩

theorem DriveEffect.keeps {shared : Shared} {others : List Point} {result : Shared × List Point}
    (effect : DriveEffect shared point result) (inv : SingleDrive shared (point :: others)) :
    SingleDrive result.1 (result.2 ++ others) := by
  obtain ⟨single, active, async⟩ := (singleDrive_split shared [point] others).1 inv
  rw [singleDrive_split]
  cases effect with
  | carried kept drives same =>
      rw [kept, drives, same.all, same.async, same.other]
      exact ⟨single, active, async⟩
  | claimed next synchronous free outside own claim left inside kept =>
      have weightless := sameDrives_none outside own
      rw [free, ← weightless.all] at active
      rw [← weightless.all] at single
      rw [← weightless.async, ← weightless.other] at async
      obtain ⟨one, asynchronous⟩ := holders_single inside
      have other : otherDrives [next] = 0 := by simp [otherDrives, kept]
      have empty : holders others = 0 := by
        simp only [holders, List.countP_nil, Nat.zero_add, Bool.false_eq_true, false_iff]
          at single active
        simp only [holders]
        omega
      rw [claim, left, one, asynchronous, other, empty]
      refine ⟨by omega, ⟨fun _ => rfl, fun _ => rfl⟩, ?_⟩
      cases synchronous with
      | true =>
          simp [Shared.claim, async, asyncHolders, otherDrives]
      | false =>
          simp [Shared.claim, async, asyncHolders, otherDrives]
          omega
  | released synchronous inside own stopped drives left =>
      obtain ⟨one, asynchronous⟩ := holders_single inside
      have other : otherDrives [point] = 0 := by simp [otherDrives, own]
      have empty : holders others = 0 := by omega
      rw [asynchronous, other] at async
      rw [left, stopped, drives, empty]
      refine ⟨by simp [holders], by simp [holders], ?_⟩
      cases synchronous with
      | true => simp [async, asyncHolders, otherDrives]
      | false =>
          simp [async, asyncHolders, otherDrives]
          omega
  | started outside own result_eq =>
      have weightless := sameDrives_none outside own
      rw [result_eq]
      rw [← weightless.all] at single active
      rw [← weightless.async, ← weightless.other] at async
      refine ⟨single, active, ?_⟩
      rw [show asyncHolders [Point.control .otherDrive] = 0 from rfl,
        show otherDrives [Point.control .otherDrive] = 1 from rfl]
      simp only [async, asyncHolders, otherDrives, List.countP_nil]
      omega
  | ended point_eq result_eq =>
      subst point_eq
      rw [result_eq]
      refine ⟨single, active, ?_⟩
      rw [show asyncHolders [Point.control .otherDrive] = 0 from rfl,
        show otherDrives [Point.control .otherDrive] = 1 from rfl] at async
      simp only [async, asyncHolders, otherDrives, List.countP_nil]
      omega

theorem enterCall_free (call : Call) :
    (enterCall call).holds = none ∧ (enterCall call).isOther = false := by
  cases call <;> exact ⟨rfl, rfl⟩

theorem singleDrive_called {shared : Shared} (call : Call) (inv : SingleDrive shared threads) :
    SingleDrive shared (enterCall call :: threads) := by
  obtain ⟨outside, own⟩ := enterCall_free call
  have weightless := sameDrives_none outside own
  have before := (singleDrive_split shared [] threads).1 inv
  refine (singleDrive_split shared [enterCall call] threads).2 ?_
  rw [← weightless.all, ← weightless.async, ← weightless.other]
  exact before

theorem singleDrive_perm {shared : Shared} {first second : List Point}
    (shuffled : first.Perm second) (inv : SingleDrive shared first) :
    SingleDrive shared second := by
  have all : holders first = holders second := shuffled.countP_eq _
  have async : asyncHolders first = asyncHolders second := shuffled.countP_eq _
  have other : otherDrives first = otherDrives second := shuffled.countP_eq _
  exact ⟨all ▸ inv.single, all ▸ inv.active, by rw [← async, ← other]; exact inv.async⟩

/-- However the calls on a run take turns, a drive that is not lost in an exception is the only
one as long as every launch of a continued run finds none. -/
theorem single_drive (setup : Setup) (state : EffectiveState) (turns : List RunTurn)
    (kept : TurnsMeet setup DriveKept (newRun state) turns) :
    SingleDrive (runTurns setup (newRun state) turns).shared
      (runTurns setup (newRun state) turns).threads := by
  refine Interleaving.run_invariant DriveKept SingleDrive ?_ ?_ ?_ (newRun state) turns ?_ kept
  · intro shared first second shuffled inv
    exact singleDrive_perm shuffled inv
  · intro shared threads call inv
    exact singleDrive_called call inv
  · intro shared point others answer held inv
    exact (advance_drives setup shared point others answer held).keeps inv
  · exact ⟨Nat.zero_le 1, by simp [newRun, holders], rfl⟩

def sendSetup : Setup := { host := sendHost, definition := sendWorkflow }

def turnsOf (index count : Nat) (answer : Answer) : List RunTurn :=
  List.replicate count (.turn index answer)

def pausedTurns : List RunTurn :=
  .call .startRun :: turnsOf 0 6 {} ++ turnsOf 0 3 { withdrawn := true }

/-- Its resumption up to the launch. -/
def resumedTurns : List RunTurn := .call .resumeRun :: turnsOf 0 5 {}

/-- Another drive is claimed before the launch. -/
def overtakenTurns : List RunTurn := [.call .executeRun, .turn 0 {}, .turn 1 {}, .turn 1 {}]

theorem overtaken_launch :
    ¬ SingleDrive
      (runTurns sendSetup (newRun sendState) (pausedTurns ++ resumedTurns ++ overtakenTurns)).shared
      (runTurns sendSetup (newRun sendState)
        (pausedTurns ++ resumedTurns ++ overtakenTurns)).threads := by
  intro inv
  exact absurd inv.single (by decide +kernel)

theorem undisturbed_launch :
    SingleDrive
        (runTurns sendSetup (newRun sendState) (pausedTurns ++ resumedTurns ++ [.turn 0 {}])).shared
        (runTurns sendSetup (newRun sendState)
          (pausedTurns ++ resumedTurns ++ [.turn 0 {}])).threads ∧
      (runTurns sendSetup (newRun sendState)
        (pausedTurns ++ resumedTurns ++ [.turn 0 {}])).shared.run.driveActive = true :=
  ⟨single_drive sendSetup sendState _ (by decide +kernel), by decide +kernel⟩

end Mira.Workflow
