import Mira.Workflow.PatchFlow

/-!
The turns of the thread that has a run, by the role it is in, and the rule by which what holds
of that thread holds in every run. Whoever takes a run finds it idle; whoever lets go of it
leaves it idle; the other threads leave it undisturbed.
-/

namespace Mira.Workflow
open Mira Bytes Interleaving

def rolesOf (threads : List Point) : List Role := threads.filterMap Point.role

/-- What the owner of a run does outside of the loop. -/
inductive AsideTurned (setup : Setup) (shared : Shared) : Role → Shared → List Role → Prop
  | settles {after : Shared} (driver : Option Drive) (undisturbed : Undisturbed shared after) :
      AsideTurned setup shared (.settling driver) after [.settling driver]
  | settled {after : Shared} (driver : Drive) (undisturbed : Undisturbed shared after) :
      AsideTurned setup shared (.settling (some driver)) after [.drive driver .ending]
  | failed {after : Shared} (undisturbed : Undisturbed shared after) :
      AsideTurned setup shared (.settling none) after []
  | patches {after : Shared} (driver : Drive) (undisturbed : Undisturbed shared after) :
      AsideTurned setup shared (.patching driver) after [.patching driver]
  | patched {after : Shared} (driver : Drive) (undisturbed : Undisturbed shared after) :
      AsideTurned setup shared (.patching driver) after [.drive driver .boundary]
  | submitted (resumed : Bool) :
      AsideTurned setup shared (.control (.submitDrive resumed)) shared
        [.drive { synchronous := false } .begin]
  | withdrawn :
      AsideTurned setup shared (.control (.submitDrive true)) shared
        [.control .restorePause]
  | dropped :
      AsideTurned setup shared (.control (.submitDrive false)) shared [.control .release]
  | restored {after : Shared} (undisturbed : Undisturbed shared after) :
      AsideTurned setup shared (.control .restorePause) after [.control .release]
  | released {after : Shared} (undisturbed : Undisturbed shared after) :
      AsideTurned setup shared (.control .release) after []
  | cleared :
      AsideTurned setup shared (.control .resolveInterrupted) shared.clearInterrupted
        [.control .launch]
  | skipped :
      AsideTurned setup shared (.control .resolveInterrupted)
        (shared.leaveInterrupted (shared.run.cursor + 1)) [.control .launch]
  | judged {step : WorkflowStep} (found : setup.step shared.run.cursor = some step)
      (calls : step.kind = .toolCall) :
      AsideTurned setup shared (.control .resolveInterrupted) shared
        [.control (.judgeInterrupted shared.run.cursor)]
  | undefined {index : Nat} (missing : setup.step index = none) :
      AsideTurned setup shared (.control (.judgeInterrupted index)) shared []
  | recovered (index : Nat) (verdict : RecoveryVerdict) (target : Nat) :
      AsideTurned setup shared (.control (.judgeInterrupted index))
        ((shared.note (.recovered index verdict)).leaveInterrupted target)
        [.control .launch]
  | uncertain (index : Nat) :
      AsideTurned setup shared (.control (.judgeInterrupted index))
        (shared.note (.recovered index .uncertain)).clearInterrupted [.settling none]
  | launched {after : Shared} (undisturbed : Undisturbed shared after) :
      AsideTurned setup shared (.control .launch) after [.control (.submitDrive true)]

section
variable {setup : Setup} {shared after : Shared} {answer : Answer}

variable {role : Role}

theorem rolesOf_single {point : Point} (has : point.role = some role) :
    rolesOf [point] = [role] := by
  rw [rolesOf, List.filterMap_cons_some has, List.filterMap_nil]

theorem drainNext_aside {driver : Drive} {rest : List PendingPatch}
    (undisturbed : Undisturbed shared after) :
    AsideTurned setup shared (.patching driver) after (rolesOf (drainNext driver rest)) := by
  cases rest with
  | nil => exact .patched driver undisturbed
  | cons patch rest => exact .patches driver undisturbed

variable {submitter : Submitter}

theorem refused_aside (has : submitter.role = some role) :
    AsideTurned setup shared role shared (rolesOf submitter.refused) := by
  cases submitter with
  | caller | decided decision => cases has
  | draining driver rest =>
      cases has
      exact drainNext_aside (undisturbed_same rfl rfl)

theorem patched_aside (has : submitter.role = some role) (undisturbed : Undisturbed shared after) :
    AsideTurned setup shared role (submitter.patched after).1
      (rolesOf (submitter.patched after).2) := by
  cases submitter with
  | caller | decided decision => cases has
  | draining driver rest =>
      cases has
      exact drainNext_aside undisturbed

variable {next : Point}

theorem going_aside (has : submitter.role = some role) (same : next.role = submitter.role) :
    AsideTurned setup shared role shared (rolesOf [next]) := by
  rw [rolesOf_single (same.trans has)]
  cases submitter with
  | caller | decided decision => cases has
  | draining driver rest =>
      cases has
      exact .patches driver (undisturbed_same rfl rfl)

variable {back : Back}

theorem ended_aside (has : back.role = some role) (undisturbed : Undisturbed shared after) :
    AsideTurned setup shared role after (rolesOf back.ended) := by
  cases back with
  | caller => cases has
  | continuation =>
      cases has
      exact .failed undisturbed
  | drive driver =>
      cases has
      exact .settled driver undisturbed

theorem unescalated_aside (has : back.role = some role) (undisturbed : Undisturbed shared after) :
    AsideTurned setup shared role after (rolesOf back.unescalated) := by
  cases back with
  | caller => cases has
  | continuation =>
      cases has
      exact .failed undisturbed
  | drive driver =>
      cases has
      exact .settles (some driver) undisturbed

theorem staying_aside (has : back.role = some role) (same : next.role = back.role)
    (undisturbed : Undisturbed shared after) :
    AsideTurned setup shared role after (rolesOf [next]) := by
  rw [rolesOf_single (same.trans has)]
  cases back with
  | caller => cases has
  | continuation =>
      cases has
      exact .settles none undisturbed
  | drive driver =>
      cases has
      exact .settles (some driver) undisturbed

end

variable (setup : Setup) (shared : Shared)

theorem controlTurn_aside (answer : Answer) (point : ControlPoint) (own : point.owns = true) :
    AsideTurned setup shared (.control point) (controlTurn setup shared answer point).1
      (rolesOf (controlTurn setup shared answer point).2) := by
  generalize turn : controlTurn setup shared answer point = result
  cases turn ▸ controlTurn_cases setup shared answer point with
  | quiet events next plain inert nexts =>
      have free := plain_unowned plain
      simp [Point.owns, Point.role, own] at free
  | started | executed | reobserved | unmoved | activated | rejected | paused | otherStarted
  | otherEnded | shutDown => cases own
  | submitted resumed => exact .submitted resumed
  | withdrawn => exact .withdrawn
  | dropped => exact .dropped
  | restored => exact .restored (undisturbed_tried shared (by decide) (by decide))
  | released => exact .released (undisturbed_same rfl rfl)
  | cleared => exact .cleared
  | skipped => exact .skipped
  | judged found calls => exact .judged found calls
  | undefined missing => exact .undefined missing
  | recovered index verdict target => exact .recovered index verdict target
  | uncertain index => exact .uncertain index
  | launched => exact .launched (undisturbed_same rfl rfl)

theorem advance_aside (point : Point) (answer : Answer) {role : Role} (has : point.role = some role) :
    AsideTurned setup shared role (advance setup shared point answer).1
        (rolesOf (advance setup shared point answer).2) ∨
      ∃ driver at_, point = .drive driver at_ := by
  cases point with
  | drive driver point => exact .inr ⟨driver, point, rfl⟩
  | control point =>
      left
      rw [Point.role] at has
      split at has
      · next own =>
          cases has
          exact controlTurn_aside setup shared answer point own
      · cases has
  | settle target back =>
      exact .inl (ended_aside has (undisturbed_tried shared (by cases target <;> decide)
        (by cases target <;> decide)))
  | stage decision back =>
      left
      rw [advance, stageTurn]
      split
      · exact unescalated_aside has (undisturbed_same rfl rfl)
      · exact staying_aside has rfl (undisturbed_same rfl rfl)
  | waitUser decision back =>
      left
      rw [advance, waitUserTurn]
      split
      · exact staying_aside has rfl (undisturbed_same rfl rfl)
      · next moved done =>
          have entered := undisturbed_moved done (by decide) (by decide)
          exact ended_aside has (entered.trans (undisturbed_note rfl rfl rfl))
  | unstage back => exact .inl (unescalated_aside has (undisturbed_same rfl rfl))
  | submit patch submitter =>
      left
      rw [advance]
      generalize turn : submitTurn setup shared patch submitter = result
      cases turn ▸ submitTurn_cases setup shared patch submitter with
      | refused => exact refused_aside has
      | replayed => exact patched_aside has (undisturbed_same rfl rfl)
      | applies => exact going_aside has rfl
      | queues => exact going_aside has rfl
  | enqueue patch submitter => exact .inl (patched_aside has (undisturbed_same rfl rfl))
  | snapshot patch submitter =>
      left
      rw [advance, snapshotTurn]
      split
      · exact refused_aside has
      · split
        · exact refused_aside has
        · exact going_aside has rfl
  | commit patch patched submitter =>
      left
      rw [advance, commitTurn]
      split
      · exact refused_aside has
      · exact patched_aside has (undisturbed_note rfl rfl rfl)

section
variable (idle : Shared → Prop) (fact : Shared → Role → Prop)

/-- What holds after a turn that leaves the roles. -/
def Leaves (shared : Shared) : List Role → Prop
  | [] => idle shared
  | [role] => fact shared role
  | _ => False

/-- The fact about the role of a thread. -/
def RoleFact (shared : Shared) (point : Point) : Prop :=
  ∀ role, point.role = some role → fact shared role

/-- A run has one owner at most, which has the fact of its role, or is idle. -/
def RunOwned : Shared → List Point → Prop := Owned Point.owns idle (RoleFact fact)

/-- The turns keep what is said of the owner and of an idle run. -/
structure OwnerRules (setup : Setup) (guard : Shared → Point → List Point → Answer → Prop) :
    Prop where
  idles : ∀ {shared after : Shared}, Undisturbed shared after → idle shared → idle after
  facts : ∀ {shared after : Shared} {role : Role}, Undisturbed shared after →
    fact shared role → fact after role
  started : ∀ {shared : Shared} {others : List Point} {answer : Answer},
    guard shared (.control .startRun) others answer →
      (Point.control .startRun).takes setup shared = true → idle shared →
        fact (shared.claim false) (.control (.submitDrive false))
  executed : ∀ {shared : Shared} {others : List Point} {answer : Answer},
    guard shared (.control .executeRun) others answer →
      (Point.control .executeRun).takes setup shared = true → idle shared →
        fact (shared.claim true) (.drive { synchronous := true } .begin)
  activated : ∀ {shared moved : Shared} {others : List Point} {answer : Answer},
    guard shared (.control .activate) others answer → shared.transition .running = .ok moved →
      idle shared → fact (moved.note .resumed)
        (.control (if moved.run.interrupted then .resolveInterrupted else .launch))
  rejected : ∀ {shared moved : Shared}, shared.transition .running = .ok moved → idle shared →
    fact moved (.settling none)
  asides : ∀ {shared after : Shared} {role : Role} {next : List Role},
    AsideTurned setup shared role after next → fact shared role → Leaves idle fact after next
  drives : ∀ {shared : Shared} {driver : Drive} {point : DrivePoint} {others : List Point}
    {answer : Answer} {result : Shared × List Point},
    guard shared (.drive driver point) others answer →
      DriveTurned setup shared driver answer point result → fact shared (.drive driver point) →
        Leaves idle fact result.1 (rolesOf result.2)

variable {idle fact}

variable {shared : Shared} {threads : List Point}

theorem owned_of_leaves (leaves : Leaves idle fact shared (rolesOf threads)) :
    RunOwned idle fact shared threads := by
  have roles : (threads.filter Point.owns).filterMap Point.role = rolesOf threads := by
    rw [rolesOf, List.filterMap_filter]
    congr 1
    funext point
    cases found : point.role <;> simp [Point.owns, found]
  cases among : threads.filter Point.owns with
  | nil =>
      rw [among, List.filterMap_nil] at roles
      rw [← roles] at leaves
      exact .inl ⟨among, leaves⟩
  | cons owner rest =>
      have own : owner ∈ threads.filter Point.owns := by simp [among]
      obtain ⟨role, has⟩ := Option.isSome_iff_exists.1 (List.mem_filter.1 own).2
      rw [among, List.filterMap_cons_some has] at roles
      rw [← roles] at leaves
      cases rest with
      | nil =>
          refine .inr ⟨owner, among, fun other same => ?_⟩
          cases has.symm.trans same
          exact leaves
      | cons second rest =>
          have more : second ∈ threads.filter Point.owns := by simp [among]
          obtain ⟨other, also⟩ := Option.isSome_iff_exists.1 (List.mem_filter.1 more).2
          rw [List.filterMap_cons_some also] at leaves
          exact leaves.elim

variable {setup : Setup} {guard : Shared → Point → List Point → Answer → Prop}

variable {point : Point}

theorem roleFact_single {role : Role} (has : point.role = some role) (fact_ : fact shared role) :
    RunOwned idle fact shared [point] :=
  owned_of_leaves (by rw [rolesOf_single has]; exact fact_)

variable {others : List Point} {answer : Answer}

theorem OwnerRules.outside (rules : OwnerRules idle fact setup guard)
    (alone : ∀ {shared point others answer}, guard shared point others answer →
      TakesAlone setup shared point others answer) (met : guard shared point others answer)
    (out : point.owns = false) :
    KeepsOut Point.owns idle (RoleFact fact) shared others
      (advance setup shared point answer) := by
  have free : point.takes setup shared = true → others.filter Point.owns = [] := by
    intro takes
    refine List.filter_eq_nil_iff.2 fun other among => ?_
    simp [alone met takes other among]
  generalize turn : advance setup shared point answer = result
  cases turn ▸ advance_outside setup shared point answer out with
  | quiet undisturbed nexts =>
      refine .inl ⟨nexts, rules.idles undisturbed, fun owner _ has role same => ?_⟩
      exact rules.facts undisturbed (has role same)
  | started takes =>
      exact .inr ⟨free takes, fun idle_ => roleFact_single rfl (rules.started met takes idle_)⟩
  | executed takes =>
      exact .inr ⟨free takes, fun idle_ => roleFact_single rfl (rules.executed met takes idle_)⟩
  | activated done =>
      refine .inr ⟨free (takes_of_done done).1, fun idle_ => ?_⟩
      have fact_ := rules.activated met done idle_
      split
      · next cut =>
          rw [if_pos cut] at fact_
          exact roleFact_single rfl fact_
      · next uncut =>
          rw [if_neg uncut] at fact_
          exact roleFact_single rfl fact_
  | rejected done =>
      exact .inr ⟨free (takes_of_done done).2,
        fun idle_ => roleFact_single rfl (rules.rejected done idle_)⟩

theorem OwnerRules.inside (rules : OwnerRules idle fact setup guard)
    (met : guard shared point others answer) (own : point.owns = true)
    (has : RoleFact fact shared point) :
    RunOwned idle fact (advance setup shared point answer).1
      (advance setup shared point answer).2 := by
  obtain ⟨role, same⟩ := Option.isSome_iff_exists.1 own
  apply owned_of_leaves
  cases advance_aside setup shared point answer same with
  | inl aside => exact rules.asides aside (has role same)
  | inr drives =>
      obtain ⟨driver, at_, rfl⟩ := drives
      exact rules.drives met (driveTurn_cases setup shared driver answer at_) (has _ rfl)

theorem OwnerRules.run (rules : OwnerRules idle fact setup guard)
    (alone : ∀ {shared point others answer}, guard shared point others answer →
      TakesAlone setup shared point others answer)
    (pool : RunPool) (turns : List RunTurn)
    (start : RunOwned idle fact pool.shared pool.threads)
    (met : TurnsMeet setup guard pool turns) :
    RunOwned idle fact (runTurns setup pool turns).shared (runTurns setup pool turns).threads := by
  refine run_owned guard ?_ ?_ ?_ pool turns start met
  · intro call
    cases call <;> rfl
  · intro shared point others answer met out
    exact rules.outside alone met out
  · intro shared point others answer met own has
    exact rules.inside met own has

theorem RunOwned.has {role : Role} (owned : RunOwned idle fact shared (point :: others))
    (has : point.role = some role) : fact shared role := by
  have own : point.owns = true := by
    rw [Point.owns, has]
    rfl
  have held : Owned Point.owns idle (RoleFact fact) shared (point :: others) := owned
  exact (held.has own).1 role has

theorem RunOwned.base {always : Prop} (owned : RunOwned idle fact shared threads)
    (free : idle shared → always) (keeps : ∀ {role}, fact shared role → always) : always := by
  cases owned with
  | inl idles => exact free idles.2
  | inr taken =>
      obtain ⟨owner, only, has⟩ := taken
      have among : owner ∈ threads.filter Point.owns := by simp [only]
      obtain ⟨role, same⟩ := Option.isSome_iff_exists.1 (List.mem_filter.1 among).2
      exact keeps (has role same)

theorem OwnerRules.meets (rules : OwnerRules idle fact setup guard)
    (alone : ∀ {shared point others answer}, guard shared point others answer →
      TakesAlone setup shared point others answer)
    (pool : RunPool) (turns : List RunTurn)
    (start : RunOwned idle fact pool.shared pool.threads)
    (met : TurnsMeet setup guard pool turns) :
    TurnsMeet setup (fun shared point others answer =>
      guard shared point others answer ∧ RunOwned idle fact shared (point :: others))
      pool turns := by
  refine guarded_invariant guard (RunOwned idle fact) ?_ ?_ pool turns start met
  · intro shared first second shuffled owned
    exact owned.perm shuffled
  · intro turns pool start met
    exact rules.run alone pool turns start met

end

def RunEvent.isMove : RunEvent → Bool
  | .moved _ => true
  | _ => false

/-- The events since the cursor was last set, the latest first. -/
def visit (journal : List RunEvent) : List RunEvent :=
  journal.takeWhile fun event => !event.isMove

/-- Every event was allowed by what came before it. -/
def Justified (license : RunEvent → List RunEvent → Prop) : List RunEvent → Prop
  | [] => True
  | event :: earlier => license event earlier ∧ Justified license earlier

@[simp] theorem visit_moved (index : Nat) (journal : List RunEvent) :
    visit (.moved index :: journal) = [] := rfl

variable {event : RunEvent}

theorem visit_cons (stays : event.isMove = false) (journal : List RunEvent) :
    visit (event :: journal) = event :: visit journal := by
  rw [visit, List.takeWhile_cons_of_pos (by simp [stays]), visit]

theorem Justified.license {license : RunEvent → List RunEvent → Prop} {later : List RunEvent}
    {earlier : List RunEvent} (justified : Justified license (later ++ event :: earlier)) :
    license event earlier := by
  induction later with
  | nil => exact justified.1
  | cons first rest ih => exact ih justified.2

/-- The point is inside the step of the cursor. -/
def InStep (setup : Setup) (cursor : Nat) (point : DrivePoint) : Prop :=
  ∀ index, point.index = some index → index = cursor ∧
    ∃ step, setup.step index = some step ∧ (point.kind = none ∨ point.kind = some step.kind)

def PlacedFact (setup : Setup) (shared : Shared) : Role → Prop
  | .drive _ point => InStep setup shared.run.cursor point
  | _ => True

/-- A run has one owner at most, and a drive that has it is inside the step of the cursor. -/
def Placed (setup : Setup) : Shared → List Point → Prop :=
  RunOwned (fun _ => True) (PlacedFact setup)

section
variable {setup : Setup} {shared after : Shared}

theorem Undisturbed.cursor (undisturbed : Undisturbed shared after) :
    after.run.cursor = shared.run.cursor := by
  obtain ⟨events, _, same⟩ := undisturbed.progress
  exact congrArg Progress.cursor same

theorem Kept.cursor (kept : Kept shared after) : after.run.cursor = shared.run.cursor :=
  congrArg Progress.cursor kept.2

theorem countArrival_cursor (shared : Shared) (entered : Bool) (index : Nat) :
    (shared.countArrival entered index).run.cursor = shared.run.cursor := by
  rw [Shared.countArrival]
  split <;> rfl

variable {cursor : Nat} {point : DrivePoint}

theorem inStep_outside (outside : point.index = none) : InStep setup cursor point := by
  intro index about
  cases outside.symm.trans about

theorem InStep.within {index : Nat} {target : DrivePoint} (at_ : InStep setup cursor point)
    (about : point.index = some index) (within : target.index = some index)
    (kind : target.kind = none ∨ target.kind = point.kind) : InStep setup cursor target := by
  intro other same
  cases within.symm.trans same
  obtain ⟨here, step, found, fits⟩ := at_ index about
  refine ⟨here, step, found, ?_⟩
  cases kind with
  | inl any => exact .inl any
  | inr same => exact same ▸ fits

theorem placed_inStep {driver : Drive} {others : List Point}
    (placed : Placed setup shared (.drive driver point :: others)) :
    InStep setup shared.run.cursor point :=
  RunOwned.has placed rfl

theorem placed_rules (setup : Setup) (guard : Shared → Point → List Point → Answer → Prop) :
    OwnerRules (fun _ => True) (PlacedFact setup) setup guard where
  idles := fun _ _ => trivial
  facts := by
    intro shared after role undisturbed fact
    cases role with
    | drive driver point =>
        change InStep setup after.run.cursor point
        rw [undisturbed.cursor]
        exact fact
    | _ => trivial
  started := fun _ _ _ => trivial
  executed := fun _ _ _ => inStep_outside rfl
  activated := fun _ _ _ => trivial
  rejected := fun _ _ => trivial
  asides := by
    intro shared after role next turned fact
    cases turned <;> first | trivial | exact inStep_outside rfl
  drives := by
    intro shared driver point others answer result met turned fact
    cases turned with
    | drained => cases shared.run.pending <;> trivial
    | settles | lost | stages | unhanded | ended => trivial
    | reached goes found next =>
        obtain first | second := next
        · subst first
          intro index about
          cases about
          exact ⟨rfl, _, found, .inl rfl⟩
        · subst second
          intro index about
          cases about
          exact ⟨rfl, _, found, .inl rfl⟩
    | fails failure about kept marks =>
        change InStep setup _ _
        rw [kept.cursor]
        exact InStep.within fact about rfl (.inl rfl)
    | goes about within evidence kind order kept marks =>
        change InStep setup _ _
        rw [kept.cursor]
        exact InStep.within fact about within kind
    | executes index found undue within evidence kind order =>
        change InStep setup (Shared.countArrival _ _ _).run.cursor _
        rw [countArrival_cursor]
        intro other same
        cases within.symm.trans same
        exact ⟨(fact index rfl).1, _, found, kind⟩
    | dispatches index tool | navigates index edges | observes index =>
        exact InStep.within fact rfl rfl (by first | exact .inl rfl | exact .inr rfl)
    | retries index failure found allowed next =>
        obtain again | ⟨top, _⟩ := next
        · subst again
          exact InStep.within fact rfl rfl (.inl rfl)
        · subst top
          exact inStep_outside rfl
    | _ => exact inStep_outside rfl

end

end Mira.Workflow
