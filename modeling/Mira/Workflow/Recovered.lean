import Mira.Workflow.Visits
import Mira.Workflow.Waiting
import Mira.Workflow.Admitted

/-!
What a run recovers was dispatched. A tool that comes back cancelled leaves its step cut short,
for the drive to stop at the next step boundary and for a continuation to resolve. The drive
does stop there if its task was withdrawn or its context is cancelled; a tool that cancels on
its own leaves the mark on a run that goes on.
-/

namespace Mira.Workflow
open Mira Bytes Interleaving

def Point.goesOn (answer : Answer) : Point → Bool
  | .drive driver .boundary => !(driver.withdrawn || answer.withdrawn || answer.cancelled)
  | _ => false

/-- A run is taken by one thread at a time, and a drive goes on at a step boundary only if no
step was cut short. -/
def StopsWhenCut (setup : Setup) (shared : Shared) (point : Point) (others : List Point)
    (answer : Answer) : Prop :=
  TakesAlone setup shared point others answer ∧
    (point.goesOn answer = true → shared.run.interrupted = false)

instance (setup : Setup) (shared : Shared) (point : Point) (others : List Point)
    (answer : Answer) : Decidable (StopsWhenCut setup shared point others answer) :=
  inferInstanceAs (Decidable (_ ∧ _))

/-- The step was dispatched, or its navigation started, and cut short in this visit. -/
def CutInVisit (setup : Setup) (index : Nat) (journal : List RunEvent) : Prop :=
  .cut index ∈ visit journal ∧
    ((∃ sideEffects, .dispatched index sideEffects ∈ visit journal) ∨
      .navigated index ∈ visit journal ∧
        ∃ step, setup.step index = some step ∧ step.kind = .navigate)

/-- A step that is resolved as recovered was dispatched in its visit. -/
def DispatchedBefore : RunEvent → List RunEvent → Prop
  | .recovered index _, earlier =>
      ∃ sideEffects, .dispatched index sideEffects ∈ visit earlier
  | _, _ => True

structure RecoveryBase (setup : Setup) (cursor : Nat) (interrupted : Bool)
    (journal : List RunEvent) : Prop where
  cut : interrupted = true → CutInVisit setup cursor journal
  justified : Justified DispatchedBefore journal

def RecoveryIdle (setup : Setup) (shared : Shared) : Prop :=
  RecoveryBase setup shared.run.cursor shared.run.interrupted shared.journal

def RecoveryAt (shared : Shared) : Role → Prop
  | .drive _ point =>
      (point.index.isSome = true → shared.run.interrupted = false) ∧
        ∀ event, point.evidence = some event → event ∈ visit shared.journal
  | .control .resolveInterrupted => shared.run.interrupted = true
  | .control (.judgeInterrupted index) =>
      index = shared.run.cursor ∧
        ∃ sideEffects, .dispatched index sideEffects ∈ visit shared.journal
  | _ => True

def RecoveryFact (setup : Setup) (shared : Shared) (role : Role) : Prop :=
  RecoveryIdle setup shared ∧ RecoveryAt shared role

section
variable {setup : Setup} {cursor : Nat} {interrupted : Bool} {journal : List RunEvent}

theorem RecoveryBase.noted {event : RunEvent} (stays : event.isMove = false)
    (license : DispatchedBefore event journal)
    (base : RecoveryBase setup cursor interrupted journal) :
    RecoveryBase setup cursor interrupted (event :: journal) := by
  refine ⟨fun cut => ?_, license, base.justified⟩
  obtain ⟨own, through⟩ := base.cut cut
  rw [CutInVisit, visit_cons stays]
  refine ⟨List.mem_cons_of_mem _ own, ?_⟩
  cases through with
  | inl dispatched =>
      obtain ⟨sideEffects, among⟩ := dispatched
      exact .inl ⟨sideEffects, List.mem_cons_of_mem _ among⟩
  | inr navigated => exact .inr ⟨List.mem_cons_of_mem _ navigated.1, navigated.2⟩

theorem RecoveryBase.moved (target : Nat) (base : RecoveryBase setup cursor interrupted journal) :
    RecoveryBase setup target false (.moved target :: journal) :=
  ⟨fun cut => absurd cut Bool.false_ne_true, trivial, base.justified⟩

theorem RecoveryBase.cleared (base : RecoveryBase setup cursor interrupted journal) :
    RecoveryBase setup cursor false journal :=
  ⟨fun cut => absurd cut Bool.false_ne_true, base.justified⟩

end

/-- An event that neither moves the cursor nor recovers a step. -/
def RunEvent.calm (event : RunEvent) : Bool :=
  match event with
  | .moved _ | .recovered _ _ => false
  | _ => true

/-- The run stays at its step with calm events added to its journal. -/
structure Stays (shared after : Shared) : Prop where
  cursor : after.run.cursor = shared.run.cursor
  interrupted : after.run.interrupted = shared.run.interrupted
  journal : ∃ events, (∀ event ∈ events, RunEvent.calm event = true) ∧
    after.journal = events ++ shared.journal

section
variable {setup : Setup} {shared after : Shared}

variable {event : RunEvent}

theorem calm_stays (calm : event.calm = true) :
    event.isMove = false ∧ ∀ earlier, DispatchedBefore event earlier := by
  cases event <;> first | exact ⟨rfl, fun _ => trivial⟩ | cases calm

theorem stays_of_progress (same : after.progress = shared.progress) : Stays shared after :=
  ⟨congrArg Progress.cursor same, congrArg Progress.interrupted same, [], by simp,
    congrArg Progress.journal same⟩

theorem stays_note (event : RunEvent) (calm : event.calm = true)
    (cursor : after.run.cursor = shared.run.cursor)
    (interrupted : after.run.interrupted = shared.run.interrupted)
    (journal : after.journal = event :: shared.journal) : Stays shared after :=
  ⟨cursor, interrupted, [event], by simpa using calm, journal⟩

theorem Undisturbed.stays (undisturbed : Undisturbed shared after) : Stays shared after := by
  obtain ⟨events, inert, same⟩ := undisturbed.progress
  refine ⟨congrArg Progress.cursor same, congrArg Progress.interrupted same, events, ?_,
    congrArg Progress.journal same⟩
  intro event among
  have own := inert event among
  cases event <;> first | rfl | cases own

theorem Stays.trans {last : Shared} (first : Stays shared after) (second : Stays after last) :
    Stays shared last := by
  obtain ⟨events, calm, journal⟩ := first.journal
  obtain ⟨more, also, rest⟩ := second.journal
  refine ⟨second.cursor.trans first.cursor, second.interrupted.trans first.interrupted,
    more ++ events, ?_, by rw [rest, journal, List.append_assoc]⟩
  intro event among
  cases List.mem_append.1 among with
  | inl later => exact also event later
  | inr earlier => exact calm event earlier

theorem Stays.visit (stays : Stays shared after) (among : event ∈ visit shared.journal) :
    event ∈ visit after.journal := by
  obtain ⟨events, calm, journal⟩ := stays.journal
  rw [journal]
  clear journal
  induction events with
  | nil => exact among
  | cons first rest ih =>
      rw [List.cons_append, visit_cons (calm_stays (calm first List.mem_cons_self)).1]
      exact List.mem_cons_of_mem _
        (ih fun other own => calm other (List.mem_cons_of_mem _ own))

theorem Stays.idle (stays : Stays shared after) (base : RecoveryIdle setup shared) :
    RecoveryIdle setup after := by
  obtain ⟨events, calm, journal⟩ := stays.journal
  rw [RecoveryIdle, stays.cursor, stays.interrupted, journal]
  clear journal
  induction events with
  | nil => exact base
  | cons event rest ih =>
      obtain ⟨still, license⟩ := calm_stays (calm event List.mem_cons_self)
      exact RecoveryBase.noted still (license _)
        (ih fun other among => calm other (List.mem_cons_of_mem _ among))

theorem Stays.at (stays : Stays shared after) {role : Role} (at_ : RecoveryAt shared role) :
    RecoveryAt after role := by
  cases role with
  | drive driver point =>
      exact ⟨fun inside => stays.interrupted.trans (at_.1 inside),
        fun event due => stays.visit (at_.2 event due)⟩
  | control point =>
      cases point with
      | resolveInterrupted => exact stays.interrupted.trans at_
      | judgeInterrupted index =>
          obtain ⟨here, sideEffects, among⟩ := at_
          exact ⟨here.trans stays.cursor.symm, sideEffects, stays.visit among⟩
      | _ => trivial
  | _ => trivial

theorem Stays.fact (stays : Stays shared after) {role : Role}
    (fact : RecoveryFact setup shared role) : RecoveryFact setup after role :=
  ⟨stays.idle fact.1, stays.at fact.2⟩

theorem countArrival_stays (shared : Shared) (entered : Bool) (index : Nat) :
    Stays shared (shared.countArrival entered index) := by
  rw [Shared.countArrival]
  split
  · exact stays_note (.entered index) rfl rfl rfl rfl
  · exact stays_of_progress rfl

theorem countExecution_stays (shared : Shared) (entered : Bool) (index : Nat) :
    Stays shared ((shared.countArrival entered index).countExecution index) :=
  (countArrival_stays shared entered index).trans (stays_note (.executed index) rfl rfl rfl rfl)

end

section
variable {setup : Setup} {shared after : Shared} {driver later : Drive} {answer : Answer}
variable {point : DrivePoint}

theorem recoveryAt_outside {target : DrivePoint} (outside : target.index = none)
    (unproven : target.evidence = none) : RecoveryAt after (.drive later target) := by
  refine ⟨?_, ?_⟩
  · intro inside
    rw [outside] at inside
    cases inside
  · intro event due
    cases unproven.symm.trans due

theorem recovery_moved {target : Nat} (uncut : shared.run.interrupted = false)
    (base : RecoveryIdle setup shared) : RecoveryIdle setup (shared.moveTo target) := by
  have moved := RecoveryBase.moved target base
  rw [RecoveryIdle]
  change RecoveryBase setup target shared.run.interrupted (.moved target :: shared.journal)
  rw [uncut]
  exact moved

theorem evidence_cases {index : Nat} (at_ : InStep setup shared.run.cursor point)
    (about : point.index = some index) (waits : point.evidence.isSome = true)
    (has : RecoveryAt shared (.drive driver point)) :
    (∃ sideEffects, .dispatched index sideEffects ∈ visit shared.journal) ∨
      .navigated index ∈ visit shared.journal ∧
        ∃ step, setup.step index = some step ∧ step.kind = .navigate := by
  cases point with
  | inFlight own tool =>
      cases about
      exact .inl ⟨_, has.2 _ rfl⟩
  | edges own remaining last | edge own remaining =>
      cases about
      obtain ⟨_, step, found, kind⟩ := at_ _ rfl
      refine .inr ⟨has.2 _ rfl, step, found, ?_⟩
      cases kind with
      | inl any => cases any
      | inr same => exact (Option.some.inj same).symm
  | _ => cases waits

theorem recovery_cut {index : Nat} (at_ : InStep setup shared.run.cursor point)
    (about : point.index = some index) (waits : point.evidence.isSome = true)
    (fact : RecoveryFact setup shared (.drive driver point)) :
    RecoveryIdle setup (shared.cutShort index) := by
  have here : index = shared.run.cursor := (at_ index about).1
  have through := evidence_cases at_ about waits fact.2
  refine ⟨fun _ => ?_, trivial, fact.1.justified⟩
  change CutInVisit setup shared.run.cursor (.cut index :: shared.journal)
  rw [CutInVisit, visit_cons rfl, ← here]
  refine ⟨List.mem_cons_self, ?_⟩
  cases through with
  | inl dispatched =>
      obtain ⟨sideEffects, among⟩ := dispatched
      exact .inl ⟨sideEffects, List.mem_cons_of_mem _ among⟩
  | inr navigated => exact .inr ⟨List.mem_cons_of_mem _ navigated.1, navigated.2⟩

end

variable (setup : Setup) {shared : Shared}

theorem recovery_asides {after : Shared} {role : Role} {next : List Role}
    (turned : AsideTurned setup shared role after next) (fact : RecoveryFact setup shared role) :
    Leaves (RecoveryIdle setup) (RecoveryFact setup) after next := by
  obtain ⟨base, at_⟩ := fact
  cases turned with
  | settles driver undisturbed | patches driver undisturbed | restored undisturbed
  | launched undisturbed => exact ⟨undisturbed.stays.idle base, trivial⟩
  | settled driver undisturbed | patched driver undisturbed =>
      exact ⟨undisturbed.stays.idle base, recoveryAt_outside rfl rfl⟩
  | failed undisturbed | released undisturbed => exact undisturbed.stays.idle base
  | submitted resumed => exact ⟨base, recoveryAt_outside rfl rfl⟩
  | withdrawn | dropped => exact ⟨base, trivial⟩
  | cleared =>
      exact ⟨RecoveryBase.noted rfl trivial (RecoveryBase.cleared base), trivial⟩
  | skipped => exact ⟨RecoveryBase.moved _ base, trivial⟩
  | judged found calls =>
      obtain ⟨_, through⟩ := base.cut at_
      refine ⟨base, rfl, ?_⟩
      cases through with
      | inl dispatched => exact dispatched
      | inr navigated =>
          -- A step that was navigated is no tool call.
          obtain ⟨_, step, same, kind⟩ := navigated
          cases found.symm.trans same
          cases calls.symm.trans kind
  | undefined missing => exact base
  | recovered index verdict target =>
      have dispatched := at_.2
      exact ⟨RecoveryBase.moved target (RecoveryBase.noted rfl dispatched base), trivial⟩
  | uncertain index =>
      have dispatched := at_.2
      exact ⟨RecoveryBase.noted rfl trivial
        (RecoveryBase.cleared (RecoveryBase.noted rfl dispatched base)), trivial⟩

/-- The guard together with the place of the owner. -/
def StopsPlaced (setup : Setup) (shared : Shared) (point : Point) (others : List Point)
    (answer : Answer) : Prop :=
  StopsWhenCut setup shared point others answer ∧ Placed setup shared (point :: others)

theorem recovery_drives {driver : Drive} {point : DrivePoint} {others : List Point}
    {answer : Answer} {result : Shared × List Point}
    (met : StopsPlaced setup shared (.drive driver point) others answer)
    (turned : DriveTurned setup shared driver answer point result)
    (fact : RecoveryFact setup shared (.drive driver point)) :
    Leaves (RecoveryIdle setup) (RecoveryFact setup) result.1 (rolesOf result.2) := by
  have place : InStep setup shared.run.cursor point := placed_inStep met.2
  obtain ⟨base, at_⟩ := fact
  have uncut : ∀ {index}, point.index = some index → shared.run.interrupted = false :=
    fun about => at_.1 (by rw [about]; rfl)
  cases turned with
  | started done =>
      exact ⟨(stays_of_progress (transition_progress done)).idle base, recoveryAt_outside rfl rfl⟩
  | drained =>
      cases shared.run.pending with
      | nil => exact ⟨base, recoveryAt_outside rfl rfl⟩
      | cons patch rest => exact ⟨base, trivial⟩
  | settles | stages | unhanded => exact ⟨base, trivial⟩
  | paused =>
      have undisturbed : Undisturbed shared (shared.tryTransition .paused) :=
        undisturbed_tried shared (by decide) (by decide)
      exact ⟨undisturbed.stays.idle base, recoveryAt_outside rfl rfl⟩
  | skipped goes =>
      have unmarked := met.1.2 (by simp [Point.goesOn, goes])
      exact ⟨recovery_moved unmarked base, recoveryAt_outside rfl rfl⟩
  | reached goes found next =>
      have unmarked := met.1.2 (by simp [Point.goesOn, goes])
      refine ⟨base, fun _ => unmarked, ?_⟩
      obtain first | second := next
      · subst first
        intro event due
        cases due
      · subst second
        intro event due
        cases due
  | fails failure about kept marks =>
      have stays := stays_of_progress kept.2
      exact ⟨stays.idle base, fun _ => stays.interrupted.trans (uncut about),
        fun event due => by cases due⟩
  | completes about kept marks =>
      have stays := stays_of_progress kept.2
      exact ⟨recovery_moved (stays.interrupted.trans (uncut about)) (stays.idle base),
        recoveryAt_outside rfl rfl⟩
  | goes about within evidence kind order kept marks =>
      have stays := stays_of_progress kept.2
      refine ⟨stays.idle base, fun _ => stays.interrupted.trans (uncut about), ?_⟩
      intro event due
      cases evidence with
      | inl none => cases none.symm.trans due
      | inr same => exact stays.visit (at_.2 event (same.symm.trans due))
  | handsOff index found enters due =>
      have stays := countArrival_stays shared true index
      exact ⟨(stays.trans (stays_of_progress rfl)).idle base, recoveryAt_outside rfl rfl⟩
  | executes index found undue within evidence kind order =>
      have stays := countExecution_stays shared (driver.enters index) index
      refine ⟨stays.idle base, fun _ => stays.interrupted.trans (uncut rfl), ?_⟩
      intro event due
      cases evidence.symm.trans due
  | jumps index target found undue kept =>
      have stays := (countExecution_stays shared (driver.enters index) index).trans
        (stays_of_progress kept.2)
      exact ⟨recovery_moved (stays.interrupted.trans (uncut rfl)) (stays.idle base),
        recoveryAt_outside rfl rfl⟩
  | dispatches index tool =>
      have stays : Stays shared (shared.note (.dispatched index tool.hasSideEffects)) :=
        stays_note _ rfl rfl rfl rfl
      refine ⟨stays.idle base, fun _ => uncut rfl, ?_⟩
      intro event due
      cases due
      exact List.mem_cons_self
  | navigates index edges =>
      have stays : Stays shared (shared.note (.navigated index)) :=
        stays_note _ rfl rfl rfl rfl
      refine ⟨stays.idle base, fun _ => uncut rfl, ?_⟩
      intro event due
      cases due
      exact List.mem_cons_self
  | cutShort about waits marks =>
      exact ⟨recovery_cut place about waits ⟨base, at_⟩, recoveryAt_outside rfl rfl⟩
  | observes index =>
      exact ⟨RecoveryBase.noted rfl trivial base, fun _ => uncut rfl, fun event due => by cases due⟩
  | reobserves index => exact ⟨RecoveryBase.noted rfl trivial base, recoveryAt_outside rfl rfl⟩
  | lost => exact base
  | retries index failure found allowed next =>
      refine ⟨RecoveryBase.noted rfl trivial base, fun _ => uncut rfl, ?_⟩
      intro event due
      obtain again | ⟨top, _⟩ := next
      · subst again
        cases due
      · subst top
        cases due
  | fallsBack index failure target =>
      exact ⟨recovery_moved (uncut rfl) base, recoveryAt_outside rfl rfl⟩
  | escalated kept =>
      exact ⟨(stays_of_progress kept.2).idle base, recoveryAt_outside rfl rfl⟩
  | handedOff checkpoint done =>
      have stays := stays_of_progress (transition_progress done)
      refine ⟨?_, recoveryAt_outside rfl rfl⟩
      cases checkpoint with
      | none => exact stays.idle base
      | some index => exact RecoveryBase.noted rfl trivial (stays.idle base)
  | ended => exact base
  | _ => exact ⟨base, recoveryAt_outside rfl rfl⟩

theorem recovery_rules :
    OwnerRules (RecoveryIdle setup) (RecoveryFact setup) setup (StopsPlaced setup) where
  idles := fun undisturbed base => undisturbed.stays.idle base
  facts := fun undisturbed fact => undisturbed.stays.fact fact
  started := fun _ _ base => ⟨base, trivial⟩
  executed := fun _ _ base => ⟨base, recoveryAt_outside rfl rfl⟩
  activated := by
    intro shared moved others answer met done base
    have stays := stays_of_progress (transition_progress done)
    refine ⟨RecoveryBase.noted rfl trivial (stays.idle base), ?_⟩
    split
    · next cut => exact cut
    · trivial
  rejected := fun done base => ⟨(stays_of_progress (transition_progress done)).idle base, trivial⟩
  asides := fun turned fact => recovery_asides setup turned fact
  drives := fun met turned fact => recovery_drives setup met turned fact

/-- A run whose drives stop at a step that was cut short marks and recovers only what it has
dispatched since the cursor reached it. -/
structure RecoversDispatched (setup : Setup) (shared : Shared) : Prop where
  cut : shared.run.interrupted = true → CutInVisit setup shared.run.cursor shared.journal
  recovered : ∀ later index verdict earlier,
    shared.journal = later ++ .recovered index verdict :: earlier →
      ∃ sideEffects, .dispatched index sideEffects ∈ visit earlier

theorem recovers_dispatched (setup : Setup) (state : EffectiveState) (turns : List RunTurn)
    (stops : TurnsMeet setup (StopsWhenCut setup) (newRun state) turns) :
    RecoversDispatched setup (runTurns setup (newRun state) turns).shared := by
  have placed : TurnsMeet setup (StopsPlaced setup) (newRun state) turns :=
    (placed_rules setup (StopsWhenCut setup)).meets And.left (newRun state) turns
      (.inl ⟨rfl, trivial⟩) stops
  have start : RecoveryIdle setup (newRun state).shared :=
    ⟨fun cut => absurd cut Bool.false_ne_true, trivial⟩
  have owned := (recovery_rules setup).run (fun met => met.1.1) (newRun state) turns
    (.inl ⟨rfl, start⟩) placed
  have base := owned.base id fun fact => fact.1
  refine ⟨base.cut, fun later index verdict earlier whole => ?_⟩
  have justified := base.justified
  rw [whole] at justified
  exact justified.license

def wipeStep : WorkflowStep :=
  { id := .filled 3
    name := ascii "wipe"
    arguments := .object [(ascii "tool", .string (ascii "wipe"))]
    verification := some { signal := ascii "wiped" } }

/-- A harmless step and one with a side effect. -/
def cleanWorkflow : WorkflowDefinition :=
  { workflowId := .filled 9
    name := ascii "clean"
    steps := [sendStep, wipeStep]
    defaultPolicy := .recoverable
    allowedPolicies := [.recoverable] }

def cleanState : EffectiveState :=
  { policy := .recoverable
    bindings := ⟨[], canonicalJsonDigest (.object [])⟩
    resolved := [sendStep.arguments, wipeStep.arguments] }

def cleanSetup : Setup := { host := wipeHost, definition := cleanWorkflow }

def cancelledTool : Answer := { outcome := .error (workflowError .cancelled "cancelled") }

/-- The tool of the first step comes back cancelled, the step is executed again and completes,
and the run pauses before the second. -/
def staleTurns : List RunTurn :=
  inFlightTurns ++ .turn 0 cancelledTool :: turnsOf 0 8 {} ++ turnsOf 0 3 { withdrawn := true }

theorem undispatched_step_recovered :
    admitRun wipeHost cleanWorkflow (.object []) none = .ok cleanState ∧
      ¬ RecoversDispatched cleanSetup
        (runTurns cleanSetup (newRun cleanState)
          (staleTurns ++ resumedTurns ++ turnsOf 0 2 {})).shared := by
  refine ⟨rfl, fun claim => ?_⟩
  have dispatched := claim.recovered [.moved 2] 1 .completed
    ((runTurns cleanSetup (newRun cleanState)
      (staleTurns ++ resumedTurns ++ turnsOf 0 2 {})).shared.journal.drop 2) (by decide +kernel)
  exact absurd dispatched (by decide +kernel)

def withdrawnTurns : List RunTurn :=
  inFlightTurns ++ .turn 0 { cancelledTool with withdrawn := true } :: turnsOf 0 5 {}

theorem withdrawn_step_cut :
    RecoversDispatched cleanSetup
        (runTurns cleanSetup (newRun cleanState) withdrawnTurns).shared ∧
      (runTurns cleanSetup (newRun cleanState) withdrawnTurns).shared.run.interrupted = true ∧
      (runTurns cleanSetup (newRun cleanState) withdrawnTurns).shared.run.view.state = .paused :=
  ⟨recovers_dispatched cleanSetup cleanState withdrawnTurns (by decide +kernel),
    by decide +kernel, by decide +kernel⟩

end Mira.Workflow
