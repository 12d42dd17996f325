import Mira.Workflow.Checkpoints

/-!
No checkpoint is bypassed where every arrival at one is told: at each turn of a drive the handoff
of the step of the cursor is done, is about to be done, or has no arrival to answer.
-/

namespace Mira.Workflow
open Mira Bytes Interleaving

/-- The guard together with the place of the owner. -/
def ToldPlaced (setup : Setup) (shared : Shared) (point : Point) (others : List Point)
    (answer : Answer) : Prop :=
  ArrivalsTold setup shared point others answer ∧ Placed setup shared (point :: others)

section
variable {setup : Setup} {shared after : Shared} {driver later : Drive} {step : WorkflowStep}
variable {index : Nat}

theorem hooked_of_found (found : setup.step index = some step) :
    hooked setup index = decide (step.recoveryMode = some .agentEscalation) := by
  rw [hooked, found]

theorem due_of_enters (base : CheckpointBase setup shared.progress)
    (policy : shared.run.effective.policy = .agentAssisted)
    (found : setup.step index = some step)
    (undue : Workflow.handsOff (shared.countArrival true index) true step index = false) :
    hooked setup index = false := by
  have counts : shared.run.checkpointHandoffs index ≤ shared.run.checkpointArrivals index :=
    base.counts index
  rw [hooked_of_found found]
  have later : shared.run.checkpointHandoffs index <
      (shared.countArrival true index).run.checkpointArrivals index := by
    simp only [Shared.countArrival, if_true, StepCounts.bump]
    omega
  have same : (shared.countArrival true index).run.effective.policy = .agentAssisted := policy
  have handoffs : (shared.countArrival true index).run.checkpointHandoffs index =
      shared.run.checkpointHandoffs index := rfl
  simpa [Workflow.handsOff, same, handoffs, later] using undue

variable {first second : StepCounts}

theorem bump_mono (counts : ∀ other, first other ≤ second other) (index : Nat) :
    ∀ other, first.bump index other ≤ second.bump index other := by
  intro other
  rw [StepCounts.bump, StepCounts.bump]
  have own := counts other
  split <;> omega

theorem le_bump (counts : ∀ other, first other ≤ second other) (index : Nat) :
    ∀ other, first other ≤ second.bump index other := by
  intro other
  rw [StepCounts.bump]
  have own := counts other
  split <;> omega

theorem checkpoint_due (base : CheckpointBase setup shared.progress)
    (fresh : .entered shared.run.cursor ∉ visit shared.journal) (here : index = shared.run.cursor)
    (hook : hooked setup index = true) :
    CheckpointBase setup ((shared.countArrival true index).countHandoff index).progress ∧
      HandedOrDue setup ((shared.countArrival true index).countHandoff index).progress
        (some index) := by
  subst here
  have unhanded := base.unhanded fresh
  refine ⟨⟨⟨trivial, base.justified⟩, bump_mono base.counts _, fun absent => ?_⟩, rfl, hook, ?_, ?_⟩
  · exact absurd List.mem_cons_self absent
  · exact List.mem_cons_self
  · change List.count _ (visit (.entered shared.run.cursor :: shared.journal)) = 0
    rw [visit_cons rfl, List.count_cons_of_ne (by simp)]
    exact unhanded

theorem checkpoint_executed (base : CheckpointBase setup shared.progress)
    (handed : Handed setup shared.progress) (here : index = shared.run.cursor)
    (policy : shared.run.effective.policy = .agentAssisted)
    (told : hooked setup index = true →
      driver.enters index = true ∨ .entered index ∈ visit shared.journal)
    (found : setup.step index = some step)
    (undue : Workflow.handsOff (shared.countArrival (driver.enters index) index)
      (driver.enters index) step index = false) :
    CheckpointBase setup
        ((shared.countArrival (driver.enters index) index).countExecution index).progress ∧
      Handed setup
        ((shared.countArrival (driver.enters index) index).countExecution index).progress := by
  subst here
  cases enters : driver.enters shared.run.cursor with
  | true =>
      rw [enters] at undue
      have plain := due_of_enters base policy found undue
      refine ⟨⟨⟨fun hook => ?_, trivial, base.justified⟩, le_bump base.counts _, fun absent => ?_⟩,
        fun hook => ?_⟩
      · exact absurd (plain.symm.trans hook) Bool.false_ne_true
      · exact absurd (List.mem_cons_of_mem _ List.mem_cons_self) absent
      · exact absurd (plain.symm.trans hook) Bool.false_ne_true
  | false =>
      rw [enters] at told
      have journal : visit (.executed shared.run.cursor :: shared.journal) =
          .executed shared.run.cursor :: visit shared.journal := visit_cons rfl _
      have entered : ∀ {other}, RunEvent.entered other ∈
          visit (.executed shared.run.cursor :: shared.journal) ↔
            .entered other ∈ visit shared.journal := by
        intro other
        rw [journal, List.mem_cons]
        exact or_iff_right (by simp)
      have count : ∀ other, (visit (.executed shared.run.cursor :: shared.journal)).count
          (.handedOff other) = (visit shared.journal).count (.handedOff other) := by
        intro other
        rw [journal, List.count_cons_of_ne (by simp)]
      refine ⟨⟨⟨fun hook _ => ?_, base.justified⟩, base.counts, fun absent => ?_⟩,
        fun hook present => ?_⟩
      · exact handed hook ((told hook).resolve_left Bool.false_ne_true)
      · exact (count _).trans (base.unhanded fun present => absent (entered.2 present))
      · exact (count _).trans (handed hook (entered.1 present))

end

section
variable {setup : Setup} {shared after : Shared} {driver later : Drive}

theorem checkpoint_goes {target : DrivePoint} (base : CheckpointBase setup shared.progress)
    (new : CheckpointNew shared) (told : Told shared.progress driver)
    (handed : Handed setup shared.progress) (muted : Muted shared.progress after.progress)
    (old : after.run.view.state = .created → shared.run.view.state = .created)
    (marks : driver.SameMarks later)
    (begun : target.begun = true → shared.run.view.state ≠ .created)
    (open_ : target.checkpoint = none) (going : target.starts = false) :
    CheckpointFact setup after (.drive later target) :=
  ⟨muted.base base, new.muted muted old,
    checkpointAt_drive ((muted.told told).marks marks) (muted.handed handed)
      (fun inside created => begun inside (old created)) open_ going⟩

theorem checkpoint_leaves {target : Nat} (base : CheckpointBase setup shared.progress)
    (begun : shared.run.view.state ≠ .created) :
    CheckpointFact setup (shared.moveTo target) (.drive later .top) :=
  ⟨base.moved rfl rfl rfl, CheckpointNew.moved rfl,
    checkpointAt_drive (told_moved rfl) (handed_moved rfl) (fun _ => begun) rfl rfl⟩

theorem checkpoint_handedOff {index : Nat} (base : CheckpointBase setup shared.progress)
    (told : Told shared.progress driver)
    (due : HandedOrDue setup shared.progress (some index)) :
    CheckpointBase setup (shared.note (.handedOff index)).progress ∧
      Told (shared.note (.handedOff index)).progress driver ∧
      Handed setup (shared.note (.handedOff index)).progress := by
  obtain ⟨here, hook, entered, unhanded⟩ := due
  subst here
  have journal : visit (.handedOff shared.run.cursor :: shared.journal) =
      .handedOff shared.run.cursor :: visit shared.journal := visit_cons rfl _
  have count : (visit (.handedOff shared.run.cursor :: shared.journal)).count
      (.handedOff shared.run.cursor) = 1 := by
    rw [journal, List.count_cons_self]
    exact congrArg (· + 1) unhanded
  refine ⟨⟨⟨trivial, base.justified⟩, base.counts, fun absent => ?_⟩, fun _ => told entered,
    fun _ _ => count⟩
  refine absurd ?_ absent
  change _ ∈ visit (.handedOff shared.run.cursor :: shared.journal)
  rw [journal]
  exact List.mem_cons_of_mem _ entered

end

variable (setup : Setup)

theorem checkpoint_drives {shared : Shared} {driver : Drive} {point : DrivePoint}
    {others : List Point} {answer : Answer} {result : Shared × List Point}
    (met : ToldPlaced setup shared (.drive driver point) others answer)
    (turned : DriveTurned setup shared driver answer point result)
    (fact : CheckpointFact setup shared (.drive driver point)) :
    Leaves (CheckpointIdle setup) (CheckpointFact setup) result.1 (rolesOf result.2) := by
  have place : InStep setup shared.run.cursor point := placed_inStep met.2
  obtain ⟨base, new, told, due, begun, starts⟩ := fact
  have own := Drive.SameMarks.refl driver
  have same := muted_refl shared.progress
  have handed : point.checkpoint = none → Handed setup shared.progress := by
    intro open_
    rw [open_] at due
    exact due
  have started : ∀ {index}, point.index = some index → shared.run.view.state ≠ .created := by
    intro index about
    apply begun
    cases point <;> first | rfl | cases about
  have outside : ∀ {index}, point.index = some index → point.checkpoint = none := by
    intro index about
    cases point <;> first | rfl | cases about
  cases turned with
  | unstarted created =>
      exact ⟨base, new, told, due, fun begun => absurd begun Bool.false_ne_true,
        fun _ => .inl created⟩
  | resumed old => exact checkpoint_goes base new told due same id own (fun _ => old) rfl rfl
  | @started moved done =>
      have muted := muted_of_eq (transition_progress done)
      obtain ⟨state, valid⟩ := transition_state done
      have created : shared.run.view.state = .created := by
        cases starts rfl with
        | inl created => exact created
        | inr dropped =>
            rw [dropped] at valid
            cases valid
      have running : moved.run.view.state ≠ .created := by
        rw [state]
        decide
      -- A drive that starts the run counts an arrival, and there was none before.
      have fresh : Told moved.progress { driver with fresh := true } := by
        intro entered
        rw [transition_progress done] at entered
        exact absurd entered (new created)
      exact ⟨muted.base base, fun now => absurd now running,
        checkpointAt_drive fresh (muted.handed due) (fun _ => running) rfl rfl⟩
  | looped active =>
      exact checkpoint_goes base new told due same id own (fun _ => begun rfl) rfl rfl
  | left elsewhere =>
      exact checkpoint_goes base new told due same id own
        (fun inside => absurd inside Bool.false_ne_true) rfl rfl
  | drained =>
      cases shared.run.pending with
      | nil => exact checkpoint_goes base new told due same id own (fun _ => begun rfl) rfl rfl
      | cons patch rest => exact ⟨base, new, told, due, begun rfl⟩
  | settles target apart =>
      have open_ : point.checkpoint = none := by
        cases point <;> first | rfl | cases apart
      refine ⟨base, new, ?_, handed open_⟩
      intro other among
      cases among
      exact told
  | stops =>
      exact checkpoint_goes base new told due same id own
        (fun inside => absurd inside Bool.false_ne_true) rfl rfl
  | paused =>
      have undisturbed : Undisturbed shared (shared.tryTransition .paused) :=
        undisturbed_tried shared (by decide) (by decide)
      exact checkpoint_goes base new told due undisturbed.muted undisturbed.created own
        (fun inside => absurd inside Bool.false_ne_true) rfl rfl
  | skipped goes => exact checkpoint_leaves base (begun rfl)
  | reached goes found next =>
      obtain first | second := next
      · subst first
        exact checkpoint_goes base new told due same id own (fun _ => begun rfl) rfl rfl
      · subst second
        exact checkpoint_goes base new told due same id own (fun _ => begun rfl) rfl rfl
  | undefined about missing marks =>
      exact checkpoint_goes base new told (handed (outside about)) same id marks
        (fun _ => started about) rfl rfl
  | fails failure about kept marks =>
      have old := congrArg (fun controls => controls.view.state) kept.1
      exact checkpoint_goes base new told (handed (outside about)) (muted_of_eq kept.2)
        (fun created => old.symm.trans created) marks (fun _ => started about) rfl rfl
  | completes about kept marks =>
      have old := congrArg (fun controls => controls.view.state) kept.1
      exact checkpoint_leaves ((muted_of_eq kept.2).base base)
        fun created => started about (old.symm.trans created)
  | goes about within evidence kind order kept marks =>
      have old := congrArg (fun controls => controls.view.state) kept.1
      refine checkpoint_goes base new told (handed (outside about)) (muted_of_eq kept.2)
        (fun created => old.symm.trans created) marks (fun _ => started about) ?_ ?_
      · rename_i target _ _ _
        cases target <;> first | rfl | cases within
      · rename_i target _ _ _
        cases target <;> first | rfl | cases within
  | handsOff index found enters hands =>
      have here : index = shared.run.cursor := (place index rfl).1
      have fresh : .entered shared.run.cursor ∉ visit shared.journal := by
        intro entered
        rw [here] at enters
        exact absurd ((told entered).symm.trans enters) Bool.false_ne_true
      have hook : hooked setup index = true := by
        rw [hooked_of_found found]
        simp only [Workflow.handsOff, Bool.and_eq_true] at hands
        exact hands.1.2
      obtain ⟨counted, due⟩ := checkpoint_due base fresh here hook
      exact ⟨counted, fun created => absurd created (started rfl),
        told_arrived driver index here.symm, due, fun inside => absurd inside Bool.false_ne_true,
        fun inside => absurd inside Bool.false_ne_true⟩
  | @executes step target index found undue within evidence kind order =>
      have here : index = shared.run.cursor := (place index rfl).1
      obtain ⟨policy, arrival⟩ := met.1.2.1 (index, driver.enters index) rfl
      obtain ⟨counted, done⟩ := checkpoint_executed base due here policy arrival found undue
      have state : ((shared.countArrival (driver.enters index) index).countExecution
          index).run.view.state = shared.run.view.state :=
        congrArg (fun controls => controls.view.state)
          (countArrival_controls shared (driver.enters index) index)
      have cursor : ((shared.countArrival (driver.enters index) index).countExecution
          index).progress.cursor = index :=
        (countArrival_cursor shared (driver.enters index) index).trans here.symm
      have old : ((shared.countArrival (driver.enters index) index).countExecution
          index).run.view.state ≠ .created := by
        rw [state]
        exact started rfl
      refine ⟨counted, fun created => absurd created old, ?_⟩
      refine checkpointAt_drive (told_arrived driver index cursor) done (fun _ => old) ?_ ?_
      · cases target <;> first | rfl | cases within
      · cases target <;> first | rfl | cases within
  | jumps index target found undue kept =>
      have here : index = shared.run.cursor := (place index rfl).1
      obtain ⟨policy, arrival⟩ := met.1.2.1 (index, driver.enters index) rfl
      obtain ⟨counted, done⟩ := checkpoint_executed base due here policy arrival found undue
      have state := congrArg (fun controls => controls.view.state)
        (kept.1.trans (countArrival_controls shared (driver.enters index) index))
      exact checkpoint_leaves ((muted_of_eq kept.2).base counted)
        fun created => started rfl (state.symm.trans created)
  | dispatches index tool =>
      exact checkpoint_goes base new told due (muted_note _ rfl rfl rfl rfl rfl) id own
        (fun _ => started rfl) rfl rfl
  | navigates index edges =>
      exact checkpoint_goes base new told due (muted_note _ rfl rfl rfl rfl rfl) id own
        (fun _ => started rfl) rfl rfl
  | @cutShort _ index _ about waits marks =>
      exact checkpoint_goes base new told (handed (outside about))
        (muted_note (.cut index) rfl rfl rfl rfl rfl) id marks (fun _ => started about) rfl rfl
  | observes index | reobserves index =>
      exact checkpoint_goes base new told due (muted_note .observed rfl rfl rfl rfl rfl) id own
        (fun _ => started rfl) rfl rfl
  | lost refused observes =>
      have open_ : point.checkpoint = none := by
        obtain ⟨index, first | again⟩ := observes
        · rw [first]
          rfl
        · rw [again]
          rfl
      exact ⟨base, new, handed open_⟩
  | retries index failure found allowed next =>
      obtain again | ⟨top, _⟩ := next
      · subst again
        exact checkpoint_goes base new told due (muted_note (.retried index) rfl rfl rfl rfl rfl)
          id own (fun _ => started rfl) rfl rfl
      · subst top
        exact checkpoint_goes base new told due (muted_note (.retried index) rfl rfl rfl rfl rfl)
          id own (fun _ => started rfl) rfl rfl
  | fallsBack index failure target => exact checkpoint_leaves base (started rfl)
  | escalates index failure =>
      exact checkpoint_goes base new told due same id own
        (fun inside => absurd inside Bool.false_ne_true) rfl rfl
  | stages index failure decision =>
      refine ⟨base, new, ?_, due⟩
      intro other among
      cases among
      exact told
  | escalated kept =>
      have old := congrArg (fun controls => controls.view.state) kept.1
      exact checkpoint_goes base new told due (muted_of_eq kept.2)
        (fun created => old.symm.trans created) own
        (fun inside => absurd inside Bool.false_ne_true) rfl rfl
  | @handedOff moved checkpoint done =>
      obtain ⟨state, _⟩ := transition_state done
      have progress := transition_progress done
      have old : moved.run.view.state ≠ .created := by
        rw [state]
        decide
      cases checkpoint with
      | none =>
          exact checkpoint_goes base new told due (muted_of_eq progress)
            (fun created => absurd created old) own
            (fun inside => absurd inside Bool.false_ne_true) rfl rfl
      | some index =>
          have muted := muted_of_eq progress
          obtain ⟨counted, later, handing⟩ := checkpoint_handedOff (muted.base base)
            (muted.told told) (muted.handedOrDue due)
          exact ⟨counted, fun created => absurd created old, checkpointAt_drive later handing
            (fun inside => absurd inside Bool.false_ne_true) rfl rfl⟩
  | unhanded checkpoint refused =>
      cases checkpoint with
      | none =>
          refine ⟨base, new, ?_, due⟩
          intro other among
          cases among
          exact told
      | some index =>
          have running := met.1.2.2 rfl
          simp [Shared.transition, applyWorkflowRunTransition, running,
            WorkflowRunState.isTerminal, validWorkflowRunTransition] at refused
  | ended => exact ⟨base, new, due⟩

theorem checkpoint_rules :
    OwnerRules (CheckpointIdle setup) (CheckpointFact setup) setup (ToldPlaced setup) where
  idles := fun undisturbed idle =>
    ⟨undisturbed.muted.base idle.1, idle.2.1.muted undisturbed.muted undisturbed.created,
      undisturbed.muted.handed idle.2.2⟩
  facts := fun undisturbed fact =>
    ⟨undisturbed.muted.base fact.1, fact.2.1.muted undisturbed.muted undisturbed.created,
      checkpoint_undisturbed undisturbed fact.2.2⟩
  started := fun _ _ idle => idle
  executed := fun _ _ idle =>
    ⟨idle.1, idle.2.1, checkpointAt_drive (told_begin true) idle.2.2
      (fun inside => absurd inside Bool.false_ne_true) rfl rfl⟩
  activated := by
    intro shared moved others answer met done idle
    obtain ⟨state, _⟩ := transition_state done
    have muted : Muted shared.progress (moved.note .resumed).progress := by
      rw [← transition_progress done]
      exact muted_note .resumed rfl rfl rfl rfl rfl
    have old : (moved.note .resumed).run.view.state ≠ .created := by
      change moved.run.view.state ≠ .created
      rw [state]
      decide
    exact ⟨muted.base idle.1, fun created => absurd created old, muted.handed idle.2.2⟩
  rejected := by
    intro shared moved done idle
    obtain ⟨state, _⟩ := transition_state done
    have muted := muted_of_eq (transition_progress done)
    have old : moved.run.view.state ≠ .created := by
      rw [state]
      decide
    exact ⟨muted.base idle.1, fun created => absurd created old, by simp, muted.handed idle.2.2⟩
  asides := fun turned fact => checkpoint_asides turned fact
  drives := fun met turned fact => checkpoint_drives setup met turned fact

/-- The first execution of a step with a hook in a visit of the cursor comes after exactly one
handoff to the agent. -/
def CheckpointsKept (setup : Setup) (journal : List RunEvent) : Prop :=
  ∀ later index earlier, journal = later ++ .executed index :: earlier →
    hooked setup index = true → .executed index ∉ visit earlier →
      (visit earlier).count (.handedOff index) = 1

theorem checkpoints_kept (setup : Setup) (state : EffectiveState) (turns : List RunTurn)
    (told : TurnsMeet setup (ArrivalsTold setup) (newRun state) turns) :
    CheckpointsKept setup (runTurns setup (newRun state) turns).shared.journal := by
  have placed : TurnsMeet setup (ToldPlaced setup) (newRun state) turns :=
    (placed_rules setup (ArrivalsTold setup)).meets And.left (newRun state) turns
      (.inl ⟨rfl, trivial⟩) told
  have start : CheckpointIdle setup (newRun state).shared :=
    ⟨⟨trivial, fun _ => Nat.le_refl 0, fun _ => rfl⟩, fun _ => by simp [newRun, visit],
      fun _ entered => by simp [newRun, visit, Shared.progress] at entered⟩
  have owned := (checkpoint_rules setup).run (fun met => met.1.1) (newRun state) turns
    (.inl ⟨rfl, start⟩) placed
  have justified := owned.base (fun idle => idle.1.justified) fun fact => fact.1.justified
  intro later index earlier journal
  change Justified _ (runTurns setup (newRun state) turns).shared.journal at justified
  rw [journal] at justified
  exact justified.license

def askStep : WorkflowStep :=
  { id := .filled 4
    name := ascii "ask"
    arguments := .object [(ascii "tool", .string (ascii "send"))]
    recovery := some { mode := .agentEscalation } }

/-- A step and one with a checkpoint. -/
def askWorkflow : WorkflowDefinition :=
  { workflowId := .filled 9
    name := ascii "ask"
    steps := [sendStep, askStep]
    defaultPolicy := .agentAssisted
    allowedPolicies := [.agentAssisted] }

def askState : EffectiveState :=
  { policy := .agentAssisted
    bindings := ⟨[], canonicalJsonDigest (.object [])⟩
    resolved := [sendStep.arguments, askStep.arguments] }

def askSetup : Setup := { host := sendHost, definition := askWorkflow }

/-- The resumption of a run up to the execution of the step of the cursor. -/
def executedTurns : List RunTurn := resumedTurns ++ turnsOf 0 7 {}

def pausedBeforeTurns : List RunTurn :=
  inFlightTurns ++ turnsOf 0 3 {} ++ turnsOf 0 3 { withdrawn := true }

theorem paused_checkpoint_bypassed :
    admitRun sendHost askWorkflow (.object []) none = .ok askState ∧
      ¬ CheckpointsKept askSetup
        (runTurns askSetup (newRun askState) (pausedBeforeTurns ++ executedTurns)).shared.journal := by
  refine ⟨rfl, fun claim => ?_⟩
  have handed := claim [] 1
    ((runTurns askSetup (newRun askState)
      (pausedBeforeTurns ++ executedTurns)).shared.journal.drop 1)
    (by decide +kernel) (by decide +kernel) (by decide +kernel)
  exact absurd handed (by decide +kernel)

def handedOffTurns : List RunTurn := inFlightTurns ++ turnsOf 0 7 {}

theorem checkpoint_handed_before_execution :
    CheckpointsKept askSetup
        (runTurns askSetup (newRun askState) (handedOffTurns ++ executedTurns)).shared.journal ∧
      .executed 1 ∈
        (runTurns askSetup (newRun askState) (handedOffTurns ++ executedTurns)).shared.journal :=
  ⟨checkpoints_kept askSetup askState _ (by decide +kernel), by decide +kernel⟩

end Mira.Workflow
