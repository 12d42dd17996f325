import Mira.Workflow.Machine

/-!
What a turn of a drive can do. The state, the decision, the drive flag, the patches and the
policy of a run are what its calls look at before they act; the loop of a drive changes them at
four points only, where it starts, takes its patches, pauses and hands off. Inside a step it
moves the cursor, counts and writes its journal.
-/

namespace Mira.Workflow
open Mira Bytes

theorem transition_ok {shared moved : Shared} {target : WorkflowRunState}
    (done : shared.transition target = .ok moved) :
    ∃ view, applyWorkflowRunTransition shared.run.view target = .ok view ∧
      moved = { shared with
        run := { shared.run with
          view := view
          decision :=
            if shared.run.view.state = .waitingUser then none else shared.run.decision } } := by
  rw [Shared.transition] at done
  split at done
  · cases done
  · next view applied =>
      cases done
      exact ⟨view, applied, rfl⟩

variable (shared : Shared)

theorem tryTransition_cases (target : WorkflowRunState) :
    shared.tryTransition target = shared ∨
      shared.transition target = .ok (shared.tryTransition target) := by
  rw [Shared.tryTransition]
  split
  · exact .inl rfl
  · next moved done => exact .inr done

/-- What the calls on a run look at. -/
structure RunControls where
  view : WorkflowRunView
  decision : Option WorkflowDecisionRequest
  driveActive : Bool
  asyncDrives : Nat
  accepting : Bool
  applied : List AppliedPatch
  pending : List PendingPatch
  policy : WorkflowPolicy

def Shared.controls (shared : Shared) : RunControls :=
  { view := shared.run.view
    decision := shared.run.decision
    driveActive := shared.run.driveActive
    asyncDrives := shared.asyncDrives
    accepting := shared.accepting
    applied := shared.run.applied
    pending := shared.run.pending
    policy := shared.run.effective.policy }

/-- What a drive keeps of the steps. -/
structure Progress where
  cursor : Nat
  interrupted : Bool
  attempts : StepCounts
  retries : StepCounts
  checkpointArrivals : StepCounts
  checkpointHandoffs : StepCounts
  journal : List RunEvent

def Shared.progress (shared : Shared) : Progress :=
  { cursor := shared.run.cursor
    interrupted := shared.run.interrupted
    attempts := shared.run.attempts
    retries := shared.run.retries
    checkpointArrivals := shared.run.checkpointArrivals
    checkpointHandoffs := shared.run.checkpointHandoffs
    journal := shared.journal }

/-- A turn leaves the controls and the progress. -/
def Kept (shared after : Shared) : Prop :=
  after.controls = shared.controls ∧ after.progress = shared.progress

/-- The marks by which a drive tells an arrival. -/
def Drive.SameMarks (driver later : Drive) : Prop :=
  later.synchronous = driver.synchronous ∧ later.fresh = driver.fresh ∧
    later.first = driver.first ∧ later.previous = driver.previous

def DrivePoint.index : DrivePoint → Option Nat
  | .precondition index | .arrive index | .plan index | .verify index | .dispatch index
  | .inFlight index _ | .observe index | .judge index | .navigate index | .edges index _ _
  | .edge index _ | .failing index _ | .reobserve index => some index
  | _ => none

def DrivePoint.evidence : DrivePoint → Option RunEvent
  | .inFlight index tool => some (.dispatched index tool.hasSideEffects)
  | .edges index _ _ | .edge index _ => some (.navigated index)
  | _ => none

def DrivePoint.kind : DrivePoint → Option WorkflowStepKind
  | .dispatch _ => some .toolCall
  | .navigate _ | .edges _ _ _ | .edge _ _ => some .navigate
  | _ => none

def DrivePoint.ahead : DrivePoint → Bool
  | .precondition _ | .arrive _ | .dispatch _ => true
  | _ => false

/-- A point inside of a step past the choice to dispatch it. -/
def DrivePoint.past : DrivePoint → Bool
  | .plan _ | .verify _ | .inFlight _ _ | .observe _ | .judge _ | .navigate _ | .edges _ _ _
  | .edge _ _ | .failing _ _ => true
  | _ => false

def DrivePoint.handing : DrivePoint → Bool
  | .handoff _ => true
  | _ => false

inductive DriveTurned (setup : Setup) (shared : Shared) (driver : Drive) (answer : Answer) :
    DrivePoint → Shared × List Point → Prop
  | unstarted (created : shared.run.view.state = .created) :
      DriveTurned setup shared driver answer .begin (shared, driver.at .start)
  | resumed (started : shared.run.view.state ≠ .created) :
      DriveTurned setup shared driver answer .begin (shared, driver.at .top)
  | started {moved : Shared} (done : shared.transition .running = .ok moved) :
      DriveTurned setup shared driver answer .start (moved, { driver with fresh := true }.at .top)
  | looped (active : shared.run.view.state = .running) :
      DriveTurned setup shared driver answer .top (shared, driver.at .drain)
  | left (elsewhere : shared.run.view.state ≠ .running) :
      DriveTurned setup shared driver answer .top (shared, driver.at .ending)
  | drained :
      DriveTurned setup shared driver answer .drain
        ({ shared with run := { shared.run with pending := [] } },
          drainNext driver shared.run.pending)
  | settles {point : DrivePoint} (target : Settlement)
      (apart : point.handing = false) :
      DriveTurned setup shared driver answer point (shared, settleDrive driver target)
  | stops : DriveTurned setup shared driver answer .boundary (shared, driver.at .pausing)
  | paused :
      DriveTurned setup shared driver answer .pausing
        (shared.tryTransition .paused, driver.at .ending)
  | skipped
      (goes : driver.withdrawn = false ∧ answer.withdrawn = false ∧ answer.cancelled = false) :
      DriveTurned setup shared driver answer .boundary (completeStep shared driver)
  | reached {step : WorkflowStep} {target : DrivePoint}
      (goes : driver.withdrawn = false ∧ answer.withdrawn = false ∧ answer.cancelled = false)
      (found : setup.step shared.run.cursor = some step)
      (next : target = .precondition shared.run.cursor ∨ target = .arrive shared.run.cursor) :
      DriveTurned setup shared driver answer .boundary (shared, driver.at target)
  | undefined {point : DrivePoint} {index : Nat} {later : Drive} (about : point.index = some index)
      (missing : setup.step index = none) (marks : driver.SameMarks later) :
      DriveTurned setup shared driver answer point (shared, later.at .top)
  | fails {point : DrivePoint} {index : Nat} {after : Shared} {later : Drive}
      (failure : WorkflowError) (about : point.index = some index) (kept : Kept shared after)
      (marks : driver.SameMarks later) :
      DriveTurned setup shared driver answer point (after, later.at (.failing index failure))
  | completes {point : DrivePoint} {index : Nat} {after : Shared} {later : Drive}
      (about : point.index = some index) (kept : Kept shared after)
      (marks : driver.SameMarks later) :
      DriveTurned setup shared driver answer point (completeStep after later)
  | goes {point target : DrivePoint} {index : Nat} {after : Shared} {later : Drive}
      (about : point.index = some index) (within : target.index = some index)
      (evidence : target.evidence = none ∨ target.evidence = point.evidence)
      (kind : target.kind = none ∨ target.kind = point.kind)
      (order : target.past = true ∨ target.ahead = true ∧ point.ahead = true)
      (kept : Kept shared after) (marks : driver.SameMarks later) :
      DriveTurned setup shared driver answer point (after, later.at target)
  | handsOff {step : WorkflowStep} (index : Nat) (found : setup.step index = some step)
      (enters : driver.enters index = true)
      (due : Workflow.handsOff (shared.countArrival true index) true step index = true) :
      DriveTurned setup shared driver answer (.arrive index)
        ((shared.countArrival true index).countHandoff index,
          (driver.arrived index).at (.handoff (some index)))
  | executes {step : WorkflowStep} {target : DrivePoint} (index : Nat)
      (found : setup.step index = some step)
      (undue : Workflow.handsOff (shared.countArrival (driver.enters index) index)
        (driver.enters index) step index = false)
      (within : target.index = some index) (evidence : target.evidence = none)
      (kind : target.kind = none ∨ target.kind = some step.kind)
      (order : target.past = true ∨ target.ahead = true) :
      DriveTurned setup shared driver answer (.arrive index)
        ((shared.countArrival (driver.enters index) index).countExecution index,
          (driver.arrived index).at target)
  | jumps {step : WorkflowStep} {after : Shared} (index target : Nat)
      (found : setup.step index = some step)
      (undue : Workflow.handsOff (shared.countArrival (driver.enters index) index)
        (driver.enters index) step index = false)
      (kept : Kept
        ((shared.countArrival (driver.enters index) index).countExecution index) after) :
      DriveTurned setup shared driver answer (.arrive index)
        (after.moveTo target, (driver.arrived index).at .top)
  | dispatches (index : Nat) (tool : ExposedTool) (accepted : answer.accepted = true)
      (named : setup.host.tool ((((Setup.argumentsAt shared index).find (ascii "tool")).bind
        JsonValue.asString).getD []) = some tool) :
      DriveTurned setup shared driver answer (.dispatch index)
        (shared.note (.dispatched index tool.hasSideEffects), driver.at (.inFlight index tool))
  | navigates (index edges : Nat) :
      DriveTurned setup shared driver answer (.navigate index)
        (shared.note (.navigated index), driver.at (.edges index edges .null))
  | cutShort {point : DrivePoint} {index : Nat} {later : Drive} (about : point.index = some index)
      (waits : point.evidence.isSome = true) (marks : driver.SameMarks later) :
      DriveTurned setup shared driver answer point (shared.cutShort index, later.at .top)
  | observes (index : Nat) :
      DriveTurned setup shared driver answer (.observe index)
        (shared.note .observed, driver.at (.judge index))
  | reobserves (index : Nat) :
      DriveTurned setup shared driver answer (.reobserve index)
        (shared.note .observed, driver.at .top)
  | lost {point : DrivePoint} (refused : answer.observation = .refused)
      (observes : ∃ index, point = .observe index ∨ point = .reobserve index) :
      DriveTurned setup shared driver answer point (shared, [])
  | retries {step : WorkflowStep} (index : Nat) (failure : WorkflowError)
      (found : setup.step index = some step) (allowed : Workflow.retries shared step index = true)
      {target : DrivePoint}
      (next : target = .reobserve index ∨ target = .top ∧
        ¬ (step.kind = .toolCall ∧
          stepToolHasSideEffects setup.host (Setup.argumentsAt shared index) = true)) :
      DriveTurned setup shared driver answer (.failing index failure)
        ({ shared with
            run := { shared.run with retries := shared.run.retries.bump index }
            journal := .retried index :: shared.journal },
          driver.at target)
  | fallsBack (index : Nat) (failure : WorkflowError) (target : Nat) :
      DriveTurned setup shared driver answer (.failing index failure)
        (shared.moveTo target, driver.at .top)
  | escalates (index : Nat) (failure : WorkflowError) :
      DriveTurned setup shared driver answer (.failing index failure)
        (shared, driver.at .escalate)
  | stages (index : Nat) (failure : WorkflowError) (decision : WorkflowDecisionRequest) :
      DriveTurned setup shared driver answer (.failing index failure)
        (shared, [.stage decision (.drive driver)])
  | escalated {after : Shared} (kept : Kept shared after) :
      DriveTurned setup shared driver answer .escalate (after, driver.at (.handoff none))
  | handedOff {moved : Shared} (checkpoint : Option Nat)
      (done : shared.transition .waitingAgent = .ok moved) :
      DriveTurned setup shared driver answer (.handoff checkpoint)
        ((checkpoint.map fun index => moved.note (.handedOff index)).getD moved,
          driver.at .ending)
  | unhanded {error : WorkflowError} (checkpoint : Option Nat)
      (refused : shared.transition .waitingAgent = .error error) :
      DriveTurned setup shared driver answer (.handoff checkpoint)
        (shared, settleDrive driver .failed)
  | ended :
      DriveTurned setup shared driver answer .ending (driveEnding shared driver)

section
variable {setup : Setup} {shared after : Shared} {driver later : Drive} {answer : Answer}
variable {point : DrivePoint} {index : Nat}

theorem Kept.refl (shared : Shared) : Kept shared shared := ⟨rfl, rfl⟩

theorem Kept.state (kept : Kept shared after) :
    after.run.view.state = shared.run.view.state :=
  congrArg (fun controls : RunControls => controls.view.state) kept.1

theorem Drive.SameMarks.refl (driver : Drive) : driver.SameMarks driver := ⟨rfl, rfl, rfl, rfl⟩

theorem watch_marks (driver : Drive) (answer : Answer) : driver.SameMarks (driver.watch answer) :=
  ⟨rfl, rfl, rfl, rfl⟩

theorem executeStep_cases (step : WorkflowStep) (found : setup.step index = some step)
    (undue : Workflow.handsOff (shared.countArrival (driver.enters index) index)
      (driver.enters index) step index = false) :
    DriveTurned setup shared driver answer (.arrive index)
      (executeStep setup ((shared.countArrival (driver.enters index) index).countExecution index)
        (driver.arrived index) step index) := by
  rw [executeStep]
  split
  · rw [controlJump]
    split
    · exact .executes index found undue rfl rfl (.inl rfl) (.inl rfl)
    · exact .jumps index _ found undue ⟨rfl, rfl⟩
  · next kind =>
      exact .executes index found undue rfl rfl (.inr (congrArg some kind.symm)) (.inl rfl)
  · next kind =>
      split
      · exact .executes index found undue rfl rfl (.inr (congrArg some kind.symm)) (.inr rfl)
      · exact .executes index found undue rfl rfl (.inl rfl) (.inl rfl)
  · split
    · exact .executes index found undue rfl rfl (.inl rfl) (.inl rfl)
    · exact .executes index found undue rfl rfl (.inl rfl) (.inl rfl)

end

variable (setup : Setup)

theorem driveTurn_cases (shared : Shared) (driver : Drive) (answer : Answer) (point : DrivePoint) :
    DriveTurned setup shared driver answer point
      (driveTurn setup shared driver answer point) := by
  have same := Kept.refl shared
  have own := Drive.SameMarks.refl driver
  have watched := watch_marks driver answer
  cases point with
  | begin =>
      rw [driveTurn, driveBegin]
      split
      · next created => exact .unstarted created
      · next started => exact .resumed started
  | start =>
      rw [driveTurn, driveStart]
      split
      · exact .settles .failed rfl
      · next moved done => exact .started done
  | top =>
      rw [driveTurn, driveTop]
      split
      · next active => exact .looped active
      · next elsewhere => exact .left elsewhere
  | drain => exact .drained
  | boundary =>
      rw [driveTurn, driveBoundary]
      split
      · split
        · exact .stops
        · exact .settles .cancelled rfl
      · next going =>
          have goes : driver.withdrawn = false ∧ answer.withdrawn = false ∧
              answer.cancelled = false := by
            simpa [and_assoc] using going
          split
          · exact .settles .failed rfl
          · split
            · exact .settles .completed rfl
            · next step found =>
                split
                · exact .skipped goes
                · split
                  · exact .reached goes found (.inl rfl)
                  · exact .reached goes found (.inr rfl)
  | pausing => exact .paused
  | precondition index =>
      rw [driveTurn, drivePrecondition]
      split
      · exact .fails _ rfl same own
      · exact .completes rfl same own
      · exact .goes rfl rfl (.inl rfl) (.inl rfl) (.inr ⟨rfl, rfl⟩) same own
  | arrive index =>
      rw [driveTurn, driveArrive]
      split
      · next missing => exact .undefined rfl missing own
      · next step found =>
          dsimp only
          split
          · next due =>
              have enters : driver.enters index = true := by
                simp only [handsOff, Bool.and_eq_true] at due
                exact due.1.1.1
              rw [enters] at due ⊢
              exact .handsOff index found enters due
          · next undue => exact executeStep_cases step found (Bool.not_eq_true _ ▸ undue)
  | plan index =>
      rw [driveTurn, drivePlan]
      split
      · exact .fails _ rfl same own
      · exact .completes rfl same own
  | verify index | judge index =>
      rw [driveTurn, driveJudge]
      split
      · exact .completes rfl same own
      · exact .fails _ rfl same own
  | dispatch index =>
      rw [driveTurn, driveDispatch]
      split
      · exact .fails _ rfl same own
      · next tool found =>
          split
          · next accepted => exact .dispatches index tool accepted found
          · exact .fails _ rfl same own
  | inFlight index tool =>
      rw [driveTurn, driveInFlight]
      split
      · split
        · next missing => exact .undefined rfl missing watched
        · split
          · exact .completes rfl ⟨rfl, rfl⟩ watched
          · split
            · exact .goes rfl rfl (.inl rfl) (.inl rfl) (.inl rfl) ⟨rfl, rfl⟩ watched
            · exact .goes rfl rfl (.inl rfl) (.inl rfl) (.inl rfl) ⟨rfl, rfl⟩ watched
      · split
        · exact .cutShort rfl rfl watched
        · exact .fails _ rfl same watched
  | observe index =>
      rw [driveTurn, driveObserve]
      split
      · exact .observes index
      · exact .fails _ rfl same own
      · next refused => exact .lost refused ⟨index, .inl rfl⟩
  | navigate index =>
      rw [driveTurn, driveNavigate]
      split
      · exact .fails _ rfl same own
      · split
        · split
          · exact .fails _ rfl same own
          · exact .completes rfl same own
        · split
          · exact .fails _ rfl same own
          · next edges planned =>
              split
              · split
                · exact .fails _ rfl same own
                · exact .completes rfl same own
              · split
                · exact .fails _ rfl same own
                · exact .navigates index edges
  | edges index remaining last =>
      rw [driveTurn]
      cases found : setup.step index with
      | none =>
          simp only [driveEdges, found]
          exact .undefined rfl found own
      | some step =>
          cases remaining with
          | zero =>
              simp only [driveEdges, found]
              split
              · split <;> exact .completes rfl ⟨rfl, rfl⟩ own
              · split <;> exact .goes rfl rfl (.inl rfl) (.inl rfl) (.inl rfl) ⟨rfl, rfl⟩ own
          | succ remaining =>
              simp only [driveEdges, found]
              split
              · exact .cutShort rfl rfl watched
              · split
                · exact .fails _ rfl same watched
                · split
                  · exact .fails _ rfl same watched
                  · split
                    · exact .goes rfl rfl (.inr rfl) (.inr rfl) (.inl rfl) ⟨rfl, rfl⟩ watched
                    · exact .fails _ rfl ⟨rfl, rfl⟩ watched
  | edge index remaining =>
      rw [driveTurn, driveEdge]
      split
      · split
        · exact .goes rfl rfl (.inr rfl) (.inr rfl) (.inl rfl) same watched
        · exact .fails _ rfl same watched
      · split
        · exact .cutShort rfl rfl watched
        · exact .fails _ rfl same watched
  | failing index failure =>
      rw [driveTurn, driveFailing]
      split
      · next missing => exact .undefined rfl missing own
      · next step found =>
          dsimp only
          split
          · next allowed =>
              split
              · exact .retries index failure found allowed (.inl rfl)
              · next harmless => exact .retries index failure found allowed (.inr ⟨rfl, harmless⟩)
          · split
            · exact .fallsBack index failure _
            · split
              · exact .escalates index failure
              · split
                · exact .stages index failure _
                · split
                  · exact .escalates index failure
                  · exact .settles .failed rfl
  | reobserve index =>
      rw [driveTurn, driveReobserve]
      split
      · exact .reobserves index
      · exact .settles .failed rfl
      · next refused => exact .lost refused ⟨index, .inr rfl⟩
  | escalate =>
      rw [driveTurn, driveEscalate]
      split
      · exact .settles .failed rfl
      · exact .escalated ⟨rfl, rfl⟩
  | handoff checkpoint =>
      rw [driveTurn, driveHandoff]
      split
      · next error refused => exact .unhanded checkpoint refused
      · next moved done => exact .handedOff checkpoint done
  | ending => exact .ended

def DrivePoint.inner : DrivePoint → Bool
  | .start | .drain | .pausing | .handoff _ | .ending => false
  | _ => true

/-- Where the loop leaves the thread of a drive. -/
inductive Drive.Next (driver : Drive) (answer : Answer) (point : DrivePoint) : List Point → Prop
  | goes (later : Drive) (target : DrivePoint) (same : later.synchronous = driver.synchronous) :
      Next driver answer point (later.at target)
  | settles (target : Settlement) : Next driver answer point (settleDrive driver target)
  | stages (decision : WorkflowDecisionRequest) :
      Next driver answer point [.stage decision (.drive driver)]
  | lost (refused : answer.observation = .refused)
      (observes : ∃ index, point = .observe index ∨ point = .reobserve index) :
      Next driver answer point []

theorem countArrival_controls (entered : Bool) (index : Nat) :
    (shared.countArrival entered index).controls = shared.controls := by
  rw [Shared.countArrival]
  split <;> rfl

theorem driveTurn_inner (shared : Shared) (driver : Drive) (answer : Answer) (point : DrivePoint)
    (inside : point.inner = true) :
    (driveTurn setup shared driver answer point).1.controls = shared.controls ∧
      driver.Next answer point (driveTurn setup shared driver answer point).2 := by
  generalize turn : driveTurn setup shared driver answer point = result
  cases turn ▸ driveTurn_cases setup shared driver answer point with
  | started done | drained | paused | handedOff | unhanded | ended => cases inside
  | settles target apart => exact ⟨rfl, .settles target⟩
  | undefined about missing marks => exact ⟨rfl, .goes _ _ marks.1⟩
  | fails failure about kept marks => exact ⟨kept.1, .goes _ _ marks.1⟩
  | completes about kept marks => exact ⟨kept.1, .goes _ _ marks.1⟩
  | goes about within evidence kind order kept marks => exact ⟨kept.1, .goes _ _ marks.1⟩
  | handsOff index => exact ⟨countArrival_controls shared true index, .goes _ _ rfl⟩
  | executes index => exact ⟨countArrival_controls shared _ index, .goes _ _ rfl⟩
  | jumps index target found undue kept =>
      exact ⟨kept.1.trans (countArrival_controls shared _ index), .goes _ _ rfl⟩
  | cutShort about waits marks => exact ⟨rfl, .goes _ _ marks.1⟩
  | lost refused observes => exact ⟨rfl, .lost refused observes⟩
  | stages index failure decision => exact ⟨rfl, .stages decision⟩
  | escalated kept => exact ⟨kept.1, .goes _ _ rfl⟩
  | _ => exact ⟨rfl, .goes _ _ rfl⟩

end Mira.Workflow
