import Mira.Workflow.PatchFlow

/-!
What a turn does to the state of its run and to the epoch of its transitions: it leaves both, or
it is one of the turns that aim at a state, the table has the transition, and the epoch goes up
by one. Only a settlement aims at a terminal state.
-/

namespace Mira.Workflow
open Mira Bytes

inductive LifeEffect (before after : WorkflowRunView) (aims : Option WorkflowRunState) : Prop
  | stays (state : after.state = before.state) (epoch : after.runEpoch = before.runEpoch)
  | moves (aimed : aims = some after.state)
      (valid : validWorkflowRunTransition before.state after.state = true)
      (epoch : after.runEpoch = before.runEpoch + 1)

section
variable {shared after moved : Shared} {target : WorkflowRunState} {point : Point}

theorem LifeEffect.refl (view : WorkflowRunView) (aims : Option WorkflowRunState) :
    LifeEffect view view aims :=
  .stays rfl rfl

theorem Kept.life (kept : Kept shared after) (aims : Option WorkflowRunState) :
    LifeEffect shared.run.view after.run.view aims := by
  have same : after.run.view = shared.run.view := congrArg RunControls.view kept.1
  rw [same]
  exact .refl _ _

theorem transition_life (done : shared.transition target = .ok moved) :
    LifeEffect shared.run.view moved.run.view (some target) := by
  obtain ⟨state, valid⟩ := transition_state done
  obtain ⟨view, applied, rfl⟩ := transition_ok done
  rw [applyWorkflowRunTransition] at applied
  split at applied
  · split at applied <;> cases applied
  · split at applied
    · cases applied
    · cases applied
      exact .moves rfl valid rfl

theorem tryTransition_life (shared : Shared) (target : WorkflowRunState) :
    LifeEffect shared.run.view (shared.tryTransition target).run.view (some target) := by
  cases tryTransition_cases shared target with
  | inl same =>
      rw [same]
      exact .refl _ _
  | inr done => exact transition_life done

theorem countArrival_view (shared : Shared) (entered : Bool) (index : Nat) :
    (shared.countArrival entered index).run.view = shared.run.view :=
  congrArg RunControls.view (countArrival_controls shared entered index)

theorem patched_view (shared : Shared) (submitter : Submitter) :
    (submitter.patched shared).1.run.view = shared.run.view := by
  cases submitter <;> rfl

end

variable (setup : Setup) (shared : Shared)

theorem driveTurn_life (driver : Drive) (answer : Answer) (point : DrivePoint) :
    LifeEffect shared.run.view (driveTurn setup shared driver answer point).1.run.view
      (Point.drive driver point).aims := by
  generalize turn : driveTurn setup shared driver answer point = result
  cases turn ▸ driveTurn_cases setup shared driver answer point with
  | started done => exact transition_life done
  | paused => exact tryTransition_life shared .paused
  | handedOff checkpoint done =>
      have handed := transition_life done
      cases checkpoint with
      | none => exact handed
      | some index => exact handed
  | fails failure about kept | goes about within evidence kind order kept | completes about kept =>
      exact kept.life _
  | escalated kept => exact kept.life _
  | handsOff index =>
      have same := countArrival_view shared true index
      exact .stays (congrArg WorkflowRunView.state same) (congrArg WorkflowRunView.runEpoch same)
  | executes index =>
      have same := countArrival_view shared (driver.enters index) index
      exact .stays (congrArg WorkflowRunView.state same) (congrArg WorkflowRunView.runEpoch same)
  | jumps index target found undue kept =>
      have same := (congrArg RunControls.view kept.1).trans
        (countArrival_view shared (driver.enters index) index)
      exact .stays (congrArg WorkflowRunView.state same) (congrArg WorkflowRunView.runEpoch same)
  | _ => exact .refl _ _

theorem controlTurn_life (answer : Answer) (point : ControlPoint) :
    LifeEffect shared.run.view (controlTurn setup shared answer point).1.run.view
      (Point.control point).aims := by
  generalize turn : controlTurn setup shared answer point = result
  cases turn ▸ controlTurn_cases setup shared answer point with
  | restored => exact tryTransition_life shared .paused
  | paused => exact tryTransition_life shared .paused
  | activated done =>
      have active := transition_life done
      exact active
  | rejected done => exact transition_life done
  | _ => exact .refl _ _

theorem advance_life (point : Point) (answer : Answer) :
    LifeEffect shared.run.view (advance setup shared point answer).1.run.view point.aims := by
  cases point with
  | drive driver point => exact driveTurn_life setup shared driver answer point
  | control point => exact controlTurn_life setup shared answer point
  | settle target back => exact tryTransition_life shared target.state
  | stage decision back =>
      rw [advance, stageTurn]
      split <;> exact .stays rfl rfl
  | waitUser decision back =>
      rw [advance, waitUserTurn]
      split
      · exact .refl _ _
      · next moved done =>
          have waiting := transition_life done
          exact waiting
  | unstage back => exact .stays rfl rfl
  | submit patch submitter =>
      rw [advance]
      generalize turn : submitTurn setup shared patch submitter = result
      cases turn ▸ submitTurn_cases setup shared patch submitter with
      | replayed =>
          rw [patched_view]
          exact .refl _ _
      | _ => exact .refl _ _
  | enqueue patch submitter =>
      rw [advance, enqueueTurn, patched_view]
      exact .refl _ _
  | snapshot patch submitter =>
      rw [advance, snapshotTurn]
      split
      · exact .refl _ _
      · split <;> exact .refl _ _
  | commit patch patched submitter =>
      rw [advance, commitTurn]
      split
      · exact .refl _ _
      · rw [patched_view]
        exact .stays rfl rfl

theorem aims_terminal {point : Point} {target : WorkflowRunState} (aims : point.aims = some target)
    (terminal : target.isTerminal = true) : ∃ settled back, point = .settle settled back := by
  cases point with
  | settle settled back => exact ⟨settled, back, rfl⟩
  | drive driver point =>
      cases point with
      | start | pausing | handoff checkpoint =>
          cases aims
          exact absurd terminal (by decide)
      | _ => cases aims
  | control point =>
      cases point with
      | restorePause | pauseCommit | activate | rejectRun =>
          cases aims
          exact absurd terminal (by decide)
      | _ => cases aims
  | waitUser decision back =>
      cases aims
      exact absurd terminal (by decide)
  | _ => cases aims

/-!
The runs of a runtime. A run is created, driven, patched and settled by calls that take turns on
the table of all of them. A settlement has three sections of its own here: the transition, the
count of active runs, and the event, which reads the state anew.
-/

/-- The values of the count of active runs. -/
def sizeLimit : Nat := 2 ^ 64

structure WorkflowRuntimeSetup where
  host : Host
  config : WorkflowRuntimeConfig := {}
  maxActiveRuns : Nat := 32
  fits : maxActiveRuns < sizeLimit := by decide
  /-- An event store is installed. -/
  events : Bool := true

/-- A run in the table, with the states that it came to, the latest first. -/
structure RunEntry where
  definition : WorkflowDefinition
  run : RunRecord
  journal : List RunEvent := []
  states : List WorkflowRunState := [.created]

def RunEntry.state (entry : RunEntry) : WorkflowRunState := entry.run.view.state

structure WorkflowRunSettledEvent where
  run : Nat
  terminalState : WorkflowRunState
  runEpoch : Nat

structure RuntimeState where
  runs : List RunEntry := []
  activeRuns : Nat := 0
  asyncDrives : Nat := 0
  accepting : Bool := true
  settledEvents : List WorkflowRunSettledEvent := []

inductive RuntimePoint
  | create (definition : WorkflowDefinition) (parameters : JsonValue)
      (policy : Option WorkflowPolicy)
  | insert (definition : WorkflowDefinition) (effective : EffectiveState)
  | run (index : Nat) (point : Point)
  | decrement (index : Nat) (back : Back)
  | emit (index : Nat) (back : Back)
  | shutdown

def Call.ofRun : Call → Bool
  | .otherRun | .shutdown => false
  | _ => true

inductive RuntimeCall
  | createRun (definition : WorkflowDefinition) (parameters : JsonValue)
      (policy : Option WorkflowPolicy)
  | onRun (index : Nat) (call : Call) (own : call.ofRun = true)
  | shutdown

def enterRuntime : RuntimeCall → RuntimePoint
  | .createRun definition parameters policy => .create definition parameters policy
  | .onRun index call _ => .run index (enterCall call)
  | .shutdown => .shutdown

def onRun (index : Nat) (points : List Point) : List RuntimePoint :=
  points.map (RuntimePoint.run index)

def RunEntry.after (entry : RunEntry) (shared : Shared) : RunEntry :=
  { entry with
    run := shared.run
    journal := shared.journal
    states :=
      if shared.run.view.state = entry.state then entry.states
      else shared.run.view.state :: entry.states }

namespace RuntimeState

def sharedOf (state : RuntimeState) (entry : RunEntry) : Shared :=
  ⟨entry.run, state.asyncDrives, state.accepting, entry.journal⟩

def write (state : RuntimeState) (index : Nat) (entry : RunEntry) (shared : Shared) :
    RuntimeState :=
  { state with
    runs := state.runs.set index (entry.after shared)
    asyncDrives := shared.asyncDrives
    accepting := shared.accepting }

end RuntimeState

def WorkflowRuntimeSetup.of (setup : WorkflowRuntimeSetup) (entry : RunEntry) : Setup :=
  ⟨setup.host, setup.config, entry.definition⟩

/-- The admission of `create_run` up to the carrier task, which may be refused. -/
def createTurn (setup : WorkflowRuntimeSetup) (state : RuntimeState)
    (definition : WorkflowDefinition) (parameters : JsonValue) (policy : Option WorkflowPolicy)
    (answer : Answer) : List RuntimePoint :=
  match admitRun setup.host definition parameters policy with
  | .error _ => []
  | .ok effective =>
      if state.accepting = false ∨ setup.maxActiveRuns ≤ state.activeRuns ∨ answer.obeyed = false
      then []
      else [.insert definition effective]

/-- The run is put into the table. -/
def insertTurn (setup : WorkflowRuntimeSetup) (state : RuntimeState)
    (definition : WorkflowDefinition) (effective : EffectiveState) : RuntimeState :=
  if state.accepting = false ∨ setup.maxActiveRuns ≤ state.activeRuns then state
  else
    { state with
      activeRuns := (state.activeRuns + 1) % sizeLimit
      runs := state.runs ++ [{ definition := definition, run := { effective := effective } }] }

/-- A call on a run at its next section. A settlement that the table has goes on to the count. -/
def runTurn (setup : WorkflowRuntimeSetup) (state : RuntimeState) (index : Nat) (entry : RunEntry)
    (answer : Answer) : Point → RuntimeState × List RuntimePoint
  | .settle target back =>
      match (state.sharedOf entry).transition target.state with
      | .error _ => (state, onRun index back.ended)
      | .ok moved => (state.write index entry moved, [.decrement index back])
  | point =>
      let next := advance (setup.of entry) (state.sharedOf entry) point answer
      (state.write index entry next.1, onRun index next.2)

/-- The state of the run is read for the event. -/
def emitTurn (setup : WorkflowRuntimeSetup) (state : RuntimeState) (index : Nat) :
    RuntimeState :=
  match state.runs[index]? with
  | none => state
  | some entry =>
      if setup.events then
        { state with
          settledEvents :=
            ⟨index, entry.state, entry.run.view.runEpoch⟩ :: state.settledEvents }
      else state

/-- The shutdown checks the runs one after the other; here each check is a thread of its own,
which allows more orders. -/
def shutdownTurn (state : RuntimeState) : RuntimeState × List RuntimePoint :=
  if state.accepting = false then (state, [])
  else
    ({ state with accepting := false },
      (List.range state.runs.length).map fun index => .run index (.control .shutdownCheck))

def advanceRuntime (setup : WorkflowRuntimeSetup) (state : RuntimeState) (point : RuntimePoint)
    (answer : Answer) : RuntimeState × List RuntimePoint :=
  match point with
  | .create definition parameters policy =>
      (state, createTurn setup state definition parameters policy answer)
  | .insert definition effective => (insertTurn setup state definition effective, [])
  | .run index point =>
      match state.runs[index]? with
      | none => (state, [])
      | some entry => runTurn setup state index entry answer point
  | .decrement index back =>
      ({ state with activeRuns := (state.activeRuns + (sizeLimit - 1)) % sizeLimit },
        [.emit index back])
  | .emit index back => (emitTurn setup state index, onRun index back.ended)
  | .shutdown => shutdownTurn state

abbrev RuntimePool := Interleaving.Pool RuntimeState RuntimePoint
abbrev RuntimeTurn := Interleaving.Turn RuntimeCall Answer

def runtimeMachine (setup : WorkflowRuntimeSetup) : RuntimePool → RuntimeTurn → RuntimePool × Unit :=
  Interleaving.takeTurn enterRuntime (advanceRuntime setup)

def runtimeTurns (setup : WorkflowRuntimeSetup) (turns : List RuntimeTurn) : RuntimePool :=
  Execution.run (runtimeMachine setup) ⟨{}, []⟩ turns

end Mira.Workflow
