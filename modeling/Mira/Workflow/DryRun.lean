import Mira.Workflow.PatchFlow

/-!
A run under the dry-run policy. Nothing of it reaches a tool: its steps are planned and not
dispatched, a failure settles it, and no patch or decision gets to it that could change its
policy.
-/

namespace Mira.Workflow
open Mira Bytes

def WorkflowRunState.waits : WorkflowRunState → Bool
  | .waitingUser | .waitingAgent => true
  | _ => false

/-- An event of a step that is handed to a tool. -/
def RunEvent.acts : RunEvent → Bool
  | .dispatched _ _ | .navigated _ => true
  | _ => false

/-- A point at which a step is handed to a tool or waits for it. -/
def Point.invokes : Point → Bool
  | .drive _ (.dispatch _) | .drive _ (.inFlight _ _) | .drive _ (.edges _ _ _)
  | .drive _ (.edge _ _) => true
  | _ => false

def Point.dry : Point → Bool
  | .drive _ (.dispatch _) | .drive _ (.inFlight _ _) | .drive _ (.edges _ _ _)
  | .drive _ (.edge _ _) | .drive _ .escalate | .drive _ (.handoff _) => false
  | .control (.accept _) | .control (.reject _) | .control .rejectRun => false
  | .submit patch .caller => !patch.confirmed
  | .drive _ _ | .control _ | .settle _ _ => true
  | _ => false

structure Dry (shared : Shared) : Prop where
  policy : shared.run.effective.policy = .dryRun
  awake : shared.run.view.state.waits = false
  queue : shared.run.pending = []
  inert : ∀ event ∈ shared.journal, event.acts = false

/-- A turn leaves a dry run and dry threads. -/
def DryTurn (result : Shared × List Point) : Prop :=
  Dry result.1 ∧ ∀ next ∈ result.2, next.dry = true

variable {state : EffectiveState}

theorem dry_newRun (policy : state.policy = .dryRun) : Dry (newRun state).shared :=
  ⟨policy, rfl, rfl, by simp [newRun]⟩

namespace Dry
variable {shared after moved : Shared} {target : WorkflowRunState}

theorem note (dry : Dry shared) (event : RunEvent) (quiet : event.acts = false) :
    Dry (shared.note event) := by
  refine ⟨dry.policy, dry.awake, dry.queue, ?_⟩
  intro other among
  cases List.mem_cons.mp among with
  | inl same => exact same ▸ quiet
  | inr before => exact dry.inert other before

theorem moveTo (dry : Dry shared) (index : Nat) : Dry (shared.moveTo index) := by
  have noted := dry.note (.moved index) rfl
  exact ⟨noted.policy, noted.awake, noted.queue, noted.inert⟩

theorem leaves (dry : Dry shared) (index : Nat) : Dry (shared.leaveInterrupted index) := by
  have moved := dry.moveTo index
  exact ⟨moved.policy, moved.awake, moved.queue, moved.inert⟩

theorem transition (dry : Dry shared) (aside : target.waits = false)
    (done : shared.transition target = .ok moved) : Dry moved := by
  obtain ⟨view, applied, rfl⟩ := transition_ok done
  have state := (transition_state done).1
  refine ⟨dry.policy, ?_, dry.queue, dry.inert⟩
  rw [state]
  exact aside

theorem tryTransition (dry : Dry shared) (aside : target.waits = false) :
    Dry (shared.tryTransition target) := by
  cases tryTransition_cases shared target with
  | inl same =>
      rw [same]
      exact dry
  | inr done => exact dry.transition aside done

theorem ends (dry : Dry shared) : DryTurn (shared, []) := ⟨dry, by simp⟩

theorem goes (dry : Dry shared) {next : Point} (ahead : next.dry = true) :
    DryTurn (shared, [next]) :=
  ⟨dry, by simpa using ahead⟩

theorem completes (dry : Dry shared) (driver : Drive) :
    DryTurn (completeStep shared driver) :=
  (dry.moveTo _).goes rfl

theorem dispatches (dry : Dry shared) :
    shared.run.effective.policy.dispatchesSideEffects = false := by
  rw [dry.policy]
  rfl

theorem agentless (dry : Dry shared) : shared.run.effective.policy.allowsAgent = false := by
  rw [dry.policy]
  rfl

theorem refusesPatches (dry : Dry shared) : admitsPatches shared.run = false := by
  rw [admitsPatches, dry.agentless, dry.policy]
  simp

theorem undecided (dry : Dry shared) : shared.run.view.state ≠ .waitingUser := by
  intro waiting
  have awake := dry.awake
  rw [waiting] at awake
  cases awake

end Dry

section
variable {setup : Setup} {shared : Shared} {driver : Drive} {answer : Answer} {index : Nat}

theorem executeStep_dry (dry : Dry shared) (driver : Drive) (step : WorkflowStep) :
    DryTurn (executeStep setup shared driver step index) := by
  rw [executeStep, dry.dispatches]
  split
  · rw [controlJump]
    split
    · exact dry.goes rfl
    · have jumped : Dry { shared with
          run := { shared.run with jumps := shared.run.jumps.bump index } } :=
        ⟨dry.policy, dry.awake, dry.queue, dry.inert⟩
      exact (jumped.moveTo _).goes rfl
  · exact dry.goes rfl
  · exact dry.goes rfl
  · exact dry.goes rfl

theorem driveBoundary_dry (dry : Dry shared) :
    DryTurn (driveBoundary setup shared driver answer) := by
  simp only [driveBoundary]
  split
  · split <;> exact dry.goes rfl
  · split
    · exact dry.goes rfl
    · split
      · exact dry.goes rfl
      · split
        · exact dry.completes driver
        · split <;> exact dry.goes rfl

theorem driveArrive_dry (dry : Dry shared) : DryTurn (driveArrive setup shared driver index) := by
  rw [driveArrive]
  split
  · exact dry.goes rfl
  · next step found =>
      have counted : Dry (shared.countArrival (driver.enters index) index) := by
        rw [Shared.countArrival]
        split
        · have noted := dry.note (.entered index) rfl
          exact ⟨noted.policy, noted.awake, noted.queue, noted.inert⟩
        · exact dry
      have undue : handsOff (shared.countArrival (driver.enters index) index)
          (driver.enters index) step index = false := by
        simp [handsOff, counted.policy]
      have executed : Dry
          ((shared.countArrival (driver.enters index) index).countExecution index) := by
        have noted := counted.note (.executed index) rfl
        exact ⟨noted.policy, noted.awake, noted.queue, noted.inert⟩
      simp only [undue, Bool.false_eq_true, if_false]
      exact executeStep_dry executed (driver.arrived index) step

theorem driveNavigate_dry (dry : Dry shared) :
    DryTurn (driveNavigate setup shared driver index answer) := by
  simp only [driveNavigate, dry.dispatches]
  split
  · exact dry.goes rfl
  · split
    · exact dry.completes driver
    · split
      · exact dry.goes rfl
      · rw [if_pos trivial]
        split
        · exact dry.goes rfl
        · exact dry.completes driver

theorem driveFailing_dry (dry : Dry shared) (failure : WorkflowError) :
    DryTurn (driveFailing setup shared driver index failure answer) := by
  simp only [driveFailing, dry.agentless]
  split
  · exact dry.goes rfl
  · split
    · have noted := dry.note (.retried index) rfl
      have retried : Dry { shared with
          run := { shared.run with retries := shared.run.retries.bump index }
          journal := .retried index :: shared.journal } :=
        ⟨noted.policy, noted.awake, noted.queue, noted.inert⟩
      split <;> exact retried.goes rfl
    · split
      · exact (dry.moveTo _).goes rfl
      · simp only [Bool.false_eq_true, and_false, if_false, dry.policy, reduceCtorEq]
        exact dry.goes rfl

theorem driveTurn_dry (dry : Dry shared) (point : DrivePoint)
    (stands : (Point.drive driver point).dry = true) :
    DryTurn (driveTurn setup shared driver answer point) := by
  cases point with
  | dispatch _ | inFlight _ _ | edges _ _ _ | edge _ _ | escalate | handoff _ => cases stands
  | begin =>
      rw [driveTurn, driveBegin]
      split <;> exact dry.goes rfl
  | start =>
      rw [driveTurn, driveStart]
      split
      · exact dry.goes rfl
      · next moved done => exact (dry.transition rfl done).goes rfl
  | top =>
      rw [driveTurn, driveTop]
      split <;> exact dry.goes rfl
  | drain =>
      rw [driveTurn, driveDrain, dry.queue]
      have drained : Dry { shared with run := { shared.run with pending := [] } } :=
        ⟨dry.policy, dry.awake, rfl, dry.inert⟩
      exact drained.goes rfl
  | boundary => exact driveBoundary_dry dry
  | pausing => exact (dry.tryTransition rfl).goes rfl
  | precondition index =>
      rw [driveTurn, drivePrecondition]
      split
      · exact dry.goes rfl
      · exact dry.completes driver
      · exact dry.goes rfl
  | arrive index => exact driveArrive_dry dry
  | plan index =>
      rw [driveTurn, drivePlan]
      split
      · exact dry.goes rfl
      · exact dry.completes driver
  | verify index | judge index =>
      rw [driveTurn, driveJudge]
      split
      · exact dry.completes driver
      · exact dry.goes rfl
  | observe index =>
      rw [driveTurn, driveObserve]
      split
      · exact (dry.note _ rfl).goes rfl
      · exact dry.goes rfl
      · exact dry.ends
  | navigate index => exact driveNavigate_dry dry
  | failing index failure => exact driveFailing_dry dry failure
  | reobserve index =>
      rw [driveTurn, driveReobserve]
      split
      · exact (dry.note _ rfl).goes rfl
      · exact dry.goes rfl
      · exact dry.ends
  | ending =>
      have ended : Dry (driveEnding shared driver).1 :=
        ⟨dry.policy, dry.awake, dry.queue, dry.inert⟩
      exact ended.ends

theorem resolveInterrupted_dry (dry : Dry shared) : DryTurn (resolveInterrupted setup shared) := by
  have cleared : Dry shared.clearInterrupted := by
    have noted := dry.note (.cleared shared.run.cursor) rfl
    exact ⟨noted.policy, noted.awake, noted.queue, noted.inert⟩
  rw [resolveInterrupted]
  split
  · exact cleared.goes rfl
  · split
    · exact (dry.leaves _).goes rfl
    · rw [if_pos (.inl dry.dispatches)]
      exact cleared.goes rfl

theorem judgeInterrupted_dry (dry : Dry shared) :
    DryTurn (judgeInterrupted setup shared index answer) := by
  rw [judgeInterrupted]
  split
  · exact dry.ends
  · split
    · exact ((dry.note _ rfl).leaves _).goes rfl
    · split
      · exact ((dry.note _ rfl).leaves _).goes rfl
      · have noted := (dry.note (.recovered index .uncertain) rfl).note
          (.cleared shared.run.cursor) rfl
        have cleared : Dry (shared.note (.recovered index .uncertain)).clearInterrupted :=
          ⟨noted.policy, noted.awake, noted.queue, noted.inert⟩
        exact cleared.goes rfl

theorem checkDecision_dry (dry : Dry shared) (decision : WorkflowDecisionId)
    (digest : Sha256Digest) : ∃ error, checkDecision shared decision digest = .error error := by
  rw [checkDecision]
  split
  · exact ⟨_, rfl⟩
  · split
    · exact ⟨_, rfl⟩
    · rw [if_pos dry.undecided]
      exact ⟨_, rfl⟩

end

variable {setup : Setup} {shared : Shared}

theorem controlTurn_dry {answer : Answer} (dry : Dry shared) (point : ControlPoint)
    (stands : (Point.control point).dry = true) :
    DryTurn (controlTurn setup shared answer point) := by
  cases point with
  | accept _ | reject _ | rejectRun => cases stands
  | startRun =>
      rw [controlTurn, startRun]
      split
      · exact dry.ends
      · have claimed : Dry (shared.claim false) := ⟨dry.policy, dry.awake, dry.queue, dry.inert⟩
        exact claimed.goes rfl
  | executeRun =>
      rw [controlTurn, executeRun]
      split
      · exact dry.ends
      · have claimed : Dry (shared.claim true) := ⟨dry.policy, dry.awake, dry.queue, dry.inert⟩
        exact claimed.goes rfl
  | submitDrive resumed =>
      rw [controlTurn, submitDrive]
      split
      · exact dry.goes rfl
      · split <;> exact dry.goes rfl
  | restorePause => exact (dry.tryTransition rfl).goes rfl
  | release =>
      have released : Dry shared.release := ⟨dry.policy, dry.awake, dry.queue, dry.inert⟩
      exact released.ends
  | pauseRun =>
      rw [controlTurn, pauseRun]
      split
      · exact dry.goes rfl
      · exact dry.ends
  | pausePoll =>
      rw [controlTurn, pausePoll]
      split
      · exact dry.ends
      · split
        · exact dry.goes rfl
        · split
          · exact dry.ends
          · exact dry.goes rfl
  | pauseCommit => exact (dry.tryTransition rfl).ends
  | cancelRun =>
      rw [controlTurn, cancelRun]
      split
      · exact dry.ends
      · exact dry.goes rfl
  | cancelPoll =>
      rw [controlTurn, cancelPoll]
      split
      · exact dry.ends
      · split <;> exact dry.goes rfl
  | resumeRun =>
      rw [controlTurn, resumeRun]
      split
      · exact dry.goes rfl
      · exact dry.ends
  | converge =>
      rw [controlTurn, converge]
      split
      · exact dry.goes rfl
      · split
        · exact dry.ends
        · exact dry.goes rfl
  | capacity =>
      rw [controlTurn, capacity]
      split
      · exact dry.ends
      · exact dry.goes rfl
  | reobserve =>
      rw [controlTurn, reobserveRun]
      split
      · exact dry.ends
      · split
        · exact (dry.note _ rfl).goes rfl
        · exact dry.goes rfl
        · exact dry.ends
  | activate =>
      rw [controlTurn, activate]
      split
      · exact dry.ends
      · next moved done =>
          have active := (dry.transition rfl done).note .resumed rfl
          split <;> exact active.goes rfl
  | resolveInterrupted => exact resolveInterrupted_dry dry
  | judgeInterrupted index => exact judgeInterrupted_dry dry
  | launch =>
      have claimed : Dry (shared.claim false) := ⟨dry.policy, dry.awake, dry.queue, dry.inert⟩
      exact claimed.goes rfl
  | resolveDecision decision digest resolution =>
      obtain ⟨error, refused⟩ := checkDecision_dry dry decision digest
      simp only [controlTurn, resolveDecision, refused]
      exact dry.ends
  | rollbackRunPatch patchId fresh =>
      rw [controlTurn, rollbackTurn]
      split
      · exact dry.ends
      · dsimp only
        split
        · exact dry.ends
        · exact dry.goes rfl
  | userInput decision =>
      rw [controlTurn, userInput, dry.policy]
      simp only [reduceCtorEq, false_and, and_false, if_false]
      exact dry.ends
  | otherRun =>
      have counted : Dry { shared with asyncDrives := shared.asyncDrives + 1 } :=
        ⟨dry.policy, dry.awake, dry.queue, dry.inert⟩
      exact counted.goes rfl
  | otherDrive =>
      have counted : Dry { shared with asyncDrives := shared.asyncDrives - 1 } :=
        ⟨dry.policy, dry.awake, dry.queue, dry.inert⟩
      exact counted.ends
  | shutdown =>
      have closed : Dry { shared with accepting := false } :=
        ⟨dry.policy, dry.awake, dry.queue, dry.inert⟩
      exact closed.goes rfl
  | shutdownCheck =>
      rw [controlTurn, shutdownCheck]
      split
      · exact dry.goes rfl
      · exact dry.ends

theorem submitTurn_dry {patch : PendingPatch} (dry : Dry shared)
    (unconfirmed : patch.confirmed = false) : DryTurn (submitTurn setup shared patch .caller) := by
  have refused (admitted : patch.confirmed = true ∨ admitsPatches shared.run = true) :
      False := by
    rw [unconfirmed, dry.refusesPatches] at admitted
    simp at admitted
  generalize turn : submitTurn setup shared patch .caller = result
  cases turn ▸ submitTurn_cases setup shared patch .caller with
  | refused => exact dry.ends
  | replayed => exact dry.ends
  | applies fresh admitted aside => exact absurd admitted refused
  | queues fresh admitted active room => exact absurd admitted refused

theorem advance_dry (answer : Answer) (dry : Dry shared) (point : Point) (stands : point.dry = true) :
    DryTurn (advance setup shared point answer) := by
  cases point with
  | drive driver point => exact driveTurn_dry dry point stands
  | control point => exact controlTurn_dry dry point stands
  | settle target back =>
      have settled : Dry (shared.tryTransition target.state) :=
        dry.tryTransition (by cases target <;> rfl)
      cases back with
      | caller => exact settled.ends
      | continuation => exact settled.ends
      | drive driver => exact settled.goes rfl
  | submit patch submitter =>
      cases submitter with
      | caller => exact submitTurn_dry dry (by simpa [Point.dry] using stands)
      | decided decision => cases stands
      | draining driver rest => cases stands
  | stage _ _ | waitUser _ _ | unstage _ | enqueue _ _ | snapshot _ _ | commit _ _ _ =>
      cases stands

theorem enterCall_dry (call : Call) : (enterCall call).dry = true := by
  cases call <;> rfl

theorem dry_run (setup : Setup) (policy : state.policy = .dryRun) (turns : List RunTurn) :
    Dry (runTurns setup (newRun state) turns).shared ∧
      ∀ point ∈ (runTurns setup (newRun state) turns).threads, point.dry = true := by
  refine Interleaving.run_invariant (fun _ _ _ _ => True)
    (fun shared threads => Dry shared ∧ ∀ point ∈ threads, point.dry = true) ?_ ?_ ?_
    (newRun state) turns ⟨dry_newRun policy, by simp [newRun]⟩
    (Interleaving.guarded_of_forall (fun _ _ _ _ => trivial) _ _)
  · intro shared first second same held
    exact ⟨held.1, fun point among => held.2 point (same.mem_iff.mpr among)⟩
  · intro shared threads call held
    refine ⟨held.1, fun point among => ?_⟩
    cases List.mem_cons.mp among with
    | inl own => exact own ▸ enterCall_dry call
    | inr other => exact held.2 point other
  · intro shared thread others answer _ held
    have turned : DryTurn (advance setup shared thread answer) :=
      advance_dry answer held.1 thread (held.2 thread List.mem_cons_self)
    refine ⟨turned.1, fun point among => ?_⟩
    cases List.mem_append.mp among with
    | inl next => exact turned.2 point next
    | inr other => exact held.2 point (List.mem_cons_of_mem _ other)

theorem invokes_of_dry {point : Point} (dry : point.dry = true) : point.invokes = false := by
  cases point with
  | drive driver point => cases point <;> first | rfl | cases dry
  | _ => rfl

theorem admitRun_policy {host : Host} {definition : WorkflowDefinition} {parameters : JsonValue}
    {policy : Option WorkflowPolicy}
    (admitted : admitRun host definition parameters policy = .ok state) :
    state.policy = policy.getD definition.defaultPolicy := by
  obtain ⟨-, bindings, resolved, -, -, rfl⟩ := admitRun_cases admitted
  rfl

/-- A run that is created under the dry-run policy keeps it, waits for nobody and hands no step
to a tool, whatever calls and drives take turns on it. -/
theorem dry_run_never_acts (setup : Setup) (parameters : JsonValue)
    (policy : Option WorkflowPolicy) (state : EffectiveState)
    (dry : policy.getD setup.definition.defaultPolicy = .dryRun)
    (admitted : admitRun setup.host setup.definition parameters policy = .ok state)
    (turns : List RunTurn) :
    (runTurns setup (newRun state) turns).shared.run.effective.policy = .dryRun ∧
      (runTurns setup (newRun state) turns).shared.run.view.state ≠ .waitingUser ∧
      (runTurns setup (newRun state) turns).shared.run.view.state ≠ .waitingAgent ∧
      (∀ event ∈ (runTurns setup (newRun state) turns).shared.journal, event.acts = false) ∧
      ∀ point ∈ (runTurns setup (newRun state) turns).threads, point.invokes = false := by
  obtain ⟨kept, threads⟩ := dry_run setup ((admitRun_policy admitted).trans dry) turns
  refine ⟨kept.policy, kept.undecided, ?_, kept.inert,
    fun point among => invokes_of_dry (threads point among)⟩
  intro waiting
  have awake := kept.awake
  rw [waiting] at awake
  cases awake

def rehearsalWorkflow : WorkflowDefinition :=
  { sendWorkflow with
    defaultPolicy := .dryRun
    allowedPolicies := [.dryRun, .interactive] }

def rehearsalState : EffectiveState := { sendState with policy := .dryRun }

def rehearsalSetup : Setup := { host := sendHost, definition := rehearsalWorkflow }

/-- The host asks for another policy before the run is driven and while it is. -/
def switchPolicy (patchId : WorkflowPatchId) : List RunTurn :=
  [.call (.patchRun patchId
      [{ target := .executionPolicy, path := ascii "policy", value := .string (ascii "interactive") }]),
    .turn 0 {}]

def rehearsalTurns : List RunTurn :=
  switchPolicy (.filled 2) ++ [.call .executeRun] ++ turnsOf 0 4 {} ++ switchPolicy (.filled 3) ++
    turnsOf 0 8 {}

theorem rehearsal_completes :
    (runTurns rehearsalSetup (newRun rehearsalState) rehearsalTurns).shared.run.view.state =
        .completed ∧
      (∀ event ∈ (runTurns rehearsalSetup (newRun rehearsalState) rehearsalTurns).shared.journal,
        event.acts = false) :=
  ⟨by decide +kernel,
    (dry_run_never_acts rehearsalSetup (sendTo "a") none rehearsalState rfl rfl
      rehearsalTurns).2.2.2.1⟩

end Mira.Workflow
