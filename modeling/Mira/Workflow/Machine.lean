import Mira.Workflow.Drive

/-!
The calls of the runtime on one run, each as the critical sections it is made of, and the
machine in which any number of them take turns.
-/

namespace Mira.Workflow
open Mira Bytes

/-- Where a run that is settled or waits leaves the thread. -/
def Back.ended : Back → List Point
  | .drive driver => driver.at .ending
  | _ => []

/-- Where an escalation that did not take place leaves it. -/
def Back.unescalated : Back → List Point
  | .drive driver => settleDrive driver .failed
  | _ => []

/-- Where a patch that was refused leaves the thread. -/
def Submitter.refused : Submitter → List Point
  | .draining driver rest => drainNext driver rest
  | _ => []

/-- Where a patch that was taken leaves it. A decision is recorded as resolved then. -/
def Submitter.patched (shared : Shared) : Submitter → Shared × List Point
  | .draining driver rest => (shared, drainNext driver rest)
  | .decided decision => (shared.note (.decisionResolved decision), [.control .converge])
  | .caller => (shared, [])

def settleTurn (shared : Shared) (target : Settlement) (back : Back) :
    Shared × List Point :=
  (shared.tryTransition target.state, back.ended)

/-- The decision is staged before the transition. -/
def stageTurn (setup : Setup) (shared : Shared) (decision : WorkflowDecisionRequest)
    (back : Back) : Shared × List Point :=
  if setup.config.maxEscalationsPerRun ≤ shared.run.escalations then (shared, back.unescalated)
  else
    ({ shared with
        run :=
          { shared.run with
            escalations := shared.run.escalations + 1
            view :=
              { shared.run.view with
                pendingDecision := some ⟨decision.decisionId, decision.payloadDigest⟩ }
            decision := some decision } },
      [.waitUser decision back])

def waitUserTurn (shared : Shared) (decision : WorkflowDecisionRequest) (back : Back) :
    Shared × List Point :=
  match shared.transition .waitingUser with
  | .error _ => (shared, [.unstage back])
  | .ok moved => (moved.note (.decisionRaised decision.decisionId), back.ended)

def Shared.eraseDecision (shared : Shared) : Shared :=
  { shared with
    run :=
      { shared.run with
        view := { shared.run.view with pendingDecision := none }
        decision := none } }

def unstageTurn (shared : Shared) (back : Back) : Shared × List Point :=
  (shared.eraseDecision, back.unescalated)

/-- Whether the run is in a state and under a policy that admits patches on its own. -/
def admitsPatches (run : RunRecord) : Bool :=
  run.effective.policy = .interactive ||
    (run.view.state = .waitingAgent && run.effective.policy.allowsAgent)

def heldDigest (run : RunRecord) (patchId : WorkflowPatchId) : Option Sha256Digest :=
  ((run.applied.find? fun applied => applied.patchId = patchId).map AppliedPatch.digest).or
    ((run.pending.find? fun pending => pending.patchId = patchId).map PendingPatch.digest)

/-- The check of `submit_patch`. -/
def submitTurn (setup : Setup) (shared : Shared) (patch : PendingPatch)
    (submitter : Submitter) : Shared × List Point :=
  let state := shared.run.view.state
  match checkEntries patch.entries with
  | .error _ => (shared, submitter.refused)
  | .ok () =>
      if shared.accepting = false then (shared, submitter.refused)
      else
        match heldDigest shared.run patch.patchId with
        | some digest =>
            if digest = patch.digest then submitter.patched shared else (shared, submitter.refused)
        | none =>
            if state.isTerminal ∨ state = .created then (shared, submitter.refused)
            else if patch.confirmed = false ∧ admitsPatches shared.run = false then
              (shared, submitter.refused)
            else if state ≠ .running then (shared, [.snapshot patch submitter])
            else if setup.config.maxPendingPatchesPerRun ≤ shared.run.pending.length then
              (shared, submitter.refused)
            else (shared, [.enqueue patch submitter])

def enqueueTurn (shared : Shared) (patch : PendingPatch) (submitter : Submitter) :
    Shared × List Point :=
  submitter.patched
    { shared with run := { shared.run with pending := shared.run.pending ++ [patch] } }

/-- The state is read in one section of `apply_patch`. -/
def snapshotTurn (setup : Setup) (shared : Shared) (patch : PendingPatch)
    (submitter : Submitter) : Shared × List Point :=
  if shared.run.view.state.isTerminal then (shared, submitter.refused)
  else
    match patchedState setup.host setup.definition shared.run.effective patch.entries with
    | .error _ => (shared, submitter.refused)
    | .ok patched => (shared, [.commit patch patched submitter])

def Shared.commitPatch (shared : Shared) (patch : PendingPatch) (patched : EffectiveState) :
    Shared :=
  { shared with
    run :=
      { shared.run with
        view := { shared.run.view with runPatchEpoch := shared.run.view.runPatchEpoch + 1 }
        effective := Workflow.commitPatch shared.run.effective patch.entries patched
        applied := shared.run.applied ++
          [⟨patch.patchId, patch.digest, patch.entries, shared.run.effective⟩] }
    journal :=
      .committed patch.patchId patch.confirmed (admitsPatches shared.run) :: shared.journal }

/-- And written in another. -/
def commitTurn (setup : Setup) (shared : Shared) (patch : PendingPatch)
    (patched : EffectiveState) (submitter : Submitter) : Shared × List Point :=
  if setup.config.maxAppliedPatchesPerRun ≤ shared.run.applied.length then
    (shared, submitter.refused)
  else submitter.patched (shared.commitPatch patch patched)

/-- What `start_run` and `execute_run` ask of a run before they claim its drive. -/
def claimable (shared : Shared) : Bool :=
  shared.accepting && !shared.run.driveActive && !shared.run.view.state.isTerminal

def Shared.claim (shared : Shared) (synchronous : Bool) : Shared :=
  { shared with
    run := { shared.run with driveActive := true }
    asyncDrives := if synchronous then shared.asyncDrives else shared.asyncDrives + 1 }

def Shared.release (shared : Shared) : Shared :=
  { shared with
    run := { shared.run with driveActive := false }
    asyncDrives := shared.asyncDrives - 1 }

def startRun (setup : Setup) (shared : Shared) : Shared × List Point :=
  if claimable shared = false ∨
      setup.config.maxConcurrentAsyncDrives ≤ shared.asyncDrives then (shared, [])
  else (shared.claim false, [.control (.submitDrive false)])

def executeRun (shared : Shared) : Shared × List Point :=
  if claimable shared = false then (shared, [])
  else (shared.claim true, Drive.at { synchronous := true } .begin)

/-- The executor takes the drive, or refuses it with an exception. -/
def submitDrive (shared : Shared) (resumed : Bool) (answer : Answer) : Shared × List Point :=
  (shared,
    if answer.accepted then Drive.at { synchronous := false } .begin
    else if resumed then [.control .restorePause]
    else [.control .release])

def pauseRun (shared : Shared) (answer : Answer) : Shared × List Point :=
  (shared,
    if shared.accepting ∧ shared.run.view.state = .running ∧ answer.obeyed then
      [.control .pausePoll]
    else [])

def pausePoll (shared : Shared) (answer : Answer) : Shared × List Point :=
  (shared,
    if shared.run.view.state = .paused ∨ shared.run.view.state.isTerminal then []
    else if shared.run.driveActive = false then [.control .pauseCommit]
    else if answer.expired then []
    else [.control .pausePoll])

def cancelRun (shared : Shared) : Shared × List Point :=
  (shared, if shared.run.view.state.isTerminal then [] else [.control .cancelPoll])

def cancelPoll (shared : Shared) (answer : Answer) : Shared × List Point :=
  (shared,
    if shared.run.view.state.isTerminal then []
    else if shared.run.driveActive = false ∨ answer.expired then [.settle .cancelled .caller]
    else [.control .cancelPoll])

def resumeRun (shared : Shared) : Shared × List Point :=
  (shared,
    if shared.accepting ∧
        (shared.run.view.state = .paused ∨ shared.run.view.state = .waitingAgent) then
      [.control .converge]
    else [])

/-- `continue_run` waits for the prior drive. -/
def converge (shared : Shared) (answer : Answer) : Shared × List Point :=
  (shared,
    if shared.run.driveActive = false then [.control .capacity]
    else if answer.expired then []
    else [.control .converge])

def capacity (setup : Setup) (shared : Shared) : Shared × List Point :=
  (shared,
    if setup.config.maxConcurrentAsyncDrives ≤ shared.asyncDrives then []
    else [.control .reobserve])

/-- The task is resumed and observed anew. -/
def reobserveRun (shared : Shared) (answer : Answer) : Shared × List Point :=
  if answer.obeyed = false then (shared, [])
  else
    match answer.observation with
    | .fresh => (shared.note .observed, [.control .activate])
    | .failed => (shared, [.settle .failed .caller])
    | .refused => (shared, [])

def activate (shared : Shared) : Shared × List Point :=
  match shared.transition .running with
  | .error _ => (shared, [])
  | .ok moved =>
      (moved.note .resumed,
        if moved.run.interrupted then [.control .resolveInterrupted] else [.control .launch])

/-- The step is resolved without the cursor moving. -/
def Shared.clearInterrupted (shared : Shared) : Shared :=
  { shared with
    run := { shared.run with interrupted := false }
    journal := .cleared shared.run.cursor :: shared.journal }

/-- The step is resolved and left. -/
def Shared.leaveInterrupted (shared : Shared) (target : Nat) : Shared :=
  { shared with run := { shared.run with interrupted := false } }.moveTo target

def resolveInterrupted (setup : Setup) (shared : Shared) : Shared × List Point :=
  match setup.step shared.run.cursor with
  | none => (shared.clearInterrupted, [.control .launch])
  | some step =>
      if shared.run.effective.skipped.contains step.id.toString then
        (shared.leaveInterrupted (shared.run.cursor + 1), [.control .launch])
      else if shared.run.effective.policy.dispatchesSideEffects = false ∨
          step.kind ≠ .toolCall ∨
          stepToolHasSideEffects setup.host (Setup.argumentsAt shared shared.run.cursor) =
            false then
        (shared.clearInterrupted, [.control .launch])
      else (shared, [.control (.judgeInterrupted shared.run.cursor)])

/-- An uncertain side effect is judged by the verification predicate. -/
def judgeInterrupted (setup : Setup) (shared : Shared) (index : Nat) (answer : Answer) :
    Shared × List Point :=
  match setup.step index with
  | none => (shared, [])
  | some step =>
      if answer.verdict = .satisfied then
        ((shared.note (.recovered index .completed)).leaveInterrupted (shared.run.cursor + 1),
          [.control .launch])
      else if step.recoveryMode = some .fallbackStep then
        ((shared.note (.recovered index .fellBack)).leaveInterrupted (fallbackIndex setup step),
          [.control .launch])
      else
        ((shared.note (.recovered index .uncertain)).clearInterrupted,
          [.settle .failed .continuation])

def launch (shared : Shared) : Shared × List Point :=
  (shared.claim false, [.control (.submitDrive true)])

/-- What the check of `resolve_decision` answers. -/
def checkDecision (shared : Shared) (decision : WorkflowDecisionId) (digest : Sha256Digest) :
    WorkflowResult Unit :=
  if shared.accepting = false then
    .error (workflowError .unavailable "workflow runtime is shutting down")
  else
    match shared.run.view.pendingDecision with
    | none =>
        .error (makeRuntimeError .decisionNotPending (ascii "run has no pending decision"))
    | some pending =>
        if shared.run.view.state ≠ .waitingUser then
          .error (makeRuntimeError .decisionNotPending (ascii "run has no pending decision"))
        else if pending.decisionId ≠ decision ∨ pending.payloadDigest ≠ digest then
          .error (makeRuntimeError .decisionMismatch
            (ascii "decision identity does not match the pending decision"))
        else .ok ()

def resolveDecision (shared : Shared) (decision : WorkflowDecisionId) (digest : Sha256Digest)
    (resolution : WorkflowDecisionResolution) : Shared × List Point :=
  match checkDecision shared decision digest with
  | .error _ => (shared, [])
  | .ok () =>
      match resolution with
      | .cancelRun => (shared.note (.decisionResolved decision), [.control .cancelRun])
      | .reject => (shared, [.control (.reject decision)])
      | .accept => (shared, [.control (.accept decision)])

def rejectDecision (shared : Shared) (decision : WorkflowDecisionId) : Shared × List Point :=
  (shared.note (.decisionResolved decision),
    if (shared.run.decision.map WorkflowDecisionRequest.kind).getD .stepFailure = .stepFailure then
      [.control .rejectRun]
    else [.control .converge])

/-- A rejected failure makes the run active before it settles it. -/
def rejectRun (shared : Shared) : Shared × List Point :=
  match shared.transition .running with
  | .error _ => (shared, [])
  | .ok moved => (moved, [.settle .failed .continuation])

/-- An accepted proposal is a patch under an id of its own. -/
def acceptDecision (shared : Shared) (decision : WorkflowDecisionId) (answer : Answer) :
    Shared × List Point :=
  let proposal := (shared.run.decision.map WorkflowDecisionRequest.proposal).getD []
  if proposal.isEmpty then
    (shared.note (.decisionResolved decision), [.control .converge])
  else
    (shared, [.submit (pendingPatch (.generate answer.drawn) proposal true) (.decided decision)])

def rollbackTurn (shared : Shared) (patchId fresh : WorkflowPatchId) : Shared × List Point :=
  match shared.run.applied.find? fun applied => applied.patchId = patchId with
  | none => (shared, [])
  | some target =>
      let entries := rollbackEntries shared.run.effective target.boundary
      (shared,
        if entries.isEmpty then [] else [.submit (pendingPatch fresh entries false) .caller])

/-- The check of `execute_user_input`. -/
def userInput (shared : Shared) (decision : WorkflowDecisionRequest) : Shared × List Point :=
  (shared,
    if shared.run.view.state = .running ∧ shared.run.effective.policy = .interactive ∧
        shared.run.view.pendingDecision = none then
      [.stage decision .caller]
    else [])

def shutdownCheck (shared : Shared) : Shared × List Point :=
  (shared,
    if shared.run.driveActive = false ∧ shared.run.view.state.isTerminal = false then
      [.settle .cancelled .caller]
    else [])

def controlTurn (setup : Setup) (shared : Shared) (answer : Answer) :
    ControlPoint → Shared × List Point
  | .startRun => startRun setup shared
  | .executeRun => executeRun shared
  | .submitDrive resumed => submitDrive shared resumed answer
  | .restorePause => (shared.tryTransition .paused, [.control .release])
  | .release => (shared.release, [])
  | .pauseRun => pauseRun shared answer
  | .pausePoll => pausePoll shared answer
  | .pauseCommit => (shared.tryTransition .paused, [])
  | .cancelRun => cancelRun shared
  | .cancelPoll => cancelPoll shared answer
  | .resumeRun => resumeRun shared
  | .converge => converge shared answer
  | .capacity => capacity setup shared
  | .reobserve => reobserveRun shared answer
  | .activate => activate shared
  | .resolveInterrupted => resolveInterrupted setup shared
  | .judgeInterrupted index => judgeInterrupted setup shared index answer
  | .launch => launch shared
  | .resolveDecision decision digest resolution =>
      resolveDecision shared decision digest resolution
  | .reject decision => rejectDecision shared decision
  | .rejectRun => rejectRun shared
  | .accept decision => acceptDecision shared decision answer
  | .rollbackRunPatch patchId fresh => rollbackTurn shared patchId fresh
  | .userInput decision => userInput shared decision
  | .otherRun => ({ shared with asyncDrives := shared.asyncDrives + 1 }, [.control .otherDrive])
  | .otherDrive => ({ shared with asyncDrives := shared.asyncDrives - 1 }, [])
  | .shutdown => ({ shared with accepting := false }, [.control .shutdownCheck])
  | .shutdownCheck => shutdownCheck shared

def advance (setup : Setup) (shared : Shared) (point : Point) (answer : Answer) :
    Shared × List Point :=
  match point with
  | .drive drive point => driveTurn setup shared drive answer point
  | .control point => controlTurn setup shared answer point
  | .settle target back => settleTurn shared target back
  | .stage decision back => stageTurn setup shared decision back
  | .waitUser decision back => waitUserTurn shared decision back
  | .unstage back => unstageTurn shared back
  | .submit patch submitter => submitTurn setup shared patch submitter
  | .enqueue patch submitter => enqueueTurn shared patch submitter
  | .snapshot patch submitter => snapshotTurn setup shared patch submitter
  | .commit patch patched submitter => commitTurn setup shared patch patched submitter

abbrev RunPool := Interleaving.Pool Shared Point
abbrev RunTurn := Interleaving.Turn Call Answer

def newRun (state : EffectiveState) : RunPool := ⟨{ run := { effective := state } }, []⟩

def machine (setup : Setup) : RunPool → RunTurn → RunPool × Unit :=
  Interleaving.takeTurn enterCall (advance setup)

def runTurns (setup : Setup) (pool : RunPool) (turns : List RunTurn) : RunPool :=
  Execution.run (machine setup) pool turns

/-- The turns meet a condition on the thread whose turn it is. -/
def TurnsMeet (setup : Setup) (condition : Shared → Point → List Point → Answer → Prop)
    (pool : RunPool) (turns : List RunTurn) : Prop :=
  Execution.Guarded (machine setup) (Interleaving.TurnGuard condition) pool turns

instance (setup : Setup) (condition : Shared → Point → List Point → Answer → Prop)
    [∀ shared point others answer, Decidable (condition shared point others answer)]
    (pool : RunPool) (turns : List RunTurn) :
    Decidable (TurnsMeet setup condition pool turns) :=
  inferInstanceAs (Decidable (Execution.Guarded _ _ pool turns))

def RunEvent.inert : RunEvent → Bool
  | .observed | .committed _ _ _ | .decisionRaised _ | .decisionResolved _ => true
  | _ => false

def RunEvent.commitId : RunEvent → Option WorkflowPatchId
  | .committed patchId _ _ => some patchId
  | _ => none

/-- A point of a call that has neither the run nor a drive of it. -/
def Point.plain : Point → Bool
  | .control (.submitDrive _) | .control .restorePause | .control .release
  | .control .activate | .control .resolveInterrupted | .control (.judgeInterrupted _)
  | .control .launch | .control .otherDrive => false
  | .control _ => true
  | .settle _ .caller | .stage _ .caller => true
  | .submit _ .caller | .submit _ (.decided _) => true
  | _ => false

def Shared.noteAll (shared : Shared) (events : List RunEvent) : Shared :=
  { shared with journal := events ++ shared.journal }

/-- What a turn of a call can do. -/
inductive ControlTurned (setup : Setup) (shared : Shared) (answer : Answer) :
    ControlPoint → Shared × List Point → Prop
  | quiet {point : ControlPoint} (events : List RunEvent) (next : List Point)
      (plain : (Point.control point).plain = true)
      (inert : ∀ event ∈ events, event.inert = true)
      (nexts : ∀ thread ∈ next, thread.plain = true)
      (uncommitted : ∀ event ∈ events, event.commitId = none) :
      ControlTurned setup shared answer point (shared.noteAll events, next)
  | started (claims : claimable shared = true)
      (room : shared.asyncDrives < setup.config.maxConcurrentAsyncDrives) :
      ControlTurned setup shared answer .startRun
        (shared.claim false, [.control (.submitDrive false)])
  | executed (claims : claimable shared = true) :
      ControlTurned setup shared answer .executeRun
        (shared.claim true, Drive.at { synchronous := true } .begin)
  | submitted (resumed : Bool) :
      ControlTurned setup shared answer (.submitDrive resumed)
        (shared, Drive.at { synchronous := false } .begin)
  | withdrawn :
      ControlTurned setup shared answer (.submitDrive true) (shared, [.control .restorePause])
  | dropped :
      ControlTurned setup shared answer (.submitDrive false) (shared, [.control .release])
  | restored :
      ControlTurned setup shared answer .restorePause
        (shared.tryTransition .paused, [.control .release])
  | released : ControlTurned setup shared answer .release (shared.release, [])
  | paused : ControlTurned setup shared answer .pauseCommit (shared.tryTransition .paused, [])
  | reobserved :
      ControlTurned setup shared answer .reobserve (shared.note .observed, [.control .activate])
  | unmoved : ControlTurned setup shared answer .activate (shared, [])
  | activated {moved : Shared} (done : shared.transition .running = .ok moved) :
      ControlTurned setup shared answer .activate
        (moved.note .resumed,
          if moved.run.interrupted then [.control .resolveInterrupted] else [.control .launch])
  | cleared :
      ControlTurned setup shared answer .resolveInterrupted
        (shared.clearInterrupted, [.control .launch])
  | skipped :
      ControlTurned setup shared answer .resolveInterrupted
        (shared.leaveInterrupted (shared.run.cursor + 1), [.control .launch])
  | judged {step : WorkflowStep} (found : setup.step shared.run.cursor = some step)
      (calls : step.kind = .toolCall) :
      ControlTurned setup shared answer .resolveInterrupted
        (shared, [.control (.judgeInterrupted shared.run.cursor)])
  | undefined {index : Nat} (missing : setup.step index = none) :
      ControlTurned setup shared answer (.judgeInterrupted index) (shared, [])
  | recovered (index : Nat) (verdict : RecoveryVerdict) (target : Nat) :
      ControlTurned setup shared answer (.judgeInterrupted index)
        ((shared.note (.recovered index verdict)).leaveInterrupted target, [.control .launch])
  | uncertain (index : Nat) :
      ControlTurned setup shared answer (.judgeInterrupted index)
        ((shared.note (.recovered index .uncertain)).clearInterrupted,
          [.settle .failed .continuation])
  | launched :
      ControlTurned setup shared answer .launch
        (shared.claim false, [.control (.submitDrive true)])
  | rejected {moved : Shared} (done : shared.transition .running = .ok moved) :
      ControlTurned setup shared answer .rejectRun (moved, [.settle .failed .continuation])
  | otherStarted :
      ControlTurned setup shared answer .otherRun
        ({ shared with asyncDrives := shared.asyncDrives + 1 }, [.control .otherDrive])
  | otherEnded :
      ControlTurned setup shared answer .otherDrive
        ({ shared with asyncDrives := shared.asyncDrives - 1 }, [])
  | shutDown :
      ControlTurned setup shared answer .shutdown
        ({ shared with accepting := false }, [.control .shutdownCheck])

section
variable {setup : Setup} {shared : Shared} {answer : Answer} {point : ControlPoint}

theorem ControlTurned.ends (plain : (Point.control point).plain = true) :
    ControlTurned setup shared answer point (shared, []) :=
  .quiet [] [] plain (by simp) (by simp) (by simp)

variable {next : Point}

theorem ControlTurned.goes (plain : (Point.control point).plain = true) (nexts : next.plain = true) :
    ControlTurned setup shared answer point (shared, [next]) :=
  .quiet [] [next] plain (by simp) (by simpa using nexts) (by simp)

theorem ControlTurned.notes {event : RunEvent} (plain : (Point.control point).plain = true)
    (inert : event.inert = true) (uncommitted : event.commitId = none) (nexts : next.plain = true) :
    ControlTurned setup shared answer point (shared.note event, [next]) :=
  .quiet [event] [next] plain (by simpa using inert) (by simpa using nexts)
    (by simpa using uncommitted)

end

variable (setup : Setup) (shared : Shared)

theorem controlTurn_cases (answer : Answer) (point : ControlPoint) :
    ControlTurned setup shared answer point (controlTurn setup shared answer point) := by
  cases point with
  | startRun =>
      rw [controlTurn, startRun]
      split
      · exact .ends rfl
      · next claims => exact .started (by grind) (by grind)
  | executeRun =>
      rw [controlTurn, executeRun]
      split
      · exact .ends rfl
      · next claims => exact .executed (by grind)
  | submitDrive resumed =>
      rw [controlTurn, submitDrive]
      split
      · exact .submitted resumed
      · cases resumed with
        | true => exact .withdrawn
        | false => exact .dropped
  | restorePause => exact .restored
  | release => exact .released
  | pauseRun =>
      rw [controlTurn, pauseRun]
      split
      · exact .goes rfl rfl
      · exact .ends rfl
  | pausePoll =>
      rw [controlTurn, pausePoll]
      split
      · exact .ends rfl
      · split
        · exact .goes rfl rfl
        · split
          · exact .ends rfl
          · exact .goes rfl rfl
  | pauseCommit => exact .paused
  | cancelRun =>
      rw [controlTurn, cancelRun]
      split
      · exact .ends rfl
      · exact .goes rfl rfl
  | cancelPoll =>
      rw [controlTurn, cancelPoll]
      split
      · exact .ends rfl
      · split <;> exact .goes rfl rfl
  | resumeRun =>
      rw [controlTurn, resumeRun]
      split
      · exact .goes rfl rfl
      · exact .ends rfl
  | converge =>
      rw [controlTurn, converge]
      split
      · exact .goes rfl rfl
      · split
        · exact .ends rfl
        · exact .goes rfl rfl
  | capacity =>
      rw [controlTurn, capacity]
      split
      · exact .ends rfl
      · exact .goes rfl rfl
  | reobserve =>
      rw [controlTurn, reobserveRun]
      split
      · exact .ends rfl
      · split
        · exact .reobserved
        · exact .goes rfl rfl
        · exact .ends rfl
  | activate =>
      rw [controlTurn, activate]
      split
      · exact .unmoved
      · next moved done => exact .activated done
  | resolveInterrupted =>
      rw [controlTurn, resolveInterrupted]
      split
      · exact .cleared
      · next step found =>
          split
          · exact .skipped
          · split
            · exact .cleared
            · next harmful =>
                have calls : step.kind = .toolCall := by
                  simp only [not_or, not_not] at harmful
                  exact harmful.2.1
                exact .judged found calls
  | judgeInterrupted index =>
      rw [controlTurn, judgeInterrupted]
      split
      · next missing => exact .undefined missing
      · split
        · exact .recovered index .completed _
        · split
          · exact .recovered index .fellBack _
          · exact .uncertain index
  | launch => exact .launched
  | resolveDecision decision digest resolution =>
      simp only [controlTurn, resolveDecision]
      split
      · exact .ends rfl
      · cases resolution with
        | accept => exact .goes rfl rfl
        | reject => exact .goes rfl rfl
        | cancelRun => exact .notes rfl rfl rfl rfl
  | reject decision =>
      rw [controlTurn, rejectDecision]
      split <;> exact .notes rfl rfl rfl rfl
  | rejectRun =>
      rw [controlTurn, rejectRun]
      split
      · exact .ends rfl
      · next moved done => exact .rejected done
  | accept decision =>
      rw [controlTurn, acceptDecision]
      split
      · exact .notes rfl rfl rfl rfl
      · exact .goes rfl rfl
  | rollbackRunPatch patchId fresh =>
      rw [controlTurn, rollbackTurn]
      split
      · exact .ends rfl
      · dsimp only
        split
        · exact .ends rfl
        · exact .goes rfl rfl
  | userInput decision =>
      rw [controlTurn, userInput]
      split
      · exact .goes rfl rfl
      · exact .ends rfl
  | otherRun => exact .otherStarted
  | otherDrive => exact .otherEnded
  | shutdown => exact .shutDown
  | shutdownCheck =>
      rw [controlTurn, shutdownCheck]
      split
      · exact .goes rfl rfl
      · exact .ends rfl

/-- What the check of a submission can do. -/
inductive SubmitTurned (setup : Setup) (shared : Shared) (patch : PendingPatch)
    (submitter : Submitter) : Shared × List Point → Prop
  | refused : SubmitTurned setup shared patch submitter (shared, submitter.refused)
  | replayed : SubmitTurned setup shared patch submitter (submitter.patched shared)
  | applies (fresh : heldDigest shared.run patch.patchId = none)
      (admitted : patch.confirmed = true ∨ admitsPatches shared.run = true)
      (aside : shared.run.view.state ≠ .running) :
      SubmitTurned setup shared patch submitter (shared, [.snapshot patch submitter])
  | queues (fresh : heldDigest shared.run patch.patchId = none)
      (admitted : patch.confirmed = true ∨ admitsPatches shared.run = true)
      (active : shared.run.view.state = .running)
      (room : shared.run.pending.length < setup.config.maxPendingPatchesPerRun) :
      SubmitTurned setup shared patch submitter (shared, [.enqueue patch submitter])

theorem submitTurn_cases (patch : PendingPatch) (submitter : Submitter) :
    SubmitTurned setup shared patch submitter (submitTurn setup shared patch submitter) := by
  rw [submitTurn]
  split
  · exact .refused
  · split
    · exact .refused
    · split
      · split
        · exact .replayed
        · exact .refused
      · next fresh =>
          split
          · exact .refused
          · split
            · exact .refused
            · next admitted =>
                have allowed : patch.confirmed = true ∨ admitsPatches shared.run = true := by
                  grind
                split
                · next aside => exact .applies fresh allowed aside
                · next active =>
                    split
                    · exact .refused
                    · next room =>
                        exact .queues fresh allowed (not_not.mp active) (by omega)

end Mira.Workflow
