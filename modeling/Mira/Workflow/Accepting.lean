import Mira.Workflow.Waiting

/-!
A decision that is accepted, and accepted again. An accepting call writes the proposal under an
id of its own, tells that the decision is resolved, and only then tries to continue the run. When
it cannot, the run still waits for the decision, and the next call writes the proposal anew.
-/

namespace Mira.Workflow
open Mira Bytes

/-- What an accepting call finds: the drive flag when its wait for the prior drive is over, the
number of asynchronous drives, the id that is drawn for its patch, and the answers to its
continuation. -/
structure AcceptCall where
  driveActive : Bool := false
  asyncDrives : Nat := 0
  drawn : Id128 := .nil
  obeyed : Bool := true
  observation : ObservationOutcome := .fresh
  verdict : WorkflowPredicateResult := .satisfied
  accepted : Bool := true

def AcceptCall.answer (call : AcceptCall) : Answer :=
  { drawn := call.drawn
    obeyed := call.obeyed
    observation := call.observation
    verdict := call.verdict
    accepted := call.accepted
    expired := true }

/-- The run with the drives as the other threads have left them. -/
def Shared.meanwhile (shared : Shared) (call : AcceptCall) : Shared :=
  { shared with
    run := { shared.run with driveActive := call.driveActive }
    asyncDrives := call.asyncDrives }

def Point.drives : Point → Bool
  | .drive _ _ => true
  | _ => false

/-- The turns of one call, up to its return or to the drive that it has launched. -/
def callTurns (setup : Setup) (answer : Answer) : Nat → Shared × List Point → Shared × List Point
  | fuel + 1, (shared, [point]) =>
      if point.drives then (shared, [point])
      else callTurns setup answer fuel (advance setup shared point answer)
  | _, result => result

/-- `resolve_decision` with `Accept`. No call takes more turns. -/
def acceptCall (setup : Setup) (request : WorkflowDecisionRequest) (shared : Shared)
    (call : AcceptCall) : Shared × List Point :=
  callTurns setup call.answer 16 (shared.meanwhile call,
    [.control (.resolveDecision request.decisionId request.payloadDigest .accept)])

def acceptCalls (setup : Setup) (request : WorkflowDecisionRequest) (shared : Shared)
    (calls : List AcceptCall) : Shared :=
  calls.foldl (fun shared call => (acceptCall setup request shared call).1) shared

/-- The run waits for the decision. -/
structure WaitsFor (shared : Shared) (request : WorkflowDecisionRequest) : Prop where
  state : shared.run.view.state = .waitingUser
  pending : shared.run.view.pendingDecision = some (pendingOf request)
  decision : shared.run.decision = some request

def IsPending (shared : Shared) (request : WorkflowDecisionRequest) : Prop :=
  shared.run.view.state = .waitingUser ∧
    shared.run.view.pendingDecision = some (pendingOf request)

/-- The writing of a proposal. -/
def RunEvent.confirms : RunEvent → Bool
  | .committed _ true _ => true
  | _ => false

/-- The proposal was written once at most and the decision told to be resolved once at most;
while it is pending the proposal is not written, and once it is not it was told. -/
structure AcceptedOnce (request : WorkflowDecisionRequest) (before after : Shared) : Prop where
  written : after.journal.countP RunEvent.confirms ≤ before.journal.countP RunEvent.confirms + 1
  told : after.journal.count (.decisionResolved request.decisionId) ≤
    before.journal.count (.decisionResolved request.decisionId) + 1
  pending : IsPending after request →
    after.journal.countP RunEvent.confirms = before.journal.countP RunEvent.confirms
  resolved : ¬ IsPending after request →
    after.journal.count (.decisionResolved request.decisionId) =
      before.journal.count (.decisionResolved request.decisionId) + 1

def acceptedPatch (request : WorkflowDecisionRequest) (call : AcceptCall) : PendingPatch :=
  pendingPatch (.generate call.drawn) request.proposal true

def writesProposal (setup : Setup) (shared : Shared) (request : WorkflowDecisionRequest)
    (call : AcceptCall) : Bool :=
  (checkEntries request.proposal).isOk &&
    (heldDigest shared.run (acceptedPatch request call).patchId).isNone &&
    (patchedState setup.host setup.definition shared.run.effective request.proposal).isOk &&
    shared.run.applied.length < setup.config.maxAppliedPatchesPerRun

/-- The acceptance is taken: there is nothing to write, or it was written under the same id, or
it is written now. -/
def takesAccept (setup : Setup) (shared : Shared) (request : WorkflowDecisionRequest)
    (call : AcceptCall) : Bool :=
  shared.accepting &&
    (request.proposal.isEmpty ||
      (checkEntries request.proposal).isOk &&
        heldDigest shared.run (acceptedPatch request call).patchId =
          some (acceptedPatch request call).digest ||
      writesProposal setup shared request call)

/-- The prior drive has converged, there is room for another, and the task resumes and is
observed. -/
def continuesRun (setup : Setup) (call : AcceptCall) : Bool :=
  !call.driveActive && call.asyncDrives < setup.config.maxConcurrentAsyncDrives &&
    call.obeyed && call.observation = .fresh

/-- The first call that is taken continues the run, or it writes nothing and is the only one. -/
def ContinuesFirst (setup : Setup) (shared : Shared) (request : WorkflowDecisionRequest)
    (calls : List AcceptCall) : Prop :=
  match calls.filter (takesAccept setup shared request) with
  | [] => True
  | first :: later =>
      continuesRun setup first = true ∨
        writesProposal setup shared request first = false ∧ later = []

section
variable {setup : Setup} {shared : Shared} {request : WorkflowDecisionRequest} {call : AcceptCall}
variable {answer : Answer} {fuel : Nat} {point : Point}

theorem callTurns_nil (fuel : Nat) (shared : Shared) :
    callTurns setup answer fuel (shared, []) = (shared, []) := by
  cases fuel <;> rfl

theorem callTurns_step (calls : point.drives = false) :
    callTurns setup answer (fuel + 1) (shared, [point]) =
      callTurns setup answer fuel (advance setup shared point answer) := by
  rw [callTurns, if_neg (by simp [calls])]

theorem resolveDecision_accepts (waits : WaitsFor shared request)
    (accepts : shared.accepting = true) :
    advance setup shared
        (.control (.resolveDecision request.decisionId request.payloadDigest .accept)) answer =
      (shared, [.control (.accept request.decisionId)]) := by
  have checked : checkDecision shared request.decisionId request.payloadDigest = .ok () :=
    checkDecision_pending waits.state accepts waits.pending
  simp only [advance, controlTurn, resolveDecision, checked]

theorem resolveDecision_refuses {resolution : WorkflowDecisionResolution}
    (refused : shared.accepting = false ∨ ¬ IsPending shared request) :
    advance setup shared
        (.control (.resolveDecision request.decisionId request.payloadDigest resolution)) answer =
      (shared, []) := by
  have checked : checkDecision shared request.decisionId request.payloadDigest ≠ .ok () := by
    intro checked
    rw [checkDecision] at checked
    split at checked
    · cases checked
    · next accepts =>
        split at checked
        · cases checked
        · next pending present =>
            split at checked
            · cases checked
            · next waits =>
                split at checked
                · cases checked
                · next same =>
                    cases refused with
                    | inl closed => exact accepts closed
                    | inr elsewhere =>
                        refine elsewhere ⟨not_not.1 waits, ?_⟩
                        rw [present]
                        obtain ⟨first, second⟩ := not_or.1 same
                        exact congrArg some
                          (by cases pending; simp_all [pendingOf])
  simp only [advance, controlTurn, resolveDecision]
  split
  · rfl
  · next fine => exact absurd fine checked

theorem accept_empty (waits : WaitsFor shared request) (empty : request.proposal = []) :
    advance setup shared (.control (.accept request.decisionId)) answer =
      (shared.note (.decisionResolved request.decisionId), [.control .converge]) := by
  simp only [advance, controlTurn, acceptDecision, waits.decision, Option.map_some,
    Option.getD_some, empty, List.isEmpty_nil, if_true]

theorem accept_submits (waits : WaitsFor shared request) (some_ : request.proposal ≠ []) :
    advance setup shared (.control (.accept request.decisionId)) call.answer =
      (shared, [.submit (acceptedPatch request call) (.decided request.decisionId)]) := by
  simp only [advance, controlTurn, acceptDecision, waits.decision, Option.map_some,
    Option.getD_some, List.isEmpty_iff, some_, if_false]
  rfl

variable (patch : PendingPatch) {decision : WorkflowDecisionId}

theorem submit_refused {error : WorkflowError} (invalid : checkEntries patch.entries = .error error) :
    advance setup shared (.submit patch (.decided decision)) answer = (shared, []) := by
  simp only [advance, submitTurn, invalid]
  rfl

theorem submit_held {digest : Sha256Digest} (accepts : shared.accepting = true)
    (valid : checkEntries patch.entries = .ok ())
    (held : heldDigest shared.run patch.patchId = some digest) :
    advance setup shared (.submit patch (.decided decision)) answer =
      if digest = patch.digest then
        (shared.note (.decisionResolved decision), [.control .converge])
      else (shared, []) := by
  simp only [advance, submitTurn, valid, accepts, held]
  rfl

theorem submit_fresh (accepts : shared.accepting = true)
    (waits : shared.run.view.state = .waitingUser) (valid : checkEntries patch.entries = .ok ())
    (confirmed : patch.confirmed = true) (fresh : heldDigest shared.run patch.patchId = none) :
    advance setup shared (.submit patch (.decided decision)) answer =
      (shared, [.snapshot patch (.decided decision)]) := by
  simp [advance, submitTurn, valid, accepts, fresh, confirmed, waits, WorkflowRunState.isTerminal]

theorem snapshot_rejected {error : PatchRejection} (waits : shared.run.view.state = .waitingUser)
    (rejected : patchedState setup.host setup.definition shared.run.effective patch.entries =
      .error error) :
    advance setup shared (.snapshot patch (.decided decision)) answer = (shared, []) := by
  simp only [advance, snapshotTurn, waits, rejected]
  rfl

theorem snapshot_validated {patched : EffectiveState} (waits : shared.run.view.state = .waitingUser)
    (validated : patchedState setup.host setup.definition shared.run.effective patch.entries =
      .ok patched) :
    advance setup shared (.snapshot patch (.decided decision)) answer =
      (shared, [.commit patch patched (.decided decision)]) := by
  simp only [advance, snapshotTurn, waits, validated]
  rfl

theorem commit_decided (patched : EffectiveState) :
    advance setup shared (.commit patch patched (.decided decision)) answer =
      if setup.config.maxAppliedPatchesPerRun ≤ shared.run.applied.length then (shared, [])
      else ((shared.commitPatch patch patched).note (.decisionResolved decision),
        [.control .converge]) := by
  simp only [advance, commitTurn]
  rfl

/-- What a call does up to its continuation. -/
inductive AcceptTaken (setup : Setup) (shared : Shared) (request : WorkflowDecisionRequest)
    (call : AcceptCall) (result : Shared × List Point) : Prop
  | refused (untaken : takesAccept setup shared request call = false)
      (same : result = (shared, []))
  | told (fuel : Nat) (enough : 2 ≤ fuel) (taken : takesAccept setup shared request call = true)
      (unwritten : writesProposal setup shared request call = false)
      (goes : result = callTurns setup call.answer (fuel + 8)
        (shared.note (.decisionResolved request.decisionId), [.control .converge]))
  | written (fuel : Nat) (enough : 2 ≤ fuel) (patched : EffectiveState)
      (taken : takesAccept setup shared request call = true)
      (writes : writesProposal setup shared request call = true)
      (goes : result = callTurns setup call.answer (fuel + 8)
        ((shared.commitPatch (acceptedPatch request call) patched).note
          (.decisionResolved request.decisionId), [.control .converge]))

theorem accept_taken (waits : WaitsFor shared request) :
    AcceptTaken setup shared request call
      (callTurns setup call.answer 16 (shared,
        [.control (.resolveDecision request.decisionId request.payloadDigest .accept)])) := by
  rw [callTurns_step rfl]
  cases accepts : shared.accepting with
  | false =>
      rw [resolveDecision_refuses (.inl accepts), callTurns_nil]
      exact .refused (by simp [takesAccept, accepts]) rfl
  | true =>
      rw [resolveDecision_accepts waits accepts, callTurns_step rfl]
      by_cases empty : request.proposal = []
      · rw [accept_empty waits empty]
        exact .told 6 (by decide) (by simp [takesAccept, accepts, empty])
          (by simp [writesProposal, empty, checkEntries, Except.isOk, Except.toBool]) rfl
      · rw [accept_submits waits empty, callTurns_step rfl]
        have entries : (acceptedPatch request call).entries = request.proposal := rfl
        cases valid : checkEntries request.proposal with
        | error error =>
            rw [submit_refused _ (by rw [entries, valid]), callTurns_nil]
            exact .refused (by simp [takesAccept, writesProposal, empty, valid, Except.isOk,
              Except.toBool]) rfl
        | ok fine =>
            have named : checkEntries (acceptedPatch request call).entries = .ok () := valid
            cases held : heldDigest shared.run (acceptedPatch request call).patchId with
            | some digest =>
                rw [submit_held _ accepts named held]
                split
                · next same =>
                    exact .told 5 (by decide) (by simp [takesAccept, accepts, valid, held, same, Except.isOk,
                      Except.toBool]) (by simp [writesProposal, held]) rfl
                · next other =>
                    rw [callTurns_nil]
                    exact .refused (by simp [takesAccept, writesProposal, empty, held, other]) rfl
            | none =>
                rw [submit_fresh _ accepts waits.state named rfl held, callTurns_step rfl]
                cases patched : patchedState setup.host setup.definition shared.run.effective
                    request.proposal with
                | error error =>
                    rw [snapshot_rejected _ waits.state patched, callTurns_nil]
                    exact .refused (by simp [takesAccept, writesProposal, empty, held, patched,
                      Except.isOk, Except.toBool]) rfl
                | ok after =>
                    rw [snapshot_validated _ waits.state patched, callTurns_step rfl,
                      commit_decided]
                    split
                    · next full =>
                        rw [callTurns_nil]
                        exact .refused (by simp [takesAccept, writesProposal, empty, held, full]) rfl
                    · next room =>
                        have writes : writesProposal setup shared request call = true := by
                          simp [writesProposal, valid, held, patched, Except.isOk, Except.toBool]
                          omega
                        exact .written 3 (by decide) after (by simp [takesAccept, accepts, writes]) writes rfl

theorem converge_stops (waits : shared.run.view.state = .waitingUser)
    (active : shared.run.driveActive = call.driveActive)
    (drives : shared.asyncDrives = call.asyncDrives)
    (stops : continuesRun setup call = false) :
    callTurns setup call.answer (fuel + 8) (shared, [.control .converge]) = (shared, []) := by
  rw [callTurns_step rfl, advance, controlTurn, converge, active]
  cases converged : call.driveActive with
  | true => exact callTurns_nil _ _
  | false =>
      rw [if_pos rfl, callTurns_step rfl, advance, controlTurn, capacity, drives]
      split
      · exact callTurns_nil _ _
      · next room =>
          rw [callTurns_step rfl, advance, controlTurn, reobserveRun]
          split
          · exact callTurns_nil _ _
          · next obeyed =>
              cases seen : call.observation with
              | fresh =>
                  have goes : call.obeyed = true := by simpa [AcceptCall.answer] using obeyed
                  simp [continuesRun, converged, seen, goes] at stops
                  omega
              | refused =>
                  simp only [AcceptCall.answer, seen]
                  exact callTurns_nil _ _
              | failed =>
                  have settled : shared.tryTransition .failed = shared := by
                    simp [Shared.tryTransition, Shared.transition, applyWorkflowRunTransition,
                      waits, WorkflowRunState.isTerminal, validWorkflowRunTransition]
                  simp only [AcceptCall.answer, seen]
                  rw [callTurns_step rfl, advance, settleTurn, Settlement.state, settled]
                  exact callTurns_nil _ _

theorem converge_goes (active : shared.run.driveActive = call.driveActive)
    (drives : shared.asyncDrives = call.asyncDrives)
    (goes : continuesRun setup call = true) :
    callTurns setup call.answer (fuel + 8) (shared, [.control .converge]) =
      callTurns setup call.answer (fuel + 4)
        (activate (shared.note .observed)) := by
  simp only [continuesRun, Bool.and_eq_true, Bool.not_eq_true', decide_eq_true_eq] at goes
  obtain ⟨⟨⟨converged, room⟩, obeyed⟩, seen⟩ := goes
  rw [callTurns_step rfl, advance, controlTurn, converge, active, converged, if_pos rfl,
    callTurns_step rfl, advance, controlTurn, capacity, drives, if_neg (by omega),
    callTurns_step rfl, advance, controlTurn, reobserveRun]
  simp only [AcceptCall.answer, obeyed, seen]
  rw [if_neg (by decide), callTurns_step rfl]
  rfl

/-- The turns that a continuation has left once the run is active. -/
def Point.turnsLeft : Point → Option Nat
  | .control .resolveInterrupted => some 6
  | .control (.judgeInterrupted _) => some 5
  | .control .launch => some 4
  | .control (.submitDrive _) => some 3
  | .control .restorePause => some 2
  | .control .release | .settle .failed .continuation => some 1
  | _ => none

/-- The run is not back to waiting, and nothing was written or told. -/
structure Resumes (request : WorkflowDecisionRequest) (before after : Shared) : Prop where
  state : after.run.view.state ≠ .waitingUser
  written : after.journal.countP RunEvent.confirms = before.journal.countP RunEvent.confirms
  told : after.journal.count (.decisionResolved request.decisionId) =
    before.journal.count (.decisionResolved request.decisionId)

variable {after : Shared}

theorem resumes_same (state : after.run.view.state ≠ .waitingUser)
    (journal : after.journal = shared.journal) : Resumes request shared after :=
  ⟨state, by rw [journal], by rw [journal]⟩

theorem tryTransition_resumes {target : WorkflowRunState}
    (elsewhere : shared.run.view.state ≠ .waitingUser) (apart : target ≠ .waitingUser) :
    Resumes request shared (shared.tryTransition target) := by
  cases tryTransition_cases shared target with
  | inl same =>
      rw [same]
      exact resumes_same elsewhere rfl
  | inr done =>
      have view := congrArg DecisionView.state (transition_view done)
      obtain ⟨_, _, moved⟩ := transition_ok done
      refine resumes_same ?_ (by rw [moved])
      intro waits
      have same : (shared.tryTransition target).run.view.state = target := by
        refine view.trans ?_
        rw [DecisionView.moved]
        split <;> rfl
      exact apart (same.symm.trans waits)

theorem Resumes.trans {middle : Shared} (first : Resumes request shared middle)
    (second : Resumes request middle after) : Resumes request shared after :=
  ⟨second.state, second.written.trans first.written, second.told.trans first.told⟩

/-- Where a continuation goes on. -/
def GoesOn (left : Nat) (threads : List Point) : Prop :=
  ∀ thread ∈ threads, threads = [thread] ∧
    (thread.drives = true ∨ ∃ less, less < left ∧ thread.turnsLeft = some less)

theorem goesOn_nil (left : Nat) : GoesOn left [] := fun _ among => absurd among List.not_mem_nil

theorem goesOn_drive (left : Nat) (driver : Drive) (at_ : DrivePoint) :
    GoesOn left (driver.at at_) := by
  intro thread among
  cases List.mem_singleton.1 among
  exact ⟨rfl, .inl rfl⟩

variable {left : Nat}

theorem goesOn_single {less : Nat} (has : point.turnsLeft = some less) (fewer : less < left) :
    GoesOn left [point] := by
  intro thread among
  cases List.mem_singleton.1 among
  exact ⟨rfl, .inr ⟨less, fewer, has⟩⟩

theorem controlTurn_resumes {control : ControlPoint}
    (has : (Point.control control).turnsLeft = some left)
    (elsewhere : shared.run.view.state ≠ .waitingUser) :
    Resumes request shared (controlTurn setup shared answer control).1 ∧
      GoesOn left (controlTurn setup shared answer control).2 := by
  generalize turn : controlTurn setup shared answer control = result
  cases turn ▸ controlTurn_cases setup shared answer control with
  | quiet events next plain inert nexts =>
      cases control <;> first | exact absurd plain Bool.false_ne_true | cases has
  | submitted resumed =>
      cases has
      exact ⟨resumes_same elsewhere rfl, goesOn_drive _ _ _⟩
  | withdrawn | dropped =>
      cases has
      exact ⟨resumes_same elsewhere rfl, goesOn_single rfl (by decide)⟩
  | restored =>
      cases has
      exact ⟨tryTransition_resumes elsewhere (by decide), goesOn_single rfl (by decide)⟩
  | released => exact ⟨resumes_same elsewhere rfl, goesOn_nil _⟩
  | cleared | skipped | judged found calls =>
      cases has
      exact ⟨⟨elsewhere, rfl, by simp [Shared.clearInterrupted, Shared.leaveInterrupted,
        Shared.moveTo]⟩, goesOn_single rfl (by decide)⟩
  | undefined missing => exact ⟨resumes_same elsewhere rfl, goesOn_nil _⟩
  | recovered index verdict target =>
      cases has
      exact ⟨⟨elsewhere, rfl, by simp [Shared.note, Shared.leaveInterrupted, Shared.moveTo]⟩,
        goesOn_single rfl (by decide)⟩
  | uncertain index =>
      cases has
      exact ⟨⟨elsewhere, rfl, by simp [Shared.note, Shared.clearInterrupted]⟩,
        goesOn_single rfl (by decide)⟩
  | launched =>
      cases has
      exact ⟨resumes_same elsewhere rfl, goesOn_single rfl (by decide)⟩
  | _ => cases has

theorem advance_resumes (has : point.turnsLeft = some left)
    (elsewhere : shared.run.view.state ≠ .waitingUser) :
    Resumes request shared (advance setup shared point answer).1 ∧
      GoesOn left (advance setup shared point answer).2 := by
  cases point with
  | control control => exact controlTurn_resumes has elsewhere
  | settle target back =>
      cases target <;> cases back <;> try cases has
      exact ⟨tryTransition_resumes elsewhere (by decide), goesOn_nil _⟩
  | _ => cases has

theorem callTurns_resumes {threads : List Point} (enough : left ≤ fuel + 1)
    (goes : GoesOn left threads) (elsewhere : shared.run.view.state ≠ .waitingUser) :
    Resumes request shared (callTurns setup answer fuel (shared, threads)).1 ∧
      ∀ thread ∈ (callTurns setup answer fuel (shared, threads)).2, thread.drives = true := by
  induction fuel generalizing shared threads left with
  | zero =>
      refine ⟨resumes_same elsewhere rfl, fun thread among => ?_⟩
      obtain ⟨_, drives | ⟨less, fewer, has⟩⟩ := goes thread among
      · exact drives
      · have none : less = 0 := by omega
        rw [none] at has
        cases thread with
        | control control => cases control <;> cases has
        | settle target back => cases target <;> cases back <;> cases has
        | _ => cases has
  | succ fuel ih =>
      cases threads with
      | nil =>
          rw [callTurns_nil]
          exact ⟨resumes_same elsewhere rfl, fun _ among => absurd among List.not_mem_nil⟩
      | cons thread rest =>
          obtain ⟨alone, way⟩ := goes thread List.mem_cons_self
          rw [alone]
          cases drives : thread.drives with
          | true =>
              rw [callTurns, if_pos drives]
              refine ⟨resumes_same elsewhere rfl, fun other among => ?_⟩
              cases List.mem_singleton.1 among
              exact drives
          | false =>
              obtain ⟨less, fewer, has⟩ :=
                way.resolve_left (by rw [drives]; exact Bool.false_ne_true)
              rw [callTurns_step drives]
              have turned : Resumes request shared (advance setup shared thread answer).1 ∧
                  GoesOn less (advance setup shared thread answer).2 :=
                advance_resumes has elsewhere
              obtain ⟨first, next⟩ := turned
              obtain ⟨later, returned⟩ := ih (by omega) next first.state
              exact ⟨first.trans later, returned⟩

end

/-- The proposal has been written so many times, and the decision told to be resolved so many. -/
structure Counted (request : WorkflowDecisionRequest) (before after : Shared)
    (written told : Nat) : Prop where
  written : after.journal.countP RunEvent.confirms =
    before.journal.countP RunEvent.confirms + written
  told : after.journal.count (.decisionResolved request.decisionId) =
    before.journal.count (.decisionResolved request.decisionId) + told

/-- The run with another drive flag. -/
def Beside (shared after : Shared) : Prop :=
  after.accepting = shared.accepting ∧
    ∃ active, after.run = { shared.run with driveActive := active }

/-- What a call on a waiting run does. -/
inductive Accepts (setup : Setup) (shared : Shared) (request : WorkflowDecisionRequest)
    (call : AcceptCall) (after : Shared) : Prop
  | refused (untaken : takesAccept setup shared request call = false)
      (beside : Beside shared after) (counted : Counted request shared after 0 0)
  | told (taken : takesAccept setup shared request call = true)
      (unwritten : writesProposal setup shared request call = false)
      (stops : continuesRun setup call = false)
      (beside : Beside shared after) (counted : Counted request shared after 0 1)
  | written (taken : takesAccept setup shared request call = true)
      (writes : writesProposal setup shared request call = true)
      (stops : continuesRun setup call = false)
      (pending : IsPending after request) (counted : Counted request shared after 1 1)
  | resolved (times : Nat) (once : times ≤ 1)
      (taken : takesAccept setup shared request call = true)
      (goes : continuesRun setup call = true)
      (elsewhere : ¬ IsPending after request) (counted : Counted request shared after times 1)

section
variable {setup : Setup} {shared at_ after : Shared} {request : WorkflowDecisionRequest}
variable {call : AcceptCall} {written told : Nat}

theorem activate_resumes (waits : shared.run.view.state = .waitingUser) :
    Resumes request shared (activate shared).1 ∧ GoesOn 7 (activate shared).2 := by
  have moved : ∃ moved, shared.transition .running = .ok moved := by
    simp [Shared.transition, applyWorkflowRunTransition, waits, WorkflowRunState.isTerminal,
      validWorkflowRunTransition]
  obtain ⟨moved, done⟩ := moved
  have view := congrArg DecisionView.state (transition_view done)
  have state : moved.run.view.state = .running := by
    refine view.trans ?_
    rw [DecisionView.moved]
    split <;> rfl
  obtain ⟨_, _, same⟩ := transition_ok done
  have journal : moved.journal = shared.journal := by rw [same]
  rw [activate, done]
  refine ⟨⟨?_, ?_, ?_⟩, ?_⟩
  · change moved.run.view.state ≠ .waitingUser
    rw [state]
    decide
  · simp [Shared.note, journal, RunEvent.confirms]
  · simp [Shared.note, journal]
  · dsimp only
    split
    · exact goesOn_single rfl (by decide)
    · exact goesOn_single rfl (by decide)

theorem converge_cases {fuel : Nat} (pending : IsPending at_ request)
    (active : at_.run.driveActive = call.driveActive)
    (drives : at_.asyncDrives = call.asyncDrives) (enough : 2 ≤ fuel)
    (counted : Counted request shared at_ written told) :
    (continuesRun setup call = false ∧
        callTurns setup call.answer (fuel + 8) (at_, [.control .converge]) = (at_, [])) ∨
      (continuesRun setup call = true ∧
        ¬ IsPending (callTurns setup call.answer (fuel + 8) (at_, [.control .converge])).1 request ∧
        Counted request shared
          (callTurns setup call.answer (fuel + 8) (at_, [.control .converge])).1 written told ∧
        ∀ thread ∈ (callTurns setup call.answer (fuel + 8) (at_, [.control .converge])).2,
          thread.drives = true) := by
  cases goes : continuesRun setup call with
  | false => exact .inl ⟨rfl, converge_stops pending.1 active drives goes⟩
  | true =>
      right
      rw [converge_goes active drives goes]
      have activated : Resumes request (at_.note .observed) (activate (at_.note .observed)).1 ∧
          GoesOn 7 (activate (at_.note .observed)).2 := activate_resumes pending.1
      obtain ⟨first, next⟩ := activated
      have later : Resumes request (activate (at_.note .observed)).1
          (callTurns setup call.answer (fuel + 4) (activate (at_.note .observed))).1 ∧
          ∀ thread ∈ (callTurns setup call.answer (fuel + 4) (activate (at_.note .observed))).2,
            thread.drives = true :=
        callTurns_resumes (by omega) next first.state
      have whole := first.trans later.1
      refine ⟨rfl, fun waits => whole.state waits.1, ⟨?_, ?_⟩, later.2⟩
      · rw [whole.written, ← counted.written]
        simp [Shared.note, RunEvent.confirms]
      · rw [whole.told, ← counted.told]
        simp [Shared.note]

theorem WaitsFor.beside (waits : WaitsFor shared request) (beside : Beside shared after) :
    WaitsFor after request := by
  obtain ⟨_, active, run⟩ := beside
  refine ⟨?_, ?_, ?_⟩ <;> rw [run]
  · exact waits.state
  · exact waits.pending
  · exact waits.decision

theorem WaitsFor.isPending (waits : WaitsFor shared request) : IsPending shared request :=
  ⟨waits.state, waits.pending⟩

theorem beside_meanwhile (shared : Shared) (call : AcceptCall) :
    Beside shared (shared.meanwhile call) := ⟨rfl, call.driveActive, rfl⟩

theorem takesAccept_beside (beside : Beside shared after) (call : AcceptCall) :
    takesAccept setup after request call = takesAccept setup shared request call ∧
      writesProposal setup after request call = writesProposal setup shared request call := by
  obtain ⟨accepting, active, run⟩ := beside
  refine ⟨?_, ?_⟩
  · simp only [takesAccept, writesProposal, accepting, run]
    rfl
  · simp only [writesProposal, run]
    rfl

/-- A call on a waiting run is refused, stops after it was taken, or resolves the decision; and
it returns. -/
theorem acceptCall_cases (waits : WaitsFor shared request) :
    Accepts setup shared request call (acceptCall setup request shared call).1 ∧
      ∀ thread ∈ (acceptCall setup request shared call).2, thread.drives = true := by
  have beside := beside_meanwhile shared call
  have kept : takesAccept setup (shared.meanwhile call) request call =
        takesAccept setup shared request call ∧
      writesProposal setup (shared.meanwhile call) request call =
        writesProposal setup shared request call := takesAccept_beside beside call
  obtain ⟨takes, writes⟩ := kept
  have ready := waits.beside beside
  rw [acceptCall]
  generalize turned : callTurns setup call.answer 16 (shared.meanwhile call,
    [.control (.resolveDecision request.decisionId request.payloadDigest .accept)]) = result
  cases turned ▸ accept_taken ready with
  | refused untaken same =>
      rw [same]
      exact ⟨.refused (takes ▸ untaken) beside ⟨rfl, rfl⟩,
        fun _ among => absurd among List.not_mem_nil⟩
  | told fuel enough taken unwritten goes =>
      have counted : Counted request shared
          ((shared.meanwhile call).note (.decisionResolved request.decisionId)) 0 1 :=
        ⟨rfl, by simp [Shared.note, Shared.meanwhile]⟩
      have pending : IsPending
          ((shared.meanwhile call).note (.decisionResolved request.decisionId)) request :=
        ready.isPending
      rw [goes]
      cases converge_cases pending rfl rfl enough counted with
      | inl stopped =>
          rw [stopped.2]
          exact ⟨.told (takes ▸ taken) (writes ▸ unwritten) stopped.1
            ⟨rfl, call.driveActive, rfl⟩ counted, fun _ among => absurd among List.not_mem_nil⟩
      | inr went =>
          obtain ⟨through, elsewhere, counts, returned⟩ := went
          exact ⟨.resolved 0 (Nat.zero_le 1) (takes ▸ taken) through elsewhere counts, returned⟩
  | written fuel enough patched taken written goes =>
      have counted : Counted request shared
          (((shared.meanwhile call).commitPatch (acceptedPatch request call) patched).note
            (.decisionResolved request.decisionId)) 1 1 :=
        ⟨(List.countP_cons_of_neg Bool.false_ne_true).trans (List.countP_cons_of_pos rfl),
          by simp [Shared.note, Shared.commitPatch, Shared.meanwhile]⟩
      have pending : IsPending
          (((shared.meanwhile call).commitPatch (acceptedPatch request call) patched).note
            (.decisionResolved request.decisionId)) request := ready.isPending
      rw [goes]
      cases converge_cases pending rfl rfl enough counted with
      | inl stopped =>
          rw [stopped.2]
          exact ⟨.written (takes ▸ taken) (writes ▸ written) stopped.1 pending counted,
            fun _ among => absurd among List.not_mem_nil⟩
      | inr went =>
          obtain ⟨through, elsewhere, counts, returned⟩ := went
          exact ⟨.resolved 1 (Nat.le_refl 1) (takes ▸ taken) through elsewhere counts, returned⟩

theorem acceptCall_elsewhere (elsewhere : ¬ IsPending shared request) :
    acceptCall setup request shared call = (shared.meanwhile call, []) := by
  have away : ¬ IsPending (shared.meanwhile call) request := elsewhere
  rw [acceptCall, callTurns_step rfl, resolveDecision_refuses (.inr away), callTurns_nil]

end

end Mira.Workflow
