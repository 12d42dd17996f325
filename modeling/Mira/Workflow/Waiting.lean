import Mira.Workflow.SingleDrive

/-!
The decision that a waiting run is answered with. An escalation stages its decision in one
section, enters `WaitingUser` in the next and erases the decision when that is refused. As long
as escalations do not overlap, a run that waits for the user has the decision it waits for, and
a decision that is there before the run waits belongs to an escalation on its way.
-/

namespace Mira.Workflow
open Mira Bytes

/-- What the answer to a decision depends on. -/
structure DecisionView where
  state : WorkflowRunState
  pending : Option WorkflowPendingDecision
  decision : Option WorkflowDecisionRequest

def Shared.decisionView (shared : Shared) : DecisionView :=
  ⟨shared.run.view.state, shared.run.view.pendingDecision, shared.run.decision⟩

def pendingOf (decision : WorkflowDecisionRequest) : WorkflowPendingDecision :=
  ⟨decision.decisionId, decision.payloadDigest⟩

/-- The two records of a decision agree. -/
def DecisionView.Agrees (view : DecisionView) : Prop :=
  ∃ decision, view.decision = some decision ∧ view.pending = some (pendingOf decision)

/-- The thread has staged a decision that is neither waited for nor erased yet. -/
def Point.escalating : Point → Bool
  | .waitUser _ _ | .unstage _ => true
  | _ => false

/-- The turn of the thread stages a decision. -/
def Point.stages (setup : Setup) (shared : Shared) : Point → Bool
  | .stage _ _ => decide (shared.run.escalations < setup.config.maxEscalationsPerRun)
  | _ => false

def escalating (threads : List Point) : Nat := threads.countP Point.escalating

/-- A decision is staged while the run does not wait and no other decision is staged. -/
def EscalatesAlone (setup : Setup) (shared : Shared) (point : Point) (others : List Point)
    (_ : Answer) : Prop :=
  point.stages setup shared = true → shared.run.view.state ≠ .waitingUser ∧ escalating others = 0

instance (setup : Setup) (shared : Shared) (point : Point) (others : List Point)
    (answer : Answer) : Decidable (EscalatesAlone setup shared point others answer) :=
  inferInstanceAs (Decidable (_ → _))

structure Waiting (view : DecisionView) (threads : List Point) : Prop where
  single : escalating threads ≤ 1
  apart : 0 < escalating threads → view.state ≠ .waitingUser
  staged : ∀ decision back, .waitUser decision back ∈ threads →
    view.decision = some decision ∧ view.pending = some (pendingOf decision)
  waits : view.state = .waitingUser → view.Agrees
  pending : view.pending ≠ none → view.state = .waitingUser ∨ 0 < escalating threads

def DecisionView.moved (view : DecisionView) (target : WorkflowRunState) : DecisionView :=
  if view.state = .waitingUser then ⟨target, none, none⟩ else { view with state := target }

inductive DecisionEffect (setup : Setup) (shared : Shared) (point : Point)
    (result : Shared × List Point) : Prop
  | kept (outside : point.escalating = false) (same : result.1.decisionView = shared.decisionView)
      (nexts : ∀ thread ∈ result.2, thread.escalating = false)
  | moved (target : WorkflowRunState) (apart : target ≠ .waitingUser)
      (outside : point.escalating = false)
      (view : result.1.decisionView = shared.decisionView.moved target)
      (nexts : ∀ thread ∈ result.2, thread.escalating = false)
  | staged (decision : WorkflowDecisionRequest) (back : Back) (at_ : point = .stage decision back)
      (room : point.stages setup shared = true)
      (view : result.1.decisionView =
        ⟨shared.run.view.state, some (pendingOf decision), some decision⟩)
      (next : result.2 = [.waitUser decision back])
  | waited (decision : WorkflowDecisionRequest) (back : Back)
      (at_ : point = .waitUser decision back)
      (view : result.1.decisionView = shared.decisionView.moved .waitingUser)
      (nexts : ∀ thread ∈ result.2, thread.escalating = false)
  | refused (decision : WorkflowDecisionRequest) (back : Back)
      (at_ : point = .waitUser decision back)
      (same : result.1.decisionView = shared.decisionView) (next : result.2 = [.unstage back])
  | erased (back : Back) (at_ : point = .unstage back)
      (view : result.1.decisionView = ⟨shared.run.view.state, none, none⟩)
      (nexts : ∀ thread ∈ result.2, thread.escalating = false)

section
variable {shared : Shared} {threads : List Point}

variable {target : WorkflowRunState}

theorem transition_view {moved : Shared} (done : shared.transition target = .ok moved) :
    moved.decisionView = shared.decisionView.moved target := by
  obtain ⟨view, applied, rfl⟩ := transition_ok done
  rw [applyWorkflowRunTransition] at applied
  split at applied
  · split at applied <;> cases applied
  · split at applied
    · cases applied
    · cases applied
      by_cases waits : shared.run.view.state = .waitingUser
      · simp [Shared.decisionView, DecisionView.moved, waits]
      · simp [Shared.decisionView, DecisionView.moved, waits]

theorem ended_quiet (back : Back) : ∀ thread ∈ back.ended, thread.escalating = false := by
  cases back <;> simp [Back.ended, Drive.at, Point.escalating]

theorem unescalated_quiet (back : Back) :
    ∀ thread ∈ back.unescalated, thread.escalating = false := by
  cases back <;> simp [Back.unescalated, settleDrive, Point.escalating]

theorem drainNext_quiet (driver : Drive) (rest : List PendingPatch) :
    ∀ thread ∈ drainNext driver rest, thread.escalating = false := by
  cases rest <;> simp [drainNext, Drive.at, Point.escalating]

theorem refused_quiet (submitter : Submitter) :
    ∀ thread ∈ submitter.refused, thread.escalating = false := by
  cases submitter with
  | caller | decided decision => simp [Submitter.refused]
  | draining driver rest => exact drainNext_quiet driver rest

theorem patched_quiet (shared : Shared) (submitter : Submitter) :
    (submitter.patched shared).1.decisionView = shared.decisionView ∧
      ∀ thread ∈ (submitter.patched shared).2, thread.escalating = false := by
  cases submitter with
  | caller => simp [Submitter.patched]
  | decided decision => exact ⟨rfl, by simp [Submitter.patched, Point.escalating]⟩
  | draining driver rest => exact ⟨rfl, drainNext_quiet driver rest⟩

variable {point : Point}

theorem plain_quiet (plain : point.plain = true) : point.escalating = false := by
  cases point <;> first | rfl | cases plain

theorem DriveNext_quiet {driver : Drive} {answer : Answer} {point : DrivePoint}
    (next : driver.Next answer point threads) :
    ∀ thread ∈ threads, thread.escalating = false := by
  cases next <;> simp [Drive.at, settleDrive, Point.escalating]

theorem tried_effect {setup : Setup} (apart : target ≠ .waitingUser) (outside : point.escalating = false)
    (nexts : ∀ thread ∈ threads, thread.escalating = false) :
    DecisionEffect setup shared point (shared.tryTransition target, threads) := by
  cases tryTransition_cases shared target with
  | inl same => exact .kept outside (congrArg Shared.decisionView same) nexts
  | inr done => exact .moved target apart outside (transition_view done) nexts

end

variable (setup : Setup) (shared : Shared)

theorem driveTurn_decision (driver : Drive) (answer : Answer) (point : DrivePoint) :
    DecisionEffect setup shared (.drive driver point)
      (driveTurn setup shared driver answer point) := by
  cases inside : point.inner with
  | true =>
      obtain ⟨control, next⟩ := driveTurn_inner setup shared driver answer point inside
      have view : (driveTurn setup shared driver answer point).1.decisionView =
          shared.decisionView := by
        have whole := congrArg RunControls.view control
        have decision := congrArg RunControls.decision control
        simp only [Shared.controls] at whole decision
        rw [Shared.decisionView, whole, decision]
        rfl
      exact .kept rfl view (DriveNext_quiet next)
  | false =>
      cases point with
      | start =>
          rw [driveTurn, driveStart]
          split
          · exact .kept rfl rfl (by simp [settleDrive, Point.escalating])
          · next moved done =>
              exact .moved .running (by decide) rfl (transition_view done)
                (by simp [Drive.at, Point.escalating])
      | drain => exact .kept rfl rfl (drainNext_quiet driver shared.run.pending)
      | pausing => exact tried_effect (by decide) rfl (by simp [Drive.at, Point.escalating])
      | handoff checkpoint =>
          rw [driveTurn, driveHandoff]
          split
          · exact .kept rfl rfl (by simp [settleDrive, Point.escalating])
          · next moved done =>
              refine .moved .waitingAgent (by decide) rfl ?_ (by simp [Drive.at, Point.escalating])
              rw [← transition_view done]
              cases checkpoint <;> rfl
      | ending => exact .kept rfl rfl (by simp [driveTurn, driveEnding])
      | _ => cases inside

theorem controlTurn_decision (answer : Answer) (point : ControlPoint) :
    DecisionEffect setup shared (.control point) (controlTurn setup shared answer point) := by
  generalize turn : controlTurn setup shared answer point = result
  cases turn ▸ controlTurn_cases setup shared answer point with
  | quiet events next plain inert nexts =>
      exact .kept rfl rfl fun thread among => plain_quiet (nexts thread among)
  | restored => exact tried_effect (by decide) rfl (by simp [Point.escalating])
  | paused => exact tried_effect (by decide) rfl (by simp)
  | activated done =>
      have view := transition_view done
      refine .moved .running (by decide) rfl view ?_
      split <;> simp [Point.escalating]
  | rejected done =>
      exact .moved .running (by decide) rfl (transition_view done) (by simp [Point.escalating])
  | _ => exact .kept rfl rfl (by simp [Drive.at, Point.escalating])

theorem advance_decision (point : Point) (answer : Answer) :
    DecisionEffect setup shared point (advance setup shared point answer) := by
  cases point with
  | drive driver point => exact driveTurn_decision setup shared driver answer point
  | control point => exact controlTurn_decision setup shared answer point
  | settle target back =>
      have apart : target.state ≠ .waitingUser := by cases target <;> decide
      exact tried_effect apart rfl (ended_quiet back)
  | stage decision back =>
      rw [advance, stageTurn]
      split
      · exact .kept rfl rfl (unescalated_quiet back)
      · next room => exact .staged decision back rfl (by simpa [Point.stages] using room) rfl rfl
  | waitUser decision back =>
      rw [advance, waitUserTurn]
      split
      · exact .refused decision back rfl rfl rfl
      · next moved done =>
          have view := transition_view done
          exact .waited decision back rfl view (ended_quiet back)
  | unstage back => exact .erased back rfl rfl (unescalated_quiet back)
  | submit patch submitter =>
      rw [advance]
      generalize turn : submitTurn setup shared patch submitter = result
      cases turn ▸ submitTurn_cases setup shared patch submitter with
      | refused => exact .kept rfl rfl (refused_quiet submitter)
      | replayed =>
          obtain ⟨view, nexts⟩ := patched_quiet shared submitter
          exact .kept rfl view nexts
      | applies => exact .kept rfl rfl (by simp [Point.escalating])
      | queues => exact .kept rfl rfl (by simp [Point.escalating])
  | enqueue patch submitter =>
      rw [advance, enqueueTurn]
      obtain ⟨view, nexts⟩ := patched_quiet _ submitter
      exact .kept rfl view nexts
  | snapshot patch submitter =>
      rw [advance, snapshotTurn]
      split
      · exact .kept rfl rfl (refused_quiet submitter)
      · split
        · exact .kept rfl rfl (refused_quiet submitter)
        · exact .kept rfl rfl (by simp [Point.escalating])
  | commit patch patched submitter =>
      rw [advance, commitTurn]
      split
      · exact .kept rfl rfl (refused_quiet submitter)
      · obtain ⟨view, nexts⟩ := patched_quiet _ submitter
        exact .kept rfl view nexts

theorem escalating_append (first second : List Point) :
    escalating (first ++ second) = escalating first + escalating second := List.countP_append

variable {point : Point} {others : List Point}

theorem escalating_cons (own : point.escalating = true) :
    escalating (point :: others) = escalating others + 1 :=
  List.countP_cons_of_pos own

variable {threads : List Point}

theorem escalating_none (nexts : ∀ thread ∈ threads, thread.escalating = false) :
    escalating threads = 0 :=
  List.countP_eq_zero.2 fun thread among => by simp [nexts thread among]

variable {decision : WorkflowDecisionRequest}

theorem mem_of_quiet {back : Back} (nexts : ∀ thread ∈ threads, thread.escalating = false)
    (among : .waitUser decision back ∈ threads ++ others) : .waitUser decision back ∈ others := by
  cases List.mem_append.1 among with
  | inl own => exact absurd (nexts _ own) (by simp [Point.escalating])
  | inr other => exact other

theorem notMem_of_escalating (alone : escalating others = 0) {back : Back} :
    .waitUser decision back ∉ others := by
  intro among
  have own := List.countP_eq_zero.1 alone _ among
  exact own rfl

variable {view : DecisionView}

theorem waiting_quiet (threads : List Point) (nexts : ∀ thread ∈ threads, thread.escalating = false) :
    Waiting view (threads ++ others) ↔ Waiting view others := by
  have count : escalating (threads ++ others) = escalating others := by
    rw [escalating_append, escalating_none nexts, Nat.zero_add]
  constructor
  · intro inv
    exact ⟨count ▸ inv.single, count ▸ inv.apart,
      fun decision back among => inv.staged decision back (List.mem_append_right _ among),
      inv.waits, count ▸ inv.pending⟩
  · intro inv
    exact ⟨count ▸ inv.single, count ▸ inv.apart,
      fun decision back among => inv.staged decision back (mem_of_quiet nexts among),
      inv.waits, count ▸ inv.pending⟩

theorem waiting_moved {target : WorkflowRunState} (apart : target ≠ .waitingUser)
    (inv : Waiting view threads) : Waiting (view.moved target) threads := by
  have state : (view.moved target).state = target := by
    rw [DecisionView.moved]
    split <;> rfl
  have kept : view.state ≠ .waitingUser → view.moved target = { view with state := target } :=
    fun elsewhere => if_neg elsewhere
  refine ⟨inv.single, fun _ => by rw [state]; exact apart, ?_,
    fun waits => absurd (state.symm.trans waits) apart, ?_⟩
  · intro decision back among
    have busy : 0 < escalating threads := List.countP_pos_iff.2 ⟨_, among, rfl⟩
    rw [kept (inv.apart busy)]
    exact inv.staged decision back among
  · intro present
    right
    by_cases waits : view.state = .waitingUser
    · rw [DecisionView.moved, if_pos waits] at present
      exact absurd rfl present
    · rw [kept waits] at present
      exact (inv.pending present).resolve_left waits

theorem DecisionEffect.keeps {setup : Setup} {shared : Shared} {answer : Answer} {result : Shared × List Point}
    (effect : DecisionEffect setup shared point result)
    (alone : EscalatesAlone setup shared point others answer)
    (inv : Waiting shared.decisionView (point :: others)) :
    Waiting result.1.decisionView (result.2 ++ others) := by
  cases effect with
  | kept outside same nexts =>
      rw [waiting_quiet _ nexts, same]
      exact (waiting_quiet [point] (by simpa using outside)).1 inv
  | moved target apart outside view nexts =>
      rw [waiting_quiet _ nexts, view]
      exact waiting_moved apart
        ((waiting_quiet [point] (by simpa using outside)).1 inv)
  | staged decision back at_ room view next =>
      subst at_
      obtain ⟨elsewhere, none⟩ := alone room
      rw [view, next, List.singleton_append]
      have one : escalating (.waitUser decision back :: others) = 1 := by
        rw [escalating_cons rfl, none]
      refine ⟨by omega, fun _ => elsewhere, ?_, fun waits => absurd waits elsewhere,
        fun _ => .inr (by omega)⟩
      intro other others_ among
      cases List.mem_cons.1 among with
      | inl same =>
          cases same
          exact ⟨rfl, rfl⟩
      | inr among => exact absurd among (notMem_of_escalating none)
  | waited decision back at_ view nexts =>
      subst at_
      have none : escalating others = 0 := by
        have single := inv.single
        rw [escalating_cons rfl] at single
        omega
      have elsewhere : shared.decisionView.state ≠ .waitingUser :=
        inv.apart (List.countP_pos_iff.2 ⟨_, List.mem_cons_self, rfl⟩)
      have own := inv.staged decision back List.mem_cons_self
      rw [waiting_quiet _ nexts, view, DecisionView.moved, if_neg elsewhere]
      refine ⟨by omega, fun busy => absurd none (by omega), ?_, fun _ => ⟨decision, own⟩,
        fun _ => .inl rfl⟩
      intro other back among
      exact absurd among (notMem_of_escalating none)
  | refused decision back at_ same next =>
      subst at_
      rw [same, next]
      have count : escalating (.unstage back :: others) =
          escalating (.waitUser decision back :: others) := by
        rw [escalating_cons rfl, escalating_cons rfl]
      refine ⟨count ▸ inv.single, count ▸ inv.apart, ?_, inv.waits, count ▸ inv.pending⟩
      intro other back among
      cases List.mem_cons.1 among with
      | inl same => cases same
      | inr among => exact inv.staged other back (List.mem_cons_of_mem _ among)
  | erased back at_ view nexts =>
      subst at_
      have none : escalating others = 0 := by
        have single := inv.single
        rw [escalating_cons rfl] at single
        omega
      have elsewhere : shared.decisionView.state ≠ .waitingUser :=
        inv.apart (List.countP_pos_iff.2 ⟨_, List.mem_cons_self, rfl⟩)
      rw [waiting_quiet _ nexts, view]
      refine ⟨by omega, fun busy => absurd none (by omega), ?_,
        fun waits => absurd waits elsewhere, fun present => absurd rfl present⟩
      intro other back among
      exact absurd among (notMem_of_escalating none)

theorem waiting_called (call : Call) (inv : Waiting view threads) :
    Waiting view (enterCall call :: threads) := by
  refine (waiting_quiet [enterCall call] ?_).2 inv
  cases call <;> simp [enterCall, Point.escalating]

theorem waiting_perm {first second : List Point} (shuffled : first.Perm second)
    (inv : Waiting view first) : Waiting view second := by
  have count : escalating first = escalating second := shuffled.countP_eq _
  exact ⟨count ▸ inv.single, count ▸ inv.apart,
    fun decision back among => inv.staged decision back (shuffled.mem_iff.2 among),
    inv.waits, count ▸ inv.pending⟩

/-- A run that waits for the user has its decision and the check of `resolve_decision` passes
under the identity of it; a decision is there before only while it is being raised. -/
structure Answerable (pool : RunPool) : Prop where
  waits : pool.shared.run.view.state = .waitingUser → pool.shared.decisionView.Agrees
  answered : pool.shared.run.view.state = .waitingUser → pool.shared.accepting = true →
    ∀ pending, pool.shared.run.view.pendingDecision = some pending →
      checkDecision pool.shared pending.decisionId pending.payloadDigest = .ok ()
  raised : pool.shared.run.view.pendingDecision ≠ none →
    pool.shared.run.view.state = .waitingUser ∨
      ∃ thread ∈ pool.threads, thread.escalating = true

theorem checkDecision_pending {shared : Shared} {pending : WorkflowPendingDecision}
    (waits : shared.run.view.state = .waitingUser) (accepts : shared.accepting = true)
    (present : shared.run.view.pendingDecision = some pending) :
    checkDecision shared pending.decisionId pending.payloadDigest = .ok () := by
  simp [checkDecision, waits, accepts, present]

theorem waiting_answerable (setup : Setup) (state : EffectiveState) (turns : List RunTurn)
    (alone : TurnsMeet setup (EscalatesAlone setup) (newRun state) turns) :
    Answerable (runTurns setup (newRun state) turns) := by
  have inv : Waiting (runTurns setup (newRun state) turns).shared.decisionView
      (runTurns setup (newRun state) turns).threads := by
    refine Interleaving.run_invariant (EscalatesAlone setup)
      (fun shared threads => Waiting shared.decisionView threads)
      ?_ ?_ ?_ (newRun state) turns ?_ alone
    · intro shared first second shuffled inv
      exact waiting_perm shuffled inv
    · intro shared threads call inv
      exact waiting_called call inv
    · intro shared point others answer held inv
      exact (advance_decision setup shared point answer).keeps held inv
    · exact ⟨Nat.zero_le 1, fun busy => absurd busy (by simp [newRun, escalating]),
        fun decision back among => absurd among List.not_mem_nil,
        fun waits => absurd waits (by simp [newRun, Shared.decisionView]), fun present => absurd rfl present⟩
  refine ⟨inv.waits, fun waits accepts pending present =>
    checkDecision_pending waits accepts present, fun present => ?_⟩
  cases inv.pending present with
  | inl waits => exact .inl waits
  | inr busy => exact .inr (List.countP_pos_iff.1 busy)

def inFlightTurns : List RunTurn := .call .startRun :: turnsOf 0 9 {}

/-- A decision is raised from within the step up to the section that stages it. -/
def stagedTurns : List RunTurn :=
  inFlightTurns ++ .call (.requestUserInput (.filled 7) [] []) :: turnsOf 0 2 {}

/-- The run waits, and then the step fails and raises another decision. -/
def overlappedTurns : List RunTurn :=
  stagedTurns ++ .turn 0 {} :: turnsOf 0 5 { outcome := .failedRecord [] }

/-- The run waits for the user exactly while a decision is pending. -/
def WaitsWhilePending (shared : Shared) : Prop :=
  shared.run.view.state = .waitingUser ↔ shared.run.view.pendingDecision.isSome = true

instance (shared : Shared) : Decidable (WaitsWhilePending shared) :=
  inferInstanceAs (Decidable (_ ↔ _))

theorem pending_apart_from_waiting :
    (¬ WaitsWhilePending (runTurns sendSetup (newRun sendState) stagedTurns).shared ∧
        (runTurns sendSetup (newRun sendState) stagedTurns).shared.run.view.state = .running) ∧
      (¬ WaitsWhilePending (runTurns sendSetup (newRun sendState) overlappedTurns).shared ∧
        (runTurns sendSetup (newRun sendState) overlappedTurns).shared.run.view.state =
          .waitingUser) := by
  decide +kernel

theorem raised_decision_answerable :
    Answerable (runTurns sendSetup (newRun sendState) (stagedTurns ++ [.turn 0 {}])) ∧
      (runTurns sendSetup (newRun sendState) (stagedTurns ++ [.turn 0 {}])).shared.run.view.state =
        .waitingUser :=
  ⟨waiting_answerable sendSetup sendState _ (by decide +kernel), by decide +kernel⟩

end Mira.Workflow
