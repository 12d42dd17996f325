import Mira.Model.Gateway

/-!
What becomes of a reservation. Releasing what a reservation granted restores the account only
where nothing else was reserved in the task scope, and where no counter saturated in the request
scope. A call that fails after its reservation releases it where the supervisor gives up on it;
a wait that is cancelled and a last candidate with an open circuit leave without.
-/

namespace Mira.Model
open Mira Bytes

/-- The counters of a reservation are words. -/
def BudgetReservation.Words (held : BudgetReservation) : Prop :=
  held.inputTokens ≤ maxWord ∧ held.outputTokens ≤ maxWord ∧ held.requests ≤ maxWord ∧
    held.costMicros ≤ maxWord

/-- The release of what is granted for an estimate leaves what was held before. -/
def Restorable (held : BudgetReservation) (budget : ModelBudget) (estimate : BudgetEstimate) :
    Prop :=
  match budget.scope with
  | .task => held = {}
  | .request => held.overflows estimate = false

theorem saturating_restored {held asked : Nat} (fits : held ≤ maxWord) (word : asked ≤ maxWord) :
    saturatingAdd held asked - asked = held ↔ ¬ maxWord - held < asked := by
  rw [saturatingAdd]
  split
  · next full => exact ⟨fun restored => by omega, fun free => absurd full free⟩
  · next free => exact ⟨fun _ => free, fun _ => by omega⟩

theorem drop_self (held : BudgetReservation) : held.drop held = {} := by
  simp [BudgetReservation.drop]

theorem drop_estimate {held : BudgetReservation} {estimate : BudgetEstimate}
    (fits : held.Words) (words : estimate.reservation.Words) :
    (held.add estimate).drop estimate.reservation = held ↔ held.overflows estimate = false := by
  obtain ⟨inputs, outputs, requests, cost⟩ := held
  have first := saturating_restored fits.1 words.1
  have second := saturating_restored fits.2.1 words.2.1
  have third := saturating_restored fits.2.2.1 words.2.2.1
  have fourth := saturating_restored fits.2.2.2 words.2.2.2
  simp only [BudgetEstimate.reservation] at first second third fourth
  simp only [BudgetReservation.drop, BudgetReservation.add, BudgetEstimate.reservation,
    BudgetReservation.mk.injEq, BudgetReservation.overflows, Bool.or_eq_false_iff,
    decide_eq_false_iff_not, and_assoc, first, second, third, fourth]

section
variable {ledger : BudgetLedger} {task : TaskId} {budget : ModelBudget}
variable {estimate : BudgetEstimate}

variable {reservation : BudgetReservation}

theorem reserve_ok (done : (ledger.reserve task budget estimate).2 = .ok reservation) :
    BudgetLedger.refusal (ledger.account task) budget estimate = none ∧
      reservation = BudgetLedger.granted (ledger.account task) budget estimate := by
  cases free : BudgetLedger.refusal (ledger.account task) budget estimate with
  | some error =>
      rw [(BudgetLedger.reserve_refused free task).2] at done
      cases done
  | none =>
      rw [(BudgetLedger.reserve_granted free task).2] at done
      exact ⟨rfl, (Except.ok.inj done).symm⟩

theorem release_restores_iff (done : (ledger.reserve task budget estimate).2 = .ok reservation)
    (fits : (ledger.reserved task).Words) (words : estimate.reservation.Words) :
    ((ledger.reserve task budget estimate).1.release task reservation).1.reserved task =
        ledger.reserved task ↔ Restorable (ledger.reserved task) budget estimate := by
  obtain ⟨free, rfl⟩ := reserve_ok done
  have account := (BudgetLedger.reserve_granted free task).1
  rw [if_pos rfl] at account
  have after : ((ledger.reserve task budget estimate).1.release task
      (BudgetLedger.granted (ledger.account task) budget estimate)).1.reserved task =
      ((ledger.reserved task).add estimate).drop
        (BudgetLedger.granted (ledger.account task) budget estimate) := by
    rw [BudgetLedger.reserved, BudgetLedger.release_account, if_pos rfl, account]
    rfl
  rw [after, Restorable, BudgetLedger.granted]
  cases budget.scope with
  | task =>
      dsimp only
      rw [BudgetLedger.reserved, drop_self]
      exact ⟨Eq.symm, Eq.symm⟩
  | request => exact drop_estimate fits words

end

def InferEvent.release : InferEvent → Option BudgetReservation
  | .released reservation => some reservation
  | _ => none

def releases (state : InferState) : List BudgetReservation :=
  state.journal.filterMap InferEvent.release

def cancelledWait (setup : InferSetup) (state : InferState) (profile : ModelProfileId)
    (attempt : Nat) (answer : AttemptAnswer) : Bool :=
  match answer.outcome with
  | .answered _ _ => false
  | .failed failure trace retryAfter =>
      let decision := attemptDecision setup (state.circuits profile) attempt failure trace
        retryAfter answer.elapsed
      answer.cancelled && decision.action = .retryAfter && 0 < decision.delay

/-- The call goes on, or leaves where it gives up: no wait is cancelled and the circuit of the
last candidate is not open. -/
def Released (setup : InferSetup) (state : InferState) (answer : AttemptAnswer) : Prop :=
  match state.point with
  | .candidates [] _ => False
  | .candidates [profile] _ =>
      (knownCircuit setup.config (state.circuits profile)).admitsRequests = true
  | .attempting profile _ attempt => cancelledWait setup state profile attempt answer = false
  | _ => True

structure Holding (ledger : BudgetLedger) (reservation : BudgetReservation) (state : InferState) :
    Prop where
  ledger : state.ledger = ledger
  reservation : state.reservation = reservation
  unreleased : releases state = []
  ahead : (∃ first rest lastFailure, state.point = .candidates (first :: rest) lastFailure) ∨
    ∃ profile rest attempt, state.point = .attempting profile rest attempt

/-- A call that returns, or is about to, with its reservation still held. -/
structure Dropped (state : InferState) : Prop where
  unreleased : releases state = []
  gone : ∃ failure, state.point = .candidates [] failure ∨ state.point = .returned (.error failure)

/-- A call that returned an error and gave back its reservation. -/
structure GaveBack (setup : InferSetup) (ledger : BudgetLedger) (reservation : BudgetReservation)
    (failure : ModelError) (state : InferState) : Prop where
  returned : state.point = .returned (.error failure)
  released : releases state = [releasedPart reservation (isAmbiguous failure)]
  ledger : state.ledger =
    (ledger.release setup.task (releasedPart reservation (isAmbiguous failure))).1

/-- What a step makes of a call that holds its reservation. -/
inductive StepReleases (setup : InferSetup) (ledger : BudgetLedger)
    (reservation : BudgetReservation) (state : InferState) (answer : AttemptAnswer)
    (next : InferState) : Prop
  | goes (kept : Released setup state answer) (holding : Holding ledger reservation next)
  | answered (kept : Released setup state answer) (done : next.point = .returned (.ok ()))
  | gaveUp (kept : Released setup state answer) (failure : ModelError)
      (back : GaveBack setup ledger reservation failure next)
  | dropped (lost : ¬ Released setup state answer) (gone : Dropped next)

section
variable {setup : InferSetup} {ledger : BudgetLedger} {reservation : BudgetReservation}
variable {state : InferState} {answer : AttemptAnswer}

variable {rest : List ModelProfileId}

theorem chooseCandidate_releases {first : ModelProfileId} {lastFailure : ModelError}
    (holding : Holding ledger reservation state)
    (stands : state.point = .candidates (first :: rest) lastFailure) :
    StepReleases setup ledger reservation state answer
      (chooseCandidate setup state lastFailure (first :: rest)) := by
  rw [chooseCandidate]
  cases admits : (knownCircuit setup.config (state.circuits first)).admitsRequests with
  | true =>
      rw [if_pos rfl]
      refine .goes ?_ ⟨holding.ledger, holding.reservation, holding.unreleased,
        .inr ⟨first, rest, 1, rfl⟩⟩
      rw [Released, stands]
      cases rest with
      | nil => exact admits
      | cons second rest => exact trivial
  | false =>
      rw [if_neg Bool.false_ne_true]
      cases rest with
      | nil =>
          refine .dropped ?_ ⟨holding.unreleased, circuitOpen, .inl rfl⟩
          rw [Released, stands]
          exact fun open_ => absurd (admits.symm.trans open_) Bool.false_ne_true
      | cons second rest =>
          refine .goes ?_ ⟨holding.ledger, holding.reservation, holding.unreleased,
            .inl ⟨second, rest, circuitOpen, rfl⟩⟩
          rw [Released, stands]
          exact trivial

theorem attemptCall_releases {profile : ModelProfileId} {attempt : Nat}
    (holding : Holding ledger reservation state)
    (stands : state.point = .attempting profile rest attempt) :
    StepReleases setup ledger reservation state answer
      (attemptCall setup state profile rest attempt answer) := by
  have kept : cancelledWait setup state profile attempt answer = false →
      Released setup state answer := by
    intro waits
    rw [Released, stands]
    exact waits
  rw [attemptCall]
  split
  · next usage model outcome =>
      exact .answered (kept (by rw [cancelledWait, outcome])) rfl
  · next failure trace retryAfter outcome =>
      simp only [cancelledWait, outcome] at kept
      rw [failAttempt]
      generalize decided : attemptDecision setup
        ((state.note (.called profile (state.circuits profile))).circuits profile) attempt failure
        trace retryAfter answer.elapsed = decision
      have same : attemptDecision setup (state.circuits profile) attempt failure trace retryAfter
          answer.elapsed = decision := decided
      rw [same] at kept
      dsimp only
      split
      · next gives =>
          have own := kept (by simp [gives])
          split
          · next fallback =>
              cases rest with
              | nil => simp [fallbackEligible] at fallback
              | cons second rest =>
                  exact .goes own ⟨holding.ledger, holding.reservation, holding.unreleased,
                    .inl ⟨second, rest, failure, rfl⟩⟩
          · refine .gaveUp own failure ⟨rfl, ?_, ?_⟩
            · rw [← holding.reservation]
              change _ :: releases state = _
              rw [holding.unreleased]
              rfl
            · rw [← holding.reservation, ← holding.ledger]
              rfl
      · next again =>
          exact .goes (kept (by simp [again])) ⟨holding.ledger, holding.reservation,
            holding.unreleased, .inr ⟨profile, rest, attempt + 1, rfl⟩⟩
      · next after =>
          split
          · next short =>
              exact .goes (kept (by simp [short])) ⟨holding.ledger, holding.reservation,
                holding.unreleased, .inr ⟨profile, rest, attempt + 1, rfl⟩⟩
          · next long =>
              cases cancelled : answer.cancelled with
              | true =>
                  refine .dropped ?_ ⟨holding.unreleased, cancelledBackoff, .inr rfl⟩
                  rw [Released, stands]
                  simp only [cancelledWait, outcome, same, cancelled, after]
                  simpa using long
              | false =>
                  exact .goes (kept (by simp [cancelled])) ⟨holding.ledger, holding.reservation,
                    holding.unreleased, .inr ⟨profile, rest, attempt + 1, rfl⟩⟩

theorem inferStep_releases (holding : Holding ledger reservation state) :
    StepReleases setup ledger reservation state answer (inferStep setup state answer).1 := by
  cases holding.ahead with
  | inl choosing =>
      obtain ⟨first, rest, lastFailure, stands⟩ := choosing
      rw [inferStep, stands]
      exact chooseCandidate_releases holding stands
  | inr attempting =>
      obtain ⟨profile, rest, attempt, stands⟩ := attempting
      rw [inferStep, stands]
      exact attemptCall_releases holding stands

theorem returned_stays (setup : InferSetup) {result : ModelResult Unit}
    (stands : state.point = .returned result) (answers : List AttemptAnswer) :
    inferTurns setup state answers = state ∧
      Execution.Guarded (inferStep setup) (Released setup) state answers := by
  have still (answer : AttemptAnswer) : (inferStep setup state answer).1 = state := by
    rw [inferStep, stands]
  induction answers with
  | nil => exact ⟨rfl, trivial⟩
  | cons answer rest ih =>
      refine ⟨?_, ?_, ?_⟩
      · rw [inferTurns, Execution.run, still]
        exact ih.1
      · rw [Released, stands]
        exact trivial
      · rw [still]
        exact ih.2

theorem dropped_stays (setup : InferSetup) (gone : Dropped state) (answers : List AttemptAnswer) :
    releases (inferTurns setup state answers) = [] := by
  cases answers with
  | nil => exact gone.unreleased
  | cons answer rest =>
      obtain ⟨failure, stands⟩ := gone.gone
      cases stands with
      | inl exhausted =>
          have next : (inferStep setup state answer).1 = state.goTo (.returned (.error failure)) := by
            rw [inferStep, exhausted]
            rfl
          have stays : inferTurns setup (state.goTo (.returned (.error failure))) rest =
              state.goTo (.returned (.error failure)) := (returned_stays setup rfl rest).1
          rw [inferTurns] at stays
          rw [inferTurns, Execution.run, next, stays]
          exact gone.unreleased
      | inr returned =>
          rw [(returned_stays setup returned (answer :: rest)).1]
          exact gone.unreleased

/-- A call that returned an error has given back its reservation if and only if it met the
condition at every step. -/
theorem gaveBack_iff {failure : ModelError} (answers : List AttemptAnswer)
    (holding : Holding ledger reservation state)
    (returned : (inferTurns setup state answers).point = .returned (.error failure)) :
    GaveBack setup ledger reservation failure (inferTurns setup state answers) ↔
      Execution.Guarded (inferStep setup) (Released setup) state answers := by
  induction answers generalizing state with
  | nil =>
      rw [inferTurns, Execution.run] at returned
      cases holding.ahead with
      | inl choosing =>
          obtain ⟨first, rest, lastFailure, stands⟩ := choosing
          cases stands.symm.trans returned
      | inr attempting =>
          obtain ⟨profile, rest, attempt, stands⟩ := attempting
          cases stands.symm.trans returned
  | cons answer rest ih =>
      have effect : StepReleases setup ledger reservation state answer
          (inferStep setup state answer).1 := inferStep_releases holding
      rw [inferTurns, Execution.run] at returned ⊢
      cases effect with
      | goes kept holding =>
          exact (ih holding returned).trans ⟨fun later => ⟨kept, later⟩, fun all => all.2⟩
      | answered kept done =>
          have stays := (returned_stays setup done rest).1
          rw [inferTurns] at stays
          rw [stays, done] at returned
          cases returned
      | gaveUp kept own back =>
          obtain ⟨stays, guarded⟩ := returned_stays setup back.returned rest
          rw [inferTurns] at stays
          rw [stays, back.returned] at returned
          cases returned
          rw [stays]
          exact ⟨fun _ => ⟨kept, guarded⟩, fun _ => back⟩
      | dropped lost gone =>
          refine ⟨fun back => ?_, fun all => absurd all.1 lost⟩
          have none := dropped_stays setup gone rest
          rw [inferTurns] at none
          have released := back.released
          rw [none] at released
          cases released

end

theorem beginInfer_holding (setup : InferSetup) (circuits : ModelProfileId → ProviderCircuit)
    (ledger : BudgetLedger) {candidates : List ModelProfileId} (some : candidates ≠ []) :
    Holding (ledger.reserve setup.task setup.budget setup.estimate).1
      (BudgetLedger.granted (ledger.account setup.task) setup.budget setup.estimate)
      (beginInfer setup circuits ledger candidates) := by
  cases candidates with
  | nil => exact absurd rfl some
  | cons first rest =>
      exact ⟨rfl, rfl, rfl, .inl ⟨first, rest, noCandidateExecuted, rfl⟩⟩

def decidableReleasedAt (setup : InferSetup) (state : InferState) (answer : AttemptAnswer) :
    (point : InferPoint) → state.point = point → Decidable (Released setup state answer)
  | .candidates [] _, stands => .isFalse fun kept => by rwa [Released, stands] at kept
  | .candidates [profile] _, stands =>
      decidable_of_iff
        ((knownCircuit setup.config (state.circuits profile)).admitsRequests = true)
        (by rw [Released, stands])
  | .candidates (_ :: _ :: _) _, stands => .isTrue (by rw [Released, stands]; exact trivial)
  | .attempting profile _ attempt, stands =>
      decidable_of_iff (cancelledWait setup state profile attempt answer = false)
        (by rw [Released, stands])
  | .returned _, stands => .isTrue (by rw [Released, stands]; exact trivial)

instance (setup : InferSetup) (state : InferState) (answer : AttemptAnswer) :
    Decidable (Released setup state answer) :=
  decidableReleasedAt setup state answer state.point rfl

instance (held : BudgetReservation) : Decidable held.Words := inferInstanceAs (Decidable (_ ∧ _))

/-- Releasing what a reservation granted restores the account if and only if nothing else was
held in the task scope, or no counter saturated in the request scope; and a call that fails
after its reservation has given it back if and only if no wait was cancelled and the last
candidate's circuit was not open. -/
theorem reservations_conserved (setup : InferSetup) (circuits : ModelProfileId → ProviderCircuit)
    (ledger : BudgetLedger) (candidates : List ModelProfileId) (some : candidates ≠ [])
    (reservation : BudgetReservation)
    (reserved :
      (ledger.reserve setup.task setup.budget setup.estimate).2 = .ok reservation)
    (fits : (ledger.reserved setup.task).Words) (words : setup.estimate.reservation.Words) :
    (((ledger.reserve setup.task setup.budget setup.estimate).1.release setup.task
          reservation).1.reserved setup.task = ledger.reserved setup.task ↔
        Restorable (ledger.reserved setup.task) setup.budget setup.estimate) ∧
      ∀ (answers : List AttemptAnswer) (failure : ModelError),
        (inferTurns setup (beginInfer setup circuits ledger candidates) answers).point =
            .returned (.error failure) →
          (GaveBack setup (ledger.reserve setup.task setup.budget setup.estimate).1 reservation
              failure (inferTurns setup (beginInfer setup circuits ledger candidates) answers) ↔
            Execution.Guarded (inferStep setup) (Released setup)
              (beginInfer setup circuits ledger candidates) answers) := by
  refine ⟨release_restores_iff reserved fits words, fun answers failure returned => ?_⟩
  obtain ⟨_, rfl⟩ := reserve_ok reserved
  exact gaveBack_iff answers (beginInfer_holding setup circuits ledger some) returned

def sharedBudget : ModelBudget := { maxRequests := 10 }

/-- A call that reserves beside another. -/
def besideSetup : InferSetup :=
  { task := .filled 5, budget := sharedBudget, estimate := { inputTokens := 10 } }

def besideLedger : BudgetLedger :=
  (BudgetLedger.reserve {} (.filled 5) sharedBudget { inputTokens := 7 }).1

def soleProfile : ModelProfileId := ⟨.nil⟩

def overloaded : ProviderOutcome :=
  .failed (makeModelError .providerOverloaded (ascii "busy") true) ⟨true, true, true⟩ none

def unresponsive : ProviderOutcome :=
  .failed (makeModelError .transportFailed (ascii "unreachable")) {} none

/-- The first provider is chosen and is overloaded; the wait for a retry is cancelled. -/
def cancelledAnswers : List AttemptAnswer :=
  [{ outcome := overloaded }, { outcome := overloaded, cancelled := true }]

theorem reservation_lost :
    (∃ reservation,
      (besideLedger.reserve besideSetup.task besideSetup.budget besideSetup.estimate).2 =
          .ok reservation ∧
        ((besideLedger.reserve besideSetup.task besideSetup.budget besideSetup.estimate).1.release
          besideSetup.task reservation).1.reserved besideSetup.task = {} ∧
        besideLedger.reserved besideSetup.task ≠ {}) ∧
      (inferTurns besideSetup (beginInfer besideSetup (fun _ => {}) {} [soleProfile])
          cancelledAnswers).point = .returned (.error cancelledBackoff) ∧
      releases (inferTurns besideSetup (beginInfer besideSetup (fun _ => {}) {} [soleProfile])
          cancelledAnswers) = [] := by
  refine ⟨⟨⟨17, 0, 2, 0⟩, ?_, ?_, ?_⟩, ?_, ?_⟩ <;> decide +kernel

def givenUpAnswers : List AttemptAnswer :=
  [{ outcome := unresponsive }, { outcome := unresponsive }]

def aloneReservation : BudgetReservation := ⟨10, 0, 1, 0⟩

theorem lone_reservation_conserved :
    ((BudgetLedger.reserve {} besideSetup.task besideSetup.budget besideSetup.estimate).1.release
        besideSetup.task aloneReservation).1.reserved besideSetup.task =
        BudgetLedger.reserved {} besideSetup.task ∧
      GaveBack besideSetup
        (BudgetLedger.reserve {} besideSetup.task besideSetup.budget besideSetup.estimate).1
        aloneReservation (makeModelError .transportFailed (ascii "unreachable"))
        (inferTurns besideSetup (beginInfer besideSetup (fun _ => {}) {} [soleProfile])
          givenUpAnswers) :=
  have conserved := reservations_conserved besideSetup (fun _ => {}) {} [soleProfile]
    (List.cons_ne_nil _ _) aloneReservation (by decide +kernel) (by decide +kernel)
    (by decide +kernel)
  ⟨conserved.1.mpr rfl,
    (conserved.2 givenUpAnswers _ (by decide +kernel)).mpr (by decide +kernel)⟩

end Mira.Model
