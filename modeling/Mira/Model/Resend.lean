import Mathlib.Algebra.Order.BigOperators.Group.Finset
import Mira.Model.Gateway

/-!
What a call sends again. The journal of a call tells each call of a provider, each failure and
each wait, the last of them first; every event on it is allowed by those before it, and no
candidate is called more often than the attempts of the retry budget, or once where that has
none.
-/

namespace Mira.Model
open Mira Bytes

def signedWord (value : Int) : Int := Int.bmod value wordLimit

/-- The delay of a `Retry-After` value: seconds, or a date as `std::get_time` and `std::mktime`
read it. -/
def parseRetryAfter (date : Bytes → Option Int) (now : Int) (cap : Int) (value : Bytes) :
    Option Int :=
  if value ≠ [] ∧ value.all isDigit then
    if decimalValue value < 2 ^ 63 then some (min (signedWord (decimalValue value * 1000)) cap)
    else none
  else
    match date value with
    | none => none
    | some target =>
        if target ≤ now then some 0 else some (min (signedWord ((target - now) * 1000)) cap)

variable {date : Bytes → Option Int}

theorem parseRetryAfter_capped {now cap delay : Int} {value : Bytes} (positive : 0 ≤ cap)
    (parsed : parseRetryAfter date now cap value = some delay) : delay ≤ cap := by
  rw [parseRetryAfter] at parsed
  split at parsed
  · split at parsed
    · cases parsed
      exact min_le_right _ _
    · cases parsed
  · split at parsed
    · cases parsed
    · split at parsed
      · cases parsed
        exact positive
      · cases parsed
        exact min_le_right _ _

def hintCap : Int := 30000

def lastRetryAfterHint (date : Bytes → Option Int) (now : Int) (header : Option Bytes) :
    Option Int :=
  header.bind (parseRetryAfter date now hintCap)

theorem lastRetryAfterHint_capped {now hint : Int} {header : Option Bytes}
    (read : lastRetryAfterHint date now header = some hint) : hint ≤ hintCap := by
  obtain ⟨value, _, parsed⟩ := Option.bind_eq_some_iff.mp read
  exact parseRetryAfter_capped (by decide) parsed

def InferEvent.call : InferEvent → Option ModelProfileId
  | .called profile _ => some profile
  | _ => none

/-- The providers called, the last first. -/
def calls (journal : List InferEvent) : List ModelProfileId := journal.filterMap InferEvent.call

/-- No failure so far is ambiguous. -/
def Unambiguous (journal : List InferEvent) : Prop :=
  ∀ profile failure stage, InferEvent.failed profile failure stage ∈ journal →
    isAmbiguous failure = false

def InferEvent.isWait : InferEvent → Bool
  | .waited _ _ _ => true
  | _ => false

/-- A provider may be called: it was not yet, or the last thing that happened, save for a wait, is
that it failed in a way after which it may be called again. -/
inductive Callable (earlier : List InferEvent) (profile : ModelProfileId) : Prop
  | first (fresh : profile ∉ calls earlier)
  | again (waits rest : List InferEvent) (failure : ModelError) (stage : RequestStage)
      (last : earlier = waits ++ .failed profile failure stage :: rest)
      (idle : ∀ event ∈ waits, event.isWait = true) (safe : resendable failure stage = true)

/-- A wait that is positive, ends within the budget and keeps to the cap of a hint, or to the
longest backoff without one. -/
structure Paced (budget : RetryBudget) (delay elapsed : Int) (retryAfter : Option Int) : Prop where
  positive : 0 < delay
  within : elapsed + delay ≤ budget.totalBudget
  capped : ∀ hint ∈ retryAfter, delay = min hint budget.retryAfterCap
  backoff : retryAfter = none → delay ≤ 4000

/-- An event that what came earlier allows. -/
def Allowed (setup : InferSetup) (earlier : List InferEvent) : InferEvent → Prop
  | .called profile circuit =>
      circuit.admitsRequests = true ∧ Unambiguous earlier ∧ Callable earlier profile
  | .waited delay budget retryAfter =>
      Paced setup.config.retryBudget delay budget.elapsed retryAfter
  | _ => True

def AllAllowed (setup : InferSetup) : List InferEvent → Prop
  | [] => True
  | event :: earlier => Allowed setup earlier event ∧ AllAllowed setup earlier

theorem AllAllowed.at {setup : InferSetup} {journal : List InferEvent}
    (all : AllAllowed setup journal) {later earlier : List InferEvent} {event : InferEvent}
    (whole : journal = later ++ event :: earlier) : Allowed setup earlier event := by
  induction later generalizing journal with
  | nil =>
      rw [whole] at all
      exact all.1
  | cons last later ih =>
      rw [whole] at all
      exact ih all.2 rfl

def attemptLimit (setup : InferSetup) : Nat := max 1 setup.config.retryBudget.maxAttempts

/-- Where a call stands with what it has called. -/
def Ahead (setup : InferSetup) (candidates : List ModelProfileId) (state : InferState) : Prop :=
  match state.point with
  | .candidates rest _ =>
      rest.Nodup ∧ (∀ profile ∈ rest, profile ∈ candidates ∧ profile ∉ calls state.journal) ∧
        Unambiguous state.journal
  | .attempting profile rest attempt =>
      (profile :: rest).Nodup ∧ profile ∈ candidates ∧
        (∀ other ∈ rest, other ∈ candidates ∧ other ∉ calls state.journal) ∧
        (calls state.journal).count profile + 1 = attempt ∧ attempt ≤ attemptLimit setup ∧
        (state.circuits profile).admitsRequests = true ∧ Unambiguous state.journal ∧
        Callable state.journal profile
  | .returned _ => True

structure Sends (setup : InferSetup) (candidates : List ModelProfileId) (state : InferState) :
    Prop where
  allowed : AllAllowed setup state.journal
  known : ∀ profile ∈ calls state.journal, profile ∈ candidates
  attempts : ∀ profile, (calls state.journal).count profile ≤ attemptLimit setup
  ahead : Ahead setup candidates state

section
variable {setup : InferSetup} {candidates : List ModelProfileId} {state : InferState}

variable {journal : List InferEvent}

theorem Unambiguous.cons {event : InferEvent} (quiet : Unambiguous journal)
    (plain : ∀ profile failure stage, event = .failed profile failure stage →
      isAmbiguous failure = false) : Unambiguous (event :: journal) := by
  intro profile failure stage told
  cases told with
  | head => exact plain profile failure stage rfl
  | tail _ earlier => exact quiet profile failure stage earlier

theorem calls_called (profile : ModelProfileId) (circuit : ProviderCircuit)
    (journal : List InferEvent) :
    calls (.called profile circuit :: journal) = profile :: calls journal := rfl

theorem calls_idle {events : List InferEvent} (idle : ∀ event ∈ events, event.call = none) :
    calls (events ++ journal) = calls journal := by
  rw [calls, List.filterMap_append, List.filterMap_eq_nil_iff.mpr idle]
  rfl

variable {profile : ModelProfileId} {rest : List ModelProfileId} {attempt : Nat} {next : InferState}

/-- The journal of a call after one more call of a provider and what came of it, if that is no
call. -/
theorem Sends.called (sends : Sends setup candidates state)
    (stands : state.point = .attempting profile rest attempt) (events : List InferEvent)
    (idle : ∀ event ∈ events, event.call = none) (journal : next.journal =
      events ++ .called profile (state.circuits profile) :: state.journal)
    (allowed : AllAllowed setup (.called profile (state.circuits profile) :: state.journal) →
      AllAllowed setup next.journal) (ahead : Ahead setup candidates next) :
    Sends setup candidates next := by
  have told := sends.ahead
  rw [Ahead, stands] at told
  obtain ⟨_, known, _, counted, few, admits, quiet, callable⟩ := told
  have called : calls next.journal = profile :: calls state.journal := by
    rw [journal, calls_idle idle, calls_called]
  refine ⟨allowed ⟨⟨admits, quiet, callable⟩, sends.allowed⟩, ?_, ?_, ahead⟩
  · intro other made
    rw [called] at made
    cases made with
    | head => exact known
    | tail _ earlier => exact sends.known other earlier
  · intro other
    rw [called, List.count_cons]
    split
    · next same =>
        rw [← eq_of_beq same, counted]
        exact few
    · exact sends.attempts other

variable {failure : ModelError} {stage : RequestStage}

theorem ahead_again (sends : Sends setup candidates state)
    (stands : state.point = .attempting profile rest attempt) (waits : List InferEvent)
    (idle : ∀ event ∈ waits, event.isWait = true)
    (journal : next.journal = waits ++ .failed profile failure stage ::
      .called profile (state.circuits profile) :: state.journal)
    (point : next.point = .attempting profile rest (attempt + 1))
    (more : attempt < setup.config.retryBudget.maxAttempts)
    (admits : (next.circuits profile).admitsRequests = true) (plain : isAmbiguous failure = false)
    (safe : resendable failure stage = true) : Ahead setup candidates next := by
  have told := sends.ahead
  rw [Ahead, stands] at told
  obtain ⟨distinct, known, fresh, counted, few, _, quiet, callable⟩ := told
  have noCall : ∀ event ∈ waits, event.call = none := by
    intro event waited
    have waits := idle event waited
    cases event with
    | waited delay budget retryAfter => rfl
    | called _ _ | failed _ _ _ | released _ | reconciled => cases waits
  have noFailure : ∀ event ∈ waits, ∀ profile failure stage,
      event ≠ .failed profile failure stage := by
    intro event waited profile failure stage same
    have waits := idle event waited
    rw [same] at waits
    cases waits
  have called : calls next.journal = profile :: calls state.journal := by
    rw [journal, calls_idle noCall]
    rfl
  rw [Ahead, point]
  refine ⟨distinct, known, ?_, ?_, ?_, admits, ?_, ?_⟩
  · intro other later
    obtain ⟨candidate, untold⟩ := fresh other later
    refine ⟨candidate, ?_⟩
    rw [called]
    intro made
    cases made with
    | head => exact (List.nodup_cons.mp distinct).1 later
    | tail _ earlier => exact untold earlier
  · rw [called, List.count_cons_self, counted]
  · exact Nat.le_trans more (Nat.le_max_right _ _)
  · rw [journal]
    intro other failure' stage' told
    cases List.mem_append.mp told with
    | inl waited => exact absurd rfl (noFailure _ waited other failure' stage')
    | inr earlier =>
        cases earlier with
        | head => exact plain
        | tail _ earlier =>
            cases earlier with
            | tail _ earlier => exact quiet other failure' stage' earlier
  · exact .again waits _ failure stage journal idle safe

variable {lastFailure : ModelError}

theorem ahead_rest (sends : Sends setup candidates state)
    (stands : state.point = .attempting profile rest attempt)
    (journal : next.journal = .failed profile failure stage ::
      .called profile (state.circuits profile) :: state.journal)
    (point : next.point = .candidates rest lastFailure) (plain : isAmbiguous failure = false) :
    Ahead setup candidates next := by
  have told := sends.ahead
  rw [Ahead, stands] at told
  obtain ⟨distinct, _, fresh, _, _, _, quiet, _⟩ := told
  rw [Ahead, point, journal]
  refine ⟨(List.nodup_cons.mp distinct).2, ?_, ?_⟩
  · intro other later
    obtain ⟨candidate, untold⟩ := fresh other later
    refine ⟨candidate, fun made => ?_⟩
    cases (made : other ∈ profile :: calls state.journal) with
    | head => exact (List.nodup_cons.mp distinct).1 later
    | tail _ earlier => exact untold earlier
  · refine (quiet.cons ?_).cons ?_
    · intro _ _ _ same
      cases same
    · intro _ _ _ same
      cases same
      exact plain

variable {circuit : ProviderCircuit} {trace : TransportTrace} {retryAfter : Option Int}
  {elapsed : Int}

theorem attemptDecision_retries
    (retries : (attemptDecision setup circuit attempt failure trace retryAfter elapsed).action ≠
      .giveUp) :
    attempt < setup.config.retryBudget.maxAttempts ∧
      circuit.recordFailure.admitsRequests = true ∧ isAmbiguous failure = false ∧
      resendable failure (classifyProviderStage trace failure) = true :=
  have decided := evaluate_retries rfl retries
  ⟨decided.1, decided.2.1, decided.2.2.1, decided.2.2.2.1⟩

theorem attemptDecision_paced {decision : RetryDecision}
    (decided : attemptDecision setup circuit attempt failure trace retryAfter elapsed = decision)
    (after : decision.action = .retryAfter) (positive : 0 < decision.delay) :
    Paced setup.config.retryBudget decision.delay elapsed retryAfter := by
  have retries : decision.action ≠ .giveUp := by
    rw [after]
    exact fun same => by cases same
  have bounded := (evaluate_retries decided retries).2.2.2.2 after
  cases retryAfter with
  | none =>
      refine ⟨positive, bounded.1, fun hint none => ?_, fun _ => bounded.2.2⟩
      cases none
  | some hint =>
      refine ⟨positive, bounded.1, fun told same => ?_, fun none => ?_⟩
      · cases same
        exact bounded.2
      · cases none

theorem chooseCandidate_sends (sends : Sends setup candidates state)
    (stands : state.point = .candidates rest lastFailure) :
    Sends setup candidates (chooseCandidate setup state lastFailure rest) := by
  have told := sends.ahead
  rw [Ahead, stands] at told
  obtain ⟨distinct, fresh, quiet⟩ := told
  cases rest with
  | nil => exact ⟨sends.allowed, sends.known, sends.attempts, trivial⟩
  | cons profile rest =>
      have later : ∀ other ∈ rest, other ∈ candidates ∧ other ∉ calls state.journal :=
        fun other mem => fresh other (List.mem_cons_of_mem _ mem)
      obtain ⟨candidate, untold⟩ := fresh profile List.mem_cons_self
      rw [chooseCandidate]
      split
      · next admits =>
          refine ⟨sends.allowed, sends.known, sends.attempts, distinct, candidate, later, ?_,
            Nat.le_max_left _ _, ?_, quiet, .first untold⟩
          · exact congrArg (· + 1) (List.count_eq_zero_of_not_mem untold)
          · rw [← admits]
            exact congrArg _ (if_pos rfl)
      · exact ⟨sends.allowed, sends.known, sends.attempts, (List.nodup_cons.mp distinct).2, later,
          quiet⟩

theorem attemptCall_sends {answer : AttemptAnswer} (sends : Sends setup candidates state)
    (stands : state.point = .attempting profile rest attempt) :
    Sends setup candidates (attemptCall setup state profile rest attempt answer) := by
  rw [attemptCall]
  split
  · exact sends.called stands [.reconciled] (by simp [InferEvent.call]) rfl
      (fun allowed => ⟨trivial, allowed⟩) trivial
  · next failure trace retryAfter _ =>
      rw [failAttempt]
      generalize decided : attemptDecision setup
        ((state.note (.called profile (state.circuits profile))).circuits profile) attempt failure
        trace retryAfter answer.elapsed = decision
      dsimp only
      let failed : InferEvent := .failed profile failure (classifyProviderStage trace failure)
      have again : decision.action ≠ .giveUp →
          attempt < setup.config.retryBudget.maxAttempts ∧
            (state.circuits profile).recordFailure.admitsRequests = true ∧
            isAmbiguous failure = false ∧
            resendable failure (classifyProviderStage trace failure) = true := by
        intro retries
        rw [← decided] at retries
        exact attemptDecision_retries retries
      have now : decision.action ≠ .giveUp → Sends setup candidates
          (((((state.note (.called profile (state.circuits profile))).setCircuit profile
            (state.circuits profile).recordFailure).note failed)).goTo
              (.attempting profile rest (attempt + 1))) := by
        intro retries
        obtain ⟨more, admits, plain, safe⟩ := again retries
        refine sends.called stands [failed] (by simp [failed, InferEvent.call]) rfl
          (fun allowed => ⟨trivial, allowed⟩) ?_
        refine ahead_again sends stands [] (by simp) rfl rfl more ?_ plain safe
        rw [← admits]
        exact congrArg _ (if_pos rfl)
      split
      · split
        · next eligible =>
            have plain : isAmbiguous failure = false := by
              simp only [fallbackEligible, Bool.and_eq_true, Bool.not_eq_true'] at eligible
              exact eligible.1.1.1.2
            exact sends.called stands [failed] (by simp [failed, InferEvent.call]) rfl
              (fun allowed => ⟨trivial, allowed⟩) (ahead_rest sends stands rfl rfl plain)
        · exact sends.called stands [.released _, failed] (by simp [failed, InferEvent.call]) rfl
            (fun allowed => ⟨trivial, trivial, allowed⟩) trivial
      · next action => exact now (by simp [action])
      · next action =>
          have retries : decision.action ≠ .giveUp := by simp [action]
          split
          · exact now retries
          · next positive =>
              have paced : Paced setup.config.retryBudget decision.delay answer.elapsed
                  retryAfter := attemptDecision_paced decided action (Int.not_le.mp positive)
              obtain ⟨more, admits, plain, safe⟩ := again retries
              split
              · exact sends.called stands [.waited _ _ _, failed]
                  (by simp [failed, InferEvent.call]) rfl
                  (fun allowed => ⟨paced, trivial, allowed⟩) trivial
              · refine sends.called stands [.waited _ _ _, failed]
                  (by simp [failed, InferEvent.call]) rfl
                  (fun allowed => ⟨paced, trivial, allowed⟩) ?_
                refine ahead_again sends stands [.waited _ _ _] (by simp [InferEvent.isWait]) rfl
                  rfl more ?_ plain safe
                rw [← admits]
                exact congrArg _ (if_pos rfl)

theorem inferStep_sends (answer : AttemptAnswer) (sends : Sends setup candidates state) :
    Sends setup candidates (inferStep setup state answer).1 := by
  rw [inferStep]
  split
  · next rest lastFailure stands => exact chooseCandidate_sends sends stands
  · next profile rest attempt stands => exact attemptCall_sends sends stands
  · exact sends

theorem beginInfer_sends (circuits : ModelProfileId → ProviderCircuit) (ledger : BudgetLedger)
    (distinct : candidates.Nodup) :
    Sends setup candidates (beginInfer setup circuits ledger candidates) := by
  refine ⟨trivial, ?_, fun _ => Nat.zero_le _, distinct, ?_, ?_⟩
  · intro profile made
    cases made
  · intro profile candidate
    refine ⟨candidate, fun made => ?_⟩
    cases made
  · intro profile failure stage told
    cases told

theorem Sends.total (sends : Sends setup candidates state) :
    (calls state.journal).length ≤ candidates.length * attemptLimit setup := by
  have counted := List.sum_toFinset_count_eq_length (calls state.journal)
  have each := Finset.sum_le_card_nsmul (calls state.journal).toFinset
    (fun profile => (calls state.journal).count profile) (attemptLimit setup)
    (fun profile _ => sends.attempts profile)
  have few : (calls state.journal).toFinset.card ≤ candidates.length := by
    refine Nat.le_trans (Finset.card_le_card fun profile made => ?_) candidates.toFinset_card_le
    exact List.mem_toFinset.mpr (sends.known profile (List.mem_toFinset.mp made))
  rw [counted, Nat.nsmul_eq_mul] at each
  exact Nat.le_trans each (Nat.mul_le_mul_right _ few)

end

/-- Whatever the providers answer, and whatever hints they give: every event is allowed by what
came before it, no candidate is called more often than its attempts, and all of them not more
often than that together. A hint that is read from a header keeps to its own cap. -/
theorem no_unsafe_resend (setup : InferSetup) (circuits : ModelProfileId → ProviderCircuit)
    (ledger : BudgetLedger) (router : ModelRouter) (eligible : ModelProfileId → Bool)
    (answers : List AttemptAnswer) (after : InferState)
    (reached : inferTurns setup
      (beginInfer setup circuits ledger (router.candidates eligible)) answers = after) :
    (∀ later event earlier, after.journal = later ++ event :: earlier →
        Allowed setup earlier event) ∧
      (∀ profile, (calls after.journal).count profile ≤ attemptLimit setup) ∧
      (calls after.journal).length ≤
        (router.candidates eligible).length * attemptLimit setup ∧
      ∀ date now header hint, lastRetryAfterHint date now header = some hint → hint ≤ hintCap := by
  have sends : Sends setup (router.candidates eligible) after := by
    rw [← reached]
    exact Execution.run_invariant_always (inferStep setup)
      (Sends setup (router.candidates eligible))
      (fun state answer kept => inferStep_sends answer kept) _ answers
      (beginInfer_sends circuits ledger (router.candidates_distinct eligible))
  exact ⟨fun later event earlier whole => sends.allowed.at whole, sends.attempts, sends.total,
    fun date now header hint read => lastRetryAfterHint_capped read⟩

def askedTask : TaskId := .filled 5

def overloadedAnswer : AttemptAnswer :=
  { outcome := .failed (makeModelError .providerOverloaded (ascii "busy") true)
      ⟨true, true, true⟩ none }

def soleRouter : ModelRouter := ModelRouter.registerProfile {} ⟨.nil⟩

def budgetedSetup (retry : RetryBudget) : InferSetup :=
  { config := { retryBudget := retry }, task := askedTask, budget := {}, estimate := {} }

def overloadedCall (retry : RetryBudget) : InferState :=
  inferTurns (budgetedSetup retry)
    (beginInfer (budgetedSetup retry) (fun _ => {}) {} (soleRouter.candidates fun _ => true))
    [overloadedAnswer, overloadedAnswer]

theorem resends_unbounded :
    0 < (calls (overloadedCall { maxAttempts := 0 }).journal).length ∧
      ∃ event ∈ (overloadedCall { retryAfterCap := 100 }).journal,
        event = .waited 500 { attemptsUsed := 1, retryAfterCap := 100 } none := by
  decide +kernel

theorem overloaded_call_bounded :
    (calls (overloadedCall {}).journal).length ≤
      (soleRouter.candidates fun _ => true).length * attemptLimit (budgetedSetup {}) :=
  (no_unsafe_resend (budgetedSetup {}) (fun _ => {}) {} soleRouter (fun _ => true)
    [overloadedAnswer, overloadedAnswer] (overloadedCall {}) rfl).2.2.1

end Mira.Model
