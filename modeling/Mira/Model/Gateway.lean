import Mira.Model.Spending

/-!
The supervision of providers: how far a failed exchange got, the circuit of a provider, and the
table that decides whether a call is made again and after which delay. Times are in
milliseconds.
-/

namespace Mira.Model
open Mira Bytes

inductive RequestStage
  | localRejection | preWriteFailure | partialWrite | awaitingResponse | streamBroken
  deriving DecidableEq

structure TransportTrace where
  writeStarted : Bool := false
  writeCompleted : Bool := false
  headersReceived : Bool := false

def ModelError.ofDomain (error : ModelError) (code : ModelDomainCode) : Bool :=
  error.domainCode = some code

/-- Once bytes have left the process the remote may have received the request. -/
def classifyProviderStage (trace : TransportTrace) (failure : ModelError) : RequestStage :=
  if trace.headersReceived then .awaitingResponse
  else if trace.writeCompleted || trace.writeStarted then .awaitingResponse
  else if failure.ofDomain .ambiguousCompletion then .awaitingResponse
  else .preWriteFailure

inductive CircuitState
  | unknown | healthy | degraded | openCircuit | probing
  deriving DecidableEq

structure CircuitConfig where
  consecutiveFailuresToOpen : Nat := 3
  consecutiveSuccessesToClose : Nat := 1
  deriving DecidableEq

structure ProviderCircuit where
  config : CircuitConfig := {}
  state : CircuitState := .unknown
  failures : Nat := 0
  successes : Nat := 0
  deriving DecidableEq

namespace ProviderCircuit

def recordSuccess (circuit : ProviderCircuit) : ProviderCircuit :=
  let counted := { circuit with successes := circuit.successes + 1, failures := 0 }
  match circuit.state with
  | .unknown | .degraded | .probing =>
      { counted with
        state :=
          if circuit.config.consecutiveSuccessesToClose ≤ counted.successes then .healthy
          else .degraded }
  | .healthy | .openCircuit => counted

def recordFailure (circuit : ProviderCircuit) : ProviderCircuit :=
  let counted := { circuit with failures := circuit.failures + 1, successes := 0 }
  if circuit.state = .probing then { counted with state := .openCircuit }
  else if circuit.config.consecutiveFailuresToOpen ≤ counted.failures then
    { counted with state := .openCircuit }
  else { counted with state := .degraded }

def admitsRequests (circuit : ProviderCircuit) : Bool := circuit.state ≠ .openCircuit

end ProviderCircuit

inductive RetryAction
  | retryNow | retryAfter | giveUp
  deriving DecidableEq

structure RetryBudget where
  attemptsUsed : Nat := 0
  maxAttempts : Nat := 2
  totalBudget : Int := 10000
  elapsed : Int := 0
  retryAfterCap : Int := 30000
  deriving DecidableEq

structure RetryDecision where
  action : RetryAction := .giveUp
  delay : Int := 0
  reason : Bytes := []

def giveUp (reason : String) (delay : Int := 0) : RetryDecision :=
  { action := .giveUp, delay := delay, reason := ascii reason }

/-- The delay of a retry without a hint of the server, doubled four times at most. -/
def backoffDelay (attemptsUsed : Nat) : Int := 250 * 2 ^ min attemptsUsed 4

def paced (budget : RetryBudget) (delay : Int) (within beyond : String) : RetryDecision :=
  if budget.totalBudget < budget.elapsed + delay then giveUp beyond delay
  else { action := .retryAfter, delay := delay, reason := ascii within }

/-- The server paces the retry of a limited or overloaded provider, up to the cap. -/
def pacedRetry (retryAfter : Option Int) (budget : RetryBudget) : RetryDecision :=
  match retryAfter with
  | some hint =>
      paced budget (min hint budget.retryAfterCap)
        "retryable after the server-provided delay" "retry-after delay exceeds the retry budget"
  | none =>
      paced budget (backoffDelay budget.attemptsUsed)
        "retryable with bounded backoff" "backoff delay exceeds the retry budget"

def ModelError.limited (failure : ModelError) : Bool :=
  failure.ofDomain .rateLimited || failure.ofDomain .providerOverloaded

/-- `ProviderSupervisor::evaluate`. -/
def evaluate (failure : ModelError) (stage : RequestStage) (retryAfter : Option Int)
    (budget : RetryBudget) (circuit : ProviderCircuit) : RetryDecision :=
  if budget.maxAttempts ≤ budget.attemptsUsed then giveUp "retry attempt budget exhausted"
  else if budget.totalBudget ≤ budget.elapsed then giveUp "retry time budget exhausted"
  else if circuit.admitsRequests = false then giveUp "circuit is open"
  else if failure.ofDomain .ambiguousCompletion then
    giveUp "ambiguous completion requires recovery policy, not retry"
  else
    match stage with
    | .localRejection => giveUp "local rejection never reaches the wire"
    | .preWriteFailure =>
        if failure.retryable = false then giveUp "failure is not marked retryable"
        else
          { action := .retryNow
            reason := ascii "pre-write transport failures are safe to resend" }
    | .partialWrite | .awaitingResponse | .streamBroken =>
        if failure.limited then pacedRetry retryAfter budget
        else
          giveUp "request bytes left the process; resend requires idempotency evidence"

/-- A failure after which the same provider may be called again. -/
def resendable (failure : ModelError) (stage : RequestStage) : Bool :=
  (stage = .preWriteFailure && failure.retryable) || failure.limited

/-- A delay that may be waited out: the server's up to the cap, or a backoff of four seconds at
most. -/
def boundedDelay (budget : RetryBudget) (retryAfter : Option Int) (delay : Int) : Prop :=
  budget.elapsed + delay ≤ budget.totalBudget ∧
    match retryAfter with
    | some hint => delay = min hint budget.retryAfterCap
    | none => 0 < delay ∧ delay ≤ 4000

theorem backoffDelay_bounded (attemptsUsed : Nat) :
    0 < backoffDelay attemptsUsed ∧ backoffDelay attemptsUsed ≤ 4000 := by
  have few : min attemptsUsed 4 ≤ 4 := Nat.min_le_right _ _
  rw [backoffDelay]
  generalize min attemptsUsed 4 = doubled at few
  have cases : doubled = 0 ∨ doubled = 1 ∨ doubled = 2 ∨ doubled = 3 ∨ doubled = 4 := by omega
  rcases cases with rfl | rfl | rfl | rfl | rfl <;> decide

variable {retryAfter : Option Int} {budget : RetryBudget}

theorem pacedRetry_bounded (retries : (pacedRetry retryAfter budget).action ≠ .giveUp) :
    boundedDelay budget retryAfter (pacedRetry retryAfter budget).delay := by
  cases retryAfter with
  | some hint =>
      simp only [pacedRetry, paced] at retries ⊢
      split at retries
      · exact absurd rfl retries
      · next within =>
          rw [if_neg within]
          exact ⟨Int.not_lt.mp within, rfl⟩
  | none =>
      simp only [pacedRetry, paced] at retries ⊢
      split at retries
      · exact absurd rfl retries
      · next within =>
          rw [if_neg within]
          exact ⟨Int.not_lt.mp within, backoffDelay_bounded _⟩

theorem evaluate_retries {failure : ModelError} {stage : RequestStage} {circuit : ProviderCircuit}
    {decision : RetryDecision}
    (decided : evaluate failure stage retryAfter budget circuit = decision)
    (retries : decision.action ≠ .giveUp) :
    budget.attemptsUsed < budget.maxAttempts ∧ circuit.admitsRequests = true ∧
      failure.ofDomain .ambiguousCompletion = false ∧ resendable failure stage = true ∧
      (decision.action = .retryAfter → boundedDelay budget retryAfter decision.delay) := by
  rw [evaluate.eq_def] at decided
  split at decided
  · exact absurd (decided ▸ rfl) retries
  · next attempts =>
      split at decided
      · exact absurd (decided ▸ rfl) retries
      · split at decided
        · exact absurd (decided ▸ rfl) retries
        · next admits =>
            split at decided
            · exact absurd (decided ▸ rfl) retries
            · next plain =>
                refine ⟨Nat.lt_of_not_le attempts, by simpa using admits, by simpa using plain, ?_⟩
                cases stage with
                | localRejection => exact absurd (decided ▸ rfl) retries
                | preWriteFailure =>
                    dsimp only at decided
                    split at decided
                    · exact absurd (decided ▸ rfl) retries
                    · next marked =>
                        refine ⟨by
                          simp only [Bool.not_eq_false] at marked
                          simp [resendable, marked], fun after => ?_⟩
                        rw [← decided] at after
                        cases after
                | partialWrite | awaitingResponse | streamBroken =>
                    dsimp only at decided
                    split at decided
                    · next limited =>
                        rw [← decided] at retries ⊢
                        exact ⟨by simp [resendable, limited], fun _ => pacedRetry_bounded retries⟩
                    · exact absurd (decided ▸ rfl) retries

/-!
A call of the gateway from its reservation on. The candidates are tried in order; each is called
until it answers, the supervisor gives up on it, or the wait for a retry is cancelled. A step of
the machine is one turn of a loop; what a provider answers, the clock and the context come with
it.
-/

/-- The profiles in the order of their registration, which replaces one of the same id. -/
structure ModelRouter where
  profiles : KeyedTable ModelProfileId Unit := .empty

def ModelRouter.registerProfile (router : ModelRouter) (profile : ModelProfileId) : ModelRouter :=
  ⟨router.profiles.assign profile ()⟩

/-- The candidates of a query: the profiles that satisfy it and have a provider. -/
def ModelRouter.candidates (router : ModelRouter) (eligible : ModelProfileId → Bool) :
    List ModelProfileId :=
  (router.profiles.entries.map Prod.fst).filter eligible

theorem ModelRouter.candidates_distinct (router : ModelRouter) (eligible : ModelProfileId → Bool) :
    (router.candidates eligible).Nodup :=
  router.profiles.unique.filter _

structure ModelGatewayConfig where
  retryBudget : RetryBudget := {}
  circuitConfig : CircuitConfig := {}

/-- What the call reserves for, and whom it asks. -/
structure InferSetup where
  config : ModelGatewayConfig := {}
  task : TaskId
  budget : ModelBudget
  estimate : BudgetEstimate

inductive ProviderOutcome
  | answered (usage : ModelUsage) (model : Bytes)
  | failed (failure : ModelError) (trace : TransportTrace) (retryAfter : Option Int)

structure AttemptAnswer where
  outcome : ProviderOutcome
  /-- The time since the first attempt, as it is read once and again. -/
  elapsed : Int := 0
  stillElapsed : Int := 0
  /-- The context is cancelled after the wait. -/
  cancelled : Bool := false
  now : Int := 0

inductive InferEvent
  | called (profile : ModelProfileId) (circuit : ProviderCircuit)
  | failed (profile : ModelProfileId) (failure : ModelError) (stage : RequestStage)
  | waited (delay : Int) (budget : RetryBudget) (retryAfter : Option Int)
  | released (reservation : BudgetReservation)
  | reconciled
  deriving DecidableEq

inductive InferPoint
  | candidates (rest : List ModelProfileId) (lastFailure : ModelError)
  | attempting (profile : ModelProfileId) (rest : List ModelProfileId) (attempt : Nat)
  | returned (result : ModelResult Unit)
  deriving DecidableEq

structure InferState where
  circuits : ModelProfileId → ProviderCircuit
  ledger : BudgetLedger
  /-- What was granted to the call. -/
  reservation : BudgetReservation
  point : InferPoint
  journal : List InferEvent := []

namespace InferState

def note (state : InferState) (event : InferEvent) : InferState :=
  { state with journal := event :: state.journal }

def goTo (state : InferState) (point : InferPoint) : InferState := { state with point := point }

def setCircuit (state : InferState) (profile : ModelProfileId) (circuit : ProviderCircuit) :
    InferState :=
  { state with
    circuits := fun other => if other = profile then circuit else state.circuits other }

end InferState

def circuitOpen : ModelError :=
  makeModelError .providerOverloaded (ascii "provider circuit is open")

def cancelledBackoff : ModelError :=
  makeModelError .modelCancelled (ascii "model call was cancelled during retry backoff")

def noCandidateExecuted : ModelError :=
  makeModelError .capabilityMismatch (ascii "no candidate profile executed")

def knownCircuit (config : ModelGatewayConfig) (circuit : ProviderCircuit) : ProviderCircuit :=
  if circuit.state = .unknown then { config := config.circuitConfig } else circuit

/-- The next candidate, unless its circuit is open. -/
def chooseCandidate (setup : InferSetup) (state : InferState) (lastFailure : ModelError) :
    List ModelProfileId → InferState
  | [] => state.goTo (.returned (.error lastFailure))
  | profile :: rest =>
      let circuit := knownCircuit setup.config (state.circuits profile)
      let known := state.setCircuit profile circuit
      if circuit.admitsRequests then known.goTo (.attempting profile rest 1)
      else known.goTo (.candidates rest circuitOpen)

def isAmbiguous (failure : ModelError) : Bool := failure.ofDomain .ambiguousCompletion

/-- Whether another candidate is tried after the supervisor gave up on one. -/
def fallbackEligible (setup : InferSetup) (rest : List ModelProfileId) (failure : ModelError)
    (elapsed : Int) : Bool :=
  failure.retryable && !isAmbiguous failure && failure.code ≠ .cancelled && !rest.isEmpty &&
    elapsed < setup.config.retryBudget.totalBudget

/-- The call fails and gives back its reservation, of an ambiguous failure all but the cost. -/
def failCall (setup : InferSetup) (state : InferState) (failure : ModelError) : InferState :=
  let part := releasedPart state.reservation (isAmbiguous failure)
  ({ state with ledger := (state.ledger.release setup.task part).1 }.note (.released part)).goTo
    (.returned (.error failure))

def attemptBudget (setup : InferSetup) (attempt : Nat) (elapsed : Int) : RetryBudget :=
  { setup.config.retryBudget with attemptsUsed := attempt, elapsed := elapsed }

def attemptDecision (setup : InferSetup) (circuit : ProviderCircuit) (attempt : Nat)
    (failure : ModelError) (trace : TransportTrace) (retryAfter : Option Int) (elapsed : Int) :
    RetryDecision :=
  evaluate failure (classifyProviderStage trace failure) retryAfter
    (attemptBudget setup attempt elapsed) circuit.recordFailure

def failAttempt (setup : InferSetup) (state : InferState) (profile : ModelProfileId)
    (rest : List ModelProfileId) (attempt : Nat) (failure : ModelError) (trace : TransportTrace)
    (retryAfter : Option Int) (answer : AttemptAnswer) : InferState :=
  let circuit := state.circuits profile
  let decision := attemptDecision setup circuit attempt failure trace retryAfter answer.elapsed
  let failed := (state.setCircuit profile circuit.recordFailure).note
    (.failed profile failure (classifyProviderStage trace failure))
  match decision.action with
  | .giveUp =>
      if fallbackEligible setup rest failure answer.stillElapsed then
        failed.goTo (.candidates rest failure)
      else failCall setup failed failure
  | .retryNow => failed.goTo (.attempting profile rest (attempt + 1))
  | .retryAfter =>
      if decision.delay ≤ 0 then failed.goTo (.attempting profile rest (attempt + 1))
      else
        let waited := failed.note
          (.waited decision.delay (attemptBudget setup attempt answer.elapsed) retryAfter)
        if answer.cancelled then waited.goTo (.returned (.error cancelledBackoff))
        else waited.goTo (.attempting profile rest (attempt + 1))

def attemptCall (setup : InferSetup) (state : InferState) (profile : ModelProfileId)
    (rest : List ModelProfileId) (attempt : Nat) (answer : AttemptAnswer) : InferState :=
  let calling := state.note (.called profile (state.circuits profile))
  match answer.outcome with
  | .answered usage model =>
      let settled :=
        { calling.setCircuit profile (state.circuits profile).recordSuccess with
          ledger :=
            (state.ledger.reconcile setup.task setup.budget usage model answer.now).1 }
      (settled.note .reconciled).goTo (.returned (.ok ()))
  | .failed failure trace retryAfter =>
      failAttempt setup calling profile rest attempt failure trace retryAfter answer

def inferStep (setup : InferSetup) (state : InferState) (answer : AttemptAnswer) :
    InferState × Unit :=
  match state.point with
  | .candidates rest lastFailure => (chooseCandidate setup state lastFailure rest, ())
  | .attempting profile rest attempt => (attemptCall setup state profile rest attempt answer, ())
  | .returned _ => (state, ())

/-- The call with its reservation made. -/
def beginInfer (setup : InferSetup) (circuits : ModelProfileId → ProviderCircuit)
    (ledger : BudgetLedger) (candidates : List ModelProfileId) : InferState :=
  { circuits := circuits
    ledger := (ledger.reserve setup.task setup.budget setup.estimate).1
    reservation := BudgetLedger.granted (ledger.account setup.task) setup.budget setup.estimate
    point := .candidates candidates noCandidateExecuted }

def inferTurns (setup : InferSetup) (state : InferState) (answers : List AttemptAnswer) :
    InferState :=
  Execution.run (inferStep setup) state answers

end Mira.Model
