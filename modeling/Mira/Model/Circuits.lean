import Mira.Model.Gateway

/-!
The circuits of a gateway over the calls it makes. A circuit that opens is asked no more, so what
would close it again is never recorded.
-/

namespace Mira.Model
open Mira Bytes

/-- A call past its reservation: whom it may ask, and what they answer. -/
structure InferCall where
  task : TaskId
  budget : ModelBudget
  estimate : BudgetEstimate
  candidates : List ModelProfileId
  answers : List AttemptAnswer

/-- What a gateway keeps between its calls. -/
structure GatewayState where
  circuits : ModelProfileId → ProviderCircuit := fun _ => {}
  ledger : BudgetLedger := {}

namespace InferCall

def setup (config : ModelGatewayConfig) (call : InferCall) : InferSetup :=
  { config := config, task := call.task, budget := call.budget, estimate := call.estimate }

def start (config : ModelGatewayConfig) (gateway : GatewayState) (call : InferCall) :
    InferState :=
  beginInfer (call.setup config) gateway.circuits gateway.ledger call.candidates

/-- Every provider that is called answers. -/
def Succeeds (call : InferCall) : Prop :=
  ∀ answer ∈ call.answers, ∃ usage model, answer.outcome = .answered usage model

end InferCall

def inferCall (config : ModelGatewayConfig) (gateway : GatewayState) (call : InferCall) :
    GatewayState × Unit :=
  let last := inferTurns (call.setup config) (call.start config gateway) call.answers
  (⟨last.circuits, last.ledger⟩, ())

def inferCalls (config : ModelGatewayConfig) (gateway : GatewayState) (calls : List InferCall) :
    GatewayState :=
  Execution.run (inferCall config) gateway calls

variable {setup : InferSetup} {state : InferState} {profile : ModelProfileId}

def circuitAfter (setup : InferSetup) (state : InferState) (answer : AttemptAnswer)
    (profile : ModelProfileId) : ProviderCircuit :=
  let circuit := state.circuits profile
  match state.point with
  | .candidates (asked :: _) _ =>
      if profile = asked then knownCircuit setup.config circuit else circuit
  | .attempting asked _ _ =>
      if profile = asked then
        match answer.outcome with
        | .answered _ _ => circuit.recordSuccess
        | .failed _ _ _ => circuit.recordFailure
      else circuit
  | _ => circuit

theorem failCall_circuits (failure : ModelError) :
    (failCall setup state failure).circuits = state.circuits := rfl

theorem failAttempt_circuits (asked : ModelProfileId) (rest : List ModelProfileId) (attempt : Nat)
    (failure : ModelError) (trace : TransportTrace) (retryAfter : Option Int)
    (answer : AttemptAnswer) :
    (failAttempt setup state asked rest attempt failure trace retryAfter answer).circuits =
      (state.setCircuit asked (state.circuits asked).recordFailure).circuits := by
  rw [failAttempt]
  dsimp only
  split
  · split
    · rfl
    · rw [failCall_circuits]
      rfl
  · rfl
  · split
    · rfl
    · split
      · rfl
      · rfl

theorem inferStep_circuit (answer : AttemptAnswer) (profile : ModelProfileId) :
    (inferStep setup state answer).1.circuits profile =
      circuitAfter setup state answer profile := by
  rw [inferStep, circuitAfter]
  cases state.point with
  | returned result => rfl
  | candidates rest lastFailure =>
      cases rest with
      | nil => rfl
      | cons asked rest =>
          dsimp only [chooseCandidate]
          split
          · simp only [InferState.goTo, InferState.setCircuit]
            split
            · next same => rw [same]
            · rfl
          · simp only [InferState.goTo, InferState.setCircuit]
            split
            · next same => rw [same]
            · rfl
  | attempting asked rest attempt =>
      dsimp only [attemptCall]
      cases answer.outcome with
      | answered usage model =>
          simp only [InferState.goTo, InferState.setCircuit, InferState.note]
          split
          · next same => rw [same]
          · rfl
      | failed failure trace retryAfter =>
          rw [failAttempt_circuits]
          simp only [InferState.setCircuit, InferState.note]
          split
          · next same => rw [same]
          · rfl

/-- A provider is called only while its circuit admits requests. -/
def Admitting (state : InferState) : Prop :=
  ∀ profile rest attempt, state.point = .attempting profile rest attempt →
    (state.circuits profile).admitsRequests = true

/-- Where a failed call goes on with the provider, the supervisor saw its circuit admit. -/
theorem failAttempt_again {asked : ModelProfileId} {rest : List ModelProfileId} {attempt : Nat}
    {failure : ModelError} {trace : TransportTrace} {retryAfter : Option Int}
    {answer : AttemptAnswer} {again : ModelProfileId} {left : List ModelProfileId} {next : Nat}
    (attempting :
      (failAttempt setup state asked rest attempt failure trace retryAfter answer).point =
        .attempting again left next) :
    again = asked ∧ (state.circuits asked).recordFailure.admitsRequests = true := by
  have admits (goes : (attemptDecision setup (state.circuits asked) attempt failure trace
      retryAfter answer.elapsed).action ≠ .giveUp) :
      (state.circuits asked).recordFailure.admitsRequests = true :=
    (evaluate_retries rfl goes).2.1
  rw [failAttempt] at attempting
  dsimp only at attempting
  split at attempting
  · split at attempting
    · cases attempting
    · cases attempting
  · next now =>
      cases attempting
      exact ⟨rfl, admits (by simp [now])⟩
  · next later =>
      split at attempting
      · cases attempting
        exact ⟨rfl, admits (by simp [later])⟩
      · split at attempting
        · cases attempting
        · cases attempting
          exact ⟨rfl, admits (by simp [later])⟩

theorem admitting_step (answer : AttemptAnswer) :
    Admitting (inferStep setup state answer).1 := by
  intro profile rest attempt attempting
  rw [inferStep_circuit, circuitAfter]
  rw [inferStep] at attempting
  cases point : state.point with
  | returned result =>
      rw [point] at attempting
      exact absurd (point.symm.trans attempting) (by simp)
  | candidates waiting lastFailure =>
      rw [point] at attempting
      cases waiting with
      | nil => cases attempting
      | cons asked waiting =>
          dsimp only [chooseCandidate] at attempting ⊢
          split at attempting
          · next admits =>
              cases attempting
              rw [if_pos rfl]
              exact admits
          · cases attempting
  | attempting asked waiting tried =>
      rw [point] at attempting
      dsimp only [attemptCall] at attempting ⊢
      cases outcome : answer.outcome with
      | answered usage model =>
          rw [outcome] at attempting
          cases attempting
      | failed failure trace retryAfter =>
          rw [outcome] at attempting
          obtain ⟨rfl, admits⟩ := failAttempt_again attempting
          rw [if_pos rfl]
          exact admits

/-- An attempt that fails leaves the circuit short of the failures that open it. -/
def Spares (profile : ModelProfileId) (state : InferState) (answer : AttemptAnswer) : Prop :=
  ∀ rest attempt failure trace retryAfter, state.point = .attempting profile rest attempt →
    answer.outcome = .failed failure trace retryAfter →
    (state.circuits profile).failures + 1 <
      (state.circuits profile).config.consecutiveFailuresToOpen

/-- No circuit is ever probing. -/
def Unprobed (circuit : ProviderCircuit) : Prop := circuit.state ≠ .probing

theorem knownCircuit_unprobed {config : ModelGatewayConfig} {circuit : ProviderCircuit}
    (unprobed : Unprobed circuit) : Unprobed (knownCircuit config circuit) := by
  rw [knownCircuit]
  split
  · exact CircuitState.noConfusion
  · exact unprobed

theorem recordSuccess_unprobed {circuit : ProviderCircuit} (unprobed : Unprobed circuit) :
    Unprobed circuit.recordSuccess := by
  rw [Unprobed, ProviderCircuit.recordSuccess]
  cases state : circuit.state <;> dsimp only
  case probing => exact absurd state unprobed
  case healthy | openCircuit => exact CircuitState.noConfusion
  all_goals
    split
    · exact CircuitState.noConfusion
    · exact CircuitState.noConfusion

theorem recordFailure_unprobed (circuit : ProviderCircuit) : Unprobed circuit.recordFailure := by
  rw [Unprobed, ProviderCircuit.recordFailure]
  dsimp only
  split
  · exact CircuitState.noConfusion
  · split
    · exact CircuitState.noConfusion
    · exact CircuitState.noConfusion

theorem circuitAfter_unprobed (answer : AttemptAnswer) (profile : ModelProfileId)
    (unprobed : Unprobed (state.circuits profile)) :
    Unprobed (circuitAfter setup state answer profile) := by
  rw [circuitAfter]
  split
  · split
    · exact knownCircuit_unprobed unprobed
    · exact unprobed
  · split
    · split
      · exact recordSuccess_unprobed unprobed
      · exact recordFailure_unprobed _
    · exact unprobed
  · exact unprobed

theorem knownCircuit_admits (config : ModelGatewayConfig) (circuit : ProviderCircuit) :
    (knownCircuit config circuit).admitsRequests = circuit.admitsRequests := by
  rw [knownCircuit]
  split
  · next unknown => simp [ProviderCircuit.admitsRequests, unknown]
  · rfl

theorem recordSuccess_admits {circuit : ProviderCircuit}
    (admits : circuit.admitsRequests = true) : circuit.recordSuccess.admitsRequests = true := by
  rw [ProviderCircuit.admitsRequests, decide_eq_true_eq] at admits ⊢
  rw [ProviderCircuit.recordSuccess]
  cases state : circuit.state <;> dsimp only
  case openCircuit => exact absurd state admits
  case healthy => exact CircuitState.noConfusion
  all_goals
    split
    · exact CircuitState.noConfusion
    · exact CircuitState.noConfusion

theorem recordFailure_admits_iff {circuit : ProviderCircuit} (unprobed : Unprobed circuit) :
    circuit.recordFailure.admitsRequests = true ↔
      circuit.failures + 1 < circuit.config.consecutiveFailuresToOpen := by
  rw [ProviderCircuit.admitsRequests, decide_eq_true_eq, ProviderCircuit.recordFailure,
    if_neg unprobed]
  dsimp only
  split
  · next opens => exact iff_of_false (fun closed => closed rfl) (Nat.not_lt.mpr opens)
  · next short => exact iff_of_true CircuitState.noConfusion (Nat.lt_of_not_le short)

/-- A turn keeps a circuit admitting exactly where it spares it, and opens none again. -/
theorem circuitAfter_admits_iff {answer : AttemptAnswer} (admitting : Admitting state)
    (unprobed : Unprobed (state.circuits profile)) :
    (circuitAfter setup state answer profile).admitsRequests = true ↔
      (state.circuits profile).admitsRequests = true ∧ Spares profile state answer := by
  rw [circuitAfter, Spares]
  cases point : state.point with
  | returned result => simp
  | candidates waiting lastFailure =>
      cases waiting with
      | nil => simp
      | cons asked waiting =>
          dsimp only
          split
          · rw [knownCircuit_admits]
            simp
          · simp
  | attempting asked waiting tried =>
      dsimp only
      split
      · next same =>
          subst same
          have admits := admitting _ _ _ point
          cases outcome : answer.outcome with
          | answered usage model => simp [recordSuccess_admits admits, admits]
          | failed failure trace retryAfter =>
              rw [recordFailure_admits_iff unprobed]
              refine ⟨fun short => ⟨admits, fun _ _ _ _ _ _ _ => short⟩, fun spared => ?_⟩
              exact spared.2 waiting tried failure trace retryAfter rfl rfl
      · next other =>
          simp only [InferPoint.attempting.injEq, and_imp]
          exact ⟨fun admits => ⟨admits, fun _ _ _ _ _ same => absurd same.symm other⟩, And.left⟩

/-- What the turns of a call rely on. -/
def Sound (profile : ModelProfileId) (state : InferState) : Prop :=
  Admitting state ∧ Unprobed (state.circuits profile)

theorem sound_step (answer : AttemptAnswer) (sound : Sound profile state) :
    Sound profile (inferStep setup state answer).1 := by
  refine ⟨admitting_step answer, ?_⟩
  rw [inferStep_circuit]
  exact circuitAfter_unprobed answer profile sound.2

/-- No attempt of the call opens the circuit of the provider. -/
def SparesCall (config : ModelGatewayConfig) (profile : ModelProfileId) (gateway : GatewayState)
    (call : InferCall) : Prop :=
  Execution.Guarded (inferStep (call.setup config)) (Spares profile) (call.start config gateway)
    call.answers

variable {config : ModelGatewayConfig}

theorem inferCall_unprobed (gateway : GatewayState) (call : InferCall)
    (unprobed : Unprobed (gateway.circuits profile)) :
    Unprobed ((inferCall config gateway call).1.circuits profile) := by
  have start : Sound profile (call.start config gateway) := by
    refine ⟨?_, unprobed⟩
    intro asked rest attempt attempting
    cases attempting
  exact (Execution.run_invariant_always (inferStep (call.setup config)) (Sound profile)
    (fun _ answer sound => sound_step answer sound) _ call.answers start).2

theorem inferCall_admits_iff (gateway : GatewayState) (call : InferCall)
    (unprobed : Unprobed (gateway.circuits profile)) :
    ((inferCall config gateway call).1.circuits profile).admitsRequests = true ↔
      (gateway.circuits profile).admitsRequests = true ∧
        SparesCall config profile gateway call := by
  have start : Sound profile (call.start config gateway) := by
    refine ⟨?_, unprobed⟩
    intro asked rest attempt attempting
    cases attempting
  exact Execution.run_survives (inferStep (call.setup config)) (Spares profile) (Sound profile)
    (fun state => (state.circuits profile).admitsRequests = true)
    (fun _ answer sound => sound_step answer sound)
    (fun state answer sound => by
      rw [inferStep_circuit]
      exact circuitAfter_admits_iff sound.1 sound.2) _ call.answers start

theorem inferCalls_admits_iff (ledger : BudgetLedger) (calls : List InferCall) :
    ((inferCalls config { ledger := ledger } calls).circuits profile).admitsRequests = true ↔
      Execution.Guarded (inferCall config) (SparesCall config profile) { ledger := ledger }
        calls := by
  have survives := Execution.run_survives (inferCall config) (SparesCall config profile)
    (fun gateway => Unprobed (gateway.circuits profile))
    (fun gateway => (gateway.circuits profile).admitsRequests = true)
    (fun gateway call unprobed => inferCall_unprobed gateway call unprobed)
    (fun gateway call unprobed => inferCall_admits_iff gateway call unprobed)
    { ledger := ledger } calls CircuitState.noConfusion
  exact survives.trans (and_iff_right rfl)

/-- After a history of calls a provider can come back by calls that all succeed exactly if no
attempt of the history opened its circuit: an open circuit is asked no more. -/
theorem provider_returns_iff (config : ModelGatewayConfig) (ledger : BudgetLedger)
    (profile : ModelProfileId) (history : List InferCall) :
    (∃ continuation : List InferCall, (∀ call ∈ continuation, call.Succeeds) ∧
      ((inferCalls config { ledger := ledger } (history ++ continuation)).circuits
        profile).admitsRequests = true) ↔
      Execution.Guarded (inferCall config) (SparesCall config profile) { ledger := ledger }
        history := by
  constructor
  · intro ⟨continuation, _, admits⟩
    rw [inferCalls_admits_iff, Execution.guarded_append] at admits
    exact admits.1
  · intro spared
    refine ⟨[], fun call absent => absurd absent (by simp), ?_⟩
    rw [List.append_nil, inferCalls_admits_iff]
    exact spared

def refusedConnection : ModelError :=
  makeModelError .transportFailed (ascii "connection refused") true

def refusedAnswer : AttemptAnswer := { outcome := .failed refusedConnection {} none }

def refusedProfile : ModelProfileId := ⟨⟨List.replicate 16 1, by simp⟩⟩

/-- A call of one provider whose connection is refused once and again. -/
def refusedCall : InferCall :=
  { task := .filled 5
    budget := {}
    estimate := {}
    candidates := [refusedProfile]
    answers := [refusedAnswer, refusedAnswer, refusedAnswer] }

/-- After two calls whose four attempts could not connect the provider is refused for ever. -/
theorem refused_for_ever :
    ¬∃ continuation : List InferCall, (∀ call ∈ continuation, call.Succeeds) ∧
      ((inferCalls {} {} ([refusedCall, refusedCall] ++ continuation)).circuits
        refusedProfile).admitsRequests = true := by
  intro ⟨continuation, _, admits⟩
  have later := (inferCalls_admits_iff {} _).mp admits
  rw [Execution.guarded_append] at later
  have open_ := (inferCalls_admits_iff {} [refusedCall, refusedCall]).mpr later.1
  revert open_
  decide

end Mira.Model
