import Mira.Library.Interleaving
import Mira.Model.Contracts

/-!
The calls of a task against its budget. A call asks for a reservation, and holds it until the
usage is reported or the call fails. The ledger checks an estimate with what is reserved at the
time; what was reported has left the reservation by then, and a release may have taken the
reservations of others with it. As long as the reservation stands for every call that was
admitted, and covers what is charged, the check of the ledger keeps the task within its budget.
-/

namespace Mira.Model
open Mira Bytes

structure ModelBudget.Limited (budget : ModelBudget) : Prop where
  inputs : budget.maxInputTokens ≠ 0
  outputs : budget.maxOutputTokens ≠ 0
  requests : budget.maxRequests ≠ 0
  cost : budget.maxTotalCostMicros ≠ 0

namespace BudgetLedger

section
variable {ledger : BudgetLedger} {task : TaskId} {budget : ModelBudget}
variable {estimate : BudgetEstimate}

theorem account_assign (ledger : BudgetLedger) (task other : TaskId) (account : BudgetAccount) :
    { ledger with accounts := ledger.accounts.assign task account }.account other =
      if other = task then account else ledger.account other := by
  rw [BudgetLedger.account, KeyedTable.find?_assign]
  by_cases own : other = task
  · rw [if_pos own, if_pos own, Option.getD_some]
  · rw [if_neg own, if_neg own, BudgetLedger.account]

theorem account_open (ledger : BudgetLedger) (task other : TaskId) :
    { ledger with accounts := ledger.accounts.emplace task {} }.account other =
      ledger.account other := by
  rw [BudgetLedger.account, KeyedTable.find?_emplace, BudgetLedger.account]
  by_cases own : other = task
  · rw [if_pos own, Option.getD_some, own]
  · rw [if_neg own]

theorem saturatingAdd_eq {left right : Nat} (fits : right ≤ maxWord - left) :
    saturatingAdd left right = left + right := by
  rw [saturatingAdd, if_neg (Nat.not_lt.2 fits)]

theorem reserve_refused {error : ModelError}
    (refused : refusal (ledger.account task) budget estimate = some error) (other : TaskId) :
    (ledger.reserve task budget estimate).1.account other = ledger.account other ∧
      (ledger.reserve task budget estimate).2 = .error error := by
  simp only [reserve, refused]
  exact ⟨account_open ledger task other, trivial⟩

theorem reserve_granted (free : refusal (ledger.account task) budget estimate = none)
    (other : TaskId) :
    (ledger.reserve task budget estimate).1.account other =
        (if other = task then
          { ledger.account task with
            reserved := (ledger.account task).reserved.add estimate }
        else ledger.account other) ∧
      (ledger.reserve task budget estimate).2 =
        .ok (granted (ledger.account task) budget estimate) := by
  simp only [reserve, free]
  exact ⟨account_assign ledger task other _, trivial⟩

/-- What the check of an estimate says in the task scope, where every limit is set. -/
theorem within_limits (scope : budget.scope = .task) (limited : budget.Limited)
    (free : refusal (ledger.account task) budget estimate = none) :
    (ledger.reserved task).inputTokens + estimate.inputTokens ≤ budget.maxInputTokens ∧
      (ledger.reserved task).outputTokens + estimate.outputTokens ≤ budget.maxOutputTokens ∧
      (ledger.reserved task).requests + estimate.requests ≤ budget.maxRequests ∧
      (ledger.reserved task).costMicros + estimate.costMicros ≤ budget.maxTotalCostMicros := by
  obtain ⟨inputs, outputs, requests, cost⟩ := limited
  simp only [refusal, scope] at free
  split at free
  · cases free
  · split at free
    · cases free
    · next fits =>
        simp only [BudgetReservation.overflows, Bool.or_eq_true, decide_eq_true_eq,
          not_or, Nat.not_lt] at fits
        obtain ⟨⟨⟨fitsInputs, fitsOutputs⟩, fitsRequests⟩, fitsCost⟩ := fits
        simp only [checkLimits, BudgetReservation.add, saturatingAdd_eq fitsInputs,
          saturatingAdd_eq fitsOutputs, saturatingAdd_eq fitsRequests,
          saturatingAdd_eq fitsCost] at free
        rw [BudgetLedger.reserved]
        split at free
        · cases free
        · split at free
          · cases free
          · split at free
            · cases free
            · split at free
              · cases free
              · omega

/-- The cost that a reconciliation charges, if it charges any. -/
def charge (ledger : BudgetLedger) (task : TaskId) (budget : ModelBudget) (usage : ModelUsage)
    (model : Bytes) (now : Int) : Option Nat :=
  match ledger.accounts.find? task, chargeable (ledger.priceFor budget model now) usage with
  | some _, .ok price => some (usageCost price usage)
  | _, _ => none

theorem reconcile_account (ledger : BudgetLedger) (task : TaskId) (budget : ModelBudget)
    (usage : ModelUsage) (model : Bytes) (now : Int) (other : TaskId) :
    (ledger.reconcile task budget usage model now).1.account other =
      if other = task then
        ((ledger.charge task budget usage model now).map
          (charged (ledger.account task) usage)).getD (ledger.account task)
      else ledger.account other := by
  have unchanged : ledger.account other =
      if other = task then ledger.account task else ledger.account other := by
    by_cases own : other = task
    · rw [if_pos own, own]
    · rw [if_neg own]
  rw [reconcile, charge]
  cases found : ledger.accounts.find? task with
  | none => exact unchanged
  | some account =>
      have own : ledger.account task = account := by
        rw [BudgetLedger.account, found, Option.getD_some]
      cases price : chargeable (ledger.priceFor budget model now) usage with
      | error reason => exact unchanged
      | ok price =>
          dsimp only
          rw [account_assign, own]
          rfl

theorem release_account (ledger : BudgetLedger) (task : TaskId) (reservation : BudgetReservation)
    (other : TaskId) :
    (ledger.release task reservation).1.account other =
      if other = task then
        { ledger.account task with
          reserved := (ledger.account task).reserved.drop reservation }
      else ledger.account other := by
  rw [release]
  cases found : ledger.accounts.find? task with
  | none =>
      by_cases own : other = task
      · rw [if_pos own, own]
        simp [BudgetLedger.account, found, BudgetReservation.drop]
      · rw [if_neg own]
  | some account =>
      have own : ledger.account task = account := by
        rw [BudgetLedger.account, found, Option.getD_some]
      dsimp only
      rw [account_assign, own]

theorem saturatingAdd_le (left right : Nat) : saturatingAdd left right ≤ left + right := by
  rw [saturatingAdd]
  split
  · omega
  · exact Nat.le_refl _

end

end BudgetLedger

/-- Where a call of the gateway stands with the ledger. -/
inductive CallPoint
  | asking (task : TaskId) (budget : ModelBudget) (estimate : BudgetEstimate)
  | holding (task : TaskId) (budget : ModelBudget) (estimate : BudgetEstimate)
      (reservation : BudgetReservation)
  | settled (task : TaskId) (usage : ModelUsage)

/-- How a call ends. Of an ambiguous failure the cost stays reserved. -/
inductive CallOutcome
  | answered (usage : ModelUsage) (model : Bytes) (now : Int)
  | failed (ambiguous : Bool)

/-- What a call that failed gives back. -/
def releasedPart (reservation : BudgetReservation) (ambiguous : Bool) : BudgetReservation :=
  if ambiguous then { reservation with costMicros := 0 } else reservation

def advanceCall (ledger : BudgetLedger) (point : CallPoint) (outcome : CallOutcome) :
    BudgetLedger × List CallPoint :=
  match point with
  | .asking task budget estimate =>
      match ledger.reserve task budget estimate with
      | (ledger, .error _) => (ledger, [])
      | (ledger, .ok reservation) => (ledger, [.holding task budget estimate reservation])
  | .holding task budget _ reservation =>
      match outcome with
      | .answered usage model now =>
          ((ledger.reconcile task budget usage model now).1, [.settled task usage])
      | .failed ambiguous =>
          ((ledger.release task (releasedPart reservation ambiguous)).1, [])
  | .settled task usage => (ledger, [.settled task usage])

structure BudgetCall where
  task : TaskId
  budget : ModelBudget
  estimate : BudgetEstimate

def enterBudget (call : BudgetCall) : CallPoint := .asking call.task call.budget call.estimate

abbrev BudgetPool := Interleaving.Pool BudgetLedger CallPoint
abbrev BudgetTurn := Interleaving.Turn BudgetCall CallOutcome

def budgetMachine : BudgetPool → BudgetTurn → BudgetPool × Unit :=
  Interleaving.takeTurn enterBudget advanceCall

/-- The calls on a new ledger with the prices. -/
def budgetTurns (prices : PriceTable) (turns : List BudgetTurn) : BudgetPool :=
  Execution.run budgetMachine ⟨{ prices := prices }, []⟩ turns

namespace CallPoint

def admitted (task : TaskId) : CallPoint → Bool
  | .asking _ _ _ => false
  | .holding own _ _ _ | .settled own _ => own = task

/-- The input tokens that a call has reported, or else may use. -/
def inputs (task : TaskId) : CallPoint → Nat
  | .asking _ _ _ => 0
  | .holding own _ estimate _ => if own = task then estimate.inputTokens else 0
  | .settled own usage => if own = task then usage.inputTokens.getD 0 else 0

def outputs (task : TaskId) : CallPoint → Nat
  | .asking _ _ _ => 0
  | .holding own _ estimate _ => if own = task then estimate.outputTokens else 0
  | .settled own usage => if own = task then usage.outputTokens.getD 0 else 0

def reportedInputs (task : TaskId) : CallPoint → Nat
  | .settled own usage => if own = task then usage.inputTokens.getD 0 else 0
  | _ => 0

def reportedOutputs (task : TaskId) : CallPoint → Nat
  | .settled own usage => if own = task then usage.outputTokens.getD 0 else 0
  | _ => 0

end CallPoint

def admittedCalls (task : TaskId) (calls : List CallPoint) : Nat :=
  calls.countP (CallPoint.admitted task)

def totalOf (amount : CallPoint → Nat) (calls : List CallPoint) : Nat := (calls.map amount).sum

/-- A call as the gateway makes it: for one request, with the budget of its task, and a usage
within the estimate. -/
def Issued (task : TaskId) (budget : ModelBudget) (_ : BudgetLedger) (point : CallPoint)
    (_ : List CallPoint) (outcome : CallOutcome) : Prop :=
  match point, outcome with
  | .asking own asked estimate, _ => own = task → asked = budget ∧ estimate.requests = 1
  | .holding own _ estimate _, .answered usage _ _ =>
      own = task → usage.inputTokens.getD 0 ≤ estimate.inputTokens ∧
        usage.outputTokens.getD 0 ≤ estimate.outputTokens
  | _, _ => True

/-- The reservation of the task stands for every call that was admitted and not released, and
nothing was charged. -/
def ReservationStands (task : TaskId) (account : BudgetAccount) (others : List CallPoint) :
    Prop :=
  admittedCalls task others ≤ account.reserved.requests ∧
    totalOf (CallPoint.inputs task) others ≤ account.reserved.inputTokens ∧
    totalOf (CallPoint.outputs task) others ≤ account.reserved.outputTokens ∧
    account.spentMicros = 0

/-- A charge is no more than the cost that is reserved and is released with it. -/
def ChargeReserved (account : BudgetAccount) (usage : ModelUsage) (cost : Nat) : Prop :=
  usage.quality ≠ .partialUsage ∧ cost ≤ account.reserved.costMicros

/-- The reservation stands for the calls whenever the ledger admits another, and for a charge. -/
def ReservedThroughout (task : TaskId) (ledger : BudgetLedger) (point : CallPoint)
    (others : List CallPoint) (outcome : CallOutcome) : Prop :=
  match point, outcome with
  | .asking own asked estimate, _ =>
      own = task → BudgetLedger.refusal (ledger.account task) asked estimate = none →
        ReservationStands task (ledger.account task) others
  | .holding own asked _ _, .answered usage model now =>
      own = task → ∀ cost ∈ ledger.charge task asked usage model now,
        ChargeReserved (ledger.account task) usage cost
  | _, _ => True

/-- The task is within its budget, whatever its open calls use of their estimates. -/
structure BudgetKept (task : TaskId) (budget : ModelBudget) (ledger : BudgetLedger)
    (calls : List CallPoint) : Prop where
  requests : admittedCalls task calls ≤ budget.maxRequests
  inputs : totalOf (CallPoint.inputs task) calls ≤ budget.maxInputTokens
  outputs : totalOf (CallPoint.outputs task) calls ≤ budget.maxOutputTokens
  cost : ledger.spentMicros task + (ledger.reserved task).costMicros ≤ budget.maxTotalCostMicros

section
variable {task own : TaskId} {budget asked : ModelBudget} {ledger later : BudgetLedger}
variable {point : CallPoint} {calls others : List CallPoint} {estimate : BudgetEstimate}

theorem admittedCalls_cons (task : TaskId) (point : CallPoint) (calls : List CallPoint) :
    admittedCalls task (point :: calls) =
      admittedCalls task calls + if point.admitted task then 1 else 0 :=
  List.countP_cons

variable (amount : CallPoint → Nat)

theorem totalOf_cons (point : CallPoint) (calls : List CallPoint) :
    totalOf amount (point :: calls) = amount point + totalOf amount calls :=
  List.sum_cons

theorem totalOf_perm (same : calls.Perm others) : totalOf amount calls = totalOf amount others :=
  (same.map amount).sum_eq

theorem totalOf_mono {first second : CallPoint → Nat} (less : ∀ point, first point ≤ second point)
    (calls : List CallPoint) : totalOf first calls ≤ totalOf second calls := by
  induction calls with
  | nil => exact Nat.le_refl _
  | cons point rest ih =>
      rw [totalOf_cons, totalOf_cons]
      exact Nat.add_le_add (less point) ih

theorem BudgetKept.rest (kept : BudgetKept task budget ledger (point :: calls)) :
    BudgetKept task budget ledger calls := by
  obtain ⟨requests, inputs, outputs, cost⟩ := kept
  rw [admittedCalls_cons] at requests
  rw [totalOf_cons] at inputs outputs
  exact ⟨by omega, by omega, by omega, cost⟩

theorem BudgetKept.lower (kept : BudgetKept task budget ledger calls)
    (spent : later.spentMicros task ≤ ledger.spentMicros task)
    (reserved : (later.reserved task).costMicros ≤ (ledger.reserved task).costMicros) :
    BudgetKept task budget later calls :=
  ⟨kept.requests, kept.inputs, kept.outputs, by have := kept.cost; omega⟩

theorem BudgetKept.same (kept : BudgetKept task budget ledger calls)
    (account : later.account task = ledger.account task) : BudgetKept task budget later calls := by
  have spent : later.spentMicros task = ledger.spentMicros task :=
    congrArg BudgetAccount.spentMicros account
  have reserved : later.reserved task = ledger.reserved task :=
    congrArg BudgetAccount.reserved account
  exact kept.lower (Nat.le_of_eq spent) (Nat.le_of_eq (congrArg BudgetReservation.costMicros reserved))

variable (outcome : CallOutcome)

theorem kept_reserve (scope : budget.scope = .task) (limited : budget.Limited)
    (held : ReservedThroughout task ledger (.asking own asked estimate) others outcome)
    (issued : Issued task budget ledger (.asking own asked estimate) others outcome)
    (kept : BudgetKept task budget ledger (.asking own asked estimate :: others)) :
    BudgetKept task budget (advanceCall ledger (.asking own asked estimate) outcome).1
      ((advanceCall ledger (.asking own asked estimate) outcome).2 ++ others) := by
  have rest := kept.rest
  cases free : BudgetLedger.refusal (ledger.account own) asked estimate with
  | some error =>
      obtain ⟨account, result⟩ := BudgetLedger.reserve_refused free task
      have turn : advanceCall ledger (.asking own asked estimate) outcome =
          ((ledger.reserve own asked estimate).1, []) := by
        rw [advanceCall]
        generalize ledger.reserve own asked estimate = reserved at result
        obtain ⟨after, answer⟩ := reserved
        cases result
        rfl
      rw [turn]
      exact rest.same account
  | none =>
      obtain ⟨account, result⟩ := BudgetLedger.reserve_granted free task
      have turn : advanceCall ledger (.asking own asked estimate) outcome =
          ((ledger.reserve own asked estimate).1,
            [.holding own asked estimate
              (BudgetLedger.granted (ledger.account own) asked estimate)]) := by
        rw [advanceCall]
        generalize ledger.reserve own asked estimate = reserved at result
        obtain ⟨after, answer⟩ := reserved
        cases result
        rfl
      rw [turn]
      by_cases mine : own = task
      · obtain ⟨same, one⟩ := issued mine
        rw [mine, same] at free
        obtain ⟨requests, inputs, outputs, unspent⟩ := held mine (same.symm ▸ free)
        obtain ⟨roomInputs, roomOutputs, roomRequests, roomCost⟩ :=
          BudgetLedger.within_limits scope limited free
        rw [BudgetLedger.reserved] at roomInputs roomOutputs roomRequests roomCost
        rw [if_pos mine.symm, mine] at account
        have added := BudgetLedger.saturatingAdd_le (ledger.account task).reserved.costMicros
          estimate.costMicros
        refine ⟨?_, ?_, ?_, ?_⟩
        · rw [List.singleton_append, admittedCalls_cons]
          simp only [CallPoint.admitted, mine, decide_true, if_true]
          omega
        · rw [List.singleton_append, totalOf_cons]
          simp only [CallPoint.inputs, mine, if_true]
          omega
        · rw [List.singleton_append, totalOf_cons]
          simp only [CallPoint.outputs, mine, if_true]
          omega
        · rw [BudgetLedger.spentMicros, BudgetLedger.reserved, mine, account]
          change (ledger.account task).spentMicros + saturatingAdd _ _ ≤ _
          omega
      · rw [if_neg (Ne.symm mine)] at account
        have others := rest.same account
        refine ⟨?_, ?_, ?_, others.cost⟩
        · rw [List.singleton_append, admittedCalls_cons]
          simpa [CallPoint.admitted, mine] using others.requests
        · rw [List.singleton_append, totalOf_cons]
          simpa [CallPoint.inputs, mine] using others.inputs
        · rw [List.singleton_append, totalOf_cons]
          simpa [CallPoint.outputs, mine] using others.outputs

variable (reservation : BudgetReservation)

theorem kept_reconcile (usage : ModelUsage) (model : Bytes) (now : Int)
    (held : ReservedThroughout task ledger (.holding own asked estimate reservation) others
      (.answered usage model now))
    (issued : Issued task budget ledger (.holding own asked estimate reservation) others
      (.answered usage model now))
    (kept : BudgetKept task budget ledger (.holding own asked estimate reservation :: others)) :
    BudgetKept task budget (ledger.reconcile own asked usage model now).1
      (.settled own usage :: others) := by
  have account := BudgetLedger.reconcile_account ledger own asked usage model now task
  obtain ⟨requests, inputs, outputs, cost⟩ := kept
  rw [admittedCalls_cons] at requests
  rw [totalOf_cons] at inputs outputs
  have fewer : (CallPoint.settled own usage).inputs task ≤
      (CallPoint.holding own asked estimate reservation).inputs task := by
    by_cases mine : own = task
    · simpa [CallPoint.inputs, mine] using (issued mine).1
    · simp [CallPoint.inputs, mine]
  have less : (CallPoint.settled own usage).outputs task ≤
      (CallPoint.holding own asked estimate reservation).outputs task := by
    by_cases mine : own = task
    · simpa [CallPoint.outputs, mine] using (issued mine).2
    · simp [CallPoint.outputs, mine]
  refine ⟨?_, ?_, ?_, ?_⟩
  · rw [admittedCalls_cons]
    exact requests
  · rw [totalOf_cons]
    omega
  · rw [totalOf_cons]
    omega
  · rw [BudgetLedger.spentMicros, BudgetLedger.reserved, account]
    by_cases mine : own = task
    · rw [if_pos mine.symm]
      cases charged : ledger.charge own asked usage model now with
      | none =>
          rw [Option.map_none, Option.getD_none, mine]
          exact cost
      | some amount =>
          obtain ⟨whole, covered⟩ := held mine amount (mine ▸ charged)
          rw [Option.map_some, Option.getD_some, mine]
          have added := BudgetLedger.saturatingAdd_le (ledger.account task).spentMicros amount
          rw [BudgetLedger.spentMicros, BudgetLedger.reserved] at cost
          change saturatingAdd _ _ + (_ - _) ≤ _
          rw [if_neg whole]
          change saturatingAdd _ _ + (_ - amount) ≤ _
          omega
    · rw [if_neg (Ne.symm mine)]
      exact cost

theorem kept_release (kept : BudgetKept task budget ledger calls) :
    BudgetKept task budget (ledger.release own reservation).1 calls := by
  have account := BudgetLedger.release_account ledger own reservation task
  by_cases mine : own = task
  · rw [if_pos mine.symm, mine] at account
    have spent : (ledger.release own reservation).1.spentMicros task = ledger.spentMicros task := by
      rw [BudgetLedger.spentMicros, mine, account]
      rfl
    have reserved : ((ledger.release own reservation).1.reserved task).costMicros ≤
        (ledger.reserved task).costMicros := by
      rw [BudgetLedger.reserved, mine, account]
      exact Nat.sub_le _ _
    exact kept.lower (Nat.le_of_eq spent) reserved
  · rw [if_neg (Ne.symm mine)] at account
    exact kept.same account

theorem kept_turn (scope : budget.scope = .task) (limited : budget.Limited)
    (held : ReservedThroughout task ledger point others outcome)
    (issued : Issued task budget ledger point others outcome)
    (kept : BudgetKept task budget ledger (point :: others)) :
    BudgetKept task budget (advanceCall ledger point outcome).1
      ((advanceCall ledger point outcome).2 ++ others) := by
  cases point with
  | asking own asked estimate => exact kept_reserve outcome scope limited held issued kept
  | holding own asked estimate reservation =>
      cases outcome with
      | answered usage model now =>
          exact kept_reconcile reservation usage model now held issued kept
      | failed ambiguous => exact kept_release _ kept.rest
  | settled own usage => exact kept

end

instance decidableIssued (task : TaskId) (budget : ModelBudget) (ledger : BudgetLedger)
    (others : List CallPoint) : ∀ point outcome,
      Decidable (Issued task budget ledger point others outcome)
  | .asking _ _ _, _ => inferInstanceAs (Decidable (_ → _ ∧ _))
  | .holding _ _ _ _, .answered _ _ _ => inferInstanceAs (Decidable (_ → _ ∧ _))
  | .holding _ _ _ _, .failed _ => .isTrue trivial
  | .settled _ _, _ => .isTrue trivial

instance (budget : ModelBudget) : Decidable budget.Limited :=
  decidable_of_iff
    (budget.maxInputTokens ≠ 0 ∧ budget.maxOutputTokens ≠ 0 ∧ budget.maxRequests ≠ 0 ∧
      budget.maxTotalCostMicros ≠ 0)
    ⟨fun set => ⟨set.1, set.2.1, set.2.2.1, set.2.2.2⟩,
      fun set => ⟨set.inputs, set.outputs, set.requests, set.cost⟩⟩

instance (task : TaskId) (account : BudgetAccount) (others : List CallPoint) :
    Decidable (ReservationStands task account others) :=
  inferInstanceAs (Decidable (_ ∧ _))

instance (account : BudgetAccount) (usage : ModelUsage) (cost : Nat) :
    Decidable (ChargeReserved account usage cost) :=
  inferInstanceAs (Decidable (_ ∧ _))

instance decidableReservedThroughout (task : TaskId) (ledger : BudgetLedger)
    (others : List CallPoint) : ∀ point outcome,
      Decidable (ReservedThroughout task ledger point others outcome)
  | .asking _ _ _, _ => inferInstanceAs (Decidable (_ → _ → _))
  | .holding _ _ _ _, .answered _ _ _ => inferInstanceAs (Decidable (_ → ∀ cost ∈ _, _))
  | .holding _ _ _ _, .failed _ => .isTrue trivial
  | .settled _ _, _ => .isTrue trivial

/-- The check of the ledger keeps the calls of a task within its budget as long as the
reservation stands for those that it admitted. -/
theorem task_budget_kept (task : TaskId) (budget : ModelBudget) (prices : PriceTable)
    (turns : List BudgetTurn) (scope : budget.scope = .task) (limited : budget.Limited)
    (issued : Execution.Guarded budgetMachine
      (Interleaving.TurnGuard (Issued task budget)) ⟨{ prices := prices }, []⟩ turns)
    (held : Execution.Guarded budgetMachine
      (Interleaving.TurnGuard (ReservedThroughout task)) ⟨{ prices := prices }, []⟩ turns) :
    admittedCalls task (budgetTurns prices turns).threads ≤ budget.maxRequests ∧
      (budgetTurns prices turns).shared.spentMicros task +
          ((budgetTurns prices turns).shared.reserved task).costMicros ≤
        budget.maxTotalCostMicros ∧
      totalOf (CallPoint.reportedInputs task) (budgetTurns prices turns).threads ≤
        budget.maxInputTokens ∧
      totalOf (CallPoint.reportedOutputs task) (budgetTurns prices turns).threads ≤
        budget.maxOutputTokens := by
  have kept : BudgetKept task budget (budgetTurns prices turns).shared
      (budgetTurns prices turns).threads := by
    refine Interleaving.run_invariant
      (fun ledger point others outcome => Issued task budget ledger point others outcome ∧
        ReservedThroughout task ledger point others outcome)
      (BudgetKept task budget) ?_ ?_ ?_ ⟨{ prices := prices }, []⟩ turns ?_ ?_
    · intro ledger first second same kept
      obtain ⟨requests, inputs, outputs, cost⟩ := kept
      refine ⟨?_, totalOf_perm _ same ▸ inputs, totalOf_perm _ same ▸ outputs, cost⟩
      rw [admittedCalls, same.symm.countP_eq]
      exact requests
    · intro ledger calls call kept
      obtain ⟨requests, inputs, outputs, cost⟩ := kept
      refine ⟨?_, ?_, ?_, cost⟩
      · rw [admittedCalls_cons]
        exact requests
      · rw [totalOf_cons]
        simpa [enterBudget, CallPoint.inputs] using inputs
      · rw [totalOf_cons]
        simpa [enterBudget, CallPoint.outputs] using outputs
    · exact fun ledger point others outcome allowed kept =>
        kept_turn outcome scope limited allowed.2 allowed.1 kept
    · exact ⟨Nat.zero_le _, Nat.zero_le _, Nat.zero_le _, Nat.zero_le _⟩
    · exact Interleaving.guarded_and issued held
  refine ⟨kept.requests, kept.cost, ?_, ?_⟩
  · refine Nat.le_trans (totalOf_mono (fun point => ?_) _) kept.inputs
    cases point with
    | settled own usage => exact Nat.le_refl _
    | _ => exact Nat.zero_le _
  · refine Nat.le_trans (totalOf_mono (fun point => ?_) _) kept.outputs
    cases point with
    | settled own usage => exact Nat.le_refl _
    | _ => exact Nat.zero_le _

def soleRequest : ModelBudget :=
  { maxInputTokens := 1000
    maxOutputTokens := 1000
    maxTotalCostMicros := 1000
    maxRequests := 1 }

def smallCall : BudgetCall := ⟨.filled 5, soleRequest, { inputTokens := 10, outputTokens := 10 }⟩

def smallAnswer : CallOutcome :=
  .answered { inputTokens := some 10, outputTokens := some 10, quality := .exact } (ascii "m") 0

def flatPrices : PriceTable := [{ model := ascii "m" }]

/-- A call is admitted and answered, and another is admitted. -/
def secondCallTurns : List BudgetTurn :=
  [.call smallCall, .turn 0 smallAnswer, .turn 0 smallAnswer, .call smallCall, .turn 0 smallAnswer]

theorem second_call_admitted :
    Execution.Guarded budgetMachine (Interleaving.TurnGuard (Issued (.filled 5) soleRequest))
        ⟨{ prices := flatPrices }, []⟩ secondCallTurns ∧
      soleRequest.maxRequests <
        admittedCalls (.filled 5) (budgetTurns flatPrices secondCallTurns).threads := by
  decide +kernel

/-- A call is admitted and reports no usage, and one that comes after it is refused. -/
def soleCallTurns : List BudgetTurn :=
  [.call smallCall, .turn 0 smallAnswer, .turn 0 (.answered {} (ascii "m") 0), .call smallCall,
    .turn 0 smallAnswer]

theorem sole_call_kept :
    admittedCalls (.filled 5) (budgetTurns flatPrices soleCallTurns).threads = 1 ∧
      admittedCalls (.filled 5) (budgetTurns flatPrices soleCallTurns).threads ≤
        soleRequest.maxRequests :=
  ⟨by decide +kernel,
    (task_budget_kept (.filled 5) soleRequest flatPrices soleCallTurns rfl (by decide)
      (by decide +kernel) (by decide +kernel)).1⟩

end Mira.Model
