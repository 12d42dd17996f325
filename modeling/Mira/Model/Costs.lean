import Mira.Model.Schema
import Mathlib.Tactic.Linarith
import Mathlib.Tactic.NormNum
import Mathlib.Tactic.Ring

/-!
What a call costs: how a usage is read off an answer, the estimate that is reserved, and how far
the cost in words of 64 bits keeps to the exact one.
-/

namespace Mira.Model
open Mira Bytes

def usageCounter (usage : JsonValue) (keys : List String) : Option Nat :=
  keys.findSome? fun key => (integerMember usage key).map wordOfInt

def detailCounter (usage : JsonValue) (objects : List String) (key : String) : Option Nat :=
  objects.findSome? fun details => (usage.find (ascii details)).bind fun details =>
    (integerMember details key).map wordOfInt

def parseUsageObject (usage : Option JsonValue) (fromStreamEof : Bool) : ModelUsage :=
  match usage with
  | some (.object members) =>
      let usage := JsonValue.object members
      let input := usageCounter usage ["input_tokens", "prompt_tokens"]
      let output := usageCounter usage ["output_tokens", "completion_tokens"]
      let cached := detailCounter usage ["input_tokens_details", "prompt_tokens_details"]
        "cached_tokens"
      let reasoning := detailCounter usage
        ["output_tokens_details", "completion_tokens_details"] "reasoning_tokens"
      { inputTokens := input
        outputTokens := output
        cachedInputTokens := cached
        reasoningTokens := reasoning
        quality :=
          if input.isNone ∧ output.isNone ∧ cached.isNone ∧ reasoning.isNone then .missing
          else if fromStreamEof then .partialUsage
          else .providerReported }
  | _ => {}

def estimatedCost (price : PriceEntry) (input output : Nat) : Nat :=
  (input * price.inputMicrosPerMtok + output * price.outputMicrosPerMtok + 999999) % wordLimit /
    1000000

/-- The estimate of `ModelGateway::infer`: the output tokens are those that are asked for, or as
many as the profile allows, and no more than the budget does. -/
def inferEstimate (input : Nat) (maxOutput : Option Nat) (limit : Nat) (budget : ModelBudget)
    (price : Option PriceEntry) : BudgetEstimate :=
  let asked := maxOutput.getD limit
  let output :=
    if budget.maxOutputTokens ≠ 0 ∧ budget.maxOutputTokens < asked then budget.maxOutputTokens
    else asked
  { inputTokens := input
    outputTokens := output
    costMicros :=
      match price with
      | some price => estimatedCost price input output
      | none => 0 }

def exactCost (price : PriceEntry) (usage : ModelUsage) : Rat :=
  let input : Rat := usage.inputTokens.getD 0
  let cached : Rat := usage.cachedInputTokens.getD 0
  let output : Rat := usage.outputTokens.getD 0
  ((input - cached) * price.inputMicrosPerMtok + cached * price.cachedInputMicrosPerMtok +
    output * price.outputMicrosPerMtok) / 1000000

def exactEstimate (price : PriceEntry) (estimate : BudgetEstimate) : Rat :=
  (estimate.inputTokens * price.inputMicrosPerMtok +
    estimate.outputTokens * price.outputMicrosPerMtok : Rat) / 1000000

/-- How often a product wraps around the words when it is rounded up. -/
def wraps (product : Int) : Int := (product + 999999) / wordLimit

/-- What rounding up adds to a product. -/
def excess (product : Int) : Int := 999999 - (product + 999999) % wordLimit % 1000000

theorem excess_bounds (product : Int) : 0 ≤ excess product ∧ excess product < 1000000 := by
  rw [excess]
  have low := Int.emod_nonneg ((product + 999999) % wordLimit) (by norm_num : (1000000 : Int) ≠ 0)
  have high := Int.emod_lt_of_pos ((product + 999999) % wordLimit)
    (by norm_num : (0 : Int) < 1000000)
  omega

theorem wraps_mono {first second : Int} (le : first ≤ second) : wraps first ≤ wraps second :=
  Int.ediv_le_ediv (by norm_num [wordLimit]) (by omega)

theorem wraps_nonneg {product : Int} (nonneg : 0 ≤ product) : 0 ≤ wraps product :=
  Int.ediv_nonneg (by omega) (by norm_num [wordLimit])

/-- A rounded product in words, from any integer that is the product up to the words. -/
theorem rounded_eq {product : Int} {value : Nat}
    (same : (value : Int) % wordLimit = product % wordLimit) :
    1000000 * (((value + 999999) % wordLimit / 1000000 : Nat) : Int) =
      product - wordLimit * wraps product + excess product := by
  have congruent : ((value : Int) + 999999) % wordLimit = (product + 999999) % wordLimit := by
    rw [Int.add_emod, same, ← Int.add_emod]
  have held : (((value + 999999) % wordLimit : Nat) : Int) = (product + 999999) % wordLimit := by
    push_cast
    exact congruent
  have whole := Int.emod_add_mul_ediv (product + 999999) wordLimit
  rw [wraps, excess, ← held]
  rw [← held] at whole
  generalize (product + 999999) / (wordLimit : Int) = times at whole ⊢
  generalize (value + 999999) % wordLimit = rest at whole ⊢
  omega

theorem priceTokens_eq {product : Int} (tokens microsPerMtok : Nat)
    (same : ((tokens * microsPerMtok : Nat) : Int) % wordLimit = product % wordLimit)
    (none_ : tokens = 0 → product = 0) :
    1000000 * (priceTokens tokens microsPerMtok : Int) =
      product - wordLimit * wraps product + excess product := by
  rw [priceTokens]
  split
  · next zero =>
      rw [none_ zero]
      decide
  · exact rounded_eq same

/-- What the discount for cached tokens takes off, before it is rounded. -/
def discount (price : PriceEntry) (usage : ModelUsage) : Int :=
  usage.cachedInputTokens.getD 0 *
    (price.inputMicrosPerMtok - price.cachedInputMicrosPerMtok : Int)

def inputProduct (price : PriceEntry) (usage : ModelUsage) : Int :=
  usage.inputTokens.getD 0 * price.inputMicrosPerMtok

def outputProduct (price : PriceEntry) (usage : ModelUsage) : Int :=
  usage.outputTokens.getD 0 * price.outputMicrosPerMtok

/-- The discount wraps as often as the two costs do together, and rounding it up takes off no more
than rounding the costs up puts on. -/
def RoundsUp (price : PriceEntry) (usage : ModelUsage) : Prop :=
  wraps (inputProduct price usage) + wraps (outputProduct price usage) =
      wraps (discount price usage) ∧
    excess (discount price usage) ≤
      excess (inputProduct price usage) + excess (outputProduct price usage)

theorem wordSub_modEq {left right : Nat} (word : right ≤ wordLimit) :
    (wordSub left right : Int) % wordLimit = (left - right : Int) % wordLimit := by
  rw [wordSub]
  push_cast [Nat.cast_sub word]
  rw [Int.emod_emod_of_dvd _ (dvd_refl _), add_sub, add_comm, add_sub_assoc,
    Int.add_emod_left]

/-- Three rounded products: two costs and a discount of the first. -/
theorem covered_iff {first second third : Int} {cost cost' taken : Nat}
    (whole : 1000000 * (cost : Int) = first - wordLimit * wraps first + excess first)
    (whole' : 1000000 * (cost' : Int) = second - wordLimit * wraps second + excess second)
    (off : 1000000 * (taken : Int) = third - wordLimit * wraps third + excess third)
    (some_ : 0 ≤ second) (within : third ≤ first) :
    first + second - third ≤ 1000000 * ((cost + cost' - taken : Nat) : Int) ↔
      wraps first + wraps second = wraps third ∧ excess third ≤ excess first + excess second := by
  have more := wraps_mono within
  have nonneg := wraps_nonneg some_
  have first_ := excess_bounds first
  have second_ := excess_bounds second
  have third_ := excess_bounds third
  by_cases room : taken ≤ cost + cost'
  · rw [Nat.cast_sub room]
    push_cast
    rw [wordLimit] at whole whole' off
    generalize wraps first = times at *
    generalize wraps second = times' at *
    generalize wraps third = times'' at *
    omega
  · -- Nothing is left of the cost: then the exact one is positive, since rounding keeps order.
    rw [Nat.sub_eq_zero_of_le (by omega)]
    refine iff_of_false (fun free => ?_) fun rounds => ?_
    · have same : third = first := by omega
      have zero : second = 0 := by omega
      subst same zero
      have none_ : wraps 0 = 0 ∧ excess 0 = 0 := by decide
      rw [none_.1, none_.2] at whole'
      omega
    · rw [wordLimit] at whole whole' off
      generalize wraps first = times at *
      generalize wraps second = times' at *
      generalize wraps third = times'' at *
      omega

theorem priceTokens_le (tokens microsPerMtok : Nat) :
    priceTokens tokens microsPerMtok ≤ wordLimit / 1000000 := by
  rw [priceTokens]
  split
  · exact Nat.zero_le _
  · exact Nat.div_le_div_right (Nat.mod_lt _ (by norm_num [wordLimit])).le

variable {price : PriceEntry} {usage : ModelUsage}

theorem usageCost_eq (price : PriceEntry) (usage : ModelUsage) :
    BudgetLedger.usageCost price usage =
      priceTokens (usage.inputTokens.getD 0) price.inputMicrosPerMtok +
          priceTokens (usage.outputTokens.getD 0) price.outputMicrosPerMtok -
        priceTokens (usage.cachedInputTokens.getD 0)
          (wordSub price.inputMicrosPerMtok price.cachedInputMicrosPerMtok) := by
  have first := priceTokens_le (usage.inputTokens.getD 0) price.inputMicrosPerMtok
  have second := priceTokens_le (usage.outputTokens.getD 0) price.outputMicrosPerMtok
  rw [BudgetLedger.usageCost, Nat.mod_eq_of_lt (by rw [wordLimit] at first second ⊢; omega)]
  cases usage.cachedInputTokens with
  | none => simp [priceTokens]
  | some cached => rfl

theorem exactCost_eq (price : PriceEntry) (usage : ModelUsage) :
    exactCost price usage =
      ((inputProduct price usage + outputProduct price usage - discount price usage : Int) : Rat) /
        1000000 := by
  rw [exactCost, inputProduct, outputProduct, discount]
  push_cast
  ring

theorem div_le_iff_int (numerator : Int) (value : Nat) :
    (numerator : Rat) / 1000000 ≤ value ↔ numerator ≤ 1000000 * (value : Int) := by
  rw [div_le_iff₀ (by norm_num), mul_comm, ← Int.cast_natCast, ← Int.cast_ofNat, ← Int.cast_mul,
    Int.cast_le]

theorem usageCost_covers_iff (word : price.cachedInputMicrosPerMtok ≤ wordLimit)
    (within : usage.cachedInputTokens.getD 0 ≤ usage.inputTokens.getD 0) :
    exactCost price usage ≤ BudgetLedger.usageCost price usage ↔ RoundsUp price usage := by
  rw [exactCost_eq, div_le_iff_int, usageCost_eq]
  apply covered_iff
  · exact priceTokens_eq _ _ (by rw [inputProduct]; push_cast; rfl)
      fun none_ => by rw [inputProduct, none_]; simp
  · exact priceTokens_eq _ _ (by rw [outputProduct]; push_cast; rfl)
      fun none_ => by rw [outputProduct, none_]; simp
  · refine priceTokens_eq _ _ ?_ fun none_ => by rw [discount, none_]; simp
    rw [discount]
    push_cast
    rw [Int.mul_emod, wordSub_modEq word, ← Int.mul_emod]
  · rw [outputProduct]
    positivity
  · rw [discount, inputProduct]
    have less : (usage.cachedInputTokens.getD 0 : Int) ≤ usage.inputTokens.getD 0 :=
      Int.ofNat_le.mpr within
    have cheaper : (price.inputMicrosPerMtok - price.cachedInputMicrosPerMtok : Int) ≤
        price.inputMicrosPerMtok := by omega
    refine (mul_le_mul_of_nonneg_left cheaper (by positivity)).trans ?_
    exact mul_le_mul_of_nonneg_right less (by positivity)

theorem estimatedCost_covers_iff (price : PriceEntry) (input output : Nat) :
    ((input * price.inputMicrosPerMtok + output * price.outputMicrosPerMtok : Nat) : Rat) /
        1000000 ≤ estimatedCost price input output ↔
      input * price.inputMicrosPerMtok + output * price.outputMicrosPerMtok + 999999 <
        wordLimit := by
  rw [estimatedCost]
  generalize input * price.inputMicrosPerMtok + output * price.outputMicrosPerMtok = product
  have rounded := @rounded_eq product product rfl
  have bounds := excess_bounds product
  have nonneg := wraps_nonneg (Int.natCast_nonneg product)
  rw [← Int.cast_natCast, div_le_iff_int, rounded, wraps, wordLimit] at *
  omega

theorem lookup_mem {prices : PriceTable} {model currency : Bytes} {now : Int}
    (found : prices.lookup model currency now = some price) : price ∈ prices := by
  have among : ∀ (entries : PriceTable) (best : Option PriceEntry),
      entries.foldl (fun best entry =>
        if entry.model ≠ model ∨ entry.currency ≠ currency ∨ now < entry.effectiveFrom then best
        else if best.all fun held => held.effectiveFrom ≤ entry.effectiveFrom then some entry
        else best) best = some price → best = some price ∨ price ∈ entries := by
    intro entries
    induction entries with
    | nil => exact fun best same => .inl same
    | cons entry rest ih =>
        intro best same
        cases ih _ same with
        | inr later => exact .inr (List.mem_cons_of_mem _ later)
        | inl now_ =>
            dsimp only at now_
            split at now_
            · exact .inl now_
            · split at now_
              · cases now_
                exact .inr List.mem_cons_self
              · exact .inl now_
  exact (among prices none found).resolve_left (by simp)

theorem chargeable_ok {found : Option PriceEntry}
    (charged : BudgetLedger.chargeable found usage = .ok price) :
    found = some price ∧ usage.cachedInputTokens.getD 0 ≤ usage.inputTokens.getD 0 := by
  rw [BudgetLedger.chargeable.eq_def] at charged
  split at charged
  · cases charged
  · split at charged
    · cases charged
    · split at charged
      · cases charged
      · next within =>
          split at charged
          · cases charged
          · cases charged
            exact ⟨rfl, Nat.not_lt.mp within⟩

theorem chargeable_error {found : Option PriceEntry}
    {reason : BudgetLedger.ReconciliationQuality × String}
    (refused : BudgetLedger.chargeable found usage = .error reason) :
    reason.1 ≠ .reconciled := by
  rw [BudgetLedger.chargeable.eq_def] at refused
  split at refused
  · cases refused
    decide
  · split at refused
    · cases refused
      decide
    · split at refused
      · cases refused
        decide
      · split at refused
        · cases refused
          decide
        · cases refused

/-- A reconciled settlement charges no less than the exact cost exactly where its roundings and
wraps keep to it, and an estimate exactly where its sum does not wrap. -/
theorem costs_covered_iff (ledger : BudgetLedger) (task : TaskId) (budget : ModelBudget)
    (words : ∀ entry ∈ ledger.prices, entry.cachedInputMicrosPerMtok < wordLimit) :
    (∀ usage model now settlement,
      (ledger.reconcile task budget usage model now).2 = .ok settlement →
      settlement.quality = .reconciled →
      ∃ price, ledger.priceFor budget model now = some price ∧
        (exactCost price usage ≤ settlement.reconciledCostMicros ↔ RoundsUp price usage)) ∧
    ∀ price input maxOutput limit,
      let estimate := inferEstimate input maxOutput limit budget (some price)
      exactEstimate price estimate ≤ estimate.costMicros ↔
        estimate.inputTokens * price.inputMicrosPerMtok +
          estimate.outputTokens * price.outputMicrosPerMtok + 999999 < wordLimit := by
  constructor
  · intro usage model now settlement done reconciled
    rw [BudgetLedger.reconcile] at done
    split at done
    · cases done
    · split at done
      · next quality note refused =>
          cases done
          exact absurd reconciled (chargeable_error refused)
      · next price charged =>
          obtain ⟨found, within⟩ := chargeable_ok charged
          refine ⟨price, found, ?_⟩
          rw [← usageCost_covers_iff (words _ (lookup_mem found)).le within]
          cases done
          rw [BudgetLedger.chargedSettlement]
          split <;> exact Iff.rfl
  · intro price input maxOutput limit
    dsimp only
    rw [← estimatedCost_covers_iff, exactEstimate]
    push_cast
    exact Iff.rfl

def cachedUsage : JsonValue :=
  .object [(ascii "input_tokens", .integer 2), (ascii "output_tokens", .integer 0),
    (ascii "input_tokens_details", .object [(ascii "cached_tokens", .integer 1)])]

def cheapPrice : PriceEntry := { model := ascii "m", inputMicrosPerMtok := 1 }

def dearPrice : PriceEntry := { model := ascii "m", inputMicrosPerMtok := 2 ^ 24 }

def cheapLedger : BudgetLedger :=
  { prices := [cheapPrice], accounts := KeyedTable.empty.assign (.filled 5) {} }

theorem cost_understated :
    (∃ settlement, (cheapLedger.reconcile (.filled 5) {} (parseUsageObject (some cachedUsage) false)
        (ascii "m") 0).2 = .ok settlement ∧ settlement.quality = .reconciled ∧
      (settlement.reconciledCostMicros : Rat) <
        exactCost cheapPrice (parseUsageObject (some cachedUsage) false)) ∧
    ((inferEstimate (2 ^ 40) none 0 {} (some dearPrice)).costMicros : Rat) <
      exactEstimate dearPrice (inferEstimate (2 ^ 40) none 0 {} (some dearPrice)) := by
  refine ⟨⟨{ inputTokens := 2 }, ?_, rfl, ?_⟩, ?_⟩
  · decide +kernel
  · decide +kernel
  · decide +kernel

theorem plain_cost_covered :
    ∃ price, cheapLedger.priceFor {} (ascii "m") 0 = some price ∧
      (exactCost price { inputTokens := some 2, quality := .exact } ≤ ((1 : Nat) : Rat) ↔
        RoundsUp price { inputTokens := some 2, quality := .exact }) :=
  (costs_covered_iff cheapLedger (.filled 5) {} (by decide)).1
    { inputTokens := some 2, quality := .exact } (ascii "m") 0
    { reconciledCostMicros := 1, inputTokens := 2 } (by decide +kernel) rfl

end Mira.Model
