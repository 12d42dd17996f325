import Mira.Core.Contracts
import Mira.Library.KeyedTable

/-!
The errors of model calls, the usage that a provider reports and the budget of a request. A
counter of 64 bits is a natural number, and what the code computes with it wraps or saturates
where the code's does.
-/

namespace Mira.Model
open Mira Bytes

def wordLimit : Nat := 2 ^ 64

def maxWord : Nat := wordLimit - 1

/-- The sum, or the largest word where it does not fit. -/
def saturatingAdd (left right : Nat) : Nat :=
  if maxWord - left < right then maxWord else left + right

def wordSub (left right : Nat) : Nat := (left + (wordLimit - right)) % wordLimit

inductive ModelDomainCode
  | endpointPolicyDenied | authenticationFailed | providerPermissionDenied
  | invalidModelRequest | capabilityMismatch | contextLimitExceeded | rateLimited
  | providerOverloaded | transportFailed | protocolViolation | responseTooLarge
  | modelRefused | contentFiltered | incompleteModelOutput | malformedStructuredOutput
  | ambiguousModelOutput | ambiguousCompletion | modelCancelled | modelDeadlineExceeded
  | modelResourceExhausted
  deriving DecidableEq

/-- An error; the domain code is that of the model domain, and there is none in another. -/
structure ModelError where
  code : ErrorCode
  domainCode : Option ModelDomainCode := none
  retryable : Bool := false
  safeMessage : Bytes := []
  deriving DecidableEq

abbrev ModelResult (α : Type) := Except ModelError α

def ModelDomainCode.errorCode : ModelDomainCode → ErrorCode
  | .endpointPolicyDenied | .authenticationFailed | .providerPermissionDenied =>
      .permissionDenied
  | .invalidModelRequest => .invalidArgument
  | .capabilityMismatch => .unsupportedCapability
  | .contextLimitExceeded => .contextOverflow
  | .rateLimited | .responseTooLarge | .modelResourceExhausted => .resourceExhausted
  | .providerOverloaded | .transportFailed => .unavailable
  | .protocolViolation => .dataLoss
  | .modelRefused | .incompleteModelOutput | .malformedStructuredOutput
  | .ambiguousModelOutput => .invalidModelOutput
  | .contentFiltered => .safetyRejected
  | .ambiguousCompletion => .executionUncertain
  | .modelCancelled => .cancelled
  | .modelDeadlineExceeded => .deadlineExceeded

def maxSafeMessageBytes : Nat := 2048

def makeModelError (code : ModelDomainCode) (message : Bytes) (retryable : Bool := false) :
    ModelError :=
  { code := code.errorCode
    domainCode := some code
    retryable := retryable
    safeMessage := message.take maxSafeMessageBytes }

structure ModelProfileId where
  value : Id128
  deriving DecidableEq

inductive UsageQuality
  | exact | providerReported | estimated | partialUsage | missing
  deriving DecidableEq

structure ModelUsage where
  inputTokens : Option Nat := none
  outputTokens : Option Nat := none
  cachedInputTokens : Option Nat := none
  reasoningTokens : Option Nat := none
  quality : UsageQuality := .missing

inductive ModelBudgetScope
  | task | request
  deriving DecidableEq

/-- Zero is no limit. -/
structure ModelBudget where
  maxInputTokens : Nat := 0
  maxOutputTokens : Nat := 0
  maxTotalCostMicros : Nat := 0
  currency : Bytes := ascii "USD"
  maxRequests : Nat := 0
  scope : ModelBudgetScope := .task
  deriving DecidableEq

/-!
The budget ledger. A call reserves upper bounds of what it may use before it is made; the usage
that is reported settles them, or the reservation of a call that came to nothing is released.
-/

/-- Micro units for a million tokens. -/
structure PriceEntry where
  model : Bytes
  currency : Bytes := ascii "USD"
  inputMicrosPerMtok : Nat := 0
  outputMicrosPerMtok : Nat := 0
  cachedInputMicrosPerMtok : Nat := 0
  effectiveFrom : Int := 0

abbrev PriceTable := List PriceEntry

/-- The entry in force, the last of those that came into force together. -/
def PriceTable.lookup (prices : PriceTable) (model currency : Bytes) (now : Int) :
    Option PriceEntry :=
  prices.foldl
    (fun best entry =>
      if entry.model ≠ model ∨ entry.currency ≠ currency ∨ now < entry.effectiveFrom then best
      else if best.all fun held => held.effectiveFrom ≤ entry.effectiveFrom then some entry
      else best)
    none

def priceTokens (tokens microsPerMtok : Nat) : Nat :=
  if tokens = 0 then 0 else (tokens * microsPerMtok + 999999) % wordLimit / 1000000

structure BudgetEstimate where
  inputTokens : Nat := 0
  outputTokens : Nat := 0
  requests : Nat := 1
  costMicros : Nat := 0

structure BudgetReservation where
  inputTokens : Nat := 0
  outputTokens : Nat := 0
  requests : Nat := 0
  costMicros : Nat := 0
  deriving DecidableEq

structure BudgetAccount where
  reserved : BudgetReservation := {}
  spentMicros : Nat := 0
  closed : Bool := false

structure BudgetLedger where
  prices : PriceTable := []
  accounts : KeyedTable TaskId BudgetAccount := .empty

def budgetError (message : String) : ModelError :=
  { code := .resourceExhausted
    domainCode := some .modelResourceExhausted
    safeMessage := ascii message }

def BudgetEstimate.reservation (estimate : BudgetEstimate) : BudgetReservation :=
  ⟨estimate.inputTokens, estimate.outputTokens, estimate.requests, estimate.costMicros⟩

namespace BudgetReservation

def add (held : BudgetReservation) (estimate : BudgetEstimate) : BudgetReservation :=
  ⟨saturatingAdd held.inputTokens estimate.inputTokens,
    saturatingAdd held.outputTokens estimate.outputTokens,
    saturatingAdd held.requests estimate.requests,
    saturatingAdd held.costMicros estimate.costMicros⟩

/-- One of the counters would not fit. -/
def overflows (held : BudgetReservation) (estimate : BudgetEstimate) : Bool :=
  maxWord - held.inputTokens < estimate.inputTokens ||
    maxWord - held.outputTokens < estimate.outputTokens ||
    maxWord - held.requests < estimate.requests ||
    maxWord - held.costMicros < estimate.costMicros

/-- The reservation with another taken away, down to nothing. -/
def drop (held reservation : BudgetReservation) : BudgetReservation :=
  ⟨held.inputTokens - reservation.inputTokens, held.outputTokens - reservation.outputTokens,
    held.requests - reservation.requests, held.costMicros - reservation.costMicros⟩

end BudgetReservation

namespace BudgetLedger

def account (ledger : BudgetLedger) (task : TaskId) : BudgetAccount :=
  (ledger.accounts.find? task).getD {}

def reserved (ledger : BudgetLedger) (task : TaskId) : BudgetReservation :=
  (ledger.account task).reserved

def spentMicros (ledger : BudgetLedger) (task : TaskId) : Nat :=
  (ledger.account task).spentMicros

def checkLimits (budget : ModelBudget) (asked : BudgetReservation) : Option ModelError :=
  if budget.maxInputTokens ≠ 0 ∧ budget.maxInputTokens < asked.inputTokens then
    some (budgetError "input token reservation exceeds the task budget")
  else if budget.maxOutputTokens ≠ 0 ∧ budget.maxOutputTokens < asked.outputTokens then
    some (budgetError "output token reservation exceeds the task budget")
  else if budget.maxRequests ≠ 0 ∧ budget.maxRequests < asked.requests then
    some (budgetError "request reservation exceeds the task budget")
  else if budget.maxTotalCostMicros ≠ 0 ∧ budget.maxTotalCostMicros < asked.costMicros then
    some (budgetError "cost reservation exceeds the task budget")
  else none

/-- Why an account does not take an estimate. In the task scope the estimate is checked with
what is reserved, in the request scope alone. -/
def refusal (account : BudgetAccount) (budget : ModelBudget) (estimate : BudgetEstimate) :
    Option ModelError :=
  if account.closed then some (budgetError "task budget is closed")
  else
    match budget.scope with
    | .task =>
        if account.reserved.overflows estimate then
          some (budgetError "task reservation counters would overflow")
        else checkLimits budget (account.reserved.add estimate)
    | .request =>
        if budget.maxRequests ≠ 1 ∨ budget.maxOutputTokens = 0 ∨ estimate.requests ≠ 1 then
          some (budgetError "request budget requires one infer and finite output tokens")
        else checkLimits budget estimate.reservation

def granted (account : BudgetAccount) (budget : ModelBudget) (estimate : BudgetEstimate) :
    BudgetReservation :=
  match budget.scope with
  | .task => account.reserved.add estimate
  | .request => estimate.reservation

/-- The account is opened even when the estimate is refused. -/
def reserve (ledger : BudgetLedger) (task : TaskId) (budget : ModelBudget)
    (estimate : BudgetEstimate) : BudgetLedger × ModelResult BudgetReservation :=
  let account := ledger.account task
  match refusal account budget estimate with
  | some error => ({ ledger with accounts := ledger.accounts.emplace task {} }, .error error)
  | none =>
      ({ ledger with
          accounts := ledger.accounts.assign task
            { account with reserved := account.reserved.add estimate } },
        .ok (granted account budget estimate))

inductive ReconciliationQuality
  | reconciled | missingUsage | partialUsage | unknownPrice
  deriving DecidableEq

structure BudgetSettlement where
  quality : ReconciliationQuality := .reconciled
  reconciledCostMicros : Nat := 0
  inputTokens : Nat := 0
  outputTokens : Nat := 0
  reservedRemainder : Bool := false
  note : Bytes := []
  deriving DecidableEq

def noAccount : ModelError := budgetError "task has no open budget account"

def usageCost (price : PriceEntry) (usage : ModelUsage) : Nat :=
  let cost := (priceTokens (usage.inputTokens.getD 0) price.inputMicrosPerMtok +
    priceTokens (usage.outputTokens.getD 0) price.outputMicrosPerMtok) % wordLimit
  match usage.cachedInputTokens with
  | none => cost
  | some cached =>
      cost - priceTokens cached
        (wordSub price.inputMicrosPerMtok price.cachedInputMicrosPerMtok)

def chargeable (price : Option PriceEntry) (usage : ModelUsage) :
    Except (ReconciliationQuality × String) PriceEntry :=
  if usage.quality = .missing then
    .error (.missingUsage, "provider reported no usage; reservation held for audit")
  else
    match price with
    | none => .error (.unknownPrice, "price table has no entry for the resolved model")
    | some price =>
        if usage.inputTokens.getD 0 < usage.cachedInputTokens.getD 0 then
          .error (.partialUsage, "cached token count exceeds reported input tokens")
        else if usage.outputTokens.getD 0 < usage.reasoningTokens.getD 0 then
          .error (.partialUsage, "reasoning token count exceeds reported output tokens")
        else .ok price

/-- The account after a charge. The cost of a usage that was reported partially stays
reserved. -/
def charged (account : BudgetAccount) (usage : ModelUsage) (cost : Nat) : BudgetAccount :=
  { account with
    spentMicros := saturatingAdd account.spentMicros cost
    reserved := account.reserved.drop
      ⟨usage.inputTokens.getD 0, usage.outputTokens.getD 0, 1,
        if usage.quality = .partialUsage then 0 else cost⟩ }

def chargedSettlement (usage : ModelUsage) (cost : Nat) : BudgetSettlement :=
  let settlement : BudgetSettlement :=
    { reconciledCostMicros := cost
      inputTokens := usage.inputTokens.getD 0
      outputTokens := usage.outputTokens.getD 0 }
  if usage.quality = .partialUsage then
    { settlement with
      quality := .partialUsage
      reservedRemainder := true
      note := ascii "usage was reported partially; remainder stays reserved" }
  else settlement

def priceFor (ledger : BudgetLedger) (budget : ModelBudget) (model : Bytes) (now : Int) :
    Option PriceEntry :=
  ledger.prices.lookup model (if budget.currency.isEmpty then ascii "USD" else budget.currency) now

def reconcile (ledger : BudgetLedger) (task : TaskId) (budget : ModelBudget) (usage : ModelUsage)
    (model : Bytes) (now : Int) : BudgetLedger × ModelResult BudgetSettlement :=
  match ledger.accounts.find? task with
  | none => (ledger, .error noAccount)
  | some account =>
      match chargeable (ledger.priceFor budget model now) usage with
      | .error (quality, note) =>
          (ledger,
            .ok
              { quality := quality
                inputTokens := usage.inputTokens.getD 0
                outputTokens := usage.outputTokens.getD 0
                reservedRemainder := true
                note := ascii note })
      | .ok price =>
          let cost := usageCost price usage
          ({ ledger with accounts := ledger.accounts.assign task (charged account usage cost) },
            .ok (chargedSettlement usage cost))

def release (ledger : BudgetLedger) (task : TaskId) (reservation : BudgetReservation) :
    BudgetLedger × ModelResult Unit :=
  match ledger.accounts.find? task with
  | none => (ledger, .error noAccount)
  | some account =>
      ({ ledger with
          accounts := ledger.accounts.assign task
            { account with reserved := account.reserved.drop reservation } },
        .ok ())

end BudgetLedger

end Mira.Model
