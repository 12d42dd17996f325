import Mira.Digest.Sha256
import Mira.Json.Distinct
import Mira.Library.Binary64
import Mira.Library.Checked
import Mira.Library.KeyedTable

/-!
The records of the temporal policy: the world a tick shows, the history of an entity, a reactive
rule and the samples that rules are induced from. A number is the word that holds it, so that
whatever a double can be is a value here.
-/

namespace Mira.Temporal
open Mira Bytes

inductive TemporalPolicyDomainCode
  | optionsInvalid | boundsExceeded | entityInvalid | worldViewInvalid | tickNotMonotonic
  | ruleSchemaInvalid | ruleUnknown | ruleStateInvalid | promotionEvidenceMissing
  | episodeSamplesInvalid | historySequenceNotAdvancing | historyCapacityInvalid

def TemporalPolicyDomainCode.value : TemporalPolicyDomainCode → Int32
  | optionsInvalid => 1
  | boundsExceeded => 2
  | entityInvalid => 3
  | worldViewInvalid => 4
  | tickNotMonotonic => 5
  | ruleSchemaInvalid => 6
  | ruleUnknown => 7
  | ruleStateInvalid => 8
  | promotionEvidenceMissing => 9
  | episodeSamplesInvalid => 10
  | historySequenceNotAdvancing => 11
  | historyCapacityInvalid => 12

structure TemporalPolicyError where
  code : ErrorCode
  domain : String := "mira.temporal_policy"
  domainCode : Int32
  retryable : Bool := false
  safeMessage : String

abbrev PolicyResult (α : Type) := Except TemporalPolicyError α

def makeTemporalPolicyError (code : TemporalPolicyDomainCode) (safeMessage : String) :
    TemporalPolicyError :=
  { code :=
      match code with
      | .optionsInvalid | .entityInvalid | .worldViewInvalid | .ruleSchemaInvalid | .ruleUnknown
      | .episodeSamplesInvalid | .historyCapacityInvalid => .invalidArgument
      | _ => .invalidState
    domainCode := code.value
    safeMessage := safeMessage }

/-- A check: the error unless the condition holds. -/
def require (condition : Bool) (code : TemporalPolicyDomainCode) (safeMessage : String) :
    PolicyResult Unit :=
  if condition then .ok () else .error (makeTemporalPolicyError code safeMessage)

theorem require_ok {condition : Bool} {code : TemporalPolicyDomainCode} {safeMessage : String} :
    require condition code safeMessage = .ok () ↔ condition = true := by
  rw [require]
  split
  · next held => simp [held]
  · next failed => simp [failed]

structure TemporalHistoryOptions where
  capacity : Nat := 64

def TemporalHistoryOptions.validate (options : TemporalHistoryOptions) : PolicyResult Unit :=
  require (options.capacity ≠ 0) .historyCapacityInvalid "history capacity must be positive"

structure TemporalHistoryEntry where
  sequence : Nat := 0
  sampledAt : Timestamp := {}
  positionX : Binary64 := .zero
  positionY : Binary64 := .zero
  motion : Bytes := []
  motionPhase : Binary64 := .zero
  sourceRef : Bytes := []
  sourceDigest : Bytes := []

structure TemporalHistory where
  capacity : Nat
  entries : List TemporalHistoryEntry := []

def TemporalHistory.append (history : TemporalHistory) (entry : TemporalHistoryEntry) :
    PolicyResult TemporalHistory := do
  require (history.capacity ≠ 0) .historyCapacityInvalid "history capacity is zero"
  require (history.entries.getLast?.all fun last => last.sequence < entry.sequence)
    .historySequenceNotAdvancing "history sequence must strictly advance"
  let kept :=
    if history.entries.length = history.capacity then history.entries.drop 1 else history.entries
  return { history with entries := kept ++ [entry] }

structure TrackedEntity where
  entityKey : Bytes
  positionX : Binary64 := .zero
  positionY : Binary64 := .zero
  velocityX : Binary64 := .zero
  velocityY : Binary64 := .zero
  motion : Bytes := []
  motionPhase : Binary64 := .zero
  motionConfidence : Binary64 := .zero
  sourceRef : Bytes := []

structure PolicyFact where
  key : Bytes
  value : Binary64 := .zero

structure PolicyWorldView where
  entities : List TrackedEntity := []
  facts : List PolicyFact := []

structure PolicyTickContext where
  tick : Nat := 0
  tickTime : Timestamp := {}

def inUnitRange (number : Binary64) : Bool := Binary64.zero.le number && number.le .one

def TrackedEntity.validate (entity : TrackedEntity) : PolicyResult Unit :=
  require (entity.entityKey ≠ [] && inUnitRange entity.motionPhase &&
    inUnitRange entity.motionConfidence) .entityInvalid
    "entity key empty or phase/confidence out of [0,1]"

def checkKeys : List PolicyFact → PolicyResult Unit
  | [] => .ok ()
  | fact :: rest => do
      require (rest.all fun other => other.key ≠ fact.key) .worldViewInvalid
        "duplicate world fact key"
      checkKeys rest

def PolicyWorldView.validate (world : PolicyWorldView) : PolicyResult Unit := do
  world.entities.forM TrackedEntity.validate
  checkKeys world.facts

inductive ReactiveRuleStatus
  | candidate | testing | runtime | retired
  deriving DecidableEq

inductive ConditionField
  | motion | motionPhase | motionConfidence | fact
  deriving DecidableEq

def ConditionField.name : ConditionField → Bytes
  | motion => ascii "Motion"
  | motionPhase => ascii "MotionPhase"
  | motionConfidence => ascii "MotionConfidence"
  | fact => ascii "Fact"

inductive ConditionCompare
  | eq | lt | le | gt | ge
  deriving DecidableEq

def ConditionCompare.name : ConditionCompare → Bytes
  | eq => ascii "Eq"
  | lt => ascii "Lt"
  | le => ascii "Le"
  | gt => ascii "Gt"
  | ge => ascii "Ge"

structure RuleCondition where
  field : ConditionField := .motion
  compare : ConditionCompare := .eq
  factKey : Bytes := []
  textValue : Bytes := []
  numberValue : Binary64 := .zero

structure PolicyAction where
  kind : Bytes
  parameter : Bytes := []
  deriving DecidableEq

structure RuleTransition where
  conditions : List RuleCondition
  doActions : List PolicyAction

structure ReactiveRule where
  ruleId : Bytes := []
  schemaVersion : SchemaVersion := { major := 1, minor := 0 }
  state : Bytes
  priority : Nat := 0
  status : ReactiveRuleStatus := .candidate
  transitions : List RuleTransition
  sourceRefs : List Bytes
  supportCount : Nat := 0

def maxConditionsPerTransition : Nat := 8
def maxTransitionsPerRule : Nat := 8

def RuleTransition.validate (transition : RuleTransition) : PolicyResult Unit :=
  require (transition.conditions ≠ [] && transition.doActions ≠ [] &&
    transition.conditions.length ≤ maxConditionsPerTransition) .ruleSchemaInvalid
    "rule when/do empty or out of bounds"

def ReactiveRule.validate (rule : ReactiveRule) : PolicyResult Unit := do
  require (rule.transitions ≠ [] && rule.transitions.length ≤ maxTransitionsPerRule)
    .ruleSchemaInvalid "rule transition count out of bounds"
  require (rule.sourceRefs ≠ []) .ruleSchemaInvalid
    "rule provenance missing (RULE-07: no naked rules)"
  rule.transitions.forM RuleTransition.validate

/-- A number as the JSON writer prints it; what is not finite goes through `%.17g`. -/
def numberText (number : Binary64) : Bytes :=
  if number.isFinite then writeNumber number.value
  else (if number.negative then ascii "-" else []) ++
    (if number.isNaN then ascii "nan" else ascii "inf")

/-- An object whose members are given in the order of their names. -/
def objectText (members : List (Bytes × Bytes)) : Bytes :=
  123 :: (joinWith 44 (members.map fun member => writeString member.1 ++ 58 :: member.2) ++ [125])

def arrayText (items : List Bytes) : Bytes := 91 :: (joinWith 44 items ++ [93])

def conditionToJson (condition : RuleCondition) : Bytes :=
  objectText
    [(ascii "compare", writeString condition.compare.name),
      (ascii "fact_key", writeString condition.factKey),
      (ascii "field", writeString condition.field.name),
      (ascii "number_value", numberText condition.numberValue),
      (ascii "text_value", writeString condition.textValue)]

def actionToJson (action : PolicyAction) : Bytes :=
  objectText [(ascii "kind", writeString action.kind),
    (ascii "parameter", writeString action.parameter)]

def transitionToJson (transition : RuleTransition) : Bytes :=
  objectText [(ascii "do_actions", arrayText (transition.doActions.map actionToJson)),
    (ascii "when", arrayText (transition.conditions.map conditionToJson))]

def ReactiveRule.content (rule : ReactiveRule) : Bytes :=
  objectText [(ascii "state", writeString rule.state),
    (ascii "transitions", arrayText (rule.transitions.map transitionToJson))]

structure PolicyRuntimeOptions where
  maxRules : Nat := 256
  maxRulesPerState : Nat := 32
  minSupport : Nat := 3
  minTestSupport : Nat := 2
  historyOptions : TemporalHistoryOptions := {}

structure PolicyEpisodeSample where
  tick : PolicyTickContext := {}
  world : PolicyWorldView := {}
  activeState : Bytes := []
  agentAction : Option PolicyAction := none
  agentHandled : Bool := true

structure RuleResult where
  ruleId : Bytes
  passedCount : Nat := 0
  falseTriggerCount : Nat := 0
  sampleCount : Nat := 0

def inKeyOrder {ν : Type} (table : KeyedTable Bytes ν) : List (Bytes × ν) :=
  table.entries.insertionSort fun first second => keyLess second.1 first.1 = false

end Mira.Temporal
