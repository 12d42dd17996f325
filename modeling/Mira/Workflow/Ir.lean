import Mira.Json.Fields
import Mira.Library.Checked
import Mira.Workflow.Contracts

/-!
The document form of a workflow definition: its decoder, which fails at the first thing it does
not know, and its canonical form. Validating a definition is decoding its canonical form.
-/

namespace Mira.Workflow
open Mira Bytes

structure WorkflowLimits where
  maxDocumentBytes : Nat := 256 * 1024
  maxDepth : Nat := 16
  maxSteps : Nat := 256
  maxParameters : Nat := 64
  maxArgumentsBytes : Nat := 64 * 1024
  maxStringBytes : Nat := 8 * 1024
  maxEnumValues : Nat := 64
  maxPatternBytes : Nat := 256

/-- Hard ceilings; callers may tighten, never relax. -/
def limitCeilings : WorkflowLimits := {}

def ceilingMaxAttempts : Int := 8
def ceilingMaxIterations : Int := 64
def ceilingMaxRetries : Int := 8

def clampLimits (limits : WorkflowLimits) : WorkflowLimits :=
  { maxDocumentBytes := min limits.maxDocumentBytes limitCeilings.maxDocumentBytes
    maxDepth := min limits.maxDepth limitCeilings.maxDepth
    maxSteps := min limits.maxSteps limitCeilings.maxSteps
    maxParameters := min limits.maxParameters limitCeilings.maxParameters
    maxArgumentsBytes := min limits.maxArgumentsBytes limitCeilings.maxArgumentsBytes
    maxStringBytes := min limits.maxStringBytes limitCeilings.maxStringBytes
    maxEnumValues := min limits.maxEnumValues limitCeilings.maxEnumValues
    maxPatternBytes := min limits.maxPatternBytes limitCeilings.maxPatternBytes }

def workflowIrReaderVersion : SchemaVersion := ⟨1, 1⟩

/-- The host's regular expressions: which patterns it can compile, and its search. -/
structure RegexLibrary where
  compiles : Bytes → Bool
  search : RegexSearch

def irErrorOf (code : ErrorCode) (detail : Bytes) : WorkflowError :=
  { code := code, safeMessage := ascii "workflow ir: " ++ detail }

def requireIr (condition : Bool) (detail : String) (code : ErrorCode := .invalidArgument) :
    WorkflowResult Unit :=
  if condition then .ok () else .error (irErrorOf code (ascii detail))

def expectIr {α : Type} (found : Option α) (detail : String) : WorkflowResult α :=
  match found with
  | some value => .ok value
  | none => .error (irErrorOf .invalidArgument (ascii detail))

def checkMember (known : List String) (place : String) (name : Bytes) : WorkflowResult Unit :=
  if known.any fun key => ascii key = name then .ok ()
  else
    .error (irErrorOf .unsupportedVersion
      (ascii place ++ ascii ": unknown field '" ++ name ++ ascii "'"))

/-- Every member of the object is declared, and every required one is there. -/
def checkKeys (document : JsonValue) (required optional : List String) (place : String) :
    WorkflowResult Unit :=
  match document with
  | .object members => do
      members.forM fun member => checkMember (required ++ optional) place member.1
      required.forM fun key =>
        requireIr (document.find (ascii key)).isSome
          (place ++ ": missing field '" ++ key ++ "'")
  | _ => .error (irErrorOf .invalidArgument (ascii place ++ ascii " must be an object"))

def boundedString (value : JsonValue) (maxBytes : Nat) : Option Bytes :=
  value.asString.filter fun text => !text.isEmpty && text.length ≤ maxBytes

/-- `parse_id`, for an identifier that must not be nil. -/
def parseGivenId {tag : IdTag} (value : JsonValue) : Option (StrongId tag) :=
  (value.asString.bind StrongId.parse).filter fun id => !id.isNil

def asInt : JsonValue → Option Int
  | .integer value => some value
  | _ => none

mutual

/-- The deepest level in the value when it is at the given level itself. -/
def depthOf (current : Nat) : JsonValue → Nat
  | .object members => max current (depthOfMembers (current + 1) members)
  | .array items => max current (depthOfItems (current + 1) items)
  | _ => current

def depthOfItems (current : Nat) : List JsonValue → Nat
  | [] => 0
  | item :: rest => max (depthOf current item) (depthOfItems current rest)

def depthOfMembers (current : Nat) : List (Bytes × JsonValue) → Nat
  | [] => 0
  | (_, value) :: rest => max (depthOf current value) (depthOfMembers current rest)

end

def checkDepth (document : JsonValue) (maxDepth : Nat) : WorkflowResult Unit :=
  requireIr (depthOf 1 document ≤ maxDepth) "workflow ir: nesting depth exceeds limit"
    .resourceExhausted

/-- The items one after another, each told apart from those before it. -/
def parseDistinct {α κ : Type} [DecidableEq κ] (parse : JsonValue → WorkflowResult α) (key : α → κ)
    (duplicate : String) : List α → List JsonValue → WorkflowResult (List α)
  | read, [] => .ok read
  | read, item :: rest => do
      let next ← parse item
      requireIr (read.all fun existing => key existing ≠ key next) duplicate
      parseDistinct parse key duplicate (read ++ [next]) rest

def WorkflowParameterType.name : WorkflowParameterType → Bytes
  | .string => ascii "string"
  | .integer => ascii "integer"
  | .number => ascii "number"
  | .boolean => ascii "boolean"

def parseWorkflowParameterType (name : Bytes) : Option WorkflowParameterType :=
  [WorkflowParameterType.string, .integer, .number, .boolean].find? fun type => type.name = name

def WorkflowPredicateOp.name : WorkflowPredicateOp → Bytes
  | .eq => ascii "eq"
  | .ne => ascii "ne"
  | .lt => ascii "lt"
  | .le => ascii "le"
  | .gt => ascii "gt"
  | .ge => ascii "ge"
  | .contains => ascii "contains"
  | .exists_ => ascii "exists"

def parseWorkflowPredicateOp (name : Bytes) : Option WorkflowPredicateOp :=
  [WorkflowPredicateOp.eq, .ne, .lt, .le, .gt, .ge, .contains, .exists_].find? fun op =>
    op.name = name

def WorkflowStepKind.name : WorkflowStepKind → Bytes
  | .toolCall => ascii "tool_call"
  | .navigate => ascii "navigate"
  | .verify => ascii "verify"
  | .control => ascii "control"

def parseWorkflowStepKind (name : Bytes) : Option WorkflowStepKind :=
  [WorkflowStepKind.toolCall, .navigate, .verify, .control].find? fun kind => kind.name = name

def signalKinds : List String := ["run_parameter", "step_result", "screen_state"]

/-- The signal is a known kind, a colon and a reference. -/
def validateWorkflowPredicate (predicate : WorkflowPredicate) (limits : WorkflowLimits) :
    WorkflowResult Unit := do
  let parts := splitAtByte 58 predicate.signal
  let reference ← expectIr parts.2 "predicate signal must be 'kind:ref'"
  requireIr (signalKinds.any fun kind => ascii kind = parts.1) "predicate signal kind is unknown"
  requireIr (!reference.isEmpty && reference.length ≤ limits.maxStringBytes)
    "predicate signal reference is not bounded"

/-- The value that a predicate compares with; a test for presence has none. -/
def parsePredicateValue (op : WorkflowPredicateOp) (value : Option JsonValue) :
    WorkflowResult JsonValue :=
  if op = .exists_ then do
    requireIr (value.all JsonValue.isNull) "predicate value must be absent for op 'exists'"
    return .null
  else do
    let value ← expectIr value "predicate value is required"
    requireIr (!value.isArray && !value.isObject) "predicate value must be a scalar"
    return value

def parsePredicate (limits : WorkflowLimits) (document : JsonValue) :
    WorkflowResult (Option WorkflowPredicate) :=
  if document.isNull then .ok none
  else do
    checkKeys document ["signal", "op"] ["value"] "predicate"
    let signal ← expectIr (boundedString (memberOf document "signal") limits.maxStringBytes)
      "predicate signal must be a bounded string"
    let opText ← expectIr (memberOf document "op").asString "predicate op must be a string"
    let op ← expectIr (parseWorkflowPredicateOp opText) "predicate op is unknown"
    let value ← parsePredicateValue op (document.find (ascii "value"))
    let predicate : WorkflowPredicate := ⟨signal, op, value⟩
    validateWorkflowPredicate predicate limits
    return some predicate

def WorkflowPredicate.toJson (predicate : WorkflowPredicate) : JsonValue :=
  objectOf
    [("signal", some (.string predicate.signal)),
      ("op", some (.string predicate.op.name)),
      ("value", fieldWhen (predicate.op ≠ .exists_) predicate.value)]

def parseRecoveryMode (document : JsonValue) (mode : Bytes) :
    WorkflowResult WorkflowRecoveryHook :=
  let maxRetries := document.find (ascii "max_retries")
  let fallback := document.find (ascii "fallback_step")
  if mode = ascii "none" then do
    requireIr (maxRetries.isNone && fallback.isNone) "recovery 'none' admits no further fields"
    return { mode := .none }
  else if mode = ascii "retry" then do
    let retries ← expectIr (maxRetries.bind asInt) "recovery retry requires max_retries"
    requireIr (1 ≤ retries && retries ≤ ceilingMaxRetries) "recovery max_retries out of range"
    requireIr fallback.isNone "recovery retry admits no fallback_step"
    return { mode := .retry, maxRetries := retries.toNat }
  else if mode = ascii "fallback_step" then do
    let step ← expectIr (fallback.bind parseGivenId) "recovery fallback_step requires a step id"
    requireIr maxRetries.isNone "recovery fallback_step admits no max_retries"
    return { mode := .fallbackStep, fallbackStep := some step }
  else if mode = ascii "agent_escalation" then do
    requireIr (maxRetries.isNone && fallback.isNone)
      "recovery agent_escalation admits no further fields"
    return { mode := .agentEscalation }
  else .error (irErrorOf .invalidArgument (ascii "recovery mode is unknown"))

def parseRecovery (document : JsonValue) : WorkflowResult (Option WorkflowRecoveryHook) :=
  if document.isNull then .ok none
  else do
    checkKeys document ["mode"] ["max_retries", "fallback_step"] "recovery"
    let mode ← expectIr (memberOf document "mode").asString "recovery mode must be a string"
    let hook ← parseRecoveryMode document mode
    return some hook

def WorkflowRecoveryHook.toJson (hook : WorkflowRecoveryHook) : JsonValue :=
  match hook.mode with
  | .none => objectOf [("mode", some (.string (ascii "none")))]
  | .retry =>
      objectOf
        [("mode", some (.string (ascii "retry"))),
          ("max_retries", some (.integer hook.maxRetries))]
  | .fallbackStep =>
      objectOf
        [("mode", some (.string (ascii "fallback_step"))),
          ("fallback_step", some (.string (hook.fallbackStep.getD ⟨.nil⟩).toString))]
  | .agentEscalation => objectOf [("mode", some (.string (ascii "agent_escalation")))]

/-- A bound of a numeric parameter; a member that is no number is passed by. -/
def parseBound (type : WorkflowParameterType) (constraints : JsonValue) (key : String) :
    WorkflowResult (Option Rat) :=
  match (constraints.find (ascii key)).bind numberOf with
  | none => .ok none
  | some number => do
      requireIr (type ≠ .string && type ≠ .boolean) (key ++ " applies to numeric parameters only")
      return some number

/-- A length of a text parameter; a member that is no integer is passed by. -/
def parseLength (type : WorkflowParameterType) (constraints : JsonValue) (key : String) :
    WorkflowResult (Option Nat) :=
  match (constraints.find (ascii key)).bind asInt with
  | none => .ok none
  | some length => do
      requireIr (type = .string) (key ++ " applies to string parameters only")
      requireIr (0 ≤ length) (key ++ " must be non-negative")
      return some length.toNat

def parsePattern (regex : RegexLibrary) (limits : WorkflowLimits) (type : WorkflowParameterType)
    (constraints : JsonValue) : WorkflowResult (Option Bytes) :=
  match (constraints.find (ascii "pattern")).bind JsonValue.asString with
  | none => .ok none
  | some pattern => do
      requireIr (type = .string) "pattern applies to string parameters only"
      requireIr (pattern.length ≤ limits.maxPatternBytes) "pattern exceeds limit"
        .resourceExhausted
      requireIr (regex.compiles pattern) "pattern is not a valid regex"
      return some pattern

def parseEnum (limits : WorkflowLimits) (constraints : JsonValue) :
    WorkflowResult (List JsonValue) :=
  match constraints.find (ascii "enum") with
  | none => .ok []
  | some values => do
      let items ← expectIr (values.asArray.filter fun items => !items.isEmpty)
        "enum must be a non-empty array"
      requireIr (items.length ≤ limits.maxEnumValues) "enum exceeds limit" .resourceExhausted
      items.forM fun item =>
        requireIr (!item.isArray && !item.isObject) "enum values must be scalars"
      return items

def constraintKeys : List String :=
  ["minimum", "maximum", "min_length", "max_length", "pattern", "enum"]

def parseConstraints (regex : RegexLibrary) (limits : WorkflowLimits)
    (spec : WorkflowParameterSpec) (constraints : JsonValue) :
    WorkflowResult WorkflowParameterSpec := do
  let members ← expectIr constraints.asObject "constraints must be an object"
  members.forM fun member => checkMember constraintKeys "constraints" member.1
  let minimum ← parseBound spec.type constraints "minimum"
  let maximum ← parseBound spec.type constraints "maximum"
  let minLength ← parseLength spec.type constraints "min_length"
  let maxLength ← parseLength spec.type constraints "max_length"
  let pattern ← parsePattern regex limits spec.type constraints
  let enumValues ← parseEnum limits constraints
  return { spec with
    minimum := minimum
    maximum := maximum
    minLength := minLength
    maxLength := maxLength
    pattern := pattern
    enumValues := enumValues }

/-- A bounded text where the member is there, else the empty one. -/
def parseText (limits : WorkflowLimits) (given : Option JsonValue) (detail : String) :
    WorkflowResult Bytes :=
  match given with
  | none => .ok []
  | some text => expectIr (boundedString text limits.maxStringBytes) detail

def givenMember (document : JsonValue) (key : String) : Option JsonValue :=
  (document.find (ascii key)).filter fun value => !value.isNull

def parseParameter (regex : RegexLibrary) (limits : WorkflowLimits) (document : JsonValue) :
    WorkflowResult WorkflowParameterSpec := do
  checkKeys document ["name", "type", "required"] ["default", "constraints", "summary"]
    "parameter"
  let name ← expectIr (boundedString (memberOf document "name") limits.maxStringBytes)
    "parameter name must be a bounded string"
  let typeText ← expectIr (memberOf document "type").asString "parameter type must be a string"
  let type ← expectIr (parseWorkflowParameterType typeText) "parameter type is unknown"
  let required ← expectIr (memberOf document "required").asBoolean
    "parameter required must be a boolean"
  let summary ← parseText limits (document.find (ascii "summary"))
    "parameter summary is not bounded"
  requireIr (!required || (document.find (ascii "default")).isNone)
    "required parameter must not declare a default"
  let spec : WorkflowParameterSpec :=
    { name := name
      type := type
      required := required
      defaultValue := (givenMember document "default").getD .null
      summary := summary }
  match givenMember document "constraints" with
  | none => return spec
  | some constraints => parseConstraints regex limits spec constraints

/-- The constraints that are declared; none of them is written as an empty object. -/
def WorkflowParameterSpec.constraints (spec : WorkflowParameterSpec) :
    List (String × Option JsonValue) :=
  [("minimum", spec.minimum.map JsonValue.number),
    ("maximum", spec.maximum.map JsonValue.number),
    ("min_length", spec.minLength.map fun length => .integer (toInt64 length)),
    ("max_length", spec.maxLength.map fun length => .integer (toInt64 length)),
    ("pattern", spec.pattern.map JsonValue.string),
    ("enum", fieldWhen (!spec.enumValues.isEmpty) (.array spec.enumValues))]

/-- The default of a required parameter is not written. -/
def WorkflowParameterSpec.toJson (spec : WorkflowParameterSpec) : JsonValue :=
  objectOf
    [("name", some (.string spec.name)),
      ("type", some (.string spec.type.name)),
      ("required", some (.boolean spec.required)),
      ("default", fieldWhen (!spec.required && !spec.defaultValue.isNull) spec.defaultValue),
      ("constraints",
        fieldWhen (!(fieldMembers spec.constraints).isEmpty) (objectOf spec.constraints)),
      ("summary", fieldWhen (!spec.summary.isEmpty) (.string spec.summary))]

def parseCounter (document : JsonValue) (key : String) (ceiling : Int) : WorkflowResult Nat :=
  match document.find (ascii key) with
  | none => .ok 1
  | some value => do
      let count ← expectIr (asInt value) (key ++ " must be an integer")
      requireIr (1 ≤ count && count ≤ ceiling) (key ++ " out of range")
      return count.toNat

def parseStepName (limits : WorkflowLimits) (document : JsonValue) : WorkflowResult Bytes :=
  parseText limits (givenMember document "name") "step name must be a bounded string"

def parseLoopHead (document : JsonValue) : WorkflowResult Bool :=
  match document.find (ascii "loop_head") with
  | none => .ok false
  | some value => expectIr value.asBoolean "loop_head must be a boolean"

def parseStepArguments (limits : WorkflowLimits) (document : JsonValue) :
    WorkflowResult JsonValue :=
  match givenMember document "arguments" with
  | none => .ok .null
  | some arguments => do
      requireIr arguments.isObject "step arguments must be an object"
      requireIr ((toJsonString arguments).length ≤ limits.maxArgumentsBytes)
        "step arguments exceed limit" .resourceExhausted
      return arguments

def parseStepPredicate (limits : WorkflowLimits) (document : JsonValue) (key : String) :
    WorkflowResult (Option WorkflowPredicate) :=
  match document.find (ascii key) with
  | none => .ok none
  | some predicate => parsePredicate limits predicate

def parseStepRecovery (document : JsonValue) : WorkflowResult (Option WorkflowRecoveryHook) :=
  match document.find (ascii "recovery") with
  | none => .ok none
  | some hook => parseRecovery hook

def parseJumpTo (document : JsonValue) : WorkflowResult (Option StepId) :=
  match givenMember document "jump_to" with
  | none => .ok none
  | some jump => do
      let target ← expectIr (parseGivenId jump) "jump_to must be a step id"
      return some target

def checkStepKind (limits : WorkflowLimits) (step : WorkflowStep) : WorkflowResult Unit := do
  requireIr (step.kind ≠ .verify || step.verification.isSome)
    "verify step requires verification"
  requireIr
    (step.kind ≠ .navigate ||
      ((step.arguments.find (ascii "target")).bind
        (boundedString · limits.maxStringBytes)).isSome)
    "navigate step requires a bounded target argument"
  requireIr (step.kind ≠ .control || step.jumpTo.isSome) "control step requires jump_to"
  requireIr (step.kind = .control || step.jumpTo.isNone)
    "jump_to only allowed on control steps"

def stepKeys : List String :=
  ["name", "loop_head", "arguments", "precondition", "verification", "recovery", "max_attempts",
    "jump_to", "max_iterations"]

def parseStep (limits : WorkflowLimits) (document : JsonValue) : WorkflowResult WorkflowStep := do
  checkKeys document ["step_id", "kind"] stepKeys "step"
  let id ← expectIr (parseGivenId (memberOf document "step_id")) "step_id must be a non-nil id"
  let name ← parseStepName limits document
  let kindText ← expectIr (memberOf document "kind").asString "step kind must be a string"
  let kind ← expectIr (parseWorkflowStepKind kindText) "step kind is unknown"
  let loopHead ← parseLoopHead document
  let arguments ← parseStepArguments limits document
  let precondition ← parseStepPredicate limits document "precondition"
  let verification ← parseStepPredicate limits document "verification"
  let recovery ← parseStepRecovery document
  let maxAttempts ← parseCounter document "max_attempts" ceilingMaxAttempts
  let jumpTo ← parseJumpTo document
  let maxIterations ← parseCounter document "max_iterations" ceilingMaxIterations
  let step : WorkflowStep :=
    { id := id
      name := name
      kind := kind
      loopHead := loopHead
      arguments := arguments
      precondition := precondition
      verification := verification
      recovery := recovery
      maxAttempts := maxAttempts
      jumpTo := jumpTo
      maxIterations := maxIterations }
  checkStepKind limits step
  return step

/-- The iteration budget is written beside a jump only. -/
def WorkflowStep.toJson (step : WorkflowStep) : JsonValue :=
  objectOf
    [("step_id", some (.string step.id.toString)),
      ("name", fieldWhen (!step.name.isEmpty) (.string step.name)),
      ("kind", some (.string step.kind.name)),
      ("loop_head", fieldWhen step.loopHead (.boolean true)),
      ("arguments", fieldWhen (!step.arguments.isNull) step.arguments),
      ("precondition", step.precondition.map WorkflowPredicate.toJson),
      ("verification", step.verification.map WorkflowPredicate.toJson),
      ("recovery", step.recovery.map WorkflowRecoveryHook.toJson),
      ("max_attempts", fieldWhen (step.maxAttempts ≠ 1) (.integer step.maxAttempts)),
      ("jump_to", step.jumpTo.map fun target => .string target.toString),
      ("max_iterations", fieldWhen step.jumpTo.isSome (.integer step.maxIterations))]

def toUint16 (value : Int) : Nat := (value % 2 ^ 16).toNat

def parseSchemaVersion (version : JsonValue) : WorkflowResult SchemaVersion := do
  requireIr version.isObject "schema_version must be an object"
  checkKeys version ["major", "minor"] [] "schema_version"
  let major ← expectIr (asInt (memberOf version "major"))
    "schema_version members must be integers"
  let minor ← expectIr (asInt (memberOf version "minor"))
    "schema_version members must be integers"
  if toUint16 major ≠ workflowIrReaderVersion.major ∨
      workflowIrReaderVersion.minor < toUint16 minor then
    .error
      { code := .unsupportedVersion
        safeMessage := ascii "workflow ir schema version is not supported" }
  else .ok ⟨toUint16 major, toUint16 minor⟩

def parseDefinitionSummary (limits : WorkflowLimits) (document : JsonValue) :
    WorkflowResult Bytes :=
  parseText limits (givenMember document "summary") "workflow summary is not bounded"

def parseParameters (regex : RegexLibrary) (limits : WorkflowLimits) (document : JsonValue) :
    WorkflowResult (List WorkflowParameterSpec) :=
  match givenMember document "parameters" with
  | none => .ok []
  | some parameters => do
      let items ← expectIr parameters.asArray "parameters must be an array"
      requireIr (items.length ≤ limits.maxParameters) "parameter count exceeds limit"
        .resourceExhausted
      parseDistinct (parseParameter regex limits) WorkflowParameterSpec.name
        "duplicate parameter name" [] items

def parseSteps (limits : WorkflowLimits) (document : JsonValue) :
    WorkflowResult (List WorkflowStep) := do
  let items ← expectIr ((memberOf document "steps").asArray.filter fun items => !items.isEmpty)
    "steps must be a non-empty array"
  requireIr (items.length ≤ limits.maxSteps) "step count exceeds limit" .resourceExhausted
  parseDistinct (parseStep limits) WorkflowStep.id "duplicate step id" [] items

def parseAllowedPolicy (item : JsonValue) : WorkflowResult WorkflowPolicy := do
  let name ← expectIr item.asString "allowed_policies members must be strings"
  expectIr (parseWorkflowPolicy name) "allowed_policies member is unknown"

def parseAllowedPolicies (document : JsonValue) : WorkflowResult (List WorkflowPolicy) := do
  let items ← expectIr
    ((memberOf document "allowed_policies").asArray.filter fun items => !items.isEmpty)
    "allowed_policies must be a non-empty array"
  parseDistinct parseAllowedPolicy id "duplicate allowed policy" [] items

/-- A control step jumps to an earlier loop head. -/
def jumpsBack (definition : WorkflowDefinition) (index : Nat) (step : WorkflowStep) : Bool :=
  let position := definition.steps.findIdx fun candidate => some candidate.id = step.jumpTo
  definition.steps[position]?.any fun target => target.loopHead && position < index

/-- A fallback goes to a later step. -/
def fallsForward (definition : WorkflowDefinition) (index : Nat) (hook : WorkflowRecoveryHook) :
    Bool :=
  let position := definition.steps.findIdx fun candidate =>
    some candidate.id = hook.fallbackStep
  index < position && position < definition.steps.length

def checkStepTargets (definition : WorkflowDefinition) (step : WorkflowStep) (index : Nat) :
    WorkflowResult Unit := do
  requireIr (step.kind ≠ .control || jumpsBack definition index step)
    "control jump must target an earlier loop_head step"
  requireIr
    (step.recovery.all fun hook =>
      hook.mode ≠ .fallbackStep || fallsForward definition index hook)
    "fallback_step must reference a later step"
  requireIr (step.recoveryMode ≠ some .agentEscalation || definition.defaultPolicy.allowsAgent)
    "agent escalation requires an agent-capable default policy"

/-- A default has to pass the check of what is bound. -/
def validateDefault (regex : RegexLibrary) (spec : WorkflowParameterSpec) :
    WorkflowResult Unit :=
  if spec.defaultValue.isNull then .ok ()
  else
    match checkConstraint regex.search spec spec.defaultValue with
    | .ok () => .ok ()
    | .error error =>
        if error.domainCode = WorkflowBindError.constraintViolated.value then
          .error (makeWorkflowBindError .invalidDefault (parameterLabel spec))
        else .error error

def validateWorkflowParameterSpecs (regex : RegexLibrary) (definition : WorkflowDefinition) :
    WorkflowResult Unit :=
  definition.parameters.forM (validateDefault regex)

def checkDefinition (regex : RegexLibrary) (definition : WorkflowDefinition) :
    WorkflowResult Unit := do
  requireIr (definition.allowedPolicies.contains definition.defaultPolicy)
    "default_policy must be declared in allowed_policies"
  definition.steps.zipIdx.forM fun numbered =>
    checkStepTargets definition numbered.1 numbered.2
  validateWorkflowParameterSpecs regex definition

def workflowDefinitionFromJson (regex : RegexLibrary) (limits : WorkflowLimits)
    (document : JsonValue) : WorkflowResult WorkflowDefinition := do
  let bounded := clampLimits limits
  checkKeys document
    ["schema_version", "workflow_id", "name", "steps", "default_policy", "allowed_policies"]
    ["summary", "parameters"] "workflow definition"
  checkDepth document bounded.maxDepth
  requireIr ((toJsonString document).length ≤ bounded.maxDocumentBytes)
    "workflow document exceeds limit" .resourceExhausted
  let schemaVersion ← parseSchemaVersion (memberOf document "schema_version")
  let workflowId ← expectIr (parseGivenId (memberOf document "workflow_id"))
    "workflow_id must be a non-nil id"
  let name ← expectIr (boundedString (memberOf document "name") bounded.maxStringBytes)
    "workflow name must be a bounded string"
  let summary ← parseDefinitionSummary bounded document
  let parameters ← parseParameters regex bounded document
  let steps ← parseSteps bounded document
  let policyText ← expectIr (memberOf document "default_policy").asString
    "default_policy must be a string"
  let defaultPolicy ← expectIr (parseWorkflowPolicy policyText) "default_policy is unknown"
  let allowedPolicies ← parseAllowedPolicies document
  let definition : WorkflowDefinition :=
    { schemaVersion := schemaVersion
      workflowId := workflowId
      name := name
      summary := summary
      parameters := parameters
      steps := steps
      defaultPolicy := defaultPolicy
      allowedPolicies := allowedPolicies }
  checkDefinition regex definition
  return definition

def workflowDefinitionToJson (definition : WorkflowDefinition) : JsonValue :=
  objectOf
    [("schema_version",
        some (objectOf
          [("major", some (.integer definition.schemaVersion.major)),
            ("minor", some (.integer definition.schemaVersion.minor))])),
      ("workflow_id", some (.string definition.workflowId.toString)),
      ("name", some (.string definition.name)),
      ("summary", fieldWhen (!definition.summary.isEmpty) (.string definition.summary)),
      ("parameters", some (.array (definition.parameters.map WorkflowParameterSpec.toJson))),
      ("steps", some (.array (definition.steps.map WorkflowStep.toJson))),
      ("default_policy", some (.string definition.defaultPolicy.name)),
      ("allowed_policies",
        some (.array (definition.allowedPolicies.map fun policy => .string policy.name)))]

def validateWorkflowDefinition (regex : RegexLibrary) (limits : WorkflowLimits)
    (definition : WorkflowDefinition) : WorkflowResult Unit := do
  let _ ← workflowDefinitionFromJson regex limits (workflowDefinitionToJson definition)
  return ()

end Mira.Workflow
