import Mira.Digest.Sha256
import Mira.Json.Value

/-!
The workflow definition, the patches of a run and the frozen table of run states. A counter
that is bounded by the definition is a natural number.
-/

namespace Mira.Workflow
open Mira Bytes

inductive WorkflowPolicy
  | strict | recoverable | agentAssisted | interactive | dryRun
  deriving DecidableEq

def WorkflowPolicy.name : WorkflowPolicy → Bytes
  | .strict => ascii "strict"
  | .recoverable => ascii "recoverable"
  | .agentAssisted => ascii "agent_assisted"
  | .interactive => ascii "interactive"
  | .dryRun => ascii "dry_run"

/-- The policies in the order in which a name is compared with theirs. -/
def workflowPolicies : List WorkflowPolicy :=
  [.strict, .recoverable, .agentAssisted, .interactive, .dryRun]

def parseWorkflowPolicy (name : Bytes) : Option WorkflowPolicy :=
  workflowPolicies.find? fun policy => policy.name = name

theorem parseWorkflowPolicy_name (policy : WorkflowPolicy) :
    parseWorkflowPolicy policy.name = some policy := by
  cases policy <;> rfl

def WorkflowPolicy.allowsAgent (policy : WorkflowPolicy) : Bool :=
  policy = .recoverable || policy = .agentAssisted || policy = .interactive

def WorkflowPolicy.dispatchesSideEffects (policy : WorkflowPolicy) : Bool := policy ≠ .dryRun

/-- The stable domain codes of the workflow runtime. -/
inductive WorkflowRuntimeError
  | loopBudgetExceeded | stepBudgetExceeded | stepAttemptsExceeded | verifyFailed
  | verifyNotEvaluable | toolDispatchFailed | navigateUnresolvable | resumeUncertainSideEffect
  | policyNotSupported | toolBindingInvalid | verificationRequired | policyNotInteractive
  | patchIdConflict | patchRejected | policySwitchRejected | patchCapacityExceeded
  | decisionNotPending | decisionMismatch | unknownPatchTarget | escalationBudgetExceeded
  | navigateNoScreenState | navigateTargetUnknown | navigatePlanFailed
  | navigateArrivalUnverified | navigateTargetInvalid
  deriving DecidableEq

/-- The domain code; zero where an error has none. -/
def WorkflowRuntimeError.value : WorkflowRuntimeError → Nat
  | .loopBudgetExceeded => 1
  | .stepBudgetExceeded => 2
  | .stepAttemptsExceeded => 3
  | .verifyFailed => 4
  | .verifyNotEvaluable => 5
  | .toolDispatchFailed => 6
  | .navigateUnresolvable => 7
  | .resumeUncertainSideEffect => 8
  | .policyNotSupported => 9
  | .toolBindingInvalid => 10
  | .verificationRequired => 11
  | .policyNotInteractive => 12
  | .patchIdConflict => 13
  | .patchRejected => 14
  | .policySwitchRejected => 15
  | .patchCapacityExceeded => 16
  | .decisionNotPending => 17
  | .decisionMismatch => 18
  | .unknownPatchTarget => 19
  | .escalationBudgetExceeded => 20
  | .navigateNoScreenState => 21
  | .navigateTargetUnknown => 22
  | .navigatePlanFailed => 23
  | .navigateArrivalUnverified => 24
  | .navigateTargetInvalid => 25

def WorkflowRuntimeError.code : WorkflowRuntimeError → ErrorCode
  | .loopBudgetExceeded | .stepBudgetExceeded | .stepAttemptsExceeded
  | .escalationBudgetExceeded | .patchCapacityExceeded => .resourceExhausted
  | .verifyFailed | .verifyNotEvaluable | .navigateNoScreenState | .navigatePlanFailed
  | .navigateArrivalUnverified => .invalidObservation
  | .toolDispatchFailed => .platformError
  | .navigateUnresolvable | .policyNotSupported | .policyNotInteractive =>
      .unsupportedCapability
  | .resumeUncertainSideEffect => .executionUncertain
  | .patchIdConflict => .alreadyExists
  | .decisionNotPending | .decisionMismatch => .invalidState
  | .toolBindingInvalid | .verificationRequired | .patchRejected | .policySwitchRejected
  | .unknownPatchTarget | .navigateTargetUnknown | .navigateTargetInvalid => .invalidArgument

structure WorkflowError where
  code : ErrorCode
  domainCode : Nat := 0
  retryable : Bool := false
  safeMessage : Bytes := []
  deriving DecidableEq

abbrev WorkflowResult (α : Type) := Except WorkflowError α

def workflowError (code : ErrorCode) (message : String) (retryable : Bool := false) :
    WorkflowError :=
  { code := code, retryable := retryable, safeMessage := ascii message }

def makeRuntimeError (error : WorkflowRuntimeError) (detail : Bytes) : WorkflowError :=
  { code := error.code
    domainCode := error.value
    retryable := error = .patchCapacityExceeded
    safeMessage := detail }

def maxSummaryBytes : Nat := 2048

def boundedSummary (summary : Bytes) : Bytes := summary.take maxSummaryBytes

inductive WorkflowPredicateOp
  | eq | ne | lt | le | gt | ge | contains | exists_
  deriving DecidableEq

structure WorkflowPredicate where
  signal : Bytes
  op : WorkflowPredicateOp := .eq
  value : JsonValue := .null

inductive WorkflowPredicateResult
  | satisfied | notSatisfied | notEvaluable
  deriving DecidableEq

inductive WorkflowStepKind
  | toolCall | navigate | verify | control
  deriving DecidableEq

inductive RecoveryMode
  | none | retry | fallbackStep | agentEscalation
  deriving DecidableEq

structure WorkflowRecoveryHook where
  mode : RecoveryMode := .none
  maxRetries : Nat := 0
  fallbackStep : Option StepId := .none

structure WorkflowStep where
  id : StepId
  name : Bytes := []
  kind : WorkflowStepKind := .toolCall
  loopHead : Bool := false
  arguments : JsonValue := .null
  precondition : Option WorkflowPredicate := none
  verification : Option WorkflowPredicate := none
  recovery : Option WorkflowRecoveryHook := none
  maxAttempts : Nat := 1
  jumpTo : Option StepId := none
  maxIterations : Nat := 1

inductive WorkflowParameterType
  | string | integer | number | boolean
  deriving DecidableEq

structure WorkflowParameterSpec where
  name : Bytes
  type : WorkflowParameterType := .string
  required : Bool := false
  defaultValue : JsonValue := .null
  minimum : Option Rat := none
  maximum : Option Rat := none
  minLength : Option Nat := none
  maxLength : Option Nat := none
  pattern : Option Bytes := none
  enumValues : List JsonValue := []
  summary : Bytes := []

structure WorkflowDefinition where
  schemaVersion : SchemaVersion := {}
  workflowId : WorkflowId
  name : Bytes := []
  summary : Bytes := []
  parameters : List WorkflowParameterSpec := []
  steps : List WorkflowStep := []
  defaultPolicy : WorkflowPolicy := .strict
  allowedPolicies : List WorkflowPolicy := []

def WorkflowStep.recoveryMode (step : WorkflowStep) : Option RecoveryMode :=
  step.recovery.map WorkflowRecoveryHook.mode

/-- `step_index`: the position of the step, or the number of steps. -/
def stepIndex (definition : WorkflowDefinition) (step : StepId) : Nat :=
  definition.steps.findIdx fun candidate => candidate.id = step

def validateWorkflowPolicyCompatibility (definition : WorkflowDefinition)
    (policy : WorkflowPolicy) : WorkflowResult Unit :=
  if definition.allowedPolicies.contains policy = false then
    .error (workflowError .invalidArgument "policy is not declared in the workflow allowed set")
  else if policy.allowsAgent = false ∧
      definition.steps.any (fun step => step.recoveryMode = some .agentEscalation) then
    .error (workflowError .invalidArgument
      "agent escalation hook requires an agent-capable policy")
  else .ok ()

inductive WorkflowPatchTarget
  | runParameters | stepArguments | executionPolicy
  deriving DecidableEq

inductive WorkflowPatchOp
  | set | unset | skip
  deriving DecidableEq

structure WorkflowPatchEntry where
  target : WorkflowPatchTarget := .runParameters
  op : WorkflowPatchOp := .set
  path : Bytes
  value : JsonValue := .null

def WorkflowPatchTarget.name : WorkflowPatchTarget → Bytes
  | .runParameters => ascii "run_parameters"
  | .stepArguments => ascii "step_arguments"
  | .executionPolicy => ascii "execution_policy"

def WorkflowPatchOp.name : WorkflowPatchOp → Bytes
  | .set => ascii "set"
  | .unset => ascii "unset"
  | .skip => ascii "skip"

def WorkflowPatchEntry.document (entry : WorkflowPatchEntry) : JsonValue :=
  .object ([(ascii "target", .string entry.target.name), (ascii "op", .string entry.op.name),
    (ascii "path", .string entry.path)] ++
      if entry.value.isNull then [] else [(ascii "value", entry.value)])

def canonicalJsonDigest (value : JsonValue) : Sha256Digest :=
  digestString (canonicalJsonString value)

def workflowPatchDigest (patchId : WorkflowPatchId) (entries : List WorkflowPatchEntry) :
    Sha256Digest :=
  canonicalJsonDigest (.object
    [(ascii "patch_id", .string patchId.toString),
      (ascii "entries", .array (entries.map WorkflowPatchEntry.document))])

inductive WorkflowDecisionKind
  | stepFailure | agentPrompt
  deriving DecidableEq

structure WorkflowDecisionRequest where
  decisionId : WorkflowDecisionId
  payloadDigest : Sha256Digest
  kind : WorkflowDecisionKind := .stepFailure
  stepId : Option StepId := none
  proposal : List WorkflowPatchEntry := []
  safeSummary : Bytes := []

def decisionPayloadDigest (prompt : Bytes) (proposal : List WorkflowPatchEntry) : Sha256Digest :=
  canonicalJsonDigest (.object
    [(ascii "prompt", .string prompt),
      (ascii "proposal", .array (proposal.map WorkflowPatchEntry.document))])

inductive WorkflowDecisionResolution
  | accept | reject | cancelRun

inductive WorkflowRunState
  | created | running | paused | waitingUser | waitingAgent | completed | failed | cancelled
  deriving DecidableEq

def WorkflowRunState.isTerminal (state : WorkflowRunState) : Bool :=
  state = .completed || state = .failed || state = .cancelled

def validWorkflowRunTransition (source target : WorkflowRunState) : Bool :=
  match source with
  | .created => target = .running || target = .cancelled
  | .running =>
      target = .paused || target = .waitingUser || target = .waitingAgent ||
        target = .completed || target = .failed || target = .cancelled
  | .paused | .waitingUser => target = .running || target = .cancelled
  | .waitingAgent =>
      target = .running || target = .waitingUser || target = .failed || target = .cancelled
  | .completed | .failed | .cancelled => false

structure WorkflowPendingDecision where
  decisionId : WorkflowDecisionId
  payloadDigest : Sha256Digest
  deriving DecidableEq

/-- The policy of the view is that of the effective state of the run. -/
structure WorkflowRunView where
  state : WorkflowRunState := .created
  runEpoch : Nat := 0
  runPatchEpoch : Nat := 0
  pendingDecision : Option WorkflowPendingDecision := none

/-- The view after a transition, or why there is none. Resubmitting the terminal state a run is
in changes nothing and is told apart by its message. -/
def applyWorkflowRunTransition (view : WorkflowRunView) (target : WorkflowRunState) :
    WorkflowResult WorkflowRunView :=
  if view.state.isTerminal then
    if view.state = target then
      .error (workflowError .invalidState
        "workflow run already settled in the requested terminal state")
    else
      .error (workflowError .invalidState
        "terminal workflow run state has no outgoing transition")
  else if validWorkflowRunTransition view.state target = false then
    .error (workflowError .invalidState "workflow run transition is not legal")
  else
    .ok
      { view with
        state := target
        runEpoch := view.runEpoch + 1
        pendingDecision := if view.state = .waitingUser then none else view.pendingDecision }

/-!
Parameters of a run: binding them to their declarations, putting them in the place of the
references in step arguments, and reading the tool reference of a step. Regular expressions are
those of the host's library.
-/

inductive WorkflowBindError
  | unknownParameter | missingRequired | typeMismatch | constraintViolated | invalidDefault
  | invalidArguments

def WorkflowBindError.value : WorkflowBindError → Nat
  | .unknownParameter => 1
  | .missingRequired => 2
  | .typeMismatch => 3
  | .constraintViolated => 4
  | .invalidDefault => 5
  | .invalidArguments => 6

def makeWorkflowBindError (error : WorkflowBindError) (detail : Bytes) : WorkflowError :=
  { code := .invalidArgument
    domainCode := error.value
    safeMessage := ascii "workflow bind: " ++ detail }

/-- A search for a pattern in a text; `none` where the pattern is no regular expression. -/
abbrev RegexSearch := Bytes → Bytes → Option Bool

def integerToNumber (value : Int) : Rat :=
  if value = 0 then 0
  else
    let magnitude : Rat := (value.natAbs : Int)
    let rounded := (roundBinary64 magnitude).getD magnitude
    if value < 0 then -rounded else rounded

def numberOf : JsonValue → Option Rat
  | .integer value => some (integerToNumber value)
  | .number value => some value
  | _ => none

def valueMatchesType (value : JsonValue) : WorkflowParameterType → Bool
  | .string => value.isString
  | .integer => value.isInteger
  | .number => (numberOf value).isSome
  | .boolean => value.asBoolean.isSome

def parameterLabel (spec : WorkflowParameterSpec) : Bytes :=
  ascii "parameter '" ++ spec.name ++ ascii "'"

def constraintViolated (spec : WorkflowParameterSpec) (detail : String) : WorkflowError :=
  makeWorkflowBindError .constraintViolated (parameterLabel spec ++ ascii detail)

def checkText (regex : RegexSearch) (spec : WorkflowParameterSpec) (text : Bytes) :
    WorkflowResult Unit :=
  if spec.minLength.any fun least => text.length < least then
    .error (constraintViolated spec " below min_length")
  else if spec.maxLength.any fun most => most < text.length then
    .error (constraintViolated spec " above max_length")
  else
    match spec.pattern with
    | none => .ok ()
    | some pattern =>
        match regex pattern text with
        | none => .error (constraintViolated spec " pattern invalid")
        | some false => .error (constraintViolated spec " violates pattern")
        | some true => .ok ()

def checkNumber (spec : WorkflowParameterSpec) (number : Rat) : WorkflowResult Unit :=
  if spec.minimum.any fun least => number < least then
    .error (constraintViolated spec " below minimum")
  else if spec.maximum.any fun most => most < number then
    .error (constraintViolated spec " above maximum")
  else .ok ()

/-- A text is only checked as such for a text parameter, a number for a numeric one. -/
def checkRange (regex : RegexSearch) (spec : WorkflowParameterSpec) (value : JsonValue) :
    WorkflowResult Unit :=
  match spec.type with
  | .string => checkText regex spec (value.asString.getD [])
  | .integer | .number => checkNumber spec ((numberOf value).getD 0)
  | .boolean => .ok ()

def checkConstraint (regex : RegexSearch) (spec : WorkflowParameterSpec) (value : JsonValue) :
    WorkflowResult Unit :=
  if valueMatchesType value spec.type = false then
    .error (makeWorkflowBindError .typeMismatch (parameterLabel spec))
  else
    match checkRange regex spec value with
    | .error error => .error error
    | .ok () =>
        if spec.enumValues.isEmpty = false ∧ value ∉ spec.enumValues then
          .error (constraintViolated spec " outside enum")
        else .ok ()

structure WorkflowParameterBindings where
  values : List (Bytes × JsonValue)
  digest : Sha256Digest

namespace WorkflowDefinition

def parameter (definition : WorkflowDefinition) (name : Bytes) : Option WorkflowParameterSpec :=
  definition.parameters.find? fun spec => spec.name = name

end WorkflowDefinition

/-- The members of the input that is bound, each checked against its declaration. -/
def bindGiven (regex : RegexSearch) (definition : WorkflowDefinition) :
    List (Bytes × JsonValue) → WorkflowResult (List (Bytes × JsonValue))
  | [] => .ok []
  | (name, value) :: rest =>
      match definition.parameter name with
      | none => .error (makeWorkflowBindError .unknownParameter name)
      | some spec =>
          match checkConstraint regex spec value with
          | .error error => .error error
          | .ok () => (bindGiven regex definition rest).map ((name, value) :: ·)

/-- The declared parameters that were not given take their defaults. -/
def bindDefaults : List WorkflowParameterSpec → List (Bytes × JsonValue) →
    WorkflowResult (List (Bytes × JsonValue))
  | [], values => .ok values
  | spec :: rest, values =>
      if values.any fun entry => entry.1 = spec.name then bindDefaults rest values
      else if spec.defaultValue.isNull = false then
        bindDefaults rest (values ++ [(spec.name, spec.defaultValue)])
      else if spec.required then
        .error (makeWorkflowBindError .missingRequired spec.name)
      else bindDefaults rest values

def bindMembers (regex : RegexSearch) (definition : WorkflowDefinition)
    (members : List (Bytes × JsonValue)) : WorkflowResult WorkflowParameterBindings :=
  match bindGiven regex definition members with
  | .error error => .error error
  | .ok given =>
      match bindDefaults definition.parameters given with
      | .error error => .error error
      | .ok values => .ok ⟨values, canonicalJsonDigest (.object values)⟩

def bindWorkflowParameters (regex : RegexSearch) (definition : WorkflowDefinition)
    (input : JsonValue) : WorkflowResult WorkflowParameterBindings :=
  match input with
  | .null => bindMembers regex definition []
  | .object members => bindMembers regex definition members
  | _ => .error (makeWorkflowBindError .invalidArguments (ascii "input must be an object"))

def irError (detail : String) : WorkflowError :=
  { code := .invalidArgument, safeMessage := ascii "workflow ir: " ++ ascii detail }

def lookupMember (members : List (Bytes × JsonValue)) (key : Bytes) : Option JsonValue :=
  (JsonValue.object members).find key

def resolveReference (values members : List (Bytes × JsonValue)) (reference : JsonValue) :
    WorkflowResult JsonValue :=
  if members.length ≠ 1 then
    .error (irError "parameter reference object admits only '$param'")
  else
    match reference.asString with
    | none => .error (irError "'$param' must name a parameter")
    | some name =>
        match lookupMember values name with
        | none => .error (makeWorkflowBindError .unknownParameter name)
        | some bound => .ok bound

mutual

def resolveReferences (values : List (Bytes × JsonValue)) : JsonValue → WorkflowResult JsonValue
  | .object members =>
      match lookupMember members (ascii "$param") with
      | some reference => resolveReference values members reference
      | none => (resolveMembers values members).map JsonValue.object
  | .array items => (resolveItems values items).map JsonValue.array
  | node => .ok node

def resolveItems (values : List (Bytes × JsonValue)) :
    List JsonValue → WorkflowResult (List JsonValue)
  | [] => .ok []
  | item :: rest =>
      match resolveReferences values item with
      | .error error => .error error
      | .ok resolved => (resolveItems values rest).map (resolved :: ·)

def resolveMembers (values : List (Bytes × JsonValue)) :
    List (Bytes × JsonValue) → WorkflowResult (List (Bytes × JsonValue))
  | [] => .ok []
  | (key, value) :: rest =>
      match resolveReferences values value with
      | .error error => .error error
      | .ok resolved => (resolveMembers values rest).map ((key, resolved) :: ·)

end

def resolveStepArguments (bindings : WorkflowParameterBindings) (arguments : JsonValue) :
    WorkflowResult JsonValue :=
  resolveReferences bindings.values arguments

def toolReferenceScheme : Bytes := ascii "toolref:"

def maxReferenceBytes : Nat := 256
def maxWireNameBytes : Nat := 128

def invalidReference (message : String) : WorkflowError :=
  { code := .invalidArgument, domainCode := 1, safeMessage := ascii message }

def isVocabularyByte (c : UInt8) : Bool :=
  (97 ≤ c && c ≤ 122) || (48 ≤ c && c ≤ 57) || c = 95 || c = 45

/-- Segments of vocabulary bytes between dots; the flag says whether the current one has a
byte yet. -/
def vocabularySegments : Bool → Bytes → Bool
  | nonempty, [] => nonempty
  | nonempty, c :: rest =>
      if c = 46 then nonempty && vocabularySegments false rest
      else isVocabularyByte c && vocabularySegments true rest

def isValidVocabularyId (id : Bytes) : Bool := vocabularySegments false id

def isLowercaseHex (text : Bytes) : Bool :=
  text.all fun c => (48 ≤ c && c ≤ 57) || (97 ≤ c && c ≤ 102)

/-- The wire name of a reference; a pinned digest is only checked for its form. -/
def parseToolReference (text : Bytes) : WorkflowResult Bytes :=
  if maxReferenceBytes < text.length then
    .error (invalidReference "tool reference exceeds the length limit")
  else if text.length ≤ toolReferenceScheme.length ∨
      toolReferenceScheme.isPrefixOf text = false then
    .error (invalidReference "tool reference requires the 'toolref:' scheme")
  else
    let parts := splitAtByte 64 (text.drop toolReferenceScheme.length)
    if parts.1.isEmpty ∨ maxWireNameBytes < parts.1.length then
      .error (invalidReference
        "tool reference wire name is empty or over the length limit")
    else if isValidVocabularyId parts.1 = false then
      .error (invalidReference
        "tool reference wire name violates the vocabulary charset")
    else if parts.2.any fun digest => digest.length ≠ 64 || !isLowercaseHex digest then
      .error (invalidReference
        "pinned reference requires exactly 64 lowercase hex digest characters")
    else .ok parts.1

/-- The wire name in place of a reference in the reserved member, if it holds one. Only the
later schema has references. -/
def resolveToolReferenceMember (definition : WorkflowDefinition) (resolved : JsonValue) :
    WorkflowResult (Option Bytes) :=
  match (resolved.find (ascii "tool")).bind JsonValue.asString with
  | none => .ok none
  | some text =>
      if definition.schemaVersion.minor < 1 ∨ toolReferenceScheme.isPrefixOf text = false then
        .ok none
      else (parseToolReference text).map some

end Mira.Workflow
