import Mira.Workflow.Decoded

/-!
What decoding the canonical form of a definition gives back: the definition without the fields
that the canonical form leaves out. Validation accepts a definition exactly when it accepts that
one, so it speaks about the definition itself when there is nothing to leave out.
-/

namespace Mira.Workflow
open Mira Bytes

theorem parseGivenId_toString {tag : IdTag} {id read : StrongId tag}
    (parsed : parseGivenId (.string id.toString) = some read) : read = id := by
  have found := (Option.filter_eq_some_iff.mp parsed).1
  rw [JsonValue.asString, Option.bind_some, StrongId.parse_toString] at found
  exact (Option.some.inj found).symm

variable {value : JsonValue}

theorem parseGivenId_not_nil {tag : IdTag} {id : StrongId tag}
    (parsed : parseGivenId value = some id) : id.isNil = false := by
  simpa using (Option.filter_eq_some_iff.mp parsed).2

theorem parseWorkflowParameterType_name (type : WorkflowParameterType) :
    parseWorkflowParameterType type.name = some type := by
  cases type <;> rfl

theorem parseWorkflowPredicateOp_name (op : WorkflowPredicateOp) :
    parseWorkflowPredicateOp op.name = some op := by
  cases op <;> rfl

theorem parseWorkflowStepKind_name (kind : WorkflowStepKind) :
    parseWorkflowStepKind kind.name = some kind := by
  cases kind <;> rfl

/-- A test for presence compares with nothing. -/
def WorkflowPredicate.canonical (predicate : WorkflowPredicate) : WorkflowPredicate :=
  if predicate.op = .exists_ then { predicate with value := .null } else predicate

variable {predicate : WorkflowPredicate}

theorem parsePredicateValue_kept (parsed : parsePredicateValue predicate.op
      (fieldWhen (predicate.op ≠ .exists_) predicate.value) = .ok value) :
    value = predicate.canonical.value := by
  rw [parsePredicateValue] at parsed
  rw [WorkflowPredicate.canonical]
  split at parsed
  · next test =>
      obtain ⟨_, _, done⟩ := Checked.ok_of_bind parsed
      cases done
      rw [if_pos test]
  · next test =>
      obtain ⟨found, given, parsed⟩ := Checked.ok_of_bind parsed
      obtain ⟨_, _, done⟩ := Checked.ok_of_bind parsed
      cases done
      simp only [expectIr_ok, fieldWhen, test, ne_eq, not_false_eq_true, decide_true,
        if_true, Option.some.injEq] at given
      rw [if_neg test, given]

variable {limits : WorkflowLimits}

theorem parsePredicate_toJson {read : Option WorkflowPredicate}
    (parsed : parsePredicate limits predicate.toJson = .ok read) :
    read = some predicate.canonical := by
  rw [parsePredicate, WorkflowPredicate.toJson] at parsed
  simp only [isNull_objectOf, Bool.false_eq_true, if_false, memberOf, find_objectOf_cons,
    find_objectOf_nil, String.reduceEq, if_true, Option.some_or, Option.or_none, Option.getD_some,
    JsonValue.asString] at parsed
  obtain ⟨_, _, parsed⟩ := Checked.ok_of_bind parsed
  obtain ⟨signal, signalled, parsed⟩ := Checked.ok_of_bind parsed
  obtain ⟨opText, named, parsed⟩ := Checked.ok_of_bind parsed
  obtain ⟨op, known, parsed⟩ := Checked.ok_of_bind parsed
  obtain ⟨value, valued, parsed⟩ := Checked.ok_of_bind parsed
  obtain ⟨_, _, done⟩ := Checked.ok_of_bind parsed
  have signal_eq := boundedString_some (expectIr_ok.mp signalled)
  cases expectIr_ok.mp named
  rw [expectIr_ok, parseWorkflowPredicateOp_name] at known
  cases known
  cases signal_eq
  cases done
  rw [parsePredicateValue_kept valued, WorkflowPredicate.canonical]
  split <;> rfl

/-- A hook has the field of its mode. -/
def WorkflowRecoveryHook.canonical (hook : WorkflowRecoveryHook) : WorkflowRecoveryHook :=
  { mode := hook.mode
    maxRetries := if hook.mode = .retry then hook.maxRetries else 0
    fallbackStep := if hook.mode = .fallbackStep then hook.fallbackStep else none }

theorem fallbackStep_kept {fallback : Option StepId} {id : StepId}
    (parsed : parseGivenId (.string (fallback.getD ⟨.nil⟩).toString) = some id) :
    fallback = some id := by
  cases fallback with
  | none =>
      have nil := parseGivenId_toString parsed
      have given := parseGivenId_not_nil parsed
      rw [nil] at given
      exact absurd given (by decide)
  | some step => rw [parseGivenId_toString parsed, Option.getD_some]

/-- The name a mode is written with. -/
def RecoveryMode.name : RecoveryMode → Bytes
  | .none => ascii "none"
  | .retry => ascii "retry"
  | .fallbackStep => ascii "fallback_step"
  | .agentEscalation => ascii "agent_escalation"

theorem memberOf_mode (hook : WorkflowRecoveryHook) :
    memberOf hook.toJson "mode" = .string hook.mode.name := by
  obtain ⟨mode, maxRetries, fallback⟩ := hook
  cases mode <;> rfl

variable {hook : WorkflowRecoveryHook}

theorem parseRecoveryMode_kept {given : WorkflowRecoveryHook}
    (parsed : parseRecoveryMode hook.toJson hook.mode.name = .ok given) :
    given = hook.canonical := by
  obtain ⟨mode, maxRetries, fallback⟩ := hook
  cases mode with
  | none =>
      simp only [parseRecoveryMode, RecoveryMode.name, if_true] at parsed
      obtain ⟨_, _, done⟩ := Checked.ok_of_bind parsed
      cases done
      rfl
  | retry =>
      simp only [parseRecoveryMode, RecoveryMode.name, WorkflowRecoveryHook.toJson, ascii_inj,
        String.reduceEq, if_false, if_true, find_objectOf_cons, find_objectOf_nil,
        Option.or_none, Option.bind_some, asInt] at parsed
      obtain ⟨retries, counted, parsed⟩ := Checked.ok_of_bind parsed
      obtain ⟨_, _, parsed⟩ := Checked.ok_of_bind parsed
      obtain ⟨_, _, done⟩ := Checked.ok_of_bind parsed
      cases expectIr_ok.mp counted
      cases done
      rfl
  | fallbackStep =>
      simp only [parseRecoveryMode, RecoveryMode.name, WorkflowRecoveryHook.toJson, ascii_inj,
        String.reduceEq, if_false, if_true, find_objectOf_cons, find_objectOf_nil,
        Option.or_none, Option.bind_some] at parsed
      obtain ⟨step, named, parsed⟩ := Checked.ok_of_bind parsed
      obtain ⟨_, _, done⟩ := Checked.ok_of_bind parsed
      cases done
      rw [fallbackStep_kept (expectIr_ok.mp named)]
      rfl
  | agentEscalation =>
      simp only [parseRecoveryMode, RecoveryMode.name, ascii_inj, String.reduceEq, if_false,
        if_true] at parsed
      obtain ⟨_, _, done⟩ := Checked.ok_of_bind parsed
      cases done
      rfl

theorem parseRecovery_toJson {read : Option WorkflowRecoveryHook}
    (parsed : parseRecovery hook.toJson = .ok read) : read = some hook.canonical := by
  have written : hook.toJson.isNull = false := by
    obtain ⟨mode, maxRetries, fallback⟩ := hook
    cases mode <;> rfl
  rw [parseRecovery, if_neg (by simp [written]), memberOf_mode] at parsed
  obtain ⟨_, _, parsed⟩ := Checked.ok_of_bind parsed
  obtain ⟨mode, named, parsed⟩ := Checked.ok_of_bind parsed
  obtain ⟨given, moded, done⟩ := Checked.ok_of_bind parsed
  cases expectIr_ok.mp named
  cases done
  rw [parseRecoveryMode_kept moded]

/-- A required parameter has no default. -/
def WorkflowParameterSpec.canonical (spec : WorkflowParameterSpec) : WorkflowParameterSpec :=
  if spec.required then { spec with defaultValue := .null } else spec

/-- Lengths that a 64-bit word holds. -/
def WorkflowParameterSpec.Representable (spec : WorkflowParameterSpec) : Prop :=
  (∀ least, spec.minLength = some least → least < 2 ^ 64) ∧
    ∀ most, spec.maxLength = some most → most < 2 ^ 64

theorem isNull_iff : value.isNull = true ↔ value = .null := by
  cases value <;> simp [JsonValue.isNull]

theorem givenMember_when {condition : Bool} (meant : condition = true → value.isNull = false) :
    (fieldWhen condition value).filter (fun value => !value.isNull) =
      fieldWhen condition value := by
  cases condition with
  | false => rfl
  | true => simp [fieldWhen, meant rfl]

theorem toInt64_back {length : Nat} (fits : length < 2 ^ 64) (read : 0 ≤ toInt64 length) :
    (toInt64 length).toNat = length := by
  rw [toInt64, Nat.mod_eq_of_lt fits] at read ⊢
  split at read
  · next small => rw [if_pos small, Int.toNat_natCast]
  · omega

variable {type : WorkflowParameterType} {constraints : JsonValue} {key : String}

theorem parseBound_kept {bound read : Option Rat}
    (written : constraints.find (ascii key) = bound.map JsonValue.number)
    (parsed : parseBound type constraints key = .ok read) : read = bound := by
  rw [parseBound, written] at parsed
  cases bound with
  | none =>
      cases parsed
      rfl
  | some number =>
      obtain ⟨_, _, done⟩ := Checked.ok_of_bind parsed
      cases done
      rfl

theorem parseLength_kept {length read : Option Nat} (written : constraints.find (ascii key) =
      length.map fun length => JsonValue.integer (toInt64 length))
    (fits : ∀ long, length = some long → long < 2 ^ 64)
    (parsed : parseLength type constraints key = .ok read) : read = length := by
  rw [parseLength, written] at parsed
  cases length with
  | none =>
      cases parsed
      rfl
  | some long =>
      obtain ⟨_, _, parsed⟩ := Checked.ok_of_bind parsed
      obtain ⟨_, positive, done⟩ := Checked.ok_of_bind parsed
      cases done
      rw [toInt64_back (fits long rfl) (of_decide_eq_true (requireIr_ok.mp positive))]

variable {regex : RegexLibrary}

theorem parsePattern_kept {pattern read : Option Bytes}
    (written : constraints.find (ascii "pattern") = pattern.map JsonValue.string)
    (parsed : parsePattern regex limits type constraints = .ok read) : read = pattern := by
  rw [parsePattern, written] at parsed
  cases pattern with
  | none =>
      cases parsed
      rfl
  | some text =>
      obtain ⟨_, _, parsed⟩ := Checked.ok_of_bind parsed
      obtain ⟨_, _, parsed⟩ := Checked.ok_of_bind parsed
      obtain ⟨_, _, done⟩ := Checked.ok_of_bind parsed
      cases done
      rfl

theorem parseEnum_kept {values read : List JsonValue}
    (written : constraints.find (ascii "enum") = fieldWhen (!values.isEmpty) (.array values))
    (parsed : parseEnum limits constraints = .ok read) : read = values := by
  rw [parseEnum, written] at parsed
  cases values with
  | nil =>
      cases parsed
      rfl
  | cons first rest =>
      obtain ⟨items, listed, parsed⟩ := Checked.ok_of_bind parsed
      obtain ⟨_, _, parsed⟩ := Checked.ok_of_bind parsed
      obtain ⟨_, _, done⟩ := Checked.ok_of_bind parsed
      cases done
      cases (Option.filter_eq_some_iff.mp (expectIr_ok.mp listed)).1
      rfl

theorem fieldMembers_eq_nil {fields : List (String × Option JsonValue)}
    (none_ : fieldMembers fields = []) : ∀ field ∈ fields, field.2 = none := by
  intro field listed
  have absent := List.filterMap_eq_nil_iff.mp none_ field listed
  simpa using absent

section
variable {regex : RegexLibrary} {limits : WorkflowLimits}

variable {spec read : WorkflowParameterSpec}

theorem parseConstraints_kept {base : WorkflowParameterSpec} (fits : spec.Representable)
    (parsed : parseConstraints regex limits base (objectOf spec.constraints) = .ok read) :
    read =
      { base with
        minimum := spec.minimum
        maximum := spec.maximum
        minLength := spec.minLength
        maxLength := spec.maxLength
        pattern := spec.pattern
        enumValues := spec.enumValues } := by
  rw [parseConstraints] at parsed
  obtain ⟨_, _, parsed⟩ := Checked.ok_of_bind parsed
  obtain ⟨_, _, parsed⟩ := Checked.ok_of_bind parsed
  obtain ⟨minimum, least, parsed⟩ := Checked.ok_of_bind parsed
  obtain ⟨maximum, most, parsed⟩ := Checked.ok_of_bind parsed
  obtain ⟨minLength, shortest, parsed⟩ := Checked.ok_of_bind parsed
  obtain ⟨maxLength, longest, parsed⟩ := Checked.ok_of_bind parsed
  obtain ⟨pattern, matched, parsed⟩ := Checked.ok_of_bind parsed
  obtain ⟨enumValues, listed, done⟩ := Checked.ok_of_bind parsed
  have minimum_eq : minimum = spec.minimum :=
    parseBound_kept (by simp [WorkflowParameterSpec.constraints]) least
  have maximum_eq : maximum = spec.maximum :=
    parseBound_kept (by simp [WorkflowParameterSpec.constraints]) most
  have minLength_eq : minLength = spec.minLength :=
    parseLength_kept (by simp [WorkflowParameterSpec.constraints]) fits.1 shortest
  have maxLength_eq : maxLength = spec.maxLength :=
    parseLength_kept (by simp [WorkflowParameterSpec.constraints]) fits.2 longest
  have pattern_eq : pattern = spec.pattern :=
    parsePattern_kept (by simp [WorkflowParameterSpec.constraints]) matched
  have enumValues_eq : enumValues = spec.enumValues :=
    parseEnum_kept (by simp [WorkflowParameterSpec.constraints]) listed
  cases done
  rw [minimum_eq, maximum_eq, minLength_eq, maxLength_eq, pattern_eq, enumValues_eq]

theorem constraints_unwritten (none_ : fieldMembers spec.constraints = []) :
    spec.minimum = none ∧ spec.maximum = none ∧ spec.minLength = none ∧ spec.maxLength = none ∧
      spec.pattern = none ∧ spec.enumValues = [] := by
  have absent := fieldMembers_eq_nil none_
  simpa [WorkflowParameterSpec.constraints, fieldWhen] using absent

variable {text : Bytes} {detail : String}

theorem parseText_kept {read : Bytes}
    (parsed : parseText limits (fieldWhen (!text.isEmpty) (.string text)) detail = .ok read) :
    read = text := by
  cases text with
  | nil =>
      cases parsed
      rfl
  | cons first rest =>
      cases boundedString_some (expectIr_ok.mp parsed)
      rfl

theorem defaultValue_kept (spec : WorkflowParameterSpec) :
    ((fieldWhen (!spec.required && !spec.defaultValue.isNull) spec.defaultValue).filter
      fun value => !value.isNull).getD .null = spec.canonical.defaultValue := by
  rw [WorkflowParameterSpec.canonical]
  cases required : spec.required with
  | true => rfl
  | false =>
      cases null : spec.defaultValue.isNull with
      | true => simp [fieldWhen, isNull_iff.mp null]
      | false => simp [fieldWhen, Option.filter, null]

theorem canonical_fields (spec : WorkflowParameterSpec) :
    { spec with defaultValue := spec.canonical.defaultValue } = spec.canonical := by
  rw [WorkflowParameterSpec.canonical]
  split <;> rfl

theorem parseParameter_toJson (fits : spec.Representable)
    (parsed : parseParameter regex limits spec.toJson = .ok read) : read = spec.canonical := by
  rw [parseParameter, WorkflowParameterSpec.toJson] at parsed
  simp only [memberOf, givenMember, find_objectOf_cons, find_objectOf_nil, String.reduceEq,
    if_true, if_false, Option.or_none, Option.some_or, Option.getD_some, JsonValue.asString,
    JsonValue.asBoolean] at parsed
  obtain ⟨_, _, parsed⟩ := Checked.ok_of_bind parsed
  obtain ⟨name, named, parsed⟩ := Checked.ok_of_bind parsed
  obtain ⟨typeText, typed, parsed⟩ := Checked.ok_of_bind parsed
  obtain ⟨type, known, parsed⟩ := Checked.ok_of_bind parsed
  obtain ⟨required, flagged, parsed⟩ := Checked.ok_of_bind parsed
  obtain ⟨summary, summed, parsed⟩ := Checked.ok_of_bind parsed
  obtain ⟨_, _, parsed⟩ := Checked.ok_of_bind parsed
  cases boundedString_some (expectIr_ok.mp named)
  cases expectIr_ok.mp typed
  cases expectIr_ok.mp flagged
  rw [expectIr_ok, parseWorkflowParameterType_name] at known
  cases known
  rw [parseText_kept summed, defaultValue_kept] at parsed
  rw [← canonical_fields]
  cases unwritten : fieldMembers spec.constraints with
  | nil =>
      obtain ⟨one, two, three, four, five, six⟩ := constraints_unwritten unwritten
      rw [unwritten] at parsed
      cases parsed
      rw [one, two, three, four, five, six]
  | cons first rest =>
      rw [unwritten] at parsed
      exact parseConstraints_kept fits parsed

attribute [ext] WorkflowStep

/-- An iteration budget stands beside a jump only. -/
def WorkflowStep.canonical (step : WorkflowStep) : WorkflowStep :=
  { step with
    precondition := step.precondition.map WorkflowPredicate.canonical
    verification := step.verification.map WorkflowPredicate.canonical
    recovery := step.recovery.map WorkflowRecoveryHook.canonical
    maxIterations := if step.jumpTo.isSome then step.maxIterations else 1 }

variable {document : JsonValue} {key : String}

theorem givenText_kept {read : Bytes}
    (written : document.find (ascii key) = fieldWhen (!text.isEmpty) (.string text))
    (parsed : parseText limits (givenMember document key) detail = .ok read) : read = text := by
  rw [givenMember, written, givenMember_when fun _ => rfl] at parsed
  exact parseText_kept parsed

theorem parseLoopHead_kept {loopHead read : Bool}
    (written : document.find (ascii "loop_head") = fieldWhen loopHead (.boolean true))
    (parsed : parseLoopHead document = .ok read) : read = loopHead := by
  rw [parseLoopHead, written] at parsed
  cases loopHead with
  | false =>
      cases parsed
      rfl
  | true =>
      cases expectIr_ok.mp parsed
      rfl

theorem parseStepArguments_kept {arguments read : JsonValue}
    (written : document.find (ascii "arguments") = fieldWhen (!arguments.isNull) arguments)
    (parsed : parseStepArguments limits document = .ok read) : read = arguments := by
  rw [parseStepArguments, givenMember, written] at parsed
  cases null : arguments.isNull with
  | true =>
      rw [null] at parsed
      cases parsed
      exact (isNull_iff.mp null).symm
  | false =>
      simp only [null, fieldWhen, Option.filter, Bool.not_false, if_true] at parsed
      obtain ⟨_, _, parsed⟩ := Checked.ok_of_bind parsed
      obtain ⟨_, _, done⟩ := Checked.ok_of_bind parsed
      cases done
      rfl

theorem parseStepPredicate_kept {predicate read : Option WorkflowPredicate}
    (written : document.find (ascii key) = predicate.map WorkflowPredicate.toJson)
    (parsed : parseStepPredicate limits document key = .ok read) :
    read = predicate.map WorkflowPredicate.canonical := by
  rw [parseStepPredicate, written] at parsed
  cases predicate with
  | none =>
      cases parsed
      rfl
  | some predicate => exact parsePredicate_toJson parsed

theorem parseStepRecovery_kept {recovery read : Option WorkflowRecoveryHook}
    (written : document.find (ascii "recovery") = recovery.map WorkflowRecoveryHook.toJson)
    (parsed : parseStepRecovery document = .ok read) :
    read = recovery.map WorkflowRecoveryHook.canonical := by
  rw [parseStepRecovery, written] at parsed
  cases recovery with
  | none =>
      cases parsed
      rfl
  | some hook => exact parseRecovery_toJson parsed

theorem parseJumpTo_kept {jumpTo read : Option StepId} (written : document.find (ascii "jump_to") =
      jumpTo.map fun target => JsonValue.string target.toString)
    (parsed : parseJumpTo document = .ok read) : read = jumpTo := by
  rw [parseJumpTo, givenMember, written] at parsed
  cases jumpTo with
  | none =>
      cases parsed
      rfl
  | some target =>
      obtain ⟨found, named, done⟩ := Checked.ok_of_bind parsed
      cases done
      rw [parseGivenId_toString (expectIr_ok.mp named)]

theorem parseCounter_kept {ceiling : Int} {count read : Nat} {condition : Bool}
    (written : document.find (ascii key) = fieldWhen condition (.integer count))
    (parsed : parseCounter document key ceiling = .ok read) :
    read = if condition then count else 1 := by
  rw [parseCounter, written] at parsed
  cases condition with
  | false =>
      cases parsed
      rfl
  | true =>
      obtain ⟨found, counted, parsed⟩ := Checked.ok_of_bind parsed
      obtain ⟨_, _, done⟩ := Checked.ok_of_bind parsed
      cases done
      cases expectIr_ok.mp counted
      rfl

variable {step : WorkflowStep}

theorem parseStep_toJson {read : WorkflowStep} (parsed : parseStep limits step.toJson = .ok read) :
    read = step.canonical := by
  have parts := parseStep_ok parsed
  have id : read.id = step.id := by
    have given := parts.id
    simp only [memberOf, WorkflowStep.toJson, find_objectOf_cons, if_true, Option.some_or,
      Option.getD_some] at given
    exact parseGivenId_toString given
  have name : read.name = step.name :=
    givenText_kept (by simp [WorkflowStep.toJson]) parts.name
  have kind : read.kind = step.kind := by
    have given := parts.kind
    simp only [memberOf, WorkflowStep.toJson, find_objectOf_cons, String.reduceEq, if_true,
      if_false, Option.some_or, Option.getD_some, JsonValue.asString, Option.bind_some,
      parseWorkflowStepKind_name, Option.some.injEq] at given
    exact given.symm
  have loopHead : read.loopHead = step.loopHead :=
    parseLoopHead_kept (by simp [WorkflowStep.toJson]) parts.loopHead
  have arguments : read.arguments = step.arguments :=
    parseStepArguments_kept (by simp [WorkflowStep.toJson]) parts.arguments
  have precondition : read.precondition = step.precondition.map WorkflowPredicate.canonical :=
    parseStepPredicate_kept (by simp [WorkflowStep.toJson]) parts.precondition
  have verification : read.verification = step.verification.map WorkflowPredicate.canonical :=
    parseStepPredicate_kept (by simp [WorkflowStep.toJson]) parts.verification
  have recovery : read.recovery = step.recovery.map WorkflowRecoveryHook.canonical :=
    parseStepRecovery_kept (by simp [WorkflowStep.toJson]) parts.recovery
  have attempts : step.toJson.find (ascii "max_attempts") =
      fieldWhen (step.maxAttempts ≠ 1) (.integer step.maxAttempts) := by
    simp [WorkflowStep.toJson]
  have maxAttempts : read.maxAttempts = step.maxAttempts := by
    rw [parseCounter_kept attempts parts.maxAttempts]
    split
    · rfl
    · next one =>
        have once : step.maxAttempts = 1 := by simpa using one
        exact once.symm
  have jumpTo : read.jumpTo = step.jumpTo :=
    parseJumpTo_kept (by simp [WorkflowStep.toJson]) parts.jumpTo
  have maxIterations :
      read.maxIterations = if step.jumpTo.isSome then step.maxIterations else 1 :=
    parseCounter_kept (by simp [WorkflowStep.toJson]) parts.maxIterations
  exact WorkflowStep.ext id name kind loopHead arguments precondition verification recovery
    maxAttempts jumpTo maxIterations

attribute [ext] WorkflowDefinition

def WorkflowDefinition.canonical (definition : WorkflowDefinition) : WorkflowDefinition :=
  { definition with
    parameters := definition.parameters.map WorkflowParameterSpec.canonical
    steps := definition.steps.map WorkflowStep.canonical }

/-- The version and the lengths fit the words that hold them. -/
structure WorkflowDefinition.Representable (definition : WorkflowDefinition) : Prop where
  major : definition.schemaVersion.major < 2 ^ 16
  minor : definition.schemaVersion.minor < 2 ^ 16
  parameters : ∀ spec ∈ definition.parameters, spec.Representable

theorem toUint16_of_lt {value : Nat} (fits : value < 2 ^ 16) : toUint16 value = value := by
  rw [toUint16]
  omega

theorem parseSchemaVersion_kept {version read : SchemaVersion}
    (major : version.major < 2 ^ 16) (minor : version.minor < 2 ^ 16)
    (parsed : parseSchemaVersion
      (objectOf
        [("major", some (.integer version.major)), ("minor", some (.integer version.minor))]) =
      .ok read) : read = version := by
  simp only [parseSchemaVersion, Checked.bind_ok_iff, expectIr_ok, memberOf, find_objectOf_cons,
    find_objectOf_nil, String.reduceEq, if_true, if_false, Option.or_none, Option.getD_some, asInt,
    Option.some.injEq] at parsed
  obtain ⟨_, _, _, _, _, rfl, _, rfl, parsed⟩ := parsed
  split at parsed
  · cases parsed
  · cases parsed
    rw [toUint16_of_lt major, toUint16_of_lt minor]

theorem parseDistinct_kept {α κ : Type} [DecidableEq κ] {parse : JsonValue → WorkflowResult α}
    {key : α → κ} {duplicate : String} {write : α → JsonValue} (canonical : α → α)
    {items read : List α}
    (each : ∀ item ∈ items, ∀ value, parse (write item) = .ok value → value = canonical item)
    (parsed : parseDistinct parse key duplicate [] (items.map write) = .ok read) :
    read = items.map canonical := by
  obtain ⟨added, whole, paired, distinct⟩ := parseDistinct_ok parsed List.nodup_nil
  rw [List.nil_append] at whole
  rw [List.forall₂_map_left_iff] at paired
  subst whole
  clear parsed distinct
  induction paired with
  | nil => rfl
  | cons first _ ih =>
      rw [List.map_cons, each _ List.mem_cons_self _ first,
        ih fun item held => each item (List.mem_cons_of_mem _ held)]

theorem parseParameters_kept {specs read : List WorkflowParameterSpec}
    (fits : ∀ spec ∈ specs, spec.Representable) (written : document.find (ascii "parameters") =
      some (.array (specs.map WorkflowParameterSpec.toJson)))
    (parsed : parseParameters regex limits document = .ok read) :
    read = specs.map WorkflowParameterSpec.canonical := by
  rw [parseParameters, givenMember, written] at parsed
  obtain ⟨items, listed, parsed⟩ := Checked.ok_of_bind parsed
  obtain ⟨_, _, parsed⟩ := Checked.ok_of_bind parsed
  cases expectIr_ok.mp listed
  exact parseDistinct_kept _ (fun spec held _ => parseParameter_toJson (fits spec held)) parsed

theorem parseSteps_kept {steps read : List WorkflowStep}
    (written : memberOf document "steps" = .array (steps.map WorkflowStep.toJson))
    (parsed : parseSteps limits document = .ok read) : read = steps.map WorkflowStep.canonical := by
  rw [parseSteps, written] at parsed
  obtain ⟨items, listed, parsed⟩ := Checked.ok_of_bind parsed
  obtain ⟨_, _, parsed⟩ := Checked.ok_of_bind parsed
  cases (Option.filter_eq_some_iff.mp (expectIr_ok.mp listed)).1
  exact parseDistinct_kept _ (fun _ _ _ => parseStep_toJson) parsed

theorem parseAllowedPolicy_name {policy read : WorkflowPolicy}
    (parsed : parseAllowedPolicy (.string policy.name) = .ok read) : read = policy := by
  obtain ⟨name, named, parsed⟩ := Checked.ok_of_bind parsed
  cases expectIr_ok.mp named
  rw [expectIr_ok, parseWorkflowPolicy_name] at parsed
  exact (Option.some.inj parsed).symm

theorem parseAllowedPolicies_kept {policies read : List WorkflowPolicy}
    (written : memberOf document "allowed_policies" =
      .array (policies.map fun policy => .string policy.name))
    (parsed : parseAllowedPolicies document = .ok read) : read = policies := by
  rw [parseAllowedPolicies, written] at parsed
  obtain ⟨items, listed, parsed⟩ := Checked.ok_of_bind parsed
  cases (Option.filter_eq_some_iff.mp (expectIr_ok.mp listed)).1
  have kept := parseDistinct_kept id (fun _ _ _ => parseAllowedPolicy_name) parsed
  rwa [List.map_id] at kept

variable {definition : WorkflowDefinition}

theorem workflowDefinitionFromJson_toJson {read : WorkflowDefinition}
    (fits : definition.Representable)
    (parsed : workflowDefinitionFromJson regex limits (workflowDefinitionToJson definition) =
      .ok read) : read = definition.canonical := by
  have parts := workflowDefinitionFromJson_ok parsed
  have schemaVersion : read.schemaVersion = definition.schemaVersion :=
    parseSchemaVersion_kept fits.major fits.minor parts.schemaVersion
  have workflowId : read.workflowId = definition.workflowId :=
    parseGivenId_toString parts.workflowId
  have name : read.name = definition.name := by
    have given := boundedString_some parts.name
    simpa [memberOf, workflowDefinitionToJson, JsonValue.asString, eq_comm] using given
  have summary : read.summary = definition.summary :=
    givenText_kept (by simp [workflowDefinitionToJson]) parts.summary
  have parameters : read.parameters = definition.parameters.map WorkflowParameterSpec.canonical :=
    parseParameters_kept fits.parameters (by simp [workflowDefinitionToJson]) parts.parameters
  have steps : read.steps = definition.steps.map WorkflowStep.canonical :=
    parseSteps_kept (by simp [memberOf, workflowDefinitionToJson]) parts.steps
  have defaultPolicy : read.defaultPolicy = definition.defaultPolicy := by
    have given := parts.defaultPolicy
    simp only [memberOf, workflowDefinitionToJson, find_objectOf_cons, String.reduceEq, if_true,
      if_false, Option.some_or, Option.getD_some, JsonValue.asString, Option.bind_some,
      parseWorkflowPolicy_name, Option.some.injEq] at given
    exact given.symm
  have allowedPolicies : read.allowedPolicies = definition.allowedPolicies :=
    parseAllowedPolicies_kept (by simp [memberOf, workflowDefinitionToJson])
      parts.allowedPolicies
  exact WorkflowDefinition.ext schemaVersion workflowId name summary parameters steps
    defaultPolicy allowedPolicies

def WorkflowPredicate.Kept (predicate : WorkflowPredicate) : Prop :=
  predicate.op = .exists_ → predicate.value = .null

def WorkflowRecoveryHook.Kept (hook : WorkflowRecoveryHook) : Prop :=
  (hook.mode ≠ .retry → hook.maxRetries = 0) ∧
    (hook.mode ≠ .fallbackStep → hook.fallbackStep = none)

def WorkflowParameterSpec.Kept (spec : WorkflowParameterSpec) : Prop :=
  spec.required = true → spec.defaultValue = .null

structure WorkflowStep.Kept (step : WorkflowStep) : Prop where
  precondition : ∀ predicate, step.precondition = some predicate → predicate.Kept
  verification : ∀ predicate, step.verification = some predicate → predicate.Kept
  recovery : ∀ hook, step.recovery = some hook → hook.Kept
  maxIterations : step.jumpTo = none → step.maxIterations = 1

/-- Nothing that a definition holds is left out of its canonical form. -/
structure WorkflowDefinition.Kept (definition : WorkflowDefinition) : Prop where
  parameters : ∀ spec ∈ definition.parameters, spec.Kept
  steps : ∀ step ∈ definition.steps, step.Kept

theorem WorkflowPredicate.canonical_eq_iff {predicate : WorkflowPredicate} :
    predicate.canonical = predicate ↔ predicate.Kept := by
  obtain ⟨signal, op, value⟩ := predicate
  simp only [canonical, Kept]
  by_cases test : op = .exists_
  · simp [test, eq_comm]
  · simp [test]

theorem WorkflowRecoveryHook.canonical_eq_iff {hook : WorkflowRecoveryHook} :
    hook.canonical = hook ↔ hook.Kept := by
  obtain ⟨mode, maxRetries, fallback⟩ := hook
  cases mode <;> simp [canonical, Kept, eq_comm]

theorem WorkflowParameterSpec.canonical_eq_iff : spec.canonical = spec ↔ spec.Kept := by
  obtain ⟨name, type, required, defaultValue⟩ := spec
  simp only [canonical, Kept]
  cases required with
  | false => simp
  | true => simp [eq_comm]

theorem map_eq_iff {α : Type} {canonical : α → α} {kept : α → Prop}
    (part : ∀ value, canonical value = value ↔ kept value) (given : Option α) :
    given.map canonical = given ↔ ∀ value, given = some value → kept value := by
  cases given with
  | none => simp
  | some value => simpa using part value

theorem WorkflowStep.canonical_eq_iff : step.canonical = step ↔ step.Kept := by
  have budget : (if step.jumpTo.isSome then step.maxIterations else 1) = step.maxIterations ↔
      (step.jumpTo = none → step.maxIterations = 1) := by
    cases step.jumpTo with
    | none => simp [eq_comm]
    | some target => simp
  have fields : step.canonical = step ↔
      step.precondition.map WorkflowPredicate.canonical = step.precondition ∧
      step.verification.map WorkflowPredicate.canonical = step.verification ∧
      step.recovery.map WorkflowRecoveryHook.canonical = step.recovery ∧
      (if step.jumpTo.isSome then step.maxIterations else 1) = step.maxIterations := by
    rw [canonical, WorkflowStep.ext_iff]
    simp
  rw [fields, map_eq_iff fun _ => WorkflowPredicate.canonical_eq_iff,
    map_eq_iff fun _ => WorkflowPredicate.canonical_eq_iff,
    map_eq_iff fun _ => WorkflowRecoveryHook.canonical_eq_iff, budget]
  constructor
  · intro all
    exact ⟨all.1, all.2.1, all.2.2.1, all.2.2.2⟩
  · intro kept
    exact ⟨kept.precondition, kept.verification, kept.recovery, kept.maxIterations⟩

theorem map_list_eq_iff {α : Type} {canonical : α → α} {kept : α → Prop}
    (part : ∀ value, canonical value = value ↔ kept value) (items : List α) :
    items.map canonical = items ↔ ∀ item ∈ items, kept item := by
  induction items with
  | nil => simp
  | cons first rest ih => rw [List.map_cons, List.cons.injEq, part, ih, List.forall_mem_cons]

theorem WorkflowDefinition.canonical_eq_iff :
    definition.canonical = definition ↔ definition.Kept := by
  have fields : definition.canonical = definition ↔
      definition.parameters.map WorkflowParameterSpec.canonical = definition.parameters ∧
      definition.steps.map WorkflowStep.canonical = definition.steps := by
    rw [canonical, WorkflowDefinition.ext_iff]
    simp
  rw [fields, map_list_eq_iff fun _ => WorkflowParameterSpec.canonical_eq_iff,
    map_list_eq_iff fun _ => WorkflowStep.canonical_eq_iff]
  constructor
  · intro all
    exact ⟨all.1, all.2⟩
  · intro kept
    exact ⟨kept.parameters, kept.steps⟩

theorem decoded_of_kept (fits : definition.Representable)
    (valid : validateWorkflowDefinition regex limits definition = .ok ()) (kept : definition.Kept) :
    workflowDefinitionFromJson regex limits (workflowDefinitionToJson definition) =
      .ok definition := by
  obtain ⟨read, parsed, _⟩ := Checked.ok_of_bind valid
  have same := workflowDefinitionFromJson_toJson fits parsed
  rw [WorkflowDefinition.canonical_eq_iff.mpr kept] at same
  rw [parsed, same]

/-- An accepted definition is the one that was checked exactly when its canonical form leaves
nothing out, and then it keeps the rules itself. -/
theorem validated_iff {definition : WorkflowDefinition} (fits : definition.Representable)
    (valid : validateWorkflowDefinition regex limits definition = .ok ()) :
    (workflowDefinitionFromJson regex limits (workflowDefinitionToJson definition) =
        .ok definition ∧ Structural definition) ↔ definition.Kept := by
  constructor
  · intro both
    have same := workflowDefinitionFromJson_toJson fits both.1
    exact WorkflowDefinition.canonical_eq_iff.mp same.symm
  · intro kept
    have parsed := decoded_of_kept fits valid kept
    exact ⟨parsed, (workflowDefinitionFromJson_ok parsed).structural⟩

end

def noPatterns : RegexLibrary := ⟨fun _ => false, fun _ _ => none⟩

def requiredContact (defaultValue : JsonValue) : WorkflowDefinition :=
  { workflowId := .filled 1
    name := ascii "send"
    parameters := [{ name := ascii "contact", required := true, defaultValue := defaultValue }]
    steps := [{ id := .filled 2 }]
    allowedPolicies := [.strict] }

theorem requiredContact_representable (defaultValue : JsonValue) :
    (requiredContact defaultValue).Representable := by
  refine ⟨(by decide : 1 < 2 ^ 16), (by decide : 0 < 2 ^ 16), ?_⟩
  intro spec declared
  rw [List.mem_singleton.mp declared]
  exact ⟨fun _ absent => (by cases absent), fun _ absent => (by cases absent)⟩

theorem valid_of_isSome {definition : WorkflowDefinition}
    (passed : (validateWorkflowDefinition regex limits definition).toOption.isSome = true) :
    validateWorkflowDefinition regex limits definition = .ok () := by
  cases outcome : validateWorkflowDefinition regex limits definition with
  | error reason =>
      rw [outcome] at passed
      cases passed
  | ok _ => rfl

theorem required_contact_kept :
    workflowDefinitionFromJson noPatterns {} (workflowDefinitionToJson (requiredContact .null)) =
        .ok (requiredContact .null) ∧ Structural (requiredContact .null) := by
  refine (validated_iff (requiredContact_representable _)
    (valid_of_isSome (by decide +kernel))).mpr ⟨?_, ?_⟩
  · intro spec declared _
    rw [List.mem_singleton.mp declared]
  · intro step listed
    rw [List.mem_singleton.mp listed]
    exact ⟨fun _ absent => (by cases absent), fun _ absent => (by cases absent),
      fun _ absent => (by cases absent), fun _ => rfl⟩

/-- The default of a required text is a number, and validation does not see it. -/
theorem defaulted_contact_passes :
    validateWorkflowDefinition noPatterns {} (requiredContact (.integer 7)) = .ok () ∧
      ¬ Structural (requiredContact (.integer 7)) ∧
      workflowDefinitionFromJson noPatterns {}
          (workflowDefinitionToJson (requiredContact (.integer 7))) ≠
        .ok (requiredContact (.integer 7)) := by
  have broken : ¬ Structural (requiredContact (.integer 7)) := by
    intro rules
    have absent := rules.defaults _ List.mem_cons_self rfl
    cases absent
  refine ⟨valid_of_isSome (by decide +kernel), broken, ?_⟩
  intro same
  exact broken (workflowDefinitionFromJson_ok same).structural

end Mira.Workflow
