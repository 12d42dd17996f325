import Mira.Workflow.Ir

/-!
What a definition is known to satisfy once it was decoded: how each part was read, the rules that
span its steps, and its parameters with the defaults they declare.
-/

namespace Mira.Workflow
open Mira Bytes

variable {detail : String}

@[simp]
theorem requireIr_ok {condition : Bool} {code : ErrorCode} {passed : Unit} :
    requireIr condition detail code = .ok passed ↔ condition = true := by
  cases condition <;> simp [requireIr]

@[simp]
theorem expectIr_ok {α : Type} {found : Option α} {value : α} :
    expectIr found detail = .ok value ↔ found = some value := by
  cases found <;> simp [expectIr]

theorem boundedString_some {value : JsonValue} {maxBytes : Nat} {text : Bytes}
    (bounded : boundedString value maxBytes = some text) : value.asString = some text :=
  (Option.filter_eq_some_iff.mp bounded).1

theorem parseDistinct_ok {α κ : Type} [DecidableEq κ] {parse : JsonValue → WorkflowResult α}
    {key : α → κ} {duplicate : String} {read out : List α} {items : List JsonValue}
    (parsed : parseDistinct parse key duplicate read items = .ok out)
    (distinct : (read.map key).Nodup) :
    ∃ added, out = read ++ added ∧
      List.Forall₂ (fun item value => parse item = .ok value) items added ∧
      (out.map key).Nodup := by
  induction items generalizing read with
  | nil =>
      cases parsed
      exact ⟨[], (List.append_nil _).symm, .nil, distinct⟩
  | cons item rest ih =>
      rw [parseDistinct] at parsed
      obtain ⟨next, first, parsed⟩ := Checked.ok_of_bind parsed
      obtain ⟨_, fresh, parsed⟩ := Checked.ok_of_bind parsed
      have apart : ((read ++ [next]).map key).Nodup := by
        rw [List.map_append, List.nodup_append]
        refine ⟨distinct, by simp, ?_⟩
        simpa using requireIr_ok.mp fresh
      obtain ⟨added, whole, each, nodup⟩ := ih parsed apart
      refine ⟨next :: added, ?_, .cons first each, nodup⟩
      rw [whole, List.append_assoc, List.singleton_append]

section
variable {regex : RegexLibrary} {limits : WorkflowLimits}

/-- What reading a step says of each of its fields. -/
structure StepRead (limits : WorkflowLimits) (document : JsonValue) (step : WorkflowStep) :
    Prop where
  id : parseGivenId (memberOf document "step_id") = some step.id
  name : parseStepName limits document = .ok step.name
  kind : (memberOf document "kind").asString.bind parseWorkflowStepKind = some step.kind
  loopHead : parseLoopHead document = .ok step.loopHead
  arguments : parseStepArguments limits document = .ok step.arguments
  precondition : parseStepPredicate limits document "precondition" = .ok step.precondition
  verification : parseStepPredicate limits document "verification" = .ok step.verification
  recovery : parseStepRecovery document = .ok step.recovery
  maxAttempts : parseCounter document "max_attempts" ceilingMaxAttempts = .ok step.maxAttempts
  jumpTo : parseJumpTo document = .ok step.jumpTo
  maxIterations :
    parseCounter document "max_iterations" ceilingMaxIterations = .ok step.maxIterations
  kinds : checkStepKind limits step = .ok ()

variable {document : JsonValue} {step : WorkflowStep}

theorem parseStep_ok (parsed : parseStep limits document = .ok step) :
    StepRead limits document step := by
  simp only [parseStep, Checked.bind_ok_iff, expectIr_ok] at parsed
  obtain ⟨_, _, id, identified, name, named, kindText, texted, kind, known, loopHead, headed,
    arguments, given, precondition, before, verification, after, recovery, hooked, maxAttempts,
    attempted, jumpTo, jumped, maxIterations, iterated, _, kinds, done⟩ := parsed
  cases done
  refine ⟨identified, named, ?_, headed, given, before, after, hooked, attempted, jumped,
    iterated, kinds⟩
  rw [texted]
  exact known

/-- What reading a definition says of each of its parts. -/
structure DefinitionRead (regex : RegexLibrary) (limits : WorkflowLimits) (document : JsonValue)
    (definition : WorkflowDefinition) : Prop where
  schemaVersion :
    parseSchemaVersion (memberOf document "schema_version") = .ok definition.schemaVersion
  workflowId : parseGivenId (memberOf document "workflow_id") = some definition.workflowId
  name :
    boundedString (memberOf document "name") (clampLimits limits).maxStringBytes =
      some definition.name
  summary : parseDefinitionSummary (clampLimits limits) document = .ok definition.summary
  parameters : parseParameters regex (clampLimits limits) document = .ok definition.parameters
  steps : parseSteps (clampLimits limits) document = .ok definition.steps
  defaultPolicy :
    (memberOf document "default_policy").asString.bind parseWorkflowPolicy =
      some definition.defaultPolicy
  allowedPolicies : parseAllowedPolicies document = .ok definition.allowedPolicies
  checked : checkDefinition regex definition = .ok ()

variable {definition : WorkflowDefinition}

theorem workflowDefinitionFromJson_ok
    (parsed : workflowDefinitionFromJson regex limits document = .ok definition) :
    DefinitionRead regex limits document definition := by
  simp only [workflowDefinitionFromJson, Checked.bind_ok_iff, expectIr_ok] at parsed
  obtain ⟨_, _, _, _, _, _, schemaVersion, versioned, workflowId, identified, name, named,
    summary, summed, parameters, declared, steps, listed, policyText, texted, defaultPolicy,
    known, allowedPolicies, allowed, _, checked, done⟩ := parsed
  cases done
  refine ⟨versioned, identified, named, summed, declared, listed, ?_, allowed, checked⟩
  rw [texted]
  exact known

/-- A step that jumps comes after the loop head that it jumps to. -/
def JumpsBack (definition : WorkflowDefinition) (index : Nat) (step : WorkflowStep) : Prop :=
  ∃ earlier target, earlier < index ∧ definition.steps[earlier]? = some target ∧
    target.loopHead = true ∧ step.jumpTo = some target.id

/-- The step that a hook falls back to comes later. -/
def FallsForward (definition : WorkflowDefinition) (index : Nat) (hook : WorkflowRecoveryHook) :
    Prop :=
  ∃ later target, index < later ∧ definition.steps[later]? = some target ∧
    hook.fallbackStep = some target.id

/-- The rules that the steps, the policies and the parameters of a definition keep. -/
structure Structural (definition : WorkflowDefinition) : Prop where
  ids : (definition.steps.map WorkflowStep.id).Nodup
  jumps : ∀ (index : Nat) (step : WorkflowStep), definition.steps[index]? = some step →
    step.kind = .control → JumpsBack definition index step
  fallbacks : ∀ (index : Nat) (step : WorkflowStep), definition.steps[index]? = some step →
    ∀ hook, step.recovery = some hook → hook.mode = .fallbackStep →
      FallsForward definition index hook
  policy : definition.defaultPolicy ∈ definition.allowedPolicies
  defaults : ∀ spec ∈ definition.parameters, spec.required = true → spec.defaultValue = .null

theorem id_of_findIdx {id : Option StepId} {target : WorkflowStep}
    (found : definition.steps[definition.steps.findIdx fun candidate => some candidate.id = id]? =
      some target) : id = some target.id := by
  obtain ⟨inside, same⟩ := List.getElem?_eq_some_iff.mp found
  have own := List.findIdx_getElem (w := inside)
  rw [same, decide_eq_true_eq] at own
  exact own.symm

variable {index : Nat}

theorem jumpsBack_sound (back : jumpsBack definition index step = true) :
    JumpsBack definition index step := by
  rw [jumpsBack, Option.any_eq_true] at back
  obtain ⟨target, found, both⟩ := back
  rw [Bool.and_eq_true, decide_eq_true_eq] at both
  exact ⟨_, target, both.2, found, both.1, id_of_findIdx found⟩

theorem fallsForward_sound {hook : WorkflowRecoveryHook}
    (forward : fallsForward definition index hook = true) : FallsForward definition index hook := by
  rw [fallsForward, Bool.and_eq_true, decide_eq_true_eq, decide_eq_true_eq] at forward
  have found := List.getElem?_eq_getElem forward.2
  exact ⟨_, _, forward.1, found, id_of_findIdx found⟩

variable {spec : WorkflowParameterSpec}

theorem parseConstraints_default {read : WorkflowParameterSpec} {constraints : JsonValue}
    (parsed : parseConstraints regex limits spec constraints = .ok read) :
    read.required = spec.required ∧ read.defaultValue = spec.defaultValue := by
  simp only [parseConstraints, Checked.bind_ok_iff] at parsed
  obtain ⟨_, _, _, _, _, _, _, _, _, _, _, _, _, _, _, _, done⟩ := parsed
  cases done
  exact ⟨rfl, rfl⟩

theorem parseParameter_default (parsed : parseParameter regex limits document = .ok spec)
    (required : spec.required = true) : spec.defaultValue = .null := by
  simp only [parseParameter, Checked.bind_ok_iff, requireIr_ok] at parsed
  obtain ⟨_, _, name, _, _, _, type, _, flag, _, summary, _, _, undeclared, parsed⟩ := parsed
  have absent : flag = true → (givenMember document "default").getD .null = .null := by
    intro flagged
    rw [flagged, Bool.not_true, Bool.false_or, Option.isNone_iff_eq_none] at undeclared
    rw [givenMember, undeclared]
    rfl
  split at parsed
  · cases parsed
    exact absent required
  · obtain ⟨same, kept⟩ := parseConstraints_default parsed
    rw [kept]
    exact absent (same.symm.trans required)

theorem parseParameters_ok {specs : List WorkflowParameterSpec}
    (parsed : parseParameters regex limits document = .ok specs) :
    (specs.map WorkflowParameterSpec.name).Nodup ∧
      ∀ spec ∈ specs, ∃ item, parseParameter regex limits item = .ok spec := by
  rw [parseParameters] at parsed
  split at parsed
  · cases parsed
    simp
  · obtain ⟨items, _, parsed⟩ := Checked.ok_of_bind parsed
    obtain ⟨_, _, parsed⟩ := Checked.ok_of_bind parsed
    obtain ⟨added, whole, paired, distinct⟩ := parseDistinct_ok parsed List.nodup_nil
    rw [List.nil_append] at whole
    subst whole
    refine ⟨distinct, ?_⟩
    intro spec declared
    obtain ⟨item, _, read⟩ := Checked.exists_of_forall₂ paired declared
    exact ⟨item, read⟩

theorem parseSteps_distinct {steps : List WorkflowStep}
    (parsed : parseSteps limits document = .ok steps) : (steps.map WorkflowStep.id).Nodup := by
  obtain ⟨items, _, parsed⟩ := Checked.ok_of_bind parsed
  obtain ⟨_, _, parsed⟩ := Checked.ok_of_bind parsed
  obtain ⟨_, _, _, distinct⟩ := parseDistinct_ok parsed List.nodup_nil
  exact distinct

theorem checkDefinition_ok (checked : checkDefinition regex definition = .ok ()) :
    definition.defaultPolicy ∈ definition.allowedPolicies ∧
      (∀ (index : Nat) (step : WorkflowStep), definition.steps[index]? = some step →
        checkStepTargets definition step index = .ok ()) ∧
      ∀ spec ∈ definition.parameters, validateDefault regex spec = .ok () := by
  obtain ⟨_, allowed, checked⟩ := Checked.ok_of_bind checked
  obtain ⟨_, targets, defaults⟩ := Checked.ok_of_bind checked
  refine ⟨List.contains_iff_mem.mp (requireIr_ok.mp allowed), ?_, Checked.ok_of_forM defaults⟩
  intro index step found
  exact Checked.ok_of_forM targets (step, index) (List.mk_mem_zipIdx_iff_getElem?.mpr found)

theorem checkStepTargets_ok (checked : checkStepTargets definition step index = .ok ()) :
    (step.kind = .control → JumpsBack definition index step) ∧
      ∀ hook, step.recovery = some hook → hook.mode = .fallbackStep →
        FallsForward definition index hook := by
  simp only [checkStepTargets, Checked.bind_ok_iff, requireIr_ok] at checked
  obtain ⟨_, jumps, _, falls, _⟩ := checked
  refine ⟨?_, ?_⟩
  · intro control
    rw [control] at jumps
    exact jumpsBack_sound (by simpa using jumps)
  · intro hook given mode
    rw [given, Option.all_some, mode] at falls
    exact fallsForward_sound (by simpa using falls)

theorem DefinitionRead.structural (read : DefinitionRead regex limits document definition) :
    Structural definition := by
  obtain ⟨policy, targets, _⟩ := checkDefinition_ok read.checked
  refine ⟨parseSteps_distinct read.steps, ?_, ?_, policy, ?_⟩
  · intro index step found
    exact (checkStepTargets_ok (targets index step found)).1
  · intro index step found
    exact (checkStepTargets_ok (targets index step found)).2
  · intro spec declared
    obtain ⟨item, parsed⟩ := (parseParameters_ok read.parameters).2 spec declared
    exact parseParameter_default parsed

end

end Mira.Workflow
