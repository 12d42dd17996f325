import Mira.Workflow.Contracts

/-!
The effective state of a run: how the admission of a run computes it from the definition, and
how a patch changes it. The tool registry and the navigation context are the host's, and so is
the gate that compares a definition with the tools it was published with.
-/

namespace Mira.Workflow
open Mira Bytes

structure ExposedTool where
  wireName : Bytes
  hasSideEffects : Bool := false

structure Host where
  tools : Option (List ExposedTool) := none
  navigation : Bool := false
  regex : RegexSearch := fun _ _ => none
  toolCompat : WorkflowDefinition → WorkflowResult Unit := fun _ => .ok ()

def Host.tool (host : Host) (wireName : Bytes) : Option ExposedTool :=
  (host.tools.getD []).find? fun tool => tool.wireName = wireName

structure WorkflowRuntimeConfig where
  maxConcurrentAsyncDrives : Nat := 1
  maxStepExecutionsPerRun : Nat := 1024
  maxPendingPatchesPerRun : Nat := 16
  maxAppliedPatchesPerRun : Nat := 64
  maxEscalationsPerRun : Nat := 32

/-- What a run computes its steps from. The overrides are in the order of their keys; the
context is what predicates are evaluated in. -/
structure EffectiveState where
  parameters : List (Bytes × JsonValue) := []
  policy : WorkflowPolicy
  skipped : List Bytes := []
  overrides : List (Bytes × JsonValue) := []
  bindings : WorkflowParameterBindings
  resolved : List JsonValue := []
  context : List (Bytes × JsonValue) := []

def setMember (members : List (Bytes × JsonValue)) (key : Bytes) (value : JsonValue) :
    List (Bytes × JsonValue) :=
  if members.any fun member => member.1 = key then JsonValue.setFirst key value members
  else members ++ [(key, value)]

def parameterLead : Bytes := ascii "run_parameter:"

def parameterKey (name : Bytes) : Bytes := parameterLead ++ name

def resultKey (step : StepId) : Bytes := ascii "step_result:" ++ step.toString

def mirrorParameters (context values : List (Bytes × JsonValue)) : List (Bytes × JsonValue) :=
  values.foldl (fun context member => setMember context (parameterKey member.1) member.2) context

def namedText (key : String) (arguments : JsonValue) : Option Bytes :=
  ((arguments.find (ascii key)).bind JsonValue.asString).filter fun text => !text.isEmpty

def toolName (arguments : JsonValue) : Option Bytes := namedText "tool" arguments
def targetName (arguments : JsonValue) : Option Bytes := namedText "target" arguments

/-- The arguments with the wire name in place of a tool reference. -/
def withWireName (definition : WorkflowDefinition) (resolved : JsonValue) :
    WorkflowResult JsonValue :=
  match resolveToolReferenceMember definition resolved with
  | .error error => .error error
  | .ok none => .ok resolved
  | .ok (some wireName) => .ok (resolved.set (ascii "tool") (.string wireName))

def toolRegistryRequired : WorkflowError :=
  workflowError .invalidState "a tool registry is required to run tool_call steps"

def toolNotRegistered : WorkflowError :=
  workflowError .notFound "step tool is not registered"

/-- The check of the registry for a step of a run that dispatches. -/
def admitTool (host : Host) (step : WorkflowStep) (resolved : JsonValue) :
    WorkflowResult JsonValue :=
  if host.tools.isNone then .error toolRegistryRequired
  else
    match host.tool ((toolName resolved).getD []) with
    | none => .error toolNotRegistered
    | some tool =>
        if tool.hasSideEffects ∧ step.verification.isNone then
          .error (makeRuntimeError .verificationRequired
            (ascii "side-effecting tool_call steps must declare a verification predicate (W-02)"))
        else .ok resolved

/-- The arguments that a step of a new run gets. -/
def admitStep (host : Host) (definition : WorkflowDefinition) (policy : WorkflowPolicy)
    (bindings : WorkflowParameterBindings) (step : WorkflowStep) : WorkflowResult JsonValue :=
  match step.kind with
  | .navigate =>
      match resolveStepArguments bindings step.arguments with
      | .error error => .error error
      | .ok resolved =>
          if (targetName resolved).isNone then
            .error (makeRuntimeError .navigateTargetInvalid (ascii
              "navigate arguments must be an object naming a string \"target\" member"))
          else if policy.dispatchesSideEffects ∧ host.navigation = false then
            .error (makeRuntimeError .navigateUnresolvable (ascii
              "navigate steps require an installed navigation context under dispatching policies"))
          else .ok resolved
  | .toolCall =>
      match resolveStepArguments bindings step.arguments with
      | .error error => .error error
      | .ok resolved =>
          if (toolName resolved).isNone then
            .error (makeRuntimeError .toolBindingInvalid (ascii
              "tool_call arguments must be an object naming the target tool in the reserved \"tool\" member"))
          else
            match withWireName definition resolved with
            | .error error => .error error
            | .ok resolved =>
                if policy.dispatchesSideEffects then admitTool host step resolved
                else .ok resolved
  | _ => .ok .null

/-- The steps in order; the first that is refused refuses the run. -/
def admitSteps (host : Host) (definition : WorkflowDefinition) (policy : WorkflowPolicy)
    (bindings : WorkflowParameterBindings) :
    List WorkflowStep → WorkflowResult (List JsonValue)
  | [] => .ok []
  | step :: rest =>
      match admitStep host definition policy bindings step with
      | .error error => .error error
      | .ok resolved =>
          (admitSteps host definition policy bindings rest).map (resolved :: ·)

/-- The admission of `create_run`, up to the carrier task. -/
def admitRun (host : Host) (definition : WorkflowDefinition) (parameters : JsonValue)
    (policy : Option WorkflowPolicy) : WorkflowResult EffectiveState :=
  let effective := policy.getD definition.defaultPolicy
  match validateWorkflowPolicyCompatibility definition effective with
  | .error error => .error error
  | .ok () =>
      match bindWorkflowParameters host.regex definition parameters with
      | .error error => .error error
      | .ok bindings =>
          match (if effective.dispatchesSideEffects then host.toolCompat definition else .ok ()) with
          | .error error => .error error
          | .ok () =>
              (admitSteps host definition effective bindings definition.steps).map fun resolved =>
                { parameters := bindings.values
                  policy := effective
                  bindings := bindings
                  resolved := resolved
                  context := mirrorParameters [] bindings.values }

def maxPatchPathBytes : Nat := 8 * 1024

def patchShapeError (message : String) : WorkflowError := workflowError .invalidArgument message

/-- `validate_workflow_patch_entry`. -/
def WorkflowPatchEntry.validate (entry : WorkflowPatchEntry) : WorkflowResult Unit :=
  if entry.path.isEmpty ∨ maxPatchPathBytes < entry.path.length then
    .error (patchShapeError "patch path is not bounded")
  else if entry.target = .runParameters ∧ entry.op = .skip then
    .error (patchShapeError "skip applies to step_arguments only")
  else if entry.target = .executionPolicy ∧ entry.op ≠ .set then
    .error (patchShapeError "execution_policy only supports set")
  else if entry.target = .executionPolicy ∧ entry.path ≠ ascii "policy" then
    .error (patchShapeError "execution_policy path must be 'policy'")
  else if entry.target = .executionPolicy ∧
      (entry.value.asString.bind parseWorkflowPolicy).isNone then
    .error (patchShapeError "execution_policy value must name a known policy")
  else if entry.op = .set ∧ entry.value.isNull then
    .error (patchShapeError "set entries require a value")
  else if entry.op ≠ .set ∧ entry.value.isNull = false then
    .error (patchShapeError "only set entries carry a value")
  else .ok ()

/-- A patch that is refused, with the reason that is recorded. -/
structure PatchRejection where
  reason : Bytes
  error : WorkflowError

def refuse {α : Type} (reason : String) (error : WorkflowError) : Except PatchRejection α :=
  .error ⟨ascii reason, error⟩

def stepOf (definition : WorkflowDefinition) (path : Bytes) : Option WorkflowStep :=
  definition.steps.find? fun step => step.id.toString = path

def entryPolicy (entry : WorkflowPatchEntry) : Option WorkflowPolicy :=
  entry.value.asString.bind parseWorkflowPolicy

def checkTarget (host : Host) (definition : WorkflowDefinition) (entry : WorkflowPatchEntry) :
    Except PatchRejection Unit :=
  match entry.target with
  | .runParameters =>
      if (definition.parameter entry.path).isNone then
        refuse "unknown-target" (makeRuntimeError .unknownPatchTarget
          (ascii "patch path does not name a declared parameter"))
      else .ok ()
  | .stepArguments =>
      if (stepOf definition entry.path).isNone then
        refuse "unknown-target" (makeRuntimeError .unknownPatchTarget
          (ascii "patch path does not name a declared step"))
      else .ok ()
  | .executionPolicy =>
      match entryPolicy entry with
      | none => refuse "policy-unknown" (patchShapeError "unknown workflow policy name")
      | some policy =>
          if definition.allowedPolicies.contains policy = false then
            refuse "policy-not-allowed" (makeRuntimeError .policySwitchRejected
              (ascii "policy is not declared in the workflow allowed set"))
          else if policy.dispatchesSideEffects ∧
              definition.steps.any (fun step => step.kind = .navigate) ∧
              host.navigation = false then
            refuse "navigate-unresolvable" (makeRuntimeError .policySwitchRejected (ascii
              "navigate steps require an installed navigation context under dispatching policies"))
          else .ok ()

def checkTargets (host : Host) (definition : WorkflowDefinition) :
    List WorkflowPatchEntry → Except PatchRejection Unit
  | [] => .ok ()
  | entry :: rest =>
      match checkTarget host definition entry with
      | .error rejection => .error rejection
      | .ok () => checkTargets host definition rest

/-- The members but those of the dropped names, each set anew. -/
def rebuildMembers (dropped : Bytes → Bool) (members : List (Bytes × JsonValue)) :
    List (Bytes × JsonValue) :=
  members.foldl
    (fun rebuilt member =>
      if dropped member.1 then rebuilt else setMember rebuilt member.1 member.2)
    []

def unsetMember (members : List (Bytes × JsonValue)) (key : Bytes) : List (Bytes × JsonValue) :=
  rebuildMembers (fun name => name = key) members

def patchParameter (parameters : List (Bytes × JsonValue)) (entry : WorkflowPatchEntry) :
    List (Bytes × JsonValue) :=
  if entry.target ≠ .runParameters then parameters
  else
    match entry.op with
    | .set => setMember parameters entry.path entry.value
    | .unset => unsetMember parameters entry.path
    | .skip => parameters

def touchesParameters (entry : WorkflowPatchEntry) : Bool :=
  entry.target = .runParameters && entry.op ≠ .skip

/-- The shape of patched tool arguments, and the registry under a policy that dispatches. -/
def checkToolArguments (host : Host) (policy : WorkflowPolicy) (arguments : JsonValue) :
    Except WorkflowError Unit :=
  match toolName arguments with
  | none =>
      .error (makeRuntimeError .toolBindingInvalid (ascii
        "patched tool_call arguments must be an object naming the target tool in the reserved \"tool\" member"))
  | some name =>
      if policy.dispatchesSideEffects = false then .ok ()
      else if host.tools.isNone then .error toolRegistryRequired
      else if (host.tool name).isNone then .error toolNotRegistered
      else .ok ()

/-- Whether the tool that the arguments name has side effects. -/
def stepToolHasSideEffects (host : Host) (arguments : JsonValue) : Bool :=
  (((arguments.find (ascii "tool")).bind JsonValue.asString).bind host.tool).any
    ExposedTool.hasSideEffects

def navigateTargetRejected : WorkflowError :=
  makeRuntimeError .patchRejected
    (ascii "navigate arguments must carry a string \"target\" member")

def rebindArguments (host : Host) (policy : WorkflowPolicy) (bindings : WorkflowParameterBindings)
    (step : WorkflowStep) (held : JsonValue) : Except PatchRejection JsonValue :=
  match step.kind with
  | .navigate =>
      match resolveStepArguments bindings step.arguments with
      | .error error => refuse "resolve-failed" error
      | .ok resolved =>
          if (targetName resolved).isNone then
            refuse "navigate-target-invalid" navigateTargetRejected
          else .ok resolved
  | .toolCall =>
      match resolveStepArguments bindings step.arguments with
      | .error error => refuse "resolve-failed" error
      | .ok resolved =>
          match checkToolArguments host policy resolved with
          | .error error => refuse "tool-binding-invalid" error
          | .ok () => .ok resolved
  | _ => .ok held

def rebindSteps (host : Host) (policy : WorkflowPolicy) (bindings : WorkflowParameterBindings)
    (overrides : List (Bytes × JsonValue)) :
    List WorkflowStep → List JsonValue → Except PatchRejection (List JsonValue)
  | step :: steps, held :: rest =>
      let rebound :=
        if (lookupMember overrides step.id.toString).isSome then .ok held
        else rebindArguments host policy bindings step held
      match rebound with
      | .error rejection => .error rejection
      | .ok resolved =>
          (rebindSteps host policy bindings overrides steps rest).map (resolved :: ·)
  | _, held => .ok held

def insertOverride (key : Bytes) (value : JsonValue) :
    List (Bytes × JsonValue) → List (Bytes × JsonValue)
  | [] => [(key, value)]
  | entry :: rest =>
      if entry.1 = key then (key, value) :: rest
      else if keyLess key entry.1 then (key, value) :: entry :: rest
      else entry :: insertOverride key value rest

def eraseOverride (key : Bytes) (overrides : List (Bytes × JsonValue)) :
    List (Bytes × JsonValue) :=
  overrides.filter fun entry => entry.1 ≠ key

def unsetStep (host : Host) (definition : WorkflowDefinition) (entry : WorkflowPatchEntry)
    (step : WorkflowStep) (state : EffectiveState) : Except PatchRejection EffectiveState :=
  let index := stepIndex definition step.id
  match rebindArguments host state.policy state.bindings step (state.resolved.getD index .null) with
  | .error rejection => .error rejection
  | .ok resolved =>
      .ok
        { state with
          overrides := eraseOverride entry.path state.overrides
          skipped := state.skipped.filter fun path => path ≠ entry.path
          resolved := state.resolved.set index resolved }

/-- The shape of the arguments that an entry sets, before references are resolved. -/
def checkSetArguments (host : Host) (policy : WorkflowPolicy) (step : WorkflowStep)
    (arguments : JsonValue) : Except PatchRejection Unit :=
  match step.kind with
  | .navigate =>
      if (targetName arguments).isNone then
        refuse "navigate-target-invalid" (makeRuntimeError .patchRejected
          (ascii "patched navigate arguments must carry a string \"target\" member"))
      else .ok ()
  | .toolCall =>
      match checkToolArguments host policy arguments with
      | .error error => refuse "tool-binding-invalid" error
      | .ok () => .ok ()
  | _ => .ok ()

def setStep (host : Host) (definition : WorkflowDefinition) (entry : WorkflowPatchEntry)
    (step : WorkflowStep) (state : EffectiveState) : Except PatchRejection EffectiveState :=
  match checkSetArguments host state.policy step entry.value with
  | .error rejection => .error rejection
  | .ok () =>
      match resolveStepArguments state.bindings entry.value with
      | .error error => refuse "resolve-failed" error
      | .ok resolved =>
          .ok
            { state with
              overrides := insertOverride entry.path entry.value state.overrides
              resolved :=
                if step.kind = .toolCall ∨ step.kind = .navigate then
                  state.resolved.set (stepIndex definition step.id) resolved
                else state.resolved }

/-- What an entry does to the steps. Its target was checked before. -/
def patchStep (host : Host) (definition : WorkflowDefinition) (state : EffectiveState)
    (entry : WorkflowPatchEntry) : Except PatchRejection EffectiveState :=
  if entry.target ≠ .stepArguments then .ok state
  else
    match stepOf definition entry.path with
    | none => .ok state
    | some step =>
        match entry.op with
        | .skip =>
            .ok
              { state with
                skipped :=
                  if state.skipped.contains entry.path then state.skipped
                  else state.skipped ++ [entry.path] }
        | .unset => unsetStep host definition entry step state
        | .set => setStep host definition entry step state

def patchSteps (host : Host) (definition : WorkflowDefinition) :
    EffectiveState → List WorkflowPatchEntry → Except PatchRejection EffectiveState
  | state, [] => .ok state
  | state, entry :: rest =>
      match patchStep host definition state entry with
      | .error rejection => .error rejection
      | .ok state => patchSteps host definition state rest

/-- The parameters are patched first, in one rebinding. -/
def patchParameters (host : Host) (definition : WorkflowDefinition) (state : EffectiveState)
    (entries : List WorkflowPatchEntry) : Except PatchRejection EffectiveState :=
  if entries.any touchesParameters = false then .ok state
  else
    match bindWorkflowParameters host.regex definition
        (.object (entries.foldl patchParameter state.parameters)) with
    | .error error => refuse "bind-failed" error
    | .ok bindings =>
        match rebindSteps host state.policy bindings state.overrides definition.steps
            state.resolved with
        | .error rejection => .error rejection
        | .ok resolved =>
            .ok
              { state with
                parameters := bindings.values
                bindings := bindings
                resolved := resolved }

def patchPolicy (policy : WorkflowPolicy) (entry : WorkflowPatchEntry) : WorkflowPolicy :=
  if entry.target = .executionPolicy then (entryPolicy entry).getD policy else policy

/-- The effective state that a patch makes of another. The policy is switched last, so that
all the checks are made under the previous one. -/
def patchedState (host : Host) (definition : WorkflowDefinition) (state : EffectiveState)
    (entries : List WorkflowPatchEntry) : Except PatchRejection EffectiveState :=
  match checkTargets host definition entries with
  | .error rejection => .error rejection
  | .ok () =>
      match patchParameters host definition state entries with
      | .error rejection => .error rejection
      | .ok state =>
          (patchSteps host definition state entries).map fun state =>
            { state with policy := entries.foldl patchPolicy state.policy }

def refreshContext (context values : List (Bytes × JsonValue)) : List (Bytes × JsonValue) :=
  mirrorParameters (rebuildMembers parameterLead.isPrefixOf context) values

/-- What is written when a patch commits: the new state, with the context of the state it
replaces. -/
def commitPatch (held : EffectiveState) (entries : List WorkflowPatchEntry)
    (patched : EffectiveState) : EffectiveState :=
  { patched with
    context :=
      if entries.any touchesParameters then refreshContext held.context patched.parameters
      else held.context }

/-- The entries that lead from some members to others. -/
def memberRollback (target : WorkflowPatchTarget) (current boundary : List (Bytes × JsonValue)) :
    List WorkflowPatchEntry :=
  current.filterMap (fun member =>
    match lookupMember boundary member.1 with
    | none => some { target := target, op := .unset, path := member.1 }
    | some value =>
        if value = member.2 then none
        else some { target := target, op := .set, path := member.1, value := value }) ++
  boundary.filterMap fun member =>
    if (lookupMember current member.1).isSome then none
    else some { target := target, op := .set, path := member.1, value := member.2 }

def skipRollback (current boundary : List Bytes) : List WorkflowPatchEntry :=
  current.filterMap (fun step =>
    if boundary.contains step then none
    else some { target := .stepArguments, op := .unset, path := step }) ++
  boundary.filterMap fun step =>
    if current.contains step then none
    else some { target := .stepArguments, op := .skip, path := step }

def rollbackEntries (current boundary : EffectiveState) : List WorkflowPatchEntry :=
  memberRollback .runParameters current.parameters boundary.parameters ++
    (if current.policy ≠ boundary.policy then
      [{ target := .executionPolicy, op := .set, path := ascii "policy"
         value := .string boundary.policy.name }]
    else []) ++
    memberRollback .stepArguments current.overrides boundary.overrides ++
    skipRollback current.skipped boundary.skipped

end Mira.Workflow
