import Mira.Workflow.PatchedRun

/-!
What admission promises of a run: its policy fits the definition, and the steps that it
dispatches name tools that are there and are verified where they have side effects. Patches
make some of these checks again. The ones they leave out are that a step with side effects is
verified and that a policy fits the definition it is switched to.
-/

namespace Mira.Workflow
open Mira Bytes

/-- The arguments name a tool of the registry, and one with side effects is verified. -/
def Registered (host : Host) (step : WorkflowStep) (held : JsonValue) : Prop :=
  ∃ name tool, toolName held = some name ∧ host.tool name = some tool ∧
    (tool.hasSideEffects = true → step.verification.isSome = true)

/-- The arguments of a step are ones that admission accepts under the policy. -/
def Fits (host : Host) (policy : WorkflowPolicy) (step : WorkflowStep) (held : JsonValue) :
    Prop :=
  (step.kind = .toolCall → policy.dispatchesSideEffects = true → Registered host step held) ∧
    (step.kind = .navigate → (targetName held).isSome = true)

structure Admissible (host : Host) (definition : WorkflowDefinition) (state : EffectiveState) :
    Prop where
  compatible : validateWorkflowPolicyCompatibility definition state.policy = .ok ()
  steps : List.Forall₂ (Fits host state.policy) definition.steps state.resolved

/-- What is read of a step when it is dispatched, and when it is resolved after an
interruption, is there. -/
def ReadsDefined (host : Host) (step : WorkflowStep) (held : JsonValue) : Prop :=
  ((held.find (ascii "tool")).bind JsonValue.asString).isSome = true ∧
    (stepToolHasSideEffects host held = true → step.verification.isSome = true)

variable {key : String} {arguments : JsonValue} {text : Bytes}

theorem asString_of_namedText (named : namedText key arguments = some text) :
    (arguments.find (ascii key)).bind JsonValue.asString = some text ∧ text.isEmpty = false := by
  rw [namedText, Option.filter_eq_some_iff] at named
  exact ⟨named.1, by simpa using named.2⟩

variable {host : Host} {step : WorkflowStep} {held : JsonValue}

theorem Registered.readsDefined (registered : Registered host step held) :
    ReadsDefined host step held := by
  obtain ⟨name, tool, named, found, verified⟩ := registered
  have read := (asString_of_namedText named).1
  refine ⟨by rw [read]; rfl, ?_⟩
  rw [stepToolHasSideEffects, read, Option.bind_some, found, Option.any_some]
  exact verified

variable {wireName : Bytes}

theorem namedText_set (named : namedText key arguments = some text)
    (filled : wireName.isEmpty = false) :
    namedText key (arguments.set (ascii key) (.string wireName)) = some wireName := by
  have read := (asString_of_namedText named).1
  cases arguments with
  | object members =>
      have whole : (JsonValue.object members).set (ascii key) (.string wireName) =
          .object (setMember members (ascii key) (.string wireName)) := by
        rw [JsonValue.set, setMember]
        split <;> rfl
      have found := lookup_setMember members (ascii key) (.string wireName) (ascii key)
      rw [if_pos rfl, lookupMember] at found
      rw [namedText, whole, found, Option.filter_eq_some_iff]
      exact ⟨rfl, by simp [filled]⟩
  | null => cases read
  | boolean value => cases read
  | integer value => cases read
  | number value => cases read
  | string value => cases read
  | array items => cases read

theorem parseToolReference_filled (parsed : parseToolReference text = .ok wireName) :
    wireName.isEmpty = false := by
  rw [parseToolReference] at parsed
  split at parsed
  · cases parsed
  · split at parsed
    · cases parsed
    · simp only at parsed
      split at parsed
      · cases parsed
      · next filled =>
          rw [not_or] at filled
          split at parsed
          · cases parsed
          · split at parsed
            · cases parsed
            · cases parsed
              exact Bool.not_eq_true _ ▸ filled.1

variable {definition : WorkflowDefinition} {resolved : JsonValue}

theorem toolName_withWireName {wired : JsonValue} (named : (toolName resolved).isNone = false)
    (done : withWireName definition resolved = .ok wired) : (toolName wired).isSome = true := by
  obtain ⟨name, own⟩ : ∃ name, toolName resolved = some name := by
    cases found : toolName resolved with
    | none => simp [found] at named
    | some name => exact ⟨name, rfl⟩
  rw [withWireName] at done
  split at done
  · cases done
  · cases done
    rw [own]
    rfl
  · next wireName reference =>
      cases done
      rw [resolveToolReferenceMember] at reference
      split at reference
      · cases reference
      · split at reference
        · cases reference
        · next text _ _ =>
            cases parsed : parseToolReference text with
            | error error =>
                rw [parsed] at reference
                cases reference
            | ok found =>
                rw [parsed] at reference
                cases reference
                rw [toolName, namedText_set own (parseToolReference_filled parsed)]
                rfl

theorem admitTool_registered (named : (toolName resolved).isSome = true)
    (done : admitTool host step resolved = .ok held) : Registered host step held := by
  obtain ⟨name, own⟩ := Option.isSome_iff_exists.mp named
  rw [admitTool] at done
  split at done
  · cases done
  · split at done
    · cases done
    · next tool found =>
        split at done
        · cases done
        · next verified =>
            cases done
            rw [own, Option.getD_some] at found
            refine ⟨name, tool, own, found, ?_⟩
            intro effects
            by_contra missing
            exact verified ⟨effects, by simpa using missing⟩

variable {policy : WorkflowPolicy} {bindings : WorkflowParameterBindings}

theorem admitStep_fits (done : admitStep host definition policy bindings step = .ok held) :
    Fits host policy step held := by
  rw [admitStep] at done
  cases kind : step.kind with
  | navigate =>
      simp only [kind] at done
      refine ⟨by simp [kind], fun _ => ?_⟩
      split at done
      · cases done
      · split at done
        · cases done
        · next target =>
            split at done
            · cases done
            · cases done
              exact Option.isSome_iff_ne_none.mpr (by simpa using target)
  | toolCall =>
      simp only [kind] at done
      refine ⟨fun _ dispatches => ?_, by simp [kind]⟩
      split at done
      · cases done
      · split at done
        · cases done
        · next named =>
            split at done
            · cases done
            · next wired resolved =>
                exact admitTool_registered
                  (toolName_withWireName (Bool.not_eq_true _ ▸ named) resolved) done
  | verify => exact ⟨by simp [kind], by simp [kind]⟩
  | control => exact ⟨by simp [kind], by simp [kind]⟩

variable {steps : List WorkflowStep}

variable {state : EffectiveState}

theorem admitRun_admissible {parameters : JsonValue} {policy : Option WorkflowPolicy}
    (admitted : admitRun host definition parameters policy = .ok state) :
    Admissible host definition state := by
  obtain ⟨compatible, bindings, resolved, -, steps, rfl⟩ := admitRun_cases admitted
  exact ⟨compatible, admitSteps_forall₂ (fun _ _ => admitStep_fits) steps⟩

/-- No step without a verification predicate gets a tool with side effects, and a policy is
only switched to one that fits the definition and dispatches no more than the one before. -/
structure Vetted (host : Host) (definition : WorkflowDefinition) (state : EffectiveState)
    (entries : List WorkflowPatchEntry) : Prop where
  policies : ∀ entry ∈ entries, entry.target = .executionPolicy →
    ∀ policy, entryPolicy entry = some policy →
      validateWorkflowPolicyCompatibility definition policy = .ok () ∧
        (policy.dispatchesSideEffects = true → state.policy.dispatchesSideEffects = true)
  recomputed : ∀ bindings, patchBindings host definition state entries = .ok bindings →
    ∀ step ∈ definition.steps, step.kind = .toolCall → step.verification.isSome = false →
      Recomputes state entries step → ∀ held, resolveStepArguments bindings step.arguments =
        .ok held → stepToolHasSideEffects host held = false
  assigned : ∀ entry ∈ entries, entry.target = .stepArguments → entry.op = .set →
    ∀ step, stepOf definition entry.path = some step → step.kind = .toolCall →
      step.verification.isSome = false → stepToolHasSideEffects host entry.value = false

theorem registered_of_check (checked : checkToolArguments host policy arguments = .ok ())
    (dispatches : policy.dispatchesSideEffects = true)
    (named : ∀ name, toolName arguments = some name → toolName held = some name)
    (vetted : step.verification.isSome = false → stepToolHasSideEffects host arguments = false) :
    Registered host step held := by
  rw [checkToolArguments] at checked
  split at checked
  · cases checked
  · next name own =>
      rw [if_neg (by simp [dispatches])] at checked
      split at checked
      · cases checked
      · split at checked
        · cases checked
        · next present =>
            obtain ⟨tool, found⟩ : ∃ tool, host.tool name = some tool := by
              cases entry : host.tool name with
              | none => simp [entry] at present
              | some tool => exact ⟨tool, rfl⟩
            refine ⟨name, tool, named name own, found, ?_⟩
            intro effects
            by_contra missing
            have harmless := vetted (Bool.not_eq_true _ ▸ missing)
            rw [stepToolHasSideEffects, (asString_of_namedText own).1, Option.bind_some, found,
              Option.any_some, effects] at harmless
            cases harmless

theorem rebindArguments_fits {old : JsonValue}
    (done : rebindArguments host policy bindings step old = .ok held)
    (vetted : step.kind = .toolCall → step.verification.isSome = false →
      ∀ held, resolveStepArguments bindings step.arguments = .ok held →
      stepToolHasSideEffects host held = false) : Fits host policy step held := by
  rw [rebindArguments] at done
  cases kind : step.kind with
  | navigate =>
      simp only [kind] at done
      refine ⟨by simp [kind], fun _ => ?_⟩
      split at done
      · cases done
      · split at done
        · cases done
        · next target =>
            cases done
            exact Option.isSome_iff_ne_none.mpr (by simpa using target)
  | toolCall =>
      simp only [kind] at done
      refine ⟨fun _ dispatches => ?_, by simp [kind]⟩
      split at done
      · cases done
      · next resolved found =>
          split at done
          · cases done
          · next checked =>
              cases done
              exact registered_of_check checked dispatches (fun _ own => own)
                fun missing => vetted kind missing _ found
  | verify => exact ⟨by simp [kind], by simp [kind]⟩
  | control => exact ⟨by simp [kind], by simp [kind]⟩

theorem rebindSteps_fits {overrides : List (Bytes × JsonValue)} {resolved rebound : List JsonValue}
    (fits : List.Forall₂ (Fits host policy) steps resolved)
    (done : rebindSteps host policy bindings overrides steps resolved = .ok rebound)
    (vetted : ∀ step ∈ steps, lookupMember overrides step.id.toString = none →
      step.kind = .toolCall → step.verification.isSome = false →
      ∀ held, resolveStepArguments bindings step.arguments = .ok held →
      stepToolHasSideEffects host held = false) :
    List.Forall₂ (Fits host policy) steps rebound := by
  refine rebindSteps_forall₂ fits done (fun _ _ _ _ _ own => own) ?_
  intro step present free old held _ bound
  exact rebindArguments_fits bound (vetted step present free)

theorem lookup_resolveMembers {values members resolved : List (Bytes × JsonValue)} {key : Bytes}
    (done : resolveMembers values members = .ok resolved)
    (found : lookupMember members key = some (.string text)) :
    lookupMember resolved key = some (.string text) := by
  induction members generalizing resolved with
  | nil => cases found
  | cons member rest ih =>
      obtain ⟨name, value⟩ := member
      rw [resolveMembers] at done
      split at done
      · cases done
      · next own bound =>
          obtain ⟨others, later, rfl⟩ := Checked.ok_of_map done
          rw [lookupMember_cons] at found ⊢
          split at found
          · next same =>
              cases found
              rw [resolveReferences] at bound
              · cases bound
                rw [if_pos same]
              · simp
              · simp
          · next other =>
              rw [if_neg other]
              exact ih later found

theorem namedText_resolved (other : ascii key ≠ ascii "$param")
    (named : namedText key arguments = some text)
    (done : resolveStepArguments bindings arguments = .ok resolved) :
    namedText key resolved = some text := by
  obtain ⟨read, filled⟩ := asString_of_namedText named
  cases arguments with
  | object members =>
      obtain ⟨value, found, isText⟩ := Option.bind_eq_some_iff.mp read
      have own : lookupMember members (ascii key) = some (.string text) := by
        cases value with
        | string held =>
            cases isText
            exact found
        | null => cases isText
        | boolean value => cases isText
        | integer value => cases isText
        | number value => cases isText
        | array items => cases isText
        | object members => cases isText
      rw [resolveStepArguments, resolveReferences] at done
      split at done
      · next reference refers =>
          rw [resolveReference] at done
          split at done
          · cases done
          · next single =>
              rw [ne_eq, not_not] at single
              obtain ⟨member, rfl⟩ := List.length_eq_one_iff.mp single
              rw [lookupMember_cons, lookupMember_nil] at own refers
              split at own
              · next same =>
                  split at refers
                  · next clash => exact absurd (same.symm.trans clash) other
                  · cases refers
              · cases own
      · obtain ⟨members, bound, rfl⟩ := Checked.ok_of_map done
        have kept := lookup_resolveMembers bound own
        rw [lookupMember] at kept
        rw [namedText, kept, Option.filter_eq_some_iff]
        exact ⟨rfl, by simp [filled]⟩
  | null => cases read
  | boolean value => cases read
  | integer value => cases read
  | number value => cases read
  | string value => cases read
  | array items => cases read

theorem checkSetArguments_fits (checked : checkSetArguments host policy step arguments = .ok ())
    (resolved : resolveStepArguments bindings arguments = .ok held)
    (vetted : step.kind = .toolCall → step.verification.isSome = false →
      stepToolHasSideEffects host arguments = false) : Fits host policy step held := by
  rw [checkSetArguments] at checked
  cases kind : step.kind with
  | navigate =>
      simp only [kind] at checked
      refine ⟨by simp [kind], fun _ => ?_⟩
      split at checked
      · cases checked
      · next target =>
          obtain ⟨text, named⟩ : ∃ text, targetName arguments = some text := by
            cases found : targetName arguments with
            | none => simp [found] at target
            | some text => exact ⟨text, rfl⟩
          have kept := namedText_resolved (by decide) named resolved
          rw [targetName, kept]
          rfl
  | toolCall =>
      simp only [kind] at checked
      refine ⟨fun _ dispatches => ?_, by simp [kind]⟩
      split at checked
      · cases checked
      · next passed =>
          exact registered_of_check passed dispatches
            (fun _ named => namedText_resolved (by decide) named resolved) (vetted kind)
  | verify => exact ⟨by simp [kind], by simp [kind]⟩
  | control => exact ⟨by simp [kind], by simp [kind]⟩

/-- What the step entries of a patch keep. -/
structure StepsFit (host : Host) (definition : WorkflowDefinition)
    (bound stepped : EffectiveState) : Prop where
  policy : stepped.policy = bound.policy
  bindings : stepped.bindings = bound.bindings
  steps : List.Forall₂ (Fits host bound.policy) definition.steps stepped.resolved

theorem patchStep_fits (accepted : AcceptedDefinition definition) {bound next : EffectiveState}
    {entry : WorkflowPatchEntry} (fit : StepsFit host definition bound state)
    (unset : entry.target = .stepArguments → entry.op = .unset → ∀ step ∈ definition.steps,
      entry.path = step.id.toString → step.kind = .toolCall →
      step.verification.isSome = false → ∀ held,
      resolveStepArguments bound.bindings step.arguments = .ok held →
      stepToolHasSideEffects host held = false)
    (set : entry.target = .stepArguments → entry.op = .set → ∀ step,
      stepOf definition entry.path = some step → step.kind = .toolCall →
      step.verification.isSome = false → stepToolHasSideEffects host entry.value = false)
    (done : patchStep host definition state entry = .ok next) :
    StepsFit host definition bound next := by
  cases patchStep_cases done with
  | inl kept =>
      rw [kept.1]
      exact fit
  | inr patched =>
      obtain ⟨target, step, found, skips | unsets | sets⟩ := patched
      · rw [skips.2]
        exact ⟨fit.policy, fit.bindings, fit.steps⟩
      · obtain ⟨present, named⟩ := stepOf_some found
        obtain ⟨held, rebound, rfl⟩ := unsetStep_cases unsets.2
        refine ⟨fit.policy, fit.bindings, ?_⟩
        rw [fit.policy, fit.bindings] at rebound
        exact forall₂_set accepted.steps fit.steps present
          (rebindArguments_fits rebound (unset target unsets.1 step present named.symm))
          fun _ _ _ _ fits => fits
      · obtain ⟨present, _⟩ := stepOf_some found
        obtain ⟨shaped, held, resolved, rfl⟩ := setStep_cases sets.2
        refine ⟨fit.policy, fit.bindings, ?_⟩
        rw [fit.policy] at shaped
        simp only
        split
        · exact forall₂_set accepted.steps fit.steps present
            (checkSetArguments_fits shaped resolved (set target sets.1 step found))
            fun _ _ _ _ fits => fits
        · exact fit.steps

theorem foldl_patchPolicy (entries : List WorkflowPatchEntry) (policy : WorkflowPolicy) :
    entries.foldl patchPolicy policy = policy ∨ ∃ entry ∈ entries,
      entry.target = .executionPolicy ∧
        entryPolicy entry = some (entries.foldl patchPolicy policy) := by
  induction entries generalizing policy with
  | nil => exact .inl rfl
  | cons entry rest ih =>
      rw [List.foldl_cons]
      cases ih (patchPolicy policy entry) with
      | inr later =>
          obtain ⟨other, among, target, named⟩ := later
          exact .inr ⟨other, List.mem_cons_of_mem _ among, target, named⟩
      | inl kept =>
          rw [kept, patchPolicy]
          split
          · next target =>
              cases named : entryPolicy entry with
              | none => exact .inl rfl
              | some switched => exact .inr ⟨entry, List.mem_cons_self, target, named⟩
          · exact .inl rfl

theorem Fits.switched {first second : WorkflowPolicy} (fits : Fits host first step held)
    (less : second.dispatchesSideEffects = true → first.dispatchesSideEffects = true) :
    Fits host second step held :=
  ⟨fun kind dispatches => fits.1 kind (less dispatches), fits.2⟩

theorem patches_admissible (accepted : AcceptedDefinition definition) {run next : PatchedRun}
    {entries : List WorkflowPatchEntry} (admissible : Admissible host definition run.effective)
    (vetted : Vetted host definition run.effective entries)
    (patches : Patches host definition run entries next) :
    Admissible host definition next.effective := by
  obtain ⟨patched, done, committed⟩ := patches.patched
  obtain ⟨targets, bound, stepped, parameters, steps, rfl⟩ := patchedState_cases done
  have used := patchParameters_bindings parameters
  have same : bound.policy = run.effective.policy ∧
      List.Forall₂ (Fits host bound.policy) definition.steps bound.resolved := by
    cases patchParameters_cases parameters with
    | inl kept =>
        rw [kept.2]
        exact ⟨rfl, admissible.steps⟩
    | inr changed =>
        obtain ⟨touched, bindings, resolved, bind, rebound, rfl⟩ := changed
        refine ⟨rfl, rebindSteps_fits admissible.steps rebound ?_⟩
        intro step present free kind missing held found
        exact vetted.recomputed bindings used step present kind missing
          (.inl ⟨touched, free⟩) held found
  have result : StepsFit host definition bound stepped := by
    refine patchSteps_invariant (StepsFit host definition bound) ?_ ⟨rfl, rfl, same.2⟩ steps
    intro entry among state next held done
    apply patchStep_fits accepted held _ _ done
    · intro target op step present named kind missing value found
      exact vetted.recomputed bound.bindings used step present kind missing
        (.inr ⟨entry, among, target, op, named⟩) value found
    · intro target op step found kind missing
      exact vetted.assigned entry among target op step found kind missing
  have before : stepped.policy = run.effective.policy := result.policy.trans same.1
  have switch : validateWorkflowPolicyCompatibility definition
        (entries.foldl patchPolicy run.effective.policy) = .ok () ∧
      ((entries.foldl patchPolicy run.effective.policy).dispatchesSideEffects = true →
        run.effective.policy.dispatchesSideEffects = true) := by
    cases foldl_patchPolicy entries run.effective.policy with
    | inl kept =>
        rw [kept]
        exact ⟨admissible.compatible, fun dispatches => dispatches⟩
    | inr switched =>
        obtain ⟨entry, among, target, named⟩ := switched
        exact vetted.policies entry among target _ named
  rw [committed]
  refine ⟨?_, ?_⟩
  · simp only [commitPatch, before]
    exact switch.1
  · simp only [commitPatch, before]
    refine forall₂_mono result.steps ?_
    intro step _ held fits
    rw [same.1] at fits
    exact fits.switched switch.2

/-- The moves of a run, each with the condition in the state it is taken from. -/
def VettedMoves (host : Host) (config : WorkflowRuntimeConfig) (definition : WorkflowDefinition)
    (run : PatchedRun) (moves : List PatchMove) : Prop :=
  Execution.Guarded (patchMove host config definition)
    (fun run move => Vetted host definition run.effective (move.entries run)) run moves

/-- Patches of an admitted run keep it in a configuration that admission accepts, and what its
steps are asked for is there. -/
theorem patched_runs_admissible (host : Host) (config : WorkflowRuntimeConfig)
    (definition : WorkflowDefinition) (parameters : JsonValue) (policy : Option WorkflowPolicy)
    (state : EffectiveState) (moves : List PatchMove)
    (accepted : AcceptedDefinition definition)
    (admitted : admitRun host definition parameters policy = .ok state)
    (vetted : VettedMoves host config definition ⟨state, []⟩ moves) :
    Admissible host definition (patchAll host config definition state moves).effective ∧
      List.Forall₂ (fun step held => step.kind = .toolCall →
          (patchAll host config definition state moves).effective.policy.dispatchesSideEffects =
            true → ReadsDefined host step held)
        definition.steps (patchAll host config definition state moves).effective.resolved := by
  have admissible : Admissible host definition
      (patchAll host config definition state moves).effective :=
    patchAll_invariant (fun run => Admissible host definition run.effective)
      (admitRun_admissible admitted) (fun _ _ _ held => ⟨held.compatible, held.steps⟩)
      (fun _ _ _ condition held patches => patches_admissible accepted held condition patches) vetted
  refine ⟨admissible, forall₂_mono admissible.steps ?_⟩
  intro step _ held fits kind dispatches
  exact (fits.1 kind dispatches).readsDefined

def wipeHost : Host :=
  { tools := some [{ wireName := ascii "send" },
      { wireName := ascii "wipe", hasSideEffects := true }] }

def useTool (name : String) : PatchMove :=
  .patch (.filled 2)
    [{ target := .stepArguments
       path := sendStep.id.toString
       value := .object [(ascii "tool", .string (ascii name))] }]

theorem unverified_side_effect :
    admitRun wipeHost sendWorkflow (sendTo "a") none = .ok sendState ∧
      ¬ Admissible wipeHost sendWorkflow
        (patchAll wipeHost {} sendWorkflow sendState [useTool "wipe"]).effective := by
  refine ⟨rfl, ?_⟩
  intro admissible
  have own := forall₂_getD sendWorkflow_accepted.steps admissible.steps
    (List.mem_singleton_self sendStep) .null
  have reads := (own.1 rfl (by decide +kernel)).readsDefined
  exact absurd (reads.2 (by decide +kernel)) (by decide)

theorem harmless_tool_admissible :
    Admissible wipeHost sendWorkflow
      (patchAll wipeHost {} sendWorkflow sendState [useTool "send"]).effective := by
  refine (patched_runs_admissible wipeHost {} sendWorkflow (sendTo "a") none sendState
    [useTool "send"] sendWorkflow_accepted rfl ⟨⟨?_, ?_, ?_⟩, trivial⟩).1
  · intro entry among target
    cases List.mem_singleton.mp among
    cases target
  · intro bindings _ step _ _ _ recomputes
    cases recomputes with
    | inl touched => exact absurd touched.1 (by decide)
    | inr unset =>
        obtain ⟨entry, among, _, op, _⟩ := unset
        cases List.mem_singleton.mp among
        cases op
  · intro entry among _ _ _ _ _ _
    cases List.mem_singleton.mp among
    decide

end Mira.Workflow
