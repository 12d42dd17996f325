import Mira.Workflow.PatchedRun

/-!
The coherence of an effective state. It is a cache: bindings, context and step arguments can
all be computed from the definition, the parameters and the overrides, as they are when a run
is created. A patch keeps the arguments true unless it changes parameters under an override
that refers to them, or resolves a tool reference anew.
-/

namespace Mira.Workflow
open Mira Bytes

def stepArguments (overrides : List (Bytes × JsonValue)) (step : WorkflowStep) : JsonValue :=
  (lookupMember overrides step.id.toString).getD step.arguments

def computeArguments (definition : WorkflowDefinition) (bindings : WorkflowParameterBindings)
    (overrides : List (Bytes × JsonValue)) (step : WorkflowStep) : WorkflowResult JsonValue :=
  match step.kind with
  | .navigate => resolveStepArguments bindings (stepArguments overrides step)
  | .toolCall =>
      match resolveStepArguments bindings (stepArguments overrides step) with
      | .error error => .error error
      | .ok resolved => withWireName definition resolved
  | _ => .ok .null

def Computes (definition : WorkflowDefinition) (bindings : WorkflowParameterBindings)
    (overrides : List (Bytes × JsonValue)) (step : WorkflowStep) (held : JsonValue) : Prop :=
  computeArguments definition bindings overrides step = .ok held

structure Coherent (host : Host) (definition : WorkflowDefinition) (state : EffectiveState) :
    Prop where
  bound : bindWorkflowParameters host.regex definition (.object state.parameters) =
    .ok state.bindings
  values : state.parameters = state.bindings.values
  mirrored : ∀ name, lookupMember state.context (parameterKey name) =
    lookupMember state.bindings.values name
  resolved : List.Forall₂ (Computes definition state.bindings state.overrides) definition.steps
    state.resolved
  distinct : (names state.parameters).Nodup ∧ (names state.context).Nodup

variable {host : Host} {definition : WorkflowDefinition} {policy : WorkflowPolicy}
  {bindings : WorkflowParameterBindings} {step : WorkflowStep} {held : JsonValue}

theorem computeArguments_of_admitStep
    (done : admitStep host definition policy bindings step = .ok held) :
    Computes definition bindings [] step held := by
  rw [Computes, computeArguments]
  rw [admitStep] at done
  have own : stepArguments [] step = step.arguments := rfl
  cases kind : step.kind with
  | navigate =>
      simp only [kind] at done ⊢
      rw [own]
      split at done
      · cases done
      · next resolved found =>
          split at done
          · cases done
          · split at done
            · cases done
            · rw [found, done]
  | toolCall =>
      simp only [kind] at done ⊢
      rw [own]
      cases found : resolveStepArguments bindings step.arguments with
      | error error =>
          rw [found] at done
          cases done
      | ok resolved =>
          simp only [found] at done ⊢
          split at done
          · cases done
          · cases wired : withWireName definition resolved with
            | error error =>
                rw [wired] at done
                cases done
            | ok named =>
                simp only [wired] at done ⊢
                split at done
                · rw [admitTool] at done
                  split at done
                  · cases done
                  · split at done
                    · cases done
                    · split at done
                      · cases done
                      · exact done
                · exact done
  | verify =>
      simp only [kind] at done ⊢
      exact done
  | control =>
      simp only [kind] at done ⊢
      exact done

variable {steps : List WorkflowStep} {resolved : List JsonValue}

variable (values : List (Bytes × JsonValue))

theorem names_mirror :
    names (values.map fun member => (parameterKey member.1, member.2)) =
      (names values).map parameterKey := by
  simp [names, Function.comp_def]

theorem lookup_mirror (name : Bytes) :
    lookupMember (values.map fun member => (parameterKey member.1, member.2))
      (parameterKey name) = lookupMember values name := by
  induction values with
  | nil => rfl
  | cons member rest ih =>
      rw [List.map_cons, lookupMember_cons, lookupMember_cons, ih]
      by_cases own : member.1 = name
      · rw [if_pos own, if_pos (congrArg parameterKey own)]
      · rw [if_neg own, if_neg fun same => own (parameterKey_injective same)]

theorem nodup_mirror {values : List (Bytes × JsonValue)} (distinct : (names values).Nodup) :
    (values.map fun member => parameterKey member.1).Nodup := by
  have mapped : (values.map fun member => parameterKey member.1) =
      (names values).map parameterKey := by simp [names, Function.comp_def]
  rw [mapped]
  exact distinct.map fun _ _ => parameterKey_injective

/-- The parameters given to a new run have distinct names. -/
def DistinctParameters : JsonValue → Prop
  | .object members => (names members).Nodup
  | _ => True

variable {parameters : JsonValue}

theorem bindWorkflowParameters_bound {regex : RegexSearch}
    (distinct : DistinctParameters parameters)
    (done : bindWorkflowParameters regex definition parameters = .ok bindings) :
    ∃ members, Bound regex definition members bindings ∧ (names members).Nodup := by
  cases parameters with
  | null => exact ⟨[], bindMembers_ok done, List.nodup_nil⟩
  | object members => exact ⟨members, bindMembers_ok done, distinct⟩
  | boolean value => cases done
  | integer value => cases done
  | number value => cases done
  | string value => cases done
  | array items => cases done

variable {state : EffectiveState}

theorem admitRun_coherent {policy : Option WorkflowPolicy}
    (defaults : DefaultsPass host.regex definition) (distinct : DistinctParameters parameters)
    (admitted : admitRun host definition parameters policy = .ok state) :
    Coherent host definition state := by
  obtain ⟨-, bindings, resolved, done, steps, rfl⟩ := admitRun_cases admitted
  obtain ⟨members, bound, apart⟩ := bindWorkflowParameters_bound distinct done
  have separate := bound.distinct apart
  have mirror : mirrorParameters [] bindings.values =
      bindings.values.map fun member => (parameterKey member.1, member.2) :=
    mirrorParameters_eq (nodup_mirror separate)
  refine ⟨bound.again defaults, rfl, ?_,
    admitSteps_forall₂ (fun _ _ => computeArguments_of_admitStep) steps, separate, ?_⟩
  · intro name
    simp only [mirror]
    exact lookup_mirror bindings.values name
  · simp only [mirror, names_mirror]
    exact separate.map fun _ _ => parameterKey_injective

/-- The arguments name a tool by its wire name once parameters are put in. -/
def NamesPlainTool (definition : WorkflowDefinition) (bindings : WorkflowParameterBindings)
    (arguments : JsonValue) : Prop :=
  ∀ resolved, resolveStepArguments bindings arguments = .ok resolved →
    resolveToolReferenceMember definition resolved = .ok none

/-- Nothing the patch resolves anew is a tool reference, and parameters only change when no
override refers to one. -/
structure Refreshes (host : Host) (definition : WorkflowDefinition) (state : EffectiveState)
    (entries : List WorkflowPatchEntry) : Prop where
  overridden : entries.any touchesParameters = true → ∀ step ∈ definition.steps,
    ∀ value, lookupMember state.overrides step.id.toString = some value →
      referenceless value = true
  recomputed : ∀ bindings, patchBindings host definition state entries = .ok bindings →
    ∀ step ∈ definition.steps, step.kind = .toolCall → Recomputes state entries step →
      NamesPlainTool definition bindings step.arguments
  assigned : ∀ bindings, patchBindings host definition state entries = .ok bindings →
    ∀ entry ∈ entries, entry.target = .stepArguments → entry.op = .set →
      ∀ step, stepOf definition entry.path = some step → step.kind = .toolCall →
        NamesPlainTool definition bindings entry.value

theorem NamesPlainTool.wired {arguments resolved : JsonValue}
    (plain : NamesPlainTool definition bindings arguments)
    (found : resolveStepArguments bindings arguments = .ok resolved) :
    withWireName definition resolved = .ok resolved := by
  rw [withWireName, plain resolved found]

theorem namesPlainTool_of_schema (old : definition.schemaVersion.minor < 1)
    (bindings : WorkflowParameterBindings) (arguments : JsonValue) :
    NamesPlainTool definition bindings arguments := by
  intro resolved _
  rw [resolveToolReferenceMember]
  split
  · rfl
  · rw [if_pos (.inl old)]

variable {entries : List WorkflowPatchEntry}

theorem refreshes_of_schema (old : definition.schemaVersion.minor < 1)
    (free : entries.any touchesParameters = true → state.overrides = []) :
    Refreshes host definition state entries := by
  refine ⟨?_, ?_, ?_⟩
  · intro touched step _ value found
    rw [free touched] at found
    cases found
  · intro bindings _ step _ _ _
    exact namesPlainTool_of_schema old bindings step.arguments
  · intro bindings _ entry _ _ _ _ _ _
    exact namesPlainTool_of_schema old bindings entry.value

variable {overrides : List (Bytes × JsonValue)}

theorem stepArguments_own (free : lookupMember overrides step.id.toString = none) :
    stepArguments overrides step = step.arguments := by
  rw [stepArguments, free, Option.getD_none]

theorem computes_congr {first second : List (Bytes × JsonValue)}
    (same : lookupMember first step.id.toString = lookupMember second step.id.toString)
    (computed : Computes definition bindings first step held) :
    Computes definition bindings second step held := by
  rw [Computes, computeArguments, stepArguments, ← same]
  exact computed

theorem rebindArguments_computed {rebound : JsonValue}
    (done : rebindArguments host policy bindings step held = .ok rebound)
    (free : lookupMember overrides step.id.toString = none)
    (plain : step.kind = .toolCall → NamesPlainTool definition bindings step.arguments)
    (idle : step.kind ≠ .toolCall → step.kind ≠ .navigate → held = .null) :
    Computes definition bindings overrides step rebound := by
  rw [Computes, computeArguments, stepArguments_own free]
  rw [rebindArguments] at done
  cases kind : step.kind with
  | navigate =>
      simp only [kind] at done ⊢
      split at done
      · cases done
      · next resolved found =>
          split at done
          · cases done
          · rw [found]
            cases done
            rfl
  | toolCall =>
      simp only [kind] at done ⊢
      cases found : resolveStepArguments bindings step.arguments with
      | error error =>
          rw [found] at done
          cases done
      | ok resolved =>
          simp only [found] at done ⊢
          split at done
          · cases done
          · cases done
            exact (plain kind).wired found
  | verify =>
      simp only [kind] at done ⊢
      cases done
      rw [idle (by simp [kind]) (by simp [kind])]
  | control =>
      simp only [kind] at done ⊢
      cases done
      rw [idle (by simp [kind]) (by simp [kind])]

theorem Computes.idle (computed : Computes definition bindings overrides step held)
    (tool : step.kind ≠ .toolCall) (navigate : step.kind ≠ .navigate) : held = .null := by
  rw [Computes, computeArguments] at computed
  cases kind : step.kind with
  | navigate => exact absurd kind navigate
  | toolCall => exact absurd kind tool
  | verify =>
      rw [kind] at computed
      exact (Except.ok.inj computed).symm
  | control =>
      rw [kind] at computed
      exact (Except.ok.inj computed).symm

theorem Computes.rebound {first second : WorkflowParameterBindings} {value : JsonValue}
    (computed : Computes definition first overrides step held)
    (overridden : lookupMember overrides step.id.toString = some value)
    (free : referenceless value = true) : Computes definition second overrides step held := by
  have same : resolveStepArguments first (stepArguments overrides step) =
      resolveStepArguments second (stepArguments overrides step) := by
    rw [stepArguments, overridden, Option.getD_some, resolveStepArguments, resolveStepArguments,
      resolveReferences_referenceless _ value free, resolveReferences_referenceless _ value free]
  rw [Computes, computeArguments, ← same]
  exact computed

theorem rebindSteps_computed {held : WorkflowParameterBindings} {rebound : List JsonValue}
    (computed : List.Forall₂ (Computes definition held overrides) steps resolved)
    (done : rebindSteps host policy bindings overrides steps resolved = .ok rebound)
    (overridden : ∀ step ∈ steps, ∀ value,
      lookupMember overrides step.id.toString = some value → referenceless value = true)
    (plain : ∀ step ∈ steps, step.kind = .toolCall →
      lookupMember overrides step.id.toString = none →
      NamesPlainTool definition bindings step.arguments) :
    List.Forall₂ (Computes definition bindings overrides) steps rebound := by
  refine rebindSteps_forall₂ computed done ?_ ?_
  · intro step present override found value own
    exact own.rebound found (overridden step present override found)
  · intro step present free old value own bound
    exact rebindArguments_computed bound free (fun kind => plain step present kind free) own.idle

/-- The state after the parameters of a patch are bound. -/
structure Rebound (host : Host) (definition : WorkflowDefinition) (state : EffectiveState)
    (entries : List WorkflowPatchEntry) (patched : EffectiveState) : Prop where
  bound : patchBindings host definition state entries = .ok patched.bindings
  again : bindMembers host.regex definition patched.parameters = .ok patched.bindings
  values : patched.parameters = patched.bindings.values
  resolved : List.Forall₂ (Computes definition patched.bindings patched.overrides)
    definition.steps patched.resolved
  distinct : (names patched.parameters).Nodup
  overrides : patched.overrides = state.overrides
  untouched : entries.any touchesParameters = false → patched = state

theorem patchParameters_rebound {patched : EffectiveState}
    (coherent : Coherent host definition state) (defaults : DefaultsPass host.regex definition)
    (refreshes : Refreshes host definition state entries)
    (done : patchParameters host definition state entries = .ok patched) :
    Rebound host definition state entries patched := by
  have used := patchParameters_bindings done
  cases patchParameters_cases done with
  | inl kept =>
      obtain ⟨untouched, rfl⟩ := kept
      exact ⟨used, coherent.bound, coherent.values, coherent.resolved, coherent.distinct.1, rfl,
        fun _ => rfl⟩
  | inr changed =>
      obtain ⟨touched, bindings, resolved, bound, rebound, rfl⟩ := changed
      have facts := bindMembers_ok bound
      refine ⟨used, facts.again defaults, rfl, ?_, ?_, rfl, ?_⟩
      · apply rebindSteps_computed coherent.resolved rebound (refreshes.overridden touched)
        intro step among kind free
        exact refreshes.recomputed bindings used step among kind (.inl ⟨touched, free⟩)
      · exact facts.distinct (nodup_patchParameters coherent.distinct.1 entries)
      · intro untouched
        rw [touched] at untouched
        cases untouched

/-- What the step entries keep of the state: parameters and bindings stay, and the arguments
are those of a new run for the overrides there are. -/
structure Stepped (definition : WorkflowDefinition) (bound stepped : EffectiveState) : Prop where
  parameters : stepped.parameters = bound.parameters
  bindings : stepped.bindings = bound.bindings
  context : stepped.context = bound.context
  resolved : List.Forall₂ (Computes definition stepped.bindings stepped.overrides)
    definition.steps stepped.resolved

theorem name_ne {path : Bytes} {other : WorkflowStep} (named : step.id.toString = path)
    (apart : other.id ≠ step.id) : other.id.toString ≠ path := by
  intro same
  exact apart (stepId_of_toString (same.trans named.symm))

theorem patchStep_stepped (accepted : AcceptedDefinition definition) {bound next : EffectiveState}
    {entry : WorkflowPatchEntry} (stepped : Stepped definition bound state)
    (unset : entry.target = .stepArguments → entry.op = .unset → ∀ step ∈ definition.steps,
      step.kind = .toolCall → entry.path = step.id.toString →
      NamesPlainTool definition bound.bindings step.arguments)
    (set : entry.target = .stepArguments → entry.op = .set → ∀ step,
      stepOf definition entry.path = some step → step.kind = .toolCall →
      NamesPlainTool definition bound.bindings entry.value)
    (done : patchStep host definition state entry = .ok next) : Stepped definition bound next := by
  cases patchStep_cases done with
  | inl kept => rw [kept.1]; exact stepped
  | inr patched =>
      obtain ⟨target, step, found, skips | unsets | sets⟩ := patched
      · rw [skips.2]
        exact ⟨stepped.parameters, stepped.bindings, stepped.context, stepped.resolved⟩
      · obtain ⟨present, named⟩ := stepOf_some found
        obtain ⟨held, rebound, rfl⟩ := unsetStep_cases unsets.2
        refine ⟨stepped.parameters, stepped.bindings, stepped.context, ?_⟩
        apply forall₂_set accepted.steps stepped.resolved present
        · apply rebindArguments_computed rebound
          · rw [lookup_eraseOverride, if_pos named]
          · intro kind
            rw [stepped.bindings]
            exact unset target unsets.1 step present kind named.symm
          · intro tool navigate
            exact (forall₂_getD accepted.steps stepped.resolved present .null).idle tool navigate
        · intro other among apart value computed
          refine computes_congr ?_ computed
          rw [lookup_eraseOverride, if_neg (name_ne named apart)]
      · obtain ⟨present, named⟩ := stepOf_some found
        obtain ⟨shaped, held, resolved, rfl⟩ := setStep_cases sets.2
        refine ⟨stepped.parameters, stepped.bindings, stepped.context, ?_⟩
        have others : ∀ other ∈ definition.steps, other.id ≠ step.id → ∀ value,
            Computes definition state.bindings state.overrides other value →
              Computes definition state.bindings
                (insertOverride entry.path entry.value state.overrides) other value := by
          intro other among apart value computed
          refine computes_congr ?_ computed
          rw [lookup_insertOverride, if_neg (name_ne named apart)]
        have own : stepArguments (insertOverride entry.path entry.value state.overrides) step =
            entry.value := by
          rw [stepArguments, lookup_insertOverride, if_pos named, Option.getD_some]
        by_cases active : step.kind = .toolCall ∨ step.kind = .navigate
        · simp only [if_pos active]
          apply forall₂_set accepted.steps stepped.resolved present _ others
          rw [Computes, computeArguments, own, resolved]
          cases active with
          | inl kind =>
              have plain := set target sets.1 step found kind
              rw [← stepped.bindings] at plain
              simp only [kind]
              exact plain.wired resolved
          | inr kind => simp only [kind]
        · simp only [if_neg active]
          refine forall₂_mono stepped.resolved ?_
          intro other among value computed
          by_cases same : other.id = step.id
          · have this := eq_of_sameId accepted.steps among present same
            subst this
            rw [not_or] at active
            rw [computed.idle active.1 active.2, Computes, computeArguments]
            split
            · next kind => exact absurd kind active.2
            · next kind => exact absurd kind active.1
            · rfl
          · exact others other among same value computed

end Mira.Workflow
