import Mira.Workflow.Computed
import Mira.Json.KeyOrder

/-!
Runs that stay coherent: the context follows the parameters, and a patch that keeps the
arguments true keeps the whole state.
-/

namespace Mira.Workflow
open Mira Bytes

variable {context values : List (Bytes × JsonValue)}

theorem refreshContext_eq (apart : (names context).Nodup) (distinct : (names values).Nodup) :
    refreshContext context values =
      (context.filter fun member => !parameterLead.isPrefixOf member.1) ++
        values.map (fun member => (parameterKey member.1, member.2)) ∧
      (names (refreshContext context values)).Nodup := by
  have kept := rebuildMembers_eq parameterLead.isPrefixOf apart
  have separate : (names (context.filter fun member => !parameterLead.isPrefixOf member.1) ++
      values.map fun member => parameterKey member.1).Nodup := by
    rw [List.nodup_append]
    refine ⟨apart.sublist (List.filter_sublist.map Prod.fst), nodup_mirror distinct, ?_⟩
    intro name present other mirrored same
    obtain ⟨member, among, rfl⟩ := List.mem_map.mp present
    obtain ⟨parameter, _, rfl⟩ := List.mem_map.mp mirrored
    have plain := (List.mem_filter.mp among).2
    rw [same, isPrefixOf_parameterKey] at plain
    cases plain
  have whole : refreshContext context values =
      (context.filter fun member => !parameterLead.isPrefixOf member.1) ++
        values.map (fun member => (parameterKey member.1, member.2)) := by
    rw [refreshContext, kept, mirrorParameters_eq separate]
  refine ⟨whole, ?_⟩
  rw [whole, names_append, names_mirror]
  have mapped : (names values).map parameterKey =
      values.map fun member => parameterKey member.1 := by simp [names, Function.comp_def]
  rw [mapped]
  exact separate

theorem lookup_refreshContext (apart : (names context).Nodup) (distinct : (names values).Nodup)
    (name : Bytes) :
    lookupMember (refreshContext context values) (parameterKey name) =
      lookupMember values name := by
  have absent : lookupMember (context.filter fun member => !parameterLead.isPrefixOf member.1)
      (parameterKey name) = none := by
    rw [lookupMember_eq_none]
    intro present
    obtain ⟨member, among, same⟩ := List.mem_map.mp present
    have plain := (List.mem_filter.mp among).2
    rw [same, isPrefixOf_parameterKey] at plain
    cases plain
  rw [(refreshContext_eq apart distinct).1, lookupMember_append, absent, Option.none_or,
    lookup_mirror]

variable {host : Host} {definition : WorkflowDefinition} {entries : List WorkflowPatchEntry}

theorem patches_coherent (accepted : AcceptedDefinition definition)
    (defaults : DefaultsPass host.regex definition) {run next : PatchedRun}
    (coherent : Coherent host definition run.effective)
    (refreshes : Refreshes host definition run.effective entries)
    (patches : Patches host definition run entries next) :
    Coherent host definition next.effective := by
  obtain ⟨patched, done, committed⟩ := patches.patched
  obtain ⟨targets, bound, stepped, parameters, steps, rfl⟩ := patchedState_cases done
  have rebound := patchParameters_rebound coherent defaults refreshes parameters
  have result : Stepped definition bound stepped := by
    refine patchSteps_invariant (Stepped definition bound) ?_
      ⟨rfl, rfl, rfl, rebound.resolved⟩ steps
    intro entry among state next held done
    apply patchStep_stepped accepted held _ _ done
    · intro target op step present kind named
      exact refreshes.recomputed bound.bindings rebound.bound step present kind
        (.inr ⟨entry, among, target, op, named⟩)
    · intro target op step found kind
      exact refreshes.assigned bound.bindings rebound.bound entry among target op step found kind
  have separate : (names stepped.parameters).Nodup := by
    rw [result.parameters]
    exact rebound.distinct
  rw [committed]
  refine ⟨?_, ?_, ?_, result.resolved, separate, ?_⟩
  · simp only [commitPatch, result.parameters, result.bindings]
    exact rebound.again
  · simp only [commitPatch, result.parameters, result.bindings]
    exact rebound.values
  · intro name
    simp only [commitPatch]
    split
    · rw [lookup_refreshContext coherent.distinct.2 separate, result.parameters, rebound.values,
        result.bindings]
    · next untouched =>
        have same := rebound.untouched (by simpa using untouched)
        rw [coherent.mirrored name, result.bindings, same]
  · simp only [commitPatch]
    split
    · exact (refreshContext_eq coherent.distinct.2 separate).2
    · exact coherent.distinct.2

variable {state : EffectiveState}

theorem result_coherent (coherent : Coherent host definition state) (step : StepId)
    (value : JsonValue) :
    Coherent host definition
      { state with context := setMember state.context (resultKey step) value } := by
  refine ⟨coherent.bound, coherent.values, ?_, coherent.resolved, coherent.distinct.1,
    nodup_setMember coherent.distinct.2 _ _⟩
  intro name
  rw [lookup_setMember, if_neg (resultKey_ne_parameterKey step name)]
  exact coherent.mirrored name

theorem forall₂_unique {R S : WorkflowStep → JsonValue → Prop} {steps : List WorkflowStep}
    {left right : List JsonValue}
    (unique : ∀ step first second, R step first → S step second → first = second)
    (one : List.Forall₂ R steps left) (other : List.Forall₂ S steps right) : left = right := by
  induction one generalizing right with
  | nil =>
      cases other
      rfl
  | cons own _ ih =>
      cases other with
      | cons their rest => rw [unique _ _ _ own their, ih rest]

theorem Coherent.unique {first second : EffectiveState} (one : Coherent host definition first)
    (other : Coherent host definition second)
    (parameters : SameMembers first.parameters second.parameters)
    (overrides : SameMembers first.overrides second.overrides) :
    first.resolved = second.resolved := by
  have values : SameMembers first.bindings.values second.bindings.values := by
    rw [← one.values, ← other.values]
    exact parameters
  have same : ∀ step, computeArguments definition first.bindings first.overrides step =
      computeArguments definition second.bindings second.overrides step := by
    intro step
    rw [computeArguments, computeArguments, stepArguments, stepArguments,
      overrides step.id.toString, resolveStepArguments, resolveStepArguments,
      resolveReferences_congr values]
  refine forall₂_unique ?_ one.resolved other.resolved
  intro step left right own their
  rw [Computes, same, their] at own
  exact (Except.ok.inj own).symm

/-- The moves of a run, each with the condition in the state it is taken from. -/
def RefreshingMoves (host : Host) (config : WorkflowRuntimeConfig)
    (definition : WorkflowDefinition) (run : PatchedRun) (moves : List PatchMove) : Prop :=
  Execution.Guarded (patchMove host config definition)
    (fun run move => Refreshes host definition run.effective (move.entries run)) run moves

/-- A patched run stays coherent, and its arguments depend on its parameters and overrides
only. -/
theorem patched_runs_coherent (host : Host) (config : WorkflowRuntimeConfig)
    (definition : WorkflowDefinition) (parameters : JsonValue) (policy : Option WorkflowPolicy)
    (state : EffectiveState) (moves : List PatchMove)
    (accepted : AcceptedDefinition definition) (defaults : DefaultsPass host.regex definition)
    (distinct : DistinctParameters parameters)
    (admitted : admitRun host definition parameters policy = .ok state)
    (refreshing : RefreshingMoves host config definition ⟨state, []⟩ moves) :
    Coherent host definition (patchAll host config definition state moves).effective ∧
      ∀ other, Coherent host definition other →
        SameMembers other.parameters
          (patchAll host config definition state moves).effective.parameters →
        SameMembers other.overrides
          (patchAll host config definition state moves).effective.overrides →
        other.resolved = (patchAll host config definition state moves).effective.resolved := by
  have coherent : Coherent host definition
      (patchAll host config definition state moves).effective :=
    patchAll_invariant (fun run => Coherent host definition run.effective)
      (admitRun_coherent defaults distinct admitted)
      (fun _ step value held => result_coherent held step value)
      (fun _ _ _ refreshes held patches => patches_coherent accepted defaults held refreshes patches)
      refreshing
  exact ⟨coherent, fun other held => held.unique coherent⟩

def overrideTo : PatchMove :=
  .patch (.filled 2)
    [{ target := .stepArguments
       path := sendStep.id.toString
       value := .object [(ascii "tool", .string (ascii "send")),
         (ascii "to", .object [(ascii "$param", .string (ascii "to"))])] }]

def changeTo : PatchMove :=
  .patch (.filled 3) [{ path := ascii "to", value := .string (ascii "b") }]

def sendAfter (first second : PatchMove) : EffectiveState :=
  (patchAll sendHost {} sendWorkflow sendState [first, second]).effective

theorem sendWorkflow_defaults : DefaultsPass sendHost.regex sendWorkflow := by
  intro spec declared filled
  cases List.mem_singleton.mp declared
  cases filled

/-- The override keeps the value that the parameter had; in the other order it has the new
one. -/
theorem override_goes_stale :
    admitRun sendHost sendWorkflow (sendTo "a") none = .ok sendState ∧
      ¬ Coherent sendHost sendWorkflow (sendAfter overrideTo changeTo) ∧
      (sendAfter overrideTo changeTo).parameters = (sendAfter changeTo overrideTo).parameters ∧
      (sendAfter overrideTo changeTo).overrides = (sendAfter changeTo overrideTo).overrides ∧
      (sendAfter overrideTo changeTo).resolved ≠ (sendAfter changeTo overrideTo).resolved := by
  refine ⟨rfl, ?_, by decide +kernel, by decide +kernel, by decide +kernel⟩
  intro coherent
  have own := forall₂_getD sendWorkflow_accepted.steps coherent.resolved
    (List.mem_singleton_self sendStep) .null
  revert own
  rw [Computes]
  decide +kernel

/-- Set after the parameter changed, the override is resolved with the new value. -/
theorem override_after_change :
    Coherent sendHost sendWorkflow (sendAfter changeTo overrideTo) :=
  (patched_runs_coherent sendHost {} sendWorkflow (sendTo "a") none sendState
    [changeTo, overrideTo] sendWorkflow_accepted sendWorkflow_defaults (List.nodup_singleton _) rfl
    ⟨refreshes_of_schema (by decide) fun _ => rfl,
      refreshes_of_schema (by decide) (by decide), trivial⟩).1

/-!
The rollback of a patch: which entries lead back to a boundary, and what they make of the
state. An entry that unsets a step takes back its override and its skip at once, so a rollback
is the inverse only where no step needs one of the two taken back and the other kept.
-/

/-- The keys of the overrides ascend. -/
def Ascending (overrides : List (Bytes × JsonValue)) : Prop :=
  (names overrides).Pairwise fun first second => keyLess first second = true

variable {overrides : List (Bytes × JsonValue)}

theorem Ascending.nodup (sorted : Ascending overrides) : (names overrides).Nodup := by
  refine sorted.imp ?_
  intro first second less same
  rw [same, keyLess_irrefl] at less
  cases less

/-- The value under a name and, for a step, whether it is skipped. -/
abbrev Marks := Option JsonValue × Bool

variable {entry : WorkflowPatchEntry}

variable {next : EffectiveState}

variable {parameters : List (Bytes × JsonValue)}

variable (target : WorkflowPatchTarget)

end Mira.Workflow
