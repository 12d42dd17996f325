import Mira.Library.Checked
import Mira.Library.Execution
import Mira.Workflow.Bindings

/-!
A run under the patches that are submitted to it one after the other, with the boundary that
each of them was applied at. Between patches the results of steps enter the context.
-/

namespace Mira.Workflow
open Mira Bytes

/-- A patch that was applied, and the state it was applied to. -/
structure AppliedPatch where
  patchId : WorkflowPatchId
  digest : Sha256Digest
  entries : List WorkflowPatchEntry := []
  boundary : EffectiveState

structure PatchedRun where
  effective : EffectiveState
  applied : List AppliedPatch := []

def patchCapacityExceeded : WorkflowError :=
  makeRuntimeError .patchCapacityExceeded (ascii "applied patch record capacity is exhausted")

/-- `apply_patch` when nothing comes between its reading of the run and its commit. -/
def applyPatch (host : Host) (config : WorkflowRuntimeConfig) (definition : WorkflowDefinition)
    (run : PatchedRun) (patchId : WorkflowPatchId) (entries : List WorkflowPatchEntry) :
    WorkflowResult PatchedRun :=
  match patchedState host definition run.effective entries with
  | .error rejection => .error rejection.error
  | .ok patched =>
      if config.maxAppliedPatchesPerRun ≤ run.applied.length then .error patchCapacityExceeded
      else
        .ok
          { effective := commitPatch run.effective entries patched
            applied := run.applied ++
              [⟨patchId, workflowPatchDigest patchId entries, entries, run.effective⟩] }

def validateEntries : List WorkflowPatchEntry → WorkflowResult Unit
  | [] => .ok ()
  | entry :: rest =>
      match entry.validate with
      | .error error => .error error
      | .ok () => validateEntries rest

def patchIdConflict : WorkflowError :=
  makeRuntimeError .patchIdConflict (ascii "patch id is already used by different content")

/-- What a submission is answered before the run is looked at. -/
def checkEntries (entries : List WorkflowPatchEntry) : WorkflowResult Unit :=
  if entries.isEmpty then
    .error (workflowError .invalidArgument "patch requires at least one entry")
  else validateEntries entries

/-- The answer to a patch whose id was used before. -/
def replay (digest held : Sha256Digest) : WorkflowResult Bool :=
  if held = digest then .ok false else .error patchIdConflict

/-- A patch of a run at a boundary, under a policy that admits it. The answer tells whether it
was applied. -/
def submitPatch (host : Host) (config : WorkflowRuntimeConfig) (definition : WorkflowDefinition)
    (run : PatchedRun) (patchId : WorkflowPatchId) (entries : List WorkflowPatchEntry) :
    PatchedRun × WorkflowResult Bool :=
  match checkEntries entries with
  | .error error => (run, .error error)
  | .ok () =>
      match run.applied.find? fun applied => applied.patchId = patchId with
      | some applied => (run, replay (workflowPatchDigest patchId entries) applied.digest)
      | none =>
          match applyPatch host config definition run patchId entries with
          | .error error => (run, .error error)
          | .ok patched => (patched, .ok true)

def rollbackRunPatch (host : Host) (config : WorkflowRuntimeConfig)
    (definition : WorkflowDefinition) (run : PatchedRun) (patchId fresh : WorkflowPatchId) :
    PatchedRun × WorkflowResult Bool :=
  match run.applied.find? fun applied => applied.patchId = patchId with
  | none => (run, .error (workflowError .notFound "applied patch was not found"))
  | some target =>
      let entries := rollbackEntries run.effective target.boundary
      if entries.isEmpty then
        (run, .error (workflowError .invalidArgument
          "rollback produced no entries; state already matches the boundary"))
      else submitPatch host config definition run fresh entries

inductive PatchMove
  | patch (patchId : WorkflowPatchId) (entries : List WorkflowPatchEntry)
  | rollback (patchId fresh : WorkflowPatchId)
  | result (step : StepId) (value : JsonValue)

def patchMove (host : Host) (config : WorkflowRuntimeConfig) (definition : WorkflowDefinition)
    (run : PatchedRun) : PatchMove → PatchedRun × WorkflowResult Bool
  | .patch patchId entries => submitPatch host config definition run patchId entries
  | .rollback patchId fresh => rollbackRunPatch host config definition run patchId fresh
  | .result step value =>
      ({ run with
          effective :=
            { run.effective with
              context := setMember run.effective.context (resultKey step) value } },
        .ok false)

def patchAll (host : Host) (config : WorkflowRuntimeConfig) (definition : WorkflowDefinition)
    (state : EffectiveState) (moves : List PatchMove) : PatchedRun :=
  Execution.run (patchMove host config definition) ⟨state, []⟩ moves

/-- What the decoder that accepts definitions makes sure of. -/
structure AcceptedDefinition (definition : WorkflowDefinition) : Prop where
  steps : (definition.steps.map WorkflowStep.id).Nodup

def sendStep : WorkflowStep :=
  { id := .filled 1
    name := ascii "send"
    arguments := .object [(ascii "tool", .string (ascii "send"))] }

def sendWorkflow : WorkflowDefinition :=
  { workflowId := .filled 9
    name := ascii "send"
    parameters := [{ name := ascii "to" }]
    steps := [sendStep]
    defaultPolicy := .interactive
    allowedPolicies := [.interactive] }

def sendHost : Host := { tools := some [{ wireName := ascii "send" }] }

def sendTo (name : String) : JsonValue := .object [(ascii "to", .string (ascii name))]

def sendState : EffectiveState :=
  { parameters := [(ascii "to", .string (ascii "a"))]
    policy := .interactive
    bindings := ⟨[(ascii "to", .string (ascii "a"))], canonicalJsonDigest (sendTo "a")⟩
    resolved := [sendStep.arguments]
    context := [(parameterKey (ascii "to"), .string (ascii "a"))] }

theorem sendWorkflow_accepted : AcceptedDefinition sendWorkflow := ⟨by decide⟩

def PatchMove.entries (run : PatchedRun) : PatchMove → List WorkflowPatchEntry
  | .patch _ entries => entries
  | .rollback patchId _ =>
      ((run.applied.find? fun applied => applied.patchId = patchId).map fun target =>
        rollbackEntries run.effective target.boundary).getD []
  | .result _ _ => []

structure Patches (host : Host) (definition : WorkflowDefinition) (run : PatchedRun)
    (entries : List WorkflowPatchEntry) (next : PatchedRun) : Prop where
  shaped : ∀ entry ∈ entries, entry.validate = .ok ()
  patched : ∃ patched, patchedState host definition run.effective entries = .ok patched ∧
    next.effective = commitPatch run.effective entries patched
  applied : ∃ patch : AppliedPatch, next.applied = run.applied ++ [patch] ∧
    patch.boundary = run.effective ∧ patch.entries = entries

variable {entries : List WorkflowPatchEntry}

theorem validateEntries_ok (valid : validateEntries entries = .ok ()) :
    ∀ entry ∈ entries, entry.validate = .ok () := by
  induction entries with
  | nil => simp
  | cons entry rest ih =>
      rw [validateEntries] at valid
      split at valid
      · cases valid
      · next own => exact List.forall_mem_cons.mpr ⟨own, ih valid⟩

theorem submitPatch_cases (host : Host) (config : WorkflowRuntimeConfig)
    (definition : WorkflowDefinition) (run : PatchedRun) (patchId : WorkflowPatchId)
    (entries : List WorkflowPatchEntry) :
    (submitPatch host config definition run patchId entries).1 = run ∧
        (submitPatch host config definition run patchId entries).2 ≠ .ok true ∨
      Patches host definition run entries
        (submitPatch host config definition run patchId entries).1 := by
  rw [submitPatch]
  split
  · exact .inl ⟨rfl, nofun⟩
  · next shaped =>
      split
      · refine .inl ⟨rfl, ?_⟩
        simp only [replay]
        split <;> simp
      · cases done : applyPatch host config definition run patchId entries with
        | error error => exact .inl ⟨rfl, nofun⟩
        | ok patched =>
            right
            rw [applyPatch] at done
            split at done
            · cases done
            · next held computed =>
                split at done
                · cases done
                · cases done
                  rw [checkEntries] at shaped
                  split at shaped
                  · cases shaped
                  · exact ⟨validateEntries_ok shaped, ⟨held, computed, rfl⟩, _, rfl, rfl, rfl⟩

/-- A move keeps the effective state but for a result in its context, or commits the patch of
its entries. -/
theorem patchMove_cases (host : Host) (config : WorkflowRuntimeConfig)
    (definition : WorkflowDefinition) (run : PatchedRun) (move : PatchMove) :
    (patchMove host config definition run move).1 = run ∨
      (∃ step value, (patchMove host config definition run move).1 =
        { run with effective :=
          { run.effective with
            context := setMember run.effective.context (resultKey step) value } }) ∨
      Patches host definition run (move.entries run)
        (patchMove host config definition run move).1 := by
  cases move with
  | result step value => exact .inr (.inl ⟨step, value, rfl⟩)
  | patch patchId entries =>
      rw [patchMove, PatchMove.entries]
      exact (submitPatch_cases host config definition run patchId entries).elim
        (fun kept => .inl kept.1) fun patches => .inr (.inr patches)
  | rollback patchId fresh =>
      rw [patchMove, PatchMove.entries, rollbackRunPatch]
      cases run.applied.find? fun applied => applied.patchId = patchId with
      | none => exact .inl rfl
      | some target =>
          simp only [Option.map_some, Option.getD_some]
          split
          · exact .inl rfl
          · exact (submitPatch_cases host config definition run fresh _).elim
              (fun kept => .inl kept.1) fun patches => .inr (.inr patches)

variable {host : Host} {definition : WorkflowDefinition} {state patched : EffectiveState}

/-- What holds of an admitted run, is kept by a result in its context and by the patches that
meet the condition holds under all moves. -/
theorem patchAll_invariant {condition : EffectiveState → List WorkflowPatchEntry → Prop}
    (invariant : PatchedRun → Prop) {config : WorkflowRuntimeConfig} {moves : List PatchMove}
    (start : invariant ⟨state, []⟩)
    (result : ∀ run step value, invariant run → invariant
      { run with effective :=
        { run.effective with
          context := setMember run.effective.context (resultKey step) value } })
    (patch : ∀ run entries next, condition run.effective entries → invariant run →
      Patches host definition run entries next → invariant next)
    (guarded : Execution.Guarded (patchMove host config definition)
      (fun run move => condition run.effective (move.entries run)) ⟨state, []⟩ moves) :
    invariant (patchAll host config definition state moves) := by
  refine Execution.run_invariant (patchMove host config definition)
    (fun run move => condition run.effective (move.entries run)) invariant ?_ _ _ start guarded
  intro run move met held
  rcases patchMove_cases host config definition run move with kept | ⟨step, value, same⟩ | patches
  · rw [kept]
    exact held
  · rw [same]
    exact result run step value held
  · exact patch run _ _ met held patches

theorem admitRun_cases {parameters : JsonValue} {policy : Option WorkflowPolicy}
    (admitted : admitRun host definition parameters policy = .ok state) :
    validateWorkflowPolicyCompatibility definition (policy.getD definition.defaultPolicy) = .ok () ∧
      ∃ bindings resolved, bindWorkflowParameters host.regex definition parameters = .ok bindings ∧
        admitSteps host definition (policy.getD definition.defaultPolicy) bindings
          definition.steps = .ok resolved ∧
        state =
          { parameters := bindings.values
            policy := policy.getD definition.defaultPolicy
            bindings := bindings
            resolved := resolved
            context := mirrorParameters [] bindings.values } := by
  rw [admitRun] at admitted
  split at admitted
  · cases admitted
  · next compatible =>
      split at admitted
      · cases admitted
      · next bindings bound =>
          split at admitted
          · cases admitted
          · obtain ⟨resolved, steps, same⟩ := Checked.ok_of_map admitted
            exact ⟨compatible, bindings, resolved, bound, steps, same.symm⟩

theorem patchedState_cases (done : patchedState host definition state entries = .ok patched) :
    checkTargets host definition entries = .ok () ∧ ∃ bound stepped,
      patchParameters host definition state entries = .ok bound ∧
      patchSteps host definition bound entries = .ok stepped ∧
      patched = { stepped with policy := entries.foldl patchPolicy stepped.policy } := by
  rw [patchedState] at done
  split at done
  · cases done
  · next targets =>
      refine ⟨targets, ?_⟩
      split at done
      · cases done
      · next bound first =>
          obtain ⟨stepped, later, rfl⟩ := Checked.ok_of_map done
          exact ⟨bound, stepped, first, later, rfl⟩

theorem patchParameters_cases (done : patchParameters host definition state entries = .ok patched) :
    (entries.any touchesParameters = false ∧ patched = state) ∨
      (entries.any touchesParameters = true ∧ ∃ bindings resolved,
        bindMembers host.regex definition (entries.foldl patchParameter state.parameters) =
          .ok bindings ∧
        rebindSteps host state.policy bindings state.overrides definition.steps state.resolved =
          .ok resolved ∧
        patched =
          { state with
            parameters := bindings.values
            bindings := bindings
            resolved := resolved }) := by
  rw [patchParameters] at done
  split at done
  · next untouched =>
      cases done
      exact .inl ⟨untouched, rfl⟩
  · next touched =>
      split at done
      · cases done
      · next bindings bound =>
          split at done
          · cases done
          · next resolved rebound =>
              cases done
              exact .inr ⟨by simpa using touched, bindings, resolved, bound, rebound, rfl⟩

def patchBindings (host : Host) (definition : WorkflowDefinition) (state : EffectiveState)
    (entries : List WorkflowPatchEntry) : WorkflowResult WorkflowParameterBindings :=
  if entries.any touchesParameters then
    bindMembers host.regex definition (entries.foldl patchParameter state.parameters)
  else .ok state.bindings

theorem patchParameters_bindings
    (done : patchParameters host definition state entries = .ok patched) :
    patchBindings host definition state entries = .ok patched.bindings := by
  rw [patchBindings]
  cases patchParameters_cases done with
  | inl kept => rw [if_neg (by simp [kept.1]), kept.2]
  | inr changed =>
      obtain ⟨touched, bindings, resolved, bound, _, rfl⟩ := changed
      rw [if_pos touched, bound]

/-- The patch takes the arguments of the step from the definition anew. -/
def Recomputes (state : EffectiveState) (entries : List WorkflowPatchEntry)
    (step : WorkflowStep) : Prop :=
  (entries.any touchesParameters = true ∧
    lookupMember state.overrides step.id.toString = none) ∨
  ∃ entry ∈ entries, entry.target = .stepArguments ∧ entry.op = .unset ∧
    entry.path = step.id.toString

variable {next : EffectiveState} {entry : WorkflowPatchEntry}

theorem patchStep_cases (done : patchStep host definition state entry = .ok next) :
    (next = state ∧ (entry.target ≠ .stepArguments ∨ stepOf definition entry.path = none)) ∨
      (entry.target = .stepArguments ∧ ∃ step, stepOf definition entry.path = some step ∧
        ((entry.op = .skip ∧ next =
            { state with
              skipped :=
                if state.skipped.contains entry.path then state.skipped
                else state.skipped ++ [entry.path] }) ∨
          (entry.op = .unset ∧ unsetStep host definition entry step state = .ok next) ∨
          (entry.op = .set ∧ setStep host definition entry step state = .ok next))) := by
  rw [patchStep] at done
  split at done
  · next other =>
      cases done
      exact .inl ⟨rfl, .inl other⟩
  · next own =>
      split at done
      · next missing =>
          cases done
          exact .inl ⟨rfl, .inr missing⟩
      · next step found =>
          refine .inr ⟨not_not.mp own, step, found, ?_⟩
          cases op : entry.op with
          | skip =>
              rw [op] at done
              cases done
              exact .inl ⟨rfl, rfl⟩
          | unset =>
              rw [op] at done
              exact .inr (.inl ⟨rfl, done⟩)
          | set =>
              rw [op] at done
              exact .inr (.inr ⟨rfl, done⟩)

variable {step : WorkflowStep}

theorem unsetStep_cases (done : unsetStep host definition entry step state = .ok next) :
    ∃ held, rebindArguments host state.policy state.bindings step
        (state.resolved.getD (stepIndex definition step.id) .null) = .ok held ∧
      next =
        { state with
          overrides := eraseOverride entry.path state.overrides
          skipped := state.skipped.filter fun path => path ≠ entry.path
          resolved := state.resolved.set (stepIndex definition step.id) held } := by
  rw [unsetStep] at done
  split at done
  · cases done
  · next held rebound =>
      cases done
      exact ⟨held, rebound, rfl⟩

theorem setStep_cases (done : setStep host definition entry step state = .ok next) :
    checkSetArguments host state.policy step entry.value = .ok () ∧
      ∃ held, resolveStepArguments state.bindings entry.value = .ok held ∧
        next =
          { state with
            overrides := insertOverride entry.path entry.value state.overrides
            resolved :=
              if step.kind = .toolCall ∨ step.kind = .navigate then
                state.resolved.set (stepIndex definition step.id) held
              else state.resolved } := by
  rw [setStep] at done
  split at done
  · cases done
  · next shaped =>
      split at done
      · cases done
      · next held found =>
          cases done
          exact ⟨shaped, held, found, rfl⟩

theorem patchSteps_invariant (inv : EffectiveState → Prop)
    (kept : ∀ entry ∈ entries, ∀ state next, inv state →
      patchStep host definition state entry = .ok next → inv next) (start : inv state)
    (done : patchSteps host definition state entries = .ok next) : inv next := by
  induction entries generalizing state with
  | nil =>
      cases done
      exact start
  | cons entry rest ih =>
      have parts := List.forall_mem_cons.mp kept
      rw [patchSteps] at done
      split at done
      · cases done
      · next middle first => exact ih parts.2 (parts.1 state middle start first) done

variable {parameters : List (Bytes × JsonValue)}

theorem nodup_patchParameter (distinct : (names parameters).Nodup) (entry : WorkflowPatchEntry) :
    (names (patchParameter parameters entry)).Nodup := by
  rw [patchParameter]
  split
  · exact distinct
  · split
    · exact nodup_setMember distinct _ _
    · rw [unsetMember, rebuildMembers_eq _ distinct]
      exact distinct.sublist (List.filter_sublist.map Prod.fst)
    · exact distinct

theorem nodup_patchParameters (distinct : (names parameters).Nodup)
    (entries : List WorkflowPatchEntry) :
    (names (entries.foldl patchParameter parameters)).Nodup := by
  induction entries generalizing parameters with
  | nil => exact distinct
  | cons entry rest ih => exact ih (nodup_patchParameter distinct entry)

theorem lookup_insertOverride (key : Bytes) (value : JsonValue)
    (overrides : List (Bytes × JsonValue)) (name : Bytes) :
    lookupMember (insertOverride key value overrides) name =
      if name = key then some value else lookupMember overrides name := by
  induction overrides with
  | nil =>
      rw [insertOverride, lookupMember_cons, lookupMember_nil]
      simp only [eq_comm]
  | cons entry rest ih =>
      rw [insertOverride]
      split
      · next own =>
          rw [lookupMember_cons, lookupMember_cons, own]
          by_cases same : name = key
          · rw [if_pos same.symm, if_pos same]
          · rw [if_neg same, if_neg fun h => same h.symm, if_neg fun h => same h.symm]
      · next other =>
          split
          · rw [lookupMember_cons]
            simp only [eq_comm]
          · rw [lookupMember_cons, ih, lookupMember_cons]
            by_cases same : name = key
            · rw [if_pos same, if_pos same, if_neg fun h => other (h.trans same)]
            · rw [if_neg same, if_neg same]

theorem lookup_eraseOverride (key : Bytes) (overrides : List (Bytes × JsonValue))
    (name : Bytes) :
    lookupMember (eraseOverride key overrides) name =
      if name = key then none else lookupMember overrides name := by
  induction overrides with
  | nil => simp [eraseOverride, lookupMember_nil]
  | cons entry rest ih =>
      rw [eraseOverride] at ih
      rw [eraseOverride, List.filter_cons, lookupMember_cons]
      by_cases own : entry.1 = key
      · simp only [own, ne_eq, not_true, decide_false, Bool.false_eq_true, if_false, ih]
        by_cases same : name = key
        · rw [if_pos same, if_pos same]
        · rw [if_neg same, if_neg same, if_neg fun h => same h.symm]
      · simp only [ne_eq, own, not_false_iff, decide_true, if_true, lookupMember_cons, ih]
        by_cases same : name = key
        · rw [if_pos same, if_pos same, if_neg fun h => own (h.trans same)]
        · rw [if_neg same, if_neg same]

theorem stepOf_some {path : Bytes} (found : stepOf definition path = some step) :
    step ∈ definition.steps ∧ step.id.toString = path := by
  have named := List.find?_some found
  exact ⟨List.mem_of_find?_eq_some found, of_decide_eq_true named⟩

theorem stepId_of_toString {first second : StepId}
    (same : first.toString = second.toString) : first = second := by
  have parsed := congrArg (fun text => (StrongId.parse text : Option StepId)) same
  simpa only [StrongId.parse_toString, Option.some.injEq] using parsed

variable {steps : List WorkflowStep}

theorem eq_of_sameId (distinct : (steps.map WorkflowStep.id).Nodup) {first second : WorkflowStep}
    (one : first ∈ steps) (other : second ∈ steps) (same : first.id = second.id) : first = second :=
  List.inj_on_of_nodup_map distinct one other same

variable {held : List JsonValue}

theorem forall₂_mono {R S : WorkflowStep → JsonValue → Prop} (related : List.Forall₂ R steps held)
    (kept : ∀ step ∈ steps, ∀ value, R step value → S step value) : List.Forall₂ S steps held := by
  induction related with
  | nil => exact .nil
  | cons own _ ih =>
      have parts := List.forall_mem_cons.mp kept
      exact .cons (parts.1 _ own) (ih parts.2)

theorem forall₂_getD {R : WorkflowStep → JsonValue → Prop}
    (distinct : (steps.map WorkflowStep.id).Nodup) (related : List.Forall₂ R steps held)
    (present : step ∈ steps) (missing : JsonValue) :
    R step (held.getD (steps.findIdx fun candidate => candidate.id = step.id) missing) := by
  induction related with
  | nil => cases present
  | @cons first old rest values own later ih =>
      rw [List.findIdx_cons]
      by_cases same : first.id = step.id
      · have this := eq_of_sameId distinct List.mem_cons_self present same
        subst this
        simp only [decide_true, cond_true, List.getD_cons_zero]
        exact own
      · have among : step ∈ rest := (List.mem_cons.mp present).resolve_left fun this =>
          same (congrArg WorkflowStep.id this.symm)
        simp only [same, decide_false, cond_false, List.getD_cons_succ]
        exact ih (List.nodup_cons.mp distinct).2 among

theorem forall₂_set {R S : WorkflowStep → JsonValue → Prop}
    (distinct : (steps.map WorkflowStep.id).Nodup) (related : List.Forall₂ R steps held)
    (present : step ∈ steps) {value : JsonValue} (replaced : S step value)
    (others : ∀ other ∈ steps, other.id ≠ step.id → ∀ value, R other value → S other value) :
    List.Forall₂ S steps
      (held.set (steps.findIdx fun candidate => candidate.id = step.id) value) := by
  induction related with
  | nil => cases present
  | @cons first old rest values own later ih =>
      have parts := List.nodup_cons.mp distinct
      have tail := (List.forall_mem_cons.mp others).2
      rw [List.findIdx_cons]
      by_cases same : first.id = step.id
      · have this := eq_of_sameId distinct List.mem_cons_self present same
        subst this
        simp only [decide_true, cond_true, List.set_cons_zero]
        refine .cons replaced (forall₂_mono later ?_)
        intro other among
        apply tail other among
        intro clash
        exact parts.1 (List.mem_map.mpr ⟨other, among, clash⟩)
      · have among : step ∈ rest := (List.mem_cons.mp present).resolve_left fun this =>
          same (congrArg WorkflowStep.id this.symm)
        simp only [same, decide_false, cond_false, List.set_cons_succ]
        exact .cons (others first List.mem_cons_self same _ own) (ih parts.2 among tail)

variable {policy : WorkflowPolicy} {bindings : WorkflowParameterBindings}
  {resolved rebound : List JsonValue} {R S : WorkflowStep → JsonValue → Prop}

theorem admitSteps_forall₂
    (each : ∀ step held, admitStep host definition policy bindings step = .ok held → R step held)
    (done : admitSteps host definition policy bindings steps = .ok resolved) :
    List.Forall₂ R steps resolved := by
  induction steps generalizing resolved with
  | nil =>
      cases done
      exact .nil
  | cons step rest ih =>
      rw [admitSteps] at done
      split at done
      · cases done
      · next held own =>
          obtain ⟨values, later, rfl⟩ := Checked.ok_of_map done
          exact .cons (each step held own) (ih later)

theorem rebindSteps_forall₂ {overrides : List (Bytes × JsonValue)}
    (related : List.Forall₂ R steps resolved)
    (done : rebindSteps host policy bindings overrides steps resolved = .ok rebound)
    (kept : ∀ step ∈ steps, ∀ value, lookupMember overrides step.id.toString = some value →
      ∀ held, R step held → S step held)
    (again : ∀ step ∈ steps, lookupMember overrides step.id.toString = none →
      ∀ old held, R step old → rebindArguments host policy bindings step old = .ok held →
        S step held) : List.Forall₂ S steps rebound := by
  induction related generalizing rebound with
  | nil =>
      cases done
      exact .nil
  | @cons step value rest values own _ ih =>
      have keptParts := List.forall_mem_cons.mp kept
      have againParts := List.forall_mem_cons.mp again
      rw [rebindSteps] at done
      split at done
      · cases done
      · next first bound =>
          obtain ⟨others, later, rfl⟩ := Checked.ok_of_map done
          refine .cons ?_ (ih later keptParts.2 againParts.2)
          split at bound
          · next taken =>
              cases bound
              obtain ⟨override, found⟩ := Option.isSome_iff_exists.mp taken
              exact keptParts.1 override found value own
          · next untaken => exact againParts.1 (by simpa using untaken) value first own bound

end Mira.Workflow
