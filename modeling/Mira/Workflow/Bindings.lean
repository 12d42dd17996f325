import Mira.Workflow.Patching

/-!
Bound parameters: the members of an object under the names they have, what binding them
anew gives, and which values the references in arguments stand for.
-/

namespace Mira.Workflow
open Mira Bytes

def names (members : List (Bytes × JsonValue)) : List Bytes := members.map Prod.fst

theorem lookupMember_nil (key : Bytes) : lookupMember [] key = none := rfl

theorem lookupMember_cons (member : Bytes × JsonValue) (rest : List (Bytes × JsonValue))
    (key : Bytes) :
    lookupMember (member :: rest) key =
      if member.1 = key then some member.2 else lookupMember rest key := by
  simp only [lookupMember, JsonValue.find, List.find?_cons]
  by_cases own : member.1 = key <;> simp [own]

theorem lookupMember_append (first second : List (Bytes × JsonValue)) (key : Bytes) :
    lookupMember (first ++ second) key =
      (lookupMember first key).or (lookupMember second key) := by
  induction first with
  | nil => rfl
  | cons member rest ih =>
      rw [List.cons_append, lookupMember_cons, lookupMember_cons, ih]
      by_cases own : member.1 = key
      · rw [if_pos own, if_pos own, Option.some_or]
      · rw [if_neg own, if_neg own]

variable {members : List (Bytes × JsonValue)}

theorem lookupMember_eq_none {key : Bytes} :
    lookupMember members key = none ↔ key ∉ names members := by
  induction members with
  | nil => simp [lookupMember_nil, names]
  | cons member rest ih =>
      rw [lookupMember_cons]
      by_cases own : member.1 = key
      · simp [own, names]
      · have other : ¬ key = member.1 := fun same => own same.symm
        rw [if_neg own, ih]
        simp [names, other]

theorem isSome_lookupMember {key : Bytes} :
    (lookupMember members key).isSome ↔ key ∈ names members := by
  rw [← Option.ne_none_iff_isSome, ne_eq, lookupMember_eq_none, not_not]

theorem any_name {key : Bytes} :
    (members.any fun member => member.1 = key) = true ↔ key ∈ names members := by
  simp only [List.any_eq_true, decide_eq_true_eq, names, List.mem_map]

theorem lookupMember_mem {key : Bytes} {value : JsonValue}
    (found : lookupMember members key = some value) : (key, value) ∈ members := by
  induction members with
  | nil => cases found
  | cons member rest ih =>
      rw [lookupMember_cons] at found
      split at found
      · next own =>
          cases found
          rw [← own]
          exact List.mem_cons_self
      · exact List.mem_cons_of_mem _ (ih found)

theorem names_append (first second : List (Bytes × JsonValue)) :
    names (first ++ second) = names first ++ names second := List.map_append

theorem names_setFirst (key : Bytes) (value : JsonValue) (members : List (Bytes × JsonValue)) :
    names (JsonValue.setFirst key value members) = names members := by
  induction members with
  | nil => rfl
  | cons member rest ih =>
      rw [JsonValue.setFirst]
      split
      · next own => simp only [names, List.map_cons, own]
      · simpa only [names, List.map_cons, List.cons.injEq, true_and] using ih

theorem lookup_setFirst {key : Bytes} {value : JsonValue} (present : key ∈ names members)
    (name : Bytes) :
    lookupMember (JsonValue.setFirst key value members) name =
      if name = key then some value else lookupMember members name := by
  induction members with
  | nil => cases present
  | cons member rest ih =>
      rw [JsonValue.setFirst]
      by_cases own : member.1 = key
      · rw [if_pos own, lookupMember_cons, lookupMember_cons, own]
        by_cases same : key = name
        · rw [if_pos same, if_pos same.symm]
        · rw [if_neg same, if_neg same, if_neg fun h => same h.symm]
      · have later : key ∈ names rest :=
          (List.mem_cons.mp present).resolve_left fun h => own h.symm
        rw [if_neg own, lookupMember_cons, lookupMember_cons, ih later]
        by_cases first : member.1 = name
        · have other : name ≠ key := fun h => own (first.trans h)
          rw [if_pos first, if_neg other, if_pos first]
        · rw [if_neg first, if_neg first]

theorem lookup_setMember (members : List (Bytes × JsonValue)) (key : Bytes) (value : JsonValue)
    (name : Bytes) :
    lookupMember (setMember members key value) name =
      if name = key then some value else lookupMember members name := by
  rw [setMember]
  split
  · next present => exact lookup_setFirst (any_name.mp present) name
  · next absent =>
      have missing : lookupMember members key = none :=
        lookupMember_eq_none.mpr fun present => absent (any_name.mpr present)
      rw [lookupMember_append, lookupMember_cons, lookupMember_nil]
      by_cases own : name = key
      · rw [own, missing, if_pos rfl, Option.none_or]
      · rw [if_neg own, if_neg fun h => own h.symm, Option.or_none]

theorem nodup_setMember (distinct : (names members).Nodup) (key : Bytes) (value : JsonValue) :
    (names (setMember members key value)).Nodup := by
  rw [setMember]
  split
  · rw [names_setFirst]
    exact distinct
  · next absent =>
      rw [names_append, List.nodup_append]
      refine ⟨distinct, by simp [names], ?_⟩
      intro name present other last same
      apply absent
      rw [any_name]
      have named : other = key := by simpa [names] using last
      rw [← named, ← same]
      exact present

theorem foldl_setMember (rename : Bytes → Bytes) (members held : List (Bytes × JsonValue))
    (distinct : (names held ++ members.map fun member => rename member.1).Nodup) :
    members.foldl (fun held member => setMember held (rename member.1) member.2) held =
      held ++ members.map fun member => (rename member.1, member.2) := by
  induction members generalizing held with
  | nil => simp
  | cons member rest ih =>
      have fresh : rename member.1 ∉ names held := by
        intro present
        rw [List.nodup_append] at distinct
        exact distinct.2.2 _ present _ List.mem_cons_self rfl
      have appended : setMember held (rename member.1) member.2 =
          held ++ [(rename member.1, member.2)] := by
        rw [setMember, if_neg fun present => fresh (any_name.mp present)]
      rw [List.foldl_cons, appended, ih, List.map_cons, List.append_assoc,
        List.singleton_append]
      rw [names_append, List.append_assoc]
      exact distinct

theorem rebuildMembers_eq (dropped : Bytes → Bool) (distinct : (names members).Nodup) :
    rebuildMembers dropped members = members.filter fun member => !dropped member.1 := by
  have kept : rebuildMembers dropped members =
      (members.filter fun member => !dropped member.1).foldl
        (fun held member => setMember held member.1 member.2) [] := by
    rw [rebuildMembers, List.foldl_filter]
    congr 1
    funext held member
    cases dropped member.1 <;> rfl
  rw [kept, foldl_setMember (fun name => name)]
  · simp
  · exact distinct.sublist (List.filter_sublist.map Prod.fst)

variable {values : List (Bytes × JsonValue)}

theorem mirrorParameters_eq {context : List (Bytes × JsonValue)}
    (distinct : (names context ++ values.map fun member => parameterKey member.1).Nodup) :
    mirrorParameters context values =
      context ++ values.map fun member => (parameterKey member.1, member.2) :=
  foldl_setMember parameterKey values context distinct

theorem parameterKey_injective {first second : Bytes}
    (same : parameterKey first = parameterKey second) : first = second :=
  List.append_cancel_left same

theorem isPrefixOf_parameterKey (name : Bytes) :
    parameterLead.isPrefixOf (parameterKey name) = true :=
  List.isPrefixOf_iff_prefix.mpr (List.prefix_append _ _)

theorem resultKey_ne_parameterKey (step : StepId) (name : Bytes) :
    parameterKey name ≠ resultKey step := by
  intro same
  have first : (parameterKey name).head? = (resultKey step).head? := by rw [same]
  have lead : parameterLead.head? = some 114 := by decide
  have other : (ascii "step_result:").head? = some 115 := by decide
  rw [parameterKey, resultKey, List.head?_append, List.head?_append, lead, other] at first
  exact absurd (Option.some.inj first) (by decide)

/-- The member has a declaration and passes its check. -/
def Bindable (regex : RegexSearch) (definition : WorkflowDefinition)
    (member : Bytes × JsonValue) : Prop :=
  ∃ spec, definition.parameter member.1 = some spec ∧
    checkConstraint regex spec member.2 = .ok ()

theorem bindGiven_ok_iff (regex : RegexSearch) (definition : WorkflowDefinition)
    (members given : List (Bytes × JsonValue)) :
    bindGiven regex definition members = .ok given ↔
      given = members ∧ ∀ member ∈ members, Bindable regex definition member := by
  induction members generalizing given with
  | nil => simp [bindGiven, eq_comm]
  | cons member rest ih =>
      rw [bindGiven, List.forall_mem_cons]
      split
      · next missing =>
          simp only [reduceCtorEq, false_iff, not_and]
          intro _ bindable
          obtain ⟨spec, declared, _⟩ := bindable
          rw [missing] at declared
          cases declared
      · next spec declared =>
          split
          · next error refused =>
              simp only [reduceCtorEq, false_iff, not_and]
              intro _ bindable
              obtain ⟨other, found, passed⟩ := bindable
              cases declared.symm.trans found
              rw [refused] at passed
              cases passed
          · next passed =>
              have own : Bindable regex definition member := ⟨spec, declared, passed⟩
              cases bound : bindGiven regex definition rest with
              | error error =>
                  have unbound := (not_congr (ih rest)).mp (by rw [bound]; nofun)
                  simp only [Except.map, reduceCtorEq, false_iff, not_and]
                  intro _ _ all
                  exact unbound ⟨rfl, all⟩
              | ok held =>
                  have parts := (ih held).mp bound
                  simp only [Except.map, Except.ok.injEq, parts.1]
                  exact ⟨fun same => ⟨same.symm, own, parts.2⟩, fun all => all.1.symm⟩

/-- The declaration has its value, or needs none. -/
def Settled (values : List (Bytes × JsonValue)) (spec : WorkflowParameterSpec) : Prop :=
  spec.name ∈ names values ∨ (spec.defaultValue.isNull = true ∧ spec.required = false)

theorem Settled.append {spec : WorkflowParameterSpec} (settled : Settled values spec)
    (added : List (Bytes × JsonValue)) : Settled (values ++ added) spec := by
  cases settled with
  | inl present =>
      rw [Settled, names_append]
      exact .inl (List.mem_append_left _ present)
  | inr free => exact .inr free

variable {specs : List WorkflowParameterSpec}

theorem bindDefaults_ok {bound : List (Bytes × JsonValue)}
    (done : bindDefaults specs values = .ok bound) :
    ∃ added, bound = values ++ added ∧
      (∀ member ∈ added, member.1 ∉ names values ∧ ∃ spec ∈ specs,
        member = (spec.name, spec.defaultValue) ∧ spec.defaultValue.isNull = false) ∧
      ((names values).Nodup → (names bound).Nodup) ∧ ∀ spec ∈ specs, Settled bound spec := by
  induction specs generalizing values with
  | nil =>
      cases done
      exact ⟨[], by simp, by simp, fun distinct => distinct, by simp⟩
  | cons spec rest ih =>
      rw [bindDefaults] at done
      split at done
      · next present =>
          obtain ⟨added, whole, origin, distinct, settled⟩ := ih done
          refine ⟨added, whole, ?_, distinct, ?_⟩
          · intro member appended
            obtain ⟨fresh, source, declared, rfl, given⟩ := origin member appended
            exact ⟨fresh, source, List.mem_cons_of_mem _ declared, rfl, given⟩
          · rw [List.forall_mem_cons]
            refine ⟨?_, settled⟩
            rw [whole]
            exact Settled.append (.inl (any_name.mp present)) added
      · next absent =>
          have fresh : spec.name ∉ names values := fun present => absent (any_name.mpr present)
          split at done
          · next given =>
              obtain ⟨added, whole, origin, distinct, settled⟩ := ih done
              refine ⟨(spec.name, spec.defaultValue) :: added, ?_, ?_, ?_, ?_⟩
              · rw [whole, List.append_assoc, List.singleton_append]
              · rw [List.forall_mem_cons]
                refine ⟨⟨fresh, spec, List.mem_cons_self, rfl, given⟩, ?_⟩
                intro member appended
                obtain ⟨newer, source, declared, rfl, filled⟩ := origin member appended
                refine ⟨?_, source, List.mem_cons_of_mem _ declared, rfl, filled⟩
                intro present
                apply newer
                rw [names_append]
                exact List.mem_append_left _ present
              · intro apart
                apply distinct
                rw [names_append, List.nodup_append]
                refine ⟨apart, by simp [names], ?_⟩
                intro name present other last same
                apply fresh
                have named : other = spec.name := by simpa [names] using last
                rw [← named, ← same]
                exact present
              · rw [List.forall_mem_cons]
                refine ⟨?_, settled⟩
                rw [whole]
                exact Settled.append (.inl (by simp [names])) added
          · next bare =>
              split at done
              · cases done
              · next free =>
                  obtain ⟨added, whole, origin, distinct, settled⟩ := ih done
                  refine ⟨added, whole, ?_, distinct, ?_⟩
                  · intro member appended
                    obtain ⟨newer, source, declared, rfl, filled⟩ := origin member appended
                    exact ⟨newer, source, List.mem_cons_of_mem _ declared, rfl, filled⟩
                  · rw [List.forall_mem_cons]
                    exact ⟨.inr ⟨Bool.not_eq_false _ ▸ bare, Bool.not_eq_true _ ▸ free⟩, settled⟩

theorem bindDefaults_settled (settled : ∀ spec ∈ specs, Settled values spec) :
    bindDefaults specs values = .ok values := by
  induction specs with
  | nil => rfl
  | cons spec rest ih =>
      have parts := List.forall_mem_cons.mp settled
      rw [bindDefaults]
      split
      · exact ih parts.2
      · next absent =>
          have free := parts.1.resolve_left fun present => absent (any_name.mpr present)
          rw [if_neg (by simp [free.1]), if_neg (by simp [free.2])]
          exact ih parts.2

/-- Every default passes the check that its name is bound with. -/
def DefaultsPass (regex : RegexSearch) (definition : WorkflowDefinition) : Prop :=
  ∀ spec ∈ definition.parameters, spec.defaultValue.isNull = false →
    Bindable regex definition (spec.name, spec.defaultValue)

structure Bound (regex : RegexSearch) (definition : WorkflowDefinition)
    (members : List (Bytes × JsonValue)) (bindings : WorkflowParameterBindings) : Prop where
  given : ∀ member ∈ members, Bindable regex definition member
  added : ∃ added, bindings.values = members ++ added ∧ ∀ member ∈ added,
    member.1 ∉ names members ∧ ∃ spec ∈ definition.parameters,
      member = (spec.name, spec.defaultValue) ∧ spec.defaultValue.isNull = false
  settled : ∀ spec ∈ definition.parameters, Settled bindings.values spec
  distinct : (names members).Nodup → (names bindings.values).Nodup
  digest : bindings.digest = canonicalJsonDigest (.object bindings.values)

variable {regex : RegexSearch} {definition : WorkflowDefinition}
  {bindings : WorkflowParameterBindings}

theorem bindMembers_ok (done : bindMembers regex definition members = .ok bindings) :
    Bound regex definition members bindings := by
  rw [bindMembers] at done
  split at done
  · cases done
  · next held given =>
      obtain ⟨rfl, all⟩ := (bindGiven_ok_iff regex definition members held).mp given
      split at done
      · cases done
      · next values bound =>
          cases done
          obtain ⟨added, whole, origin, distinct, settled⟩ := bindDefaults_ok bound
          exact ⟨all, ⟨added, whole, origin⟩, settled, distinct, rfl⟩

theorem Bound.bindable (bound : Bound regex definition members bindings)
    (defaults : DefaultsPass regex definition) :
    ∀ member ∈ bindings.values, Bindable regex definition member := by
  obtain ⟨added, whole, origin⟩ := bound.added
  rw [whole]
  intro member present
  cases List.mem_append.mp present with
  | inl given => exact bound.given member given
  | inr appended =>
      obtain ⟨_, spec, declared, rfl, filled⟩ := origin member appended
      exact defaults spec declared filled

theorem Bound.again (bound : Bound regex definition members bindings)
    (defaults : DefaultsPass regex definition) :
    bindMembers regex definition bindings.values = .ok bindings := by
  have all := bound.bindable defaults
  have given := (bindGiven_ok_iff regex definition bindings.values bindings.values).mpr ⟨rfl, all⟩
  rw [bindMembers, given]
  simp only [bindDefaults_settled bound.settled]
  rw [← bound.digest]

mutual

def referenceless : JsonValue → Bool
  | .object members =>
      (lookupMember members (ascii "$param")).isNone && referencelessMembers members
  | .array items => referencelessItems items
  | _ => true

def referencelessItems : List JsonValue → Bool
  | [] => true
  | item :: rest => referenceless item && referencelessItems rest

def referencelessMembers : List (Bytes × JsonValue) → Bool
  | [] => true
  | (_, value) :: rest => referenceless value && referencelessMembers rest

end

mutual

theorem resolveReferences_referenceless (values : List (Bytes × JsonValue)) :
    ∀ node : JsonValue, referenceless node = true → resolveReferences values node = .ok node
  | .null, _ | .boolean _, _ | .integer _, _ | .number _, _ | .string _, _ => by
      rw [resolveReferences] <;> simp
  | .array items, free => by
      rw [referenceless] at free
      rw [resolveReferences, resolveItems_referenceless values items free]
      rfl
  | .object members, free => by
      rw [referenceless, Bool.and_eq_true, Option.isNone_iff_eq_none] at free
      rw [resolveReferences, free.1]
      simp only [resolveMembers_referenceless values members free.2]
      rfl

theorem resolveItems_referenceless (values : List (Bytes × JsonValue)) :
    ∀ items : List JsonValue, referencelessItems items = true →
      resolveItems values items = .ok items
  | [], _ => by rw [resolveItems]
  | item :: rest, free => by
      rw [referencelessItems, Bool.and_eq_true] at free
      rw [resolveItems, resolveReferences_referenceless values item free.1]
      simp only [resolveItems_referenceless values rest free.2]
      rfl

theorem resolveMembers_referenceless (values : List (Bytes × JsonValue)) :
    ∀ members : List (Bytes × JsonValue), referencelessMembers members = true →
      resolveMembers values members = .ok members
  | [], _ => by rw [resolveMembers]
  | (_, value) :: rest, free => by
      rw [referencelessMembers, Bool.and_eq_true] at free
      rw [resolveMembers, resolveReferences_referenceless values value free.1]
      simp only [resolveMembers_referenceless values rest free.2]
      rfl

end

/-- Both bind the same names to the same values. -/
def SameMembers (first second : List (Bytes × JsonValue)) : Prop :=
  ∀ name, lookupMember first name = lookupMember second name

mutual

variable {first second : List (Bytes × JsonValue)}

theorem resolveReferences_congr (same : SameMembers first second) :
    ∀ node : JsonValue, resolveReferences first node = resolveReferences second node
  | .null | .boolean _ | .integer _ | .number _ | .string _ => by
      rw [resolveReferences, resolveReferences] <;> simp
  | .array items => by
      rw [resolveReferences, resolveReferences, resolveItems_congr same items]
  | .object members => by
      rw [resolveReferences, resolveReferences, resolveMembers_congr same members]
      split
      · next reference found =>
          simp only [resolveReference]
          split
          · rfl
          · split
            · rfl
            · next name _ => rw [same name]
      · rfl

theorem resolveItems_congr (same : SameMembers first second) :
    ∀ items : List JsonValue, resolveItems first items = resolveItems second items
  | [] => by rw [resolveItems, resolveItems]
  | item :: rest => by
      rw [resolveItems, resolveItems, resolveReferences_congr same item,
        resolveItems_congr same rest]

theorem resolveMembers_congr (same : SameMembers first second) :
    ∀ members : List (Bytes × JsonValue),
      resolveMembers first members = resolveMembers second members
  | [] => by rw [resolveMembers, resolveMembers]
  | (_, value) :: rest => by
      rw [resolveMembers, resolveMembers, resolveReferences_congr same value,
        resolveMembers_congr same rest]

end

end Mira.Workflow
