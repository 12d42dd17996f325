import Mira.Json.Canonical
import Mira.Workflow.Bindings
import Mira.Workflow.IrKept

/-!
Binding the parameters of a decoded definition: what is bound, that it meets its declaration, that
the order of the input does not matter, and what the arguments of a step become.
-/

namespace Mira.Workflow
open Mira Bytes

def HasType (value : JsonValue) : WorkflowParameterType → Prop
  | .string => ∃ text, value = .string text
  | .integer => ∃ whole, value = .integer whole
  | .number => (∃ whole, value = .integer whole) ∨ ∃ number, value = .number number
  | .boolean => ∃ flag, value = .boolean flag

/-- The value is of the declared type and within each constraint. An integer is compared as the
binary64 nearest to it. -/
structure Meets (search : RegexSearch) (spec : WorkflowParameterSpec) (value : JsonValue) :
    Prop where
  typed : HasType value spec.type
  minLength : ∀ least, spec.minLength = some least →
    ∃ text, value = .string text ∧ least ≤ text.length
  maxLength : ∀ most, spec.maxLength = some most →
    ∃ text, value = .string text ∧ text.length ≤ most
  pattern : ∀ pattern, spec.pattern = some pattern →
    ∃ text, value = .string text ∧ search pattern text = some true
  minimum : ∀ least, spec.minimum = some least →
    ∃ number, numberOf value = some number ∧ least ≤ number
  maximum : ∀ most, spec.maximum = some most →
    ∃ number, numberOf value = some number ∧ number ≤ most
  enumValues : spec.enumValues ≠ [] → value ∈ spec.enumValues

/-- A parameter declares the constraints of its type only. -/
structure ConstraintsFit (spec : WorkflowParameterSpec) : Prop where
  text : (spec.minLength.isSome ∨ spec.maxLength.isSome ∨ spec.pattern.isSome) →
    spec.type = .string
  number : (spec.minimum.isSome ∨ spec.maximum.isSome) →
    spec.type = .integer ∨ spec.type = .number

variable {value : JsonValue}

theorem hasType_of_matches {type : WorkflowParameterType}
    (typed : valueMatchesType value type = true) : HasType value type := by
  cases type with
  | string =>
      cases value with
      | string text => exact ⟨text, rfl⟩
      | _ => cases typed
  | integer =>
      cases value with
      | integer whole => exact ⟨whole, rfl⟩
      | _ => cases typed
  | number =>
      cases value with
      | integer whole => exact .inl ⟨whole, rfl⟩
      | number number => exact .inr ⟨number, rfl⟩
      | _ => cases typed
  | boolean =>
      cases value with
      | boolean flag => exact ⟨flag, rfl⟩
      | _ => cases typed

variable {search : RegexSearch} {spec : WorkflowParameterSpec}

theorem checkText_ok {text : Bytes} (passed : checkText search spec text = .ok ()) :
    (∀ least, spec.minLength = some least → least ≤ text.length) ∧
      (∀ most, spec.maxLength = some most → text.length ≤ most) ∧
      ∀ pattern, spec.pattern = some pattern → search pattern text = some true := by
  rw [checkText] at passed
  split at passed
  · cases passed
  · next long =>
      split at passed
      · cases passed
      · next short =>
          refine ⟨?_, ?_, ?_⟩
          · intro least declared
            rw [declared] at long
            simpa using long
          · intro most declared
            rw [declared] at short
            simpa using short
          · intro pattern declared
            rw [declared] at passed
            simp only at passed
            split at passed
            · cases passed
            · cases passed
            · next found => exact found

theorem checkNumber_ok {number : Rat} (passed : checkNumber spec number = .ok ()) :
    (∀ least, spec.minimum = some least → least ≤ number) ∧
      ∀ most, spec.maximum = some most → number ≤ most := by
  rw [checkNumber] at passed
  split at passed
  · cases passed
  · next large =>
      split at passed
      · cases passed
      · next small =>
          refine ⟨?_, ?_⟩
          · intro least declared
            rw [declared] at large
            simpa using large
          · intro most declared
            rw [declared] at small
            simpa using small

theorem checkConstraint_ok (passed : checkConstraint search spec value = .ok ()) :
    HasType value spec.type ∧ checkRange search spec value = .ok () ∧
      (spec.enumValues ≠ [] → value ∈ spec.enumValues) := by
  rw [checkConstraint] at passed
  split at passed
  · cases passed
  · next typed =>
      split at passed
      · cases passed
      · next ranged =>
          split at passed
          · cases passed
          · next listed =>
              refine ⟨hasType_of_matches (by simpa using typed), ranged, ?_⟩
              intro declared
              by_contra outside
              exact listed ⟨by simpa using declared, outside⟩

section
variable {regex : RegexLibrary} {limits : WorkflowLimits}

variable {type : WorkflowParameterType} {constraints : JsonValue} {key : String}

theorem parseBound_numeric {read : Option Rat} (parsed : parseBound type constraints key = .ok read)
    (given : read.isSome = true) : type = .integer ∨ type = .number := by
  rw [parseBound] at parsed
  split at parsed
  · cases parsed
    cases given
  · obtain ⟨_, numeric, _⟩ := Checked.ok_of_bind parsed
    cases type with
    | string => cases requireIr_ok.mp numeric
    | boolean => cases requireIr_ok.mp numeric
    | integer => exact .inl rfl
    | number => exact .inr rfl

theorem parseLength_text {read : Option Nat} (parsed : parseLength type constraints key = .ok read)
    (given : read.isSome = true) : type = .string := by
  rw [parseLength] at parsed
  split at parsed
  · cases parsed
    cases given
  · obtain ⟨_, text, _⟩ := Checked.ok_of_bind parsed
    exact of_decide_eq_true (requireIr_ok.mp text)

theorem parsePattern_text {read : Option Bytes}
    (parsed : parsePattern regex limits type constraints = .ok read) (given : read.isSome = true) :
    type = .string := by
  rw [parsePattern] at parsed
  split at parsed
  · cases parsed
    cases given
  · obtain ⟨_, text, _⟩ := Checked.ok_of_bind parsed
    exact of_decide_eq_true (requireIr_ok.mp text)

theorem parseParameter_fits {document : JsonValue} {spec : WorkflowParameterSpec}
    (parsed : parseParameter regex limits document = .ok spec) : ConstraintsFit spec := by
  simp only [parseParameter, Checked.bind_ok_iff] at parsed
  obtain ⟨_, _, name, _, _, _, type, _, flag, _, summary, _, _, _, parsed⟩ := parsed
  split at parsed
  · cases parsed
    exact ⟨by simp, by simp⟩
  · simp only [parseConstraints, Checked.bind_ok_iff] at parsed
    obtain ⟨_, _, _, _, minimum, least, maximum, most, minLength, shortest, maxLength, longest,
      pattern, matched, _, _, done⟩ := parsed
    cases done
    refine ⟨?_, ?_⟩
    · intro declared
      cases declared with
      | inl declared => exact parseLength_text shortest declared
      | inr declared =>
          cases declared with
          | inl declared => exact parseLength_text longest declared
          | inr declared => exact parsePattern_text matched declared
    · intro declared
      cases declared with
      | inl declared => exact parseBound_numeric least declared
      | inr declared => exact parseBound_numeric most declared

end

theorem meets_of_check (fits : ConstraintsFit spec)
    (passed : checkConstraint search spec value = .ok ()) : Meets search spec value := by
  obtain ⟨typed, ranged, listed⟩ := checkConstraint_ok passed
  have text : spec.type = .string → ∃ text, value = .string text ∧
      checkText search spec text = .ok () := by
    intro kind
    rw [kind] at typed
    obtain ⟨text, rfl⟩ := typed
    rw [checkRange, kind] at ranged
    exact ⟨text, rfl, ranged⟩
  have number : spec.type = .integer ∨ spec.type = .number →
      ∃ number, numberOf value = some number ∧ checkNumber spec number = .ok () := by
    intro kind
    have numeric : ∃ number, numberOf value = some number := by
      cases kind with
      | inl kind =>
          rw [kind] at typed
          obtain ⟨whole, rfl⟩ := typed
          exact ⟨_, rfl⟩
      | inr kind =>
          rw [kind] at typed
          cases typed with
          | inl typed =>
              obtain ⟨whole, rfl⟩ := typed
              exact ⟨_, rfl⟩
          | inr typed =>
              obtain ⟨number, rfl⟩ := typed
              exact ⟨_, rfl⟩
    obtain ⟨number, same⟩ := numeric
    refine ⟨number, same, ?_⟩
    cases kind with
    | inl kind => rwa [checkRange, kind, same] at ranged
    | inr kind => rwa [checkRange, kind, same] at ranged
  refine ⟨typed, ?_, ?_, ?_, ?_, ?_, listed⟩
  · intro least declared
    obtain ⟨text, same, checked⟩ := text (fits.text (.inl (by rw [declared]; rfl)))
    exact ⟨text, same, (checkText_ok checked).1 least declared⟩
  · intro most declared
    obtain ⟨text, same, checked⟩ := text (fits.text (.inr (.inl (by rw [declared]; rfl))))
    exact ⟨text, same, (checkText_ok checked).2.1 most declared⟩
  · intro pattern declared
    obtain ⟨text, same, checked⟩ := text (fits.text (.inr (.inr (by rw [declared]; rfl))))
    exact ⟨text, same, (checkText_ok checked).2.2 pattern declared⟩
  · intro least declared
    obtain ⟨number, same, checked⟩ := number (fits.number (.inl (by rw [declared]; rfl)))
    exact ⟨number, same, (checkNumber_ok checked).1 least declared⟩
  · intro most declared
    obtain ⟨number, same, checked⟩ := number (fits.number (.inr (by rw [declared]; rfl)))
    exact ⟨number, same, (checkNumber_ok checked).2 most declared⟩

section
variable {regex : RegexLibrary} {limits : WorkflowLimits} {document : JsonValue}
  {definition : WorkflowDefinition}

variable {spec : WorkflowParameterSpec}

theorem parameter_of_mem (distinct : (definition.parameters.map WorkflowParameterSpec.name).Nodup)
    (declared : spec ∈ definition.parameters) : definition.parameter spec.name = some spec := by
  rw [WorkflowDefinition.parameter]
  cases found : definition.parameters.find? fun candidate => candidate.name = spec.name with
  | none =>
      have other := List.find?_eq_none.mp found spec declared
      exact absurd (decide_eq_true rfl) other
  | some first =>
      have same : first.name = spec.name := by simpa using List.find?_some found
      rw [List.inj_on_of_nodup_map distinct (List.mem_of_find?_eq_some found) declared same]

theorem parameter_sound {name : Bytes} (found : definition.parameter name = some spec) :
    spec ∈ definition.parameters ∧ spec.name = name :=
  ⟨List.mem_of_find?_eq_some found, by simpa using List.find?_some found⟩

theorem check_of_validateDefault (passed : validateDefault regex spec = .ok ())
    (given : spec.defaultValue.isNull = false) :
    checkConstraint regex.search spec spec.defaultValue = .ok () := by
  rw [validateDefault, given] at passed
  simp only [Bool.false_eq_true, if_false] at passed
  split at passed
  · next checked => exact checked
  · split at passed <;> cases passed

theorem DefinitionRead.defaultsPass
    (read : DefinitionRead regex limits document definition) :
    DefaultsPass regex.search definition := by
  intro spec declared given
  have distinct := (parseParameters_ok read.parameters).1
  have passed := (checkDefinition_ok read.checked).2.2 spec declared
  exact ⟨spec, parameter_of_mem distinct declared, check_of_validateDefault passed given⟩

theorem DefinitionRead.meets (read : DefinitionRead regex limits document definition)
    {member : Bytes × JsonValue} (bindable : Bindable regex.search definition member) :
    ∃ spec ∈ definition.parameters, spec.name = member.1 ∧
      Meets regex.search spec member.2 := by
  obtain ⟨spec, found, passed⟩ := bindable
  obtain ⟨declared, named⟩ := parameter_sound found
  obtain ⟨item, parsed⟩ := (parseParameters_ok read.parameters).2 spec declared
  exact ⟨spec, declared, named, meets_of_check (parseParameter_fits parsed) passed⟩

end

/-- What an input binds: its own members, and the defaults of the names that it leaves out. -/
structure BoundSoundly (search : RegexSearch) (definition : WorkflowDefinition)
    (members : List (Bytes × JsonValue)) (bindings : WorkflowParameterBindings) : Prop where
  once : (names bindings.values).Nodup
  values : ∀ name value, (name, value) ∈ bindings.values ↔
    (name, value) ∈ members ∨ (name ∉ names members ∧
      ∃ spec ∈ definition.parameters, spec.name = name ∧ spec.defaultValue = value ∧
        value.isNull = false)
  names : ∀ name, name ∈ names bindings.values ↔ name ∈ names members ∨
    ∃ spec ∈ definition.parameters, spec.name = name ∧ spec.defaultValue.isNull = false
  meets : ∀ name value, (name, value) ∈ bindings.values →
    ∃ spec ∈ definition.parameters, spec.name = name ∧ Meets search spec value

variable {values : List (Bytes × JsonValue)}

theorem bindDefaults_of_names {specs : List WorkflowParameterSpec}
    {values' bound : List (Bytes × JsonValue)} (done : bindDefaults specs values = .ok bound)
    (same : ∀ name, name ∈ names values ↔ name ∈ names values') :
    ∃ added, bound = values ++ added ∧ bindDefaults specs values' = .ok (values' ++ added) := by
  induction specs generalizing values values' with
  | nil =>
      cases done
      exact ⟨[], (List.append_nil _).symm, by rw [bindDefaults, List.append_nil]⟩
  | cons spec rest ih =>
      have provided : (values.any fun entry => entry.1 = spec.name) =
          values'.any fun entry => entry.1 = spec.name := by
        rw [Bool.eq_iff_iff, any_name, any_name]
        exact same spec.name
      rw [bindDefaults, provided] at done
      rw [bindDefaults]
      split at done
      · next present =>
          rw [if_pos present]
          exact ih done same
      · next absent =>
          rw [if_neg absent]
          split at done
          · next given =>
              rw [if_pos given]
              have same' : ∀ name,
                  name ∈ names (values ++ [(spec.name, spec.defaultValue)]) ↔
                    name ∈ names (values' ++ [(spec.name, spec.defaultValue)]) := by
                intro name
                rw [names_append, names_append, List.mem_append, List.mem_append, same name]
              obtain ⟨added, whole, again⟩ := ih done same'
              refine ⟨(spec.name, spec.defaultValue) :: added, ?_, ?_⟩
              · rw [whole, List.append_assoc, List.singleton_append]
              · rw [again, List.append_assoc, List.singleton_append]
          · next bare =>
              rw [if_neg bare]
              split at done
              · cases done
              · next free =>
                  rw [if_neg free]
                  exact ih done same

variable {members : List (Bytes × JsonValue)}

theorem Bound.values_iff {definition : WorkflowDefinition} {bindings : WorkflowParameterBindings}
    (bound : Bound search definition members bindings)
    (distinct : (definition.parameters.map WorkflowParameterSpec.name).Nodup) (name : Bytes)
    (value : JsonValue) :
    (name, value) ∈ bindings.values ↔
      (name, value) ∈ members ∨ (name ∉ names members ∧
        ∃ spec ∈ definition.parameters, spec.name = name ∧ spec.defaultValue = value ∧
          value.isNull = false) := by
  obtain ⟨added, whole, origin⟩ := bound.added
  rw [whole, List.mem_append]
  refine or_congr_right ⟨?_, ?_⟩
  · intro appended
    obtain ⟨fresh, spec, declared, same, given⟩ := origin _ appended
    cases same
    exact ⟨fresh, spec, declared, rfl, rfl, given⟩
  · rintro ⟨fresh, spec, declared, rfl, rfl, given⟩
    have settled := bound.settled spec declared
    cases settled with
    | inr free =>
        rw [free.1] at given
        cases given
    | inl present =>
        rw [whole, names_append, List.mem_append] at present
        have later := present.resolve_left fresh
        obtain ⟨member, appended, named⟩ := List.mem_map.mp later
        obtain ⟨_, other, declared', rfl, _⟩ := origin member appended
        rw [← List.inj_on_of_nodup_map distinct declared' declared named]
        exact appended

theorem mem_names {name : Bytes} : name ∈ names members ↔ ∃ value, (name, value) ∈ members := by
  simp [names]

section
variable {regex : RegexLibrary} {limits : WorkflowLimits} {document : JsonValue}
  {definition : WorkflowDefinition} {members : List (Bytes × JsonValue)}
  {bindings : WorkflowParameterBindings}

theorem DefinitionRead.boundSoundly (read : DefinitionRead regex limits document definition)
    (distinct : (names members).Nodup)
    (bound : Bound regex.search definition members bindings) :
    BoundSoundly regex.search definition members bindings := by
  have values := bound.values_iff (parseParameters_ok read.parameters).1
  refine ⟨bound.distinct distinct, values, ?_, ?_⟩
  · intro name
    rw [mem_names]
    constructor
    · rintro ⟨value, present⟩
      cases (values name value).mp present with
      | inl given => exact .inl (mem_names.mpr ⟨value, given⟩)
      | inr filled =>
          obtain ⟨_, spec, declared, named, rfl, given⟩ := filled
          exact .inr ⟨spec, declared, named, given⟩
    · intro either
      by_cases given : name ∈ names members
      · obtain ⟨value, present⟩ := mem_names.mp given
        exact ⟨value, (values name value).mpr (.inl present)⟩
      · obtain ⟨spec, declared, named, filled⟩ := either.resolve_left given
        exact ⟨spec.defaultValue,
          (values name _).mpr (.inr ⟨given, spec, declared, named, rfl, filled⟩)⟩
  · intro name value present
    exact read.meets (bound.bindable read.defaultsPass _ present)

theorem bindMembers_of_perm {members' : List (Bytes × JsonValue)}
    (same : members'.Perm members) (distinct : (names members).Nodup)
    (done : bindMembers regex.search definition members = .ok bindings) :
    ∃ bindings', bindMembers regex.search definition members' = .ok bindings' ∧
      bindings'.digest = bindings.digest := by
  have bound := bindMembers_ok done
  rw [bindMembers] at done
  split at done
  · cases done
  · next held given =>
      obtain ⟨rfl, all⟩ := (bindGiven_ok_iff regex.search definition members held).mp given
      split at done
      · cases done
      · next values filled =>
          cases done
          have given' : bindGiven regex.search definition members' = .ok members' := by
            refine (bindGiven_ok_iff regex.search definition members' members').mpr ⟨rfl, ?_⟩
            intro member present
            exact all member (same.mem_iff.mp present)
          have sameNames : ∀ name, name ∈ names held ↔ name ∈ names members' := by
            intro name
            exact (same.map Prod.fst).mem_iff.symm
          obtain ⟨added, rfl, filled'⟩ := bindDefaults_of_names filled sameNames
          refine ⟨⟨members' ++ added, canonicalJsonDigest (.object (members' ++ added))⟩, ?_, ?_⟩
          · simp only [bindMembers, given', filled']
          · have shuffled : (members' ++ added).Perm (held ++ added) := same.append_right added
            have once : (names (members' ++ added)).Nodup :=
              (shuffled.map Prod.fst).nodup_iff.mpr (bound.distinct distinct)
            simp only [canonicalJsonDigest, canonicalJsonString_of_perm shuffled once]

end

def referenceOf : List (Bytes × JsonValue) → Option Bytes
  | [(key, .string name)] => if key = ascii "$param" then some name else none
  | _ => none

mutual

/-- The tree with a value in place of every reference. -/
def substitute (value : Bytes → JsonValue) : JsonValue → JsonValue
  | .object members =>
      match referenceOf members with
      | some name => value name
      | none => .object (substituteMembers value members)
  | .array items => .array (substituteItems value items)
  | node => node

def substituteItems (value : Bytes → JsonValue) : List JsonValue → List JsonValue
  | [] => []
  | item :: rest => substitute value item :: substituteItems value rest

def substituteMembers (value : Bytes → JsonValue) :
    List (Bytes × JsonValue) → List (Bytes × JsonValue)
  | [] => []
  | (key, node) :: rest => (key, substitute value node) :: substituteMembers value rest

end

mutual

/-- The names that the references of a tree use. -/
def references : JsonValue → List Bytes
  | .object members =>
      match referenceOf members with
      | some name => [name]
      | none => referencesOfMembers members
  | .array items => referencesOfItems items
  | _ => []

def referencesOfItems : List JsonValue → List Bytes
  | [] => []
  | item :: rest => references item ++ referencesOfItems rest

def referencesOfMembers : List (Bytes × JsonValue) → List Bytes
  | [] => []
  | (_, node) :: rest => references node ++ referencesOfMembers rest

end

def boundValue (values : List (Bytes × JsonValue)) (name : Bytes) : JsonValue :=
  (lookupMember values name).getD .null

theorem referenceOf_none (absent : lookupMember members (ascii "$param") = none) :
    referenceOf members = none := by
  unfold referenceOf
  split
  · next key name =>
      refine if_neg ?_
      intro own
      rw [lookupMember_cons, if_pos own] at absent
      cases absent
  · rfl

theorem resolveReference_ok {reference result : JsonValue}
    (found : lookupMember members (ascii "$param") = some reference)
    (done : resolveReference values members reference = .ok result) :
    ∃ name, referenceOf members = some name ∧ lookupMember values name = some result := by
  rw [resolveReference] at done
  split at done
  · cases done
  · next single =>
      obtain ⟨⟨key, value⟩, rfl⟩ := List.length_eq_one_iff.mp (not_not.mp single)
      rw [lookupMember_cons, lookupMember_nil] at found
      split at found
      · next own =>
          cases found
          cases value with
          | string name =>
              simp only [JsonValue.asString] at done
              cases bound : lookupMember values name with
              | none =>
                  rw [bound] at done
                  cases done
              | some value =>
                  rw [bound] at done
                  cases done
                  exact ⟨name, if_pos own, bound⟩
          | _ => cases done
      · cases found

theorem names_substituteMembers (value : Bytes → JsonValue)
    (members : List (Bytes × JsonValue)) :
    names (substituteMembers value members) = names members := by
  induction members with
  | nil => rfl
  | cons member rest ih =>
      simp only [substituteMembers, names, List.map_cons, List.cons.injEq, true_and] at ih ⊢
      exact ih

/-- The result is the tree with its references replaced, each by what is bound to its name, and it
has no reference. -/
structure Resolved (values : List (Bytes × JsonValue)) (node result : JsonValue) : Prop where
  replaced : result = substitute (boundValue values) node
  known : ∀ name ∈ references node, name ∈ names values
  free : referenceless result = true

section
variable {values : List (Bytes × JsonValue)}

theorem resolved_plain {node result : JsonValue} (free : referenceless node = true)
    (kept : substitute (boundValue values) node = node) (none_ : references node = [])
    (done : resolveReferences values node = .ok result) : Resolved values node result := by
  rw [resolveReferences_referenceless values node free] at done
  cases done
  refine ⟨kept.symm, ?_, free⟩
  rw [none_]
  exact fun _ absent => (List.not_mem_nil absent).elim

mutual

theorem resolved_of_ok (plain : ∀ member ∈ values, referenceless member.2 = true) :
    ∀ node result : JsonValue, resolveReferences values node = .ok result →
      Resolved values node result
  | .null, _, done => resolved_plain rfl rfl rfl done
  | .boolean _, _, done => resolved_plain rfl rfl rfl done
  | .integer _, _, done => resolved_plain rfl rfl rfl done
  | .number _, _, done => resolved_plain rfl rfl rfl done
  | .string _, _, done => resolved_plain rfl rfl rfl done
  | .array items, result, done => by
      rw [resolveReferences] at done
      obtain ⟨results, inner, rfl⟩ := Checked.ok_of_map done
      obtain ⟨replaced, known, free⟩ := resolvedItems_of_ok plain items results inner
      refine ⟨?_, ?_, ?_⟩
      · rw [substitute, replaced]
      · rw [references]
        exact known
      · rw [referenceless]
        exact free
  | .object members, result, done => by
      rw [resolveReferences] at done
      cases found : lookupMember members (ascii "$param") with
      | some reference =>
          rw [found] at done
          obtain ⟨name, named, bound⟩ := resolveReference_ok found done
          refine ⟨?_, ?_, plain _ (lookupMember_mem bound)⟩
          · rw [substitute, named]
            simp only [boundValue, bound, Option.getD_some]
          · rw [references, named]
            intro other listed
            rw [List.mem_singleton.mp listed, ← isSome_lookupMember, bound]
            rfl
      | none =>
          rw [found] at done
          simp only at done
          obtain ⟨results, inner, rfl⟩ := Checked.ok_of_map done
          obtain ⟨replaced, known, free⟩ := resolvedMembers_of_ok plain members results inner
          have unnamed := referenceOf_none found
          have absent : lookupMember results (ascii "$param") = none := by
            rw [lookupMember_eq_none, replaced, names_substituteMembers, ← lookupMember_eq_none]
            exact found
          refine ⟨?_, ?_, ?_⟩
          · rw [substitute, unnamed, replaced]
          · rw [references, unnamed]
            exact known
          · rw [referenceless, absent, free]
            rfl

theorem resolvedItems_of_ok (plain : ∀ member ∈ values, referenceless member.2 = true) :
    ∀ items results : List JsonValue, resolveItems values items = .ok results →
      results = substituteItems (boundValue values) items ∧
        (∀ name ∈ referencesOfItems items, name ∈ names values) ∧
        referencelessItems results = true
  | [], results, done => by
      rw [resolveItems] at done
      cases done
      exact ⟨rfl, fun _ absent => (List.not_mem_nil absent).elim, rfl⟩
  | item :: rest, results, done => by
      rw [resolveItems] at done
      split at done
      · cases done
      · next resolved first =>
          obtain ⟨others, later, rfl⟩ := Checked.ok_of_map done
          have own := resolved_of_ok plain item resolved first
          obtain ⟨replaced, known, free⟩ := resolvedItems_of_ok plain rest others later
          refine ⟨?_, ?_, ?_⟩
          · rw [substituteItems, ← own.replaced, ← replaced]
          · rw [referencesOfItems]
            exact List.forall_mem_append.mpr ⟨own.known, known⟩
          · rw [referencelessItems, own.free, free]
            rfl

theorem resolvedMembers_of_ok (plain : ∀ member ∈ values, referenceless member.2 = true) :
    ∀ members results : List (Bytes × JsonValue), resolveMembers values members = .ok results →
      results = substituteMembers (boundValue values) members ∧
        (∀ name ∈ referencesOfMembers members, name ∈ names values) ∧
        referencelessMembers results = true
  | [], results, done => by
      rw [resolveMembers] at done
      cases done
      exact ⟨rfl, fun _ absent => (List.not_mem_nil absent).elim, rfl⟩
  | (key, node) :: rest, results, done => by
      rw [resolveMembers] at done
      split at done
      · cases done
      · next resolved first =>
          obtain ⟨others, later, rfl⟩ := Checked.ok_of_map done
          have own := resolved_of_ok plain node resolved first
          obtain ⟨replaced, known, free⟩ := resolvedMembers_of_ok plain rest others later
          refine ⟨?_, ?_, ?_⟩
          · rw [substituteMembers, ← own.replaced, ← replaced]
          · rw [referencesOfMembers]
            exact List.forall_mem_append.mpr ⟨own.known, known⟩
          · rw [referencelessMembers, own.free, free]
            rfl

end

theorem referenceless_of_type {value : JsonValue} {type : WorkflowParameterType}
    (typed : HasType value type) : referenceless value = true := by
  cases type with
  | string =>
      obtain ⟨_, rfl⟩ := typed
      rfl
  | integer =>
      obtain ⟨_, rfl⟩ := typed
      rfl
  | number =>
      cases typed with
      | inl typed =>
          obtain ⟨_, rfl⟩ := typed
          rfl
      | inr typed =>
          obtain ⟨_, rfl⟩ := typed
          rfl
  | boolean =>
      obtain ⟨_, rfl⟩ := typed
      rfl

end

section
variable {regex : RegexLibrary} {limits : WorkflowLimits} {document : JsonValue}
  {definition : WorkflowDefinition} {members : List (Bytes × JsonValue)}
  {bindings : WorkflowParameterBindings}

/-- What an accepted definition binds of an input whose members have distinct names, and what the
bound values make of the arguments of a step. -/
theorem binding_sound
    (accepted : workflowDefinitionFromJson regex limits document = .ok definition)
    (distinct : (names members).Nodup)
    (done : bindWorkflowParameters regex.search definition (.object members) = .ok bindings) :
    BoundSoundly regex.search definition members bindings ∧
      (∀ members' : List (Bytes × JsonValue), members'.Perm members →
        ∃ bindings',
          bindWorkflowParameters regex.search definition (.object members') = .ok bindings' ∧
            bindings'.digest = bindings.digest) ∧
      ∀ arguments result, resolveStepArguments bindings arguments = .ok result →
        Resolved bindings.values arguments result ∧
          resolveStepArguments bindings result = .ok result := by
  have read := workflowDefinitionFromJson_ok accepted
  have sound := read.boundSoundly distinct (bindMembers_ok done)
  refine ⟨sound, ?_, ?_⟩
  · intro members' same
    exact bindMembers_of_perm same distinct done
  · intro arguments result resolved
    have plain : ∀ member ∈ bindings.values, referenceless member.2 = true := by
      intro member present
      obtain ⟨spec, _, _, meets⟩ := sound.meets member.1 member.2 present
      exact referenceless_of_type meets.typed
    have whole := resolved_of_ok plain arguments result resolved
    exact ⟨whole, resolveReferences_referenceless bindings.values result whole.free⟩

end

/-- One tool call, and an optional count of at most two to the fifty-third. -/
def boundedCount : WorkflowDefinition :=
  { workflowId := .filled 1
    name := ascii "repeat"
    parameters := [{ name := ascii "count", type := .integer, maximum := some (2 ^ 53) }]
    steps := [{ id := .filled 2 }]
    allowedPolicies := [.strict] }

theorem boundedCount_decoded :
    workflowDefinitionFromJson noPatterns {} (workflowDefinitionToJson boundedCount) =
      .ok boundedCount := by
  refine decoded_of_kept ⟨(by decide : 1 < 2 ^ 16), (by decide : 0 < 2 ^ 16), ?_⟩
    (valid_of_isSome (by decide +kernel)) ⟨?_, ?_⟩
  · intro spec declared
    rw [List.mem_singleton.mp declared]
    exact ⟨fun _ absent => (by cases absent), fun _ absent => (by cases absent)⟩
  · intro spec declared _
    rw [List.mem_singleton.mp declared]
  · intro step listed
    rw [List.mem_singleton.mp listed]
    exact ⟨fun _ absent => (by cases absent), fun _ absent => (by cases absent),
      fun _ absent => (by cases absent), fun _ => rfl⟩

theorem three_counts_bound :
    ∃ bindings,
      bindWorkflowParameters noPatterns.search boundedCount
          (.object [(ascii "count", .integer 3)]) = .ok bindings ∧
        BoundSoundly noPatterns.search boundedCount [(ascii "count", .integer 3)] bindings := by
  have seen : (bindWorkflowParameters noPatterns.search boundedCount
      (.object [(ascii "count", .integer 3)])).toOption.map
        (fun bindings => names bindings.values) = some [ascii "count"] := by decide +kernel
  obtain ⟨bindings, done, _⟩ := Checked.ok_of_toOption seen
  have distinct : (names [(ascii "count", JsonValue.integer 3)]).Nodup := by
    rw [names, List.map_singleton]
    exact List.nodup_singleton _
  exact ⟨bindings, done, (binding_sound boundedCount_decoded distinct done).1⟩

/-- A member that is given twice is bound twice, and an integer above the bound is bound when the
binary64 nearest to it is the bound. -/
theorem repeated_count_bound_twice :
    workflowDefinitionFromJson noPatterns {} (workflowDefinitionToJson boundedCount) =
        .ok boundedCount ∧
      (bindWorkflowParameters noPatterns.search boundedCount
          (.object [(ascii "count", .integer 1), (ascii "count", .integer 2)])).toOption.map
        (fun bindings => names bindings.values) = some [ascii "count", ascii "count"] ∧
      boundedCount.parameters.map WorkflowParameterSpec.maximum = [some (2 ^ 53)] ∧
      (bindWorkflowParameters noPatterns.search boundedCount
          (.object [(ascii "count", .integer (2 ^ 53 + 1))])).toOption.map
        WorkflowParameterBindings.values = some [(ascii "count", .integer (2 ^ 53 + 1))] :=
  ⟨boundedCount_decoded, (by decide +kernel), rfl, (by decide +kernel)⟩

end Mira.Workflow
