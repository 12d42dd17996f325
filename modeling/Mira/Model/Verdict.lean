import Mira.Model.Judged

/-!
The verdict of the validator on an instance. No violation is reported if and only if every check
passes at every part and the walk stays above its depth limit; for a schema that the gate admits,
the verdict agrees with the meaning of the schema if and only if the misjudged restrictions do not
decide it.
-/

namespace Mira.Model
open Mira Bytes

theorem foldl_nil {α β : Type} {step : List α → β → List α} {good : β → Prop}
    (each : ∀ found x, step found x = [] ↔ found = [] ∧ good x) (xs : List β) (found : List α) :
    xs.foldl step found = [] ↔ found = [] ∧ ∀ x ∈ xs, good x := by
  induction xs generalizing found with
  | nil => simp
  | cons x xs ih =>
      rw [List.foldl_cons, ih, each, List.forall_mem_cons, and_assoc]

/-- Every check passes wherever the schema applies, above the depth limit. -/
def Clean (search : Bytes → Bytes → Option Bool) (left : Nat) (inst schema : JsonValue) : Prop :=
  ∀ level part partSchema, Applies inst schema level part partSchema →
    level < left ∧ ∀ keyword, checks search keyword part partSchema = true

/-- The members of an object that a schema declares, with what it declares for them. -/
def DeclaredMember (inst schema : JsonValue) (part partSchema : JsonValue) : Prop :=
  ∃ members properties member, inst = .object members ∧
    SchemaKeyword.properties.value schema = some properties ∧ member ∈ members ∧
    properties.find member.1 = some partSchema ∧ part = member.2

def GivenItem (inst schema : JsonValue) (part partSchema : JsonValue) : Prop :=
  ∃ items, inst = .array items ∧ SchemaKeyword.items.value schema = some partSchema ∧ part ∈ items

section
variable {search : Bytes → Bytes → Option Bool} {left : Nat} {inst schema : JsonValue}

theorem clean_succ :
    Clean search (left + 1) inst schema ↔
      (∀ keyword, checks search keyword inst schema = true) ∧
        (∀ part partSchema, DeclaredMember inst schema part partSchema →
          Clean search left part partSchema) ∧
        ∀ part partSchema, GivenItem inst schema part partSchema →
          Clean search left part partSchema := by
  constructor
  · intro clean
    refine ⟨(clean 0 inst schema (.whole inst schema)).2, ?_, ?_⟩
    · intro part partSchema declared level below belowSchema applies
      obtain ⟨members, properties, member, rfl, declares, given, found, rfl⟩ := declared
      have passed := clean (level + 1) below belowSchema (.member given declares found applies)
      exact ⟨Nat.lt_of_succ_lt_succ passed.1, passed.2⟩
    · intro part partSchema given level below belowSchema applies
      obtain ⟨items, rfl, declares, item⟩ := given
      have passed := clean (level + 1) below belowSchema (.item item declares applies)
      exact ⟨Nat.lt_of_succ_lt_succ passed.1, passed.2⟩
  · intro parts level part partSchema applies
    obtain ⟨here, members, items⟩ := parts
    cases applies with
    | whole => exact ⟨Nat.succ_pos _, here⟩
    | member given declares found below =>
        have passed := members _ _ ⟨_, _, _, rfl, declares, given, found, rfl⟩ _ _ _ below
        exact ⟨Nat.succ_lt_succ passed.1, passed.2⟩
    | item given declares below =>
        have passed := items _ _ ⟨_, rfl, declares, given⟩ _ _ _ below
        exact ⟨Nat.succ_lt_succ passed.1, passed.2⟩

/-- A check of parts reports nothing exactly where a predicate holds of them. -/
def Reports (part : PartCheck) (good : JsonValue → JsonValue → Prop) : Prop :=
  ∀ inst schema path found, part inst schema path found = [] ↔ found = [] ∧ good inst schema

variable {partSchema : JsonValue}

theorem declares_object {properties : JsonValue} {key : Bytes}
    (declares : SchemaKeyword.properties.value schema = some properties)
    (found : properties.find key = some partSchema) :
    ∃ declared, declaredProperties schema = some declared ∧ properties = .object declared := by
  cases properties with
  | object declared => exact ⟨declared, by rw [declaredProperties, declares]; rfl, rfl⟩
  | _ => cases found

variable {declared : List (Bytes × JsonValue)}

theorem declared_value (given : declaredProperties schema = some declared) :
    SchemaKeyword.properties.value schema = some (.object declared) := by
  rw [declaredProperties] at given
  obtain ⟨properties, declares, object⟩ := Option.bind_eq_some_iff.mp given
  cases properties with
  | object members =>
      cases object
      exact declares
  | _ => cases object

/-- What is asked of a member. -/
def MemberGood (good : JsonValue → JsonValue → Prop) (schema : JsonValue)
    (declared : List (Bytes × JsonValue)) (member : Bytes × JsonValue) : Prop :=
  match (JsonValue.object declared).find member.1 with
  | none => allowsAdditional schema = true
  | some property => good member.2 property

variable {part : PartCheck}

theorem validateMember_nil {good : JsonValue → JsonValue → Prop} (reports : Reports part good)
    (declared : List (Bytes × JsonValue)) (path : Bytes) (found : List SchemaViolation)
    (member : Bytes × JsonValue) :
    validateMember part schema declared path found member = [] ↔
      found = [] ∧ MemberGood good schema declared member := by
  rw [validateMember, MemberGood]
  cases (JsonValue.object declared).find member.1 with
  | some property => exact reports _ _ _ _
  | none =>
      cases allowsAdditional schema with
      | true => simp
      | false => simp

theorem members_good {good : JsonValue → JsonValue → Prop} {members : List (Bytes × JsonValue)}
    (given : declaredProperties schema = some declared) :
    (∀ member ∈ members, MemberGood good schema declared member) ↔
      checks search .additionalProperties (.object members) schema = true ∧
        ∀ part partSchema, DeclaredMember (.object members) schema part partSchema →
          good part partSchema := by
  have value := declared_value given
  simp only [checks, given, Bool.or_eq_true, List.all_eq_true]
  constructor
  · intro all
    refine ⟨?_, ?_⟩
    · cases allowed : allowsAdditional schema with
      | true => exact .inl rfl
      | false =>
          refine .inr fun member mem => ?_
          have good := all member mem
          rw [MemberGood] at good
          split at good
          · exact absurd (allowed.symm.trans good) Bool.false_ne_true
          · next property found => rw [found]; rfl
    · intro part partSchema child
      obtain ⟨_, properties, member, same, declares, mem, found, rfl⟩ := child
      cases same
      cases value.symm.trans declares
      have good := all member mem
      rw [MemberGood, found] at good
      exact good
  · intro both member mem
    rw [MemberGood]
    split
    · next none =>
        cases both.1 with
        | inl allowed => exact allowed
        | inr known =>
            have present := known member mem
            rw [none] at present
            cases present
    · next property found =>
        exact both.2 member.2 property ⟨members, _, member, rfl, value, mem, found, rfl⟩

theorem validateMembers_nil (search : Bytes → Bytes → Option Bool)
    {good : JsonValue → JsonValue → Prop} (reports : Reports part good) (path : Bytes)
    (found : List SchemaViolation) :
    validateMembers part inst schema path found = [] ↔
      found = [] ∧ checks search .additionalProperties inst schema = true ∧
        ∀ child childSchema, DeclaredMember inst schema child childSchema →
          good child childSchema := by
  rw [validateMembers.eq_def]
  cases given : declaredProperties schema with
  | none =>
      simp only [checks, given]
      refine ⟨fun nil => ⟨nil, trivial, fun child childSchema declared => ?_⟩, fun all => all.1⟩
      obtain ⟨_, _, _, _, declares, _, found, _⟩ := declared
      obtain ⟨declared, known, _⟩ := declares_object declares found
      cases given.symm.trans known
  | some declared =>
      cases inst with
      | object members =>
          dsimp only
          rw [foldl_nil (validateMember_nil reports declared path), members_good given]
      | _ =>
          simp only [checks, given]
          refine ⟨fun nil => ⟨nil, trivial, fun child childSchema declared => ?_⟩, fun all => all.1⟩
          obtain ⟨_, _, _, same, _⟩ := declared
          cases same

theorem validateItems_nil {good : JsonValue → JsonValue → Prop} (reports : Reports part good)
    (path : Bytes) (found : List SchemaViolation) :
    validateItems part inst schema path found = [] ↔
      found = [] ∧ ∀ child childSchema, GivenItem inst schema child childSchema →
        good child childSchema := by
  rw [validateItems.eq_def]
  cases declares : SchemaKeyword.items.value schema with
  | none =>
      refine ⟨fun nil => ⟨nil, fun child childSchema item => ?_⟩, fun all => all.1⟩
      obtain ⟨_, _, given, _⟩ := item
      cases declares.symm.trans given
  | some itemSchema =>
      cases inst with
      | array items =>
          dsimp only
          rw [foldl_nil (fun found item => reports item.1 itemSchema (itemPath path item.2) found)]
          refine and_congr_right fun _ =>
            ⟨fun all child childSchema item => ?_, fun all item mem => ?_⟩
          · obtain ⟨_, same, given, mem⟩ := item
            cases same
            cases declares.symm.trans given
            obtain ⟨index, bound, here⟩ := List.getElem_of_mem mem
            exact all (child, index) (List.mk_mem_zipIdx_iff_getElem?.mpr
              (List.getElem?_eq_some_iff.mpr ⟨bound, here⟩))
          · exact all item.1 itemSchema ⟨items, rfl, declares,
              List.mem_of_getElem? (List.mk_mem_zipIdx_iff_getElem?.mp mem)⟩
      | _ =>
          refine ⟨fun nil => ⟨nil, fun child childSchema item => ?_⟩, fun all => all.1⟩
          obtain ⟨_, same, _⟩ := item
          cases same

theorem forall_checks :
    (∀ keyword, checks search keyword inst schema = true) ↔
      (checks search .type inst schema = true ∧ checks search .required inst schema = true) ∧
        checks search .additionalProperties inst schema = true ∧
        (checks search .minItems inst schema = true ∧
            checks search .maxItems inst schema = true) ∧
          (checks search .minLength inst schema = true ∧
            checks search .maxLength inst schema = true ∧
            checks search .pattern inst schema = true) ∧
          (checks search .minimum inst schema = true ∧
            checks search .maximum inst schema = true) ∧
          checks search .enum inst schema = true ∧ checks search .const inst schema = true := by
  constructor
  · intro all
    exact ⟨⟨all _, all _⟩, all _, ⟨all _, all _⟩, ⟨all _, all _, all _⟩, ⟨all _, all _⟩, all _,
      all _⟩
  · intro each keyword
    obtain ⟨⟨type, required⟩, additional, ⟨minItems, maxItems⟩, ⟨minLength, maxLength, pattern⟩,
      ⟨minimum, maximum⟩, enum, const⟩ := each
    cases keyword with
    | properties | items | title | description | schemaDialect | default => rfl
    | _ => assumption

theorem not_nil_of_full {found : List SchemaViolation} (full : maxViolations ≤ found.length) :
    found ≠ [] := by
  intro nil
  rw [nil] at full
  exact absurd full (by decide)

theorem validate_nil : Reports (validate search left) (Clean search left) := by
  induction left with
  | zero =>
      intro inst schema path found
      have unclean : ¬ Clean search 0 inst schema := fun clean =>
        absurd (clean 0 inst schema (.whole inst schema)).1 (Nat.lt_irrefl 0)
      rw [validate]
      split
      · next full =>
          exact ⟨fun nil => absurd nil (not_nil_of_full full), fun all => absurd all.2 unclean⟩
      · exact ⟨fun nil => by simp at nil, fun all => absurd all.2 unclean⟩
  | succ left ih =>
      intro inst schema path found
      rw [validate]
      split
      · next full =>
          exact ⟨fun nil => absurd nil (not_nil_of_full full),
            fun all => absurd all.1 (not_nil_of_full full)⟩
      · dsimp only
        rw [List.append_eq_nil_iff, validateItems_nil ih, validateMembers_nil search ih,
          List.append_eq_nil_iff, headViolations_nil search, tailViolations_nil, clean_succ,
          forall_checks]
        simp only [and_assoc, and_left_comm, and_comm]

theorem forM_ok {α : Type} {f : α → ModelResult Unit} {xs : List α} (done : xs.forM f = .ok ()) :
    ∀ x ∈ xs, f x = .ok () := by
  induction xs with
  | nil =>
      intro x mem
      cases mem
  | cons first rest ih =>
      change (f first >>= fun _ => rest.forM f) = .ok () at done
      cases result : f first with
      | error error =>
          rw [result] at done
          cases done
      | ok =>
          rw [result] at done
          exact List.forall_mem_cons.mpr ⟨result, ih done⟩

variable {limits : SchemaSubsetLimits} {node : JsonValue}

theorem gateNode_ok (gated : gateNode limits left node = .ok ()) :
    ∃ below, left = below + 1 ∧ checkSchemaNode limits node = .ok () ∧
      ∀ child ∈ schemaChildren node, gateNode limits below child = .ok () := by
  cases left with
  | zero => cases gated
  | succ below =>
      rw [gateNode] at gated
      cases checked : checkSchemaNode limits node with
      | error error =>
          rw [checked] at gated
          cases gated
      | ok =>
          rw [checked] at gated
          exact ⟨below, rfl, rfl, forM_ok gated⟩

theorem checkSchemaNode_ok (checked : checkSchemaNode limits node = .ok ()) :
    node.isObject = true ∧
      ∀ required, SchemaKeyword.required.value node = some required → required.isArray = true := by
  cases node with
  | object members =>
      refine ⟨rfl, fun required given => ?_⟩
      rw [checkSchemaNode] at checked
      simp only [given] at checked
      repeat' split at checked
      all_goals try cases checked
      next array => simpa using array
  | _ => cases checked

theorem gateNode_admitted (gated : gateNode limits left node = .ok ()) : Admitted node := by
  obtain ⟨below, _, checked, children⟩ := gateNode_ok gated
  obtain ⟨object, required⟩ := checkSchemaNode_ok checked
  refine ⟨object, fun value given => ?_, fun itemSchema given => ?_⟩
  · have array := required value given
    cases value with
    | array names => exact ⟨names, rfl⟩
    | _ => cases array
  · have child : itemSchema ∈ schemaChildren node := by
      rw [schemaChildren, given]
      exact List.mem_cons_self
    obtain ⟨_, _, checkedItems, _⟩ := gateNode_ok (children itemSchema child)
    exact (checkSchemaNode_ok checkedItems).1

theorem gateNode_applies {level : Nat} {part : JsonValue}
    (applies : Applies inst schema level part partSchema)
    (gated : gateNode limits left schema = .ok ()) : level < left ∧ Admitted partSchema := by
  induction applies generalizing left with
  | whole inst schema =>
      obtain ⟨below, rfl, _⟩ := gateNode_ok gated
      exact ⟨Nat.succ_pos _, gateNode_admitted gated⟩
  | member given declares found below ih =>
      obtain ⟨rest, rfl, _, children⟩ := gateNode_ok gated
      obtain ⟨declared, _, rfl⟩ := declares_object declares found
      obtain ⟨member, hit, rfl⟩ := Option.map_eq_some_iff.mp found
      have child := children member.2 (List.mem_append_right _ (by
        rw [declares]
        exact List.mem_reverse.mpr (List.mem_map_of_mem (List.mem_of_find?_eq_some hit))))
      have inner := ih child
      exact ⟨Nat.succ_lt_succ inner.1, inner.2⟩
  | item given declares below ih =>
      obtain ⟨rest, rfl, _, children⟩ := gateNode_ok gated
      have child := children _ (List.mem_append_left _ (by
        rw [declares]
        exact List.mem_singleton_self _))
      have inner := ih child
      exact ⟨Nat.succ_lt_succ inner.1, inner.2⟩

end

/-- A keyword at a part that a schema is applied to. -/
structure Restriction (inst schema : JsonValue) where
  level : Nat
  part : JsonValue
  partSchema : JsonValue
  keyword : SchemaKeyword
  applies : Applies inst schema level part partSchema

namespace Restriction
variable {inst schema : JsonValue}

def met (search : Bytes → Bytes → Option Bool) (restriction : Restriction inst schema) : Prop :=
  meets search restriction.keyword restriction.part restriction.partSchema = true

def misread (restriction : Restriction inst schema) : Prop :=
  misjudged restriction.keyword restriction.part restriction.partSchema = true

end Restriction

/-- Nothing that is misjudged decides the verdict: nothing is misjudged, or something that is
judged rightly is broken, or what is misjudged is met in one place and broken in another. -/
def Undecided (search : Bytes → Bytes → Option Bool) (inst schema : JsonValue) : Prop :=
  (∀ restriction : Restriction inst schema, ¬ restriction.misread) ∨
    (∃ restriction : Restriction inst schema, ¬ restriction.misread ∧ ¬ restriction.met search) ∨
    ((∃ restriction : Restriction inst schema, restriction.misread ∧ restriction.met search) ∧
      ∃ restriction : Restriction inst schema, restriction.misread ∧ ¬ restriction.met search)

/-- The schema applies to a part as far down as the validator goes. -/
def TooDeep (inst schema : JsonValue) : Prop :=
  ∃ level part partSchema, Applies inst schema level part partSchema ∧
    defaultSchemaSubsetLimits.maxDepth ≤ level

/-- The verdict on an instance that is within the depth agrees with the meaning of the schema. -/
structure Faithful (search : Bytes → Bytes → Option Bool) (inst : JsonValue)
    (schema : JsonSchema) : Prop where
  sound : validateInstance search inst schema = [] → Satisfies search inst schema.root
  complete : ¬ TooDeep inst schema.root → Satisfies search inst schema.root →
    validateInstance search inst schema = []

variable (search : Bytes → Bytes → Option Bool) {inst : JsonValue} {schema : JsonSchema}

theorem validateInstance_nil {limits : SchemaSubsetLimits}
    (gated : gateNode limits limits.maxDepth schema.root = .ok ())
    (shallow : ¬ TooDeep inst schema.root) :
    validateInstance search inst schema = [] ↔
      ∀ restriction : Restriction inst schema.root,
        (restriction.met search ↔ ¬ restriction.misread) := by
  have agrees (restriction : Restriction inst schema.root) :
      checks search restriction.keyword restriction.part restriction.partSchema = true ↔
        (restriction.met search ↔ ¬ restriction.misread) := by
    rw [judged search (gateNode_applies restriction.applies gated).2, Restriction.met,
      Restriction.misread]
    cases meets search restriction.keyword restriction.part restriction.partSchema <;>
      cases misjudged restriction.keyword restriction.part restriction.partSchema <;> simp
  rw [validateInstance, validate_nil]
  constructor
  · intro clean restriction
    exact (agrees restriction).mp ((clean.2 _ _ _ restriction.applies).2 restriction.keyword)
  · intro all
    refine ⟨rfl, fun level part partSchema applies => ⟨?_, fun keyword => ?_⟩⟩
    · exact Nat.lt_of_not_le fun deep => shallow ⟨level, part, partSchema, applies, deep⟩
    · exact (agrees ⟨level, part, partSchema, keyword, applies⟩).mpr (all _)

theorem satisfies_iff {search : Bytes → Bytes → Option Bool} {schema : JsonValue} :
    Satisfies search inst schema ↔
      ∀ restriction : Restriction inst schema, restriction.met search :=
  ⟨fun satisfied restriction => satisfied _ _ _ restriction.applies restriction.keyword,
    fun all level part partSchema applies keyword =>
      all ⟨level, part, partSchema, keyword, applies⟩⟩

theorem deep_reported (deep : TooDeep inst schema.root) :
    validateInstance search inst schema ≠ [] := by
  intro nil
  obtain ⟨level, part, partSchema, applies, far⟩ := deep
  rw [validateInstance, validate_nil] at nil
  exact Nat.not_lt.mpr far (nil.2 level part partSchema applies).1

/-- For a schema that the gate admits and an instance: the validator reports nothing where, and
within its depth only where, the instance satisfies every keyword of the schema, if and only if no
misjudged restriction decides the verdict. -/
theorem verdict_faithful_iff (search : Bytes → Bytes → Option Bool) (limits : SchemaSubsetLimits)
    (schema : JsonSchema) (inst : JsonValue) (gated : gateSchemaSubset schema limits = .ok ()) :
    Faithful search inst schema ↔
      TooDeep inst schema.root ∨ Undecided search inst schema.root := by
  have walked : gateNode limits limits.maxDepth schema.root = .ok () := by
    rw [gateSchemaSubset] at gated
    split at gated
    · cases gated
    · split at gated
      · cases gated
      · exact gated
  by_cases deep : TooDeep inst schema.root
  · have reported := deep_reported search deep
    exact ⟨fun _ => .inl deep,
      fun _ => ⟨fun nil => absurd nil reported, fun shallow => absurd deep shallow⟩⟩
  have clean := validateInstance_nil search walked deep
  constructor
  · intro faithful
    refine .inr ?_
    by_contra decided
    rw [Undecided, not_or, not_or] at decided
    obtain ⟨some, rightly, both⟩ := decided
    obtain ⟨first, misread⟩ := not_forall_not.mp some
    have kept (restriction : Restriction inst schema.root) (right : ¬ restriction.misread) :
        restriction.met search := by
      by_contra broken
      exact rightly ⟨restriction, right, broken⟩
    by_cases met : first.met search
    · -- Everything misjudged is met, so all is, and the check of it fails.
      have satisfied : Satisfies search inst schema.root := by
        rw [satisfies_iff]
        intro restriction
        by_contra broken
        by_cases wrong : restriction.misread
        · exact both ⟨⟨first, misread, met⟩, restriction, wrong, broken⟩
        · exact broken (kept restriction wrong)
      exact (clean.mp (faithful.complete deep satisfied) first).mp met misread
    · -- Everything misjudged is broken, so every check passes.
      have passes : validateInstance search inst schema = [] := by
        refine clean.mpr fun restriction => ⟨fun holds wrong => ?_, kept restriction⟩
        exact both ⟨⟨restriction, wrong, holds⟩, first, misread, met⟩
      exact met (satisfies_iff.mp (faithful.sound passes) first)
  · intro undecided
    cases undecided with
    | inl deep' => exact absurd deep' deep
    | inr undecided =>
        cases undecided with
        | inl none =>
            have same : validateInstance search inst schema = [] ↔
                Satisfies search inst schema.root := by
              rw [clean, satisfies_iff]
              exact forall_congr' fun restriction => iff_true_right (none restriction)
            exact ⟨same.mp, fun _ => same.mpr⟩
        | inr undecided =>
            cases undecided with
            | inl rightly =>
                obtain ⟨restriction, right, broken⟩ := rightly
                exact ⟨fun nil => absurd ((clean.mp nil restriction).mpr right) broken,
                  fun _ satisfied => absurd (satisfies_iff.mp satisfied restriction) broken⟩
            | inr both =>
                obtain ⟨⟨first, misread, met⟩, second, _, broken⟩ := both
                exact ⟨fun nil => absurd misread ((clean.mp nil first).mp met),
                  fun _ satisfied => absurd (satisfies_iff.mp satisfied second) broken⟩

def anyText : Bytes → Bytes → Option Bool := fun _ _ => some true

def openObject : JsonSchema := ⟨.object [(ascii "type", .string (ascii "object"))]⟩

def undeclaredMember : JsonValue := .object [(ascii "extra", .null)]

theorem undeclared_member_accepted :
    gateSchemaSubset openObject = .ok () ∧
      validateInstance anyText undeclaredMember openObject = [] ∧
      ¬ Satisfies anyText undeclaredMember openObject.root := by
  refine ⟨by decide +kernel, by decide +kernel, fun satisfied => ?_⟩
  have closed := satisfied 0 _ _ (.whole _ _) .additionalProperties
  revert closed
  decide +kernel

def nameList : JsonSchema :=
  ⟨.object [(ascii "type", .string (ascii "array")), (ascii "maxItems", .integer 2),
    (ascii "items", .object [(ascii "type", .string (ascii "string")),
      (ascii "minLength", .integer 1)])]⟩

def oneName : JsonValue := .array [.string (ascii "a")]

theorem name_list_faithful :
    gateSchemaSubset nameList = .ok () ∧ Satisfies anyText oneName nameList.root := by
  have gated : gateSchemaSubset nameList = .ok () := by decide +kernel
  refine ⟨gated, ((verdict_faithful_iff anyText _ nameList oneName gated).mpr
    (.inr (.inl fun restriction wrong => ?_))).sound (by decide +kernel)⟩
  obtain ⟨level, part, partSchema, keyword, applies⟩ := restriction
  change misjudged keyword part partSchema = true at wrong
  cases applies with
  | whole => cases keyword <;> exact absurd wrong (by decide +kernel)
  | item given declares below =>
      cases List.mem_singleton.mp given
      cases declares
      cases below with
      | whole => cases keyword <;> exact absurd wrong (by decide +kernel)

end Mira.Model
