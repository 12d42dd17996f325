import Mira.Model.Schema

/-!
The validator against the meaning of a schema. It judges each keyword at each part on its own; a
restriction is misjudged where its value has a shape that the validator passes over, where a bound
changes with its representation, or where an object is not declared at all. The verdict is right
exactly where misjudged restrictions do not decide it.
-/

namespace Mira.Model
open Mira Bytes

def checks (search : Bytes → Bytes → Option Bool) (keyword : SchemaKeyword)
    (inst schema : JsonValue) : Bool :=
  match keyword with
  | .type => (SchemaKeyword.type.value schema).all (matchesTypes inst)
  | .required =>
      match SchemaKeyword.required.value schema, inst with
      | some (.array names), .object _ =>
          names.all fun name => name.asString.all fun text => (inst.find text).isSome
      | _, _ => true
  | .additionalProperties =>
      match declaredProperties schema, inst with
      | some properties, .object members =>
          allowsAdditional schema ||
            members.all fun member => ((JsonValue.object properties).find member.1).isSome
      | _, _ => true
  | .minItems =>
      match inst with
      | .array items => !belowBound .minItems schema items.length
      | _ => true
  | .maxItems =>
      match inst with
      | .array items => !aboveBound .maxItems schema items.length
      | _ => true
  | .minLength =>
      match inst with
      | .string text => !belowBound .minLength schema text.length
      | _ => true
  | .maxLength =>
      match inst with
      | .string text => !aboveBound .maxLength schema text.length
      | _ => true
  | .pattern =>
      match inst, SchemaKeyword.pattern.value schema with
      | .string text, some (.string expression) => search expression text = some true
      | _, _ => true
  | .minimum =>
      inst.asNumber.all fun number =>
        !((SchemaKeyword.minimum.value schema).bind JsonValue.asNumber).any (number < ·)
  | .maximum =>
      inst.asNumber.all fun number =>
        !((SchemaKeyword.maximum.value schema).bind JsonValue.asNumber).any (· < number)
  | .enum =>
      match SchemaKeyword.enum.value schema with
      | some (.array candidates) => candidates.any fun candidate => candidate.same inst
      | _ => true
  | .const => (SchemaKeyword.const.value schema).all fun constant => constant.same inst
  | _ => true

variable (search : Bytes → Bytes → Option Bool) (inst schema : JsonValue) (path : Bytes)

theorem headViolations_nil :
    headViolations inst schema path = [] ↔
      checks search .type inst schema = true ∧ checks search .required inst schema = true := by
  rw [headViolations, List.append_eq_nil_iff]
  refine and_congr ?_ ?_
  · rw [typeViolations, checks]
    cases SchemaKeyword.type.value schema with
    | none => simp
    | some type => simp
  · simp only [requiredViolations, checks]
    generalize SchemaKeyword.required.value schema = required
    split
    · next names members =>
        rw [List.filterMap_eq_nil_iff, List.all_eq_true]
        refine forall₂_congr fun name _ => ?_
        cases name.asString with
        | none => simp
        | some text => simp [Option.isSome_iff_ne_none]
    · simp

theorem patternViolations_nil (text : Bytes) (schema : JsonValue) (path : Bytes) :
    patternViolations search text schema path = [] ↔
      checks search .pattern (.string text) schema = true := by
  simp only [patternViolations, checks]
  generalize SchemaKeyword.pattern.value schema = pattern
  split
  · next expression =>
      cases answer : search expression text with
      | none => simp [answer]
      | some matched => cases matched <;> simp [answer]
  · next other =>
      cases pattern with
      | none => simp
      | some value =>
          cases value with
          | string expression => exact absurd rfl (other expression)
          | _ => simp

theorem tailViolations_nil :
    tailViolations search inst schema path = [] ↔
      (checks search .minItems inst schema = true ∧ checks search .maxItems inst schema = true) ∧
        (checks search .minLength inst schema = true ∧
          checks search .maxLength inst schema = true ∧
          checks search .pattern inst schema = true) ∧
        (checks search .minimum inst schema = true ∧ checks search .maximum inst schema = true) ∧
        checks search .enum inst schema = true ∧ checks search .const inst schema = true := by
  simp only [tailViolations, List.append_eq_nil_iff, and_assoc]
  have arrays : arrayViolations inst schema path = [] ↔
      checks search .minItems inst schema = true ∧ checks search .maxItems inst schema = true := by
    cases inst <;> simp [arrayViolations, checks]
  have strings : stringViolations search inst schema path = [] ↔
      checks search .minLength inst schema = true ∧ checks search .maxLength inst schema = true ∧
        checks search .pattern inst schema = true := by
    cases inst with
    | string text =>
        simp only [stringViolations, List.append_eq_nil_iff, patternViolations_nil, and_assoc]
        simp [checks]
    | _ => simp [stringViolations, checks]
  have numbers : numberViolations inst schema path = [] ↔
      checks search .minimum inst schema = true ∧ checks search .maximum inst schema = true := by
    simp only [numberViolations, checks]
    cases inst.asNumber with
    | none => simp
    | some number => simp
  have enums : enumViolations inst schema path = [] ↔ checks search .enum inst schema = true := by
    simp only [enumViolations, checks]
    generalize SchemaKeyword.enum.value schema = enumerated
    split <;> simp
  have consts : constViolations inst schema path = [] ↔
      checks search .const inst schema = true := by
    simp only [constViolations, checks]
    cases SchemaKeyword.const.value schema with
    | none => simp
    | some constant => simp
  rw [arrays, strings, numbers, enums, consts]
  simp only [and_assoc]

/-- A lower bound that is no integer and not met, or that a cast or the bytes of a text decide
otherwise than its meaning does. -/
def misreadBelow (counted actual : Nat) : JsonValue → Bool
  | .integer bound => decide (actual < wordOfInt bound) != decide ((counted : Rat) < (bound : Rat))
  | .number bound => (counted : Rat) < bound
  | _ => true

def misreadAbove (counted actual : Nat) : JsonValue → Bool
  | .integer bound => decide (wordOfInt bound < actual) != decide ((bound : Rat) < (counted : Rat))
  | .number bound => bound < (counted : Rat)
  | _ => true

/-- A limit of a number that is none, or that conversions to binary64 decide otherwise: `below`
compares the instance with the limit. -/
def misreadLimit (below : Rat → Rat → Bool) (inst limit : JsonValue) : Bool :=
  match exactNumber inst, exactNumber limit with
  | some number, some exact =>
      below (inst.asNumber.getD 0) (limit.asNumber.getD 0) != below number exact
  | some _, none => true
  | none, _ => false

/-- A keyword that the validator does not judge by its meaning. -/
def misjudged (keyword : SchemaKeyword) (inst schema : JsonValue) : Bool :=
  match keyword, inst, keyword.value schema with
  -- An entry that is no name is passed over.
  | .required, .object members, some (.array names) =>
      names.any (fun name => !name.isString) &&
        names.all fun name =>
          name.asString.all fun text => ((JsonValue.object members).find text).isSome
  | .properties, .object _, some properties => !properties.isObject
  -- Without declared properties no member is looked at.
  | .additionalProperties, .object members, _ =>
      !members.isEmpty && !allowsAdditional schema && (declaredProperties schema).isNone
  | .minItems, .array elements, some bound => misreadBelow elements.length elements.length bound
  | .maxItems, .array elements, some bound => misreadAbove elements.length elements.length bound
  | .minLength, .string content, some bound =>
      misreadBelow (characters content) content.length bound
  | .maxLength, .string content, some bound =>
      misreadAbove (characters content) content.length bound
  | .pattern, .string _, some expression => !expression.isString
  | .minimum, inst, some limit => misreadLimit (fun number limit => number < limit) inst limit
  | .maximum, inst, some limit => misreadLimit (fun number limit => limit < number) inst limit
  | .enum, inst, some (.array candidates) =>
      (candidates.any fun candidate => candidate.same inst) !=
        candidates.any fun candidate => equalValues candidate inst
  | .enum, _, some _ => true
  | .const, inst, some constant => constant.same inst != equalValues constant inst
  | _, _, _ => false

section
variable {counted actual : Nat} {bound : Int}

theorem wordOfInt_low (low : -2 ^ 63 ≤ bound) (negative : bound < 0) :
    2 ^ 63 ≤ wordOfInt bound := by
  have cast : wordOfInt bound = (bound + wordLimit).toNat := by
    rw [wordOfInt, ← Int.add_emod_right, Int.emod_eq_of_lt] <;> simp only [wordLimit] <;> omega
  simp only [cast, wordLimit]
  omega

theorem wordOfInt_high (natural : 0 ≤ bound) (high : bound < 2 ^ 63) :
    (wordOfInt bound : Int) = bound := by
  rw [wordOfInt, Int.emod_eq_of_lt natural (by simp only [wordLimit]; omega)]
  exact Int.toNat_of_nonneg natural

variable (low : -2 ^ 63 ≤ bound) (high : bound < 2 ^ 63) (small : actual < 2 ^ 63)
  (within : counted ≤ actual)
include low high small within

/-- A lower bound is misread if it is negative, or between what is counted and the bytes. -/
theorem misreadBelow_iff :
    misreadBelow counted actual (.integer bound) = true ↔
      bound < 0 ∨ (counted < bound ∧ bound ≤ actual) := by
  have exact_ : ((counted : Rat) < (bound : Rat)) ↔ (counted : Int) < bound := by
    exact_mod_cast Iff.rfl
  simp only [misreadBelow, bne_iff_ne, ne_eq, decide_eq_decide, exact_]
  rcases lt_or_ge bound 0 with negative | natural
  · have := wordOfInt_low low negative
    omega
  · have := wordOfInt_high natural high
    omega

theorem misreadAbove_iff :
    misreadAbove counted actual (.integer bound) = true ↔
      bound < 0 ∨ (counted ≤ bound ∧ bound < actual) := by
  have exact_ : ((bound : Rat) < (counted : Rat)) ↔ bound < (counted : Int) := by
    exact_mod_cast Iff.rfl
  simp only [misreadAbove, bne_iff_ne, ne_eq, decide_eq_decide, exact_]
  rcases lt_or_ge bound 0 with negative | natural
  · have := wordOfInt_low low negative
    omega
  · have := wordOfInt_high natural high
    omega

end

/-- Equal values without parts are the same but for an integer and a number that denote it. -/
theorem same_of_equal {value other : JsonValue} (plain : value.isArray = false)
    (scalar : value.isObject = false) (equal : equalValues value other = true) :
    value.same other = true ∨ ∃ n : Int, (value = .integer n ∧ other = .number n) ∨
      (value = .number n ∧ other = .integer n) := by
  cases value <;> cases other <;>
    simp_all [equalValues, JsonValue.same, JsonValue.isNull, JsonValue.asBoolean, exactNumber,
      JsonValue.asString, JsonValue.isArray, JsonValue.isObject]

/-- A node that the gate admits. -/
structure Admitted (schema : JsonValue) : Prop where
  object : schema.isObject = true
  required : ∀ required, SchemaKeyword.required.value schema = some required →
    ∃ names, required = .array names
  items : ∀ itemSchema, SchemaKeyword.items.value schema = some itemSchema →
    itemSchema.isObject = true

section
variable (search : Bytes → Bytes → Option Bool) {inst schema : JsonValue}

theorem decide_le_rat (first second : Rat) :
    decide (first ≤ second) = !decide (second < first) := by
  rw [← decide_not]
  exact decide_eq_decide.mpr not_lt.symm

theorem differ (check meaning : Bool) : (!check) = ((!meaning) != (check != meaning)) := by
  cases check <;> cases meaning <;> rfl

theorem misread_alone (unmet : Bool) : ((!unmet) != unmet) = true := by cases unmet <;> rfl

theorem names_known (known : Bytes → Bool) (names : List JsonValue) :
    (names.all fun name => name.asString.any known) =
      (!(names.any fun name => !name.isString) &&
        names.all fun name => name.asString.all known) := by
  induction names with
  | nil => rfl
  | cons name names ih =>
      simp only [List.all_cons, List.any_cons, ih]
      cases name with
      | string text => simp [JsonValue.asString, JsonValue.isString, Bool.and_left_comm]
      | _ => simp [JsonValue.asString, JsonValue.isString]

variable (keyword : SchemaKeyword) (counted actual : Nat)

theorem judged_below :
    (!belowBound keyword schema actual) =
      (((keyword.value schema).all fun bound => atLeast bound counted) !=
        (keyword.value schema).any (misreadBelow counted actual)) := by
  rw [belowBound]
  cases keyword.value schema with
  | none => rfl
  | some bound =>
      cases bound with
      | integer bound =>
          simp only [Option.all_some, atLeast, exactNumber, Option.any_some, misreadBelow,
            decide_le_rat]
          exact differ _ _
      | number bound =>
          simp only [Option.all_some, atLeast, exactNumber, Option.any_some, misreadBelow,
            decide_le_rat]
          exact (misread_alone _).symm
      | _ => rfl

theorem judged_above :
    (!aboveBound keyword schema actual) =
      (((keyword.value schema).all fun bound => atMost bound counted) !=
        (keyword.value schema).any (misreadAbove counted actual)) := by
  rw [aboveBound]
  cases keyword.value schema with
  | none => rfl
  | some bound =>
      cases bound with
      | integer bound =>
          simp only [Option.all_some, atMost, exactNumber, Option.any_some, misreadAbove,
            decide_le_rat]
          exact differ _ _
      | number bound =>
          simp only [Option.all_some, atMost, exactNumber, Option.any_some, misreadAbove,
            decide_le_rat]
          exact (misread_alone _).symm
      | _ => rfl

theorem numbers_agree (value : JsonValue) :
    (value.asNumber = none ∧ exactNumber value = none) ∨
      ∃ number exact, value.asNumber = some number ∧ exactNumber value = some exact := by
  cases value with
  | integer value => exact .inr ⟨_, _, rfl, rfl⟩
  | number value => exact .inr ⟨_, _, rfl, rfl⟩
  | _ => exact .inl ⟨rfl, rfl⟩

theorem judged_limit (below : Rat → Rat → Bool) (keyword : SchemaKeyword) (inst : JsonValue) :
    (inst.asNumber.all fun number =>
        !((keyword.value schema).bind JsonValue.asNumber).any fun limit => below number limit) =
      (((keyword.value schema).all fun value => (exactNumber inst).all fun number =>
          (exactNumber value).any fun limit => !below number limit) !=
        (keyword.value schema).any (misreadLimit below inst)) := by
  cases keyword.value schema with
  | none => cases inst.asNumber <;> rfl
  | some limit =>
      simp only [Option.bind_some, Option.all_some, Option.any_some, misreadLimit]
      cases numbers_agree inst with
      | inl none =>
          rw [none.1, none.2]
          rfl
      | inr both =>
          obtain ⟨number, exact, read, exactly⟩ := both
          rw [read, exactly]
          cases numbers_agree limit with
          | inl none =>
              rw [none.1, none.2]
              rfl
          | inr both =>
              obtain ⟨bound, exactBound, readBound, exactlyBound⟩ := both
              rw [readBound, exactlyBound]
              exact differ _ _

theorem judged_required (admitted : Admitted schema) :
    checks search .required inst schema =
      (meets search .required inst schema != misjudged .required inst schema) := by
  delta checks meets misjudged
  dsimp only
  cases given : SchemaKeyword.required.value schema with
  | none => cases inst <;> rfl
  | some required =>
      obtain ⟨names, rfl⟩ := admitted.required required given
      cases inst with
      | object members =>
          delta SchemaKeyword.holds
          simp only [Option.all_some, requiresOnly, names_known]
          generalize (names.any fun name => !name.isString) = nameless
          generalize (names.all fun name => name.asString.all _) = known
          cases nameless <;> cases known <;> rfl
      | _ => rfl

theorem judged_enum :
    checks search .enum inst schema =
      (meets search .enum inst schema != misjudged .enum inst schema) := by
  delta checks meets misjudged
  dsimp only
  cases SchemaKeyword.enum.value schema with
  | none => cases inst <;> rfl
  | some enumerated =>
      cases enumerated with
      | array candidates =>
          delta SchemaKeyword.holds
          simp only [Option.all_some, isEnumerated]
          generalize (candidates.any fun candidate => candidate.same inst) = identical
          generalize (candidates.any fun candidate => equalValues candidate inst) = equal
          cases identical <;> cases equal <;> rfl
      | _ => rfl

theorem judged_const :
    checks search .const inst schema =
      (meets search .const inst schema != misjudged .const inst schema) := by
  delta checks meets misjudged
  dsimp only
  cases SchemaKeyword.const.value schema with
  | none => cases inst <;> rfl
  | some constant =>
      delta SchemaKeyword.holds
      simp only [Option.all_some]
      generalize constant.same inst = identical
      generalize equalValues constant inst = equal
      cases identical <;> cases equal <;> rfl

theorem judged_additional :
    checks search .additionalProperties inst schema =
      (meets search .additionalProperties inst schema !=
        misjudged .additionalProperties inst schema) := by
  delta checks meets misjudged
  simp only [isClosed, declaredProperties]
  cases inst with
  | object members =>
      generalize allowsAdditional schema = allows
      cases SchemaKeyword.properties.value schema with
      | none => cases allows <;> cases members <;> rfl
      | some properties =>
          cases properties with
          | object declared => simp [JsonValue.asObject]
          | _ => cases allows <;> cases members <;> rfl
  | _ => cases (SchemaKeyword.properties.value schema).bind JsonValue.asObject <;> rfl

theorem judged_properties :
    checks search .properties inst schema =
      (meets search .properties inst schema != misjudged .properties inst schema) := by
  delta checks meets misjudged
  dsimp only
  cases SchemaKeyword.properties.value schema with
  | none => cases inst <;> rfl
  | some properties =>
      cases inst with
      | object members =>
          delta SchemaKeyword.holds
          simp only [Option.all_some]
          exact (misread_alone (!properties.isObject)).symm.trans (by rw [Bool.not_not])
      | _ => rfl

theorem judged_items (admitted : Admitted schema) :
    checks search .items inst schema =
      (meets search .items inst schema != misjudged .items inst schema) := by
  delta checks meets misjudged
  dsimp only
  cases given : SchemaKeyword.items.value schema with
  | none => cases inst <;> rfl
  | some itemSchema =>
      have object := admitted.items itemSchema given
      cases inst with
      | array elements => simp [SchemaKeyword.holds, object]
      | _ => rfl

theorem judged_pattern :
    checks search .pattern inst schema =
      (meets search .pattern inst schema != misjudged .pattern inst schema) := by
  delta checks meets misjudged
  dsimp only
  cases SchemaKeyword.pattern.value schema with
  | none => cases inst <;> rfl
  | some pattern =>
      cases inst with
      | string text =>
          cases pattern with
          | string expression => simp [SchemaKeyword.holds, JsonValue.asString, JsonValue.isString]
          | _ => rfl
      | _ => rfl

theorem holds_elsewhere {keyword : SchemaKeyword}
    (free : ∀ value, keyword.holds search value inst = true) :
    true = (((keyword.value schema).all fun value => keyword.holds search value inst) != false) := by
  cases keyword.value schema with
  | none => rfl
  | some value => simp [free]

theorem judged_bounds :
    checks search .minItems inst schema =
        (meets search .minItems inst schema != misjudged .minItems inst schema) ∧
      checks search .maxItems inst schema =
        (meets search .maxItems inst schema != misjudged .maxItems inst schema) ∧
      checks search .minLength inst schema =
        (meets search .minLength inst schema != misjudged .minLength inst schema) ∧
      checks search .maxLength inst schema =
        (meets search .maxLength inst schema != misjudged .maxLength inst schema) := by
  refine ⟨?_, ?_, ?_, ?_⟩
  all_goals delta checks meets misjudged
  all_goals dsimp only
  · cases inst with
    | array elements =>
        refine (judged_below .minItems elements.length elements.length).trans ?_
        cases SchemaKeyword.minItems.value schema <;> rfl
    | _ => exact holds_elsewhere search fun _ => rfl
  · cases inst with
    | array elements =>
        refine (judged_above .maxItems elements.length elements.length).trans ?_
        cases SchemaKeyword.maxItems.value schema <;> rfl
    | _ => exact holds_elsewhere search fun _ => rfl
  · cases inst with
    | string content =>
        refine (judged_below .minLength (characters content) content.length).trans ?_
        cases SchemaKeyword.minLength.value schema <;> rfl
    | _ => exact holds_elsewhere search fun _ => rfl
  · cases inst with
    | string content =>
        refine (judged_above .maxLength (characters content) content.length).trans ?_
        cases SchemaKeyword.maxLength.value schema <;> rfl
    | _ => exact holds_elsewhere search fun _ => rfl

theorem judged_limits :
    checks search .minimum inst schema =
        (meets search .minimum inst schema != misjudged .minimum inst schema) ∧
      checks search .maximum inst schema =
        (meets search .maximum inst schema != misjudged .maximum inst schema) := by
  simp only [checks, meets]
  refine ⟨?_, ?_⟩
  · rw [judged_limit (fun number limit => decide (number < limit))]
    delta misjudged
    delta SchemaKeyword.holds
    simp only [decide_le_rat]
    cases SchemaKeyword.minimum.value schema <;> rfl
  · rw [judged_limit (fun number limit => decide (limit < number))]
    delta misjudged
    delta SchemaKeyword.holds
    simp only [decide_le_rat]
    cases SchemaKeyword.maximum.value schema <;> rfl

theorem judged (admitted : Admitted schema) (keyword : SchemaKeyword) :
    checks search keyword inst schema =
      (meets search keyword inst schema != misjudged keyword inst schema) := by
  cases keyword with
  | required => exact judged_required search admitted
  | items => exact judged_items search admitted
  | properties => exact judged_properties search
  | additionalProperties => exact judged_additional search
  | enum => exact judged_enum search
  | const => exact judged_const search
  | pattern => exact judged_pattern search
  | minItems => exact (judged_bounds search).1
  | maxItems => exact (judged_bounds search).2.1
  | minLength => exact (judged_bounds search).2.2.1
  | maxLength => exact (judged_bounds search).2.2.2
  | minimum => exact (judged_limits search).1
  | maximum => exact (judged_limits search).2
  | type =>
      delta checks meets misjudged
      simp [SchemaKeyword.holds]
  | title | description | schemaDialect | default => exact holds_elsewhere search fun _ => rfl

end

end Mira.Model
