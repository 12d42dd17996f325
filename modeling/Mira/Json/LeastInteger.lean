import Mira.Json.RoundTrip

/-!
The round trip of all integers. The parser keeps the digits of an integer below two to the
sixty-third before it looks at the sign, so that the least integer comes back as a number.
-/

namespace Mira
open Bytes

/-- The values of the writer's own kinds that a parser has room for. -/
inductive JsonValue.Within (limits : JsonLimits) : Nat → JsonValue → Prop
  | null {levels : Nat} : Within limits (levels + 1) .null
  | boolean {levels : Nat} (value : Bool) : Within limits (levels + 1) (.boolean value)
  | integer {levels : Nat} (value : Int) (low : -2 ^ 63 ≤ value) (high : value < 2 ^ 63) :
      Within limits (levels + 1) (.integer value)
  | string {levels : Nat} (text : Bytes) (valid : ValidUtf8 text)
      (room : text.length < limits.maxStringBytes) : Within limits (levels + 1) (.string text)
  | array {levels : Nat} (items : List JsonValue) (room : items.length ≤ limits.maxArrayItems)
      (each : ∀ item ∈ items, Within limits levels item) :
      Within limits (levels + 1) (.array items)
  | object {levels : Nat} (members : List (Bytes × JsonValue))
      (room : members.length ≤ limits.maxObjectMembers)
      (distinct : (members.map Prod.fst).Nodup)
      (keys : ∀ member ∈ members,
        ValidUtf8 member.1 ∧ member.1.length < limits.maxStringBytes)
      (each : ∀ member ∈ members, Within limits levels member.2) :
      Within limits (levels + 1) (.object members)

def leastInteger : Int := -2 ^ 63

mutual

def JsonValue.reread : JsonValue → JsonValue
  | .integer value => if value = leastInteger then .number leastInteger else .integer value
  | .array items => .array (rereadItems items)
  | .object members => .object (rereadMembers members)
  | other => other

def rereadItems : List JsonValue → List JsonValue
  | [] => []
  | item :: rest => item.reread :: rereadItems rest

def rereadMembers : List (Bytes × JsonValue) → List (Bytes × JsonValue)
  | [] => []
  | (key, value) :: rest => (key, value.reread) :: rereadMembers rest

end

mutual

def JsonValue.holdsLeast : JsonValue → Bool
  | .integer value => value = leastInteger
  | .array items => itemsHoldLeast items
  | .object members => membersHoldLeast members
  | _ => false

def itemsHoldLeast : List JsonValue → Bool
  | [] => false
  | item :: rest => item.holdsLeast || itemsHoldLeast rest

def membersHoldLeast : List (Bytes × JsonValue) → Bool
  | [] => false
  | (_, value) :: rest => value.holdsLeast || membersHoldLeast rest

end

theorem rereadItems_eq (items : List JsonValue) :
    rereadItems items = items.map JsonValue.reread := by
  induction items with
  | nil => rfl
  | cons item rest ih => rw [rereadItems, ih, List.map_cons]

theorem rereadMembers_eq (members : List (Bytes × JsonValue)) :
    rereadMembers members = members.map fun member => (member.1, member.2.reread) := by
  induction members with
  | nil => rfl
  | cons member rest ih =>
      obtain ⟨key, value⟩ := member
      rw [rereadMembers, ih, List.map_cons]

mutual

theorem reread_iff : ∀ value : JsonValue, value.reread = value ↔ value.holdsLeast = false
  | .null | .boolean _ | .number _ | .string _ => by simp [JsonValue.reread, JsonValue.holdsLeast]
  | .integer value => by
      rw [JsonValue.reread, JsonValue.holdsLeast]
      split
      · next least => simp [least]
      · next other => simp [other]
  | .array items => by
      rw [JsonValue.reread, JsonValue.holdsLeast, JsonValue.array.injEq]
      exact rereadItems_iff items
  | .object members => by
      rw [JsonValue.reread, JsonValue.holdsLeast, JsonValue.object.injEq]
      exact rereadMembers_iff members

theorem rereadItems_iff : ∀ items : List JsonValue,
    rereadItems items = items ↔ itemsHoldLeast items = false
  | [] => by simp [rereadItems, itemsHoldLeast]
  | item :: rest => by
      rw [rereadItems, itemsHoldLeast, List.cons.injEq, Bool.or_eq_false_iff, reread_iff item,
        rereadItems_iff rest]

theorem rereadMembers_iff : ∀ members : List (Bytes × JsonValue),
    rereadMembers members = members ↔ membersHoldLeast members = false
  | [] => by simp [rereadMembers, membersHoldLeast]
  | (key, value) :: rest => by
      rw [rereadMembers, membersHoldLeast, List.cons.injEq, Prod.mk.injEq, Bool.or_eq_false_iff,
        reread_iff value, rereadMembers_iff rest]
      simp

end

variable (limits : JsonLimits) (levels : Nat)

theorem readsTo_least :
    ReadsTo (parseValue limits (levels + 1)) (decimalInt leastInteger) (.number leastInteger) := by
  have written : decimalInt leastInteger = 45 :: decimal (2 ^ 63) := by decide
  rw [written]
  refine ⟨⟨45, _, rfl, rfl, by decide⟩, fun rest ends => ?_⟩
  obtain ⟨digits, after⟩ := takeWhile_digits (decimal (2 ^ 63)) rest (all_isDigit_decimal _) ends
  have overflow : accumulateDigits 0 (decimal (2 ^ 63)) = none := by decide
  have value : stod { negative := true, digits := decimal (2 ^ 63) } =
      some (leastInteger : Rat) := by
    decide +kernel
  have signed : numberSign (45 :: decimal (2 ^ 63) ++ rest) =
      (true, decimal (2 ^ 63) ++ rest) := rfl
  have read : parseNumber (45 :: decimal (2 ^ 63) ++ rest) =
      .ok (.number leastInteger, rest) := by
    rw [parseNumber]
    simp only [signed, digits, after, decimal_ne_nil, if_false, parseFraction_ends rest ends,
      parseExponent_ends rest ends, numberOfToken, Option.isSome_none, Bool.or_false,
      Bool.false_eq_true, overflow, Option.getD_none, Option.map_none, value]
  exact read

theorem readsTo_reread (value : JsonValue) (within_ : value.Within limits levels) :
    ReadsTo (parseValue limits levels) (toJsonString value) value.reread := by
  induction levels generalizing value with
  | zero => cases within_
  | succ levels ih =>
      cases within_ with
      | null => exact readsTo_literal limits levels _ _ ⟨110, _, rfl, rfl, by decide⟩ fun _ => rfl
      | boolean value =>
          cases value with
          | true =>
              exact readsTo_literal limits levels _ _ ⟨116, _, rfl, rfl, by decide⟩ fun _ => rfl
          | false =>
              exact readsTo_literal limits levels _ _ ⟨102, _, rfl, rfl, by decide⟩ fun _ => rfl
      | integer value low high =>
          rw [toJsonString, writeValue, JsonValue.reread]
          split
          · next least =>
              rw [least]
              exact readsTo_least limits levels
          · next other =>
              exact readsTo_integer limits levels value
                (lt_of_le_of_ne low fun same => other same.symm) high
      | string text valid room =>
          refine ⟨⟨34, _, rfl, rfl, by decide⟩, fun rest _ => ?_⟩
          change parseStringValue limits (writeString text ++ rest) = _
          rw [parseStringValue, parseStringRaw_writeString limits text rest valid room]
          rfl
      | array items room each =>
          have pairs := readsTo_array limits levels
            (items.map fun item => (toJsonString item, item.reread))
            (by
              intro pair present
              obtain ⟨item, member, rfl⟩ := List.mem_map.mp present
              exact ih item (each item member))
            (by simpa using room)
          simpa only [toJsonString, writeValue, JsonValue.reread, writeItems_eq, rereadItems_eq,
            List.map_map, Function.comp_def] using pairs
      | object members room distinct keys each =>
          have texts := readsTo_object limits levels
            (members.map fun member => ⟨member.1, toJsonString member.2, member.2.reread⟩)
            (by
              intro text present
              obtain ⟨member, found, rfl⟩ := List.mem_map.mp present
              exact ih member.2 (each member found))
            (by
              intro text present
              obtain ⟨member, found, rfl⟩ := List.mem_map.mp present
              exact keys member found)
            (by simpa only [List.map_map, Function.comp_def] using distinct)
            (by simpa using room)
          have ordered {α : Type} (members : List (Bytes × α)) :
              orderMembers false members = members := rfl
          simpa only [toJsonString, writeValue, JsonValue.reread, writeMembers_eq, rereadMembers_eq,
            ordered, List.map_map, Function.comp_def] using texts

/-- A value that the parser has room for is read back from its text exactly where the least integer
is not in it. -/
theorem parse_toJsonString (limits : JsonLimits) (value : JsonValue)
    (within_ : value.Within limits limits.maxDepth)
    (room : (toJsonString value).length ≤ limits.maxDocumentBytes) :
    parseJson (toJsonString value) limits = .ok value ↔ value.holdsLeast = false := by
  have parsed := parseJson_of_reads (readsTo_reread limits limits.maxDepth value within_) room
  rw [parsed, ← reread_iff, Except.ok.injEq]

def rangeEnds : JsonValue :=
  .object [(ascii "ends", .array [.integer (-2 ^ 63 + 1), .integer (2 ^ 63 - 1)]),
    (ascii "name", .string (ascii "\"int\"\n"))]

theorem rangeEnds_within : rangeEnds.Within {} 32 := by
  have text (name : Bytes) (plain : name.all (·.toNat < 128) = true) : ValidUtf8 name :=
    validUtf8_printable_ascii name fun b among => of_decide_eq_true (List.all_eq_true.mp plain b among)
  have ends : (JsonValue.array [.integer (-2 ^ 63 + 1), .integer (2 ^ 63 - 1)]).Within {} 31 := by
    refine .array _ (by decide) ?_
    intro item among
    simp only [List.mem_cons, List.not_mem_nil, or_false] at among
    cases among with
    | inl first => exact first ▸ .integer _ (by decide) (by decide)
    | inr second => exact second ▸ .integer _ (by decide) (by decide)
  refine .object _ (by decide) (by decide) ?_ ?_
  · intro member among
    simp only [List.mem_cons, List.not_mem_nil, or_false] at among
    cases among with
    | inl first => exact first ▸ ⟨text _ rfl, by decide⟩
    | inr second => exact second ▸ ⟨text _ rfl, by decide⟩
  · intro member among
    simp only [List.mem_cons, List.not_mem_nil, or_false] at among
    cases among with
    | inl first => exact first ▸ ends
    | inr second => exact second ▸ .string _ (text _ rfl) (by decide)

theorem parse_rangeEnds :
    parseJson (toJsonString rangeEnds) {} = .ok rangeEnds ↔ rangeEnds.holdsLeast = false :=
  parse_toJsonString {} rangeEnds rangeEnds_within (by decide +kernel)

/-- The least integer comes back as a number. -/
theorem parse_least :
    (JsonValue.integer leastInteger).Within {} 32 ∧
      parseJson (toJsonString (.integer leastInteger)) {} = .ok (.number (-2 ^ 63)) ∧
      parseJson (toJsonString (.integer leastInteger)) {} ≠ .ok (.integer leastInteger) := by
  have read : parseJson (toJsonString (.integer leastInteger)) {} = .ok (.number (-2 ^ 63)) := by
    decide +kernel
  refine ⟨.integer _ (by decide) (by decide), read, ?_⟩
  rw [read]
  intro same
  cases same

end Mira
