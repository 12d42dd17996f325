import Mira.Json.Value

/-!
Objects that are written from a list of fields, some of which may be left out, and the lookups of
a reader in them.
-/

namespace Bytes

@[simp]
theorem ascii_inj {first second : String} : ascii first = ascii second ↔ first = second := by
  rw [ascii, ascii, Array.toList_inj, ← ByteArray.ext_iff, String.toByteArray_inj]

end Bytes

namespace Mira
open Bytes

def fieldMembers (fields : List (String × Option JsonValue)) : List (Bytes × JsonValue) :=
  fields.filterMap fun field => field.2.map fun value => (ascii field.1, value)

def objectOf (fields : List (String × Option JsonValue)) : JsonValue :=
  .object (fieldMembers fields)

def fieldWhen (condition : Bool) (value : JsonValue) : Option JsonValue :=
  if condition then some value else none

/-- A member that the reader has checked to be there. -/
def memberOf (document : JsonValue) (key : String) : JsonValue :=
  (document.find (ascii key)).getD .null

variable (fields : List (String × Option JsonValue))

@[simp]
theorem isNull_objectOf :
    (objectOf fields).isNull = false := rfl

@[simp]
theorem find_objectOf_nil (key : String) : (objectOf []).find (ascii key) = none := rfl

@[simp]
theorem find_objectOf_cons (name key : String) (value : Option JsonValue)
    (rest : List (String × Option JsonValue)) :
    (objectOf ((name, value) :: rest)).find (ascii key) =
      if name = key then value.or ((objectOf rest).find (ascii key))
      else (objectOf rest).find (ascii key) := by
  cases value with
  | none => simp [objectOf, fieldMembers]
  | some value =>
      simp only [objectOf, fieldMembers, List.filterMap_cons, Option.map_some, JsonValue.find,
        List.find?_cons, ascii_inj]
      by_cases own : name = key
      · rw [if_pos own, decide_eq_true own, Option.map_some, Option.some_or]
      · rw [if_neg own, decide_eq_false own]

end Mira
