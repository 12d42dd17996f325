import Mira.Core.Contracts
import Mathlib.Data.Rat.Floor
import Mathlib.Data.Nat.Log
import Mathlib.Data.List.Sort

/-!
JSON values and the two conversions of their numbers. A number that is not an
integer is a binary64, represented by the rational it denotes; reading rounds the
decimal token to the nearest one and printing rounds it back to seventeen digits.
Signed zeros are not told apart: no reader of a value does.
-/

namespace Mira
open Bytes

inductive JsonValue
  | null
  | boolean (value : Bool)
  | integer (value : Int)
  | number (value : Rat)
  | string (text : Bytes)
  | array (items : List JsonValue)
  | object (members : List (Bytes × JsonValue))

namespace JsonValue

def isNull : JsonValue → Bool
  | null => true
  | _ => false

def isString : JsonValue → Bool
  | string _ => true
  | _ => false

def isInteger : JsonValue → Bool
  | integer _ => true
  | _ => false

def isObject : JsonValue → Bool
  | object _ => true
  | _ => false

def isArray : JsonValue → Bool
  | array _ => true
  | _ => false

def asBoolean : JsonValue → Option Bool
  | boolean value => some value
  | _ => none

/-- An integer, or a number that denotes one a signed 64-bit cast keeps. -/
def asInteger : JsonValue → Option Int
  | integer value => some value
  | number value =>
      if value = value.floor ∧ -2 ^ 63 ≤ value.floor ∧ value.floor < 2 ^ 63 then
        some value.floor
      else none
  | _ => none

def asString : JsonValue → Option Bytes
  | string text => some text
  | _ => none

def asArray : JsonValue → Option (List JsonValue)
  | array items => some items
  | _ => none

def asObject : JsonValue → Option (List (Bytes × JsonValue))
  | object members => some members
  | _ => none

/-- Member lookup; the first match wins and a value that is no object has none. -/
def find (key : Bytes) : JsonValue → Option JsonValue
  | object members => (members.find? fun member => member.1 = key).map Prod.snd
  | _ => none

def setFirst (key : Bytes) (value : JsonValue) :
    List (Bytes × JsonValue) → List (Bytes × JsonValue)
  | [] => []
  | member :: rest =>
      if member.1 = key then (key, value) :: rest else member :: setFirst key value rest

/-- Overwrites the first member of that key, or appends one. -/
def set (target : JsonValue) (key : Bytes) (value : JsonValue) : JsonValue :=
  match target with
  | object members =>
      if members.any fun member => member.1 = key then
        object (setFirst key value members)
      else object (members ++ [(key, value)])
  | other => other

end JsonValue

def stringMember (document : JsonValue) (key : String) : Option Bytes :=
  (document.find (ascii key)).bind JsonValue.asString

def integerMember (document : JsonValue) (key : String) : Option Int :=
  match document.find (ascii key) with
  | some (.integer value) => some value
  | _ => none

/-- The nearest integer, ties to even. -/
def roundHalfEven (q : Rat) : Int :=
  let low := q.floor
  if q - low < 1 / 2 then low
  else if 1 / 2 < q - low then low + 1
  else if low % 2 = 0 then low else low + 1

/-- The power `2 ^ e` or `10 ^ e` for a possibly negative exponent. -/
def powRat (base : Nat) (e : Int) : Rat :=
  if 0 ≤ e then (base ^ e.toNat : Nat) else 1 / (base ^ (-e).toNat : Nat)

/-- The integer part of the logarithm of a positive rational. -/
def logFloor (base : Nat) (q : Rat) : Int :=
  let estimate : Int := Nat.log base q.num.toNat - Nat.log base q.den
  if powRat base estimate ≤ q then estimate else estimate - 1

/-- The binary64 nearest to a positive rational. `none` is the range error: the
value is too large, or it is subnormal and cannot be kept exactly. -/
def roundBinary64 (q : Rat) : Option Rat :=
  let e := max (logFloor 2 q - 52) (-1074)
  let mantissa := roundHalfEven (q / powRat 2 e)
  let rounded := mantissa * powRat 2 e
  if powRat 2 1024 ≤ rounded then none
  else if mantissa < 2 ^ 52 ∧ rounded ≠ q then none
  else some rounded

structure NumberToken where
  negative : Bool
  digits : Bytes
  fraction : Bytes := []
  exponentNegative : Bool := false
  exponent : Bytes := []

/-- `std::stod` on a token of the grammar; the decimal exponent decides the range
errors before any power is formed. -/
def stod (token : NumberToken) : Option Rat :=
  let mantissa := decimalValue (token.digits ++ token.fraction)
  if mantissa = 0 then some 0
  else
    let written : Int := decimalValue token.exponent
    let scale := (if token.exponentNegative then -written else written) - token.fraction.length
    let magnitude := (decimal mantissa).length + scale
    if 309 < magnitude ∨ magnitude < -330 then none
    else
      (roundBinary64 (mantissa * powRat 10 scale)).map fun value =>
        if token.negative then -value else value

def stripTrailingZeros (digits : Bytes) : Bytes :=
  (digits.reverse.dropWhile (· = 48)).reverse

/-- `"%.17g"` of a positive binary64. -/
def formatGeneral (q : Rat) : Bytes :=
  let guess := logFloor 10 q
  let rounded := roundHalfEven (q * powRat 10 (16 - guess))
  let carried := rounded = 10 ^ 17
  let x := if carried then guess + 1 else guess
  let digits := decimal (if carried then 10 ^ 16 else rounded.toNat)
  let point (whole part : Bytes) : Bytes :=
    if part = [] then whole else whole ++ ascii "." ++ part
  if x < -4 ∨ 17 ≤ x then
    let exponent := decimal x.natAbs
    let padded := if exponent.length < 2 then 48 :: exponent else exponent
    point (digits.take 1) (stripTrailingZeros (digits.drop 1)) ++
      ascii (if x < 0 then "e-" else "e+") ++ padded
  else if x < 0 then
    point [48] (stripTrailingZeros (List.replicate (-x - 1).toNat 48 ++ digits))
  else point (digits.take (x + 1).toNat) (stripTrailingZeros (digits.drop (x + 1).toNat))

/-- `write_number`: integral values below two to the fifty-third print as
integers. -/
def writeNumber (value : Rat) : Bytes :=
  if |value| < 2 ^ 53 ∧ value = value.floor then decimalInt value.floor
  else if value < 0 then 45 :: formatGeneral (-value)
  else formatGeneral value

/-!
Serialization. The canonical form sorts the members of every object by key,
bytewise; the compact form keeps the order of insertion. Both escape what JSON
requires and copy everything else, so bytes that are not UTF-8 pass through.
-/

/-- How many continuation bytes a lead byte announces. -/
def continuationCount (c : UInt8) : Nat :=
  if c &&& 0xE0 = 0xC0 then 1
  else if c &&& 0xF0 = 0xE0 then 2
  else if c &&& 0xF8 = 0xF0 then 3
  else 0

def escapeByte (c : UInt8) : Bytes :=
  if c = 34 then [92, 34]
  else if c = 92 then [92, 92]
  else if c = 8 then [92, 98]
  else if c = 12 then [92, 102]
  else if c = 10 then [92, 110]
  else if c = 13 then [92, 114]
  else if c = 9 then [92, 116]
  else if c < 0x20 then [92, 117, 48, 48] ++ hexByte c
  else [c]

/-- The loop of `write_string`. The bytes a lead byte announces are copied without
being looked at. -/
def writeStringBody : Nat → Bytes → Bytes
  | _, [] => []
  | continuation + 1, c :: rest => c :: writeStringBody continuation rest
  | 0, c :: rest => escapeByte c ++ writeStringBody (continuationCount c) rest

def writeString (text : Bytes) : Bytes := 34 :: (writeStringBody 0 text ++ [34])

/-- The bytewise order of keys. -/
def keyLess : Bytes → Bytes → Bool
  | [], [] => false
  | [], _ :: _ => true
  | _ :: _, [] => false
  | a :: as, b :: bs => a < b || (a = b && keyLess as bs)

def joinWith (separator : UInt8) : List Bytes → Bytes
  | [] => []
  | [text] => text
  | text :: next :: rest => text ++ separator :: joinWith separator (next :: rest)

def orderMembers {α : Type} (canonical : Bool) (members : List (Bytes × α)) :
    List (Bytes × α) :=
  if canonical then members.insertionSort fun a b => keyLess b.1 a.1 = false else members

def writeMember (member : Bytes × Bytes) : Bytes := writeString member.1 ++ 58 :: member.2

mutual

/-- Members are written before they are ordered: a text depends on its own value
only. -/
def writeValue (canonical : Bool) : JsonValue → Bytes
  | .null => ascii "null"
  | .boolean value => ascii (if value then "true" else "false")
  | .integer value => decimalInt value
  | .number value => writeNumber value
  | .string text => writeString text
  | .array items => 91 :: (joinWith 44 (writeItems canonical items) ++ [93])
  | .object members =>
      123 :: (joinWith 44
        ((orderMembers canonical (writeMembers canonical members)).map writeMember) ++ [125])

def writeItems (canonical : Bool) : List JsonValue → List Bytes
  | [] => []
  | value :: rest => writeValue canonical value :: writeItems canonical rest

def writeMembers (canonical : Bool) : List (Bytes × JsonValue) → List (Bytes × Bytes)
  | [] => []
  | (key, value) :: rest => (key, writeValue canonical value) :: writeMembers canonical rest

end

def toJsonString (value : JsonValue) : Bytes := writeValue false value

def canonicalJsonString (value : JsonValue) : Bytes := writeValue true value

namespace JsonValue

mutual

def same : JsonValue → JsonValue → Bool
  | null, null => true
  | boolean a, boolean b => a = b
  | integer a, integer b => a = b
  | number a, number b => a = b
  | string a, string b => a = b
  | array as, array bs => sameItems as bs
  | object as, object bs => sameMembers as bs
  | _, _ => false

def sameItems : List JsonValue → List JsonValue → Bool
  | [], [] => true
  | a :: as, b :: bs => same a b && sameItems as bs
  | _, _ => false

def sameMembers : List (Bytes × JsonValue) → List (Bytes × JsonValue) → Bool
  | [], [] => true
  | (k, a) :: as, (l, b) :: bs => k = l && same a b && sameMembers as bs
  | _, _ => false

end

mutual

theorem eq_of_same : ∀ {a b : JsonValue}, same a b = true → a = b
  | null, null, _ => rfl
  | boolean _, boolean _, h => by simpa [same] using h
  | integer _, integer _, h => by simpa [same] using h
  | number _, number _, h => by simpa [same] using h
  | string _, string _, h => by simpa [same] using h
  | array _, array _, h => by
      rw [same] at h
      rw [eq_of_sameItems h]
  | object _, object _, h => by
      rw [same] at h
      rw [eq_of_sameMembers h]

theorem eq_of_sameItems : ∀ {as bs : List JsonValue}, sameItems as bs = true → as = bs
  | [], [], _ => rfl
  | _ :: _, _ :: _, h => by
      rw [sameItems, Bool.and_eq_true] at h
      rw [eq_of_same h.1, eq_of_sameItems h.2]

theorem eq_of_sameMembers :
    ∀ {as bs : List (Bytes × JsonValue)}, sameMembers as bs = true → as = bs
  | [], [], _ => rfl
  | (_, _) :: _, (_, _) :: _, h => by
      rw [sameMembers, Bool.and_eq_true, Bool.and_eq_true] at h
      rw [of_decide_eq_true h.1.1, eq_of_same h.1.2, eq_of_sameMembers h.2]

end

mutual

theorem same_refl : ∀ a : JsonValue, same a a = true
  | null => rfl
  | boolean _ => by simp [same]
  | integer _ => by simp [same]
  | number _ => by simp [same]
  | string _ => by simp [same]
  | array items => by rw [same, sameItems_refl items]
  | object members => by rw [same, sameMembers_refl members]

theorem sameItems_refl : ∀ as : List JsonValue, sameItems as as = true
  | [] => rfl
  | a :: as => by rw [sameItems, same_refl a, sameItems_refl as, Bool.and_self]

theorem sameMembers_refl : ∀ as : List (Bytes × JsonValue), sameMembers as as = true
  | [] => rfl
  | (k, a) :: as => by
      rw [sameMembers, same_refl a, sameMembers_refl as, decide_eq_true rfl, Bool.and_self,
        Bool.and_self]

end

instance : DecidableEq JsonValue := fun a b =>
  decidable_of_iff (same a b = true) ⟨eq_of_same, fun h => h ▸ same_refl a⟩

end JsonValue

end Mira
