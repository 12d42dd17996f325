import Mathlib.Data.Nat.Digits.Defs
import Mathlib.Data.Nat.Digits.Lemmas
import Mathlib.Data.List.Basic

/-!
Byte strings and the two ASCII number notations used on them: lowercase
hexadecimal pairs, read in either case, and unsigned decimal numerals bounded by
a word size. Both readers invert their writers. A text is the bytes it is stored
as; the literals are ASCII, so each of their characters is one byte.
-/

abbrev Bytes := List UInt8

namespace Bytes

def ascii (text : String) : Bytes := text.toByteArray.data.toList

/-- Decided along the text, not over all the bytes there are. -/
instance (priority := 2000) decidableAll {holds : UInt8 → Prop} [DecidablePred holds]
    (text : Bytes) : Decidable (∀ b ∈ text, holds b) :=
  List.decidableBAll holds text

/-- The `npos`-style search: the bytes before the first separator and, when it
occurs, the bytes after it. -/
def splitAtByte (separator : UInt8) : Bytes → Bytes × Option Bytes
  | [] => ([], none)
  | b :: rest =>
      if b = separator then ([], some rest)
      else ((b :: (splitAtByte separator rest).1), (splitAtByte separator rest).2)

variable (separator : UInt8)

theorem splitAtByte_append (before after : Bytes) (absent : separator ∉ before) :
    splitAtByte separator (before ++ separator :: after) = (before, some after) := by
  induction before with
  | nil => simp [splitAtByte]
  | cons b rest ih =>
      rw [List.mem_cons, not_or] at absent
      have hb : b ≠ separator := fun e => absent.1 e.symm
      simp [splitAtByte, hb, ih absent.2]

theorem splitAtByte_none (text : Bytes) (absent : separator ∉ text) :
    splitAtByte separator text = (text, none) := by
  induction text with
  | nil => rfl
  | cons b rest ih =>
      rw [List.mem_cons, not_or] at absent
      have hb : b ≠ separator := fun e => absent.1 e.symm
      simp [splitAtByte, hb, ih absent.2]

def hexDigit (nibble : Nat) : UInt8 :=
  if nibble < 10 then UInt8.ofNat (48 + nibble) else UInt8.ofNat (87 + nibble)

def hexValue (c : UInt8) : Option Nat :=
  if 48 ≤ c ∧ c ≤ 57 then some (c.toNat - 48)
  else if 97 ≤ c ∧ c ≤ 102 then some (c.toNat - 97 + 10)
  else if 65 ≤ c ∧ c ≤ 70 then some (c.toNat - 65 + 10)
  else none

def hexByte (b : UInt8) : Bytes := [hexDigit (b.toNat / 16), hexDigit (b.toNat % 16)]

def toHex (bytes : Bytes) : Bytes := bytes.flatMap hexByte

/-- Reads pairs of digits; an odd digit or a foreign character refuses all. -/
def ofHex : Bytes → Option Bytes
  | [] => some []
  | [_] => none
  | high :: low :: rest =>
      match hexValue high, hexValue low, ofHex rest with
      | some h, some l, some tail => some (UInt8.ofNat (h * 16 + l) :: tail)
      | _, _, _ => none

theorem hexValue_hexDigit : ∀ nibble < 16, hexValue (hexDigit nibble) = some nibble := by
  decide

variable (bytes : Bytes)

theorem ofHex_toHex : ofHex (toHex bytes) = some bytes := by
  induction bytes with
  | nil => rfl
  | cons b rest ih =>
      have bound : b.toNat < 256 := b.toNat_lt
      have high := hexValue_hexDigit (b.toNat / 16) (by omega)
      have low := hexValue_hexDigit (b.toNat % 16) (by omega)
      have whole : b.toNat / 16 * 16 + b.toNat % 16 = b.toNat := by omega
      simp only [toHex, List.flatMap_cons, hexByte, List.cons_append, List.nil_append] at ih ⊢
      simp only [ofHex, high, low, ih, whole, UInt8.ofNat_toNat]

theorem length_toHex : (toHex bytes).length = 2 * bytes.length := by
  induction bytes with
  | nil => rfl
  | cons b rest ih =>
      simp only [toHex, List.flatMap_cons, List.length_append, hexByte, List.length_cons,
        List.length_nil] at ih ⊢
      omega

theorem not_mem_toHex {c : UInt8} (foreign : ∀ nibble < 16, hexDigit nibble ≠ c) (bytes : Bytes) :
    c ∉ toHex bytes := by
  intro present
  obtain ⟨b, _, digit⟩ := List.mem_flatMap.mp present
  have bound : b.toNat < 256 := b.toNat_lt
  simp only [hexByte, List.mem_cons, List.not_mem_nil, or_false] at digit
  cases digit with
  | inl high => exact foreign _ (by omega) high.symm
  | inr low => exact foreign _ (by omega) low.symm

def decimalDigit (d : Nat) : UInt8 := UInt8.ofNat (48 + d)

def isDigit (c : UInt8) : Bool := 48 ≤ c && c ≤ 57

def digitValue (c : UInt8) : Nat := c.toNat - 48

/-- The numeral without leading zeros, as `std::to_string` writes it. -/
def decimal (n : Nat) : Bytes :=
  if n = 0 then [48] else (Nat.digits 10 n).reverse.map decimalDigit

def decimalValue (digits : Bytes) : Nat :=
  digits.foldl (fun value c => value * 10 + digitValue c) 0

/-- A signed numeral. -/
def decimalInt (n : Int) : Bytes :=
  if n < 0 then 45 :: decimal n.natAbs else decimal n.natAbs

/-- Reads a whole unsigned numeral below the bound, as `std::from_chars` does when
the caller insists that every character was consumed. -/
def ofDecimal (bound : Nat) (text : Bytes) : Option Nat :=
  if text ≠ [] ∧ text.all isDigit ∧ decimalValue text < bound then some (decimalValue text)
  else none

theorem isDigit_decimalDigit : ∀ d < 10, isDigit (decimalDigit d) = true := by
  decide

theorem digitValue_decimalDigit : ∀ d < 10, digitValue (decimalDigit d) = d := by
  decide

variable (n : Nat)

theorem decimal_ne_nil : decimal n ≠ [] := by
  unfold decimal
  split
  · simp
  · next h => simpa [Nat.digits_eq_nil_iff_eq_zero] using h

theorem all_isDigit_decimal : (decimal n).all isDigit = true := by
  unfold decimal
  split
  · rfl
  · rw [List.all_eq_true]
    intro c hc
    obtain ⟨d, hd, rfl⟩ := List.mem_map.mp hc
    exact isDigit_decimalDigit d (Nat.digits_lt_base (by decide) (List.mem_reverse.mp hd))

theorem decimalValue_decimal : decimalValue (decimal n) = n := by
  unfold decimal
  split
  · next h => simp [h, decimalValue, digitValue]
  · have fold : ∀ ds : List Nat, (∀ d ∈ ds, d < 10) →
        decimalValue (ds.reverse.map decimalDigit) = Nat.ofDigits 10 ds := by
      intro ds
      induction ds with
      | nil => intro _; rfl
      | cons d rest ih =>
          intro small
          have hd := digitValue_decimalDigit d (small d (by simp))
          have hrest := ih fun x hx => small x (by simp [hx])
          simp only [decimalValue, List.reverse_cons, List.map_append, List.foldl_append,
            List.map_cons, List.map_nil, List.foldl_cons, List.foldl_nil] at hrest ⊢
          rw [hrest, hd, Nat.ofDigits_cons]
          ring
    rw [fold _ fun d hd => Nat.digits_lt_base (by decide) hd, Nat.ofDigits_digits]

theorem ofDecimal_decimal (bound n : Nat) (small : n < bound) :
    ofDecimal bound (decimal n) = some n := by
  have value := decimalValue_decimal n
  simp [ofDecimal, decimal_ne_nil, all_isDigit_decimal, value, small]

theorem length_decimal_le {n digits : Nat} (some_ : 0 < digits) (small : n < 10 ^ digits) :
    (decimal n).length ≤ digits := by
  rw [decimal]
  split
  · exact some_
  · next positive =>
      rw [List.length_map, List.length_reverse]
      exact (Nat.digits_length_le_iff (by decide) n).mpr small

end Bytes
