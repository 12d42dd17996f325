import Mathlib.Tactic.Linarith
import Mathlib.Tactic.Positivity
import Mathlib.Tactic.FieldSimp
import Mathlib.Tactic.Ring
import Mira.Json.RoundTrip

/-!
Numbers and strings are told apart by their texts. Seventeen significant digits keep a number
within half a unit of the last digit, and two finite binary64 values are further apart than
what both of them can lose. A string is written by a machine with one counter, and the text
determines every state the machine goes through.
-/

namespace Mira
open Bytes

/-- The finite values of binary64. -/
def IsBinary64 (value : Rat) : Prop :=
  ∃ mantissa exponent : Int, |mantissa| < 2 ^ 53 ∧ -1074 ≤ exponent ∧ exponent ≤ 971 ∧
    value = mantissa * (2 : Rat) ^ exponent

theorem roundHalfEven_near (q : Rat) : |(roundHalfEven q : Rat) - q| ≤ 1 / 2 := by
  have low := Int.floor_le q
  have high := Int.lt_floor_add_one q
  have same : q.floor = ⌊q⌋ := rfl
  simp only [roundHalfEven, same]
  rw [abs_le]
  split_ifs with below above even
  · constructor <;> linarith
  · push_cast
    constructor <;> linarith
  · constructor <;> linarith
  · push_cast
    constructor <;> linarith

variable {q : Rat}

theorem roundHalfEven_mono_int {low high : Int} (above : (low : Rat) ≤ q) (below : q ≤ high) :
    low ≤ roundHalfEven q ∧ roundHalfEven q ≤ high := by
  have near := abs_le.mp (roundHalfEven_near q)
  have under : (low : Rat) - 1 < roundHalfEven q := by linarith
  have upper : (roundHalfEven q : Rat) < high + 1 := by linarith
  have under' : low - 1 < roundHalfEven q := by exact_mod_cast under
  have upper' : roundHalfEven q < high + 1 := by exact_mod_cast upper
  omega

theorem powRat_eq (base : Nat) (e : Int) : powRat base e = (base : Rat) ^ e := by
  rw [powRat]
  split
  · next nonneg =>
      obtain ⟨n, rfl⟩ := Int.eq_ofNat_of_zero_le nonneg
      simp
  · next negative =>
      obtain ⟨n, rfl⟩ : ∃ n : Nat, e = -n := ⟨(-e).toNat, by omega⟩
      simp

theorem logFloor_bounds {base : Nat} (large : 1 < base) (positive : 0 < q) :
    (base : Rat) ^ logFloor base q ≤ q ∧ q < (base : Rat) ^ (logFloor base q + 1) := by
  have num : 0 < q.num := Rat.num_pos.mpr positive
  have one : (1 : Rat) < base := by exact_mod_cast large
  have some' : (base : Rat) ≠ 0 := by linarith
  obtain ⟨n, numerator⟩ := Int.eq_ofNat_of_zero_le num.le
  have some_ : n ≠ 0 := by omega
  have den : q.den ≠ 0 := q.den_nz
  have value : q = (n : Rat) / q.den := by
    have parts := (Rat.num_div_den q).symm
    rw [numerator, Int.cast_natCast] at parts
    exact parts
  have lowN : (base : Rat) ^ Nat.log base n ≤ n := by exact_mod_cast Nat.pow_log_le_self base some_
  have highN : (n : Rat) < (base : Rat) ^ (Nat.log base n + 1) := by
    exact_mod_cast Nat.lt_pow_succ_log_self large n
  have lowD : (base : Rat) ^ Nat.log base q.den ≤ q.den := by
    exact_mod_cast Nat.pow_log_le_self base den
  have highD : (q.den : Rat) < (base : Rat) ^ (Nat.log base q.den + 1) := by
    exact_mod_cast Nat.lt_pow_succ_log_self large q.den
  have posD : (0 : Rat) < q.den := by exact_mod_cast Nat.pos_of_ne_zero den
  have above : q < (base : Rat) ^ ((Nat.log base n : Int) - Nat.log base q.den + 1) := by
    refine lt_of_eq_of_lt value ?_
    rw [div_lt_iff₀ posD]
    have split : (base : Rat) ^ (Nat.log base n + 1) =
        (base : Rat) ^ ((Nat.log base n : Int) - Nat.log base q.den + 1) * (base : Rat) ^ Nat.log base q.den := by
      rw [← zpow_natCast, ← zpow_natCast, ← zpow_add₀ some']
      congr 1
      push_cast
      ring
    rw [split] at highN
    exact highN.trans_le (mul_le_mul_of_nonneg_left lowD (zpow_pos (by linarith) _).le)
  have below : (base : Rat) ^ ((Nat.log base n : Int) - Nat.log base q.den - 1) ≤ q := by
    refine le_of_le_of_eq ?_ value.symm
    rw [le_div_iff₀ posD]
    have split : (base : Rat) ^ Nat.log base n =
        (base : Rat) ^ ((Nat.log base n : Int) - Nat.log base q.den - 1) * (base : Rat) ^ (Nat.log base q.den + 1) := by
      rw [← zpow_natCast, ← zpow_natCast, ← zpow_add₀ some']
      congr 1
      push_cast
      ring
    rw [split] at lowN
    exact (mul_le_mul_of_nonneg_left highD.le (zpow_pos (by linarith) _).le).trans lowN
  have estimate : logFloor base q =
      if (base : Rat) ^ ((Nat.log base n : Int) - Nat.log base q.den) ≤ q then
        (Nat.log base n : Int) - Nat.log base q.den
      else (Nat.log base n : Int) - Nat.log base q.den - 1 := by
    simp only [logFloor, powRat_eq, numerator, Int.toNat_natCast]
  rw [estimate]
  split
  · next reached => exact ⟨reached, above⟩
  · next missed =>
      rw [Int.sub_add_cancel]
      exact ⟨below, not_le.mp missed⟩

theorem decimalValue_foldl (digits : Bytes) (start : Nat) :
    digits.foldl (fun value c => value * 10 + digitValue c) start =
      start * 10 ^ digits.length + decimalValue digits := by
  rw [decimalValue]
  induction digits generalizing start with
  | nil => simp
  | cons c digits ih =>
      rw [List.foldl_cons, List.foldl_cons, ih, ih (0 * 10 + digitValue c), List.length_cons,
        pow_succ]
      ring

theorem decimalValue_append (first second : Bytes) :
    decimalValue (first ++ second) =
      decimalValue first * 10 ^ second.length + decimalValue second := by
  rw [decimalValue, List.foldl_append, decimalValue_foldl]
  rfl

theorem decimalValue_zeros (count : Nat) : decimalValue (List.replicate count 48) = 0 := by
  induction count with
  | zero => rfl
  | succ count ih =>
      have zero : decimalValue [48] = 0 := rfl
      rw [List.replicate_succ, ← List.singleton_append, decimalValue_append, ih, zero,
        Nat.zero_mul]

variable {digits : Bytes}

theorem decimalValue_lt (all : digits.all isDigit = true) :
    decimalValue digits < 10 ^ digits.length := by
  induction digits using List.reverseRecOn with
  | nil => decide
  | append_singleton digits c ih =>
      rw [List.all_append, Bool.and_eq_true] at all
      have own : digitValue c < 10 := by
        have digit : isDigit c = true := by simpa using all.2
        simp only [isDigit, Bool.and_eq_true, decide_eq_true_eq, UInt8.le_iff_toNat_le] at digit
        have high : (57 : UInt8).toNat = 57 := rfl
        rw [digitValue]
        omega
      have value : decimalValue [c] = digitValue c := by simp [decimalValue]
      have earlier := ih all.1
      rw [decimalValue_append, value, List.length_append, List.length_singleton, pow_succ]
      omega

theorem stripTrailingZeros_spec (digits : Bytes) :
    ∃ count, digits = stripTrailingZeros digits ++ List.replicate count 48 := by
  have zeros : ∀ c ∈ digits.reverse.takeWhile (· = 48), c = 48 := by
    intro c held
    have all := List.all_takeWhile (p := fun c : UInt8 => decide (c = 48)) (l := digits.reverse)
    simpa using List.all_eq_true.mp all c held
  refine ⟨(digits.reverse.takeWhile (· = 48)).length, ?_⟩
  have whole := congrArg List.reverse (List.takeWhile_append_dropWhile
    (p := fun c : UInt8 => decide (c = 48)) (l := digits.reverse))
  rw [List.reverse_append, List.reverse_reverse, List.eq_replicate_of_mem zeros,
    List.reverse_replicate] at whole
  exact whole.symm

def exponentOf : Bytes → Int
  | 101 :: 45 :: digits => -(decimalValue digits : Int)
  | 101 :: 43 :: digits => decimalValue digits
  | _ => 0

def unsignedText (text : Bytes) : Rat :=
  let whole := text.takeWhile isDigit
  let rest := text.dropWhile isDigit
  if rest.head? = some 46 then
    let part := (rest.drop 1).takeWhile isDigit
    decimalValue (whole ++ part) *
      (10 : Rat) ^ (exponentOf ((rest.drop 1).dropWhile isDigit) - part.length)
  else decimalValue whole * (10 : Rat) ^ exponentOf rest

@[simp] theorem exponentOf_nil : exponentOf [] = 0 := rfl

def decimalText (text : Bytes) : Rat :=
  if text.head? = some 45 then -unsignedText (text.drop 1) else unsignedText text

def pointed (whole part : Bytes) : Bytes :=
  if part = [] then whole else whole ++ ascii "." ++ part

variable {rest : Bytes}

theorem span_digits (all : digits.all isDigit = true) (ends : ∀ c ∈ rest.head?, isDigit c = false) :
    (digits ++ rest).takeWhile isDigit = digits ∧ (digits ++ rest).dropWhile isDigit = rest := by
  have each : ∀ c ∈ digits, isDigit c = true := List.all_eq_true.mp all
  rw [List.takeWhile_append_of_pos each, List.dropWhile_append_of_pos each]
  cases rest with
  | nil => simp
  | cons c rest =>
      have stop := ends c rfl
      simp [stop]

variable {whole part exponent : Bytes}

theorem unsignedText_pointed (wholeDigits : whole.all isDigit = true)
    (partDigits : part.all isDigit = true) (start : ∀ c ∈ exponent.head?, c = 101) :
    unsignedText (pointed whole part ++ exponent) =
      decimalValue (whole ++ part) * (10 : Rat) ^ (exponentOf exponent - part.length) := by
  have stops : ∀ c ∈ exponent.head?, isDigit c = false := by
    intro c held
    rw [start c held]
    decide
  rw [pointed]
  split
  · next none_ =>
      obtain ⟨taken, dropped⟩ := span_digits wholeDigits stops
      have plain : exponent.head? ≠ some 46 := by
        intro point
        have other := start 46 point
        cases other
      simp only [unsignedText, taken, dropped]
      rw [if_neg plain, none_, List.append_nil, List.length_nil, Nat.cast_zero, sub_zero]
  · have shape : whole ++ ascii "." ++ part ++ exponent = whole ++ (46 :: (part ++ exponent)) := by
      have point : ascii "." = [46] := rfl
      simp only [point, List.append_assoc, List.cons_append, List.nil_append]
    obtain ⟨taken, dropped⟩ := @span_digits whole (46 :: (part ++ exponent)) wholeDigits
      (by intro c held; cases held; decide)
    obtain ⟨taken', dropped'⟩ := span_digits partDigits stops
    rw [shape]
    simp only [unsignedText, taken, dropped, List.head?_cons, List.drop_one, List.tail_cons,
      taken', dropped', if_true]

theorem all_stripTrailingZeros (all : digits.all isDigit = true) :
    (stripTrailingZeros digits).all isDigit = true := by
  obtain ⟨count, whole⟩ := stripTrailingZeros_spec digits
  rw [whole, List.all_append, Bool.and_eq_true] at all
  exact all.1

theorem unsignedText_stripped (wholeDigits : whole.all isDigit = true)
    (partDigits : part.all isDigit = true) (start : ∀ c ∈ exponent.head?, c = 101) :
    unsignedText (pointed whole (stripTrailingZeros part) ++ exponent) =
      decimalValue (whole ++ part) * (10 : Rat) ^ (exponentOf exponent - part.length) := by
  obtain ⟨count, shape⟩ := stripTrailingZeros_spec part
  rw [unsignedText_pointed wholeDigits (all_stripTrailingZeros partDigits) start]
  have value : decimalValue (whole ++ part) =
      decimalValue (whole ++ stripTrailingZeros part) * 10 ^ count := by
    rw [shape, ← List.append_assoc, decimalValue_append, decimalValue_zeros, List.length_replicate,
      Nat.add_zero, ← shape]
  have length : (part.length : Int) = (stripTrailingZeros part).length + count := by
    have lengths := congrArg List.length shape
    rw [List.length_append, List.length_replicate] at lengths
    omega
  have ten : (10 : Rat) ≠ 0 := by norm_num
  rw [value, length]
  push_cast
  rw [mul_assoc, ← zpow_natCast (10 : Rat) count, ← zpow_add₀ ten]
  congr 2
  ring

theorem length_decimal {n count : Nat} (low : 10 ^ count ≤ n) (high : n < 10 ^ (count + 1)) :
    (decimal n).length = count + 1 := by
  have short := length_decimal_le (Nat.succ_pos count) high
  have bound := decimalValue_lt (all_isDigit_decimal n)
  rw [decimalValue_decimal] at bound
  have long : count < (decimal n).length := by
    by_contra small
    have grows := Nat.pow_le_pow_right (by decide : 0 < 10) (not_lt.mp small)
    omega
  omega

theorem all_take_drop (all : digits.all isDigit = true) (count : Nat) :
    (digits.take count).all isDigit = true ∧ (digits.drop count).all isDigit = true := by
  have each := List.all_eq_true.mp all
  exact ⟨List.all_eq_true.mpr fun c held => each c (List.mem_of_mem_take held),
    List.all_eq_true.mpr fun c held => each c (List.mem_of_mem_drop held)⟩

variable (x : Int)

theorem head_exponent (digits : Bytes) :
    ∀ c ∈ (ascii (if x < 0 then "e-" else "e+") ++ digits).head?, c = 101 := by
  have text : ascii (if x < 0 then "e-" else "e+") =
      101 :: (if x < 0 then [45] else [43]) := by
    split <;> rfl
  intro c held
  rw [text] at held
  cases held
  rfl

theorem exponentOf_written :
    exponentOf (ascii (if x < 0 then "e-" else "e+") ++
      if (decimal x.natAbs).length < 2 then 48 :: decimal x.natAbs else decimal x.natAbs) = x := by
  have value : decimalValue (if (decimal x.natAbs).length < 2 then 48 :: decimal x.natAbs
      else decimal x.natAbs) = x.natAbs := by
    split
    · rw [← List.singleton_append, decimalValue_append, decimalValue_decimal]
      simp [decimalValue, digitValue]
    · exact decimalValue_decimal _
  generalize (if (decimal x.natAbs).length < 2 then 48 :: decimal x.natAbs
      else decimal x.natAbs) = digits at value
  split
  · have text : ascii "e-" ++ digits = 101 :: 45 :: digits := rfl
    rw [text, exponentOf, value]
    omega
  · have text : ascii "e+" ++ digits = 101 :: 43 :: digits := rfl
    rw [text, exponentOf, value]
    omega

/-- Significant digits, the first of which stands for that power of ten. -/
def generalText (digits : Bytes) (x : Int) : Bytes :=
  if x < -4 ∨ 17 ≤ x then
    pointed (digits.take 1) (stripTrailingZeros (digits.drop 1)) ++
      ascii (if x < 0 then "e-" else "e+") ++
      if (decimal x.natAbs).length < 2 then 48 :: decimal x.natAbs else decimal x.natAbs
  else if x < 0 then
    pointed [48] (stripTrailingZeros (List.replicate (-x - 1).toNat 48 ++ digits))
  else pointed (digits.take (x + 1).toNat) (stripTrailingZeros (digits.drop (x + 1).toNat))

/-- The seventeen digits of a positive number, and the power of the first of them. -/
def significant (q : Rat) : Nat × Int :=
  let rounded := roundHalfEven (q * powRat 10 (16 - logFloor 10 q))
  (if rounded = 10 ^ 17 then 10 ^ 16 else rounded.toNat,
    if rounded = 10 ^ 17 then logFloor 10 q + 1 else logFloor 10 q)

theorem formatGeneral_eq (q : Rat) :
    formatGeneral q = generalText (decimal (significant q).1) (significant q).2 := rfl

theorem unsignedText_general (all : digits.all isDigit = true) (seventeen : digits.length = 17) :
    unsignedText (generalText digits x) = decimalValue digits * (10 : Rat) ^ (x - 16) := by
  rw [generalText]
  split
  · obtain ⟨taken, dropped⟩ := all_take_drop all 1
    rw [List.append_assoc, unsignedText_stripped taken dropped (head_exponent x _),
      exponentOf_written,
      List.take_append_drop, List.length_drop, seventeen]
    norm_num
  · next fixed =>
      split
      · next small =>
          have zeros :
              (List.replicate (-x - 1).toNat (48 : UInt8) ++ digits).all isDigit = true := by
            rw [List.all_append, all, Bool.and_true, List.all_eq_true]
            intro c held
            rw [(List.mem_replicate.mp held).2]
            decide
          have text := @unsignedText_stripped [48] _ [] (by decide) zeros
            (by simp)
          rw [List.append_nil] at text
          rw [text, decimalValue_append, decimalValue_append, decimalValue_zeros,
            List.length_append, List.length_replicate, seventeen]
          have zero : decimalValue [48] = 0 := rfl
          have width : exponentOf [] - (((-x - 1).toNat + 17 : Nat) : Int) = x - 16 := by
            rw [exponentOf_nil]
            omega
          rw [zero, width, Nat.zero_mul, Nat.zero_mul, Nat.zero_add, Nat.zero_add]
      · next large =>
          obtain ⟨taken, dropped⟩ := all_take_drop all (x + 1).toNat
          have text := @unsignedText_stripped _ _ [] taken dropped (by simp)
          rw [List.append_nil] at text
          rw [text, List.take_append_drop, List.length_drop, seventeen]
          have width : exponentOf [] - ((17 - (x + 1).toNat : Nat) : Int) = x - 16 := by
            rw [exponentOf_nil]
            omega
          rw [width]

theorem formatGeneral_near (positive : 0 < q) :
    |unsignedText (formatGeneral q) - q| ≤ 1 / 2 * (1 / 10 ^ 16) * q := by
  obtain ⟨low, high⟩ := logFloor_bounds (by decide : 1 < 10) positive
  rw [Nat.cast_ofNat] at low high
  have ten : (10 : Rat) ≠ 0 := by norm_num
  set guess := logFloor 10 q with guessed
  have scaled : q * powRat 10 (16 - guess) = q * (10 : Rat) ^ (16 - guess) := by
    rw [powRat_eq, Nat.cast_ofNat]
  have scale : (0 : Rat) < 10 ^ (16 - guess) := zpow_pos (by norm_num) _
  have lower : ((10 ^ 16 : Int) : Rat) ≤ q * (10 : Rat) ^ (16 - guess) := by
    have step := mul_le_mul_of_nonneg_right low scale.le
    rw [← zpow_add₀ ten, add_sub_cancel] at step
    exact_mod_cast step
  have upper : q * (10 : Rat) ^ (16 - guess) ≤ ((10 ^ 17 : Int) : Rat) := by
    have step := mul_le_mul_of_nonneg_right high.le scale.le
    rw [← zpow_add₀ ten, show guess + 1 + (16 - guess) = 17 by ring] at step
    exact_mod_cast step
  obtain ⟨above, below⟩ := roundHalfEven_mono_int lower upper
  have near := roundHalfEven_near (q * (10 : Rat) ^ (16 - guess))
  have text : unsignedText (formatGeneral q) =
      roundHalfEven (q * (10 : Rat) ^ (16 - guess)) * (10 : Rat) ^ (guess - 16) := by
    have digits : significant q = (if roundHalfEven (q * (10 : Rat) ^ (16 - guess)) = 10 ^ 17 then
          10 ^ 16 else (roundHalfEven (q * (10 : Rat) ^ (16 - guess))).toNat,
        if roundHalfEven (q * (10 : Rat) ^ (16 - guess)) = 10 ^ 17 then guess + 1 else guess) := by
      rw [← scaled]
      rfl
    generalize roundHalfEven (q * (10 : Rat) ^ (16 - guess)) = rounded at above below digits ⊢
    have seventeen : (decimal (significant q).1).length = 17 := by
      rw [digits]
      dsimp only
      split
      · exact @length_decimal _ 16 (by norm_num) (by norm_num)
      · next kept => exact @length_decimal _ 16 (by omega) (by omega)
    rw [formatGeneral_eq, unsignedText_general _ (all_isDigit_decimal _) seventeen,
      decimalValue_decimal, digits]
    dsimp only
    split
    · next carried =>
        rw [carried, show guess + 1 - 16 = 1 + (guess - 16) by ring, zpow_add₀ ten]
        push_cast
        ring
    · have same : ((rounded.toNat : Nat) : Int) = rounded := Int.toNat_of_nonneg (by omega)
      have back : ((rounded.toNat : Nat) : Rat) = rounded := by
        rw [← Int.cast_natCast, same]
      rw [back]
  have unit : (0 : Rat) < 10 ^ (guess - 16) := zpow_pos (by norm_num) _
  have whole : q = q * (10 : Rat) ^ (16 - guess) * (10 : Rat) ^ (guess - 16) := by
    rw [mul_assoc, ← zpow_add₀ ten]
    simp
  have small : (10 : Rat) ^ (guess - 16) ≤ 1 / 10 ^ 16 * q := by
    rw [zpow_sub₀ ten]
    have same : ((10 : Rat) ^ (16 : Int)) = 10 ^ 16 := by norm_num
    rw [same, div_eq_mul_one_div, mul_comm]
    exact mul_le_mul_of_nonneg_left low (by norm_num)
  calc |unsignedText (formatGeneral q) - q|
      = |(roundHalfEven (q * (10 : Rat) ^ (16 - guess)) : Rat) - q * (10 : Rat) ^ (16 - guess)| *
          (10 : Rat) ^ (guess - 16) := by
        have apart : roundHalfEven (q * (10 : Rat) ^ (16 - guess)) * (10 : Rat) ^ (guess - 16) - q =
            (roundHalfEven (q * (10 : Rat) ^ (16 - guess)) - q * (10 : Rat) ^ (16 - guess)) *
              (10 : Rat) ^ (guess - 16) := by
          rw [sub_mul, ← whole]
        rw [text, apart, abs_mul, abs_of_pos unit]
    _ ≤ 1 / 2 * (10 : Rat) ^ (guess - 16) := mul_le_mul_of_nonneg_right near unit.le
    _ ≤ 1 / 2 * (1 / 10 ^ 16) * q := by
        rw [mul_assoc]
        exact mul_le_mul_of_nonneg_left small (by norm_num)

theorem head_digit {text : Bytes} (all : text.all isDigit = true) (present : text ≠ []) :
    (text ++ rest).head? ≠ some 45 := by
  obtain ⟨c, text, rfl⟩ := List.exists_cons_of_ne_nil present
  rw [List.all_cons, Bool.and_eq_true] at all
  intro minus
  rw [List.cons_append, List.head?_cons, Option.some.injEq] at minus
  rw [minus] at all
  exact absurd all.1 (by decide)

theorem head_pointed (all : whole.all isDigit = true) (present : whole ≠ []) :
    (pointed whole part ++ rest).head? ≠ some 45 := by
  rw [pointed]
  split
  · exact head_digit all present
  · rw [List.append_assoc, List.append_assoc]
    exact head_digit all present

theorem head_general (all : digits.all isDigit = true) (present : digits ≠ []) :
    (generalText digits x).head? ≠ some 45 := by
  have some_ (count : Nat) (positive : 0 < count) : digits.take count ≠ [] := by
    intro none_
    rcases List.take_eq_nil_iff.mp none_ with zero | empty
    · omega
    · exact present empty
  rw [generalText]
  split
  · rw [List.append_assoc]
    exact head_pointed (all_take_drop all 1).1 (some_ 1 (by decide))
  · split
    · have shown := @head_pointed [] [48]
        (stripTrailingZeros (List.replicate (-x - 1).toNat 48 ++ digits)) (by decide) (by decide)
      rwa [List.append_nil] at shown
    · have shown := @head_pointed [] _
        (stripTrailingZeros (digits.drop (x + 1).toNat)) (all_take_drop all (x + 1).toNat).1
        (some_ (x + 1).toNat (by omega))
      rwa [List.append_nil] at shown

theorem decimalText_integer (n : Int) : decimalText (decimalInt n) = n := by
  have plain (m : Nat) : unsignedText (decimal m) = m := by
    have text := @unsignedText_pointed (decimal m) [] []
      (all_isDigit_decimal m) (by decide) (by simp)
    simpa [pointed, decimalValue_decimal] using text
  rw [decimalInt]
  split
  · next negative =>
      have value : ((n.natAbs : Nat) : Int) = -n := by omega
      rw [decimalText, List.head?_cons, if_pos rfl, List.drop_one, List.tail_cons, plain,
        ← Int.cast_natCast, value, Int.cast_neg, neg_neg]
  · next nonneg =>
      have value : ((n.natAbs : Nat) : Int) = n := by omega
      have head := @head_digit [] _ (all_isDigit_decimal n.natAbs) (decimal_ne_nil _)
      rw [List.append_nil] at head
      rw [decimalText, if_neg head, plain, ← Int.cast_natCast, value]

theorem writeNumber_near (value : Rat) :
    |decimalText (writeNumber value) - value| ≤ 1 / 2 * (1 / 10 ^ 16) * |value| := by
  rw [writeNumber]
  split
  · next whole =>
      have exact_ : decimalText (decimalInt value.floor) = value := by
        rw [decimalText_integer, ← whole.2]
      rw [exact_, sub_self, abs_zero]
      exact mul_nonneg (by norm_num) (abs_nonneg value)
  · next other =>
      split
      · next negative =>
          have near := formatGeneral_near (neg_pos.mpr negative)
          rw [decimalText, List.head?_cons, if_pos rfl, List.drop_one, List.tail_cons,
            abs_of_neg negative]
          rw [sub_neg_eq_add] at near
          rw [← neg_add', abs_neg]
          exact near
      · next nonneg =>
          have positive : 0 < value := by
            refine lt_of_le_of_ne (not_lt.mp nonneg) ?_
            rintro rfl
            exact other ⟨by norm_num, rfl⟩
          have near := formatGeneral_near positive
          rw [decimalText, formatGeneral_eq, if_neg (head_general _ (all_isDigit_decimal _)
            (decimal_ne_nil _)), ← formatGeneral_eq, abs_of_pos positive]
          exact near

variable {second : Rat}

theorem IsBinary64.apart {first : Rat} (binary : IsBinary64 first) (binary' : IsBinary64 second)
    (differ : first ≠ second) :
    |first| < 2 ^ 53 * |first - second| ∨ |second| < 2 ^ 53 * |first - second| := by
  obtain ⟨m, e, small, _, _, rfl⟩ := binary
  obtain ⟨n, f, small', _, _, rfl⟩ := binary'
  have two : (2 : Rat) ≠ 0 := by norm_num
  -- The difference is a multiple of the smaller unit, and no mantissa reaches 2 ^ 53.
  have multiple {m n e f : Int} (small : |m| < 2 ^ 53) (below : e ≤ f)
      (differ : (m : Rat) * 2 ^ e ≠ n * 2 ^ f) :
      |(m : Rat) * 2 ^ e| < 2 ^ 53 * |(m : Rat) * 2 ^ e - n * 2 ^ f| := by
    obtain ⟨d, rfl⟩ : ∃ d : Nat, f = d + e := ⟨(f - e).toNat, by omega⟩
    have unit : (0 : Rat) < 2 ^ e := zpow_pos (by norm_num) _
    have difference : (m : Rat) * 2 ^ e - n * 2 ^ ((d : Int) + e) =
        ((m - n * 2 ^ d : Int) : Rat) * 2 ^ e := by
      rw [zpow_add₀ two, zpow_natCast]
      push_cast
      ring
    have some_ : m - n * 2 ^ d ≠ 0 := by
      intro none_
      rw [none_, Int.cast_zero, zero_mul, sub_eq_zero] at difference
      exact differ difference
    have whole : (1 : Rat) ≤ |((m - n * 2 ^ d : Int) : Rat)| := by
      exact_mod_cast Int.one_le_abs some_
    have bound : |(m : Rat)| < 2 ^ 53 := by exact_mod_cast small
    rw [difference, abs_mul, abs_mul, abs_of_pos unit, ← mul_assoc]
    refine mul_lt_mul_of_pos_right (bound.trans_le ?_) unit
    linarith
  rcases le_total e f with below | below
  · exact .inl (multiple small below differ)
  · have there := multiple small' below differ.symm
    rw [abs_sub_comm] at there
    exact .inr there

theorem writeNumber_injective {first : Rat} (binary : IsBinary64 first)
    (binary' : IsBinary64 second) (same : writeNumber first = writeNumber second) :
    first = second := by
  by_contra differ
  have near := writeNumber_near first
  have near' := writeNumber_near second
  rw [same] at near
  have between : |first - second| ≤ |decimalText (writeNumber second) - first| +
      |decimalText (writeNumber second) - second| := by
    have triangle := abs_sub_le first (decimalText (writeNumber second)) second
    rwa [abs_sub_comm first (decimalText _)] at triangle
  have reach := abs_sub_abs_le_abs_sub first second
  have reach' := abs_sub_abs_le_abs_sub second first
  rw [abs_sub_comm second] at reach'
  have positive : 0 < |first - second| := abs_pos.mpr (sub_ne_zero.mpr differ)
  rcases binary.apart binary' differ with wide | wide <;> linarith

theorem decimalInt_safe {c : UInt8} (digit : isDigit c = false) (minus : c ≠ 45) (n : Int) :
    c ∉ decimalInt n := by
  have plain : c ∉ decimal n.natAbs := by
    intro held
    rw [List.all_eq_true.mp (all_isDigit_decimal n.natAbs) c held] at digit
    cases digit
  rw [decimalInt]
  split
  · exact List.mem_cons.not.mpr (not_or.mpr ⟨minus, plain⟩)
  · exact plain

theorem writeNumber_safe (value : Rat) {c : UInt8} (digit : isDigit c = false)
    (other : c ∉ [45, 46, 101, 43]) : c ∉ writeNumber value := by
  simp only [List.mem_cons, List.not_mem_nil, or_false, not_or] at other
  have digits {text : Bytes} (all : text.all isDigit = true) : c ∉ text := by
    intro held
    rw [List.all_eq_true.mp all c held] at digit
    cases digit
  have pointed_ {whole part : Bytes} (all : whole.all isDigit = true)
      (all' : part.all isDigit = true) : c ∉ pointed whole part := by
    have point : ascii "." = [46] := rfl
    rw [pointed]
    split
    · exact digits all
    · rw [point, List.mem_append, List.mem_append, List.mem_singleton]
      rintro ((held | held) | held)
      · exact digits all held
      · exact other.2.1 held
      · exact digits all' held
  have general (q : Rat) : c ∉ formatGeneral q := by
    have all := all_isDigit_decimal (significant q).1
    have all' := all_isDigit_decimal (significant q).2.natAbs
    have marks : c ∉ ascii (if (significant q).2 < 0 then "e-" else "e+") := by
      have text : ascii (if (significant q).2 < 0 then "e-" else "e+") =
          101 :: (if (significant q).2 < 0 then [45] else [43]) := by
        split <;> rfl
      rw [text, List.mem_cons]
      rintro (held | held)
      · exact other.2.2.1 held
      · split at held
        · exact other.1 (List.mem_singleton.mp held)
        · exact other.2.2.2 (List.mem_singleton.mp held)
    rw [formatGeneral_eq, generalText]
    split
    · rw [List.mem_append, List.mem_append]
      rintro ((held | held) | held)
      · exact pointed_ (all_take_drop all 1).1 (all_stripTrailingZeros (all_take_drop all 1).2) held
      · exact marks held
      · refine digits ?_ held
        split
        · rw [List.all_cons, all']
          rfl
        · exact all'
    · split
      · refine pointed_ (by decide) (all_stripTrailingZeros ?_)
        rw [List.all_append, all, Bool.and_true, List.all_replicate]
        split <;> decide
      · exact pointed_ (all_take_drop all _).1 (all_stripTrailingZeros (all_take_drop all _).2)
  rw [writeNumber]
  split
  · exact decimalInt_safe digit other.1 _
  · split
    · exact List.mem_cons.not.mpr (not_or.mpr ⟨other.1, general _⟩)
    · exact general _

theorem decimalInt_injective {first second : Int} (same : decimalInt first = decimalInt second) :
    first = second := by
  have value := congrArg decimalText same
  rw [decimalText_integer, decimalText_integer] at value
  exact_mod_cast value

theorem hexByte_injective {first second : UInt8} (same : hexByte first = hexByte second) :
    first = second := by
  have whole : toHex [first] = toHex [second] := by
    simpa [toHex] using same
  have back := congrArg ofHex whole
  rw [ofHex_toHex, ofHex_toHex] at back
  simpa using back

theorem escapeByte_apart {first second : UInt8} {rest' : Bytes}
    (same : escapeByte first ++ rest = escapeByte second ++ rest') :
    first = second ∧ rest = rest' := by
  have known {e b : UInt8} (letter : shortEscape e = some b) : e ≠ 117 := by
    rintro rfl
    cases letter
  have shaped (b : UInt8) : (escapeByte b = [b] ∧ b ≠ 92) ∨
      ∃ e more, escapeByte b = 92 :: e :: more ∧
        ((shortEscape e = some b ∧ more = []) ∨
          (e = 117 ∧ more = 48 :: 48 :: hexByte b)) := by
    rcases escapeByte_cases b with ⟨e, spelled, letter⟩ | ⟨spelled, _⟩ | ⟨spelled, _, _, plain⟩
    · exact .inr ⟨e, [], spelled, .inl ⟨letter, rfl⟩⟩
    · exact .inr ⟨117, _, spelled, .inr ⟨rfl, rfl⟩⟩
    · exact .inl ⟨spelled, plain⟩
  rcases shaped first with ⟨spelled, plain⟩ | ⟨e, more, spelled, how⟩
  · rcases shaped second with ⟨spelled', plain'⟩ | ⟨e', more', spelled', how'⟩
    · rw [spelled, spelled', List.singleton_append, List.singleton_append, List.cons.injEq] at same
      exact same
    · rw [spelled, spelled', List.singleton_append, List.cons_append, List.cons.injEq] at same
      exact absurd same.1 plain
  · rcases shaped second with ⟨spelled', plain'⟩ | ⟨e', more', spelled', how'⟩
    · rw [spelled, spelled', List.singleton_append, List.cons_append, List.cons.injEq] at same
      exact absurd same.1.symm plain'
    · rw [spelled, spelled'] at same
      simp only [List.cons_append, List.cons.injEq, true_and] at same
      obtain ⟨rfl, same⟩ := same
      rcases how with ⟨letter, rfl⟩ | ⟨unicode, rfl⟩
      · rcases how' with ⟨letter', rfl⟩ | ⟨unicode', rfl⟩
        · rw [letter, Option.some.injEq] at letter'
          exact ⟨letter', same⟩
        · exact absurd unicode' (known letter)
      · rcases how' with ⟨letter', rfl⟩ | ⟨unicode', rfl⟩
        · exact absurd unicode (known letter')
        · simp only [List.cons_append, List.cons.injEq, true_and] at same
          obtain ⟨digits, rests⟩ := List.append_inj same rfl
          exact ⟨hexByte_injective digits, rests⟩

theorem writeStringBody_injective {first second : Bytes} (continuation : Nat)
    (same : writeStringBody continuation first = writeStringBody continuation second) :
    first = second := by
  have present (continuation : Nat) (b : UInt8) (rest : Bytes) :
      writeStringBody continuation (b :: rest) ≠ [] := by
    cases continuation with
    | zero =>
        have long := (length_escapeByte b).1
        intro none_
        rw [writeStringBody, List.append_eq_nil_iff] at none_
        rw [none_.1] at long
        cases long
    | succ continuation => exact List.cons_ne_nil _ _
  have nothing (continuation : Nat) : writeStringBody continuation [] = [] := by
    cases continuation <;> rfl
  induction first generalizing second continuation with
  | nil =>
      cases second with
      | nil => rfl
      | cons b rest =>
          rw [nothing] at same
          exact absurd same.symm (present continuation b rest)
  | cons b rest ih =>
      cases second with
      | nil =>
          rw [nothing] at same
          exact absurd same (present continuation b rest)
      | cons b' rest' =>
          cases continuation with
          | zero =>
              obtain ⟨rfl, later⟩ := escapeByte_apart same
              rw [ih _ later]
          | succ continuation =>
              rw [writeStringBody, writeStringBody, List.cons.injEq] at same
              rw [same.1, ih _ same.2]

theorem writeString_injective {first second : Bytes}
    (same : writeString first = writeString second) : first = second := by
  rw [writeString, writeString, List.cons.injEq] at same
  exact writeStringBody_injective 0 (List.append_inj_left' same.2 rfl)

variable {rest' : Bytes}

theorem cut_at {separator : UInt8} {first second : Bytes} (absent : separator ∉ first)
    (absent' : separator ∉ second)
    (same : first ++ separator :: rest = second ++ separator :: rest') :
    first = second ∧ rest = rest' := by
  have split := splitAtByte_append separator first rest absent
  rw [same, splitAtByte_append separator second rest' absent'] at split
  simp only [Prod.mk.injEq, Option.some.injEq] at split
  exact ⟨split.1.symm, split.2.symm⟩

theorem comma_not_mem {text : Bytes} (absent : (44 : UInt8) ∉ text) : 44 ∉ writeString text := by
  have escaped {b : UInt8} (other : b ≠ 44) : (44 : UInt8) ∉ escapeByte b := by
    rcases escapeByte_cases b with ⟨e, spelled, letter⟩ | ⟨spelled, _⟩ | ⟨spelled, _⟩
    · rw [spelled]
      intro held
      simp only [List.mem_cons, List.not_mem_nil, or_false] at held
      rcases held with held | held
      · cases held
      · rw [← held] at letter
        cases letter
    · have digits := not_mem_toHex (c := 44) (by decide) [b]
      simp only [toHex, List.flatMap_cons, List.flatMap_nil, List.append_nil] at digits
      rw [spelled, List.mem_append]
      rintro (held | held)
      · exact absurd held (by decide)
      · exact digits held
    · rw [spelled, List.mem_singleton]
      exact fun same => other same.symm
  have body (continuation : Nat) : (44 : UInt8) ∉ writeStringBody continuation text := by
    induction text generalizing continuation with
    | nil => cases continuation <;> exact List.not_mem_nil
    | cons b rest ih =>
        rw [List.mem_cons, not_or] at absent
        cases continuation with
        | zero =>
            rw [writeStringBody, List.mem_append, not_or]
            exact ⟨escaped fun same => absent.1 same.symm, ih absent.2 _⟩
        | succ continuation =>
            rw [writeStringBody, List.mem_cons, not_or]
            exact ⟨absent.1, ih absent.2 _⟩
  rw [writeString, List.mem_cons, List.mem_append, not_or, not_or]
  exact ⟨by decide, body 0, by decide⟩

theorem writeObject_sorted {members : List (Bytes × JsonValue)} (keys : List Bytes)
    (own : members.map Prod.fst = keys)
    (sorted : keys.Pairwise fun first second => keyLess second first = false) :
    canonicalJsonString (.object members) =
      123 :: (joinWith 44 (members.map fun member =>
        writeString member.1 ++ 58 :: canonicalJsonString member.2) ++ [125]) := by
  have placed : orderMembers true (writeMembers true members) = writeMembers true members := by
    rw [orderMembers, if_pos rfl]
    refine List.Pairwise.insertionSort_eq ?_
    have keys_ : (writeMembers true members).map Prod.fst = keys := by
      rw [writeMembers_eq, List.map_map]
      exact own
    exact List.pairwise_map.mp (keys_ ▸ sorted)
  rw [canonicalJsonString, writeValue, placed, writeMembers_eq, List.map_map]
  rfl

theorem behind_name {name : Bytes} (same : name ++ 58 :: rest = name ++ 58 :: rest') :
    rest = rest' := by
  rw [List.append_cancel_left_eq, List.cons.injEq] at same
  exact same.2

theorem length_writeString_toHex (bytes : Bytes) :
    (writeString (toHex bytes)).length = 2 * bytes.length + 2 := by
  have digit : ∀ nibble < 16, escapeByte (hexDigit nibble) = [hexDigit nibble] ∧
      continuationCount (hexDigit nibble) = 0 := by
    decide
  have body : writeStringBody 0 (toHex bytes) = toHex bytes := by
    induction bytes with
    | nil => rfl
    | cons b rest ih =>
        have bound : b.toNat < 256 := b.toNat_lt
        obtain ⟨high, none_⟩ := digit (b.toNat / 16) (by omega)
        obtain ⟨low, none_'⟩ := digit (b.toNat % 16) (by omega)
        rw [toHex, List.flatMap_cons, ← toHex, hexByte, List.cons_append, List.cons_append,
          writeStringBody, high, none_, List.nil_append, writeStringBody, low, none_', ih]
        rfl
  rw [writeString, body, List.length_cons, List.length_append, length_toHex, List.length_singleton]

end Mira
