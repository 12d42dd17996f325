import Mira.Library.Bytes

/-!
Formatted extraction from a text stream: words, unsigned numbers and quoted strings, each after
the space before it. What was written with a separator behind it is read back.
-/

namespace Extraction
open Bytes

def isSpace (c : UInt8) : Bool := c = 32 || (9 ≤ c && c ≤ 13)

def skipSpace (input : Bytes) : Bytes := input.dropWhile isSpace

def word (input : Bytes) : Option (Bytes × Bytes) :=
  let rest := skipSpace input
  let text := rest.takeWhile fun c => !isSpace c
  if text = [] then none else some (text, rest.dropWhile fun c => !isSpace c)

def digits (bound : Nat) (input : Bytes) : Option (Nat × Bytes) :=
  let text := input.takeWhile isDigit
  if text = [] ∨ bound ≤ decimalValue text then none
  else some (decimalValue text, input.dropWhile isDigit)

/-- An unsigned number; one with a minus sign is the complement. -/
def unsigned (bound : Nat) (input : Bytes) : Option (Nat × Bytes) :=
  match skipSpace input with
  | [] => none
  | sign :: rest =>
      if sign = 45 then
        (digits bound rest).map fun read => ((bound - read.1) % bound, read.2)
      else if sign = 43 then digits bound rest
      else digits bound (sign :: rest)

def escape (c : UInt8) : Bytes := if c = 34 ∨ c = 92 then [92, c] else [c]

def quote (text : Bytes) : Bytes := 34 :: text.flatMap escape ++ [34]

/-- Up to the closing quote; an escaped character stands for itself. -/
def unescape : Bool → Bytes → Option (Bytes × Bytes)
  | _, [] => none
  | true, c :: rest => (unescape false rest).map fun read => (c :: read.1, read.2)
  | false, c :: rest =>
      if c = 92 then unescape true rest
      else if c = 34 then some ([], rest)
      else (unescape false rest).map fun read => (c :: read.1, read.2)

def quoted (input : Bytes) : Option (Bytes × Bytes) :=
  match skipSpace input with
  | [] => none
  | c :: rest => if c = 34 then unescape false rest else word (c :: rest)

variable {text : Bytes}

theorem skipSpace_word {rest : Bytes} (dark : ∀ c ∈ text, isSpace c = false) (some_ : text ≠ []) :
    skipSpace (text ++ rest) = text ++ rest := by
  obtain ⟨first, others, rfl⟩ := List.exists_cons_of_ne_nil some_
  rw [skipSpace, List.cons_append, List.dropWhile_cons_of_neg]
  rw [dark first (.head _)]
  exact Bool.false_ne_true

theorem takeWhile_until (test : UInt8 → Bool) (separator : UInt8) (rest : Bytes)
    (passes : ∀ c ∈ text, test c = true) (stops : test separator = false) :
    (text ++ separator :: rest).takeWhile test = text ∧
      (text ++ separator :: rest).dropWhile test = separator :: rest := by
  induction text with
  | nil =>
      rw [List.nil_append, List.takeWhile_cons_of_neg (by simp [stops]),
        List.dropWhile_cons_of_neg (by simp [stops])]
      exact ⟨rfl, rfl⟩
  | cons first text ih =>
      obtain ⟨taken, dropped⟩ := ih fun c among => passes c (.tail _ among)
      have here := passes first (.head _)
      rw [List.cons_append, List.takeWhile_cons_of_pos here, List.dropWhile_cons_of_pos here, taken,
        dropped]
      exact ⟨rfl, rfl⟩

theorem word_separated {rest : Bytes} (dark : ∀ c ∈ text, isSpace c = false) (some_ : text ≠ []) :
    word (text ++ 32 :: rest) = some (text, 32 :: rest) := by
  obtain ⟨taken, dropped⟩ := takeWhile_until (fun c => !isSpace c) 32 rest
    (fun c among => by rw [dark c among]; rfl) rfl
  rw [word, skipSpace_word dark some_, taken, dropped, if_neg some_]

variable (rest : Bytes)

theorem skipSpace_separator : skipSpace (32 :: rest) = skipSpace rest := rfl

theorem not_isSpace_of_isDigit (c : UInt8) (digit : isDigit c = true) : isSpace c = false := by
  simp only [isDigit, Bool.and_eq_true, decide_eq_true_eq, UInt8.le_iff_toNat_le] at digit
  simp only [isSpace, Bool.or_eq_false_iff, Bool.and_eq_false_iff, decide_eq_false_iff_not,
    UInt8.le_iff_toNat_le, ← UInt8.toNat_inj]
  have low : (48 : UInt8).toNat = 48 := rfl
  have high : (57 : UInt8).toNat = 57 := rfl
  have space : (32 : UInt8).toNat = 32 := rfl
  have last : (13 : UInt8).toNat = 13 := rfl
  omega

theorem unsigned_separated {bound value : Nat} (small : value < bound) (rest : Bytes) :
    unsigned bound (decimal value ++ 32 :: rest) = some (value, 32 :: rest) := by
  have digital := List.all_eq_true.mp (all_isDigit_decimal value)
  obtain ⟨taken, dropped⟩ := takeWhile_until isDigit 32 rest digital rfl
  have read : digits bound (decimal value ++ 32 :: rest) = some (value, 32 :: rest) := by
    rw [digits, taken, dropped, decimalValue_decimal, if_neg]
    exact not_or.mpr ⟨decimal_ne_nil value, by omega⟩
  obtain ⟨first, others, shape⟩ := List.exists_cons_of_ne_nil (decimal_ne_nil value)
  have digit : isDigit first = true := digital first (by rw [shape]; exact .head _)
  rw [unsigned, skipSpace_word (fun c among => not_isSpace_of_isDigit c (digital c among))
    (decimal_ne_nil value)]
  rw [shape, List.cons_append] at read ⊢
  dsimp only
  rw [if_neg, if_neg]
  · exact read
  · intro same
    rw [same] at digit
    cases digit
  · intro same
    rw [same] at digit
    cases digit

theorem unescape_quote (text rest : Bytes) :
    unescape false (text.flatMap escape ++ 34 :: rest) = some (text, rest) := by
  induction text with
  | nil => simp [unescape]
  | cons c text ih =>
      rw [List.flatMap_cons, List.append_assoc, escape]
      split
      · rw [List.cons_append, List.cons_append, List.nil_append, unescape, if_pos rfl, unescape, ih]
        rfl
      · next plain =>
          rw [not_or] at plain
          rw [List.cons_append, List.nil_append, unescape, if_neg plain.2, if_neg plain.1, ih]
          rfl

theorem quoted_space (text rest : Bytes) :
    quoted (32 :: quote text ++ rest) = some (text, rest) := by
  rw [quoted, List.cons_append, skipSpace_separator, quote]
  have shape : (34 :: text.flatMap escape ++ [34]) ++ rest =
      34 :: (text.flatMap escape ++ 34 :: rest) := by simp
  rw [shape, skipSpace, List.dropWhile_cons_of_neg (by decide)]
  dsimp only
  rw [if_pos rfl, unescape_quote]

theorem not_mem_quote {c : UInt8} (absent : c ∉ text) (plain : c ≠ 34 ∧ c ≠ 92) :
    c ∉ quote text := by
  have escaped : c ∉ text.flatMap escape := by
    intro among
    obtain ⟨own, mem, inside⟩ := List.mem_flatMap.mp among
    have differs : c ≠ own := fun same => absent (same ▸ mem)
    rw [escape] at inside
    split at inside
    · simp [plain.2, differs] at inside
    · simp [differs] at inside
  simp [quote, plain.1, escaped]

end Extraction
