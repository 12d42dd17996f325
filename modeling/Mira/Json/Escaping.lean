import Mira.Json.RoundTrip

/-!
The text that a string is escaped to. A reader that knows of backslashes finds the end of the text
at its last byte as long as the bytes that the writer copies unseen, those that a lead byte
announces, neither end the text nor escape what is written after them.
-/

namespace Mira
open Bytes

def jsonEscape (text : Bytes) : Bytes := writeString text

/-- What follows the first quote that no backslash escapes; the flag says that the next byte is
escaped. -/
def afterQuote : Bool → Bytes → Option Bytes
  | _, [] => none
  | true, _ :: rest => afterQuote false rest
  | false, c :: rest => if c = 34 then some rest else afterQuote (c = 92) rest

/-- The text is a quoted string on one line that ends with its last byte. -/
structure Contained (output : Bytes) : Prop where
  quoted : ∃ body, output = 34 :: (body ++ [34])
  printable : Printable output
  closed : ∃ body, output = 34 :: body ∧ afterQuote false body = some []

/-- No byte that is copied unseen is a control, and no quote ends the text early. The flag says
that a backslash which was copied unseen escapes the next byte that is written. -/
def unbroken : Nat → Bool → Bytes → Bool
  | _, escaped, [] => !escaped
  | unseen + 1, escaped, c :: rest =>
      0x20 ≤ c.toNat && (escaped || c ≠ 34) && unbroken unseen (!escaped && c = 92) rest
  | 0, escaped, c :: rest =>
      !(escaped && c = 34) && unbroken (continuationCount c) (escaped && c = 92) rest

variable {text rest : Bytes} {escaped : Bool}

theorem afterQuote_plain (plain : ∀ c ∈ text, c ≠ 34 ∧ c ≠ 92) (rest : Bytes) :
    afterQuote false (text ++ rest) = afterQuote false rest := by
  induction text with
  | nil => rfl
  | cons c more ih =>
      obtain ⟨own, others⟩ := List.forall_mem_cons.mp plain
      rw [List.cons_append, afterQuote, if_neg own.1, decide_eq_false own.2]
      exact ih others

theorem hexByte_plain (c : UInt8) : ∀ digit ∈ hexByte c, digit ≠ 34 ∧ digit ≠ 92 := by
  have plain : ∀ n < 16, hexDigit n ≠ 34 ∧ hexDigit n ≠ 92 := by
    decide
  have small := c.toNat_lt
  intro digit held
  simp only [hexByte, List.mem_cons, List.not_mem_nil, or_false] at held
  cases held with
  | inl high =>
      rw [high]
      exact plain _ (by omega)
  | inr low =>
      rw [low]
      exact plain _ (by omega)

/-- What is written for a byte holds no quote of its own, whether or not its first byte is
escaped, but for the quote. -/
theorem afterQuote_escapeByte (c : UInt8) (rest : Bytes) :
    afterQuote escaped (escapeByte c ++ rest) =
      if escaped && c = 34 then some rest else afterQuote (escaped && c = 92) rest := by
  rcases escapeByte_cases c with ⟨e, spelled, letter⟩ | ⟨spelled, control⟩ |
    ⟨spelled, _, quote, backslash⟩
  · rw [spelled]
    cases escaped with
    | false => rfl
    | true =>
        have quoted : e = 34 ↔ c = 34 := by
          constructor
          · intro same
            rw [same] at letter
            exact (Option.some.inj letter).symm
          · intro same
            rw [escapeByte, if_pos same] at spelled
            exact ((List.cons.inj (List.cons.inj spelled).2).1).symm
        have slashed : e = 92 ↔ c = 92 := by
          constructor
          · intro same
            rw [same] at letter
            exact (Option.some.inj letter).symm
          · intro same
            rw [same] at spelled
            exact ((List.cons.inj (List.cons.inj spelled).2).1).symm
        simp only [List.cons_append, List.nil_append, afterQuote, Bool.true_and, quoted, slashed,
          decide_eq_true_eq]
  · have plain := afterQuote_plain (hexByte_plain c) rest
    have quote : c ≠ 34 := by
      rintro rfl
      exact absurd control (by decide)
    have backslash : c ≠ 92 := by
      rintro rfl
      exact absurd control (by decide)
    rw [spelled]
    cases escaped <;> simpa [afterQuote, quote, backslash] using plain
  · rw [spelled]
    cases escaped <;> simp [afterQuote, quote, backslash]

theorem unbroken_iff (unseen : Nat) :
    (Printable (writeStringBody unseen text) ∧
      afterQuote escaped (writeStringBody unseen text ++ [34]) = some []) ↔
        unbroken unseen escaped text = true := by
  induction text generalizing unseen escaped with
  | nil =>
      have nothing : writeStringBody unseen [] = [] := by
        cases unseen <;> rfl
      rw [nothing]
      cases escaped <;> simp [unbroken, afterQuote, Printable]
  | cons c more ih =>
      cases unseen with
      | zero =>
          have own : Printable (escapeByte c ++ writeStringBody (continuationCount c) more) ↔
              Printable (writeStringBody (continuationCount c) more) :=
            ⟨fun all b held => all b (List.mem_append_right _ held),
              (printable_escapeByte c).append⟩
          rw [writeStringBody, unbroken, own, List.append_assoc, afterQuote_escapeByte]
          by_cases broken : (escaped && decide (c = 34)) = true
          · simp [broken]
          · rw [if_neg broken, ih, Bool.not_eq_true] at *
            simp [broken]
      | succ unseen =>
          have own : Printable (c :: writeStringBody unseen more) ↔
              0x20 ≤ c.toNat ∧ Printable (writeStringBody unseen more) :=
            List.forall_mem_cons
          rw [writeStringBody, unbroken, own, List.cons_append, and_assoc]
          cases escaped with
          | true =>
              rw [afterQuote, ih]
              simp
          | false =>
              rw [afterQuote]
              by_cases quote : c = 34
              · simp [quote]
              · rw [if_neg quote, ih]
                simp [quote]

theorem writeString_ends (valid : ValidUtf8 text) (rest : Bytes) :
    afterQuote false (writeStringBody 0 text ++ 34 :: rest) = some rest := by
  obtain ⟨chars, rfl⟩ := valid
  induction chars with
  | nil => rfl
  | cons c chars ih =>
      have char (rest : Bytes) :
          afterQuote false (writeChar c ++ rest) = afterQuote false rest := by
        unfold writeChar
        split
        next => exact afterQuote_escapeByte _ rest
        next wide =>
            obtain ⟨lead, tail, shape, high, _, _, each, _⟩ := encode_wide c (by omega)
            refine afterQuote_plain (fun b held => ?_) rest
            have range : 128 ≤ b.toNat := by
              rw [shape, List.mem_cons] at held
              cases held with
              | inl first =>
                  rw [first]
                  omega
              | inr later =>
                  have inside := each b later
                  unfold IsContinuation at inside
                  omega
            constructor
            · rintro rfl
              exact absurd range (by decide)
            · rintro rfl
              exact absurd range (by decide)
      rw [List.flatMap_cons, writeStringBody_char, List.append_assoc, char]
      exact ih

/-- An escaped text that is no valid string of characters can still be contained: it is so as long
as nothing that is copied unseen breaks it. -/
theorem jsonEscape_contained_iff (text : Bytes) :
    Contained (jsonEscape text) ↔ unbroken 0 false text = true := by
  rw [← unbroken_iff, jsonEscape, writeString]
  constructor
  · intro contained
    obtain ⟨body, same, closed⟩ := contained.closed
    rw [List.cons.injEq] at same
    rw [← same.2] at closed
    refine ⟨fun b held => ?_, closed⟩
    exact contained.printable b (.tail _ (List.mem_append_left _ held))
  · intro whole
    exact ⟨⟨_, rfl⟩, .cons (by decide) (whole.1.append (printable_ascii [34] rfl)),
      ⟨_, rfl, whole.2⟩⟩

/-- A lead byte hides the quote behind it. -/
theorem hidden_quote_open : ¬ Contained (jsonEscape [0xC2, 34]) := by
  intro contained
  obtain ⟨body, same, closed⟩ := contained.closed
  have written : body = [0xC2, 34, 34] := (List.cons.inj same).2.symm
  rw [written] at closed
  exact absurd closed (by decide)

end Mira
