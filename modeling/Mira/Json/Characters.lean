import Mira.Json.Exactly

/-!
Where a UTF-8 text may be cut. A character is a lead byte and as many continuation bytes as
it announces, so a valid text can be cut before every byte that is no continuation byte and
nowhere else. The parser accepts only texts that are UTF-8 from end to end, and the writer
copies what is not: a document with a broken text in it cannot be read back.
-/

namespace Mira
open Bytes

variable {b : UInt8}

theorem not_isContinuation_ascii (low : b.toNat < 128) : ¬ IsContinuation b :=
  fun inside => absurd inside.1 (Nat.not_le.mpr low)

theorem utf8_shape (c : Char) :
    ∃ lead tail, String.utf8EncodeChar c = lead :: tail ∧ ¬ IsContinuation lead ∧
      continuationCount lead = tail.length ∧ ∀ b ∈ tail, IsContinuation b := by
  by_cases wide : 0x80 ≤ c.toNat
  · obtain ⟨lead, tail, shape, high, _, count, each, _⟩ := encode_wide c wide
    exact ⟨lead, tail, shape, fun inside => absurd inside.2 (by omega), count, each⟩
  · have value := toNat_ofNat_byte c.toNat (by omega)
    exact ⟨UInt8.ofNat c.toNat, [], encode_ascii c (by omega),
      not_isContinuation_ascii (by omega), (continuationCount_of_range _).1 (by omega), by simp⟩

variable {text : Bytes}

theorem ValidUtf8.character (valid : ValidUtf8 text) (present : text ≠ []) :
    ∃ c rest, text = String.utf8EncodeChar c ++ rest ∧ ValidUtf8 rest := by
  obtain ⟨chars, rfl⟩ := valid
  cases chars with
  | nil => exact absurd rfl present
  | cons c chars => exact ⟨c, chars.flatMap String.utf8EncodeChar, rfl, chars, rfl⟩

theorem ValidUtf8.starts (valid : ValidUtf8 (b :: text)) : ¬ IsContinuation b := by
  obtain ⟨c, rest, whole, _⟩ := valid.character (List.cons_ne_nil _ _)
  obtain ⟨lead, tail, shape, starts, _⟩ := utf8_shape c
  rw [shape, List.cons_append, List.cons.injEq] at whole
  rw [whole.1]
  exact starts

theorem ValidUtf8.after_character {c : Char} {rest : Bytes}
    (whole : ValidUtf8 (String.utf8EncodeChar c ++ rest)) : ValidUtf8 rest := by
  obtain ⟨lead, tail, shape, _, count, _⟩ := utf8_shape c
  rw [shape] at whole
  obtain ⟨c', rest', same, valid⟩ := whole.character (List.cons_ne_nil _ _)
  obtain ⟨lead', tail', shape', _, count', _⟩ := utf8_shape c'
  rw [shape', List.cons_append, List.cons_append, List.cons.injEq] at same
  obtain ⟨rfl, same⟩ := same
  rw [List.append_inj_right same (count.symm.trans count')]
  exact valid

variable {a : Bytes}

theorem ValidUtf8.after {b : Bytes} (first : ValidUtf8 a) (whole : ValidUtf8 (a ++ b)) :
    ValidUtf8 b := by
  obtain ⟨chars, rfl⟩ := first
  induction chars with
  | nil => exact whole
  | cons c chars ih =>
      rw [List.flatMap_cons, List.append_assoc] at whole
      exact ih whole.after_character

theorem ValidUtf8.cut {b : Bytes} (whole : ValidUtf8 (a ++ b))
    (starts : ∀ c ∈ b.head?, ¬ IsContinuation c) : ValidUtf8 a := by
  obtain ⟨chars, whole⟩ := whole
  induction chars generalizing a with
  | nil =>
      rw [(List.append_eq_nil_iff.mp whole).1]
      exact validUtf8_nil
  | cons c chars ih =>
      obtain ⟨lead, tail, shape, _, _, each⟩ := utf8_shape c
      rw [List.flatMap_cons, List.append_eq_append_iff] at whole
      rcases whole with ⟨broken, character, rest⟩ | ⟨later, same, rest⟩
      · cases a with
        | nil => exact validUtf8_nil
        | cons first a =>
            rw [shape, List.cons_append, List.cons.injEq] at character
            cases broken with
            | nil =>
                rw [List.append_nil] at character
                rw [← character.1, ← character.2, ← shape]
                exact validUtf8_char c
            | cons b broken =>
                have inside : IsContinuation b := each b (by rw [character.2]; simp)
                exact absurd inside (starts b (by rw [rest]; rfl))
      · rw [same]
        exact (validUtf8_char c).append (ih rest.symm)

theorem ValidUtf8.cut_iff {b : Bytes} (whole : ValidUtf8 (a ++ b)) :
    ValidUtf8 a ↔ ∀ c ∈ b.head?, ¬ IsContinuation c := by
  constructor
  · intro first c starts
    obtain ⟨rest, rfl⟩ : ∃ rest, b = c :: rest := by
      cases b with
      | nil => cases starts
      | cons d rest =>
          cases starts
          exact ⟨rest, rfl⟩
    exact (first.after whole).starts
  · exact whole.cut

theorem ValidUtf8.around {b : Bytes} {c : UInt8} (whole : ValidUtf8 (a ++ c :: b))
    (low : c.toNat < 128) : ValidUtf8 a ∧ ValidUtf8 b := by
  have first : ValidUtf8 a := by
    apply whole.cut
    intro d starts
    cases starts
    exact not_isContinuation_ascii low
  have both : ValidUtf8 (a ++ [c]) := first.append (validUtf8_ascii c low)
  exact ⟨first, both.after (by simpa using whole)⟩

/-- The byte at the position, if there is one, begins a character. -/
def CutsAtCharacter (text : Bytes) (limit : Nat) : Prop :=
  ∀ b ∈ text[limit]?, ¬ IsContinuation b

theorem ValidUtf8.take_iff (valid : ValidUtf8 text) (limit : Nat) :
    ValidUtf8 (text.take limit) ↔ CutsAtCharacter text limit := by
  have whole : ValidUtf8 (text.take limit ++ text.drop limit) := by
    rw [List.take_append_drop]
    exact valid
  rw [whole.cut_iff, List.head?_drop]
  rfl

theorem writeStringBody_raw (continuation : Nat) (text : Bytes) :
    writeStringBody continuation text =
      text.take continuation ++ writeStringBody 0 (text.drop continuation) := by
  induction text generalizing continuation with
  | nil => cases continuation <;> rfl
  | cons b rest ih =>
      cases continuation with
      | zero => rfl
      | succ continuation =>
          rw [writeStringBody, List.take_succ_cons, List.drop_succ_cons, List.cons_append,
            ih continuation]

theorem shortEscape_letter {e : UInt8} (known : shortEscape e = some b) : e.toNat < 128 := by
  by_contra high
  have other (n : UInt8) (low : n.toNat < 128) : e ≠ n := fun same => high (same ▸ low)
  simp only [shortEscape, other 34 (by decide), other 92 (by decide), other 47 (by decide),
    other 98 (by decide), other 102 (by decide), other 110 (by decide), other 114 (by decide),
    other 116 (by decide), if_false, reduceCtorEq] at known

theorem escapeByte_ascii (b : UInt8) (low : b.toNat < 128) : ValidUtf8 (escapeByte b) := by
  rcases escapeByte_cases b with ⟨e, spelled, short⟩ | ⟨spelled, _⟩ | ⟨spelled, _⟩
  · rw [spelled]
    exact (validUtf8_ascii 92 (by decide)).append (validUtf8_ascii e (shortEscape_letter short))
  · rw [spelled]
    refine (validUtf8_printable_ascii _ (by simp)).append (validUtf8_printable_ascii _ ?_)
    exact fun c held => toHex_ascii [b] c (by simpa [toHex] using held)
  · rw [spelled]
    exact validUtf8_ascii b low

theorem validUtf8_of_writeStringBody (text : Bytes) (valid : ValidUtf8 (writeStringBody 0 text)) :
    ValidUtf8 text := by
  induction size : text.length using Nat.strong_induction_on generalizing text with
  | _ n ih =>
      cases text with
      | nil => exact validUtf8_nil
      | cons b rest =>
          rw [writeStringBody] at valid
          rw [List.length_cons] at size
          by_cases low : b.toNat < 128
          · have count := (continuationCount_of_range b).1 (by omega)
            rw [count] at valid
            have later := (escapeByte_ascii b low).after valid
            exact (validUtf8_ascii b low).append (ih _ (by omega) rest later rfl)
          · rw [escapeByte_wide b (by omega), writeStringBody_raw, List.singleton_append] at valid
            obtain ⟨c, more, whole, after⟩ := valid.character (List.cons_ne_nil _ _)
            obtain ⟨lead, tail, shape, _, count, _⟩ := utf8_shape c
            rw [shape, List.cons_append, List.cons.injEq] at whole
            obtain ⟨rfl, whole⟩ := whole
            have long : continuationCount b ≤ rest.length := by
              by_contra short
              rw [List.take_of_length_le (by omega), List.drop_of_length_le (by omega)] at whole
              have lengths := congrArg List.length whole
              simp only [List.length_append, writeStringBody, List.length_nil] at lengths
              omega
            have parted := List.append_inj whole (by rw [List.length_take]; omega)
            have character : b :: rest.take (continuationCount b) = String.utf8EncodeChar c := by
              rw [parted.1, shape]
            rw [← List.take_append_drop (continuationCount b) rest, ← List.cons_append, character]
            refine (validUtf8_char c).append (ih _ ?_ _ (parted.2 ▸ after) rfl)
            rw [List.length_drop]
            omega

theorem validUtf8_of_writeString (valid : ValidUtf8 (writeString text)) : ValidUtf8 text := by
  have opened : ValidUtf8 (writeStringBody 0 text ++ [34]) :=
    (ValidUtf8.around (a := []) valid (by decide)).2
  exact validUtf8_of_writeStringBody text (opened.around (by decide)).1

variable {texts : List Bytes}

theorem validUtf8_of_joinWith (valid : ValidUtf8 (joinWith 44 texts)) :
    ∀ text ∈ texts, ValidUtf8 text := by
  induction texts with
  | nil => exact fun _ absent => absurd absent List.not_mem_nil
  | cons text texts ih =>
      cases texts with
      | nil => exact fun _ only => List.mem_singleton.mp only ▸ valid
      | cons next texts =>
          obtain ⟨first, rest⟩ := ValidUtf8.around valid (by decide)
          intro other held
          rcases List.mem_cons.mp held with rfl | held
          · exact first
          · exact ih rest other held

theorem validUtf8_of_object {canonical : Bool} {members : List (Bytes × JsonValue)}
    (valid : ValidUtf8 (writeValue canonical (.object members))) {key : Bytes}
    (held : (key, JsonValue.string text) ∈ members) : ValidUtf8 text := by
  rw [writeValue, writeMembers_eq] at valid
  have inside := ((ValidUtf8.around (a := []) valid (by decide)).2.around (by decide)).1
  have written : (key, writeString text) ∈ orderMembers canonical
      (members.map fun member => (member.1, writeValue canonical member.2)) :=
    (orderMembers_perm canonical _).mem_iff.mpr
      (List.mem_map.mpr ⟨_, held, by rw [writeValue]⟩)
  have member := validUtf8_of_joinWith inside _ (List.mem_map_of_mem written)
  exact validUtf8_of_writeString (ValidUtf8.around (a := writeString key) member (by decide)).2

theorem isDigit_ascii (digit : isDigit b = true) : b.toNat < 128 := by
  simp only [isDigit, Bool.and_eq_true, decide_eq_true_eq, UInt8.le_iff_toNat_le] at digit
  have high : (57 : UInt8).toNat = 57 := rfl
  omega

theorem Digits.validUtf8 (digits : Digits) : ValidUtf8 digits.bytes :=
  validUtf8_printable_ascii _ fun b held =>
    isDigit_ascii (List.all_eq_true.mp digits.digits b held)

theorem Blank.validUtf8 (blank : Blank) : ValidUtf8 blank.bytes := by
  apply validUtf8_printable_ascii
  intro b held
  have white := List.all_eq_true.mp blank.blank b held
  simp only [isWhitespace, Bool.or_eq_true, decide_eq_true_eq] at white
  rcases white with ((rfl | rfl) | rfl) | rfl <;> decide

theorem NumberText.validUtf8 (number : NumberText) : ValidUtf8 number.text := by
  have sign : ValidUtf8 (if number.negative then ([45] : Bytes) else []) := by
    split
    · exact validUtf8_ascii 45 (by decide)
    · exact validUtf8_nil
  have fraction : ValidUtf8 number.fractionText := by
    rw [NumberText.fractionText]
    cases number.fraction with
    | none => exact validUtf8_nil
    | some digits => exact (validUtf8_ascii 46 (by decide)).append digits.validUtf8
  have exponent : ValidUtf8 number.exponentText := by
    rw [NumberText.exponentText]
    cases number.exponent with
    | none => exact validUtf8_nil
    | some exponent =>
        have signed : ValidUtf8 exponent.signText := by
          rw [ExponentText.signText]
          cases exponent.sign with
          | none => exact validUtf8_nil
          | some minus => cases minus <;> exact validUtf8_ascii _ (by decide)
        have letter : ValidUtf8 [if exponent.upper then (69 : UInt8) else 101] := by
          split
          · exact validUtf8_ascii 69 (by decide)
          · exact validUtf8_ascii 101 (by decide)
        exact letter.append (signed.append exponent.digits.validUtf8)
  exact sign.append (number.whole.validUtf8.append (fraction.append exponent))

variable {digits : Bytes}

theorem hexNumber_ascii {value result : Nat} (denotes : hexNumber value digits = some result) :
    ∀ b ∈ digits, b.toNat < 128 := by
  induction digits generalizing value with
  | nil => exact fun _ absent => absurd absent List.not_mem_nil
  | cons c digits ih =>
      rw [hexNumber] at denotes
      cases digit : hexValue c with
      | none => rw [digit] at denotes; cases denotes
      | some n =>
          rw [digit] at denotes
          refine List.forall_mem_cons.mpr ⟨?_, ih denotes⟩
          simp only [hexValue, UInt8.le_iff_toNat_le, UInt8.reduceToNat] at digit
          split_ifs at digit <;> omega

theorem HexQuad.validUtf8 {value : Nat} (unit : HexQuad digits value) : ValidUtf8 digits :=
  validUtf8_printable_ascii _ (hexNumber_ascii unit.denotes)

variable {written : Bytes}

theorem SpellsChar.validUtf8 {c : Char} (spelled : SpellsChar written c) : ValidUtf8 written := by
  have backslash : ValidUtf8 [92] := validUtf8_ascii 92 (by decide)
  have unicode : ValidUtf8 [92, 117] := validUtf8_printable_ascii _ (by simp)
  cases spelled with
  | plain => exact validUtf8_char c
  | short e b c known => exact backslash.append (validUtf8_ascii e (shortEscape_letter known))
  | unicode digits c unit => exact unicode.append unit.validUtf8
  | pair first second high low c leads trails =>
      exact unicode.append (leads.validUtf8.append (unicode.append trails.validUtf8))

theorem SpellsChars.validUtf8 {decoded : Bytes} (spelled : SpellsChars written decoded) :
    ValidUtf8 written := by
  induction spelled with
  | nil => exact validUtf8_nil
  | cons head _ ih => exact head.validUtf8.append ih

theorem validUtf8_joinWith (each : ∀ text ∈ texts, ValidUtf8 text) :
    ValidUtf8 (joinWith 44 texts) := by
  induction texts with
  | nil => exact validUtf8_nil
  | cons text texts ih =>
      obtain ⟨first, rest⟩ := List.forall_mem_cons.mp each
      cases texts with
      | nil => exact first
      | cons next texts => exact first.append ((validUtf8_ascii 44 (by decide)).append (ih rest))

theorem ValidUtf8.enclosed (valid : ValidUtf8 text) {first last : UInt8} (low : first.toNat < 128)
    (low' : last.toNat < 128) : ValidUtf8 (first :: (text ++ [last])) :=
  (validUtf8_ascii first low).append (valid.append (validUtf8_ascii last low'))

theorem ItemText.validUtf8 {item : ItemText} (own : ValidUtf8 item.text) : ValidUtf8 item.bytes :=
  item.before.validUtf8.append (own.append item.after.validUtf8)

variable {limits : JsonLimits}

theorem Spells.validUtf8 {levels : Nat} {value : JsonValue} {marks : Marks}
    (spelled : Spells limits levels text value marks) : ValidUtf8 text := by
  induction spelled with
  | null => exact validUtf8_printable_ascii _ (by decide)
  | boolean value => cases value <;> exact validUtf8_printable_ascii _ (by decide)
  | number number => exact number.validUtf8
  | string written decoded chars => exact chars.validUtf8.enclosed (by decide) (by decide)
  | emptyArray inside => exact inside.validUtf8.enclosed (by decide) (by decide)
  | array items _ _ _ ih =>
      refine ValidUtf8.enclosed (validUtf8_joinWith ?_) (by decide) (by decide)
      intro text held
      obtain ⟨item, present, rfl⟩ := List.mem_map.mp held
      exact ItemText.validUtf8 (ih item present)
  | emptyObject inside => exact inside.validUtf8.enclosed (by decide) (by decide)
  | object members _ _ _ keys _ ih =>
      refine ValidUtf8.enclosed (validUtf8_joinWith ?_) (by decide) (by decide)
      intro text held
      obtain ⟨member, present, rfl⟩ := List.mem_map.mp held
      have quote : (34 : UInt8).toNat < 128 := by decide
      have key := (keys member present).1.validUtf8.enclosed quote quote
      exact member.before.validUtf8.append (key.append (member.after.validUtf8.append
        ((validUtf8_ascii 58 (by decide)).append (ItemText.validUtf8 (ih member present)))))

theorem validUtf8_of_parseJson {value : JsonValue} (read : parseJson text limits = .ok value) :
    ValidUtf8 text := by
  obtain ⟨marks, spelled, _⟩ := document_of_parse read
  obtain ⟨item, rfl, _, _, own⟩ := spelled.spelled
  exact ItemText.validUtf8 own.validUtf8

end Mira
