import Mira.Json.Spelled

/-!
Number tokens against the parser, in both directions, and what the parser does not look at: the
leading zeros of a token are a property of the text it was read from.
-/

namespace Mira
open Bytes

/-- The first item does not satisfy the predicate. -/
def Stops (p : UInt8 → Bool) (rest : Bytes) : Prop := ∀ c ∈ rest.head?, p c = false

variable {rest : Bytes}

theorem span_exact {p : UInt8 → Bool} {inside : Bytes} (all : inside.all p = true)
    (stops : Stops p rest) :
    (inside ++ rest).takeWhile p = inside ∧ (inside ++ rest).dropWhile p = rest := by
  have each : ∀ c ∈ inside, p c = true := List.all_eq_true.mp all
  rw [List.takeWhile_append_of_pos each, List.dropWhile_append_of_pos each]
  cases rest with
  | nil => exact ⟨List.append_nil _, rfl⟩
  | cons c tail =>
      have stop := stops c rfl
      exact ⟨by simp [stop], by simp [stop]⟩

theorem takeWhile_all (p : UInt8 → Bool) (input : Bytes) : (input.takeWhile p).all p = true :=
  List.all_takeWhile

def leadingDigits (input : Bytes) (present : input.takeWhile isDigit ≠ []) : Digits :=
  ⟨input.takeWhile isDigit, present, takeWhile_all isDigit input⟩

namespace NumberText

variable (number : NumberText) (rest : Bytes)

theorem exponentText_stops (ends : EndsNumber rest) :
    ∀ c ∈ (number.exponentText ++ rest).head?, isDigit c = false ∧ c ≠ 46 := by
  intro c first
  unfold exponentText at first
  split at first
  · have bounds := ends c first
    exact ⟨bounds.1, bounds.2.1⟩
  · next exponent given =>
      unfold ExponentText.text at first
      split at first
      · cases first
        exact ⟨rfl, by decide⟩
      · cases first
        exact ⟨rfl, by decide⟩

theorem fractionText_stops (ends : EndsNumber rest) :
    Stops isDigit (number.fractionText ++ (number.exponentText ++ rest)) := by
  intro c first
  unfold fractionText at first
  split at first
  · exact (number.exponentText_stops rest ends c first).1
  · cases first
    rfl

theorem parseFraction_text (ends : EndsNumber rest) :
    parseFraction (number.fractionText ++ (number.exponentText ++ rest)) =
      .ok (number.fraction.map Digits.bytes, number.exponentText ++ rest) := by
  have stops := number.exponentText_stops rest ends
  unfold fractionText
  cases number.fraction with
  | none =>
      dsimp only
      unfold parseFraction
      split
      · next marked => exact absurd rfl (stops 46 (by rw [← List.nil_append (_ ++ rest), marked]; rfl)).2
      · rfl
  | some digits =>
      obtain ⟨taken, left⟩ := span_exact digits.digits fun c first => (stops c first).1
      simp only [List.cons_append, parseFraction, taken, left, if_neg digits.present, Option.map]

end NumberText

theorem Digits.first (digits : Digits) :
    ∃ c tail, digits.bytes = c :: tail ∧ isDigit c = true := by
  obtain ⟨c, tail, shape⟩ := List.exists_cons_of_ne_nil digits.present
  have all := digits.digits
  rw [shape, List.all_cons, Bool.and_eq_true] at all
  exact ⟨c, tail, shape, all.1⟩

theorem ExponentText.sign_text (exponent : ExponentText) (rest : Bytes) :
    exponentSign (exponent.signText ++ (exponent.digits.bytes ++ rest)) =
      (exponent.sign == some true, exponent.digits.bytes ++ rest) := by
  unfold ExponentText.signText
  cases exponent.sign with
  | none =>
      obtain ⟨c, tail, shape, digit⟩ := exponent.digits.first
      have plus : c ≠ 43 := fun same => by rw [same] at digit; exact absurd digit (by decide)
      have minus := (isDigit_plain c digit).2.1
      simp [exponentSign, shape, plus, minus]
  | some minus => cases minus <;> rfl

namespace NumberText

variable (number : NumberText) (rest : Bytes)

theorem parseExponent_text (ends : EndsNumber rest) :
    parseExponent (number.exponentText ++ rest) =
      .ok (number.exponent.map fun exponent => (exponent.sign == some true, exponent.digits.bytes),
        rest) := by
  unfold exponentText
  cases number.exponent with
  | none => exact parseExponent_ends rest ends
  | some exponent =>
      have marked : (if exponent.upper then (69 : UInt8) else 101) = 101 ∨
          (if exponent.upper then (69 : UInt8) else 101) = 69 := by
        cases exponent.upper
        · exact .inl rfl
        · exact .inr rfl
      obtain ⟨taken, left⟩ := span_exact exponent.digits.digits fun c first => (ends c first).1
      dsimp only
      rw [ExponentText.text, List.cons_append, List.append_assoc, parseExponent, if_pos marked]
      simp only [exponent.sign_text, taken, left, if_neg exponent.digits.present, Option.map]

theorem numberSign_text :
    numberSign (number.text ++ rest) = (number.negative,
      number.whole.bytes ++ (number.fractionText ++ (number.exponentText ++ rest))) := by
  unfold text
  cases number.negative with
  | true => simp [numberSign]
  | false =>
      obtain ⟨c, tail, shape, digit⟩ := number.whole.first
      have minus := (isDigit_plain c digit).2.1
      simp [numberSign, shape, minus]

theorem whole_span (ends : EndsNumber rest) :
    (numberSign (number.text ++ rest)).2.takeWhile isDigit = number.whole.bytes ∧
      (numberSign (number.text ++ rest)).2.dropWhile isDigit =
        number.fractionText ++ (number.exponentText ++ rest) := by
  rw [number.numberSign_text rest]
  exact span_exact number.whole.digits (number.fractionText_stops rest ends)

theorem parseNumber_text (value : JsonValue) (rest : Bytes)
    (converts : numberOfToken number.isFloat number.token = .ok value) (ends : EndsNumber rest) :
    parseNumber (number.text ++ rest) = .ok (value, rest) := by
  obtain ⟨taken, left⟩ := number.whole_span rest ends
  have signed := number.numberSign_text rest
  have token : (number.exponent.map fun exponent =>
      (exponent.sign == some true, exponent.digits.bytes)).isSome = number.exponent.isSome := by
    cases number.exponent <;> rfl
  have whole : (number.fraction.map Digits.bytes).isSome = number.fraction.isSome := by
    cases number.fraction <;> rfl
  unfold parseNumber
  simp only [taken, left, if_neg number.whole.present, number.parseFraction_text rest ends,
    number.parseExponent_text rest ends, token, whole, Option.map_map]
  have same : numberOfToken (number.fraction.isSome || number.exponent.isSome)
      { negative := (numberSign (number.text ++ rest)).1, digits := number.whole.bytes
        fraction := (number.fraction.map Digits.bytes).getD []
        exponentNegative := (number.exponent.map (Prod.fst ∘ fun exponent =>
          (exponent.sign == some true, exponent.digits.bytes))).getD false
        exponent := (number.exponent.map (Prod.snd ∘ fun exponent =>
          (exponent.sign == some true, exponent.digits.bytes))).getD [] } = .ok value := by
    rw [signed]
    exact converts
  rw [same]

end NumberText

theorem fraction_of_parse {input : Bytes} {fraction : Option Bytes}
    (read : parseFraction input = .ok (fraction, rest)) :
    ∃ written : Option Digits, fraction = written.map Digits.bytes ∧
      ∀ number : NumberText, number.fraction = written →
        input = number.fractionText ++ rest := by
  unfold parseFraction at read
  split at read
  · next after =>
      split at read
      · cases read
      · next present =>
          cases read
          refine ⟨some (leadingDigits after present), rfl, fun number given => ?_⟩
          rw [NumberText.fractionText, given]
          exact congrArg (46 :: ·) List.takeWhile_append_dropWhile.symm
  · cases read
    exact ⟨none, rfl, fun number given => by rw [NumberText.fractionText, given]; rfl⟩

variable (input : Bytes)

theorem sign_of_parse : ∃ sign : Option Bool,
    (exponentSign input).1 = (sign == some true) ∧
      ∀ exponent : ExponentText, exponent.sign = sign →
        input = exponent.signText ++ (exponentSign input).2 := by
  unfold exponentSign
  split
  · exact ⟨some false, rfl, fun exponent given => by rw [ExponentText.signText, given]; rfl⟩
  · exact ⟨some true, rfl, fun exponent given => by rw [ExponentText.signText, given]; rfl⟩
  · exact ⟨none, rfl, fun exponent given => by rw [ExponentText.signText, given]; rfl⟩

theorem exponent_of_parse {input : Bytes} {exponent : Option (Bool × Bytes)}
    (read : parseExponent input = .ok (exponent, rest)) :
    ∃ written : Option ExponentText,
      exponent = written.map (fun text => (text.sign == some true, text.digits.bytes)) ∧
      ∀ number : NumberText, number.exponent = written →
        input = number.exponentText ++ rest := by
  have absent (number : NumberText) (given : number.exponent = none) (rest : Bytes) :
      rest = number.exponentText ++ rest := by
    rw [NumberText.exponentText, given]
    rfl
  cases input with
  | nil =>
      cases read
      exact ⟨none, rfl, fun number given => absent number given []⟩
  | cons c tail =>
      rw [parseExponent] at read
      split at read
      · next marked =>
          dsimp only at read
          split at read
          · cases read
          · next present =>
              cases read
              obtain ⟨sign, negative, shape⟩ := sign_of_parse tail
              have parts := List.takeWhile_append_dropWhile (p := isDigit)
                (l := (exponentSign tail).2)
              refine ⟨some ⟨c == 69, sign, leadingDigits _ present⟩, by rw [negative]; rfl,
                fun number given => ?_⟩
              have letter : (if (c == 69) = true then (69 : UInt8) else 101) = c := by
                cases marked with
                | inl lower => rw [lower]; rfl
                | inr upper => rw [upper]; rfl
              rw [NumberText.exponentText, given]
              dsimp only
              rw [ExponentText.text, letter, List.cons_append, List.append_assoc]
              dsimp only [leadingDigits]
              rw [parts, ← shape _ rfl]
      · cases read
        exact ⟨none, rfl, fun number given => absent number given _⟩

theorem sign_text_of_parse :
    input = (if (numberSign input).1 then [45] else []) ++ (numberSign input).2 := by
  unfold numberSign
  split
  · rfl
  · rfl

theorem spelled_of_parseNumber {input : Bytes} {value : JsonValue}
    (read : parseNumber input = .ok (value, rest)) :
    ∃ number : NumberText, input = number.text ++ rest ∧
      numberOfToken number.isFloat number.token = .ok value := by
  unfold parseNumber at read
  dsimp only at read
  split at read
  · cases read
  · next present =>
      cases fractional : parseFraction ((numberSign input).2.dropWhile isDigit) with
      | error reason => rw [fractional] at read; cases read
      | ok result =>
          obtain ⟨fraction, afterFraction⟩ := result
          rw [fractional] at read
          dsimp only at read
          cases exponential : parseExponent afterFraction with
          | error reason => rw [exponential] at read; cases read
          | ok result =>
              obtain ⟨exponent, afterExponent⟩ := result
              rw [exponential] at read
              dsimp only at read
              split at read
              · cases read
              · next item converts =>
                  cases read
                  obtain ⟨fraction, rfl, left⟩ := fraction_of_parse fractional
                  obtain ⟨exponent, rfl, after⟩ := exponent_of_parse exponential
                  refine ⟨⟨(numberSign input).1, leadingDigits _ present, fraction, exponent⟩,
                    ?_, ?_⟩
                  · rw [NumberText.text, List.append_assoc, List.append_assoc, List.append_assoc,
                      ← after _ rfl, ← left _ rfl]
                    refine (sign_text_of_parse input).trans (congrArg _ ?_)
                    exact List.takeWhile_append_dropWhile.symm
                  · cases fraction with
                    | none => cases exponent <;> exact converts
                    | some digits => cases exponent <;> exact converts

variable {rest' : Bytes}

theorem NumberText.padded_unique {number number' : NumberText} (ends : EndsNumber rest)
    (ends' : EndsNumber rest') (same : number.text ++ rest = number'.text ++ rest') :
    number.padded = number'.padded := by
  have whole := (number.whole_span rest ends).1
  rw [same, (number'.whole_span rest' ends').1] at whole
  rw [NumberText.padded, NumberText.padded, whole]

/-!
Loops over pieces that a comma separates and a closing byte ends. The rules are stated for any
kind of piece: what one round does with a piece gives what the loop does with a list of them,
in both directions, and pieces that can be told apart one by one can be told apart together.
-/

variable (blank : Blank)

theorem Blank.skip (rest : Bytes) (solid : Stops isWhitespace rest) :
    skipWhitespace (blank.bytes ++ rest) = rest :=
  (span_exact blank.blank solid).2

theorem exists_blank : ∃ blank : Blank,
    input = blank.bytes ++ skipWhitespace input ∧ Stops isWhitespace (skipWhitespace input) := by
  refine ⟨⟨input.takeWhile isWhitespace, takeWhile_all isWhitespace input⟩,
    List.takeWhile_append_dropWhile.symm, fun c first => ?_⟩
  have stop := List.head?_dropWhile_not isWhitespace input
  rw [skipWhitespace, Option.mem_def] at first
  rw [first] at stop
  exact stop

theorem Blank.unique {blank blank' : Blank} (solid : Stops isWhitespace rest)
    (solid' : Stops isWhitespace rest') (same : blank.bytes ++ rest = blank'.bytes ++ rest') :
    rest = rest' := by
  rw [← blank.skip rest solid, same, blank'.skip rest' solid']

/-- The bytes that come after a piece. -/
def IsSeparator (c : UInt8) : Prop := c = 44 ∨ c = 58 ∨ c = 93 ∨ c = 125

variable {c : UInt8}

theorem IsSeparator.stops (separates : IsSeparator c) (rest : Bytes) :
    Stops isWhitespace (c :: rest) := by
  intro first here
  cases here
  rcases separates with rfl | rfl | rfl | rfl
  · rfl
  · rfl
  · rfl
  · rfl

theorem endsNumber_cons (rest : Bytes) (ends : isDigit c = false ∧ c ≠ 46 ∧ c ≠ 101 ∧ c ≠ 69) :
    EndsNumber (c :: rest) := by
  intro first here
  cases here
  exact ends

theorem IsSeparator.ends (separates : IsSeparator c) (rest : Bytes) : EndsNumber (c :: rest) := by
  apply endsNumber_cons
  rcases separates with rfl | rfl | rfl | rfl
  · decide
  · decide
  · decide
  · decide

theorem isWhitespace_cases (blank : isWhitespace c = true) : c = 32 ∨ c = 9 ∨ c = 13 ∨ c = 10 := by
  simpa only [isWhitespace, Bool.or_eq_true, decide_eq_true_eq, or_assoc] using blank

theorem Blank.ends (ends : EndsNumber rest) : EndsNumber (blank.bytes ++ rest) := by
  cases shape : blank.bytes with
  | nil => exact ends
  | cons c tail =>
      have white := blank.blank
      rw [shape, List.all_cons, Bool.and_eq_true] at white
      rw [List.cons_append]
      apply endsNumber_cons
      rcases isWhitespace_cases white.1 with rfl | rfl | rfl | rfl
      · decide
      · decide
      · decide
      · decide

section Loops
variable {α β γ ε : Type} {body : Scan.Body (List β) γ ε UInt8} {bytes : α → Bytes} {read : α → β}
  {wrap : List β → γ} {close : UInt8}

/-- The round that a piece with what follows it makes. -/
def roundOf (wrap : List β → γ) (again : Bool) (items : List β) (rest : Bytes) :
    Scan.Round (List β) γ UInt8 :=
  if again then .again items rest else .done (wrap items) rest

theorem accepts_joined (pieces : List α) (present : pieces ≠ []) (before : List β)
    (round : ∀ front piece back, pieces = front ++ piece :: back → ∀ again more,
      body (before ++ front.map read) (bytes piece ++ (if again then 44 else close) :: more) =
        .ok (roundOf wrap again (before ++ front.map read ++ [read piece]) more)) (rest : Bytes) :
    Scan.Accepts body before (joinWith 44 (pieces.map bytes) ++ close :: rest)
      (wrap (before ++ pieces.map read)) rest := by
  induction pieces generalizing before with
  | nil => exact absurd rfl present
  | cons piece pieces ih =>
      have own := round [] piece pieces rfl
      rw [List.map_nil, List.append_nil] at own
      by_cases last : pieces = []
      · subst last
        exact .done (own false rest)
      · have later := ih last (before ++ [read piece]) (by
          intro front next back shape again more
          have step := round (piece :: front) next back (by rw [shape]; rfl) again more
          rw [List.map_cons, ← List.singleton_append, ← List.append_assoc] at step
          exact step)
        have text : joinWith 44 ((piece :: pieces).map bytes) ++ close :: rest =
            bytes piece ++ 44 :: (joinWith 44 (pieces.map bytes) ++ close :: rest) := by
          rw [List.map_cons, joinWith_append _ _ _ _ (by simpa using last)]
        rw [List.append_assoc, List.singleton_append] at later
        rw [text, List.map_cons]
        exact .again (own true _) later

theorem joined_of_accepts {fits : List β → α → Prop}
    (round : ∀ items input next, body items input = .ok next → ∃ piece again more,
      fits items piece ∧ input = bytes piece ++ (if again then 44 else close) :: more ∧
        next = roundOf wrap again (items ++ [read piece]) more)
    {before : List β} {input rest : Bytes} {result : γ}
    (run : Scan.Accepts body before input result rest) :
    ∃ pieces : List α, pieces ≠ [] ∧ input = joinWith 44 (pieces.map bytes) ++ close :: rest ∧
      result = wrap (before ++ pieces.map read) ∧
      ∀ front piece back, pieces = front ++ piece :: back →
        fits (before ++ front.map read) piece := by
  induction run with
  | @done items _ _ _ finished =>
      obtain ⟨piece, again, more, fit, shape, next⟩ := round _ _ _ finished
      cases again with
      | true => cases next
      | false =>
          cases next
          refine ⟨[piece], by simp, shape, rfl, fun front other back split => ?_⟩
          cases front with
          | nil =>
              cases split
              rw [List.map_nil, List.append_nil]
              exact fit
          | cons first front =>
              have length := congrArg List.length split
              simp at length
  | @again items _ _ _ _ _ went _ ih =>
      obtain ⟨piece, again, more, fit, shape, next⟩ := round _ _ _ went
      cases again with
      | false => cases next
      | true =>
          cases next
          obtain ⟨pieces, present, later, rfl, fits⟩ := ih
          refine ⟨piece :: pieces, by simp, ?_, ?_, fun front other back split => ?_⟩
          · rw [shape, if_pos rfl, later, List.map_cons,
              joinWith_append _ _ _ _ (by simpa using present)]
          · rw [List.append_assoc, List.singleton_append, List.map_cons]
          · cases front with
            | nil =>
                cases split
                rw [List.map_nil, List.append_nil]
                exact fit
            | cons first front =>
                rw [List.cons_append, List.cons.injEq] at split
                have own := fits front other back split.2
                rw [List.append_assoc, List.singleton_append] at own
                rw [List.map_cons, ← split.1]
                exact own

theorem joined_unique {μ : Type} {marks : α → μ} (closes : IsSeparator close)
    (comma : close ≠ 44) (pieces pieces' : List α) (present : pieces ≠ []) (present' : pieces' ≠ [])
    (unique : ∀ piece ∈ pieces, ∀ piece' ∈ pieces', ∀ c c' more more',
      IsSeparator c → IsSeparator c' → bytes piece ++ c :: more = bytes piece' ++ c' :: more' →
        marks piece = marks piece' ∧ c :: more = c' :: more')
    (rest rest' : Bytes)
    (same : joinWith 44 (pieces.map bytes) ++ close :: rest =
      joinWith 44 (pieces'.map bytes) ++ close :: rest') :
    pieces.map marks = pieces'.map marks := by
  have separates : IsSeparator 44 := .inl rfl
  -- Either list goes on after its first piece or ends there.
  have split (piece : α) (pieces : List α) (rest : Bytes) :
      ∃ c more, joinWith 44 ((piece :: pieces).map bytes) ++ close :: rest =
          bytes piece ++ c :: more ∧ IsSeparator c ∧
        ((pieces = [] ∧ c = close) ∨
          (pieces ≠ [] ∧ c = 44 ∧ more = joinWith 44 (pieces.map bytes) ++ close :: rest)) := by
    by_cases last : pieces = []
    · subst last
      exact ⟨close, rest, rfl, closes, .inl ⟨rfl, rfl⟩⟩
    · refine ⟨44, _, ?_, separates, .inr ⟨last, rfl, rfl⟩⟩
      rw [List.map_cons, joinWith_append _ _ _ _ (by simpa using last)]
  induction pieces generalizing pieces' with
  | nil => exact absurd rfl present
  | cons piece pieces ih =>
      cases pieces' with
      | nil => exact absurd rfl present'
      | cons piece' pieces' =>
          obtain ⟨c, more, shape, sep, left⟩ := split piece pieces rest
          obtain ⟨c', more', shape', sep', left'⟩ := split piece' pieces' rest'
          rw [shape, shape'] at same
          obtain ⟨own, after⟩ := unique piece (by simp) piece' (by simp) c c' more more' sep sep'
            same
          rw [List.cons.injEq] at after
          rw [List.map_cons, List.map_cons, own]
          rcases left with ⟨rfl, here⟩ | ⟨some_, here, there⟩
          · rcases left' with ⟨rfl, _⟩ | ⟨_, here', _⟩
            · rfl
            · exact absurd (here.symm.trans (after.1.trans here')) comma
          · rcases left' with ⟨_, here'⟩ | ⟨some', _, there'⟩
            · exact absurd (here'.symm.trans (after.1.symm.trans here)) comma
            · rw [there, there'] at after
              exact congrArg _ (ih pieces' some_ some' (fun a ha b hb =>
                unique a (by simp [ha]) b (by simp [hb])) after.2)

end Loops

end Mira
