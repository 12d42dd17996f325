import Mira.Json.Strings

/-!
What acceptance means. An accepted value is well formed: its strings are UTF-8
and its integers fit a signed word. It was read from a prefix that ends by itself,
unless it is a number at the very end of the input, so a longer input is read to
the same value.
-/

namespace Mira
open Bytes

inductive JsonValue.WellFormed : JsonValue → Prop
  | null : WellFormed .null
  | boolean (value : Bool) : WellFormed (.boolean value)
  | integer (value : Int) (low : -2 ^ 63 < value) (high : value < 2 ^ 63) :
      WellFormed (.integer value)
  | number (value : Rat) : WellFormed (.number value)
  | string (text : Bytes) (valid : ValidUtf8 text) : WellFormed (.string text)
  | array (items : List JsonValue) (each : ∀ item ∈ items, WellFormed item) :
      WellFormed (.array items)
  | object (members : List (Bytes × JsonValue)) (keys : ∀ member ∈ members, ValidUtf8 member.1)
      (each : ∀ member ∈ members, WellFormed member.2) : WellFormed (.object members)

/-- The values whose text ends by itself. -/
def JsonValue.closed : JsonValue → Bool
  | .integer _ | .number _ => false
  | _ => true

/-- A reader of values and the same reader under other limits. -/
def ReadsValues (value value' : Bytes → Parsed JsonValue) : Prop :=
  ∀ input item rest, value input = .ok (item, rest) →
    rest.length < input.length ∧ item.WellFormed ∧
      (rest ≠ [] ∨ item.closed = true →
        ∀ more, value' (input ++ more) = .ok (item, rest ++ more))

/-- The same for readers of values that end by themselves. -/
def ReadsClosed (value value' : Bytes → Parsed JsonValue) : Prop :=
  ∀ input item rest, value input = .ok (item, rest) →
    rest.length < input.length ∧ (item.WellFormed ∧ item.closed = true) ∧
      ∀ more, value' (input ++ more) = .ok (item, rest ++ more)

theorem ReadsClosed.values {value value' : Bytes → Parsed JsonValue}
    (reads : ReadsClosed value value') : ReadsValues value value' := by
  intro input item rest h
  obtain ⟨shorter, formed, extend⟩ := reads input item rest h
  exact ⟨shorter, formed.1, fun _ => extend⟩

variable (p : UInt8 → Bool) (input more : Bytes)

theorem dropWhile_append_of_ne_nil (left : input.dropWhile p ≠ []) :
    (input ++ more).dropWhile p = input.dropWhile p ++ more ∧
      (input ++ more).takeWhile p = input.takeWhile p := by
  induction input with
  | nil => simp at left
  | cons c rest ih =>
      by_cases hc : p c = true
      · rw [List.dropWhile_cons_of_pos hc] at left
        simp [List.dropWhile_cons_of_pos hc, List.takeWhile_cons_of_pos hc, ih left]
      · simp [List.dropWhile_cons_of_neg hc, List.takeWhile_cons_of_neg hc]

theorem length_dropWhile_le' : (input.dropWhile p).length ≤ input.length :=
  (List.dropWhile_suffix p).length_le

theorem skipWhitespace_append (left : skipWhitespace input ≠ []) :
    skipWhitespace (input ++ more) = skipWhitespace input ++ more :=
  (dropWhile_append_of_ne_nil isWhitespace input more left).1

theorem length_skipWhitespace : (skipWhitespace input).length ≤ input.length :=
  length_dropWhile_le' _ input

theorem digitValue_le (c : UInt8) : digitValue c ≤ 255 := by
  have small : c.toNat < 256 := c.toNat_lt
  unfold digitValue
  omega

theorem accumulateDigits_bound (value result : Nat) (digits : Bytes)
    (h : accumulateDigits value digits = some result) (start : value ≤ 2 ^ 63 - 1) :
    result ≤ 2 ^ 63 - 1 := by
  induction digits generalizing value with
  | nil => cases h; exact start
  | cons c rest ih =>
      unfold accumulateDigits at h
      split at h
      · cases h
      · next room =>
          have small := digitValue_le c
          exact ih _ h (by omega)

variable (rest : Bytes)

theorem parseFraction_reads (fraction : Option Bytes)
    (h : parseFraction input = .ok (fraction, rest)) :
    rest.length ≤ input.length ∧
      (rest ≠ [] → ∀ more, parseFraction (input ++ more) = .ok (fraction, rest ++ more)) := by
  unfold parseFraction at h
  split at h
  · next after =>
      split at h
      · cases h
      · next digits =>
          cases h
          refine ⟨(length_dropWhile_le' _ _).trans (Nat.le_succ _), fun left more => ?_⟩
          have longer := dropWhile_append_of_ne_nil isDigit after more left
          simp only [List.cons_append, parseFraction, longer.1, longer.2, if_neg digits]
  · next unmarked =>
      cases h
      refine ⟨le_rfl, fun left more => ?_⟩
      unfold parseFraction
      split
      · next after same =>
          cases input with
          | nil => exact absurd rfl left
          | cons c tail =>
              rw [List.cons_append, List.cons.injEq] at same
              exact absurd (by rw [same.1]) (unmarked tail)
      · rfl

theorem exponentSign_append (left : input ≠ []) :
    exponentSign (input ++ more) = ((exponentSign input).1, (exponentSign input).2 ++ more) := by
  cases input with
  | nil => exact absurd rfl left
  | cons c rest =>
      by_cases plus : c = 43
      · subst plus; rfl
      · by_cases minus : c = 45
        · subst minus; rfl
        · simp [exponentSign, plus, minus]

theorem exponentSign_length : (exponentSign input).2.length ≤ input.length := by
  unfold exponentSign
  split <;> simp

theorem parseExponent_reads (exponent : Option (Bool × Bytes))
    (h : parseExponent input = .ok (exponent, rest)) :
    rest.length ≤ input.length ∧
      (rest ≠ [] → ∀ more, parseExponent (input ++ more) = .ok (exponent, rest ++ more)) := by
  cases input with
  | nil =>
      cases h
      exact ⟨le_rfl, fun left => absurd rfl left⟩
  | cons c tail =>
      simp only [parseExponent] at h
      split at h
      · next marked =>
          split at h
          · cases h
          · next digits =>
              cases h
              have signed := exponentSign_length tail
              have shorter := length_dropWhile_le' isDigit (exponentSign tail).2
              refine ⟨by simp only [List.length_cons]; omega, fun left more => ?_⟩
              have nonempty : tail ≠ [] := by
                rintro rfl
                exact left rfl
              have longer := dropWhile_append_of_ne_nil isDigit (exponentSign tail).2 more left
              rw [List.cons_append, parseExponent, if_pos marked,
                exponentSign_append tail more nonempty]
              simp only [longer.1, longer.2, if_neg digits]
      · next unmarked =>
          cases h
          refine ⟨le_rfl, fun _ more => ?_⟩
          rw [List.cons_append, parseExponent, if_neg unmarked]

theorem numberSign_append (left : input ≠ []) :
    numberSign (input ++ more) = ((numberSign input).1, (numberSign input).2 ++ more) := by
  cases input with
  | nil => exact absurd rfl left
  | cons c rest =>
      by_cases minus : c = 45
      · subst minus; rfl
      · simp [numberSign, minus]

theorem numberSign_length : (numberSign input).2.length ≤ input.length := by
  unfold numberSign
  split <;> simp

theorem numberOfToken_reads (isFloat : Bool) (token : NumberToken) (value : JsonValue)
    (h : numberOfToken isFloat token = .ok value) :
    value.WellFormed ∧ value.closed = false := by
  unfold numberOfToken at h
  split at h
  · next n digits =>
      cases h
      have small : n ≤ 2 ^ 63 - 1 := by
        split at digits
        · cases digits
        · exact accumulateDigits_bound 0 n _ digits (by omega)
      refine ⟨.integer _ ?_ ?_, rfl⟩ <;> split <;> omega
  · split at h
    · cases h
      exact ⟨.number _, rfl⟩
    · cases h

theorem parseNumber_reads : ReadsValues parseNumber parseNumber := by
  intro input item rest h
  unfold parseNumber at h
  dsimp only at h
  split at h
  · cases h
  · next digits =>
      cases hf : parseFraction ((numberSign input).2.dropWhile isDigit) with
      | error reason => rw [hf] at h; cases h
      | ok fraction =>
          obtain ⟨fraction, afterFraction⟩ := fraction
          rw [hf] at h
          dsimp only at h
          cases he : parseExponent afterFraction with
          | error reason => rw [he] at h; cases h
          | ok exponent =>
              obtain ⟨exponent, afterExponent⟩ := exponent
              rw [he] at h
              dsimp only at h
              split at h
              · cases h
              · next value token =>
                  cases h
                  obtain ⟨shorter, extendF⟩ := parseFraction_reads _ _ _ hf
                  obtain ⟨shorter', extendE⟩ := parseExponent_reads _ _ _ he
                  have signed := numberSign_length input
                  obtain ⟨formed, open_⟩ := numberOfToken_reads _ _ _ token
                  refine ⟨?_, formed, ?_⟩
                  · -- At least one digit was consumed.
                    have parts := congrArg List.length
                      (List.takeWhile_append_dropWhile (p := isDigit) (l := (numberSign input).2))
                    have some_ : 0 < ((numberSign input).2.takeWhile isDigit).length :=
                      List.length_pos_iff.mpr digits
                    rw [List.length_append] at parts
                    omega
                  · rintro (left | closed) more
                    · have left' : afterFraction ≠ [] := by
                        rintro rfl
                        exact left (List.length_eq_zero_iff.mp (Nat.le_zero.mp shorter'))
                      have left'' : (numberSign input).2.dropWhile isDigit ≠ [] := by
                        intro none
                        rw [none] at shorter
                        exact left' (List.length_eq_zero_iff.mp (Nat.le_zero.mp shorter))
                      have nonempty : input ≠ [] := by
                        rintro rfl
                        exact digits rfl
                      have longer := dropWhile_append_of_ne_nil isDigit _ more left''
                      unfold parseNumber
                      simp only [numberSign_append input more nonempty, longer.1, longer.2,
                        if_neg digits, extendF left' more, extendE left more, token]
                    · rw [open_] at closed
                      cases closed

theorem parseLiteral_reads (literal : Bytes) (value : JsonValue)
    (formed : value.WellFormed ∧ value.closed = true) (nonempty : literal ≠ []) :
    ReadsClosed (parseLiteral literal value) (parseLiteral literal value) := by
  intro input item rest h
  unfold parseLiteral at h
  split at h
  · next found =>
      cases h
      obtain ⟨tail, rfl⟩ := List.isPrefixOf_iff_prefix.mp found
      have positive := List.length_pos_iff.mpr nonempty
      rw [List.drop_left]
      refine ⟨by rw [List.length_append]; omega, formed, fun more => ?_⟩
      rw [parseLiteral, List.append_assoc, if_pos (List.isPrefixOf_iff_prefix.mpr ⟨_, rfl⟩),
        List.drop_left]
  · cases h

variable {limits limits' : JsonLimits}

theorem parseStringValue_reads (within : limits.Within limits') :
    ReadsClosed (parseStringValue limits) (parseStringValue limits') := by
  intro input item rest h
  unfold parseStringValue at h
  cases read : parseStringRaw limits input with
  | error reason => rw [read] at h; cases h
  | ok result =>
      obtain ⟨text, after⟩ := result
      rw [read] at h
      cases h
      obtain ⟨length, valid, extend⟩ := parseStringRaw_reads within _ _ _ read
      exact ⟨length, ⟨.string text valid, rfl⟩, fun more => by rw [parseStringValue, extend more]⟩

variable (close : UInt8)

theorem separator_reads (input rest : Bytes) (comma : Bool)
    (h : separator close input = some (comma, rest)) :
    rest.length < input.length ∧
      ∀ more, separator close (input ++ more) = some (comma, rest ++ more) := by
  unfold separator at h
  have shorter := length_skipWhitespace input
  have append := skipWhitespace_append input
  cases skipped : skipWhitespace input with
  | nil => rw [skipped] at h; cases h
  | cons c tail =>
      rw [skipped] at h shorter append
      simp only [List.length_cons] at shorter
      have same : rest = tail := by
        dsimp only at h
        split_ifs at h <;> cases h <;> rfl
      subst same
      refine ⟨by omega, fun more => ?_⟩
      rw [separator, append more (by simp), List.cons_append]
      dsimp only at h ⊢
      split_ifs at h ⊢ <;> cases h <;> rfl

section Containers
variable {limits limits' : JsonLimits} (within : limits.Within limits')
  {value value' : Bytes → Parsed JsonValue} (values : ReadsValues value value')
include within

include values in
theorem itemRound_reads :
    Scan.Reads (fun items => ∀ item ∈ items, item.WellFormed)
      (fun result => result.WellFormed ∧ result.closed = true)
      (itemRound limits value) (itemRound limits' value') := by
  intro items input round h
  unfold itemRound at h
  split at h
  · cases h
  · next room =>
      have room' : ¬ limits'.maxArrayItems ≤ items.length := by
        have larger := within.items
        omega
      cases read : value (skipWhitespace input) with
      | error reason => rw [read] at h; cases h
      | ok result =>
          obtain ⟨item, after⟩ := result
          obtain ⟨shorter, formed, extend⟩ := values _ _ _ read
          have skipped := length_skipWhitespace input
          have nonempty : skipWhitespace input ≠ [] := by
            intro none
            rw [none] at shorter
            exact absurd shorter (Nat.not_lt_zero _)
          rw [read] at h
          dsimp only at h
          have all (before : ∀ item ∈ items, item.WellFormed) :
              ∀ each ∈ items ++ [item], each.WellFormed := by
            simpa [List.mem_append, or_imp, forall_and] using ⟨before, formed⟩
          cases next : separator 93 after with
          | none => rw [next] at h; cases h
          | some found =>
              obtain ⟨comma, rest⟩ := found
              obtain ⟨shorter', extend'⟩ := separator_reads _ _ _ _ next
              have left : after ≠ [] := by
                rintro rfl
                exact absurd shorter' (Nat.not_lt_zero _)
              have longer (more : Bytes) :
                  itemRound limits' value' items (input ++ more) =
                    if comma then .ok (.again (items ++ [item]) (rest ++ more))
                    else .ok (.done (.array (items ++ [item])) (rest ++ more)) := by
                rw [itemRound, if_neg room', skipWhitespace_append input more nonempty,
                  extend (Or.inl left) more]
                dsimp only
                rw [extend' more]
                cases comma <;> rfl
              rw [next] at h
              cases comma with
              | true =>
                  cases h
                  exact ⟨by omega, all, longer⟩
              | false =>
                  cases h
                  exact ⟨by omega, fun before => ⟨.array _ (all before), rfl⟩, longer⟩

theorem parseKey_reads (members : List (Bytes × JsonValue)) (input key rest : Bytes)
    (h : parseKey limits members input = .ok (key, rest)) :
    rest.length < input.length ∧ ValidUtf8 key ∧
      ∀ more, parseKey limits' members (input ++ more) = .ok (key, rest ++ more) := by
  unfold parseKey at h
  split at h
  · cases h
  · next quoted =>
      cases read : parseStringRaw limits (skipWhitespace input) with
      | error reason => rw [read] at h; cases h
      | ok result =>
          obtain ⟨text, afterKey⟩ := result
          obtain ⟨shorter, valid, extend⟩ := parseStringRaw_reads within _ _ _ read
          have skipped := length_skipWhitespace input
          have skipped' := length_skipWhitespace afterKey
          have append := skipWhitespace_append afterKey
          have nonempty : skipWhitespace input ≠ [] := by
            intro none
            rw [none] at shorter
            exact absurd shorter (Nat.not_lt_zero _)
          rw [read] at h
          dsimp only at h
          split at h
          · cases h
          · next fresh =>
              split at h
              · cases h
              · next room =>
                  have room' : ¬ limits'.maxObjectMembers ≤ members.length := by
                    have larger := within.members
                    omega
                  cases colon : skipWhitespace afterKey with
                  | nil => rw [colon] at h; cases h
                  | cons c afterColon =>
                      rw [colon] at h append skipped'
                      dsimp only at h
                      split at h
                      · next same =>
                          cases h
                          simp only [List.length_cons] at skipped'
                          refine ⟨by omega, valid, fun more => ?_⟩
                          have head : ((skipWhitespace input) ++ more).head? =
                              (skipWhitespace input).head? := by
                            cases hskip : skipWhitespace input with
                            | nil => exact absurd hskip nonempty
                            | cons => rfl
                          rw [parseKey, skipWhitespace_append input more nonempty, head,
                            if_neg quoted, extend more]
                          dsimp only
                          rw [if_neg fresh, if_neg room', append more (by simp), List.cons_append]
                          simp only [if_pos same]
                      · cases h

include values in
theorem memberRound_reads :
    Scan.Reads
      (fun members => ∀ member ∈ members, ValidUtf8 member.1 ∧ member.2.WellFormed)
      (fun result => result.WellFormed ∧ result.closed = true)
      (memberRound limits value) (memberRound limits' value') := by
  intro members input round h
  unfold memberRound at h
  cases named : parseKey limits members input with
  | error reason => rw [named] at h; cases h
  | ok result =>
      obtain ⟨key, afterColon⟩ := result
      obtain ⟨shorter, valid, extend⟩ := parseKey_reads within _ _ _ _ named
      have skipped := length_skipWhitespace afterColon
      rw [named] at h
      dsimp only at h
      cases read : value (skipWhitespace afterColon) with
      | error reason => rw [read] at h; cases h
      | ok result =>
          obtain ⟨item, after⟩ := result
          obtain ⟨shorter', formed, extend'⟩ := values _ _ _ read
          have nonempty : skipWhitespace afterColon ≠ [] := by
            intro none
            rw [none] at shorter'
            exact absurd shorter' (Nat.not_lt_zero _)
          rw [read] at h
          dsimp only at h
          have all (before : ∀ member ∈ members, ValidUtf8 member.1 ∧ member.2.WellFormed) :
              ∀ member ∈ members ++ [(key, item)], ValidUtf8 member.1 ∧ member.2.WellFormed := by
            intro member present
            rcases List.mem_append.mp present with old | new
            · exact before member old
            · rw [List.mem_singleton.mp new]
              exact ⟨valid, formed⟩
          cases next : separator 125 after with
          | none => rw [next] at h; cases h
          | some found =>
              obtain ⟨comma, rest⟩ := found
              obtain ⟨shorter'', extend''⟩ := separator_reads _ _ _ _ next
              have left : after ≠ [] := by
                rintro rfl
                exact absurd shorter'' (Nat.not_lt_zero _)
              have longer (more : Bytes) :
                  memberRound limits' value' members (input ++ more) =
                    if comma then .ok (.again (members ++ [(key, item)]) (rest ++ more))
                    else .ok (.done (.object (members ++ [(key, item)])) (rest ++ more)) := by
                rw [memberRound, extend more]
                dsimp only
                rw [skipWhitespace_append afterColon more nonempty, extend' (Or.inl left) more]
                dsimp only
                rw [extend'' more]
                cases comma <;> rfl
              rw [next] at h
              cases comma with
              | true =>
                  cases h
                  exact ⟨by omega, all, longer⟩
              | false =>
                  cases h
                  refine ⟨by omega, fun before => ⟨.object _ ?_ ?_, rfl⟩, longer⟩
                  · exact fun member present => (all before member present).1
                  · exact fun member present => (all before member present).2

end Containers

theorem parseContainer_reads {α : Type} (empty : JsonValue)
    (formed : empty.WellFormed ∧ empty.closed = true) {inv : List α → Prop} (start : inv [])
    {body body' : Scan.Body (List α) JsonValue Error UInt8}
    (reads : Scan.Reads inv (fun result => result.WellFormed ∧ result.closed = true) body body')
    (consumes : Scan.Consumes body') :
    ReadsClosed (parseContainer close empty body) (parseContainer close empty body') := by
  intro input item rest h
  have skipped := length_skipWhitespace (input.drop 1)
  have append := skipWhitespace_append (input.drop 1)
  unfold parseContainer at h
  cases input with
  | nil =>
      obtain ⟨shorter, _⟩ := scanAll_reads reads consumes _ _ _ _ start h
      exact absurd shorter (Nat.not_lt_zero _)
  | cons first input =>
      rw [List.drop_one, List.tail_cons] at h skipped append
      cases inside : skipWhitespace input with
      | nil =>
          rw [inside] at h
          obtain ⟨shorter, _⟩ := scanAll_reads reads consumes _ _ _ _ start h
          exact absurd shorter (Nat.not_lt_zero _)
      | cons c tail =>
          rw [inside] at h skipped append
          simp only [List.length_cons] at skipped ⊢
          have longer (more : Bytes) : parseContainer close empty body' (first :: input ++ more) =
              if c = close then .ok (empty, tail ++ more)
              else scanAll body' [] (c :: tail ++ more) := by
            rw [parseContainer, List.cons_append, List.drop_one, List.tail_cons,
              append more (by simp)]
            rfl
          dsimp only at h
          split at h
          · next closing =>
              cases h
              refine ⟨by omega, formed, fun more => ?_⟩
              rw [longer, if_pos closing]
          · next opening =>
              obtain ⟨shorter, established, extend⟩ :=
                scanAll_reads reads consumes _ _ _ _ start h
              simp only [List.length_cons] at shorter
              refine ⟨by omega, established, fun more => ?_⟩
              rw [longer, if_neg opening, extend more]

variable (levels : Nat)

theorem parseValue_reads (within : limits.Within limits') :
    ReadsValues (parseValue limits levels) (parseValue limits' levels) := by
  induction levels generalizing limits with
  | zero =>
      intro input item rest h
      cases h
  | succ levels ih =>
      have items := itemRound_reads within (ih within)
      have members := memberRound_reads within (ih within)
      have items' := (itemRound_reads (.refl limits') (ih (.refl limits'))).consumes
      have members' := (memberRound_reads (.refl limits') (ih (.refl limits'))).consumes
      intro input item rest h
      cases input with
      | nil => cases h
      | cons c tail =>
          have dispatch (value value' : Bytes → Parsed JsonValue) (reads : ReadsValues value value')
              (here : parseValue limits (levels + 1) (c :: tail) = value (c :: tail))
              (there : ∀ more, parseValue limits' (levels + 1) (c :: tail ++ more) =
                value' (c :: tail ++ more)) :
              rest.length < (c :: tail).length ∧ item.WellFormed ∧
                (rest ≠ [] ∨ item.closed = true → ∀ more,
                  parseValue limits' (levels + 1) (c :: tail ++ more) =
                    .ok (item, rest ++ more)) := by
            obtain ⟨shorter, formed, extend⟩ := reads _ _ _ (here ▸ h)
            exact ⟨shorter, formed, fun ends more => by rw [there more, extend ends more]⟩
          -- One case for each byte the switch distinguishes.
          by_cases object : c = 123
          · subst object
            exact dispatch _ _ (parseContainer_reads _ _ ⟨.object [] (by simp) (by simp), rfl⟩
              (by simp) members members').values rfl fun _ => rfl
          by_cases array : c = 91
          · subst array
            exact dispatch _ _ (parseContainer_reads _ _ ⟨.array [] (by simp), rfl⟩ (by simp) items
              items').values rfl fun _ => rfl
          by_cases quote : c = 34
          · subst quote
            exact dispatch _ _ (parseStringValue_reads within).values rfl fun _ => rfl
          by_cases true_ : c = 116
          · subst true_
            exact dispatch _ _ (parseLiteral_reads _ _ ⟨.boolean true, rfl⟩ (by decide)).values rfl
              fun _ => rfl
          by_cases false_ : c = 102
          · subst false_
            exact dispatch _ _ (parseLiteral_reads _ _ ⟨.boolean false, rfl⟩ (by decide)).values rfl
              fun _ => rfl
          by_cases null : c = 110
          · subst null
            exact dispatch _ _ (parseLiteral_reads _ _ ⟨.null, rfl⟩ (by decide)).values rfl
              fun _ => rfl
          · apply dispatch _ _ parseNumber_reads
            · simp only [parseValue, if_neg object, if_neg array, if_neg quote, if_neg true_,
                if_neg false_, if_neg null]
            · intro more
              simp only [List.cons_append, parseValue, if_neg object, if_neg array, if_neg quote,
                if_neg true_, if_neg false_, if_neg null]

theorem parseObject_reads (within : limits.Within limits') :
    ReadsClosed (parseObject limits (parseValue limits levels))
      (parseObject limits' (parseValue limits' levels)) :=
  parseContainer_reads _ _ ⟨.object [] (by simp) (by simp), rfl⟩ (by simp)
    (memberRound_reads within (parseValue_reads levels within))
    (memberRound_reads (.refl limits') (parseValue_reads levels (.refl limits'))).consumes

theorem parseDocument_value (limits : JsonLimits) (text : Bytes) (value : JsonValue)
    (h : parseDocument limits text = .ok value) :
    ∃ rest, parseValue limits limits.maxDepth (skipWhitespace text) = .ok (value, rest) := by
  unfold parseDocument at h
  split at h
  · cases h
  · cases read : parseValue limits limits.maxDepth (skipWhitespace text) with
    | error reason => rw [read] at h; cases h
    | ok result =>
        obtain ⟨item, rest⟩ := result
        rw [read] at h
        dsimp only at h
        split at h
        · cases h
          exact ⟨rest, rfl⟩
        · cases h

theorem parseJson_wellFormed (text : Bytes) (limits : JsonLimits) (value : JsonValue)
    (h : parseJson text limits = .ok value) : value.WellFormed := by
  unfold parseJson at h
  split at h
  · cases h
  · obtain ⟨rest, read⟩ := parseDocument_value limits text value h
    exact (parseValue_reads _ (.refl limits) _ _ _ read).2.1

theorem JsonValue.WellFormed.find {document value : JsonValue} (formed : document.WellFormed)
    {key : Bytes} (found : document.find key = some value) : value.WellFormed := by
  cases formed with
  | object members keys each =>
      obtain ⟨member, hit, rfl⟩ := Option.map_eq_some_iff.mp found
      exact each member (List.mem_of_find?_eq_some hit)
  | _ => cases found

theorem parseJson_proper_prefix (within : limits.Within limits')
    (depth : limits'.maxDepth = limits.maxDepth) (text more : Bytes) (value : JsonValue)
    (whole : parseValue limits' limits'.maxDepth (123 :: text ++ more) = .ok (value, []))
    (left : more ≠ []) : ∃ reason, parseJson (123 :: text) limits = .error reason := by
  cases h : parseJson (123 :: text) limits with
  | error reason => exact ⟨reason, rfl⟩
  | ok item =>
      unfold parseJson at h
      split at h
      · cases h
      · obtain ⟨rest, read⟩ := parseDocument_value limits _ item h
        rw [show skipWhitespace (123 :: text) = 123 :: text from rfl] at read
        rw [depth] at whole
        cases levels : limits.maxDepth with
        | zero => rw [levels] at read; cases read
        | succ levels' =>
            rw [levels] at read whole
            obtain ⟨_, _, extend⟩ := parseObject_reads levels' within _ _ _ read
            have longer : parseValue limits' (levels' + 1) (123 :: text ++ more) =
                .ok (item, rest ++ more) := extend more
            rw [whole] at longer
            simp only [Except.ok.injEq, Prod.mk.injEq, List.nil_eq_append_iff] at longer
            exact absurd longer.2.2 left

end Mira
