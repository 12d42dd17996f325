import Mira.Json.Reading

/-!
The round trip of values. What either writer produces is read back to the value
it was written from, with the members of objects in the order they were written
in. Numbers that are not integers are left out: seventeen digits denote a nearby
rational, and whether it is the same one is a fact about binary64.
-/

namespace Mira
open Bytes

/-- The values a parser with these limits and nesting levels can read back. -/
inductive JsonValue.Portable (limits : JsonLimits) : Nat → JsonValue → Prop
  | null {levels : Nat} : Portable limits (levels + 1) .null
  | boolean {levels : Nat} (value : Bool) : Portable limits (levels + 1) (.boolean value)
  | integer {levels : Nat} (value : Int) (low : -2 ^ 63 < value) (high : value < 2 ^ 63) :
      Portable limits (levels + 1) (.integer value)
  | string {levels : Nat} (text : Bytes) (valid : ValidUtf8 text)
      (room : text.length < limits.maxStringBytes) : Portable limits (levels + 1) (.string text)
  | array {levels : Nat} (items : List JsonValue) (room : items.length ≤ limits.maxArrayItems)
      (each : ∀ item ∈ items, Portable limits levels item) :
      Portable limits (levels + 1) (.array items)
  | object {levels : Nat} (members : List (Bytes × JsonValue))
      (room : members.length ≤ limits.maxObjectMembers)
      (distinct : (members.map Prod.fst).Nodup)
      (keys : ∀ member ∈ members,
        ValidUtf8 member.1 ∧ member.1.length < limits.maxStringBytes)
      (each : ∀ member ∈ members, Portable limits levels member.2) :
      Portable limits (levels + 1) (.object members)

mutual

/-- The value with the members of every object in the order a writer visits them. -/
def JsonValue.arrange (canonical : Bool) : JsonValue → JsonValue
  | .array items => .array (arrangeItems canonical items)
  | .object members => .object (orderMembers canonical (arrangeMembers canonical members))
  | other => other

def arrangeItems (canonical : Bool) : List JsonValue → List JsonValue
  | [] => []
  | item :: rest => item.arrange canonical :: arrangeItems canonical rest

def arrangeMembers (canonical : Bool) :
    List (Bytes × JsonValue) → List (Bytes × JsonValue)
  | [] => []
  | (key, value) :: rest => (key, value.arrange canonical) :: arrangeMembers canonical rest

end

theorem writeItems_eq (canonical : Bool) (items : List JsonValue) :
    writeItems canonical items = items.map (writeValue canonical) := by
  induction items with
  | nil => rfl
  | cons item rest ih => rw [writeItems, ih, List.map_cons]

theorem arrangeItems_eq (canonical : Bool) (items : List JsonValue) :
    arrangeItems canonical items = items.map (JsonValue.arrange canonical) := by
  induction items with
  | nil => rfl
  | cons item rest ih => rw [arrangeItems, ih, List.map_cons]

theorem writeMembers_eq (canonical : Bool) (members : List (Bytes × JsonValue)) :
    writeMembers canonical members =
      members.map fun member => (member.1, writeValue canonical member.2) := by
  induction members with
  | nil => rfl
  | cons member rest ih => obtain ⟨key, value⟩ := member; rw [writeMembers, ih, List.map_cons]

theorem arrangeMembers_eq (canonical : Bool) (members : List (Bytes × JsonValue)) :
    arrangeMembers canonical members =
      members.map fun member => (member.1, member.2.arrange canonical) := by
  induction members with
  | nil => rfl
  | cons member rest ih => obtain ⟨key, value⟩ := member; rw [arrangeMembers, ih, List.map_cons]

theorem orderMembers_map {α β : Type} (canonical : Bool) (f : α → β)
    (members : List (Bytes × α)) :
    orderMembers canonical (members.map fun member => (member.1, f member.2)) =
      (orderMembers canonical members).map fun member => (member.1, f member.2) := by
  unfold orderMembers
  split
  · exact (List.map_insertionSort (fun a b : Bytes × α => keyLess b.1 a.1 = false)
      (fun a b : Bytes × β => keyLess b.1 a.1 = false) _ members fun _ _ _ _ => Iff.rfl).symm
  · rfl

theorem orderMembers_perm {α : Type} (canonical : Bool) (members : List (Bytes × α)) :
    (orderMembers canonical members).Perm members := by
  unfold orderMembers
  split
  · exact List.perm_insertionSort _ _
  · exact .refl _

/-- What may follow a number without becoming part of it. -/
def EndsNumber (rest : Bytes) : Prop :=
  ∀ c ∈ rest.head?, isDigit c = false ∧ c ≠ 46 ∧ c ≠ 101 ∧ c ≠ 69

/-- The text starts a value and is read to exactly this one. -/
structure ReadsTo (value : Bytes → Parsed JsonValue) (text : Bytes) (item : JsonValue) : Prop where
  starts : ∃ c rest, text = c :: rest ∧ isWhitespace c = false ∧ c ≠ 93
  reads : ∀ rest, EndsNumber rest → value (text ++ rest) = .ok (item, rest)

theorem skipWhitespace_solid (c : UInt8) (rest : Bytes) (solid : isWhitespace c = false) :
    skipWhitespace (c :: rest) = c :: rest := by
  simp [skipWhitespace, solid]

theorem ReadsTo.skip {value : Bytes → Parsed JsonValue} {text : Bytes} {item : JsonValue}
    (h : ReadsTo value text item) (rest : Bytes) : skipWhitespace (text ++ rest) = text ++ rest := by
  obtain ⟨c, tail, rfl, solid, _⟩ := h.starts
  exact skipWhitespace_solid c (tail ++ rest) solid

theorem joinWith_append (separator : UInt8) (text : Bytes) (texts : List Bytes) (rest : Bytes)
    (more : texts ≠ []) :
    joinWith separator (text :: texts) ++ rest =
      text ++ separator :: (joinWith separator texts ++ rest) := by
  cases texts with
  | nil => exact absurd rfl more
  | cons next texts => simp [joinWith]

theorem accepts_items {limits : JsonLimits} {value : Bytes → Parsed JsonValue}
    (pairs : List (Bytes × JsonValue)) (some_ : pairs ≠ [])
    (each : ∀ pair ∈ pairs, ReadsTo value pair.1 pair.2) (items : List JsonValue) (rest : Bytes)
    (room : items.length + pairs.length ≤ limits.maxArrayItems) :
    Scan.Accepts (itemRound limits value) items
      (joinWith 44 (pairs.map Prod.fst) ++ 93 :: rest)
      (.array (items ++ pairs.map Prod.snd)) rest := by
  induction pairs generalizing items with
  | nil => exact absurd rfl some_
  | cons pair pairs ih =>
      have own := each pair (by simp)
      simp only [List.length_cons] at room
      by_cases last : pairs = []
      · subst last
        apply Scan.Accepts.done
        have text : joinWith 44 (List.map Prod.fst [pair]) ++ 93 :: rest =
            pair.1 ++ 93 :: rest := rfl
        rw [text, itemRound, if_neg (by omega), own.skip, own.reads _ (by simp [EndsNumber]; decide)]
        rfl
      · have text : joinWith 44 (List.map Prod.fst (pair :: pairs)) ++ 93 :: rest =
            pair.1 ++ 44 :: (joinWith 44 (pairs.map Prod.fst) ++ 93 :: rest) := by
          rw [List.map_cons, joinWith_append _ _ _ _ (by simpa using last)]
        have later := ih last (fun p hp => each p (by simp [hp])) (items ++ [pair.2])
          (by simp only [List.length_append, List.length_singleton]; omega)
        rw [List.append_assoc, List.singleton_append, ← List.map_cons] at later
        refine .again ?_ later
        rw [text, itemRound, if_neg (by omega), own.skip, own.reads _ (by simp [EndsNumber]; decide)]
        rfl

/-- A member as it was written and as it is read. -/
structure MemberText where
  key : Bytes
  text : Bytes
  value : JsonValue

theorem parseKey_written {limits : JsonLimits} (members : List (Bytes × JsonValue))
    (key rest : Bytes) (valid : ValidUtf8 key) (short : key.length < limits.maxStringBytes)
    (fresh : key ∉ members.map Prod.fst) (room : members.length < limits.maxObjectMembers) :
    parseKey limits members (writeString key ++ 58 :: rest) = .ok (key, rest) := by
  have quoted : skipWhitespace (writeString key ++ 58 :: rest) = writeString key ++ 58 :: rest :=
    skipWhitespace_solid 34 _ rfl
  have head : (writeString key ++ 58 :: rest).head? = some 34 := rfl
  have unused : (members.any fun member => member.1 = key) = false := by
    rw [List.any_eq_false]
    intro member present same
    exact fresh (List.mem_map.mpr ⟨member, present, of_decide_eq_true same⟩)
  rw [parseKey, quoted, head, if_neg (by simp), parseStringRaw_writeString limits key _ valid short]
  dsimp only
  rw [unused, if_neg (by simp), if_neg (by omega)]
  rfl

theorem accepts_members {limits : JsonLimits} {value : Bytes → Parsed JsonValue}
    (texts : List MemberText) (some_ : texts ≠ [])
    (each : ∀ member ∈ texts, ReadsTo value member.text member.value)
    (keys : ∀ member ∈ texts, ValidUtf8 member.key ∧ member.key.length < limits.maxStringBytes)
    (members : List (Bytes × JsonValue))
    (distinct : (members.map Prod.fst ++ texts.map MemberText.key).Nodup) (rest : Bytes)
    (room : members.length + texts.length ≤ limits.maxObjectMembers) :
    Scan.Accepts (memberRound limits value) members
      (joinWith 44 (texts.map fun member => writeMember (member.key, member.text)) ++ 125 :: rest)
      (.object (members ++ texts.map fun member => (member.key, member.value))) rest := by
  induction texts generalizing members with
  | nil => exact absurd rfl some_
  | cons member texts ih =>
      have own := each member (by simp)
      have ownKey := keys member (by simp)
      simp only [List.length_cons] at room
      have fresh : member.key ∉ members.map Prod.fst := by
        intro present
        rw [List.map_cons] at distinct
        exact (List.nodup_append.mp distinct).2.2 _ present _ (by simp) rfl
      have round (after rest' : Bytes) (ends : EndsNumber after) (again : Bool)
          (found : separator 125 after = some (again, rest')) :
          memberRound limits value members (writeMember (member.key, member.text) ++ after) =
            .ok (bif again then .again (members ++ [(member.key, member.value)]) rest'
              else .done (.object (members ++ [(member.key, member.value)])) rest') := by
        rw [memberRound, writeMember, List.append_assoc, List.cons_append,
          parseKey_written members member.key _ ownKey.1 ownKey.2 fresh (by omega)]
        cases again <;> simp only [own.skip, own.reads after ends, found, cond_true, cond_false]
      by_cases last : texts = []
      · subst last
        exact .done (round (125 :: rest) rest (by simp [EndsNumber]; decide) false rfl)
      · have text : joinWith 44 ((member :: texts).map fun member =>
              writeMember (member.key, member.text)) ++ 125 :: rest =
            writeMember (member.key, member.text) ++ 44 ::
              (joinWith 44 (texts.map fun member => writeMember (member.key, member.text)) ++
                125 :: rest) := by
          rw [List.map_cons, joinWith_append _ _ _ _ (by simpa using last)]
        have later := ih last (fun m hm => each m (by simp [hm])) (fun m hm => keys m (by simp [hm]))
          (members ++ [(member.key, member.value)]) (by simpa using distinct)
          (by simp only [List.length_append, List.length_singleton]; omega)
        rw [List.append_assoc, List.singleton_append] at later
        rw [text, List.map_cons]
        exact .again (round _ _ (by simp [EndsNumber]; decide) true rfl) later

theorem digitValue_fold_le (digits : Bytes) (value : Nat) :
    value ≤ digits.foldl (fun value c => value * 10 + digitValue c) value := by
  induction digits generalizing value with
  | nil => exact le_rfl
  | cons c rest ih => exact (show value ≤ value * 10 + digitValue c by omega).trans (ih _)

theorem accumulateDigits_fold (digits : Bytes) (value : Nat)
    (small : digits.foldl (fun value c => value * 10 + digitValue c) value ≤ 2 ^ 63 - 1) :
    accumulateDigits value digits =
      some (digits.foldl (fun value c => value * 10 + digitValue c) value) := by
  induction digits generalizing value with
  | nil => rfl
  | cons c rest ih =>
      have first := digitValue_fold_le rest (value * 10 + digitValue c)
      rw [List.foldl_cons] at small ⊢
      have digit := digitValue_le c
      rw [accumulateDigits, if_neg (by omega), ih _ small]

theorem takeWhile_digits (digits rest : Bytes) (all : digits.all isDigit = true)
    (ends : EndsNumber rest) :
    (digits ++ rest).takeWhile isDigit = digits ∧ (digits ++ rest).dropWhile isDigit = rest := by
  induction digits with
  | nil =>
      cases rest with
      | nil => exact ⟨rfl, rfl⟩
      | cons c rest =>
          have stop := (ends c rfl).1
          simp [stop]
  | cons d digits ih =>
      rw [List.all_cons, Bool.and_eq_true] at all
      simp [all.1, ih all.2]

theorem parseFraction_ends (rest : Bytes) (ends : EndsNumber rest) :
    parseFraction rest = .ok (none, rest) := by
  unfold parseFraction
  split
  · exact absurd rfl (ends 46 rfl).2.1
  · rfl

theorem parseExponent_ends (rest : Bytes) (ends : EndsNumber rest) :
    parseExponent rest = .ok (none, rest) := by
  cases rest with
  | nil => rfl
  | cons c rest =>
      obtain ⟨_, _, lower, upper⟩ := ends c rfl
      rw [parseExponent, if_neg (by simp [lower, upper])]

theorem parseNumber_digits (negative : Bool) (n : Nat) (small : n ≤ 2 ^ 63 - 1)
    (input rest : Bytes) (ends : EndsNumber rest)
    (signed : numberSign input = (negative, decimal n ++ rest)) :
    parseNumber input = .ok (.integer (if negative then -n else n), rest) := by
  obtain ⟨digits, after⟩ := takeWhile_digits (decimal n) rest (all_isDigit_decimal n) ends
  have value : accumulateDigits 0 (decimal n) = some n := by
    have folded := decimalValue_decimal n
    unfold decimalValue at folded
    rw [accumulateDigits_fold _ _ (by rw [folded]; exact small), folded]
  unfold parseNumber
  simp only [signed, digits, after, decimal_ne_nil, if_false, parseFraction_ends rest ends,
    parseExponent_ends rest ends, numberOfToken, Option.isSome_none, Bool.or_false,
    Bool.false_eq_true, value]

theorem decimal_head (n : Nat) : ∃ c rest, decimal n = c :: rest ∧ isDigit c = true := by
  have digits := all_isDigit_decimal n
  cases h : decimal n with
  | nil => exact absurd h (decimal_ne_nil n)
  | cons c rest =>
      rw [h, List.all_cons, Bool.and_eq_true] at digits
      exact ⟨c, rest, rfl, digits.1⟩

theorem isDigit_plain (c : UInt8) (digit : isDigit c = true) :
    isWhitespace c = false ∧ c ≠ 45 ∧ c ≠ 123 ∧ c ≠ 91 ∧ c ≠ 34 ∧ c ≠ 116 ∧ c ≠ 102 ∧ c ≠ 110 ∧
      c ≠ 93 := by
  simp only [isDigit, Bool.and_eq_true, decide_eq_true_eq, UInt8.le_iff_toNat_le,
    UInt8.reduceToNat] at digit
  have other (d : UInt8) (out : d.toNat < 48 ∨ 57 < d.toNat) : c ≠ d := by
    intro same
    rw [same] at digit
    omega
  have solid : isWhitespace c = false := by
    simp only [isWhitespace, other 32 (by decide), other 9 (by decide), other 13 (by decide),
      other 10 (by decide), decide_false, Bool.or_false]
  exact ⟨solid, other 45 (by decide), other 123 (by decide), other 91 (by decide),
    other 34 (by decide), other 116 (by decide), other 102 (by decide), other 110 (by decide),
    other 93 (by decide)⟩

theorem readsTo_integer (limits : JsonLimits) (levels : Nat) (value : Int) (low : -2 ^ 63 < value)
    (high : value < 2 ^ 63) :
    ReadsTo (parseValue limits (levels + 1)) (decimalInt value) (.integer value) := by
  obtain ⟨c, digits, written, digit⟩ := decimal_head value.natAbs
  obtain ⟨solid, minus, object, array, quote, true_, false_, null, close⟩ := isDigit_plain c digit
  unfold decimalInt
  by_cases negative : value < 0
  · rw [if_pos negative]
    refine ⟨⟨45, _, rfl, rfl, by decide⟩, fun rest ends => ?_⟩
    have read := parseNumber_digits true value.natAbs (by omega)
      (45 :: decimal value.natAbs ++ rest) rest ends rfl
    rw [if_pos rfl, show -(value.natAbs : Int) = value by omega] at read
    exact read
  · rw [if_neg negative]
    refine ⟨⟨c, digits, written, solid, close⟩, fun rest ends => ?_⟩
    have unsigned : numberSign (decimal value.natAbs ++ rest) =
        (false, decimal value.natAbs ++ rest) := by
      rw [written, List.cons_append]
      simp [numberSign, minus]
    have read := parseNumber_digits false value.natAbs (by omega) _ rest ends unsigned
    simp only [Bool.false_eq_true, if_false, show (value.natAbs : Int) = value by omega] at read
    rw [written, List.cons_append] at read ⊢
    rw [parseValue, if_neg object, if_neg array, if_neg quote, if_neg true_, if_neg false_,
      if_neg null, read]

theorem readsTo_literal (limits : JsonLimits) (levels : Nat) (literal : Bytes) (value : JsonValue)
    (starts : ∃ c rest, literal = c :: rest ∧ isWhitespace c = false ∧ c ≠ 93)
    (dispatch : ∀ rest, parseValue limits (levels + 1) (literal ++ rest) =
      parseLiteral literal value (literal ++ rest)) :
    ReadsTo (parseValue limits (levels + 1)) literal value := by
  refine ⟨starts, fun rest _ => ?_⟩
  rw [dispatch, parseLiteral, if_pos (List.isPrefixOf_iff_prefix.mpr ⟨rest, rfl⟩), List.drop_left]

theorem readsTo_array (limits : JsonLimits) (levels : Nat) (pairs : List (Bytes × JsonValue))
    (each : ∀ pair ∈ pairs, ReadsTo (parseValue limits levels) pair.1 pair.2)
    (room : pairs.length ≤ limits.maxArrayItems) :
    ReadsTo (parseValue limits (levels + 1)) (91 :: (joinWith 44 (pairs.map Prod.fst) ++ [93]))
      (.array (pairs.map Prod.snd)) := by
  refine ⟨⟨91, _, rfl, rfl, by decide⟩, fun rest _ => ?_⟩
  rw [List.cons_append, List.append_assoc, List.singleton_append]
  change parseArray limits (parseValue limits levels) _ = _
  rw [parseArray, parseContainer, List.drop_one, List.tail_cons]
  by_cases none : pairs = []
  · subst none
    rfl
  · have run := accepts_items pairs none each [] rest (by simpa using room)
    have solid : ∃ c tail, joinWith 44 (pairs.map Prod.fst) ++ 93 :: rest = c :: tail ∧
        isWhitespace c = false ∧ c ≠ 93 := by
      cases pairs with
      | nil => exact absurd rfl none
      | cons pair pairs =>
          obtain ⟨c, tail, shape, solid, open_⟩ := (each pair (by simp)).starts
          cases pairs with
          | nil => exact ⟨c, tail ++ 93 :: rest, by simp [joinWith, shape], solid, open_⟩
          | cons next pairs =>
              exact ⟨c, _, by rw [List.map_cons, joinWith_append _ _ _ _ (by simp), shape]; rfl,
                solid, open_⟩
    obtain ⟨c, tail, shape, solid, open_⟩ := solid
    rw [shape] at run ⊢
    rw [skipWhitespace_solid c tail solid]
    dsimp only
    rw [if_neg open_]
    exact Scan.loop_of_accepts (itemRound_reads (.refl limits) (parseValue_reads levels
      (.refl limits))).consumes _ run _ (Nat.lt_succ_self _)

theorem readsTo_object (limits : JsonLimits) (levels : Nat) (texts : List MemberText)
    (each : ∀ member ∈ texts, ReadsTo (parseValue limits levels) member.text member.value)
    (keys : ∀ member ∈ texts, ValidUtf8 member.key ∧ member.key.length < limits.maxStringBytes)
    (distinct : (texts.map MemberText.key).Nodup)
    (room : texts.length ≤ limits.maxObjectMembers) :
    ReadsTo (parseValue limits (levels + 1))
      (123 :: (joinWith 44 (texts.map fun member => writeMember (member.key, member.text)) ++
        [125]))
      (.object (texts.map fun member => (member.key, member.value))) := by
  refine ⟨⟨123, _, rfl, rfl, by decide⟩, fun rest _ => ?_⟩
  rw [List.cons_append, List.append_assoc, List.singleton_append]
  change parseObject limits (parseValue limits levels) _ = _
  rw [parseObject, parseContainer, List.drop_one, List.tail_cons]
  by_cases none : texts = []
  · subst none
    rfl
  · have run := accepts_members texts none each keys [] (by simpa using distinct) rest
      (by simpa using room)
    have quote : ∃ tail, joinWith 44 (texts.map fun member =>
        writeMember (member.key, member.text)) ++ 125 :: rest = 34 :: tail := by
      cases texts with
      | nil => exact absurd rfl none
      | cons member texts =>
          cases texts with
          | nil => exact ⟨_, rfl⟩
          | cons next texts =>
              exact ⟨_, by rw [List.map_cons, joinWith_append _ _ _ _ (by simp)]; rfl⟩
    obtain ⟨tail, shape⟩ := quote
    rw [shape] at run ⊢
    rw [skipWhitespace_solid 34 tail rfl]
    exact Scan.loop_of_accepts (memberRound_reads (.refl limits) (parseValue_reads levels
      (.refl limits))).consumes _ run _ (Nat.lt_succ_self _)

theorem readsTo_writeValue (canonical : Bool) (limits : JsonLimits) (levels : Nat)
    (value : JsonValue) (portable : value.Portable limits levels) :
    ReadsTo (parseValue limits levels) (writeValue canonical value) (value.arrange canonical) := by
  induction levels generalizing value with
  | zero => cases portable
  | succ levels ih =>
      cases portable with
      | null => exact readsTo_literal limits levels _ _ ⟨110, _, rfl, rfl, by decide⟩ fun _ => rfl
      | boolean value =>
          cases value with
          | true =>
              exact readsTo_literal limits levels _ _ ⟨116, _, rfl, rfl, by decide⟩ fun _ => rfl
          | false =>
              exact readsTo_literal limits levels _ _ ⟨102, _, rfl, rfl, by decide⟩ fun _ => rfl
      | integer value low high => exact readsTo_integer limits levels value low high
      | string text valid room =>
          refine ⟨⟨34, _, rfl, rfl, by decide⟩, fun rest _ => ?_⟩
          change parseStringValue limits (writeString text ++ rest) = _
          rw [parseStringValue, parseStringRaw_writeString limits text rest valid room]
          rfl
      | array items room each =>
          have pairs := readsTo_array limits levels
            (items.map fun item => (writeValue canonical item, item.arrange canonical))
            (by
              intro pair present
              obtain ⟨item, member, rfl⟩ := List.mem_map.mp present
              exact ih item (each item member))
            (by simpa using room)
          simpa only [writeValue, JsonValue.arrange, writeItems_eq, arrangeItems_eq, List.map_map,
            Function.comp_def] using pairs
      | object members room distinct keys each =>
          -- The texts and the values are ordered alike, since only keys are compared.
          have perm := orderMembers_perm canonical members
          have texts := readsTo_object limits levels
            ((orderMembers canonical members).map fun member =>
              ⟨member.1, writeValue canonical member.2, member.2.arrange canonical⟩)
            (by
              intro text present
              obtain ⟨member, found, rfl⟩ := List.mem_map.mp present
              exact ih member.2 (each member (perm.mem_iff.mp found)))
            (by
              intro text present
              obtain ⟨member, found, rfl⟩ := List.mem_map.mp present
              exact keys member (perm.mem_iff.mp found))
            (by
              have same := (perm.map Prod.fst).nodup_iff.mpr distinct
              simpa only [List.map_map, Function.comp_def] using same)
            (by rw [List.length_map, perm.length_eq]; exact room)
          simpa only [writeValue, JsonValue.arrange, writeMembers_eq, arrangeMembers_eq,
            orderMembers_map, List.map_map, Function.comp_def] using texts

theorem parseJson_of_reads {limits : JsonLimits} {text : Bytes} {value : JsonValue}
    (reads : ReadsTo (parseValue limits limits.maxDepth) text value)
    (room : text.length ≤ limits.maxDocumentBytes) : parseJson text limits = .ok value := by
  have skip := reads.skip []
  have read := reads.reads [] (by simp [EndsNumber])
  obtain ⟨c, tail, shape, _⟩ := reads.starts
  rw [List.append_nil] at skip read
  rw [parseJson, if_neg (by omega), parseDocument, skip]
  rw [shape] at read ⊢
  dsimp only
  rw [read]
  rfl

theorem parseJson_writeValue (canonical : Bool) (limits : JsonLimits) (value : JsonValue)
    (portable : value.Portable limits limits.maxDepth)
    (room : (writeValue canonical value).length ≤ limits.maxDocumentBytes) :
    parseJson (writeValue canonical value) limits = .ok (value.arrange canonical) :=
  parseJson_of_reads (readsTo_writeValue canonical limits limits.maxDepth value portable) room

def Printable (text : Bytes) : Prop := ∀ b ∈ text, 0x20 ≤ b.toNat

theorem Printable.append {a b : Bytes} (ha : Printable a) (hb : Printable b) :
    Printable (a ++ b) := by
  intro c present
  rcases List.mem_append.mp present with h | h
  · exact ha c h
  · exact hb c h

theorem Printable.cons {b : UInt8} {text : Bytes} (hb : 0x20 ≤ b.toNat) (ht : Printable text) :
    Printable (b :: text) :=
  Printable.append (a := [b]) (by simpa [Printable] using hb) ht

theorem printable_ascii (text : Bytes) (h : text.all (fun b => 0x20 ≤ b.toNat) = true) :
    Printable text := by
  intro b present
  simpa using List.all_eq_true.mp h b present

theorem printable_hexByte (b : UInt8) : Printable (hexByte b) := by
  have digit : ∀ n < 16, 0x20 ≤ (hexDigit n).toNat := by decide
  have high : b.toNat / 16 < 16 := by
    have small := b.toNat_lt
    omega
  intro c present
  simp only [hexByte, List.mem_cons, List.not_mem_nil, or_false] at present
  rcases present with rfl | rfl
  · exact digit _ high
  · exact digit _ (Nat.mod_lt _ (by decide))

theorem printable_escapeByte (b : UInt8) : Printable (escapeByte b) := by
  simp only [escapeByte]
  split_ifs with h1 h2 h3 h4 h5 h6 h7 control
  · exact printable_ascii _ (by decide)
  · exact printable_ascii _ (by decide)
  · exact printable_ascii _ (by decide)
  · exact printable_ascii _ (by decide)
  · exact printable_ascii _ (by decide)
  · exact printable_ascii _ (by decide)
  · exact printable_ascii _ (by decide)
  · exact (printable_ascii [92, 117, 48, 48] (by decide)).append (printable_hexByte b)
  · intro c own
    rw [List.mem_singleton.mp own]
    exact Nat.not_lt.mp fun low => control (UInt8.lt_iff_toNat_lt.mpr low)

theorem printable_writeChar (c : Char) : Printable (writeChar c) := by
  unfold writeChar
  split
  · exact printable_escapeByte _
  · next wide =>
      obtain ⟨lead, tail, shape, high, _, _, each, _⟩ := encode_wide c (by omega)
      rw [shape]
      refine .cons (by omega) fun b present => ?_
      have range := each b present
      unfold IsContinuation at range
      omega

theorem printable_writeString (text : Bytes) (valid : ValidUtf8 text) :
    Printable (writeString text) := by
  obtain ⟨chars, rfl⟩ := valid
  have body : Printable (writeStringBody 0 (chars.flatMap String.utf8EncodeChar)) := by
    induction chars with
    | nil => simp [writeStringBody, Printable]
    | cons c chars ih =>
        rw [List.flatMap_cons, writeStringBody_char]
        exact (printable_writeChar c).append ih
  exact .cons (by decide) (body.append (printable_ascii [34] rfl))

theorem printable_decimalInt (value : Int) : Printable (decimalInt value) := by
  have digits : Printable (decimal value.natAbs) := by
    intro b present
    have digit := List.all_eq_true.mp (all_isDigit_decimal value.natAbs) b present
    simp only [isDigit, Bool.and_eq_true, decide_eq_true_eq] at digit
    have low : (48 : UInt8).toNat ≤ b.toNat := digit.1
    exact le_trans (by decide) low
  unfold decimalInt
  split
  · exact .cons (by decide) digits
  · exact digits

theorem printable_joinWith (separator : UInt8) (high : 0x20 ≤ separator.toNat)
    (texts : List Bytes) (each : ∀ text ∈ texts, Printable text) :
    Printable (joinWith separator texts) := by
  induction texts with
  | nil => simp [joinWith, Printable]
  | cons text texts ih =>
      have later := ih fun other present => each other (by simp [present])
      cases texts with
      | nil => exact each text (by simp)
      | cons next texts => exact (each text (by simp)).append (.cons high later)

theorem printable_writeValue (canonical : Bool) (limits : JsonLimits) (levels : Nat)
    (value : JsonValue) (portable : value.Portable limits levels) :
    Printable (writeValue canonical value) := by
  induction levels generalizing value with
  | zero => cases portable
  | succ levels ih =>
      cases portable with
      | null => exact printable_ascii _ rfl
      | boolean value => cases value <;> exact printable_ascii _ rfl
      | integer value => exact printable_decimalInt value
      | string text valid => exact printable_writeString text valid
      | array items room each =>
          rw [writeValue, writeItems_eq]
          refine .cons (by decide) (.append (printable_joinWith 44 (by decide) _ ?_)
            (printable_ascii [93] rfl))
          intro text present
          obtain ⟨item, member, rfl⟩ := List.mem_map.mp present
          exact ih item (each item member)
      | object members room distinct keys each =>
          rw [writeValue, writeMembers_eq, orderMembers_map, List.map_map]
          refine .cons (by decide) (.append (printable_joinWith 44 (by decide) _ ?_)
            (printable_ascii [125] rfl))
          intro text present
          obtain ⟨member, found, rfl⟩ := List.mem_map.mp present
          have original := (orderMembers_perm canonical members).mem_iff.mp found
          exact (printable_writeString _ (keys member original).1).append
            (.cons (by decide) (ih member.2 (each member original)))

theorem length_writeStringBody (continuation : Nat) (text : Bytes) :
    text.length ≤ (writeStringBody continuation text).length := by
  induction text generalizing continuation with
  | nil => simp
  | cons c rest ih =>
      cases continuation with
      | zero =>
          have copied := ih (continuationCount c)
          have escaped := (length_escapeByte c).1
          simp only [writeStringBody, List.length_append, List.length_cons]
          omega
      | succ continuation => simpa [writeStringBody] using ih continuation

theorem length_writeString (text : Bytes) : text.length < (writeString text).length := by
  have body := length_writeStringBody 0 text
  simp only [writeString, List.length_cons, List.length_append]
  omega

theorem length_joinWith (separator : UInt8) (texts : List Bytes) (text : Bytes)
    (present : text ∈ texts) : text.length ≤ (joinWith separator texts).length := by
  induction texts with
  | nil => cases present
  | cons first texts ih =>
      cases texts with
      | nil => rw [List.mem_singleton.mp present]; exact le_rfl
      | cons next texts =>
          simp only [joinWith, List.length_append, List.length_cons]
          rcases List.mem_cons.mp present with rfl | later
          · omega
          · have bound := ih later
            omega

theorem length_member (canonical : Bool) (members : List (Bytes × JsonValue))
    (member : Bytes × JsonValue) (present : member ∈ members) :
    member.1.length < (writeValue canonical (.object members)).length ∧
      (writeValue canonical member.2).length <
        (writeValue canonical (.object members)).length := by
  have written : writeMember (member.1, writeValue canonical member.2) ∈
      (orderMembers canonical (writeMembers canonical members)).map writeMember := by
    rw [writeMembers_eq, orderMembers_map, List.map_map]
    exact List.mem_map.mpr ⟨member, (orderMembers_perm canonical members).mem_iff.mpr present, rfl⟩
  have joined := length_joinWith 44 _ _ written
  have key := length_writeString member.1
  simp only [writeMember, List.length_append, List.length_cons] at joined
  rw [writeValue]
  simp only [List.length_append, List.length_cons]
  omega

theorem JsonValue.find_eq_some_iff {members : List (Bytes × JsonValue)}
    (distinct : (members.map Prod.fst).Nodup) (key : Bytes) (value : JsonValue) :
    (JsonValue.object members).find key = some value ↔ (key, value) ∈ members := by
  simp only [JsonValue.find, Option.map_eq_some_iff]
  constructor
  · rintro ⟨member, hit, rfl⟩
    have same : member.1 = key := by simpa using List.find?_some hit
    rw [← same]
    exact List.mem_of_find?_eq_some hit
  · intro present
    refine ⟨(key, value), ?_, rfl⟩
    induction members with
    | nil => cases present
    | cons head tail ih =>
        rw [List.map_cons, List.nodup_cons] at distinct
        rcases List.mem_cons.mp present with rfl | later
        · simp
        · have other : head.1 ≠ key := by
            rintro rfl
            exact distinct.1 (List.mem_map.mpr ⟨_, later, rfl⟩)
          rw [List.find?_cons_of_neg (by simpa using other)]
          exact ih distinct.2 later

theorem JsonValue.find_perm {members members' : List (Bytes × JsonValue)}
    (perm : members.Perm members') (distinct : (members.map Prod.fst).Nodup) (key : Bytes) :
    (JsonValue.object members).find key = (JsonValue.object members').find key := by
  have distinct' := (perm.map Prod.fst).nodup_iff.mp distinct
  apply Option.ext
  intro value
  rw [JsonValue.find_eq_some_iff distinct, JsonValue.find_eq_some_iff distinct']
  exact perm.mem_iff

end Mira
