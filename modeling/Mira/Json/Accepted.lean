import Mira.Json.Joined

/-!
Values of the grammar against the parser. A spelled value without a string of the full length
is read to what it spells; what is read was spelled so.
-/

namespace Mira
open Bytes

theorem skipWhitespace_stops {input : Bytes} (solid : Stops isWhitespace input) :
    skipWhitespace input = input :=
  Blank.skip ⟨[], rfl⟩ input solid

theorem skipWhitespace_skip (input : Bytes) :
    skipWhitespace (skipWhitespace input) = skipWhitespace input := by
  obtain ⟨_, _, solid⟩ := exists_blank input
  exact skipWhitespace_stops solid

theorem separator_blank (close : UInt8) (closes : IsSeparator close) (comma : close ≠ 44)
    (blank : Blank) (again : Bool) (more : Bytes) :
    separator close (blank.bytes ++ (if again then 44 else close) :: more) =
      some (again, more) := by
  have separates : IsSeparator (if again then 44 else close) := by
    cases again
    · exact closes
    · exact .inl rfl
  rw [separator, blank.skip _ (separates.stops more)]
  cases again
  · simp [comma]
  · rfl

theorem blank_of_separator {close : UInt8} {input rest : Bytes} {again : Bool}
    (found : separator close input = some (again, rest)) :
    ∃ blank : Blank, input = blank.bytes ++ (if again then 44 else close) :: rest := by
  obtain ⟨blank, shape, _⟩ := exists_blank input
  refine ⟨blank, ?_⟩
  unfold separator at found
  cases skipped : skipWhitespace input with
  | nil => rw [skipped] at found; cases found
  | cons c tail =>
      rw [skipped] at found shape
      rw [shape]
      dsimp only at found
      split at found
      · next comma =>
          cases found
          rw [comma, if_pos rfl]
      · split at found
        · next closing =>
            cases found
            rw [closing]
            rfl
        · cases found

theorem parseContainer_accepts {α : Type} {close : UInt8} {empty result : JsonValue}
    {body : Scan.Body (List α) JsonValue Error UInt8} (consumes : Scan.Consumes body)
    {input rest : Bytes} (opened : UInt8)
    (skips : body [] (skipWhitespace input) = body [] input)
    (first : (skipWhitespace input).head? ≠ some close)
    (run : Scan.Accepts body [] input result rest) :
    parseContainer close empty body (opened :: input) = .ok (result, rest) := by
  have whole : scanAll body [] (skipWhitespace input) = .ok (result, rest) :=
    Scan.loop_of_accepts consumes _ (run.of_same skips) _ (Nat.lt_succ_self _)
  rw [parseContainer, List.drop_one, List.tail_cons]
  cases inside : skipWhitespace input with
  | nil =>
      rw [inside] at whole
      exact whole
  | cons c tail =>
      rw [inside] at whole first
      have other : c ≠ close := fun same => first (by rw [same]; rfl)
      dsimp only
      rw [if_neg other, whole]

theorem accepts_of_parseContainer {α : Type} {close opened : UInt8} {empty result : JsonValue}
    {body : Scan.Body (List α) JsonValue Error UInt8} {input rest : Bytes}
    (skips : body [] (skipWhitespace input) = body [] input)
    (read : parseContainer close empty body (opened :: input) = .ok (result, rest)) :
    (result = empty ∧ ∃ blank : Blank, input = blank.bytes ++ close :: rest) ∨
      Scan.Accepts body [] input result rest := by
  obtain ⟨blank, shape, _⟩ := exists_blank input
  rw [parseContainer, List.drop_one, List.tail_cons] at read
  cases inside : skipWhitespace input with
  | nil =>
      rw [inside] at read skips
      exact .inr ((Scan.accepts_of_loop read).of_same skips.symm)
  | cons c tail =>
      rw [inside] at read skips shape
      dsimp only at read
      split at read
      · next closing =>
          cases read
          exact .inl ⟨rfl, blank, by rw [← closing]; exact shape⟩
      · exact .inr ((Scan.accepts_of_loop read).of_same skips.symm)

theorem itemRound_skip (limits : JsonLimits) (value : Bytes → Parsed JsonValue)
    (items : List JsonValue) (input : Bytes) :
    itemRound limits value items (skipWhitespace input) = itemRound limits value items input := by
  rw [itemRound, itemRound, skipWhitespace_skip]

theorem memberRound_skip (limits : JsonLimits) (value : Bytes → Parsed JsonValue)
    (members : List (Bytes × JsonValue)) (input : Bytes) :
    memberRound limits value members (skipWhitespace input) =
      memberRound limits value members input := by
  rw [memberRound, memberRound, parseKey, parseKey, skipWhitespace_skip]

theorem Spells.starts {limits : JsonLimits} {levels : Nat} {text : Bytes} {value : JsonValue}
    {marks : Marks} (spelled : Spells limits levels text value marks) :
    ∃ c rest, text = c :: rest ∧ isWhitespace c = false ∧ c ≠ 93 := by
  cases spelled with
  | null => exact ⟨110, _, rfl, rfl, by decide⟩
  | boolean value =>
      cases value with
      | true => exact ⟨116, _, rfl, rfl, by decide⟩
      | false => exact ⟨102, _, rfl, rfl, by decide⟩
  | number number =>
      unfold NumberText.text
      cases number.negative with
      | true => exact ⟨45, _, rfl, rfl, by decide⟩
      | false =>
          obtain ⟨c, tail, shape, digit⟩ := number.whole.first
          obtain ⟨solid, _, _, _, _, _, _, _, close⟩ := isDigit_plain c digit
          rw [shape]
          exact ⟨c, _, rfl, solid, close⟩
  | string => exact ⟨34, _, rfl, rfl, by decide⟩
  | emptyArray => exact ⟨91, _, rfl, rfl, by decide⟩
  | array => exact ⟨91, _, rfl, rfl, by decide⟩
  | emptyObject => exact ⟨123, _, rfl, rfl, by decide⟩
  | object => exact ⟨123, _, rfl, rfl, by decide⟩

theorem Spells.stops {limits : JsonLimits} {levels : Nat} {text : Bytes} {value : JsonValue}
    {marks : Marks} (spelled : Spells limits levels text value marks) (rest : Bytes) :
    Stops isWhitespace (text ++ rest) := by
  obtain ⟨c, tail, rfl, solid, _⟩ := spelled.starts
  intro first here
  cases here
  exact solid

theorem parseValue_number (limits : JsonLimits) (levels : Nat) (number : NumberText)
    (rest : Bytes) :
    parseValue limits (levels + 1) (number.text ++ rest) = parseNumber (number.text ++ rest) := by
  unfold NumberText.text
  cases number.negative with
  | true => rfl
  | false =>
      obtain ⟨c, tail, shape, digit⟩ := number.whole.first
      obtain ⟨_, _, object, array, quote, true_, false_, null, _⟩ := isDigit_plain c digit
      rw [shape, if_neg (by decide), List.nil_append, List.cons_append, List.cons_append]
      rw [parseValue, if_neg object, if_neg array, if_neg quote, if_neg true_, if_neg false_,
        if_neg null]

/-- The parser has room for strings of the length that is marked. -/
def Roomy (limits large : JsonLimits) (marks : Marks) : Prop :=
  marks.full = false ∨ limits.maxStringBytes < large.maxStringBytes

theorem Roomy.string {limits large : JsonLimits} {decoded : Bytes}
    (within : limits.Within large) (roomy : Roomy limits large (fullMark limits decoded))
    (room : decoded.length ≤ limits.maxStringBytes) :
    decoded.length < large.maxStringBytes := by
  have larger := within.strings
  cases roomy with
  | inl short =>
      have other : decoded.length ≠ limits.maxStringBytes := of_decide_eq_false short
      omega
  | inr more => omega

theorem Roomy.of_join {limits large : JsonLimits} {marks : List Marks}
    (roomy : Roomy limits large (Marks.join marks)) {one : Marks} (present : one ∈ marks) :
    Roomy limits large one := by
  cases roomy with
  | inl short =>
      rw [Marks.join, List.any_eq_false] at short
      exact .inl (Bool.eq_false_iff.mpr (short one present))
  | inr more => exact .inr more

section Reading
variable {limits : JsonLimits} {value : Bytes → Parsed JsonValue}

theorem itemRound_spelled (item : ItemText) (reads : ReadsTo value item.text item.value)
    (items : List JsonValue) (room : items.length < limits.maxArrayItems) (again : Bool)
    (more : Bytes) :
    itemRound limits value items (item.bytes ++ (if again then 44 else 93) :: more) =
      .ok (roundOf .array again (items ++ [item.value]) more) := by
  have separates : IsSeparator (if again then 44 else 93) := by
    cases again
    · exact .inr (.inr (.inl rfl))
    · exact .inl rfl
  have ends := item.after.ends (separates.ends more)
  have solid : Stops isWhitespace (item.text ++ (item.after.bytes ++
      (if again then 44 else 93) :: more)) := by
    obtain ⟨c, tail, shape, solid, _⟩ := reads.starts
    rw [shape]
    intro first here
    cases here
    exact solid
  rw [itemRound, if_neg (by omega), ItemText.bytes, List.append_assoc, List.append_assoc,
    item.before.skip _ solid, reads.reads _ ends]
  dsimp only
  rw [separator_blank 93 (.inr (.inr (.inl rfl))) (by decide)]
  cases again
  · rfl
  · rfl

theorem parseKey_spelled (members : List (Bytes × JsonValue)) (member : MemberSyntax)
    (chars : SpellsChars member.written member.key)
    (short : member.key.length < limits.maxStringBytes)
    (fresh : member.key ∉ members.map Prod.fst) (room : members.length < limits.maxObjectMembers)
    (rest : Bytes) :
    parseKey limits members (member.bytes ++ rest) = .ok (member.key, member.item.bytes ++ rest) := by
  have quote (tail : Bytes) : Stops isWhitespace (quoted member.written ++ tail) := by
    intro first here
    cases here
    rfl
  have unused : (members.any fun known => known.1 = member.key) = false := by
    rw [List.any_eq_false]
    intro known present same
    exact fresh (List.mem_map.mpr ⟨known, present, of_decide_eq_true same⟩)
  have colon : IsSeparator 58 := .inr (.inl rfl)
  have text : member.bytes ++ rest = member.before.bytes ++ (quoted member.written ++
      (member.after.bytes ++ 58 :: (member.item.bytes ++ rest))) := by
    simp [MemberSyntax.bytes]
  rw [text, parseKey, member.before.skip _ (quote _), if_neg (by simp [quoted]),
    parseStringRaw_spelled _ chars short]
  dsimp only
  rw [unused, if_neg (by decide), if_neg (by omega), member.after.skip _ (colon.stops _)]
  rfl

theorem memberRound_spelled (member : MemberSyntax)
    (reads : ReadsTo value member.item.text member.item.value)
    (chars : SpellsChars member.written member.key)
    (short : member.key.length < limits.maxStringBytes) (members : List (Bytes × JsonValue))
    (fresh : member.key ∉ members.map Prod.fst) (room : members.length < limits.maxObjectMembers)
    (again : Bool) (more : Bytes) :
    memberRound limits value members (member.bytes ++ (if again then 44 else 125) :: more) =
      .ok (roundOf .object again (members ++ [(member.key, member.item.value)]) more) := by
  have closes : IsSeparator 125 := .inr (.inr (.inr rfl))
  have separates : IsSeparator (if again then 44 else 125) := by
    cases again
    · exact closes
    · exact .inl rfl
  have ends := member.item.after.ends (separates.ends more)
  have solid : Stops isWhitespace (member.item.text ++ (member.item.after.bytes ++
      (if again then 44 else 125) :: more)) := by
    obtain ⟨c, tail, shape, solid, _⟩ := reads.starts
    rw [shape]
    intro first here
    cases here
    exact solid
  rw [memberRound, parseKey_spelled members member chars short fresh room]
  dsimp only
  rw [ItemText.bytes, List.append_assoc, List.append_assoc, member.item.before.skip _ solid,
    reads.reads _ ends]
  dsimp only
  rw [separator_blank 125 closes (by decide)]
  cases again
  · rfl
  · rfl

end Reading

theorem joined_first {α : Type} (bytes : α → Bytes) (close : UInt8) (pieces : List α)
    (present : pieces ≠ []) (rest : Bytes) :
    ∃ piece ∈ pieces, ∃ more, joinWith 44 (pieces.map bytes) ++ close :: rest =
      bytes piece ++ more := by
  cases pieces with
  | nil => exact absurd rfl present
  | cons piece pieces =>
      refine ⟨piece, by simp, ?_⟩
      by_cases last : pieces = []
      · subst last
        exact ⟨close :: rest, rfl⟩
      · exact ⟨_, by rw [List.map_cons, joinWith_append _ _ _ _ (by simpa using last)]⟩

theorem length_of_split {α : Type} {pieces front back : List α} {piece : α}
    (split : pieces = front ++ piece :: back) : front.length < pieces.length := by
  rw [split, List.length_append, List.length_cons]
  omega

theorem Spells.readsTo {limits large : JsonLimits} (within : limits.Within large) {levels : Nat}
    {text : Bytes} {value : JsonValue} {marks : Marks}
    (spelled : Spells limits levels text value marks) (roomy : Roomy limits large marks) :
    ReadsTo (parseValue large levels) text value := by
  induction levels generalizing text value marks with
  | zero => cases spelled
  | succ levels ih =>
      have consumes := parseValue_reads levels (.refl large)
      refine ⟨spelled.starts, fun rest ends => ?_⟩
      cases spelled with
      | null => exact (readsTo_literal large levels _ _ ⟨110, _, rfl, rfl, by decide⟩
          fun _ => rfl).reads rest ends
      | boolean value =>
          cases value with
          | true => exact (readsTo_literal large levels _ _ ⟨116, _, rfl, rfl, by decide⟩
              fun _ => rfl).reads rest ends
          | false => exact (readsTo_literal large levels _ _ ⟨102, _, rfl, rfl, by decide⟩
              fun _ => rfl).reads rest ends
      | number number value converts =>
          rw [parseValue_number]
          exact number.parseNumber_text value rest converts ends
      | string written decoded chars room =>
          change parseStringValue large (quoted written ++ rest) = _
          rw [parseStringValue, parseStringRaw_spelled _ chars (roomy.string within room)]
      | emptyArray inside =>
          have close : IsSeparator 93 := .inr (.inr (.inl rfl))
          change parseArray large (parseValue large levels) (91 :: (inside.bytes ++ [93] ++ rest)) = _
          rw [parseArray, parseContainer, List.drop_one, List.tail_cons, List.append_assoc,
            List.singleton_append, inside.skip _ (close.stops rest)]
          rfl
      | array items present room each =>
          have reads (item : ItemText) (member : item ∈ items) :=
            ih (each item member) (roomy.of_join (List.mem_map.mpr ⟨item, member, rfl⟩))
          rw [List.cons_append, List.append_assoc, List.singleton_append]
          change parseArray large (parseValue large levels) (91 :: _) = _
          rw [parseArray]
          apply parseContainer_accepts (itemRound_reads (.refl large) consumes).consumes
          · exact itemRound_skip large _ [] _
          · obtain ⟨item, member, more, shape⟩ := joined_first ItemText.bytes 93 items present rest
            obtain ⟨c, tail, start, _, close⟩ := (reads item member).starts
            rw [shape, ItemText.bytes, List.append_assoc, item.before.skip _
              (by rw [List.append_assoc]; exact (each item member).stops _), start]
            intro same
            exact close (Option.some.inj same)
          · apply accepts_joined items present []
            intro front item back split again more
            have member : item ∈ items := by rw [split]; simp
            have shorter := length_of_split split
            have larger := within.items
            rw [List.nil_append]
            exact itemRound_spelled item (reads item member) _
              (by rw [List.length_map]; omega) again more
      | emptyObject inside =>
          have close : IsSeparator 125 := .inr (.inr (.inr rfl))
          change parseObject large (parseValue large levels) (123 :: (inside.bytes ++ [125] ++ rest)) = _
          rw [parseObject, parseContainer, List.drop_one, List.tail_cons, List.append_assoc,
            List.singleton_append, inside.skip _ (close.stops rest)]
          rfl
      | object members present room distinct keys each =>
          have marked (member : MemberSyntax) (found : member ∈ members) :
              Roomy limits large (member.marks limits) :=
            roomy.of_join (List.mem_map.mpr ⟨member, found, rfl⟩)
          have reads (member : MemberSyntax) (found : member ∈ members) :=
            ih (each member found) ((marked member found).of_join (by simp))
          rw [List.cons_append, List.append_assoc, List.singleton_append]
          change parseObject large (parseValue large levels) (123 :: _) = _
          rw [parseObject]
          apply parseContainer_accepts (memberRound_reads (.refl large) consumes).consumes
          · exact memberRound_skip large _ [] _
          · obtain ⟨member, _, more, shape⟩ :=
              joined_first MemberSyntax.bytes 125 members present rest
            have quote (tail : Bytes) : Stops isWhitespace (quoted member.written ++ tail) := by
              intro first here
              cases here
              rfl
            rw [shape, MemberSyntax.bytes, List.append_assoc, List.append_assoc,
              member.before.skip _ (quote _)]
            intro same
            cases same
          · apply accepts_joined members present []
            intro front member back split again more
            have found : member ∈ members := by rw [split]; simp
            have shorter := length_of_split split
            have larger := within.members
            have own := keys member found
            rw [List.nil_append]
            apply memberRound_spelled member (reads member found) own.1
              (((marked member found).of_join (by simp)).string within own.2)
            · rw [split, List.map_append, List.map_cons] at distinct
              intro known
              rw [List.map_map] at known
              exact (List.nodup_append.mp distinct).2.2 _ known _ (by simp) rfl
            · rw [List.length_map]
              omega

end Mira
