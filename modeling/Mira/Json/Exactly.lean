import Mira.Json.Accepted

/-!
What the parser reads was spelled by the grammar, with no string of the full length.
-/

namespace Mira
open Bytes

/-- The reader accepts only spelled values. -/
def SoundReader (limits : JsonLimits) (levels : Nat) (value : Bytes → Parsed JsonValue) : Prop :=
  ∀ input item rest, value input = .ok (item, rest) →
    ∃ text marks, input = text ++ rest ∧ Spells limits levels text item marks ∧
      marks.full = false

section Rounds
variable {limits : JsonLimits} {levels : Nat} {value : Bytes → Parsed JsonValue}

/-- The item was spelled and there was room for it. -/
structure ItemFits (limits : JsonLimits) (levels : Nat) (items : List JsonValue)
    (item : ItemText) : Prop where
  room : items.length < limits.maxArrayItems
  spelled : Spells limits levels item.text item.value item.marks
  short : item.marks.full = false

variable {input rest : Bytes}

theorem item_of_value (sound : SoundReader limits levels value) {close : UInt8} {more : Bytes}
    {item : JsonValue} {again : Bool} (read : value (skipWhitespace input) = .ok (item, rest))
    (found : separator close rest = some (again, more)) :
    ∃ piece : ItemText, input = piece.bytes ++ (if again then 44 else close) :: more ∧
      piece.value = item ∧ Spells limits levels piece.text piece.value piece.marks ∧
      piece.marks.full = false := by
  obtain ⟨before, shape, _⟩ := exists_blank input
  obtain ⟨text, marks, split, spelled, short⟩ := sound _ _ _ read
  obtain ⟨after, left⟩ := blank_of_separator found
  refine ⟨⟨before, text, after, item, marks⟩, ?_, rfl, spelled, short⟩
  rw [shape, split, left]
  simp [ItemText.bytes]

theorem item_of_round (sound : SoundReader limits levels value) (items : List JsonValue) (input : Bytes)
    (next : Scan.Round (List JsonValue) JsonValue UInt8)
    (read : itemRound limits value items input = .ok next) :
    ∃ item again more, ItemFits limits levels items item ∧
      input = item.bytes ++ (if again then 44 else 93) :: more ∧
      next = roundOf .array again (items ++ [item.value]) more := by
  unfold itemRound at read
  split at read
  · cases read
  · next room =>
      cases inner : value (skipWhitespace input) with
      | error reason => rw [inner] at read; cases read
      | ok result =>
          obtain ⟨item, rest⟩ := result
          rw [inner] at read
          dsimp only at read
          cases found : separator 93 rest with
          | none => rw [found] at read; cases read
          | some result =>
              obtain ⟨again, more⟩ := result
              obtain ⟨piece, shape, rfl, spelled, short⟩ := item_of_value sound inner found
              rw [found] at read
              refine ⟨piece, again, more, ⟨by omega, spelled, short⟩, shape, ?_⟩
              cases again with
              | true => exact (Except.ok.inj read).symm
              | false => exact (Except.ok.inj read).symm

/-- The member was spelled, its key is new and there was room for it. -/
structure MemberFits (limits : JsonLimits) (levels : Nat) (members : List (Bytes × JsonValue))
    (member : MemberSyntax) : Prop where
  room : members.length < limits.maxObjectMembers
  fresh : member.key ∉ members.map Prod.fst
  chars : SpellsChars member.written member.key
  length : member.key.length < limits.maxStringBytes
  spelled : Spells limits levels member.item.text member.item.value member.item.marks
  short : member.item.marks.full = false

theorem key_of_parse {members : List (Bytes × JsonValue)} {key : Bytes}
    (read : parseKey limits members input = .ok (key, rest)) :
    ∃ (before after : Blank) (written : Bytes),
      input = before.bytes ++ (quoted written ++ (after.bytes ++ 58 :: rest)) ∧
      SpellsChars written key ∧ key.length < limits.maxStringBytes ∧
      key ∉ members.map Prod.fst ∧ members.length < limits.maxObjectMembers := by
  obtain ⟨before, shape, _⟩ := exists_blank input
  unfold parseKey at read
  split at read
  · cases read
  · next opened =>
      cases raw : parseStringRaw limits (skipWhitespace input) with
      | error reason => rw [raw] at read; cases read
      | ok result =>
          obtain ⟨text, afterKey⟩ := result
          obtain ⟨written, start, chars, length⟩ :=
            spelled_of_parseStringRaw (not_not.mp opened) raw
          obtain ⟨after, gap, _⟩ := exists_blank afterKey
          rw [raw] at read
          dsimp only at read
          split at read
          · cases read
          · next fresh =>
              split at read
              · cases read
              · next room =>
                  cases colon : skipWhitespace afterKey with
                  | nil => rw [colon] at read; cases read
                  | cons c tail =>
                      rw [colon] at read gap
                      dsimp only at read
                      split at read
                      · next same =>
                          cases read
                          refine ⟨before, after, written, ?_, chars, length, ?_, by omega⟩
                          · rw [shape, start, gap, same]
                          · intro known
                            obtain ⟨member, present, named⟩ := List.mem_map.mp known
                            exact fresh (List.any_eq_true.mpr
                              ⟨member, present, decide_eq_true named⟩)
                      · cases read

theorem member_of_round (sound : SoundReader limits levels value) (members : List (Bytes × JsonValue))
    (input : Bytes) (next : Scan.Round (List (Bytes × JsonValue)) JsonValue UInt8)
    (read : memberRound limits value members input = .ok next) :
    ∃ (member : MemberSyntax) (again : Bool) (more : Bytes),
      MemberFits limits levels members member ∧
      input = member.bytes ++ (if again then 44 else 125) :: more ∧
      next = roundOf .object again (members ++ [(member.key, member.item.value)]) more := by
  unfold memberRound at read
  cases named : parseKey limits members input with
  | error reason => rw [named] at read; cases read
  | ok result =>
      obtain ⟨key, afterColon⟩ := result
      obtain ⟨before, after, written, shape, chars, length, fresh, room⟩ := key_of_parse named
      rw [named] at read
      dsimp only at read
      cases inner : value (skipWhitespace afterColon) with
      | error reason => rw [inner] at read; cases read
      | ok result =>
          obtain ⟨item, rest⟩ := result
          rw [inner] at read
          dsimp only at read
          cases found : separator 125 rest with
          | none => rw [found] at read; cases read
          | some result =>
              obtain ⟨again, more⟩ := result
              obtain ⟨piece, split, rfl, spelled, short⟩ := item_of_value sound inner found
              rw [found] at read
              refine ⟨⟨before, written, key, after, piece⟩, again, more,
                ⟨room, fresh, chars, length, spelled, short⟩, ?_, ?_⟩
              · rw [shape, split]
                simp [MemberSyntax.bytes]
              · cases again with
                | true => exact (Except.ok.inj read).symm
                | false => exact (Except.ok.inj read).symm

end Rounds

theorem nodup_of_fresh {α β : Type} (key : α → β) (pieces : List α)
    (fresh : ∀ front piece back, pieces = front ++ piece :: back → key piece ∉ front.map key) :
    (pieces.map key).Nodup := by
  induction pieces using List.reverseRecOn with
  | nil => exact List.nodup_nil
  | append_singleton front piece ih =>
      have earlier := ih fun start other back split =>
        fresh start other (back ++ [piece]) (by rw [split]; simp)
      rw [List.map_append, List.map_singleton, List.nodup_append]
      refine ⟨earlier, List.nodup_singleton _, fun known present other last => ?_⟩
      rw [List.mem_singleton.mp last]
      rintro rfl
      exact fresh front piece [] rfl present

theorem length_of_room {α : Type} {bound : Nat} (pieces : List α) (present : pieces ≠ [])
    (room : ∀ front piece back, pieces = front ++ piece :: back → front.length < bound) :
    pieces.length ≤ bound := by
  have last := List.dropLast_append_getLast present
  have below := room pieces.dropLast _ [] last.symm
  rw [List.length_dropLast] at below
  omega

theorem exists_split {α : Type} {pieces : List α} {piece : α} (present : piece ∈ pieces) :
    ∃ front back, pieces = front ++ piece :: back :=
  List.append_of_mem present

variable {limits : JsonLimits}

theorem fullMark_short {decoded : Bytes} (short : decoded.length < limits.maxStringBytes) :
    (fullMark limits decoded).full = false :=
  decide_eq_false (Nat.ne_of_lt short)

theorem join_short (marks : List Marks) (each : ∀ one ∈ marks, one.full = false) :
    (Marks.join marks).full = false := by
  rw [Marks.join, List.any_eq_false]
  exact fun one present => by rw [each one present]; decide

theorem spelled_of_literal {levels : Nat} {literal input rest : Bytes} {value item : JsonValue}
    (spelled : Spells limits (levels + 1) literal value .none)
    (read : parseLiteral literal value input = .ok (item, rest)) :
    ∃ text marks, input = text ++ rest ∧ Spells limits (levels + 1) text item marks ∧
      marks.full = false := by
  unfold parseLiteral at read
  split at read
  · next found =>
      cases read
      obtain ⟨tail, rfl⟩ := List.isPrefixOf_iff_prefix.mp found
      exact ⟨literal, .none, by rw [List.drop_left], spelled, rfl⟩
  · cases read

theorem spelled_of_parseValue (limits : JsonLimits) (levels : Nat) :
    SoundReader limits levels (parseValue limits levels) := by
  induction levels with
  | zero =>
      intro input item rest read
      cases read
  | succ levels ih =>
      intro input item rest read
      cases input with
      | nil => cases read
      | cons c tail =>
          rw [parseValue] at read
          split at read
          · next object =>
              subst object
              rcases accepts_of_parseContainer (memberRound_skip limits _ [] tail) read with
                ⟨rfl, inside, shape⟩ | run
              · exact ⟨_, _, by rw [shape]; simp, .emptyObject inside, rfl⟩
              · obtain ⟨members, present, shape, rfl, fits⟩ :=
                  joined_of_accepts (member_of_round ih) run
                have each (member : MemberSyntax) (found : member ∈ members) :
                    ∃ known, MemberFits limits levels known member := by
                  obtain ⟨front, back, split⟩ := exists_split found
                  exact ⟨_, fits front member back split⟩
                refine ⟨_, _, by rw [shape]; simp, .object members present
                  (length_of_room members present fun front member back split => ?_)
                  (nodup_of_fresh _ members fun front member back split => ?_)
                  (fun member found => ?_) (fun member found => ?_), join_short _ fun one marked => ?_⟩
                · have room := (fits front member back split).room
                  rwa [List.nil_append, List.length_map] at room
                · have fresh := (fits front member back split).fresh
                  rwa [List.nil_append, List.map_map] at fresh
                · obtain ⟨_, fit⟩ := each member found
                  exact ⟨fit.chars, Nat.le_of_lt fit.length⟩
                · obtain ⟨_, fit⟩ := each member found
                  exact fit.spelled
                · obtain ⟨member, found, rfl⟩ := List.mem_map.mp marked
                  obtain ⟨_, fit⟩ := each member found
                  apply join_short
                  intro one here
                  rcases List.mem_pair.mp here with rfl | rfl
                  · exact fullMark_short fit.length
                  · exact fit.short
          · split at read
            · next array =>
                subst array
                rcases accepts_of_parseContainer (itemRound_skip limits _ [] tail) read with
                  ⟨rfl, inside, shape⟩ | run
                · exact ⟨_, _, by rw [shape]; simp, .emptyArray inside, rfl⟩
                · obtain ⟨items, present, shape, rfl, fits⟩ :=
                    joined_of_accepts (item_of_round ih) run
                  have each (item : ItemText) (found : item ∈ items) :
                      ∃ known, ItemFits limits levels known item := by
                    obtain ⟨front, back, split⟩ := exists_split found
                    exact ⟨_, fits front item back split⟩
                  refine ⟨_, _, by rw [shape]; simp, .array items present
                    (length_of_room items present fun front item back split => ?_)
                    (fun item found => ?_), join_short _ fun one marked => ?_⟩
                  · have room := (fits front item back split).room
                    rwa [List.nil_append, List.length_map] at room
                  · obtain ⟨_, fit⟩ := each item found
                    exact fit.spelled
                  · obtain ⟨item, found, rfl⟩ := List.mem_map.mp marked
                    obtain ⟨_, fit⟩ := each item found
                    exact fit.short
            · split at read
              · next quote =>
                  unfold parseStringValue at read
                  cases raw : parseStringRaw limits (c :: tail) with
                  | error reason => rw [raw] at read; cases read
                  | ok result =>
                      obtain ⟨text, after⟩ := result
                      obtain ⟨written, shape, chars, short⟩ :=
                        spelled_of_parseStringRaw (by rw [quote]; rfl) raw
                      rw [raw] at read
                      cases read
                      exact ⟨_, _, shape, .string written text chars (Nat.le_of_lt short),
                        fullMark_short short⟩
              · split at read
                · exact spelled_of_literal (.boolean true) read
                · split at read
                  · exact spelled_of_literal (.boolean false) read
                  · split at read
                    · exact spelled_of_literal .null read
                    · obtain ⟨number, shape, converts⟩ := spelled_of_parseNumber read
                      exact ⟨_, _, shape, .number number item converts, rfl⟩

/-!
The language the parser accepts. The grammar spells every text in one way as far as the marks go,
so that the parser differs from it exactly on the texts with one of the two marks: it accepts
numbers with superfluous leading zeros, and it refuses a string that is as long as the limit
allows.
-/

def JsonLimits.wider (limits : JsonLimits) : JsonLimits :=
  { limits with maxStringBytes := limits.maxStringBytes + 1 }

theorem JsonLimits.within_wider (limits : JsonLimits) : limits.Within limits.wider :=
  ⟨Nat.le_succ _, le_rfl, le_rfl⟩

section Unique
variable {limits : JsonLimits} {levels : Nat}

variable {text : Bytes} {value : JsonValue} {marks : Marks}

theorem Spells.read (spelled : Spells limits levels text value marks) (rest : Bytes)
    (ends : EndsNumber rest) : parseValue limits.wider levels (text ++ rest) = .ok (value, rest) :=
  (spelled.readsTo limits.within_wider (.inr (Nat.lt_succ_self _))).reads rest ends

theorem Spells.value_unique {text' rest rest' : Bytes} {value' : JsonValue} {marks' : Marks}
    (spelled : Spells limits levels text value marks)
    (spelled' : Spells limits levels text' value' marks') (ends : EndsNumber rest)
    (ends' : EndsNumber rest') (same : text ++ rest = text' ++ rest') :
    value = value' ∧ rest = rest' := by
  have read := spelled.read rest ends
  rw [same, spelled'.read rest' ends'] at read
  have both := Prod.mk.inj (Except.ok.inj read)
  exact ⟨both.1.symm, both.2.symm⟩

/-- What the text of a value looks like. -/
def ShapeOf (limits : JsonLimits) (levels : Nat) (text : Bytes) (marks : Marks) :
    JsonValue → Prop
  | .null | .boolean _ => marks = .none
  | .integer _ | .number _ =>
      ∃ number : NumberText, text = number.text ∧ marks = ⟨number.padded, false⟩
  | .string decoded => marks = fullMark limits decoded
  | .array values =>
      (values = [] ∧ marks = .none) ∨
        ∃ items : List ItemText, items ≠ [] ∧ values = items.map ItemText.value ∧
          text = 91 :: (joinWith 44 (items.map ItemText.bytes) ++ [93]) ∧
          marks = Marks.join (items.map ItemText.marks) ∧
          ∀ item ∈ items, Spells limits levels item.text item.value item.marks
  | .object values =>
      (values = [] ∧ marks = .none) ∨
        ∃ members : List MemberSyntax, members ≠ [] ∧
          values = members.map (fun member => (member.key, member.item.value)) ∧
          text = 123 :: (joinWith 44 (members.map MemberSyntax.bytes) ++ [125]) ∧
          marks = Marks.join (members.map (MemberSyntax.marks limits)) ∧
          ∀ member ∈ members, (SpellsChars member.written member.key ∧
            member.key.length ≤ limits.maxStringBytes) ∧
            Spells limits levels member.item.text member.item.value member.item.marks

theorem Spells.shape (spelled : Spells limits (levels + 1) text value marks) :
    ShapeOf limits levels text marks value := by
  cases spelled with
  | null => exact rfl
  | boolean => exact rfl
  | number number value converts =>
      have open_ := (numberOfToken_reads _ _ _ converts).2
      cases value with
      | integer => exact ⟨number, rfl, rfl⟩
      | number => exact ⟨number, rfl, rfl⟩
      | null => cases open_
      | boolean => cases open_
      | string => cases open_
      | array => cases open_
      | object => cases open_
  | string => exact rfl
  | emptyArray => exact .inl ⟨rfl, rfl⟩
  | array items present room each => exact .inr ⟨items, present, rfl, rfl, rfl, each⟩
  | emptyObject => exact .inl ⟨rfl, rfl⟩
  | object members present room distinct keys each =>
      exact .inr ⟨members, present, rfl, rfl, rfl,
        fun member found => ⟨keys member found, each member found⟩⟩

/-- The marks of values at the same place of a text agree. -/
def MarksUnique (limits : JsonLimits) (levels : Nat) : Prop :=
  ∀ {text text' rest rest' value value' marks marks'},
    Spells limits levels text value marks → Spells limits levels text' value' marks' →
    EndsNumber rest → EndsNumber rest' → text ++ rest = text' ++ rest' → marks = marks'

variable {more more' : Bytes}

theorem item_unique (unique : MarksUnique limits levels) {item item' : ItemText}
    (spelled : Spells limits levels item.text item.value item.marks)
    (spelled' : Spells limits levels item'.text item'.value item'.marks) {c c' : UInt8}
    (separates : IsSeparator c) (separates' : IsSeparator c')
    (same : item.bytes ++ c :: more = item'.bytes ++ c' :: more') :
    item.marks = item'.marks ∧ c :: more = c' :: more' := by
  rw [ItemText.bytes, ItemText.bytes, List.append_assoc, List.append_assoc, List.append_assoc,
    List.append_assoc] at same
  have inner := Blank.unique (spelled.stops _) (spelled'.stops _) same
  have ends := item.after.ends (separates.ends more)
  have ends' := item'.after.ends (separates'.ends more')
  have left := (spelled.value_unique spelled' ends ends' inner).2
  exact ⟨unique spelled spelled' ends ends' inner,
    Blank.unique (separates.stops more) (separates'.stops more') left⟩

theorem member_unique (unique : MarksUnique limits levels) {member member' : MemberSyntax}
    (chars : SpellsChars member.written member.key ∧ member.key.length ≤ limits.maxStringBytes)
    (chars' : SpellsChars member'.written member'.key ∧
      member'.key.length ≤ limits.maxStringBytes)
    (spelled : Spells limits levels member.item.text member.item.value member.item.marks)
    (spelled' : Spells limits levels member'.item.text member'.item.value member'.item.marks)
    {c c' : UInt8} (separates : IsSeparator c) (separates' : IsSeparator c')
    (same : member.bytes ++ c :: more = member'.bytes ++ c' :: more') :
    member.marks limits = member'.marks limits ∧ c :: more = c' :: more' := by
  have text (member : MemberSyntax) (c : UInt8) (more : Bytes) :
      member.bytes ++ c :: more = member.before.bytes ++ (quoted member.written ++
        (member.after.bytes ++ 58 :: (member.item.bytes ++ c :: more))) := by
    simp [MemberSyntax.bytes]
  have quote (written tail : Bytes) : Stops isWhitespace (quoted written ++ tail) := by
    intro first here
    cases here
    rfl
  have colon : IsSeparator 58 := .inr (.inl rfl)
  rw [text, text] at same
  have opened := Blank.unique (quote _ _) (quote _ _) same
  have raw := parseStringRaw_spelled limits.wider chars.1 (Nat.lt_succ_of_le chars.2)
    (member.after.bytes ++ 58 :: (member.item.bytes ++ c :: more))
  rw [opened, parseStringRaw_spelled limits.wider chars'.1
    (Nat.lt_succ_of_le chars'.2)] at raw
  have both := Prod.mk.inj (Except.ok.inj raw)
  have gap := Blank.unique (colon.stops _) (colon.stops _) both.2
  rw [List.cons.injEq] at gap
  obtain ⟨own, left⟩ := item_unique unique spelled' spelled separates' separates gap.2
  exact ⟨by rw [MemberSyntax.marks, MemberSyntax.marks, both.1, own], left.symm⟩

theorem marks_unique (limits : JsonLimits) (levels : Nat) : MarksUnique limits levels := by
  induction levels with
  | zero =>
      intro text text' rest rest' value value' marks marks' spelled
      cases spelled
  | succ levels ih =>
      intro text text' rest rest' value value' marks marks' spelled spelled' ends ends' same
      obtain ⟨rfl, rfl⟩ := spelled.value_unique spelled' ends ends' same
      have texts : text = text' := List.append_cancel_right same
      subst texts
      have shape := spelled.shape
      have shape' := spelled'.shape
      cases value with
      | null => exact shape.trans shape'.symm
      | boolean => exact shape.trans shape'.symm
      | string => exact shape.trans shape'.symm
      | integer value =>
          obtain ⟨number, rfl, rfl⟩ := shape
          obtain ⟨number', here, rfl⟩ := shape'
          rw [NumberText.padded_unique ends ends (congrArg (· ++ rest) here)]
      | number value =>
          obtain ⟨number, rfl, rfl⟩ := shape
          obtain ⟨number', here, rfl⟩ := shape'
          rw [NumberText.padded_unique ends ends (congrArg (· ++ rest) here)]
      | array values =>
          rcases shape with ⟨rfl, rfl⟩ | ⟨items, present, rfl, rfl, rfl, each⟩
          · rcases shape' with ⟨_, rfl⟩ | ⟨items', present', none, _⟩
            · rfl
            · exact absurd (List.map_eq_nil_iff.mp none.symm) present'
          · rcases shape' with ⟨none, _⟩ | ⟨items', present', _, here, rfl, each'⟩
            · exact absurd (List.map_eq_nil_iff.mp none) present
            · congr 1
              apply joined_unique (.inr (.inr (.inl rfl))) (by decide) items items' present present'
                (fun item found item' found' c c' more more' separates separates' here =>
                  item_unique ih (each item found) (each' item' found') separates separates' here)
                [] []
              exact (List.cons.inj here).2
      | object values =>
          rcases shape with ⟨rfl, rfl⟩ | ⟨members, present, rfl, rfl, rfl, each⟩
          · rcases shape' with ⟨_, rfl⟩ | ⟨members', present', none, _⟩
            · rfl
            · exact absurd (List.map_eq_nil_iff.mp none.symm) present'
          · rcases shape' with ⟨none, _⟩ | ⟨members', present', _, here, rfl, each'⟩
            · exact absurd (List.map_eq_nil_iff.mp none) present
            · congr 1
              apply joined_unique (.inr (.inr (.inr rfl))) (by decide) members members' present
                present' (fun member found member' found' c c' more more' separates separates'
                    here =>
                  member_unique ih (each member found).1 (each' member' found').1
                    (each member found).2 (each' member' found').2 separates separates' here)
                [] []
              exact (List.cons.inj here).2

end Unique

section Documents
variable {limits : JsonLimits} {text : Bytes}

variable {value : JsonValue} {marks : Marks}

theorem SpellsDocument.marks_unique {value' : JsonValue} {marks' : Marks}
    (spelled : SpellsDocument limits text value marks)
    (spelled' : SpellsDocument limits text value' marks') : marks = marks' := by
  obtain ⟨item, shape, rfl, rfl, own⟩ := spelled.spelled
  obtain ⟨item', shape', rfl, rfl, own'⟩ := spelled'.spelled
  have empty : EndsNumber [] := by simp [EndsNumber]
  have ends := item.after.ends empty
  have ends' := item'.after.ends empty
  rw [List.append_nil] at ends ends'
  have inner := Blank.unique (own.stops _) (own'.stops _) (shape.trans shape'.symm)
  exact Mira.marks_unique limits limits.maxDepth own own' ends ends' inner

theorem SpellsDocument.parse (spelled : SpellsDocument limits text value marks)
    (short : marks.full = false) : parseJson text limits = .ok value := by
  have size := spelled.size
  obtain ⟨item, rfl, rfl, rfl, own⟩ := spelled.spelled
  have empty : EndsNumber [] := by simp [EndsNumber]
  have ends := item.after.ends empty
  rw [List.append_nil] at ends
  have reads := own.readsTo (.refl limits) (.inl short)
  have read := reads.reads item.after.bytes ends
  have skipped : skipWhitespace item.bytes = item.text ++ item.after.bytes :=
    item.before.skip _ (own.stops _)
  have left : skipWhitespace item.after.bytes = [] := by
    have blank := item.after.skip [] (by simp [Stops])
    rwa [List.append_nil] at blank
  obtain ⟨c, tail, start, _⟩ := reads.starts
  rw [parseJson, if_neg (by omega), parseDocument, skipped]
  rw [start] at read ⊢
  dsimp only [List.cons_append] at read ⊢
  rw [read]
  dsimp only
  rw [left]

theorem document_of_parse (read : parseJson text limits = .ok value) :
    ∃ marks, SpellsDocument limits text value marks ∧ marks.full = false := by
  obtain ⟨before, shape, _⟩ := exists_blank text
  unfold parseJson at read
  split at read
  · cases read
  · next size =>
      unfold parseDocument at read
      split at read
      · cases read
      · cases inner : parseValue limits limits.maxDepth (skipWhitespace text) with
        | error reason => rw [inner] at read; cases read
        | ok result =>
            obtain ⟨item, rest⟩ := result
            obtain ⟨body, marks, split, spelled, short⟩ := spelled_of_parseValue _ _ _ _ _ inner
            obtain ⟨after, left, _⟩ := exists_blank rest
            rw [inner] at read
            dsimp only at read
            split at read
            · next none =>
                cases read
                rw [none, List.append_nil] at left
                refine ⟨marks, ⟨by omega, ⟨before, body, after, value, marks⟩, ?_, rfl, rfl,
                  spelled⟩, short⟩
                rw [ItemText.bytes, ← left, ← split, ← shape]
            · cases read

end Documents

/-- The parser accepts the documents of the RFC within the limits, exactly where a text that the
grammar spells is marked in both ways or in none. -/
theorem parseJson_exactly (limits : JsonLimits) (text : Bytes) :
    ((∃ value, parseJson text limits = .ok value) ↔ IsDocument limits text) ↔
      ∀ value marks, SpellsDocument limits text value marks → marks.padded = marks.full := by
  constructor
  · intro agree value marks spelled
    have accepted : (∃ value, parseJson text limits = .ok value) ↔ marks.full = false := by
      constructor
      · intro ⟨value', read⟩
        obtain ⟨marks', spelled', short⟩ := document_of_parse read
        rw [spelled.marks_unique spelled']
        exact short
      · exact fun short => ⟨value, spelled.parse short⟩
    have document : IsDocument limits text ↔ marks.padded = false := by
      constructor
      · intro ⟨value', marks', spelled', plain⟩
        rw [spelled.marks_unique spelled']
        exact plain
      · exact fun plain => ⟨value, marks, spelled, plain⟩
    have both := accepted.symm.trans (agree.trans document)
    exact Bool.eq_iff_iff.mpr (by simpa using not_congr both.symm)
  · intro marked
    constructor
    · intro ⟨value, read⟩
      obtain ⟨marks, spelled, short⟩ := document_of_parse read
      exact ⟨value, marks, spelled, by rw [marked value marks spelled, short]⟩
    · intro ⟨value, marks, spelled, plain⟩
      exact ⟨value, spelled.parse (by rw [← marked value marks spelled, plain])⟩

theorem leadingZero_accepted :
    ¬ ((∃ value, parseJson (ascii "01") {} = .ok value) ↔ IsDocument {} (ascii "01")) := by
  intro agree
  obtain ⟨value, marks, spelled, plain⟩ := agree.mp ⟨.integer 1, rfl⟩
  have padded : SpellsDocument {} (ascii "01") (.integer 1) ⟨true, false⟩ :=
    ⟨by decide, ⟨⟨[], rfl⟩, ascii "01", ⟨[], rfl⟩, .integer 1, ⟨true, false⟩⟩, rfl, rfl, rfl,
      .number ⟨false, ⟨[48, 49], by decide, by decide⟩, none, none⟩ (.integer 1) rfl⟩
  rw [spelled.marks_unique padded] at plain
  cases plain

end Mira
