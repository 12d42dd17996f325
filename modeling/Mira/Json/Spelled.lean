import Mira.Json.RoundTrip

/-!
The documents of RFC 8259, as a relation between a text and the value it spells. The relation
does not look at the parser's steps. It marks what the parser treats differently: a number with
a superfluous leading zero, which the RFC does not have, and a string of exactly the length that
is the limit.
-/

namespace Mira
open Bytes

/-- The number that hexadecimal digits denote. -/
def hexNumber : Nat → Bytes → Option Nat
  | value, [] => some value
  | value, c :: rest =>
      match hexValue c with
      | some digit => hexNumber (value * 16 + digit) rest
      | none => none

/-- Four hexadecimal digits and the code unit they denote. -/
structure HexQuad (digits : Bytes) (value : Nat) : Prop where
  four : digits.length = 4
  denotes : hexNumber 0 digits = some value

/-- How one character of a string is written. -/
inductive SpellsChar : Bytes → Char → Prop
  | plain (c : Char) (printable : 0x20 ≤ c.toNat) (quote : c.toNat ≠ 34)
      (backslash : c.toNat ≠ 92) : SpellsChar (String.utf8EncodeChar c) c
  | short (e b : UInt8) (c : Char) (known : shortEscape e = some b) (same : c.toNat = b.toNat) :
      SpellsChar [92, e] c
  | unicode (digits : Bytes) (c : Char) (unit : HexQuad digits c.toNat) :
      SpellsChar (92 :: 117 :: digits) c
  | pair (first second : Bytes) (high low : Nat) (c : Char) (leads : HexQuad first high)
      (trails : HexQuad second low) (highRange : 0xD800 ≤ high ∧ high ≤ 0xDBFF)
      (lowRange : 0xDC00 ≤ low ∧ low ≤ 0xDFFF)
      (combined : c.toNat = 0x10000 + (high - 0xD800) * 1024 + (low - 0xDC00)) :
      SpellsChar (92 :: 117 :: (first ++ 92 :: 117 :: second)) c

/-- What stands between the quotes of a string, and the text it decodes to. -/
inductive SpellsChars : Bytes → Bytes → Prop
  | nil : SpellsChars [] []
  | cons {written later decoded : Bytes} {c : Char} (head : SpellsChar written c)
      (tail : SpellsChars later decoded) :
      SpellsChars (written ++ later) (String.utf8EncodeChar c ++ decoded)

def quoted (written : Bytes) : Bytes := 34 :: (written ++ [34])

structure Digits where
  bytes : Bytes
  present : bytes ≠ []
  digits : bytes.all isDigit = true

/-- The letter of an exponent and its optional sign, `true` for a minus. -/
structure ExponentText where
  upper : Bool
  sign : Option Bool
  digits : Digits

def ExponentText.signText (exponent : ExponentText) : Bytes :=
  match exponent.sign with
  | none => []
  | some false => [43]
  | some true => [45]

def ExponentText.text (exponent : ExponentText) : Bytes :=
  (if exponent.upper then 69 else 101) :: (exponent.signText ++ exponent.digits.bytes)

structure NumberText where
  negative : Bool
  whole : Digits
  fraction : Option Digits
  exponent : Option ExponentText

namespace NumberText

def fractionText (number : NumberText) : Bytes :=
  match number.fraction with
  | none => []
  | some digits => 46 :: digits.bytes

def exponentText (number : NumberText) : Bytes :=
  match number.exponent with
  | none => []
  | some exponent => exponent.text

def text (number : NumberText) : Bytes :=
  (if number.negative then [45] else []) ++
    (number.whole.bytes ++ (number.fractionText ++ number.exponentText))

def token (number : NumberText) : NumberToken where
  negative := number.negative
  digits := number.whole.bytes
  fraction := (number.fraction.map Digits.bytes).getD []
  exponentNegative := (number.exponent.map fun exponent => exponent.sign == some true).getD false
  exponent := (number.exponent.map fun exponent => exponent.digits.bytes).getD []

def isFloat (number : NumberText) : Bool := number.fraction.isSome || number.exponent.isSome

/-- A leading zero before another digit. -/
def padded (number : NumberText) : Bool :=
  number.whole.bytes.head? = some 48 && 2 ≤ number.whole.bytes.length

end NumberText

structure Blank where
  bytes : Bytes
  blank : bytes.all isWhitespace = true

/-- What the parser treats in its own way somewhere in a text. -/
structure Marks where
  padded : Bool
  full : Bool
deriving DecidableEq

def Marks.none : Marks := ⟨false, false⟩

def Marks.join (marks : List Marks) : Marks :=
  ⟨marks.any Marks.padded, marks.any Marks.full⟩

/-- A value between two blanks, with what it spells. -/
structure ItemText where
  before : Blank
  text : Bytes
  after : Blank
  value : JsonValue
  marks : Marks

def ItemText.bytes (item : ItemText) : Bytes :=
  item.before.bytes ++ (item.text ++ item.after.bytes)

/-- A member: a key between two blanks, a colon and an item. -/
structure MemberSyntax where
  before : Blank
  written : Bytes
  key : Bytes
  after : Blank
  item : ItemText

def MemberSyntax.bytes (member : MemberSyntax) : Bytes :=
  member.before.bytes ++ (quoted member.written ++ (member.after.bytes ++
    58 :: member.item.bytes))

def fullMark (limits : JsonLimits) (decoded : Bytes) : Marks :=
  ⟨false, decoded.length = limits.maxStringBytes⟩

def MemberSyntax.marks (limits : JsonLimits) (member : MemberSyntax) : Marks :=
  Marks.join [fullMark limits member.key, member.item.marks]

/-- The texts of values with at most so many levels, within the limits. -/
inductive Spells (limits : JsonLimits) : Nat → Bytes → JsonValue → Marks → Prop
  | null {levels : Nat} : Spells limits (levels + 1) (ascii "null") .null .none
  | boolean {levels : Nat} (value : Bool) :
      Spells limits (levels + 1) (ascii (if value then "true" else "false")) (.boolean value) .none
  | number {levels : Nat} (number : NumberText) (value : JsonValue)
      (converts : numberOfToken number.isFloat number.token = .ok value) :
      Spells limits (levels + 1) number.text value ⟨number.padded, false⟩
  | string {levels : Nat} (written decoded : Bytes) (chars : SpellsChars written decoded)
      (room : decoded.length ≤ limits.maxStringBytes) :
      Spells limits (levels + 1) (quoted written) (.string decoded) (fullMark limits decoded)
  | emptyArray {levels : Nat} (inside : Blank) :
      Spells limits (levels + 1) (91 :: (inside.bytes ++ [93])) (.array []) .none
  | array {levels : Nat} (items : List ItemText) (present : items ≠ [])
      (room : items.length ≤ limits.maxArrayItems)
      (each : ∀ item ∈ items, Spells limits levels item.text item.value item.marks) :
      Spells limits (levels + 1) (91 :: (joinWith 44 (items.map ItemText.bytes) ++ [93]))
        (.array (items.map ItemText.value)) (Marks.join (items.map ItemText.marks))
  | emptyObject {levels : Nat} (inside : Blank) :
      Spells limits (levels + 1) (123 :: (inside.bytes ++ [125])) (.object []) .none
  | object {levels : Nat} (members : List MemberSyntax) (present : members ≠ [])
      (room : members.length ≤ limits.maxObjectMembers)
      (distinct : (members.map MemberSyntax.key).Nodup)
      (keys : ∀ member ∈ members, SpellsChars member.written member.key ∧
        member.key.length ≤ limits.maxStringBytes)
      (each : ∀ member ∈ members,
        Spells limits levels member.item.text member.item.value member.item.marks) :
      Spells limits (levels + 1) (123 :: (joinWith 44 (members.map MemberSyntax.bytes) ++ [125]))
        (.object (members.map fun member => (member.key, member.item.value)))
        (Marks.join (members.map (MemberSyntax.marks limits)))

/-- A whole text: a value between blanks, within the size limit. -/
structure SpellsDocument (limits : JsonLimits) (text : Bytes) (value : JsonValue)
    (marks : Marks) : Prop where
  size : text.length ≤ limits.maxDocumentBytes
  spelled : ∃ item : ItemText, item.bytes = text ∧ item.value = value ∧ item.marks = marks ∧
    Spells limits limits.maxDepth item.text value marks

/-- A document of the RFC: no number has a superfluous leading zero. -/
def IsDocument (limits : JsonLimits) (text : Bytes) : Prop :=
  ∃ value marks, SpellsDocument limits text value marks ∧ marks.padded = false

theorem parseHexDigits_of_hexNumber (digits rest : Bytes) (value result : Nat)
    (denotes : hexNumber value digits = some result) :
    parseHexDigits digits.length value (digits ++ rest) = .ok (result, rest) := by
  induction digits generalizing value with
  | nil =>
      cases denotes
      rfl
  | cons c digits ih =>
      rw [hexNumber] at denotes
      rw [List.length_cons, List.cons_append, parseHexDigits]
      cases digit : hexValue c with
      | none => rw [digit] at denotes; cases denotes
      | some n =>
          rw [digit] at denotes
          exact ih _ denotes

theorem hexNumber_of_parseHexDigits (count value result : Nat) (input rest : Bytes)
    (read : parseHexDigits count value input = .ok (result, rest)) :
    ∃ digits, input = digits ++ rest ∧ digits.length = count ∧
      hexNumber value digits = some result := by
  induction count generalizing value input with
  | zero =>
      cases read
      exact ⟨[], rfl, rfl, rfl⟩
  | succ count ih =>
      cases input with
      | nil => cases read
      | cons c tail =>
          rw [parseHexDigits] at read
          cases digit : hexValue c with
          | none => rw [digit] at read; cases read
          | some n =>
              rw [digit] at read
              obtain ⟨digits, shape, length, denotes⟩ := ih _ _ read
              refine ⟨c :: digits, by rw [shape]; rfl, by rw [List.length_cons, length], ?_⟩
              rw [hexNumber, digit]
              exact denotes

variable {digits : Bytes}

theorem HexQuad.read {value : Nat} (unit : HexQuad digits value) (rest : Bytes) :
    parseHex4 (digits ++ rest) = .ok (value, rest) := by
  have read := parseHexDigits_of_hexNumber digits rest 0 value unit.denotes
  rw [unit.four] at read
  exact read

variable {input : Bytes}

theorem HexQuad.of_read {rest : Bytes} {value : Nat} (read : parseHex4 input = .ok (value, rest)) :
    ∃ digits, input = digits ++ rest ∧ HexQuad digits value := by
  obtain ⟨digits, shape, four, denotes⟩ := hexNumber_of_parseHexDigits 4 0 value input rest read
  exact ⟨digits, shape, four, denotes⟩

variable (c : Char)

theorem parseUnicodeEscape_unit (unit : HexQuad digits c.toNat) (rest : Bytes) :
    parseUnicodeEscape (digits ++ rest) = .ok (String.utf8EncodeChar c, rest) := by
  have range := char_range c
  rw [parseUnicodeEscape, unit.read]
  dsimp only
  rw [if_neg (by omega), if_neg (by omega), encodeUtf8_char]

theorem parseUnicodeEscape_pair {first second : Bytes} {high low : Nat} {c : Char}
    (leads : HexQuad first high) (trails : HexQuad second low)
    (highRange : 0xD800 ≤ high ∧ high ≤ 0xDBFF) (lowRange : 0xDC00 ≤ low ∧ low ≤ 0xDFFF)
    (combined : c.toNat = 0x10000 + (high - 0xD800) * 1024 + (low - 0xDC00)) (rest : Bytes) :
    parseUnicodeEscape (first ++ (92 :: 117 :: (second ++ rest))) =
      .ok (String.utf8EncodeChar c, rest) := by
  rw [parseUnicodeEscape, leads.read]
  dsimp only
  rw [if_pos highRange]
  simp only [trails.read]
  rw [if_neg (by omega), ← combined, encodeUtf8_char]

theorem spelled_of_parseUnicodeEscape {text rest : Bytes}
    (read : parseUnicodeEscape input = .ok (text, rest)) :
    ∃ written c, input = written ++ rest ∧ text = String.utf8EncodeChar c ∧
      SpellsChar (92 :: 117 :: written) c := by
  unfold parseUnicodeEscape at read
  cases first : parseHex4 input with
  | error reason => rw [first] at read; cases read
  | ok result =>
      obtain ⟨high, after⟩ := result
      obtain ⟨digits, rfl, leads⟩ := HexQuad.of_read first
      have bound := (parseHexDigits_reads 4 0 _ after high first).2.1
      rw [first] at read
      dsimp only at read
      split at read
      · next highRange =>
          split at read
          · next rest' =>
              cases second : parseHex4 rest' with
              | error reason => rw [second] at read; cases read
              | ok result' =>
                  obtain ⟨low, after'⟩ := result'
                  obtain ⟨digits', rfl, trails⟩ := HexQuad.of_read second
                  rw [second] at read
                  dsimp only at read
                  split at read
                  · cases read
                  · next lowRange =>
                      simp only [Except.ok.injEq, Prod.mk.injEq] at read
                      obtain ⟨rfl, rfl⟩ := read
                      obtain ⟨c, combined⟩ := exists_char
                        (0x10000 + (high - 0xD800) * 1024 + (low - 0xDC00)) (by omega) (by omega)
                      refine ⟨digits ++ 92 :: 117 :: digits', c, by simp, ?_, ?_⟩
                      · rw [← combined, encodeUtf8_char]
                      · exact .pair digits digits' high low c leads trails highRange (by omega)
                          combined
          · cases read
      · next plain =>
          split at read
          · cases read
          · next notLow =>
              cases read
              obtain ⟨c, rfl⟩ := exists_char high (by omega) (by omega)
              exact ⟨digits, c, rfl, encodeUtf8_char c, .unicode digits c leads⟩

theorem encode_byte (b : UInt8) (c : Char) (same : c.toNat = b.toNat) (small : b.toNat < 128) :
    String.utf8EncodeChar c = [b] := by
  rw [encode_ascii c (by omega), same, UInt8.ofNat_toNat]

theorem spelled_of_parseEscape {text rest : Bytes} (read : parseEscape input = .ok (text, rest)) :
    ∃ written c, input = written ++ rest ∧ text = String.utf8EncodeChar c ∧
      SpellsChar (92 :: written) c := by
  cases input with
  | nil => cases read
  | cons e tail =>
      rw [parseEscape] at read
      cases short : shortEscape e with
      | some b =>
          rw [short] at read
          cases read
          have small := shortEscape_ascii e b short
          obtain ⟨c, same⟩ := exists_char b.toNat (by omega) (by omega)
          exact ⟨[e], c, rfl, (encode_byte b c same small).symm, .short e b c short same⟩
      | none =>
          rw [short] at read
          dsimp only at read
          split at read
          · next unicode =>
              obtain ⟨written, c, shape, decoded, spelled⟩ := spelled_of_parseUnicodeEscape read
              exact ⟨e :: written, c, by rw [shape]; rfl, decoded, by rw [unicode]; exact spelled⟩
          · cases read

theorem escapeByte_plain (b : UInt8) (printable : ¬ b < 0x20) (quote : b ≠ 34)
    (backslash : b ≠ 92) : escapeByte b = [b] := by
  rcases escapeByte_cases b with ⟨e, spelled, _⟩ | ⟨_, control⟩ | ⟨spelled, _⟩
  · have other (n : UInt8) (low : n < 0x20) : b ≠ n := fun same => printable (same ▸ low)
    simp only [escapeByte, quote, backslash, other 8 (by decide), other 12 (by decide),
      other 10 (by decide), other 13 (by decide), other 9 (by decide), printable, if_false]
  · exact absurd (UInt8.lt_iff_toNat_lt.mpr control) printable
  · exact spelled

theorem writeChar_plain (printable : 0x20 ≤ c.toNat) (quote : c.toNat ≠ 34)
    (backslash : c.toNat ≠ 92) : writeChar c = String.utf8EncodeChar c := by
  unfold writeChar
  split
  · next small =>
      have value := toNat_ofNat_byte c.toNat (by omega)
      rw [encode_ascii c small]
      apply escapeByte_plain
      · intro control
        have low : (UInt8.ofNat c.toNat).toNat < 32 := UInt8.lt_iff_toNat_lt.mp control
        omega
      · intro same
        rw [same] at value
        exact quote value.symm
      · intro same
        rw [same] at value
        exact backslash value.symm
  · rfl

theorem stringRound_escape (limits : JsonLimits) (output input text rest : Bytes)
    (room : output.length < limits.maxStringBytes)
    (read : parseEscape input = .ok (text, rest)) :
    stringRound limits output (92 :: input) = .ok (.again (output ++ text) rest) := by
  rw [stringRound, if_neg (by omega), if_neg (by decide), if_neg (by decide), parseCharacter,
    if_pos rfl, read]

theorem length_encode : 1 ≤ (String.utf8EncodeChar c).length := by
  have positive := String.length_utf8EncodeChar c
  have size := c.utf8Size_pos
  omega

variable {written : Bytes}

theorem SpellsChar.round {c : Char} (spelled : SpellsChar written c) (limits : JsonLimits)
    (output rest : Bytes)
    (room : output.length + (String.utf8EncodeChar c).length ≤ limits.maxStringBytes) :
    stringRound limits output (written ++ rest) =
      .ok (.again (output ++ String.utf8EncodeChar c) rest) := by
  have size := length_encode c
  cases spelled with
  | plain _ printable quote backslash =>
      have read := stringRound_char limits output rest c room
      rw [writeChar_plain c printable quote backslash] at read
      exact read
  | short e b _ known same =>
      rw [encode_byte b c same (shortEscape_ascii e b known)]
      apply stringRound_escape limits output (e :: rest) _ _ (by omega)
      rw [parseEscape, known]
  | unicode digits _ unit =>
      apply stringRound_escape limits output (117 :: (digits ++ rest)) _ _ (by omega)
      exact parseUnicodeEscape_unit c unit rest
  | pair first second high low _ leads trails highRange lowRange combined =>
      rw [List.cons_append, List.cons_append, List.append_assoc]
      apply stringRound_escape limits output (117 :: (first ++ _)) _ _ (by omega)
      exact parseUnicodeEscape_pair leads trails highRange lowRange combined rest

variable {limits : JsonLimits} {output output' : Bytes}

theorem spelled_of_parseMultibyte {rest : Bytes} {lead : UInt8}
    (read : parseMultibyte limits output lead input = .ok (output', rest)) :
    ∃ written c, lead :: input = written ++ rest ∧ output' = output ++ String.utf8EncodeChar c ∧
      SpellsChar written c := by
  unfold parseMultibyte at read
  split at read
  · cases read
  · next wide =>
      cases copied : parseContinuation limits (continuationCount lead)
          (leadBits (continuationCount lead) lead) (output ++ [lead]) input with
      | error reason => rw [copied] at read; cases read
      | ok result =>
          obtain ⟨⟨codePoint, gathered⟩, after⟩ := result
          rw [copied] at read
          dsimp only at read
          split at read
          · cases read
          · next scalar =>
              cases read
              obtain ⟨tail, rfl, length, rfl, each, rfl, _⟩ :=
                parseContinuation_reads (.refl limits) _ _ _ _ _ _ _ copied
              rw [← length] at scalar
              have encoded := encodeUtf8_gather lead tail wide length each (by omega) (by omega)
              obtain ⟨c, same⟩ := exists_char (gather (leadBits tail.length lead) tail) (by omega)
                (by omega)
              rw [← same, encodeUtf8_char] at encoded
              have least : 0x80 ≤ minimumCodePoint tail.length := by
                unfold minimumCodePoint
                split
                · omega
                · split <;> omega
              refine ⟨lead :: tail, c, rfl, by rw [encoded]; simp, ?_⟩
              rw [← encoded]
              exact .plain c (by omega) (by omega) (by omega)

theorem spelled_of_round {rest : Bytes}
    (read : stringRound limits output input = .ok (.again output' rest)) :
    ∃ written c, input = written ++ rest ∧ output' = output ++ String.utf8EncodeChar c ∧
      SpellsChar written c := by
  cases input with
  | nil => cases read
  | cons b tail =>
      rw [stringRound] at read
      split at read
      · cases read
      · split at read
        · cases read
        · next printable =>
            split at read
            · cases read
            · next quote =>
                cases parsed : parseCharacter limits output b tail with
                | error reason => rw [parsed] at read; cases read
                | ok result =>
                    obtain ⟨text, after⟩ := result
                    rw [parsed] at read
                    cases read
                    unfold parseCharacter at parsed
                    split at parsed
                    · next backslash =>
                        cases escaped : parseEscape tail with
                        | error reason => rw [escaped] at parsed; cases parsed
                        | ok result =>
                            obtain ⟨decoded, after⟩ := result
                            rw [escaped] at parsed
                            cases parsed
                            obtain ⟨written, c, shape, rfl, spelled⟩ :=
                              spelled_of_parseEscape escaped
                            rw [backslash, shape]
                            exact ⟨92 :: written, c, rfl, rfl, spelled⟩
                    · next backslash =>
                        split at parsed
                        · next small =>
                            cases parsed
                            have below : b.toNat < 128 := UInt8.lt_iff_toNat_lt.mp small
                            obtain ⟨c, same⟩ := exists_char b.toNat (by omega) (by omega)
                            have encoded := encode_byte b c same below
                            refine ⟨[b], c, rfl, by rw [encoded], ?_⟩
                            rw [← encoded]
                            apply SpellsChar.plain
                            · rw [same]
                              exact Nat.not_lt.mp fun low =>
                                printable (UInt8.lt_iff_toNat_lt.mpr low)
                            · rw [same]
                              exact fun value => quote (byte_ext value)
                            · rw [same]
                              exact fun value => backslash (byte_ext value)
                        · exact spelled_of_parseMultibyte parsed

theorem quote_of_done {result rest : Bytes}
    (read : stringRound limits output input = .ok (.done result rest)) :
    input = 34 :: rest ∧ result = output ∧ output.length < limits.maxStringBytes := by
  cases input with
  | nil => cases read
  | cons b tail =>
      rw [stringRound] at read
      split at read
      · cases read
      · next room =>
          split at read
          · cases read
          · split at read
            · next quote =>
                cases read
                exact ⟨by rw [quote], rfl, by omega⟩
            · split at read
              · cases read
              · cases read

variable {decoded : Bytes}

theorem SpellsChars.accepts (spelled : SpellsChars written decoded) (limits : JsonLimits)
    (output rest : Bytes) (room : output.length + decoded.length < limits.maxStringBytes) :
    Scan.Accepts (stringRound limits) output (written ++ 34 :: rest) (output ++ decoded) rest := by
  induction spelled generalizing output with
  | nil =>
      rw [List.length_nil] at room
      apply Scan.Accepts.done
      rw [List.nil_append, List.append_nil, stringRound, if_neg (by omega), if_neg (by decide),
        if_pos rfl]
  | cons head tail ih =>
      rw [List.length_append] at room
      rw [List.append_assoc, ← List.append_assoc output]
      refine .again (head.round limits output _ (by omega)) (ih _ ?_)
      rw [List.length_append]
      omega

theorem spelled_of_accepts {result rest : Bytes}
    (run : Scan.Accepts (stringRound limits) output input result rest) :
    ∃ written decoded, input = written ++ 34 :: rest ∧ result = output ++ decoded ∧
      SpellsChars written decoded ∧ result.length < limits.maxStringBytes := by
  induction run with
  | done finished =>
      obtain ⟨shape, rfl, room⟩ := quote_of_done finished
      exact ⟨[], [], shape, (List.append_nil _).symm, .nil, room⟩
  | again round _ ih =>
      obtain ⟨written, c, rfl, rfl, spelled⟩ := spelled_of_round round
      obtain ⟨later, decoded, rfl, rfl, chars, room⟩ := ih
      exact ⟨written ++ later, _, by rw [List.append_assoc], by rw [List.append_assoc],
        .cons spelled chars, room⟩

theorem parseStringRaw_spelled (limits : JsonLimits) (spelled : SpellsChars written decoded)
    (room : decoded.length < limits.maxStringBytes) (rest : Bytes) :
    parseStringRaw limits (quoted written ++ rest) = .ok (decoded, rest) := by
  have run := spelled.accepts limits [] rest (by simpa using room)
  have input : (quoted written ++ rest).drop 1 = written ++ 34 :: rest := by simp [quoted]
  rw [parseStringRaw, scanAll, input]
  exact Scan.loop_of_accepts (stringRound_consumes limits) _ run _ (Nat.lt_succ_self _)

theorem spelled_of_parseStringRaw {rest : Bytes} (opened : input.head? = some 34)
    (read : parseStringRaw limits input = .ok (decoded, rest)) :
    ∃ written, input = quoted written ++ rest ∧ SpellsChars written decoded ∧
      decoded.length < limits.maxStringBytes := by
  cases input with
  | nil => cases opened
  | cons c tail =>
      cases opened
      obtain ⟨written, _, shape, rfl, spelled, room⟩ :=
        spelled_of_accepts (Scan.accepts_of_loop read)
      rw [List.drop_one, List.tail_cons] at shape
      exact ⟨written, by rw [shape]; simp [quoted], spelled, room⟩

end Mira
