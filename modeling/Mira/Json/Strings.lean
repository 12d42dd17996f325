import Mira.Json.Utf8

/-!
Strings through the parser. Each reader comes with one lemma about what an
accepted prefix is: it consumed something, what it produced is valid UTF-8, and
it does not depend on the bytes that follow. The writer's output is then read
back to the text it was written from.
-/

namespace Mira
open Bytes

/-- Larger limits, except that nesting is compared elsewhere. -/
structure JsonLimits.Within (small large : JsonLimits) : Prop where
  strings : small.maxStringBytes ≤ large.maxStringBytes
  items : small.maxArrayItems ≤ large.maxArrayItems
  members : small.maxObjectMembers ≤ large.maxObjectMembers

theorem JsonLimits.Within.refl (limits : JsonLimits) : limits.Within limits :=
  ⟨le_rfl, le_rfl, le_rfl⟩

theorem hexValue_lt (c : UInt8) (digit : Nat) (h : hexValue c = some digit) : digit < 16 := by
  simp only [hexValue, UInt8.le_iff_toNat_le, UInt8.reduceToNat] at h
  split_ifs at h with decimal lower upper
  · have value := Option.some.inj h
    omega
  · have value := Option.some.inj h
    omega
  · have value := Option.some.inj h
    omega

theorem parseHexDigits_reads (count value : Nat) (input rest : Bytes) (result : Nat)
    (h : parseHexDigits count value input = .ok (result, rest)) :
    rest.length + count = input.length ∧ result < (value + 1) * 16 ^ count ∧
      ∀ more, parseHexDigits count value (input ++ more) = .ok (result, rest ++ more) := by
  induction count generalizing value input with
  | zero =>
      cases h
      exact ⟨rfl, by omega, fun _ => rfl⟩
  | succ count ih =>
      cases input with
      | nil => cases h
      | cons c tail =>
          simp only [parseHexDigits, List.cons_append] at h ⊢
          cases hc : hexValue c with
          | none => rw [hc] at h; cases h
          | some digit =>
              rw [hc] at h
              obtain ⟨length, bound, extend⟩ := ih _ _ h
              have small := hexValue_lt c digit hc
              refine ⟨by simp only [List.length_cons]; omega, ?_, extend⟩
              calc result < (value * 16 + digit + 1) * 16 ^ count := bound
                _ ≤ (value + 1) * 16 * 16 ^ count := Nat.mul_le_mul_right _ (by omega)
                _ = (value + 1) * 16 ^ (count + 1) := by rw [pow_succ]; ring

theorem validUtf8_encodeUtf8 (n : Nat) (bound : n ≤ 0x10FFFF)
    (scalar : ¬ (0xD800 ≤ n ∧ n ≤ 0xDFFF)) : ValidUtf8 (encodeUtf8 n) := by
  obtain ⟨c, rfl⟩ := exists_char n bound scalar
  rw [encodeUtf8_char]
  exact validUtf8_char c

theorem parseUnicodeEscape_reads (input text rest : Bytes)
    (h : parseUnicodeEscape input = .ok (text, rest)) :
    rest.length < input.length ∧ ValidUtf8 text ∧
      ∀ more, parseUnicodeEscape (input ++ more) = .ok (text, rest ++ more) := by
  unfold parseUnicodeEscape at h
  cases first : parseHex4 input with
  | error reason => rw [first] at h; cases h
  | ok read =>
      obtain ⟨high, after⟩ := read
      obtain ⟨length, bound, extend⟩ := parseHexDigits_reads 4 0 input after high first
      have again (more : Bytes) : parseHex4 (input ++ more) = .ok (high, after ++ more) :=
        extend more
      rw [first] at h
      dsimp only at h
      split at h
      · next surrogate =>
          split at h
          · next rest' =>
              cases second : parseHex4 rest' with
              | error reason => rw [second] at h; cases h
              | ok read' =>
                  obtain ⟨low, after'⟩ := read'
                  obtain ⟨length', bound', extend'⟩ := parseHexDigits_reads 4 0 _ after' low second
                  have again' (more : Bytes) :
                      parseHex4 (rest' ++ more) = .ok (low, after' ++ more) := extend' more
                  rw [second] at h
                  dsimp only at h
                  split at h
                  · cases h
                  · next paired =>
                      simp only [Except.ok.injEq, Prod.mk.injEq] at h
                      obtain ⟨rfl, rfl⟩ := h
                      simp only [List.length_cons] at length
                      refine ⟨by omega, validUtf8_encodeUtf8 _ (by omega) (by omega), ?_⟩
                      intro more
                      simp only [parseUnicodeEscape, again, if_pos surrogate, List.cons_append,
                        again', if_neg paired]
          · cases h
      · next plain =>
          split at h
          · cases h
          · next notLow =>
              cases h
              refine ⟨by omega, validUtf8_encodeUtf8 _ (by omega) (by omega), ?_⟩
              intro more
              simp only [parseUnicodeEscape, again, if_neg plain, if_neg notLow]

theorem validUtf8_ascii (b : UInt8) (small : b.toNat < 128) : ValidUtf8 [b] := by
  have h := validUtf8_encodeUtf8 b.toNat (by omega) (by omega)
  rwa [encodeUtf8, if_pos small, UInt8.ofNat_toNat] at h

theorem shortEscape_ascii (c b : UInt8) (h : shortEscape c = some b) : b.toNat < 128 := by
  simp only [shortEscape] at h
  split_ifs at h <;> cases h <;> decide

theorem parseEscape_reads (input text rest : Bytes) (h : parseEscape input = .ok (text, rest)) :
    rest.length < input.length ∧ ValidUtf8 text ∧
      ∀ more, parseEscape (input ++ more) = .ok (text, rest ++ more) := by
  cases input with
  | nil => cases h
  | cons c tail =>
      simp only [parseEscape, List.cons_append, List.length_cons] at h ⊢
      cases short : shortEscape c with
      | some b =>
          rw [short] at h
          cases h
          exact ⟨by omega, validUtf8_ascii b (shortEscape_ascii c b short), fun _ => rfl⟩
      | none =>
          rw [short] at h
          dsimp only at h ⊢
          split at h
          · next unicode =>
              obtain ⟨length, valid, extend⟩ := parseUnicodeEscape_reads _ _ _ h
              exact ⟨by omega, valid, fun more => by rw [if_pos unicode]; exact extend more⟩
          · cases h

theorem parseContinuation_reads {limits limits' : JsonLimits} (within : limits.Within limits')
    (count codePoint result : Nat) (output output' input rest : Bytes)
    (h : parseContinuation limits count codePoint output input = .ok ((result, output'), rest)) :
    ∃ tail, input = tail ++ rest ∧ tail.length = count ∧ output' = output ++ tail ∧
      (∀ b ∈ tail, IsContinuation b) ∧ result = gather codePoint tail ∧
      ∀ more, parseContinuation limits' count codePoint output (input ++ more) =
        .ok ((result, output'), rest ++ more) := by
  induction count generalizing codePoint output input with
  | zero =>
      cases h
      exact ⟨[], rfl, rfl, by simp, by simp, rfl, fun _ => rfl⟩
  | succ count ih =>
      cases input with
      | nil => cases h
      | cons c after =>
          simp only [parseContinuation] at h
          split at h
          · cases h
          · next room =>
              split at h
              · cases h
              · next continuation =>
                  obtain ⟨tail, rfl, length, rfl, each, rfl, extend⟩ := ih _ _ _ h
                  have room' : ¬ limits'.maxStringBytes ≤ output.length := by
                    have larger := within.strings
                    omega
                  refine ⟨c :: tail, rfl, by simp [length], by simp, ?_, ?_, ?_⟩
                  · have own := (continuation_iff c).mp (not_not.mp continuation)
                    simpa [IsContinuation, own] using each
                  · rw [continuation_bits]; rfl
                  · intro more
                    simp only [List.cons_append, parseContinuation, if_neg room',
                      if_neg continuation]
                    exact extend more

theorem parseMultibyte_reads {limits limits' : JsonLimits} (within : limits.Within limits')
    (output output' input rest : Bytes) (lead : UInt8)
    (h : parseMultibyte limits output lead input = .ok (output', rest)) :
    rest.length ≤ input.length ∧ (ValidUtf8 output → ValidUtf8 output') ∧
      ∀ more, parseMultibyte limits' output lead (input ++ more) = .ok (output', rest ++ more) := by
  unfold parseMultibyte at h
  split at h
  · cases h
  · next wide =>
      cases read : parseContinuation limits (continuationCount lead)
          (leadBits (continuationCount lead) lead) (output ++ [lead]) input with
      | error reason => rw [read] at h; cases h
      | ok result =>
          obtain ⟨⟨codePoint, copied⟩, after⟩ := result
          rw [read] at h
          dsimp only at h
          split at h
          · cases h
          · next scalar =>
              cases h
              obtain ⟨tail, rfl, length, rfl, each, rfl, extend⟩ :=
                parseContinuation_reads within _ _ _ _ _ _ _ read
              refine ⟨by simp, fun before => ?_, fun more => ?_⟩
              · rw [List.append_assoc]
                apply before.append
                rw [← length] at scalar
                have spelled := encodeUtf8_gather lead tail wide length each (by omega) (by omega)
                rw [List.singleton_append, ← spelled]
                exact validUtf8_encodeUtf8 _ (by omega) (by omega)
              · rw [parseMultibyte, if_neg wide, extend more]
                simp only [if_neg scalar]

theorem parseCharacter_reads {limits limits' : JsonLimits} (within : limits.Within limits')
    (output output' input rest : Bytes) (c : UInt8)
    (h : parseCharacter limits output c input = .ok (output', rest)) :
    rest.length ≤ input.length ∧ (ValidUtf8 output → ValidUtf8 output') ∧
      ∀ more, parseCharacter limits' output c (input ++ more) = .ok (output', rest ++ more) := by
  unfold parseCharacter at h ⊢
  split at h
  · next escape =>
      cases read : parseEscape input with
      | error reason => rw [read] at h; cases h
      | ok result =>
          obtain ⟨text, after⟩ := result
          rw [read] at h
          cases h
          obtain ⟨length, valid, extend⟩ := parseEscape_reads _ _ _ read
          refine ⟨by omega, fun before => before.append valid, fun more => ?_⟩
          rw [if_pos escape, extend more]
  · next plain =>
      split at h
      · next ascii =>
          cases h
          refine ⟨le_rfl, fun before => before.append (validUtf8_ascii c ascii), fun more => ?_⟩
          rw [if_neg plain, if_pos ascii]
      · next wide =>
          obtain ⟨length, valid, extend⟩ := parseMultibyte_reads within _ _ _ _ _ h
          refine ⟨length, valid, fun more => ?_⟩
          rw [if_neg plain, if_neg wide, extend more]

theorem stringRound_reads {limits limits' : JsonLimits} (within : limits.Within limits') :
    Scan.Reads ValidUtf8 ValidUtf8 (stringRound limits) (stringRound limits') := by
  intro output input round h
  cases input with
  | nil => cases h
  | cons c tail =>
      simp only [stringRound] at h
      split at h
      · cases h
      · next room =>
          have room' : ¬ limits'.maxStringBytes ≤ output.length := by
            have larger := within.strings
            omega
          split at h
          · cases h
          · next printable =>
              split at h
              · next quote =>
                  cases h
                  refine ⟨by simp, fun valid => valid, fun more => ?_⟩
                  simp only [List.cons_append, stringRound, if_neg room', if_neg printable,
                    if_pos quote]
              · next inside =>
                  cases read : parseCharacter limits output c tail with
                  | error reason => rw [read] at h; cases h
                  | ok result =>
                      obtain ⟨output', after⟩ := result
                      rw [read] at h
                      cases h
                      obtain ⟨length, valid, extend⟩ :=
                        parseCharacter_reads within _ _ _ _ _ read
                      refine ⟨by simp only [List.length_cons]; omega, valid, fun more => ?_⟩
                      simp only [List.cons_append, stringRound, if_neg room', if_neg printable,
                        if_neg inside, extend more]

theorem stringRound_consumes (limits : JsonLimits) : Scan.Consumes (stringRound limits) :=
  (stringRound_reads (.refl limits)).consumes

theorem scanAll_reads {α β : Type} {inv : α → Prop} {post : β → Prop}
    {body body' : Scan.Body α β Error UInt8} (reads : Scan.Reads inv post body body')
    (consumes : Scan.Consumes body') (acc : α) (input rest : Bytes) (result : β) (start : inv acc)
    (h : scanAll body acc input = .ok (result, rest)) :
    rest.length < input.length ∧ post result ∧
      ∀ more, scanAll body' acc (input ++ more) = .ok (result, rest ++ more) := by
  obtain ⟨shorter, established, extend⟩ := (Scan.accepts_of_loop h).reads reads
  exact ⟨shorter, established start,
    fun more => Scan.loop_of_accepts consumes _ (extend more) _ (Nat.lt_succ_self _)⟩

theorem parseStringRaw_reads {limits limits' : JsonLimits} (within : limits.Within limits')
    (input text rest : Bytes) (h : parseStringRaw limits input = .ok (text, rest)) :
    rest.length < input.length ∧ ValidUtf8 text ∧
      ∀ more, parseStringRaw limits' (input ++ more) = .ok (text, rest ++ more) := by
  obtain ⟨shorter, valid, extend⟩ := scanAll_reads (stringRound_reads within)
    (stringRound_consumes limits') [] _ rest text validUtf8_nil h
  cases input with
  | nil => exact absurd shorter (Nat.not_lt_zero _)
  | cons c tail => exact ⟨Nat.lt_succ_of_lt shorter, valid, extend⟩

/-- What the writer makes of one scalar value. -/
def writeChar (c : Char) : Bytes :=
  if c.toNat < 0x80 then escapeByte (UInt8.ofNat c.toNat) else String.utf8EncodeChar c

theorem writeStringBody_copy (tail text : Bytes) :
    writeStringBody tail.length (tail ++ text) = tail ++ writeStringBody 0 text := by
  induction tail with
  | nil => rfl
  | cons b rest ih => simp only [List.length_cons, List.cons_append, writeStringBody, ih]

theorem encode_ascii (c : Char) (small : c.toNat < 0x80) :
    String.utf8EncodeChar c = [UInt8.ofNat c.toNat] := by
  rw [← encodeUtf8_char, encodeUtf8, if_pos small]

theorem escapeByte_wide (b : UInt8) (wide : 128 ≤ b.toNat) : escapeByte b = [b] := by
  have other (c : UInt8) (low : c.toNat < 128) : b ≠ c := by
    intro same
    rw [same] at wide
    omega
  have printable : ¬ b < 0x20 := by
    rw [UInt8.lt_iff_toNat_lt]
    exact Nat.not_lt.mpr ((by decide : (0x20 : UInt8).toNat ≤ 128).trans wide)
  simp only [escapeByte, other 34 (by decide), other 92 (by decide), other 8 (by decide),
    other 12 (by decide), other 10 (by decide), other 13 (by decide), other 9 (by decide),
    printable, if_false]

theorem length_escapeByte (b : UInt8) :
    1 ≤ (escapeByte b).length ∧ (32 ≤ b.toNat → (escapeByte b).length ≤ 2) := by
  simp only [escapeByte]
  split_ifs with h1 h2 h3 h4 h5 h6 h7 control
  · exact ⟨by decide, fun _ => by decide⟩
  · exact ⟨by decide, fun _ => by decide⟩
  · exact ⟨by decide, fun _ => by decide⟩
  · exact ⟨by decide, fun _ => by decide⟩
  · exact ⟨by decide, fun _ => by decide⟩
  · exact ⟨by decide, fun _ => by decide⟩
  · exact ⟨by decide, fun _ => by decide⟩
  · refine ⟨by simp, fun printable => absurd control ?_⟩
    rw [UInt8.lt_iff_toNat_lt]
    exact Nat.not_lt.mpr printable
  · exact ⟨Nat.le_refl 1, fun _ => Nat.le_succ 1⟩

theorem writeStringBody_char (c : Char) (text : Bytes) :
    writeStringBody 0 (String.utf8EncodeChar c ++ text) =
      writeChar c ++ writeStringBody 0 text := by
  unfold writeChar
  by_cases small : c.toNat < 0x80
  · have value := toNat_ofNat_byte c.toNat (by omega)
    have count := (continuationCount_of_range (UInt8.ofNat c.toNat)).1 (by omega)
    rw [if_pos small, encode_ascii c small, List.singleton_append, writeStringBody, count]
  · obtain ⟨lead, tail, shape, high, _, count, _⟩ := encode_wide c (by omega)
    rw [if_neg small, shape, List.cons_append, writeStringBody, count, writeStringBody_copy,
      escapeByte_wide lead (by omega)]
    rfl

theorem parseContinuation_copy (limits : JsonLimits) (bits : Nat) (output tail rest : Bytes)
    (each : ∀ b ∈ tail, IsContinuation b)
    (room : output.length + tail.length ≤ limits.maxStringBytes) :
    parseContinuation limits tail.length bits output (tail ++ rest) =
      .ok ((gather bits tail, output ++ tail), rest) := by
  induction tail generalizing bits output with
  | nil => simp [parseContinuation, gather]
  | cons b tail ih =>
      have own := (continuation_iff b).mpr (each b (by simp))
      simp only [List.length_cons] at room
      rw [List.length_cons, List.cons_append, parseContinuation, if_neg (by omega),
        if_neg (not_not.mpr own), ih _ _ (fun c hc => each c (by simp [hc]))
          (by simp only [List.length_append, List.length_singleton]; omega)]
      rw [continuation_bits, List.append_assoc]
      rfl

theorem escapeByte_cases (b : UInt8) :
    (∃ e, escapeByte b = [92, e] ∧ shortEscape e = some b) ∨
      (escapeByte b = [92, 117, 48, 48] ++ hexByte b ∧ b.toNat < 0x20) ∨
      (escapeByte b = [b] ∧ ¬ b < 0x20 ∧ b ≠ 34 ∧ b ≠ 92) := by
  unfold escapeByte
  split_ifs with h1 h2 h3 h4 h5 h6 h7 h8
  · exact .inl ⟨34, rfl, by rw [h1]; rfl⟩
  · exact .inl ⟨92, rfl, by rw [h2]; rfl⟩
  · exact .inl ⟨98, rfl, by rw [h3]; rfl⟩
  · exact .inl ⟨102, rfl, by rw [h4]; rfl⟩
  · exact .inl ⟨110, rfl, by rw [h5]; rfl⟩
  · exact .inl ⟨114, rfl, by rw [h6]; rfl⟩
  · exact .inl ⟨116, rfl, by rw [h7]; rfl⟩
  · exact .inr (.inl ⟨rfl, h8⟩)
  · exact .inr (.inr ⟨rfl, h8, h1, h2⟩)

theorem parseUnicodeEscape_control (b : UInt8) (control : b.toNat < 0x20) (rest : Bytes) :
    parseUnicodeEscape ([48, 48] ++ hexByte b ++ rest) = .ok ([b], rest) := by
  have high := hexValue_hexDigit (b.toNat / 16) (by omega)
  have low := hexValue_hexDigit (b.toNat % 16) (by omega)
  have zero : hexValue 48 = some 0 := rfl
  have whole : ((0 * 16 + 0) * 16 + 0) * 16 + b.toNat / 16 = b.toNat / 16 := by omega
  have value : b.toNat / 16 * 16 + b.toNat % 16 = b.toNat := by omega
  have read : parseHex4 ([48, 48] ++ hexByte b ++ rest) = .ok (b.toNat, rest) := by
    simp only [parseHex4, hexByte, List.cons_append, List.nil_append, parseHexDigits, zero, high,
      low, Nat.zero_mul, Nat.zero_add, value]
  rw [parseUnicodeEscape, read]
  simp only
  rw [if_neg (by omega), if_neg (by omega), encodeUtf8, if_pos (by omega), UInt8.ofNat_toNat]

theorem stringRound_char (limits : JsonLimits) (output rest : Bytes) (c : Char)
    (room : output.length + (String.utf8EncodeChar c).length ≤ limits.maxStringBytes) :
    stringRound limits output (writeChar c ++ rest) =
      .ok (.again (output ++ String.utf8EncodeChar c) rest) := by
  unfold writeChar
  by_cases small : c.toNat < 0x80
  · rw [encode_ascii c small] at room ⊢
    rw [if_pos small]
    rw [List.length_singleton] at room
    have below := toNat_ofNat_byte c.toNat (by omega)
    generalize UInt8.ofNat c.toNat = b at below
    rcases escapeByte_cases b with ⟨e, spelled, short⟩ | ⟨spelled, control⟩ |
        ⟨spelled, printable, quote, backslash⟩
    · rw [spelled]
      simp only [List.cons_append, List.nil_append, stringRound, parseCharacter, parseEscape, short]
      rw [if_neg (by omega), if_neg (by decide), if_neg (by decide)]
      rfl
    · rw [spelled]
      have read := parseUnicodeEscape_control b control rest
      have short : shortEscape 117 = none := rfl
      simp only [List.cons_append, List.nil_append, stringRound, parseCharacter, parseEscape,
        short] at read ⊢
      rw [if_neg (by omega), if_neg (by decide), if_neg (by decide), if_pos trivial, if_pos trivial,
        read]
    · have ascii : b < 0x80 := by
        change b.toNat < 128
        omega
      rw [spelled, List.singleton_append]
      simp only [stringRound, parseCharacter]
      rw [if_neg (by omega), if_neg printable, if_neg quote, if_neg backslash, if_pos ascii]
  · obtain ⟨lead, tail, shape, high, _, count, each, spelled, least⟩ := encode_wide c (by omega)
    have range := char_range c
    rw [if_neg small, shape]
    rw [shape, List.length_cons] at room
    have lead32 : ¬ lead < 0x20 := fun h => absurd (show lead.toNat < 32 from h) (by omega)
    have lead34 : lead ≠ 34 := fun h => by rw [h] at high; exact absurd high (by decide)
    have lead92 : lead ≠ 92 := fun h => by rw [h] at high; exact absurd high (by decide)
    have lead128 : ¬ lead < 0x80 := fun h => absurd (show lead.toNat < 128 from h) (by omega)
    have copied := parseContinuation_copy limits (leadBits tail.length lead) (output ++ [lead]) tail
      rest each (by simp only [List.length_append, List.length_singleton]; omega)
    have announced : continuationCount lead ≠ 0 := by
      rw [count]
      exact fun none => by simp [List.length_eq_zero_iff.mp none] at *
    rw [List.cons_append, stringRound, if_neg (by omega), if_neg lead32, if_neg lead34,
      parseCharacter, if_neg lead92, if_neg lead128, parseMultibyte, if_neg announced, count, copied]
    simp only [spelled, List.append_assoc, List.singleton_append]
    rw [if_neg (by omega)]

theorem accepts_chars (limits : JsonLimits) (chars : List Char) (output rest : Bytes)
    (room : output.length + (chars.flatMap String.utf8EncodeChar).length < limits.maxStringBytes) :
    Scan.Accepts (stringRound limits) output
      (writeStringBody 0 (chars.flatMap String.utf8EncodeChar) ++ 34 :: rest)
      (output ++ chars.flatMap String.utf8EncodeChar) rest := by
  induction chars generalizing output with
  | nil =>
      apply Scan.Accepts.done
      simp only [List.flatMap_nil, List.length_nil] at room
      rw [List.flatMap_nil, writeStringBody, List.nil_append, List.append_nil, stringRound,
        if_neg (by omega), if_neg (by decide), if_pos rfl]
  | cons c chars ih =>
      simp only [List.flatMap_cons, List.length_append] at room ⊢
      rw [writeStringBody_char, List.append_assoc, ← List.append_assoc output]
      refine .again (stringRound_char limits output _ c (by omega)) (ih _ ?_)
      simp only [List.length_append]
      omega

theorem parseStringRaw_writeString (limits : JsonLimits) (text rest : Bytes)
    (valid : ValidUtf8 text) (room : text.length < limits.maxStringBytes) :
    parseStringRaw limits (writeString text ++ rest) = .ok (text, rest) := by
  obtain ⟨chars, rfl⟩ := valid
  have run := accepts_chars limits chars [] rest (by simpa using room)
  have input : (writeString (chars.flatMap String.utf8EncodeChar) ++ rest).drop 1 =
      writeStringBody 0 (chars.flatMap String.utf8EncodeChar) ++ 34 :: rest := by
    simp [writeString]
  rw [parseStringRaw, scanAll, input]
  exact Scan.loop_of_accepts (stringRound_consumes limits) _ run _ (Nat.lt_succ_self _)

theorem validUtf8_printable_ascii (text : Bytes) (small : ∀ b ∈ text, b.toNat < 128) :
    ValidUtf8 text := by
  induction text with
  | nil => exact validUtf8_nil
  | cons b rest ih =>
      exact (validUtf8_ascii b (small b (by simp))).append
        (ih fun c present => small c (by simp [present]))

theorem toHex_ascii (bytes : Bytes) : ∀ b ∈ toHex bytes, b.toNat < 128 := by
  intro b present
  obtain ⟨byte, _, digit⟩ := List.mem_flatMap.mp present
  have bound : byte.toNat < 256 := byte.toNat_lt
  have small : ∀ n < 16, (hexDigit n).toNat < 128 := by decide
  simp only [hexByte, List.mem_cons, List.not_mem_nil, or_false] at digit
  rcases digit with rfl | rfl
  · exact small _ (by omega)
  · exact small _ (by omega)

theorem decimal_ascii (n : Nat) : ∀ b ∈ decimal n, b.toNat < 128 := by
  intro b present
  have digit := List.all_eq_true.mp (all_isDigit_decimal n) b present
  simp only [isDigit, Bool.and_eq_true, decide_eq_true_eq] at digit
  have high : b.toNat ≤ (57 : UInt8).toNat := digit.2
  exact lt_of_le_of_lt high (by decide)

end Mira
