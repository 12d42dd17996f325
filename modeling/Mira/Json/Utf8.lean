import Mira.Json.Parser

/-!
UTF-8 as the writer and the parser of strings see it. A byte string is valid when
it encodes some sequence of Unicode scalar values; the parser accepts exactly the
encodings of scalar values, and the writer copies the bytes of each of them
unless JSON requires an escape.
-/

namespace Mira
open Bytes

def ValidUtf8 (text : Bytes) : Prop := ∃ chars : List Char, text = chars.flatMap String.utf8EncodeChar

theorem validUtf8_nil : ValidUtf8 [] := ⟨[], rfl⟩

theorem ValidUtf8.append {a b : Bytes} (ha : ValidUtf8 a) (hb : ValidUtf8 b) :
    ValidUtf8 (a ++ b) := by
  obtain ⟨as, rfl⟩ := ha
  obtain ⟨bs, rfl⟩ := hb
  exact ⟨as ++ bs, by simp⟩

variable (c : Char)

theorem validUtf8_char : ValidUtf8 (String.utf8EncodeChar c) := ⟨[c], by simp⟩

theorem high_masks : ∀ n < 256, n &&& 0xC0 = n / 64 * 64 ∧ n &&& 0xE0 = n / 32 * 32 ∧
    n &&& 0xF0 = n / 16 * 16 ∧ n &&& 0xF8 = n / 8 * 8 := by
  decide +kernel

variable (b : UInt8)

theorem masked_iff (mask value : UInt8) :
    b &&& mask = value ↔ b.toNat &&& mask.toNat = value.toNat := by
  rw [← UInt8.toNat_inj, UInt8.toNat_and]

theorem continuation_iff : b &&& 0xC0 = 0x80 ↔ 128 ≤ b.toNat ∧ b.toNat < 192 := by
  have mask : b.toNat &&& (0xC0 : UInt8).toNat = b.toNat / 64 * 64 :=
    (high_masks b.toNat b.toNat_lt).1
  have value : (0x80 : UInt8).toNat = 128 := rfl
  rw [masked_iff, mask, value]
  omega

theorem continuation_bits : (b &&& 0x3F).toNat = b.toNat % 64 := by
  rw [UInt8.toNat_and]
  exact Nat.and_two_pow_sub_one_eq_mod b.toNat 6

theorem continuationCount_eq :
    continuationCount b =
      if b.toNat / 32 = 6 then 1
      else if b.toNat / 16 = 14 then 2
      else if b.toNat / 8 = 30 then 3 else 0 := by
  obtain ⟨_, one, two, three⟩ := high_masks b.toNat b.toNat_lt
  have one' : b &&& 0xE0 = 0xC0 ↔ b.toNat / 32 = 6 := by
    have value : (0xC0 : UInt8).toNat = 192 := rfl
    rw [masked_iff, show b.toNat &&& (0xE0 : UInt8).toNat = b.toNat / 32 * 32 from one, value]
    omega
  have two' : b &&& 0xF0 = 0xE0 ↔ b.toNat / 16 = 14 := by
    have value : (0xE0 : UInt8).toNat = 224 := rfl
    rw [masked_iff, show b.toNat &&& (0xF0 : UInt8).toNat = b.toNat / 16 * 16 from two, value]
    omega
  have three' : b &&& 0xF8 = 0xF0 ↔ b.toNat / 8 = 30 := by
    have value : (0xF0 : UInt8).toNat = 240 := rfl
    rw [masked_iff, show b.toNat &&& (0xF8 : UInt8).toNat = b.toNat / 8 * 8 from three, value]
    omega
  simp only [continuationCount, one', two', three']

theorem continuationCount_of_range :
    (b.toNat < 192 → continuationCount b = 0) ∧
      (192 ≤ b.toNat → b.toNat < 224 → continuationCount b = 1) ∧
      (224 ≤ b.toNat → b.toNat < 240 → continuationCount b = 2) ∧
      (240 ≤ b.toNat → b.toNat < 248 → continuationCount b = 3) := by
  rw [continuationCount_eq]
  refine ⟨?_, ?_, ?_, ?_⟩
  · intro low
    rw [if_neg (by omega), if_neg (by omega), if_neg (by omega)]
  · intro low high
    rw [if_pos (by omega)]
  · intro low high
    rw [if_neg (by omega), if_pos (by omega)]
  · intro low high
    rw [if_neg (by omega), if_neg (by omega), if_pos (by omega)]

theorem lead_cases (lead : continuationCount b ≠ 0) :
    (continuationCount b = 1 ∧ 192 ≤ b.toNat ∧ b.toNat < 224 ∧
        leadBits (continuationCount b) b = b.toNat - 192) ∨
      (continuationCount b = 2 ∧ 224 ≤ b.toNat ∧ b.toNat < 240 ∧
        leadBits (continuationCount b) b = b.toNat - 224) ∨
      (continuationCount b = 3 ∧ 240 ≤ b.toNat ∧ b.toNat < 248 ∧
        leadBits (continuationCount b) b = b.toNat - 240) := by
  have five : (b &&& 0x1F).toNat = b.toNat % 32 := by
    rw [UInt8.toNat_and]
    exact Nat.and_two_pow_sub_one_eq_mod b.toNat 5
  have four : (b &&& 0x0F).toNat = b.toNat % 16 := by
    rw [UInt8.toNat_and]
    exact Nat.and_two_pow_sub_one_eq_mod b.toNat 4
  have three : (b &&& 0x07).toNat = b.toNat % 8 := by
    rw [UInt8.toNat_and]
    exact Nat.and_two_pow_sub_one_eq_mod b.toNat 3
  rw [continuationCount_eq] at lead ⊢
  by_cases first : b.toNat / 32 = 6
  · rw [if_pos first, leadBits, if_pos rfl, five]
    exact .inl ⟨rfl, by omega, by omega, by omega⟩
  · rw [if_neg first] at lead ⊢
    by_cases second : b.toNat / 16 = 14
    · rw [if_pos second, leadBits, if_neg (by decide), if_pos rfl, four]
      exact .inr (.inl ⟨rfl, by omega, by omega, by omega⟩)
    · rw [if_neg second] at lead ⊢
      by_cases third : b.toNat / 8 = 30
      · rw [if_pos third, leadBits, if_neg (by decide), if_neg (by decide), three]
        exact .inr (.inr ⟨rfl, by omega, by omega, by omega⟩)
      · exact absurd (if_neg third) lead

theorem char_range : c.toNat < 0xD800 ∨ (0xDFFF < c.toNat ∧ c.toNat < 0x110000) := c.valid

theorem exists_char (n : Nat) (bound : n ≤ 0x10FFFF) (scalar : ¬ (0xD800 ≤ n ∧ n ≤ 0xDFFF)) :
    ∃ c : Char, c.toNat = n := by
  have valid : n.isValidChar := by
    unfold Nat.isValidChar
    omega
  exact ⟨Char.ofNatAux n valid, rfl⟩

theorem encodeUtf8_char : encodeUtf8 c.toNat = String.utf8EncodeChar c := by
  have range := char_range c
  unfold encodeUtf8 String.utf8EncodeChar
  change _ = if c.toNat ≤ 0x7f then _ else if c.toNat ≤ 0x7ff then _ else
    if c.toNat ≤ 0xffff then _ else _
  simp only [show c.val.toNat = c.toNat from rfl]
  split_ifs <;> first | omega | rfl | skip
  · rw [show c.toNat / 64 % 32 = c.toNat / 64 by omega, Nat.add_comm 0xC0, Nat.add_comm 0x80]
  · rw [show c.toNat / 4096 % 16 = c.toNat / 4096 by omega, Nat.add_comm 0xE0,
      Nat.add_comm 0x80, Nat.add_comm 0x80]
  · rw [show c.toNat / 262144 % 8 = c.toNat / 262144 by omega, Nat.add_comm 0xF0,
      Nat.add_comm 0x80, Nat.add_comm 0x80, Nat.add_comm 0x80]

def gather (bits : Nat) (tail : Bytes) : Nat :=
  tail.foldl (fun codePoint b => codePoint * 64 + b.toNat % 64) bits

def IsContinuation (b : UInt8) : Prop := 128 ≤ b.toNat ∧ b.toNat < 192

theorem toNat_ofNat_byte (n : Nat) (small : n < 256) : (UInt8.ofNat n).toNat = n := by
  rw [UInt8.toNat_ofNat', Nat.mod_eq_of_lt small]

theorem encode_wide (wide : 0x80 ≤ c.toNat) :
    ∃ lead tail, String.utf8EncodeChar c = lead :: tail ∧ 192 ≤ lead.toNat ∧ tail ≠ [] ∧
      continuationCount lead = tail.length ∧ (∀ b ∈ tail, IsContinuation b) ∧
      gather (leadBits tail.length lead) tail = c.toNat ∧
      minimumCodePoint tail.length ≤ c.toNat := by
  have range := char_range c
  rw [← encodeUtf8_char]
  generalize c.toNat = n at wide range
  have bits (b : UInt8) (lead : continuationCount b ≠ 0) := lead_cases b lead
  have counts (m : Nat) (small : m < 256) := continuationCount_of_range (UInt8.ofNat m)
  unfold encodeUtf8
  rw [if_neg (by omega)]
  by_cases two : n < 0x800
  · rw [if_pos two]
    have lead := toNat_ofNat_byte (0xC0 + n / 64) (by omega)
    have tail := toNat_ofNat_byte (0x80 + n % 64) (by omega)
    have count := (counts (0xC0 + n / 64) (by omega)).2.1 (by omega) (by omega)
    refine ⟨_, _, rfl, by omega, by simp, count, ?_, ?_, ?_⟩
    · simp only [List.mem_singleton, forall_eq, IsContinuation, tail]
      omega
    · have payload := (bits _ (by rw [count]; decide))
      rw [count, lead] at payload
      simp only [gather, List.foldl_cons, List.foldl_nil, List.length_singleton, tail]
      omega
    · change 0x80 ≤ n
      omega
  · rw [if_neg two]
    by_cases three : n < 0x10000
    · rw [if_pos three]
      have lead := toNat_ofNat_byte (0xE0 + n / 4096) (by omega)
      have first := toNat_ofNat_byte (0x80 + n / 64 % 64) (by omega)
      have second := toNat_ofNat_byte (0x80 + n % 64) (by omega)
      have count := (counts (0xE0 + n / 4096) (by omega)).2.2.1 (by omega) (by omega)
      refine ⟨_, _, rfl, by omega, by simp, count, ?_, ?_, ?_⟩
      · simp only [List.mem_cons, List.not_mem_nil, or_false, forall_eq_or_imp, forall_eq,
          IsContinuation, first, second]
        omega
      · have payload := (bits _ (by rw [count]; decide))
        rw [count, lead] at payload
        simp only [gather, List.foldl_cons, List.foldl_nil, List.length_cons, List.length_nil,
          Nat.zero_add, Nat.reduceAdd, first, second]
        omega
      · change 0x800 ≤ n
        omega
    · rw [if_neg three]
      have lead := toNat_ofNat_byte (0xF0 + n / 262144) (by omega)
      have first := toNat_ofNat_byte (0x80 + n / 4096 % 64) (by omega)
      have second := toNat_ofNat_byte (0x80 + n / 64 % 64) (by omega)
      have third := toNat_ofNat_byte (0x80 + n % 64) (by omega)
      have count := (counts (0xF0 + n / 262144) (by omega)).2.2.2 (by omega) (by omega)
      refine ⟨_, _, rfl, by omega, by simp, count, ?_, ?_, ?_⟩
      · simp only [List.mem_cons, List.not_mem_nil, or_false, forall_eq_or_imp, forall_eq,
          IsContinuation, first, second, third]
        omega
      · have payload := (bits _ (by rw [count]; decide))
        rw [count, lead] at payload
        simp only [gather, List.foldl_cons, List.foldl_nil, List.length_cons, List.length_nil,
          Nat.zero_add, Nat.reduceAdd, first, second, third]
        omega
      · change 0x10000 ≤ n
        omega

theorem byte_ext {a b : UInt8} (h : a.toNat = b.toNat) : a = b := UInt8.toNat_inj.mp h

theorem encodeUtf8_gather (lead : UInt8) (tail : Bytes) (wide : continuationCount lead ≠ 0)
    (count : tail.length = continuationCount lead) (each : ∀ b ∈ tail, IsContinuation b)
    (least : minimumCodePoint tail.length ≤ gather (leadBits tail.length lead) tail)
    (most : gather (leadBits tail.length lead) tail ≤ 0x10FFFF) :
    encodeUtf8 (gather (leadBits tail.length lead) tail) = lead :: tail := by
  have shape := lead_cases lead wide
  rw [count] at least most ⊢
  rcases shape with ⟨one, low, high, payload⟩ | ⟨two, low, high, payload⟩ |
      ⟨three, low, high, payload⟩
  · obtain ⟨a, rfl⟩ := List.length_eq_one_iff.mp (count.trans one)
    have ha := each a (by simp)
    rw [one] at payload least most ⊢
    change 0x80 ≤ _ at least
    simp only [IsContinuation, gather, List.foldl_cons, List.foldl_nil, payload] at ha least most ⊢
    rw [encodeUtf8, if_neg (by omega), if_pos (by omega)]
    simp only [List.cons.injEq, and_true]
    refine ⟨?_, ?_⟩ <;> apply byte_ext <;> rw [toNat_ofNat_byte _ (by omega)] <;> omega
  · obtain ⟨a, b, rfl⟩ := List.length_eq_two.mp (count.trans two)
    have ha := each a (by simp)
    have hb := each b (by simp)
    rw [two] at payload least most ⊢
    change 0x800 ≤ _ at least
    simp only [IsContinuation, gather, List.foldl_cons, List.foldl_nil, payload]
      at ha hb least most ⊢
    rw [encodeUtf8, if_neg (by omega), if_neg (by omega), if_pos (by omega)]
    simp only [List.cons.injEq, and_true]
    refine ⟨?_, ?_, ?_⟩ <;> apply byte_ext <;> rw [toNat_ofNat_byte _ (by omega)] <;> omega
  · obtain ⟨a, b, c, rfl⟩ := List.length_eq_three.mp (count.trans three)
    have ha := each a (by simp)
    have hb := each b (by simp)
    have hc := each c (by simp)
    rw [three] at payload least most ⊢
    change 0x10000 ≤ _ at least
    simp only [IsContinuation, gather, List.foldl_cons, List.foldl_nil, payload]
      at ha hb hc least most ⊢
    rw [encodeUtf8, if_neg (by omega), if_neg (by omega), if_neg (by omega)]
    simp only [List.cons.injEq, and_true]
    refine ⟨?_, ?_, ?_, ?_⟩ <;> apply byte_ext <;> rw [toNat_ofNat_byte _ (by omega)] <;> omega

theorem not_validUtf8_single (high : 128 ≤ b.toNat) : ¬ ValidUtf8 [b] := by
  rintro ⟨chars, whole⟩
  cases chars with
  | nil => cases whole
  | cons c rest =>
      rw [List.flatMap_cons] at whole
      by_cases wide : 0x80 ≤ c.toNat
      · obtain ⟨lead, tail, shape, _, some_, _⟩ := encode_wide c wide
        rw [shape, List.cons_append, List.cons.injEq] at whole
        exact some_ (List.append_eq_nil_iff.mp whole.2.symm).1
      · rw [← encodeUtf8_char, encodeUtf8, if_pos (by omega), List.cons_append,
          List.cons.injEq] at whole
        have same := congrArg UInt8.toNat whole.1
        rw [toNat_ofNat_byte c.toNat (by omega)] at same
        omega

end Mira
