import Mathlib.Data.List.GetD
import Mira.Digest.Sha256

/-!
The hash of the Secure Hash Standard: a padded message is cut into blocks of sixty-four bytes, and
each block is compressed into eight words. Its constants are the first bits of roots of the first
primes. The incremental hash computes the same digest.
-/

namespace Mira.Sha256
open Mira Bytes

def rootBits (degree number : Nat) : Nat → Nat → Nat
  | 0, root => root
  | bits + 1, root =>
      rootBits degree number bits
        (if (root + 2 ^ bits) ^ degree ≤ number then root + 2 ^ bits else root)

def firstPrimes : List Nat :=
  [2, 3, 5, 7, 11, 13, 17, 19, 23, 29, 31, 37, 41, 43, 47, 53, 59, 61, 67, 71, 73, 79, 83,
    89, 97, 101, 103, 107, 109, 113, 127, 131, 137, 139, 149, 151, 157, 163, 167, 173, 179,
    181, 191, 193, 197, 199, 211, 223, 227, 229, 233, 239, 241, 251, 257, 263, 269, 271, 277,
    281, 283, 293, 307, 311]

/-- The first thirty-two bits of the fractional part of the root of a number. -/
def fractionBits (degree number : Nat) : UInt32 :=
  .ofNat (rootBits degree (number * 2 ^ (32 * degree)) 40 0)

def standardConstant (t : Nat) : UInt32 := fractionBits 3 (firstPrimes.getD t 0)

def standardInitial : Words where
  a := fractionBits 2 2
  b := fractionBits 2 3
  c := fractionBits 2 5
  d := fractionBits 2 7
  e := fractionBits 2 11
  f := fractionBits 2 13
  g := fractionBits 2 17
  h := fractionBits 2 19

theorem roundConstants_eq : roundConstants = (List.range 64).map standardConstant := by
  decide +kernel

theorem initialState_eq : initialState = standardInitial := by
  rw [initialState, standardInitial, Words.mk.injEq]
  decide +kernel

def rotr (n x : UInt32) : UInt32 := (x >>> n) ||| (x <<< (32 - n))

def ch (x y z : UInt32) : UInt32 := (x &&& y) ^^^ (~~~x &&& z)

def maj (x y z : UInt32) : UInt32 := (x &&& y) ^^^ (x &&& z) ^^^ (y &&& z)

def upperSigma0 (x : UInt32) : UInt32 := rotr 2 x ^^^ rotr 13 x ^^^ rotr 22 x

def upperSigma1 (x : UInt32) : UInt32 := rotr 6 x ^^^ rotr 11 x ^^^ rotr 25 x

def lowerSigma0 (x : UInt32) : UInt32 := rotr 7 x ^^^ rotr 18 x ^^^ (x >>> 3)

def lowerSigma1 (x : UInt32) : UInt32 := rotr 17 x ^^^ rotr 19 x ^^^ (x >>> 10)

/-- The message, a one bit, as few zero bits as complete the block and the length in bits. -/
def pad (message : Bytes) : Bytes :=
  message ++ 0x80 :: (List.replicate ((119 - message.length % 64) % 64) 0 ++
    bigEndian 8 (8 * message.length))

def blockAt (padded : Bytes) (i : Nat) : Bytes := (padded.drop (64 * i)).take 64

/-- A word of four bytes, the first of them the highest. -/
def blockWord (block : Bytes) (t : Nat) : UInt32 :=
  ((block.getD (4 * t) 0).toUInt32 <<< 24) ||| ((block.getD (4 * t + 1) 0).toUInt32 <<< 16) |||
    ((block.getD (4 * t + 2) 0).toUInt32 <<< 8) ||| (block.getD (4 * t + 3) 0).toUInt32

def schedule (block : Bytes) (t : Nat) : UInt32 :=
  if t < 16 then blockWord block t
  else
    lowerSigma1 (schedule block (t - 2)) + schedule block (t - 7) +
      lowerSigma0 (schedule block (t - 15)) + schedule block (t - 16)
termination_by t

def standardRound (block : Bytes) (w : Words) (t : Nat) : Words :=
  let t1 := w.h + upperSigma1 w.e + ch w.e w.f w.g + standardConstant t + schedule block t
  let t2 := upperSigma0 w.a + maj w.a w.b w.c
  ⟨t1 + t2, w.a, w.b, w.c, w.d + t1, w.e, w.f, w.g⟩

def compress (hash : Words) (block : Bytes) : Words :=
  let w := (List.range 64).foldl (standardRound block) hash
  ⟨w.a + hash.a, w.b + hash.b, w.c + hash.c, w.d + hash.d, w.e + hash.e, w.f + hash.f,
    w.g + hash.g, w.h + hash.h⟩

def standardDigest (message : Bytes) : Bytes :=
  let padded := pad message
  ((List.range (padded.length / 64)).foldl (fun hash i => compress hash (blockAt padded i))
    standardInitial).bytes

theorem blockWords_eq (count : Nat) (block : Bytes) (length : block.length = 4 * count) :
    blockWords block = (List.range count).map (blockWord block) := by
  induction count generalizing block with
  | zero =>
      rw [List.length_eq_zero_iff.mp length]
      rfl
  | succ count ih =>
      match block, length with
      | a :: b :: c :: d :: rest, length =>
          rw [blockWords, ih rest (by simp only [List.length_cons] at length; omega),
            List.range_succ_eq_map, List.map_cons, List.map_map]
          refine congrArg₂ _ rfl (List.map_congr_left fun t _ => ?_)
          rw [Function.comp_apply, blockWord, blockWord, Nat.mul_succ]
          rfl

theorem getD_reverse_range {word : Nat → UInt32} {t i : Nat} (inside : i < t) :
    ((List.range t).map word).reverse.getD i 0 = word (t - 1 - i) := by
  rw [List.getD_eq_getElem _ _ (by simpa using inside), List.getElem_reverse]
  simp

theorem extendWords_eq {word : Nat → UInt32}
    (recurs : ∀ t, 16 ≤ t → word t = lowerSigma1 (word (t - 2)) + word (t - 7) +
      lowerSigma0 (word (t - 15)) + word (t - 16))
    (count t : Nat) (enough : 16 ≤ t) :
    extendWords count ((List.range t).map word).reverse =
      ((List.range (t + count)).map word).reverse := by
  induction count generalizing t with
  | zero => rfl
  | succ count ih =>
      have next : ((List.range (t + 1)).map word).reverse =
          word t :: ((List.range t).map word).reverse := by
        rw [List.range_succ, List.map_append, List.reverse_append]
        rfl
      rw [extendWords, getD_reverse_range (by omega), getD_reverse_range (by omega),
        getD_reverse_range (by omega), getD_reverse_range (by omega),
        show t + (count + 1) = t + 1 + count by omega, ← ih (t + 1) (by omega), next,
        recurs t enough]
      congr 2
      rw [show t - 1 - 14 = t - 15 by omega, show t - 1 - 1 = t - 2 by omega,
        show t - 1 - 15 = t - 16 by omega, show t - 1 - 6 = t - 7 by omega]
      change word (t - 16) + lowerSigma0 (word (t - 15)) + word (t - 7) +
        lowerSigma1 (word (t - 2)) = _
      ac_rfl

theorem transform_eq (state : Words) (block : Bytes) (full : block.length = 64) :
    transform state block = compress state block := by
  have words : (extendWords 48 (blockWords block).reverse).reverse =
      (List.range 64).map (schedule block) := by
    have first : (List.range 16).map (blockWord block) = (List.range 16).map (schedule block) := by
      refine List.map_congr_left fun t inside => ?_
      rw [schedule, if_pos (List.mem_range.mp inside)]
    rw [blockWords_eq 16 block full, first, extendWords_eq (fun t large => ?_) 48 16 (le_refl 16),
      List.reverse_reverse]
    rw [schedule, if_neg (not_lt.mpr large)]
  have rounds : (roundConstants.zip ((List.range 64).map (schedule block))).foldl round state =
      (List.range 64).foldl (standardRound block) state := by
    rw [roundConstants_eq, List.zip_map', List.foldl_map]
    rfl
  rw [transform, words, rounds, compress]
  simp only [UInt32.add_comm]

theorem blocks_append (m n : Nat) (state : Words) (first second : Bytes)
    (length : first.length = 64 * m) :
    blocks (m + n) state (first ++ second) = blocks n (blocks m state first) second := by
  induction m generalizing state first with
  | zero =>
      rw [List.length_eq_zero_iff.mp length, Nat.zero_add]
      rfl
  | succ m ih =>
      rw [Nat.succ_add, blocks, blocks, Words.computed_eq, Words.computed_eq,
        List.take_append_of_le_length (by omega), List.drop_append_of_le_length (by omega)]
      exact ih _ _ (by rw [List.length_drop]; omega)

theorem blocks_one (state : Words) {block : Bytes} (full : block.length = 64) :
    blocks 1 state block = transform state block := by
  rw [blocks, Words.computed_eq, List.take_of_length_le full.le]
  rfl

theorem blocks_eq (count : Nat) (state : Words) (input : Bytes)
    (long : 64 * count ≤ input.length) :
    blocks count state input =
      (List.range count).foldl (fun hash i => compress hash (blockAt input i)) state := by
  induction count with
  | zero => rfl
  | succ count ih =>
      have full : (blockAt input count).length = 64 := by
        rw [blockAt, List.length_take, List.length_drop]
        omega
      have start : (input.take (64 * count)).length = 64 * count := by
        rw [List.length_take]
        omega
      have before := blocks_append count 0 state (input.take (64 * count))
        (input.drop (64 * count)) start
      have parts := blocks_append count 1 state (input.take (64 * count))
        (input.drop (64 * count)) start
      rw [List.take_append_drop] at before parts
      rw [List.range_succ, List.foldl_append, ← ih (by omega), List.foldl_cons, List.foldl_nil,
        ← transform_eq _ _ full, parts, ← blocks_one _ full]
      rw [Nat.add_zero] at before
      rw [before]
      simp only [blocks, Words.computed_eq, blockAt, List.take_take, Nat.min_self]

theorem length_bigEndian (count value : Nat) : (bigEndian count value).length = count := by
  simp [bigEndian]

theorem pad_parts (text : Bytes) :
    (pad text).length = 64 * (text.length / 64 + if text.length % 64 < 56 then 1 else 2) := by
  rw [pad, List.length_append, List.length_cons, List.length_append, List.length_replicate,
    length_bigEndian]
  split
  · omega
  · omega

theorem digestBlocks_bytes (text : Bytes) (short : text.length < 2 ^ 61) :
    (digestBlocks text).bytes =
      (blocks ((pad text).length / 64) initialState (pad text)).bytes := by
  have start : (text.take (64 * (text.length / 64))).length = 64 * (text.length / 64) := by
    rw [List.length_take]
    omega
  have rest : (text.drop (64 * (text.length / 64))).length = text.length % 64 := by
    rw [List.length_drop]
    omega
  have before := blocks_append (text.length / 64) 0 initialState
    (text.take (64 * (text.length / 64))) (text.drop (64 * (text.length / 64))) start
  have bits : (512 * (text.length / 64) + text.length % 64 * 8) % 2 ^ 64 = 8 * text.length := by
    omega
  have parts : pad text = text.take (64 * (text.length / 64)) ++
      (text.drop (64 * (text.length / 64)) ++ 0x80 :: (List.replicate
        ((119 - text.length % 64) % 64) 0 ++ bigEndian 8 (8 * text.length))) := by
    rw [← List.append_assoc, List.take_append_drop, pad]
  rw [Nat.add_zero, List.take_append_drop] at before
  rw [digestBlocks, pad_parts, Nat.mul_div_cancel_left _ (by decide), Hash.finish]
  simp only [rest, bits, List.length_append, List.length_singleton]
  generalize text.drop (64 * (text.length / 64)) = left at rest parts before
  change blocks _ _ text = blocks _ _ (text.take (64 * (text.length / 64))) at before
  generalize blocks (text.length / 64) initialState text = state at before
  split
  next past =>
      have zeros : (119 - text.length % 64) % 64 = 64 - (text.length % 64 + 1) + 56 := by
        omega
      have cut : left ++ 0x80 :: (List.replicate ((119 - text.length % 64) % 64) 0 ++
          bigEndian 8 (8 * text.length)) = left ++ [0x80] ++
            List.replicate (64 - (text.length % 64 + 1)) 0 ++
              (List.replicate 56 0 ++ bigEndian 8 (8 * text.length)) := by
        rw [zeros, List.replicate_add]
        simp
      have first : (left ++ [(0x80 : UInt8)] ++
          List.replicate (64 - (text.length % 64 + 1)) (0 : UInt8)).length = 64 := by
        rw [List.length_append, List.length_append, rest, List.length_replicate,
          List.length_singleton]
        omega
      have second : (List.replicate 56 (0 : UInt8) ++
          bigEndian 8 (8 * text.length)).length = 64 := by
        rw [List.length_append, List.length_replicate, length_bigEndian]
      rw [if_neg (by omega), parts, blocks_append _ 2 _ _ _ start, ← before, cut,
        blocks_append 1 1 _ _ _ first, blocks_one _ first, blocks_one _ second]
      rfl
  next fits =>
      have zeros : (119 - text.length % 64) % 64 = 56 - (left ++ [(0x80 : UInt8)]).length := by
        rw [List.length_append, rest, List.length_singleton]
        omega
      have cut : left ++ 0x80 :: (List.replicate ((119 - text.length % 64) % 64) 0 ++
          bigEndian 8 (8 * text.length)) = left ++ [0x80] ++
            List.replicate (56 - (left ++ [(0x80 : UInt8)]).length) 0 ++
              bigEndian 8 (8 * text.length) := by
        rw [zeros]
        simp
      have full : (left ++ [(0x80 : UInt8)] ++
          List.replicate (56 - (left ++ [(0x80 : UInt8)]).length) (0 : UInt8) ++ bigEndian 8 (8 * text.length)).length = 64 := by
        rw [List.length_append, List.length_append, List.length_append, rest,
          List.length_replicate, List.length_singleton, length_bigEndian]
        omega
      rw [if_pos (by omega), parts, blocks_append _ 1 _ _ _ start, ← before, cut,
        blocks_one _ full]

/-- The hash of a text of fewer than `2 ^ 61` bytes is the one of the standard. -/
theorem digestString_standard (text : Bytes) (short : text.length < 2 ^ 61) :
    (digestString text).bytes = standardDigest text := by
  have whole : 64 * ((pad text).length / 64) ≤ (pad text).length := Nat.mul_div_le _ _
  rw [digestString_eq, digestBlocks_bytes text short, standardDigest, blocks_eq _ _ _ whole,
    initialState_eq]

theorem abc_standard : (digestString (ascii "abc")).bytes = standardDigest (ascii "abc") :=
  digestString_standard (ascii "abc") (by decide)

end Mira.Sha256
