import Mira.Library.Bytes

/-!
The SHA-256 digests that stamp events and checkpoints: the incremental hash with
its sixty-four byte buffer, and the hexadecimal text of a digest. Nothing below
relies on the hash being hard to invert; digests are only recomputed and
compared.
-/

namespace Mira
open Bytes

/-- Thirty-two bytes; the length is part of the value. -/
structure Sha256Digest where
  bytes : Bytes
  size : bytes.length = 32
  deriving DecidableEq

namespace Sha256

def roundConstants : List UInt32 :=
  [0x428a2f98, 0x71374491, 0xb5c0fbcf, 0xe9b5dba5, 0x3956c25b, 0x59f111f1, 0x923f82a4,
    0xab1c5ed5, 0xd807aa98, 0x12835b01, 0x243185be, 0x550c7dc3, 0x72be5d74, 0x80deb1fe,
    0x9bdc06a7, 0xc19bf174, 0xe49b69c1, 0xefbe4786, 0x0fc19dc6, 0x240ca1cc, 0x2de92c6f,
    0x4a7484aa, 0x5cb0a9dc, 0x76f988da, 0x983e5152, 0xa831c66d, 0xb00327c8, 0xbf597fc7,
    0xc6e00bf3, 0xd5a79147, 0x06ca6351, 0x14292967, 0x27b70a85, 0x2e1b2138, 0x4d2c6dfc,
    0x53380d13, 0x650a7354, 0x766a0abb, 0x81c2c92e, 0x92722c85, 0xa2bfe8a1, 0xa81a664b,
    0xc24b8b70, 0xc76c51a3, 0xd192e819, 0xd6990624, 0xf40e3585, 0x106aa070, 0x19a4c116,
    0x1e376c08, 0x2748774c, 0x34b0bcb5, 0x391c0cb3, 0x4ed8aa4a, 0x5b9cca4f, 0x682e6ff3,
    0x748f82ee, 0x78a5636f, 0x84c87814, 0x8cc70208, 0x90befffa, 0xa4506ceb, 0xbef9a3f7,
    0xc67178f2]

/-- The eight working words. -/
structure Words where
  (a b c d e f g h : UInt32)

def initialState : Words :=
  ⟨0x6a09e667, 0xbb67ae85, 0x3c6ef372, 0xa54ff53a, 0x510e527f, 0x9b05688c, 0x1f83d9ab,
    0x5be0cd19⟩

def rotateRight (value amount : UInt32) : UInt32 :=
  (value >>> amount) ||| (value <<< (32 - amount))

def blockWords : Bytes → List UInt32
  | a :: b :: c :: d :: rest =>
      ((a.toUInt32 <<< 24) ||| (b.toUInt32 <<< 16) ||| (c.toUInt32 <<< 8) ||| d.toUInt32) ::
        blockWords rest
  | _ => []

/-- Extends the schedule by so many words; the list holds the newest word first. -/
def extendWords : Nat → List UInt32 → List UInt32
  | 0, words => words
  | count + 1, words =>
      let w15 := words.getD 14 0
      let w2 := words.getD 1 0
      let s0 := rotateRight w15 7 ^^^ rotateRight w15 18 ^^^ (w15 >>> 3)
      let s1 := rotateRight w2 17 ^^^ rotateRight w2 19 ^^^ (w2 >>> 10)
      extendWords count ((words.getD 15 0 + s0 + words.getD 6 0 + s1) :: words)

def round (w : Words) (step : UInt32 × UInt32) : Words :=
  let s1 := rotateRight w.e 6 ^^^ rotateRight w.e 11 ^^^ rotateRight w.e 25
  let choose := (w.e &&& w.f) ^^^ (~~~w.e &&& w.g)
  let temp1 := w.h + s1 + choose + step.1 + step.2
  let s0 := rotateRight w.a 2 ^^^ rotateRight w.a 13 ^^^ rotateRight w.a 22
  let majority := (w.a &&& w.b) ^^^ (w.a &&& w.c) ^^^ (w.b &&& w.c)
  ⟨temp1 + (s0 + majority), w.a, w.b, w.c, w.d + temp1, w.e, w.f, w.g⟩

def transform (state : Words) (block : Bytes) : Words :=
  let words := (extendWords 48 (blockWords block).reverse).reverse
  let w := (roundConstants.zip words).foldl round state
  ⟨state.a + w.a, state.b + w.b, state.c + w.c, state.d + w.d, state.e + w.e, state.f + w.f,
    state.g + w.g, state.h + w.h⟩

structure Hash where
  state : Words := initialState
  buffer : Bytes := []
  bitCount : Nat := 0

def Hash.push (hash : Hash) (b : UInt8) : Hash :=
  let buffer := hash.buffer ++ [b]
  if buffer.length = 64 then
    { state := transform hash.state buffer, buffer := [], bitCount := hash.bitCount + 512 }
  else { hash with buffer := buffer }

def Hash.update (hash : Hash) (input : Bytes) : Hash := input.foldl Hash.push hash

def bigEndian (count value : Nat) : Bytes :=
  (List.range count).reverse.map fun index => UInt8.ofNat (value / 256 ^ index)

def Words.bytes (w : Words) : Bytes :=
  [w.a, w.b, w.c, w.d, w.e, w.f, w.g, w.h].flatMap fun word => bigEndian 4 word.toNat

def Hash.finish (hash : Hash) : Sha256Digest :=
  let originalBits := (hash.bitCount + hash.buffer.length * 8) % 2 ^ 64
  let marked := hash.buffer ++ [0x80]
  let flushed : Words × Bytes :=
    if 56 < marked.length then
      (transform hash.state (marked ++ List.replicate (64 - marked.length) 0), [])
    else (hash.state, marked)
  let last := flushed.2 ++ List.replicate (56 - flushed.2.length) 0 ++ bigEndian 8 originalBits
  ⟨(transform flushed.1 last).bytes, by simp [Words.bytes, bigEndian]⟩

end Sha256

def digestString (text : Bytes) : Sha256Digest := (Sha256.Hash.update {} text).finish

namespace Sha256Digest

def zero : Sha256Digest := ⟨List.replicate 32 0, by simp⟩

def toString (digest : Sha256Digest) : Bytes := toHex digest.bytes

end Sha256Digest

/-- Sixty-four hexadecimal digits in either case, and nothing else. -/
def digestFromHex (text : Bytes) : Option Sha256Digest :=
  if text.length ≠ 64 then none
  else
    match ofHex text with
    | some bytes => if h : bytes.length = 32 then some ⟨bytes, h⟩ else none
    | none => none

variable (digest : Sha256Digest)

theorem Sha256Digest.length_toString : digest.toString.length = 64 := by
  rw [Sha256Digest.toString, length_toHex, digest.size]

theorem digestFromHex_toString : digestFromHex digest.toString = some digest := by
  unfold digestFromHex
  rw [if_neg (by simp [digest.length_toString])]
  simp only [Sha256Digest.toString, ofHex_toHex, digest.size, dite_true]

/-- A published test vector. -/
example : (digestString (ascii "abc")).toString =
    ascii "ba7816bf8f01cfea414140de5dae2223b00361a396177a9cb410ff61f20015ad" := by
  decide +kernel

end Mira

namespace Mira.Sha256
open Mira Bytes

/-- Computes the number, then goes on with it. -/
def computed {α : Sort*} (number : Nat) (next : Nat → α) : α :=
  match number with
  | 0 => next 0
  | number + 1 => next (number + 1)

theorem computed_eq {α : Sort*} (number : Nat) (next : Nat → α) :
    computed number next = next number := by
  cases number with
  | zero => rfl
  | succ number => rfl

def Words.computed {α : Sort*} (w : Words) (next : Words → α) : α :=
  Sha256.computed w.a.toNat fun a => Sha256.computed w.b.toNat fun b =>
    Sha256.computed w.c.toNat fun c => Sha256.computed w.d.toNat fun d =>
      Sha256.computed w.e.toNat fun e => Sha256.computed w.f.toNat fun f =>
        Sha256.computed w.g.toNat fun g => Sha256.computed w.h.toNat fun h =>
          next ⟨.ofNat a, .ofNat b, .ofNat c, .ofNat d, .ofNat e, .ofNat f, .ofNat g, .ofNat h⟩

theorem Words.computed_eq {α : Sort*} (w : Words) (next : Words → α) :
    w.computed next = next w := by
  simp only [Words.computed, Sha256.computed_eq, UInt32.ofNat_toNat]

def blocks : Nat → Words → Bytes → Words
  | 0, state, _ => state
  | count + 1, state, input =>
      (transform state (input.take 64)).computed fun next => blocks count next (input.drop 64)

theorem update_short (hash : Hash) (input : Bytes)
    (short : hash.buffer.length + input.length < 64) :
    hash.update input = { hash with buffer := hash.buffer ++ input } := by
  induction input generalizing hash with
  | nil => rw [List.append_nil]; rfl
  | cons b rest ih =>
      rw [List.length_cons] at short
      have pushed : hash.push b = { hash with buffer := hash.buffer ++ [b] } := by
        rw [Hash.push, if_neg]
        rw [List.length_append, List.length_singleton]
        omega
      change (hash.push b).update rest = _
      rw [pushed, ih _ (by rw [List.length_append, List.length_singleton]; omega)]
      simp

theorem update_append (hash : Hash) (first second : Bytes) :
    hash.update (first ++ second) = (hash.update first).update second :=
  List.foldl_append

theorem update_block (state : Words) (bits : Nat) (block : Bytes) (full : block.length = 64) :
    Hash.update ⟨state, [], bits⟩ block = ⟨transform state block, [], bits + 512⟩ := by
  have nonempty : block ≠ [] := by
    intro empty
    rw [empty] at full
    cases full
  obtain ⟨before, last, rfl⟩ : ∃ before last, block = before ++ [last] :=
    ⟨block.dropLast, block.getLast nonempty, (List.dropLast_append_getLast nonempty).symm⟩
  rw [List.length_append, List.length_singleton] at full
  rw [update_append, update_short ⟨state, [], bits⟩ before (by rw [List.length_nil]; omega)]
  change Hash.push ⟨state, [] ++ before, bits⟩ last = _
  rw [Hash.push, List.nil_append, if_pos (by rw [List.length_append, List.length_singleton]; omega)]

theorem update_eq (count : Nat) (state : Words) (bits : Nat) (input : Bytes)
    (long : 64 * count ≤ input.length) (short : input.length < 64 * (count + 1)) :
    Hash.update ⟨state, [], bits⟩ input =
      ⟨blocks count state input, input.drop (64 * count), bits + 512 * count⟩ := by
  induction count generalizing state bits input with
  | zero =>
      rw [update_short _ _ (by rw [List.length_nil]; omega)]
      rfl
  | succ count ih =>
      have parted : input = input.take 64 ++ input.drop 64 := (List.take_append_drop 64 input).symm
      have full : (input.take 64).length = 64 := by
        rw [List.length_take]
        omega
      have rest := List.length_drop (i := 64) (l := input)
      conv => lhs; rw [parted]
      rw [update_append, update_block state bits _ full, ih _ _ _ (by omega) (by omega), blocks,
        Words.computed_eq, List.drop_drop]
      simp only [Hash.mk.injEq, true_and]
      exact ⟨by rw [show 64 + 64 * count = 64 * (count + 1) by omega], by omega⟩

def digestBlocks (text : Bytes) : Sha256Digest :=
  let count := text.length / 64
  Hash.finish ⟨blocks count initialState text, text.drop (64 * count), 512 * count⟩

theorem digestString_eq (text : Bytes) : digestString text = digestBlocks text := by
  rw [digestString, digestBlocks]
  have moved := update_eq (text.length / 64) initialState 0 text (by omega) (by omega)
  rw [Nat.zero_add] at moved
  exact congrArg Hash.finish moved

end Mira.Sha256
