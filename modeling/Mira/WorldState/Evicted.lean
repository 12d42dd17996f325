import Mathlib.Data.Prod.Lex
import Mathlib.Order.Lex
import Mira.Json.KeyOrder
import Mira.WorldState.Operators

/-!
The eviction order. Two elements are equal where their canonical documents are, so the order of
staleness, time, confidence and text separates the entities of a table without repeated elements,
and what a prune evicts does not depend on the order of the table.
-/

namespace Mira.World
open Mira Bytes Eviction

theorem sameElement_iff {left right : ElementRef} :
    sameElement left right = true ↔ left = right := by
  cases left
  cases right
  simp [sameElement, and_assoc]

variable {rest rest' : Bytes}

theorem boundsText (bounds : RectF) :
    canonicalJsonString (boundsToJson bounds) =
      123 :: (writeString (ascii "bottom") ++ 58 :: (writeNumber bounds.bottom.value ++ 44 ::
        (writeString (ascii "left") ++ 58 :: (writeNumber bounds.left.value ++ 44 ::
        (writeString (ascii "right") ++ 58 :: (writeNumber bounds.right.value ++ 44 ::
        (writeString (ascii "top") ++ 58 :: (writeNumber bounds.top.value ++ [125])))))))) := by
  have number (value : Rat) : canonicalJsonString (.number value) = writeNumber value := by
    rw [canonicalJsonString, writeValue]
  rw [boundsToJson, writeObject_sorted [ascii "bottom", ascii "left", ascii "right", ascii "top"]
    rfl (by decide)]
  simp only [List.map_cons, List.map_nil, joinWith, number, List.append_assoc, List.cons_append]

theorem elementText (element : ElementRef) :
    canonicalJsonString (elementToJson element) =
      123 :: (writeString (ascii "bounds") ++ 58 ::
        (canonicalJsonString (boundsToJson element.bounds) ++ 44 ::
        (writeString (ascii "environment_epoch") ++ 58 ::
          (decimalInt (toInt64 element.environmentEpoch.toNat) ++ 44 ::
        (writeString (ascii "evidence_digest") ++ 58 ::
          (writeString element.evidenceDigest.toString ++ 44 ::
        (writeString (ascii "observation_id") ++ 58 ::
          (writeString element.observationId.toString ++ 44 ::
        (writeString (ascii "source") ++ 58 :: (writeString element.source.name ++ 44 ::
        (writeString (ascii "space") ++ 58 :: (writeString element.space.toString ++ 44 ::
        (writeString (ascii "stable_hint") ++ 58 ::
          (writeString element.stableHint ++ [125])))))))))))))) := by
  have string (text : Bytes) : canonicalJsonString (.string text) = writeString text := by
    rw [canonicalJsonString, writeValue]
  have integer (value : Int) : canonicalJsonString (.integer value) = decimalInt value := by
    rw [canonicalJsonString, writeValue]
  rw [elementToJson, writeObject_sorted [ascii "bounds", ascii "environment_epoch",
    ascii "evidence_digest", ascii "observation_id", ascii "source", ascii "space",
    ascii "stable_hint"] rfl (by decide)]
  simp only [List.map_cons, List.map_nil, joinWith, string, integer, List.append_assoc,
    List.cons_append]

theorem boundsText_apart {first second : RectF}
    (same : canonicalJsonString (boundsToJson first) ++ rest =
      canonicalJsonString (boundsToJson second) ++ rest') : first = second ∧ rest = rest' := by
  have comma (value : Rat) : (44 : UInt8) ∉ writeNumber value :=
    writeNumber_safe value (by decide) (by decide)
  have brace (value : Rat) : (125 : UInt8) ∉ writeNumber value :=
    writeNumber_safe value (by decide) (by decide)
  rw [boundsText, boundsText] at same
  simp only [List.cons_append, List.append_assoc, List.nil_append, List.cons.injEq,
    true_and] at same
  obtain ⟨bottom, same⟩ := cut_at (comma _) (comma _) (behind_name same)
  obtain ⟨left, same⟩ := cut_at (comma _) (comma _) (behind_name same)
  obtain ⟨right, same⟩ := cut_at (comma _) (comma _) (behind_name same)
  obtain ⟨top, same⟩ := cut_at (brace _) (brace _) (behind_name same)
  have value {a b : Coordinate} (text : writeNumber a.value = writeNumber b.value) : a = b := by
    have equal := writeNumber_injective a.binary b.binary text
    cases a
    cases b
    simpa using equal
  refine ⟨?_, same⟩
  cases first
  cases second
  simp only [RectF.mk.injEq]
  exact ⟨value left, value top, value right, value bottom⟩

theorem toInt64_injective {first second : UInt64}
    (same : toInt64 first.toNat = toInt64 second.toNat) : first = second := by
  have low := first.toNat_lt
  have low' := second.toNat_lt
  apply UInt64.toNat_inj.mp
  simp only [toInt64] at same
  rw [Nat.mod_eq_of_lt low, Nat.mod_eq_of_lt low'] at same
  split at same <;> split at same <;> omega

theorem ElementSource.name_injective {first second : ElementSource}
    (same : first.name = second.name) : first = second := by
  cases first <;> cases second <;> first | rfl | exact absurd same (by decide)

theorem elementText_injective {first second : ElementRef}
    (same : canonicalJsonString (elementToJson first) =
      canonicalJsonString (elementToJson second)) : first = second := by
  have hex (bytes : Bytes) : (44 : UInt8) ∉ writeString (toHex bytes) :=
    comma_not_mem (not_mem_toHex (by decide) bytes)
  have number (n : Int) : (44 : UInt8) ∉ decimalInt n := decimalInt_safe (by decide) (by decide) n
  have named (source : ElementSource) : (44 : UInt8) ∉ writeString source.name := by
    apply comma_not_mem
    cases source <;> decide
  rw [elementText, elementText, List.cons.injEq] at same
  obtain ⟨bounds, same⟩ := boundsText_apart (behind_name same.2)
  rw [List.cons.injEq] at same
  obtain ⟨epoch, same⟩ := cut_at (number _) (number _) (behind_name same.2)
  obtain ⟨digest, same⟩ := cut_at (hex _) (hex _) (behind_name same)
  obtain ⟨id, same⟩ := cut_at (hex _) (hex _) (behind_name same)
  obtain ⟨source, same⟩ := cut_at (named _) (named _) (behind_name same)
  obtain ⟨space, same⟩ := cut_at (hex _) (hex _) (behind_name same)
  have hint := writeString_injective (List.append_inj_left' (behind_name same) rfl)
  have digests : first.evidenceDigest = second.evidenceDigest := by
    have read : digestFromHex first.evidenceDigest.toString =
        digestFromHex second.evidenceDigest.toString :=
      congrArg digestFromHex (writeString_injective digest)
    rw [digestFromHex_toString, digestFromHex_toString] at read
    exact Option.some.inj read
  have ids : first.observationId = second.observationId :=
    congrArg StrongId.mk (Id128.toString_injective _ _ (writeString_injective id))
  have spaces : first.space = second.space :=
    congrArg CoordinateSpaceId.mk (Id128.toString_injective _ _ (writeString_injective space))
  cases first
  cases second
  simp only [ElementRef.mk.injEq]
  exact ⟨ids, toInt64_injective (decimalInt_injective epoch),
    ElementSource.name_injective (writeString_injective source), hint, bounds, spaces, digests⟩

/-- What the eviction order compares, in the order in which it does. -/
def evictionKey (entity : WorldEntity) : Bool ×ₗ Int ×ₗ Rat ×ₗ List Nat :=
  toLex (!entity.stale, toLex (entity.lastSeenAt.wall, toLex (entity.confidence,
    (canonicalJsonString (elementToJson entity.element)).map UInt8.toNat)))

theorem evictsBefore_ranks : Ranks evictsBefore evictionKey := by
  intro left right
  rw [evictsBefore, evictionKey, evictionKey]
  by_cases stale : left.stale = right.stale
  · rw [if_neg (not_not.mpr stale)]
    by_cases wall : left.lastSeenAt.wall = right.lastSeenAt.wall
    · rw [if_neg (not_not.mpr wall)]
      by_cases confidence : left.confidence = right.confidence
      · rw [if_neg (not_not.mpr confidence), keyLess_iff]
        simp [Prod.Lex.toLex_lt_toLex, stale, wall, confidence]
      · rw [if_pos confidence]
        simp [Prod.Lex.toLex_lt_toLex, stale, wall, confidence]
    · rw [if_pos wall]
      simp [Prod.Lex.toLex_lt_toLex, stale, wall]
  · rw [if_pos stale]
    cases staleLeft : left.stale with
    | true =>
        cases staleRight : right.stale with
        | true => exact absurd (staleLeft.trans staleRight.symm) stale
        | false => simp [Prod.Lex.toLex_lt_toLex]
    | false =>
        cases staleRight : right.stale with
        | true => simp [Prod.Lex.toLex_lt_toLex]
        | false => exact absurd (staleLeft.trans staleRight.symm) stale

/-- No element is in the table twice. -/
def Distinct (entities : List WorldEntity) : Prop :=
  (entities.map WorldEntity.element).Nodup

instance (entities : List WorldEntity) : Decidable (Distinct entities) :=
  inferInstanceAs (Decidable (List.Nodup _))

theorem Distinct.separated {entities : List WorldEntity} (distinct : Distinct entities) :
    Separated evictionKey entities := by
  refine List.Nodup.of_map (fun key => (ofLex (ofLex (ofLex key).2).2).2) ?_
  rw [List.map_map]
  have texts : (entities.map WorldEntity.element).map (fun element =>
      (canonicalJsonString (elementToJson element)).map UInt8.toNat) = entities.map
        ((fun key => (ofLex (ofLex (ofLex key).2).2).2) ∘ evictionKey) := by
    rw [List.map_map]
    rfl
  rw [← texts]
  refine distinct.map ?_
  intro first second same
  have bytes : Function.Injective UInt8.toNat := fun _ _ equal => UInt8.toNat_inj.mp equal
  exact elementText_injective (List.map_injective_iff.mpr bytes same)

variable (options : WorldStateOptions)

def origin : Coordinate := ⟨0, 0, 0, by decide, by decide, by decide, by simp⟩

def sampleElement (name : UInt8) : ElementRef :=
  { observationId := .filled name
    bounds := ⟨origin, origin, origin, origin⟩
    space := ⟨(StrongId.filled name : ObservationId).value⟩
    evidenceDigest := .zero }

def sampleEntity (name : UInt8) (wall : Int) : WorldEntity :=
  { element := sampleElement name, confidence := 1, lastSeenAt := { wall := wall } }

end Mira.World
