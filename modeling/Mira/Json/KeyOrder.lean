import Mathlib.Data.List.Lex
import Mira.Json.Value

/-!
The bytewise order of keys is a strict total order, so that sorted keys without equal neighbours
are distinct.
-/

namespace Mira
open Bytes

theorem keyLess_irrefl (key : Bytes) : keyLess key key = false := by
  induction key with
  | nil => rfl
  | cons first rest ih => simp [keyLess, ih]

variable {first second third : Bytes}

theorem keyLess_trans (one : keyLess first second = true) (other : keyLess second third = true) :
    keyLess first third = true := by
  induction first generalizing second third with
  | nil =>
      cases second with
      | nil => cases one
      | cons b bs =>
          cases third with
          | nil => cases other
          | cons c cs => rfl
  | cons a as ih =>
      cases second with
      | nil => cases one
      | cons b bs =>
          cases third with
          | nil => cases other
          | cons c cs =>
              simp only [keyLess, Bool.or_eq_true, Bool.and_eq_true, decide_eq_true_eq] at *
              rcases one with less | ⟨rfl, later⟩
              · rcases other with less' | ⟨rfl, _⟩
                · exact .inl (UInt8.lt_trans less less')
                · exact .inl less
              · rcases other with less' | ⟨rfl, later'⟩
                · exact .inl less'
                · exact .inr ⟨rfl, ih later later'⟩

theorem keyLess_total (different : first ≠ second) (later : keyLess first second = false) :
    keyLess second first = true := by
  induction first generalizing second with
  | nil =>
      cases second with
      | nil => exact absurd rfl different
      | cons b bs => cases later
  | cons a as ih =>
      cases second with
      | nil => rfl
      | cons b bs =>
          simp only [keyLess, Bool.or_eq_false_iff, decide_eq_false_iff_not, Bool.or_eq_true,
            Bool.and_eq_true, decide_eq_true_eq] at later ⊢
          by_cases same : a = b
          · subst same
            refine .inr ⟨rfl, ih (fun h => different (by rw [h])) ?_⟩
            simpa using later.2
          · left
            have above := UInt8.not_lt.mp later.1
            exact UInt8.lt_of_le_of_ne above fun h => same h.symm

theorem keyLess_asymm (less : keyLess first second = true) : keyLess second first = false := by
  cases back : keyLess second first with
  | false => rfl
  | true =>
      have loop := keyLess_trans less back
      rw [keyLess_irrefl] at loop
      cases loop

theorem keyLess_not_total (first second : Bytes) :
    keyLess second first = false ∨ keyLess first second = false := by
  cases back : keyLess second first with
  | false => exact .inl rfl
  | true => exact .inr (keyLess_asymm back)

theorem keyLess_not_trans (one : keyLess second first = false) (two : keyLess third second = false) :
    keyLess third first = false := by
  cases back : keyLess third first with
  | false => rfl
  | true =>
      by_cases same : first = second
      · rw [same, two] at back
        cases back
      · have less := keyLess_total (fun equal => same equal.symm) one
        have below := keyLess_trans back less
        rw [two] at below
        cases below

def sortByKey {α : Type} (key : α → Bytes) (items : List α) : List α :=
  items.insertionSort fun first second => keyLess (key second) (key first) = false

theorem sortByKey_perm {α : Type} (key : α → Bytes) (items : List α) :
    (sortByKey key items).Perm items :=
  List.perm_insertionSort _ _

theorem sortByKey_pairwise {α : Type} (key : α → Bytes) (items : List α) :
    (sortByKey key items).Pairwise fun first second =>
      keyLess (key second) (key first) = false := by
  have total : Std.Total fun first second : α => keyLess (key second) (key first) = false :=
    ⟨fun first second => keyLess_not_total (key first) (key second)⟩
  have trans : IsTrans α fun first second => keyLess (key second) (key first) = false :=
    ⟨fun first second third one two => keyLess_not_trans one two⟩
  exact List.pairwise_insertionSort _ _

theorem sortByKey_of_perm {α : Type} (key : α → Bytes) {first second : List α}
    (same : first.Perm second) (distinct : (first.map key).Nodup) :
    sortByKey key first = sortByKey key second := by
  refine List.Perm.eq_of_pairwise ?_ (sortByKey_pairwise key first)
    (sortByKey_pairwise key second)
    ((sortByKey_perm key first).trans (same.trans (sortByKey_perm key second).symm))
  intro one two among among' below above
  have one_in := (sortByKey_perm key first).mem_iff.mp among
  have two_in := same.mem_iff.mpr ((sortByKey_perm key second).mem_iff.mp among')
  refine List.inj_on_of_nodup_map distinct one_in two_in ?_
  by_contra different
  rw [keyLess_total different above] at below
  cases below

theorem orderMembers_of_perm {α : Type} {first second : List (Bytes × α)}
    (same : first.Perm second) (distinct : (first.map Prod.fst).Nodup) :
    orderMembers true first = orderMembers true second :=
  sortByKey_of_perm Prod.fst same distinct

theorem keyLess_iff (first second : Bytes) :
    keyLess first second = true ↔ first.map UInt8.toNat < second.map UInt8.toNat := by
  induction first generalizing second with
  | nil =>
      cases second with
      | nil => simp [keyLess]
      | cons b rest => simp [keyLess]
  | cons a rest ih =>
      cases second with
      | nil => simp [keyLess]
      | cons b rest' =>
          simp [keyLess, List.cons_lt_cons_iff, ih, UInt8.lt_iff_toNat_lt, UInt8.toNat_inj]

end Mira
