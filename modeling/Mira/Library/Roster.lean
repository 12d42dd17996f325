import Mathlib.Data.Finset.Card
import Mathlib.Data.List.Basic
import Mathlib.Data.List.Nodup

/-!
Ordered lists whose entries have keys: an entry is replaced in place or pushed at
the end, and a bound drops the oldest entry. The lemmas say what such a list holds,
that keys stay unique, and that bounds are kept.
-/

namespace Roster

variable {α κ : Type*}

def push (bound : Nat) (x : α) (xs : List α) : List α :=
  if bound < (xs ++ [x]).length then (xs ++ [x]).drop 1 else xs ++ [x]

variable {bound : Nat} {x y : α} {xs : List α}

theorem mem_push (present : y ∈ push bound x xs) : y ∈ xs ∨ y = x := by
  have pushed : y ∈ xs ++ [x] := by
    unfold push at present
    split at present
    · exact List.mem_of_mem_drop present
    · exact present
  simpa using pushed

theorem length_push (within : xs.length ≤ bound) : (push bound x xs).length ≤ bound := by
  unfold push
  split
  · rw [List.length_drop, List.length_append, List.length_singleton]
    omega
  · omega

theorem length_le_distinct [DecidableEq α] {ys : List α} (unique : xs.Nodup)
    (within : ∀ x ∈ xs, x ∈ ys) : xs.length ≤ ys.toFinset.card := by
  rw [← List.toFinset_card_of_nodup unique]
  refine Finset.card_le_card fun x present => ?_
  exact List.mem_toFinset.mpr (within x (List.mem_toFinset.mp present))

variable [DecidableEq κ] (key : α → κ)

def holds (k : κ) (xs : List α) : Bool := xs.any fun x => key x = k

theorem holds_iff (k : κ) (xs : List α) : holds key k xs = true ↔ k ∈ xs.map key := by
  simp [holds, List.any_eq_true]

/-- Replaces the first entry of the same key. -/
def replace (x : α) : List α → List α
  | [] => []
  | y :: rest => if key y = key x then x :: rest else y :: replace x rest

theorem map_replace (x : α) (xs : List α) : (replace key x xs).map key = xs.map key := by
  induction xs with
  | nil => rfl
  | cons y rest ih =>
      rw [replace]
      split_ifs with same
      · rw [List.map_cons, List.map_cons, same]
      · rw [List.map_cons, List.map_cons, ih]

theorem length_replace (x : α) (xs : List α) : (replace key x xs).length = xs.length := by
  simpa using congrArg List.length (map_replace key x xs)

theorem mem_replace (present : y ∈ replace key x xs) : y ∈ xs ∨ y = x := by
  induction xs with
  | nil => cases present
  | cons z rest ih =>
      rw [replace] at present
      split_ifs at present
      · rcases List.mem_cons.mp present with rfl | later
        · exact .inr rfl
        · exact .inl (List.mem_cons_of_mem _ later)
      · rcases List.mem_cons.mp present with rfl | later
        · exact .inl List.mem_cons_self
        · exact (ih later).imp_left (List.mem_cons_of_mem _)

theorem mem_replace_iff (unique : (xs.map key).Nodup) (held : key x ∈ xs.map key) :
    y ∈ replace key x xs ↔ y = x ∨ (y ∈ xs ∧ key y ≠ key x) := by
  induction xs with
  | nil => cases held
  | cons z rest ih =>
      rw [List.map_cons, List.nodup_cons] at unique
      rw [replace]
      split_ifs with same
      · have others : y ∈ rest → key y ≠ key x := by
          rintro present own
          exact unique.1 (by rw [same, ← own]; exact List.mem_map_of_mem present)
        simp only [List.mem_cons]
        constructor
        · rintro (rfl | later)
          · exact .inl rfl
          · exact .inr ⟨.inr later, others later⟩
        · rintro (rfl | ⟨rfl | later, other⟩)
          · exact .inl rfl
          · exact absurd same other
          · exact .inr later
      · have held' : key x ∈ rest.map key := by
          rw [List.map_cons] at held
          exact (List.mem_cons.mp held).resolve_left fun own => same own.symm
        simp only [List.mem_cons, ih unique.2 held']
        constructor
        · rintro (rfl | rfl | ⟨later, other⟩)
          · exact .inr ⟨.inl rfl, same⟩
          · exact .inl rfl
          · exact .inr ⟨.inr later, other⟩
        · rintro (rfl | ⟨rfl | later, other⟩)
          · exact .inr (.inl rfl)
          · exact .inl rfl
          · exact .inr (.inr ⟨later, other⟩)

theorem replace_eq_map (unique : (xs.map key).Nodup) :
    replace key x xs = xs.map fun y => if key y = key x then x else y := by
  induction xs with
  | nil => rfl
  | cons z rest ih =>
      rw [List.map_cons, List.nodup_cons] at unique
      rw [replace, List.map_cons]
      split_ifs with same
      · have others : rest.map (fun y => if key y = key x then x else y) = rest.map id := by
          refine List.map_congr_left fun y present => if_neg fun own => ?_
          apply unique.1
          rw [same, ← own]
          exact List.mem_map_of_mem present
        rw [others, List.map_id]
      · rw [ih unique.2]

theorem filter_later (unique : (xs.map key).Nodup) (earlier : Nat) :
    (xs.filter fun x => key x ∈ (xs.drop earlier).map key) = xs.drop earlier := by
  have disjoint : ∀ x ∈ xs.take earlier, key x ∉ (xs.drop earlier).map key := by
    intro x present later
    rw [← List.take_append_drop earlier xs, List.map_append] at unique
    exact (List.nodup_append.mp unique).2.2 _ (List.mem_map_of_mem present) _ later rfl
  conv_lhs => rw [← List.take_append_drop earlier xs, List.filter_append]
  rw [List.take_append_drop, List.filter_eq_nil_iff.mpr, List.filter_eq_self.mpr, List.nil_append]
  · intro x present
    exact decide_eq_true (List.mem_map_of_mem present)
  · intro x present
    rw [decide_eq_true_eq]
    exact disjoint x present

/-- Replaces the entry of the same key in place, or adds one at the end. -/
def put (x : α) (xs : List α) : List α :=
  if holds key (key x) xs then replace key x xs else xs ++ [x]

theorem mem_put_iff (unique : (xs.map key).Nodup) :
    y ∈ put key x xs ↔ y = x ∨ (y ∈ xs ∧ key y ≠ key x) := by
  unfold put
  split_ifs with held
  · exact mem_replace_iff key unique ((holds_iff key _ _).mp held)
  · rw [holds_iff] at held
    have others : y ∈ xs → key y ≠ key x := by
      rintro present own
      exact held (own ▸ List.mem_map_of_mem present)
    simp only [List.mem_append, List.mem_singleton]
    constructor
    · rintro (present | rfl)
      · exact .inr ⟨present, others present⟩
      · exact .inl rfl
    · rintro (rfl | ⟨present, _⟩)
      · exact .inr rfl
      · exact .inl present

theorem nodup_put (unique : (xs.map key).Nodup) : ((put key x xs).map key).Nodup := by
  unfold put
  split_ifs with held
  · rwa [map_replace]
  · rw [holds_iff] at held
    rw [List.map_append, List.map_singleton, List.nodup_append]
    refine ⟨unique, by simp, ?_⟩
    rintro k present _ own rfl
    exact held (by rwa [← List.mem_singleton.mp own])

/-- The same with a bound on the number of entries. -/
def putWithin (bound : Nat) (x : α) (xs : List α) : List α :=
  if holds key (key x) xs then replace key x xs else push bound x xs

theorem mem_putWithin (present : y ∈ putWithin key bound x xs) : y ∈ xs ∨ y = x := by
  unfold putWithin at present
  split_ifs at present
  · exact mem_replace key present
  · exact mem_push present

theorem length_putWithin (within : xs.length ≤ bound) :
    (putWithin key bound x xs).length ≤ bound := by
  unfold putWithin
  split_ifs
  · rwa [length_replace]
  · exact length_push within

end Roster
