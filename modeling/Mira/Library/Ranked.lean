import Mathlib.Data.List.Sort

/-!
Sorting and searching by a numeric key. A sort is any function that permutes a list
into ascending order; the order of items with the same key is left open, so what is
proved of all sorts does not depend on it. The search is the usual halving search for
the first item beyond a bound.
-/

namespace Ranked

variable {α : Type*} {key : α → Nat}

def Ascending (key : α → Nat) (items : List α) : Prop :=
  items.Pairwise fun left right => key left ≤ key right

structure Sorting (key : α → Nat) where
  sort : List α → List α
  perm : ∀ items, (sort items).Perm items
  ascending : ∀ items, Ascending key (sort items)

instance totalByKey (key : α → Nat) : Std.Total fun left right : α => key left ≤ key right :=
  ⟨fun left right => Nat.le_total (key left) (key right)⟩

instance transByKey (key : α → Nat) : IsTrans α fun left right => key left ≤ key right :=
  ⟨fun _ _ _ => Nat.le_trans⟩

/-- Insertion keeps items with the same key in the order they came. -/
def insertion (key : α → Nat) : Sorting key where
  sort := List.insertionSort fun left right => key left ≤ key right
  perm := List.perm_insertionSort _
  ascending := List.pairwise_insertionSort _

variable {items : List α}

theorem mem_sort (sorting : Sorting key) {item : α} : item ∈ sorting.sort items ↔ item ∈ items :=
  (sorting.perm items).mem_iff

theorem Ascending.le_last (ascending : Ascending key items) {last : α}
    (ends : items.getLast? = some last) : ∀ item ∈ items, key item ≤ key last := by
  obtain ⟨before, rfl⟩ := List.getLast?_eq_some_iff.mp ends
  intro item present
  cases List.mem_append.mp present with
  | inl earlier =>
      exact (List.pairwise_append.mp ascending).2.2 item earlier last List.mem_cons_self
  | inr own =>
      rw [List.mem_singleton.mp own]

theorem exists_sorting_last [DecidableEq α] (key : α → Nat) {last : α} (present : last ∈ items)
    (largest : ∀ item ∈ items, key item ≤ key last) :
    ∃ sorting : Sorting key, (sorting.sort items).getLast? = some last := by
  let earlier := (insertion key).sort (items.erase last)
  have perm : (earlier ++ [last]).Perm items :=
    ((List.perm_append_singleton last earlier).trans
      (((insertion key).perm _).cons last)).trans (List.perm_cons_erase present).symm
  have ascending : Ascending key (earlier ++ [last]) := by
    refine List.pairwise_append.mpr
      ⟨(insertion key).ascending _, List.pairwise_singleton _ _, ?_⟩
    intro item held other own
    rw [List.mem_singleton.mp own]
    exact largest item (List.mem_of_mem_erase ((mem_sort _).mp held))
  refine ⟨⟨fun given => if given = items then earlier ++ [last] else (insertion key).sort given,
    fun given => ?_, fun given => ?_⟩, ?_⟩
  · split
    · next same =>
        rw [same]
        exact perm
    · exact (insertion key).perm given
  · split
    · exact ascending
    · exact (insertion key).ascending given
  · simp

def upperBoundFrom (key : α → Nat) (items : List α) (bound : Nat) : Nat → Nat → Nat → Nat
  | 0, first, _ => first
  | fuel + 1, first, length =>
      if length = 0 then first
      else
        let half := length / 2
        if (items[first + half]?).any fun item => bound < key item then
          upperBoundFrom key items bound fuel first half
        else upperBoundFrom key items bound fuel (first + half + 1) (length - half - 1)

/-- `std::upper_bound`. -/
def upperBound (key : α → Nat) (items : List α) (bound : Nat) : Nat :=
  upperBoundFrom key items bound items.length 0 items.length

theorem upperBoundFrom_eq (key : α → Nat) (bound : Nat) (low high : List α)
    (within : ∀ item ∈ low, key item ≤ bound) (beyond : ∀ item ∈ high, bound < key item)
    (fuel first length : Nat) (enough : length ≤ fuel) (before : first ≤ low.length)
    (after : low.length ≤ first + length) (fits : first + length ≤ (low ++ high).length) :
    upperBoundFrom key (low ++ high) bound fuel first length = low.length := by
  induction fuel generalizing first length with
  | zero =>
      rw [upperBoundFrom]
      omega
  | succ fuel ih =>
      rw [upperBoundFrom]
      split
      · omega
      · next some_ =>
          have half_lt : length / 2 < length := Nat.div_lt_self (by omega) (by omega)
          by_cases left : first + length / 2 < low.length
          · have item : (low ++ high)[first + length / 2]? = some low[first + length / 2] := by
              rw [List.getElem?_append_left left, List.getElem?_eq_getElem left]
            have small := within _ (List.getElem_mem left)
            simp only [item, Option.any_some, decide_eq_true_eq, if_neg (Nat.not_lt.mpr small)]
            exact ih _ _ (by omega) (by omega) (by omega) (by omega)
          · rw [List.length_append] at fits
            have right : first + length / 2 - low.length < high.length := by omega
            have item : (low ++ high)[first + length / 2]? =
                some high[first + length / 2 - low.length] := by
              rw [List.getElem?_append_right (by omega), List.getElem?_eq_getElem right]
            have large := beyond _ (List.getElem_mem right)
            simp only [item, Option.any_some, decide_eq_true_eq, if_pos large]
            refine ih _ _ (by omega) (by omega) (by omega) ?_
            rw [List.length_append]
            omega

theorem Ascending.split (ascending : Ascending key items) (bound : Nat) :
    items = (items.filter fun item => key item ≤ bound) ++
      (items.filter fun item => bound < key item) := by
  induction items with
  | nil => rfl
  | cons item rest ih =>
      obtain ⟨least, ascending'⟩ := List.pairwise_cons.mp ascending
      by_cases within : key item ≤ bound
      · simp only [List.filter_cons, decide_eq_true within, if_true,
          decide_eq_false (Nat.not_lt.mpr within), Bool.false_eq_true, if_false, List.cons_append]
        rw [← ih ascending']
      · have beyond : ∀ other ∈ item :: rest, bound < key other := by
          intro other present
          cases List.mem_cons.mp present with
          | inl own =>
              rw [own]
              omega
          | inr later =>
              have := least other later
              omega
        rw [List.filter_eq_nil_iff.mpr, List.filter_eq_self.mpr, List.nil_append]
        · intro other present
          exact decide_eq_true (beyond other present)
        · intro other present
          have := beyond other present
          rw [decide_eq_true_eq]
          omega

theorem Ascending.upperBound_eq (ascending : Ascending key items) (bound : Nat) :
    upperBound key items bound = (items.filter fun item => key item ≤ bound).length := by
  have search := upperBoundFrom_eq key bound (items.filter fun item => key item ≤ bound)
    (items.filter fun item => bound < key item)
    (fun item present => of_decide_eq_true (List.mem_filter.mp present).2)
    (fun item present => of_decide_eq_true (List.mem_filter.mp present).2)
    items.length 0 items.length le_rfl (Nat.zero_le _)
  rw [← ascending.split bound] at search
  refine search ?_ (Nat.le_of_eq (Nat.zero_add _))
  rw [Nat.zero_add]
  exact List.length_filter_le _ _

theorem Ascending.before_upperBound (ascending : Ascending key items) {bound : Nat} {item : α}
    (present : item ∈ items) (within : key item ≤ bound) :
    items[upperBound key items bound - 1]? =
      (items.filter fun item => key item ≤ bound).getLast? := by
  let low := items.filter fun item => key item ≤ bound
  let high := items.filter fun item => bound < key item
  have some_ : 0 < low.length :=
    List.length_pos_of_mem (List.mem_filter.mpr ⟨present, decide_eq_true within⟩)
  rw [ascending.upperBound_eq bound]
  calc items[low.length - 1]? = (low ++ high)[low.length - 1]? :=
        congrArg (fun given : List α => given[low.length - 1]?) (ascending.split bound)
    _ = low[low.length - 1]? := List.getElem?_append_left (by omega)
    _ = low.getLast? := List.getLast?_eq_getElem?.symm

end Ranked
