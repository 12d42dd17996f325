import Mathlib.Data.List.Sort
import Mathlib.Order.Basic

/-!
Repeated extraction of the least item. A table that is over its capacity gives up its first
least item until it fits. Under an order that separates the items of the table, what is given
up and in which order does not depend on how the table lists them: the victims are the first
items of the sorted table.
-/

namespace Eviction

section
variable {α : Type*} (before : α → α → Bool)

/-- The first least item among a candidate and a list, and the others in their order. -/
def leastFrom (best : α) : List α → α × List α
  | [] => (best, [])
  | item :: rest =>
      if before item best then ((leastFrom item rest).1, best :: (leastFrom item rest).2)
      else ((leastFrom best rest).1, item :: (leastFrom best rest).2)

def evictLeast : List α → Option (α × List α)
  | [] => none
  | first :: rest => some (leastFrom before first rest)

/-- So many evictions: the victims in their order, and the items that are left. -/
def evict : Nat → List α → List α × List α
  | 0, items => ([], items)
  | count + 1, items =>
      match evictLeast before items with
      | none => ([], [])
      | some (victim, left) => (victim :: (evict count left).1, (evict count left).2)

def evictionOrder (items : List α) : List α := (evict before items.length items).1

theorem leastFrom_perm (best : α) (items : List α) :
    ((leastFrom before best items).1 :: (leastFrom before best items).2).Perm (best :: items) := by
  induction items generalizing best with
  | nil => exact .refl _
  | cons item rest ih =>
      rw [leastFrom]
      split
      · exact (List.Perm.swap best _ _).trans ((ih item).cons best)
      · exact ((List.Perm.swap item _ _).trans ((ih best).cons item)).trans
          (List.Perm.swap best item rest)

theorem evictLeast_perm {items left : List α} {victim : α}
    (taken : evictLeast before items = some (victim, left)) : (victim :: left).Perm items := by
  cases items with
  | nil => cases taken
  | cons first rest =>
      have found : leastFrom before first rest = (victim, left) := Option.some.inj taken
      have same := leastFrom_perm before first rest
      rw [found] at same
      exact same

theorem evictLeast_some {items : List α} (present : items ≠ []) :
    ∃ victim left, evictLeast before items = some (victim, left) := by
  cases items with
  | nil => exact absurd rfl present
  | cons first rest => exact ⟨_, _, rfl⟩

theorem evict_perm (count : Nat) (items : List α) :
    ((evict before count items).1 ++ (evict before count items).2).Perm items := by
  induction count generalizing items with
  | zero => exact .refl _
  | succ count ih =>
      rw [evict]
      cases taken : evictLeast before items with
      | none =>
          cases items with
          | nil => exact .refl _
          | cons => cases taken
      | some found =>
          exact ((ih found.2).cons found.1).trans (evictLeast_perm before taken)

theorem evict_length (count : Nat) (items : List α) :
    (evict before count items).1.length = min count items.length := by
  induction count generalizing items with
  | zero => rw [evict, Nat.zero_min]; rfl
  | succ count ih =>
      rw [evict]
      cases taken : evictLeast before items with
      | none =>
          cases items with
          | nil => rfl
          | cons => cases taken
      | some found =>
          have lengths := (evictLeast_perm before taken).length_eq
          rw [List.length_cons] at lengths
          simp only [List.length_cons, ih found.2]
          omega

theorem evictionOrder_perm (items : List α) : (evictionOrder before items).Perm items := by
  have parts := evict_perm before items.length items
  have lengths := parts.length_eq
  have taken := evict_length before items.length items
  rw [List.length_append] at lengths
  have empty : (evict before items.length items).2 = [] := List.eq_nil_of_length_eq_zero (by omega)
  rw [empty, List.append_nil] at parts
  exact parts

end

section
variable {α κ : Type*} {key : α → κ}

/-- No two items of the table have the same key. -/
def Separated (key : α → κ) (items : List α) : Prop := (items.map key).Nodup

variable {items items' : List α}

theorem Separated.perm (separated : Separated key items) (same : items'.Perm items) :
    Separated key items' :=
  (same.map key).nodup_iff.mpr separated

theorem Separated.eq (separated : Separated key items) {first second : α} (held : first ∈ items)
    (held' : second ∈ items) (same : key first = key second) : first = second :=
  List.inj_on_of_nodup_map separated held held' same

theorem ascending_unique [LinearOrder κ] (same : items.Perm items')
    (separated : Separated key items)
    (ascends : items.Pairwise fun first second => key first ≤ key second)
    (ascends' : items'.Pairwise fun first second => key first ≤ key second) : items = items' := by
  have keys : items.map key = items'.map key :=
    (same.map key).eq_of_pairwise' (List.pairwise_map.mpr ascends) (List.pairwise_map.mpr ascends')
  have lengths := same.length_eq
  apply List.ext_getElem lengths
  intro position low low'
  have here := congrArg (fun list => list[position]?) keys
  simp only [List.getElem?_map, List.getElem?_eq_getElem low, List.getElem?_eq_getElem low',
    Option.map_some, Option.some.injEq] at here
  exact separated.eq (List.getElem_mem low) (same.mem_iff.mpr (List.getElem_mem low')) here

variable [LinearOrder κ] {before : α → α → Bool}

/-- The comparison is the order of the keys. -/
def Ranks (before : α → α → Bool) (key : α → κ) : Prop :=
  ∀ first second, before first second = true ↔ key first < key second

variable (ranks : Ranks before key)
include ranks

theorem leastFrom_least (best : α) (items : List α) :
    key (leastFrom before best items).1 ≤ key best ∧
      ∀ item ∈ items, key (leastFrom before best items).1 ≤ key item := by
  induction items generalizing best with
  | nil => exact ⟨le_refl _, fun _ absent => absurd absent List.not_mem_nil⟩
  | cons item rest ih =>
      rw [leastFrom]
      split
      · next less =>
          obtain ⟨low, others⟩ := ih item
          exact ⟨low.trans (le_of_lt ((ranks item best).mp less)),
            List.forall_mem_cons.mpr ⟨low, others⟩⟩
      · next notLess =>
          obtain ⟨low, others⟩ := ih best
          have above : key best ≤ key item :=
            not_lt.mp fun less => notLess ((ranks item best).mpr less)
          exact ⟨low, List.forall_mem_cons.mpr ⟨low.trans above, others⟩⟩

variable {left : List α}

theorem evictLeast_least {victim : α} (taken : evictLeast before items = some (victim, left)) :
    ∀ item ∈ items, key victim ≤ key item := by
  cases items with
  | nil => cases taken
  | cons first rest =>
      have found : leastFrom before first rest = (victim, left) := Option.some.inj taken
      have least := leastFrom_least ranks first rest
      rw [found] at least
      exact List.forall_mem_cons.mpr least

theorem evict_ascends (count : Nat) (items : List α) :
    (evict before count items).1.Pairwise (fun first second => key first ≤ key second) ∧
      ∀ victim ∈ (evict before count items).1, ∀ item ∈ (evict before count items).2,
        key victim ≤ key item := by
  induction count generalizing items with
  | zero => exact ⟨.nil, fun _ absent => absurd absent List.not_mem_nil⟩
  | succ count ih =>
      rw [evict]
      cases taken : evictLeast before items with
      | none => exact ⟨.nil, fun _ absent => absurd absent List.not_mem_nil⟩
      | some found =>
          obtain ⟨ascends, below⟩ := ih found.2
          have least := evictLeast_least ranks taken
          have whole := evict_perm before count found.2
          have inside : ∀ item ∈ (evict before count found.2).1 ++ (evict before count found.2).2,
              key found.1 ≤ key item := by
            intro item held
            exact least item ((evictLeast_perm before taken).mem_iff.mp
              (List.mem_cons_of_mem _ (whole.mem_iff.mp held)))
          refine ⟨.cons (fun item held => inside item (List.mem_append_left _ held)) ascends, ?_⟩
          intro victim held item left
          rcases List.mem_cons.mp held with rfl | held
          · exact inside item (List.mem_append_right _ left)
          · exact below victim held item left

theorem evictionOrder_ascends (items : List α) :
    (evictionOrder before items).Pairwise fun first second => key first ≤ key second :=
  (evict_ascends ranks items.length items).1

theorem evictionOrder_split {gone : List α} (parts : (gone ++ left).Perm items)
    (separated : Separated key items)
    (below : ∀ victim ∈ gone, ∀ item ∈ left, key victim ≤ key item) :
    gone.Perm ((evictionOrder before items).take gone.length) ∧
      left.Perm ((evictionOrder before items).drop gone.length) := by
  have whole : (evictionOrder before gone ++ evictionOrder before left).Perm
      (evictionOrder before items) :=
    (((evictionOrder_perm before gone).append (evictionOrder_perm before left)).trans parts).trans
      (evictionOrder_perm before items).symm
  have ascends : (evictionOrder before gone ++ evictionOrder before left).Pairwise
      fun first second => key first ≤ key second := by
    refine List.pairwise_append.mpr ⟨evictionOrder_ascends ranks gone,
      evictionOrder_ascends ranks left, ?_⟩
    intro victim held item kept
    exact below victim ((evictionOrder_perm before gone).mem_iff.mp held) item
      ((evictionOrder_perm before left).mem_iff.mp kept)
  have equal := ascending_unique whole
    (separated.perm (whole.trans (evictionOrder_perm before items))) ascends
    (evictionOrder_ascends ranks items)
  have length := (evictionOrder_perm before gone).length_eq
  rw [← equal, ← length, List.take_left, List.drop_left]
  exact ⟨(evictionOrder_perm before gone).symm, (evictionOrder_perm before left).symm⟩

end

end Eviction
