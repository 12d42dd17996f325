import Mathlib.Data.List.Forall2

/-!
Computations that may fail, one after another: what the success of the whole says of its parts.
-/

namespace Checked

universe u v
variable {ε : Type u} {α β : Type v}

variable {check : Except ε α} {rest : α → Except ε β}

theorem ok_of_bind {value : β} (passed : (check >>= rest) = .ok value) :
    ∃ found, check = .ok found ∧ rest found = .ok value := by
  cases found : check with
  | error reason =>
      rw [found] at passed
      cases passed
  | ok found' =>
      rw [found] at passed
      exact ⟨found', rfl, passed⟩

theorem ok_of_map {f : α → β} {value : β} (passed : check.map f = .ok value) :
    ∃ found, check = .ok found ∧ f found = value := by
  cases found : check with
  | error reason =>
      rw [found] at passed
      cases passed
  | ok found' =>
      rw [found] at passed
      exact ⟨found', rfl, Except.ok.inj passed⟩

theorem bind_ok_iff {value : β} :
    (check >>= rest) = .ok value ↔ ∃ found, check = .ok found ∧ rest found = .ok value := by
  refine ⟨ok_of_bind, ?_⟩
  rintro ⟨found, passed, later⟩
  rw [passed]
  exact later

theorem ok_of_forM {ε : Type} {α : Type v} {check : α → Except ε PUnit} {items : List α}
    (passed : items.forM check = .ok ()) : ∀ item ∈ items, check item = .ok () := by
  induction items with
  | nil => exact fun _ absent => (List.not_mem_nil absent).elim
  | cons first rest ih =>
      rw [List.forM] at passed
      obtain ⟨_, own, later⟩ := ok_of_bind passed
      intro item among
      cases among with
      | head => exact own
      | tail _ among => exact ih later item among

theorem forM_ok_iff {ε : Type} {α : Type v} {check : α → Except ε PUnit} {items : List α} :
    items.forM check = .ok () ↔ ∀ item ∈ items, check item = .ok () := by
  refine ⟨ok_of_forM, ?_⟩
  intro all
  induction items with
  | nil => rfl
  | cons first rest ih =>
      rw [List.forM, all first List.mem_cons_self]
      exact ih fun item among => all item (List.mem_cons_of_mem _ among)

variable {f : α → Except ε β} {items : List α} {results : List β}

theorem exists_of_forall₂ {α' β' : Type*} {made : α' → β' → Prop} {items : List α'}
    {results : List β'} (beside : List.Forall₂ made items results) {result : β'}
    (among : result ∈ results) : ∃ item ∈ items, made item result := by
  induction beside with
  | nil => exact (List.not_mem_nil among).elim
  | cons own _ ih =>
      cases among with
      | head => exact ⟨_, List.mem_cons_self, own⟩
      | tail _ later =>
          obtain ⟨item, held, same⟩ := ih later
          exact ⟨item, List.mem_cons_of_mem _ held, same⟩

theorem ok_of_toOption {γ : Type v} {done : Except ε α} {f : α → γ} {seen : γ}
    (same : done.toOption.map f = some seen) : ∃ value, done = .ok value ∧ f value = seen := by
  cases done with
  | error reason => cases same
  | ok value => exact ⟨value, rfl, Option.some.inj same⟩

end Checked
