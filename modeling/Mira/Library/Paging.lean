import Mathlib.Data.List.Basic

/-!
Paged scans. A scan fetches a page, visits its items in order and fetches the next
one until a page says that nothing follows. Over a source that serves what is left
in pages it is one pass over the whole list, whatever the sizes of the pages; over
an arbitrary source it ends as soon as the visits are bounded.
-/

namespace Paging

variable {σ α ε : Type*}

/-- Visits the items in order up to the first error. -/
def visitAll (visit : σ → α → Except ε σ) : σ → List α → Except ε σ
  | s, [] => .ok s
  | s, item :: rest =>
      match visit s item with
      | .error reason => .error reason
      | .ok next => visitAll visit next rest

/-- The loop over pages; `none` stands for rounds that ran out. -/
def scan (fetch : σ → Except ε (List α × Bool)) (visit : σ → α → Except ε σ)
    (again : σ → Except ε Unit) : Nat → σ → Option (Except ε σ)
  | 0, _ => none
  | rounds + 1, s =>
      match fetch s with
      | .error reason => some (.error reason)
      | .ok (items, more) =>
          match visitAll visit s items with
          | .error reason => some (.error reason)
          | .ok next =>
              if more then
                match again next with
                | .error reason => some (.error reason)
                | .ok () => scan fetch visit again rounds next
              else some (.ok next)

variable {fetch : σ → Except ε (List α × Bool)} {visit : σ → α → Except ε σ}
  {again : σ → Except ε Unit}

theorem visitAll_append (visit : σ → α → Except ε σ) (s : σ) (xs ys : List α) :
    visitAll visit s (xs ++ ys) =
      match visitAll visit s xs with
      | .error reason => .error reason
      | .ok next => visitAll visit next ys := by
  induction xs generalizing s with
  | nil => rfl
  | cons x xs ih =>
      simp only [List.cons_append, visitAll]
      cases visit s x with
      | error reason => rfl
      | ok next => exact ih next

theorem visitAll_succeeds (inv : σ → Prop) (items : List α)
    (each : ∀ item ∈ items, ∀ s, inv s → ∃ next, visit s item = .ok next ∧ inv next)
    (s : σ) (start : inv s) : ∃ next, visitAll visit s items = .ok next ∧ inv next := by
  induction items generalizing s with
  | nil => exact ⟨s, rfl, start⟩
  | cons item rest ih =>
      obtain ⟨own, others⟩ := List.forall_mem_cons.mp each
      obtain ⟨middle, visited, kept⟩ := own s start
      simp only [visitAll, visited]
      exact ih others middle kept

theorem visitAll_invariant (inv : σ → Prop) (good : α → Prop)
    (preserved : ∀ s item next, inv s → good item → visit s item = .ok next → inv next)
    (s : σ) (items : List α) (start : inv s) (all : ∀ item ∈ items, good item) (next : σ)
    (visited : visitAll visit s items = .ok next) : inv next := by
  induction items generalizing s with
  | nil =>
      cases visited
      exact start
  | cons item rest ih =>
      obtain ⟨own_good, rest_good⟩ := List.forall_mem_cons.mp all
      simp only [visitAll] at visited
      split at visited
      · cases visited
      · next middle own =>
          exact ih middle (preserved s item middle start own_good own) rest_good visited

theorem scan_invariant (inv : σ → Prop) (good : α → Prop)
    (served : ∀ s items more, fetch s = .ok (items, more) → ∀ item ∈ items, good item)
    (preserved : ∀ s item next, inv s → good item → visit s item = .ok next → inv next)
    (rounds : Nat) (s : σ) (start : inv s) (final : σ)
    (scanned : scan fetch visit again rounds s = some (.ok final)) : inv final := by
  induction rounds generalizing s with
  | zero => cases scanned
  | succ rounds ih =>
      simp only [scan] at scanned
      split at scanned
      · cases scanned
      · next items more fetched =>
          split at scanned
          · cases scanned
          · next next visited =>
              have kept := visitAll_invariant inv good preserved s items start
                (served s items more fetched) next visited
              split at scanned
              · split at scanned
                · cases scanned
                · exact ih next kept scanned
              · cases scanned
                exact kept

theorem scan_ends_of_left (left : σ → Nat)
    (progress : ∀ s items next, fetch s = .ok (items, true) → visitAll visit s items = .ok next →
      left next < left s)
    (rounds : Nat) (s : σ) (enough : left s < rounds) :
    scan fetch visit again rounds s ≠ none := by
  induction rounds generalizing s with
  | zero => omega
  | succ rounds ih =>
      simp only [scan]
      split
      · nofun
      · next items more fetched =>
          split
          · nofun
          · next next visited =>
              split
              · next behind =>
                  rw [behind] at fetched
                  have less := progress s items next fetched visited
                  split
                  · nofun
                  · exact ih next (by omega)
              · nofun

variable (visits : σ → Nat)

theorem visitAll_count
    (counted : ∀ s item next, visit s item = .ok next → visits next = visits s + 1) (s : σ)
    (items : List α) (next : σ) (visited : visitAll visit s items = .ok next) :
    visits next = visits s + items.length := by
  induction items generalizing s with
  | nil =>
      cases visited
      rfl
  | cons item rest ih =>
      simp only [visitAll] at visited
      split at visited
      · cases visited
      · next middle own =>
          rw [ih middle visited, counted s item middle own, List.length_cons]
          omega

/-- A scan ends when every page with more behind it holds an item and no page holds more than what
is left of the bound on the visits. -/
theorem scan_ends (bound : Nat)
    (counted : ∀ s item next, visit s item = .ok next → visits next = visits s + 1)
    (served : ∀ s items more, fetch s = .ok (items, more) →
      items.length ≤ bound - visits s ∧ (more = true → items ≠ []))
    (rounds : Nat) (s : σ) (enough : bound - visits s < rounds) :
    scan fetch visit again rounds s ≠ none := by
  refine scan_ends_of_left (fun s => bound - visits s) ?_ rounds s enough
  intro s items next fetched visited
  have count := visitAll_count visits counted s items next visited
  obtain ⟨room, some_⟩ := served s items true fetched
  have present := List.length_pos_iff.mpr (some_ rfl)
  omega

/-- A source that serves what is left in pages of at least one item is scanned in one
pass. -/
theorem scan_eq (inv : σ → Prop) (rest : σ → List α) (limit : σ → Nat)
    (served : ∀ s, inv s → fetch s = .ok ((rest s).take (limit s), limit s < (rest s).length))
    (room : ∀ s, inv s → rest s ≠ [] → 0 < limit s)
    (visited : ∀ s item items next, inv s → rest s = item :: items → visit s item = .ok next →
      inv next ∧ rest next = items)
    (onward : ∀ s, inv s → rest s ≠ [] → again s = .ok ())
    (rounds : Nat) (s : σ) (start : inv s) (enough : (rest s).length < rounds) :
    scan fetch visit again rounds s = some (visitAll visit s (rest s)) := by
  have left (items behind : List α) (s next : σ) (start : inv s) (split : rest s = items ++ behind)
      (all : visitAll visit s items = .ok next) : inv next ∧ rest next = behind := by
    induction items generalizing s with
    | nil =>
        cases all
        exact ⟨start, split⟩
    | cons item items ih =>
        simp only [visitAll] at all
        split at all
        · cases all
        · next middle own =>
            obtain ⟨kept, shorter⟩ := visited s item _ middle start split own
            exact ih middle kept shorter all
  induction rounds generalizing s with
  | zero => omega
  | succ rounds ih =>
      have whole := visitAll_append visit s ((rest s).take (limit s))
        ((rest s).drop (limit s))
      rw [List.take_append_drop] at whole
      simp only [scan, served s start, decide_eq_true_eq]
      rw [whole]
      cases page : visitAll visit s ((rest s).take (limit s)) with
      | error reason => rfl
      | ok next =>
          obtain ⟨kept, behind⟩ := left _ _ s next start (List.take_append_drop _ _).symm page
          simp only
          split
          · next more =>
              have nonempty : rest next ≠ [] := by
                rw [behind]
                intro empty
                have := congrArg List.length empty
                rw [List.length_drop, List.length_nil] at this
                omega
              have some_ : rest s ≠ [] := by
                intro empty
                rw [empty, List.length_nil] at more
                omega
              rw [onward next kept nonempty]
              simp only
              rw [ih next kept, behind]
              rw [behind, List.length_drop]
              have := room s start some_
              omega
          · next last =>
              rw [List.drop_eq_nil_of_le (by omega)]
              rfl

end Paging
