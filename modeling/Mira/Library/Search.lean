import Mathlib.Logic.Relation
import Mathlib.Data.List.Basic

/-!
Depth-first reachability over a finite list of candidates, with an explicit
stack and a visited set. The search is given fuel; a search that finds its
target has a path to it.
-/

namespace Search

variable {α : Type*} [DecidableEq α]

/-- One expansion: either the target is a neighbour, or the unvisited neighbours
are marked and pushed. -/
def expand (edge : α → α → Bool) (target current : α) :
    List α → List α → List α → Option (List α × List α)
  | [], visited, stack => some (visited, stack)
  | candidate :: rest, visited, stack =>
      if candidate ∈ visited ∨ edge current candidate = false then
        expand edge target current rest visited stack
      else if candidate = target then none
      else expand edge target current rest (candidate :: visited) (candidate :: stack)

/-- The loop; `none` is returned only when the fuel runs out. -/
def explore (edge : α → α → Bool) (candidates : List α) (target : α) :
    Nat → List α → List α → Option Bool
  | 0, _, _ => none
  | _ + 1, _, [] => some false
  | fuel + 1, visited, current :: stack =>
      match expand edge target current candidates visited stack with
      | none => some true
      | some (visited', stack') => explore edge candidates target fuel visited' stack'

variable (edge : α → α → Bool)

abbrev Path : α → α → Prop := Relation.ReflTransGen fun a b => edge a b = true

theorem expand_found (target current : α) (candidates visited stack : List α)
    (found : expand edge target current candidates visited stack = none) :
    edge current target = true := by
  induction candidates generalizing visited stack with
  | nil => simp [expand] at found
  | cons candidate rest ih =>
      unfold expand at found
      split at found
      · exact ih _ _ found
      · next open_ =>
          split at found
          · next same =>
              rw [not_or, Bool.not_eq_false] at open_
              exact same ▸ open_.2
          · exact ih _ _ found

theorem expand_stack (source target current : α) (candidates : List α)
    (reached : Path edge source current) :
    ∀ visited stack visited' stack',
      expand edge target current candidates visited stack = some (visited', stack') →
      (∀ x ∈ stack, Path edge source x) → ∀ x ∈ stack', Path edge source x := by
  induction candidates with
  | nil =>
      intro visited stack visited' stack' h hs
      simp only [expand, Option.some.injEq, Prod.mk.injEq] at h
      rw [← h.2]
      exact hs
  | cons candidate rest ih =>
      intro visited stack visited' stack' h hs
      unfold expand at h
      split at h
      · exact ih _ _ _ _ h hs
      · next open_ =>
          rw [not_or, Bool.not_eq_false] at open_
          split at h
          · contradiction
          · apply ih _ _ _ _ h
            intro x hx
            rcases List.mem_cons.mp hx with same | older
            · exact same ▸ reached.tail open_.2
            · exact hs x older

theorem explore_sound (source target : α) (candidates : List α) (fuel : Nat)
    (visited stack : List α) (hs : ∀ x ∈ stack, Path edge source x)
    (found : explore edge candidates target fuel visited stack = some true) :
    Path edge source target := by
  induction fuel generalizing visited stack with
  | zero => simp [explore] at found
  | succ fuel ih =>
      cases stack with
      | nil => simp [explore] at found
      | cons current stack =>
          have reached := hs current (by simp)
          have older : ∀ x ∈ stack, Path edge source x := fun x hx => hs x (by simp [hx])
          unfold explore at found
          split at found
          · next h => exact reached.tail (expand_found edge target current _ _ _ h)
          · next visited' stack' h =>
              exact ih visited' stack'
                (expand_stack edge source target current candidates reached _ _ _ _ h older)
                found

end Search
