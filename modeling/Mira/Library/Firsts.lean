import Mathlib.Data.List.Nodup

/-!
The keys of a list, each where it comes first.
-/

namespace Firsts

variable {κ : Type*} [DecidableEq κ]

def firsts : List κ → List κ → List κ
  | _, [] => []
  | seen, key :: rest => if key ∈ seen then firsts seen rest else key :: firsts (seen ++ [key]) rest

theorem firsts_nodup (seen keys : List κ) :
    (firsts seen keys).Nodup ∧ ∀ key ∈ firsts seen keys, key ∉ seen := by
  induction keys generalizing seen with
  | nil => exact ⟨List.nodup_nil, fun key never => by cases never⟩
  | cons key rest ih =>
      rw [firsts]
      split
      · exact ih seen
      · next fresh =>
          obtain ⟨nodup, apart⟩ := ih (seen ++ [key])
          refine ⟨List.nodup_cons.mpr ⟨fun again => ?_, nodup⟩, fun other present => ?_⟩
          · exact apart key again (List.mem_append_right _ (List.mem_singleton.mpr rfl))
          · cases present with
            | head => exact fresh
            | tail _ later =>
                exact fun old => apart other later (List.mem_append_left _ old)

end Firsts
