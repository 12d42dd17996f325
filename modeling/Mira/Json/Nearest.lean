import Mira.Json.Distinct

/-!
The nearest binary64 keeps the order of the rationals between zero and one, and stays between
them.
-/

namespace Mira

variable {q r : Rat}

theorem roundHalfEven_mono (le : q ≤ r) : roundHalfEven q ≤ roundHalfEven r := by
  by_contra less
  have near := abs_le.mp (roundHalfEven_near q)
  have near' := abs_le.mp (roundHalfEven_near r)
  have apart : (roundHalfEven r : Rat) + 1 ≤ roundHalfEven q := by
    exact_mod_cast Int.not_le.mp less
  have same : q = r := by linarith
  exact less (same ▸ le_refl _)

/-- The nearest multiple of the last place of a binary64 with 53 digits. -/
def nearest (q : Rat) : Rat :=
  roundHalfEven (q * 2 ^ (52 - logFloor 2 q)) * 2 ^ (logFloor 2 q - 52)

theorem scaled_bounds (positive : 0 < q) :
    (2 : Rat) ^ 52 ≤ q * 2 ^ (52 - logFloor 2 q) ∧ q * 2 ^ (52 - logFloor 2 q) < 2 ^ 53 := by
  obtain ⟨low, high⟩ := logFloor_bounds (by decide : 1 < 2) positive
  rw [Nat.cast_ofNat] at low high
  have two : (2 : Rat) ≠ 0 := by norm_num
  have scale : (0 : Rat) < 2 ^ (52 - logFloor 2 q) := zpow_pos (by norm_num) _
  constructor
  · have step := mul_le_mul_of_nonneg_right low scale.le
    rw [← zpow_add₀ two, add_sub_cancel] at step
    exact_mod_cast step
  · have step := mul_lt_mul_of_pos_right high scale
    have exponent : logFloor 2 q + 1 + (52 - logFloor 2 q) = (53 : Nat) := by
      push_cast
      ring
    rw [← zpow_add₀ two, exponent, zpow_natCast] at step
    exact step

theorem nearest_bounds (positive : 0 < q) :
    (2 : Rat) ^ logFloor 2 q ≤ nearest q ∧ nearest q ≤ 2 ^ (logFloor 2 q + 1) := by
  obtain ⟨low, high⟩ := scaled_bounds positive
  have two : (2 : Rat) ≠ 0 := by norm_num
  have unit : (0 : Rat) < 2 ^ (logFloor 2 q - 52) := zpow_pos (by norm_num) _
  have digits := @roundHalfEven_mono_int _ (2 ^ 52) (2 ^ 53)
    (by exact_mod_cast low) (by exact_mod_cast high.le)
  have under : (2 : Rat) ^ 52 ≤ roundHalfEven (q * 2 ^ (52 - logFloor 2 q)) := by
    exact_mod_cast digits.1
  have upper : (roundHalfEven (q * 2 ^ (52 - logFloor 2 q)) : Rat) ≤ 2 ^ 53 := by
    exact_mod_cast digits.2
  rw [nearest]
  constructor
  · have step := mul_le_mul_of_nonneg_right under unit.le
    rw [← zpow_natCast, ← zpow_add₀ two] at step
    refine le_of_eq_of_le ?_ step
    congr 1
    push_cast
    ring
  · have step := mul_le_mul_of_nonneg_right upper unit.le
    rw [← zpow_natCast, ← zpow_add₀ two] at step
    refine step.trans_eq ?_
    congr 1
    push_cast
    ring

theorem logFloor_mono (positive : 0 < q) (le : q ≤ r) : logFloor 2 q ≤ logFloor 2 r := by
  obtain ⟨low, _⟩ := logFloor_bounds (by decide : 1 < 2) positive
  obtain ⟨_, high⟩ := logFloor_bounds (by decide : 1 < 2) (positive.trans_le le)
  rw [Nat.cast_ofNat] at low high
  have powers : (2 : Rat) ^ logFloor 2 q < 2 ^ (logFloor 2 r + 1) :=
    (low.trans le).trans_lt high
  have exponents := (zpow_lt_zpow_iff_right₀ (by norm_num : (1 : Rat) < 2)).mp powers
  omega

theorem nearest_mono (positive : 0 < q) (le : q ≤ r) : nearest q ≤ nearest r := by
  have logs := logFloor_mono positive le
  rcases lt_or_eq_of_le logs with below | same
  · refine (nearest_bounds positive).2.trans ?_
    refine le_trans ?_ (nearest_bounds (positive.trans_le le)).1
    exact zpow_le_zpow_right₀ (by norm_num) (by omega)
  · rw [nearest, nearest, same]
    have scale : (0 : Rat) < 2 ^ (52 - logFloor 2 r) := zpow_pos (by norm_num) _
    refine mul_le_mul_of_nonneg_right ?_ (zpow_pos (by norm_num) _).le
    exact_mod_cast roundHalfEven_mono (mul_le_mul_of_nonneg_right le scale.le)

theorem nearest_one : nearest 1 = 1 := by decide +kernel

theorem nearest_unit (positive : 0 < q) (below : q ≤ 1) : 0 ≤ nearest q ∧ nearest q ≤ 1 := by
  refine ⟨?_, (nearest_mono positive below).trans_eq nearest_one⟩
  exact (zpow_pos (by norm_num : (0 : Rat) < 2) _).le.trans (nearest_bounds positive).1

/-- Where it is not subnormal, the reader's rounding takes the nearest one. -/
theorem roundBinary64_eq (normal : (2 : Rat) ^ (-1022 : Int) ≤ q) (below : q ≤ 1) :
    roundBinary64 q = some (nearest q) := by
  have positive : 0 < q := lt_of_lt_of_le (zpow_pos (by norm_num) _) normal
  have two : (2 : Rat) ≠ 0 := by norm_num
  have high := (logFloor_bounds (by decide : 1 < 2) positive).2
  rw [Nat.cast_ofNat] at high
  have exponents := (zpow_lt_zpow_iff_right₀ (by norm_num : (1 : Rat) < 2)).mp
    (normal.trans_lt high)
  have exponent : max (logFloor 2 q - 52) (-1074) = logFloor 2 q - 52 := max_eq_left (by omega)
  have scaled : q / powRat 2 (logFloor 2 q - 52) = q * 2 ^ (52 - logFloor 2 q) := by
    rw [powRat_eq, Nat.cast_ofNat, div_eq_mul_inv, ← zpow_neg, neg_sub]
  have digits := @roundHalfEven_mono_int _ (2 ^ 52) (2 ^ 53)
    (by exact_mod_cast (scaled_bounds positive).1)
    (by exact_mod_cast (scaled_bounds positive).2.le)
  have rounded : (roundHalfEven (q * 2 ^ (52 - logFloor 2 q)) : Rat) *
      powRat 2 (logFloor 2 q - 52) = nearest q := by
    rw [powRat_eq, Nat.cast_ofNat, nearest]
  have small : ¬powRat 2 1024 ≤ nearest q := by
    rw [powRat_eq, Nat.cast_ofNat, not_le]
    refine (nearest_unit positive below).2.trans_lt ?_
    exact one_lt_zpow₀ (by norm_num) (by norm_num)
  rw [roundBinary64]
  simp only [exponent, scaled, rounded]
  rw [if_neg small, if_neg fun subnormal => not_lt.mpr digits.1 subnormal.1]

end Mira
