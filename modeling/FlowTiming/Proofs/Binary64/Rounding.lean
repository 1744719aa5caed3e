import FlowTiming.Binary64.Magnitude
import Mathlib.Algebra.Order.Field.Power
import Mathlib.Algebra.Order.Floor.Ring
import Mathlib.Data.Rat.Floor
import Mathlib.Tactic.Linarith
import Mathlib.Tactic.NormNum

/-!
Rounding to the nearest magnitude keeps the order of numbers (`value_nearest_le`), so that sums and
products of magnitudes grow with what they are made of.
-/

namespace FlowTiming

/-! ### Nearest integers -/

theorem roundHalfEven_bounds (x : ℚ) : x ≤ roundHalfEven x + 1 / 2 ∧ (roundHalfEven x : ℚ) ≤ x + 1 / 2 := by
  have hle : (x.floor : ℚ) ≤ x := Int.floor_le x
  have hlt : x < x.floor + 1 := Int.lt_floor_add_one x
  unfold roundHalfEven
  split
  case isTrue hlow => exact ⟨by linarith, by linarith⟩
  case isFalse hlow =>
    split
    case isTrue hhigh => push_cast; exact ⟨by linarith, by linarith⟩
    case isFalse hhigh =>
      have hhalf : x = x.floor + 1 / 2 := by linarith
      rcases Int.emod_two_eq_zero_or_one x.floor with h | h <;> rw [h] <;> push_cast <;>
        exact ⟨by linarith, by linarith⟩

/-- Numbers whose nearest integers are in the wrong order are less than the two halves of a unit apart,
so they are the same. -/
theorem roundHalfEven_le {x y : ℚ} (h : x ≤ y) : roundHalfEven x ≤ roundHalfEven y := by
  by_contra hlt
  have hstep : (roundHalfEven y : ℚ) + 1 ≤ roundHalfEven x := by exact_mod_cast not_le.mp hlt
  have hx := (roundHalfEven_bounds x).2
  have hy := (roundHalfEven_bounds y).1
  have heq : x = y := by linarith
  exact hlt (heq ▸ le_rfl)

theorem le_roundHalfEven {x : ℚ} {k : ℤ} (h : (k : ℚ) ≤ x) : k ≤ roundHalfEven x := by
  have hx := (roundHalfEven_bounds x).1
  have hlt : (k : ℚ) < roundHalfEven x + 1 := by linarith
  exact Int.lt_add_one_iff.mp (by exact_mod_cast hlt)

theorem roundHalfEven_le_of_le {x : ℚ} {k : ℤ} (h : x ≤ k) : roundHalfEven x ≤ k := by
  have hx := (roundHalfEven_bounds x).2
  have hlt : (roundHalfEven x : ℚ) < k + 1 := by linarith
  exact Int.lt_add_one_iff.mp (by exact_mod_cast hlt)

/-! ### Binades -/

theorem pow_log2_le {n : ℕ} (hn : n ≠ 0) : (2 : ℚ) ^ (n.log2 : ℤ) ≤ n := by
  rw [zpow_natCast]
  exact_mod_cast Nat.log2_self_le hn

theorem lt_pow_log2_succ (n : ℕ) : (n : ℚ) < 2 ^ ((n.log2 : ℤ) + 1) := by
  exact_mod_cast Nat.lt_log2_self (n := n)

theorem floorLog2_bounds {x : ℚ} (hx : 0 < x) :
    (2 : ℚ) ^ floorLog2 x ≤ x ∧ x < (2 : ℚ) ^ (floorLog2 x + 1) := by
  have hnum : x.num.toNat ≠ 0 := by
    have h := Rat.num_pos.mpr hx
    omega
  have hquot : (x.num.toNat : ℚ) / x.den = x := by
    have hcast : (x.num.toNat : ℤ) = x.num := Int.toNat_of_nonneg (Rat.num_pos.mpr hx).le
    rw [← Int.cast_natCast, hcast, Rat.num_div_den]
  have hden : (0 : ℚ) < x.den := Nat.cast_pos.mpr x.den_pos
  have hpow (k : ℤ) : (0 : ℚ) < 2 ^ k := zpow_pos two_pos k
  -- the quotient lies between the quotients of the powers of two around its parts
  have hlow : (2 : ℚ) ^ ((x.num.toNat.log2 : ℤ) - x.den.log2 - 1) ≤ x :=
    calc (2 : ℚ) ^ ((x.num.toNat.log2 : ℤ) - x.den.log2 - 1)
      _ = 2 ^ (x.num.toNat.log2 : ℤ) / 2 ^ ((x.den.log2 : ℤ) + 1) := by rw [sub_sub, zpow_sub₀ two_ne_zero]
      _ ≤ x.num.toNat / x.den :=
        div_le_div₀ (Nat.cast_nonneg _) (pow_log2_le hnum) hden (lt_pow_log2_succ x.den).le
      _ = x := hquot
  have hhigh : x < (2 : ℚ) ^ ((x.num.toNat.log2 : ℤ) - x.den.log2 + 1) :=
    calc x
      _ = x.num.toNat / x.den := hquot.symm
      _ < 2 ^ ((x.num.toNat.log2 : ℤ) + 1) / 2 ^ (x.den.log2 : ℤ) :=
        div_lt_div₀ (lt_pow_log2_succ _) (pow_log2_le x.den_ne_zero) (hpow _).le (hpow _)
      _ = 2 ^ ((x.num.toNat.log2 : ℤ) - x.den.log2 + 1) := by
        rw [sub_add_eq_add_sub, zpow_sub₀ two_ne_zero]
  unfold floorLog2
  simp only
  split
  case isTrue hle => exact ⟨hle, hhigh⟩
  case isFalse hlt =>
    rw [sub_add_cancel]
    exact ⟨hlow, not_le.mp hlt⟩

theorem floorLog2_le {x y : ℚ} (hx : 0 < x) (h : x ≤ y) : floorLog2 x ≤ floorLog2 y := by
  have hlt : (2 : ℚ) ^ floorLog2 x < 2 ^ (floorLog2 y + 1) :=
    ((floorLog2_bounds hx).1.trans h).trans_lt (floorLog2_bounds (hx.trans_le h)).2
  exact Int.lt_add_one_iff.mp ((zpow_lt_zpow_iff_right₀ one_lt_two).mp hlt)

/-! ### Nearest magnitudes -/

namespace Magnitude

theorem two_zpow_succ (k : ℤ) : (2 : ℚ) ^ (k + 1) = 2 * 2 ^ k := by
  rw [zpow_add_one₀ two_ne_zero, mul_comm]

theorem valueAt_of_lt {place : ℕ} (h : place < binade) : valueAt place = place * (2 : ℚ) ^ (-1074 : ℤ) := by
  rw [valueAt, significandAt, exponentAt, if_pos h, if_pos h]

theorem valueAt_add {above place : ℕ} (h : place < binade) :
    valueAt ((above + 1) * binade + place) = ((binade + place : ℕ) : ℚ) * (2 : ℚ) ^ ((above : ℤ) - 1074) := by
  have hge : ¬ (above + 1) * binade + place < binade := by
    rw [Nat.succ_mul]
    omega
  have hdiv : ((above + 1) * binade + place) / binade = above + 1 := by
    rw [Nat.mul_comm, Nat.mul_add_div (by decide), Nat.div_eq_of_lt h, Nat.add_zero]
  have hmod : ((above + 1) * binade + place) % binade = place := by
    rw [Nat.mul_comm, Nat.mul_add_mod, Nat.mod_eq_of_lt h]
  rw [valueAt, significandAt, exponentAt, if_neg hge, if_neg hge, hdiv, hmod]
  congr 2
  omega

theorem valueAt_nonneg (place : ℕ) : 0 ≤ valueAt place :=
  mul_nonneg (Nat.cast_nonneg _) (zpow_pos two_pos _).le

theorem valueAt_le_succ (place : ℕ) : valueAt place ≤ valueAt (place + 1) := by
  rcases Nat.lt_or_ge place binade with hlow | hhigh
  · rcases Nat.lt_or_ge (place + 1) binade with hnext | hnext
    · rw [valueAt_of_lt hlow, valueAt_of_lt hnext]
      gcongr
      omega
    · have hlast : place + 1 = (0 + 1) * binade + 0 := by omega
      have hexp : ((0 : ℕ) : ℤ) - 1074 = -1074 := rfl
      rw [valueAt_of_lt hlow, hlast, valueAt_add (by decide), hexp]
      gcongr
      omega
  · obtain ⟨above, r, hr, rfl⟩ : ∃ above r, r < binade ∧ place = (above + 1) * binade + r := by
      refine ⟨place / binade - 1, place % binade, Nat.mod_lt _ (by decide), ?_⟩
      rw [Nat.sub_add_cancel ((Nat.one_le_div_iff (by decide)).mpr hhigh), Nat.div_add_mod']
    rcases Nat.lt_or_ge (r + 1) binade with hnext | hnext
    · rw [valueAt_add hr, Nat.add_assoc, valueAt_add hnext]
      gcongr
      omega
    · have hlast : (above + 1) * binade + r + 1 = (above + 1 + 1) * binade + 0 := by
        rw [Nat.succ_mul (above + 1)]
        omega
      have hexp : ((above + 1 : ℕ) : ℤ) - 1074 = (above : ℤ) - 1074 + 1 := by omega
      rw [valueAt_add hr, hlast, valueAt_add (by decide), hexp, two_zpow_succ, ← mul_assoc]
      gcongr
      have hle : binade + r ≤ (binade + 0) * 2 := by omega
      exact_mod_cast hle

theorem value_le {a b : Magnitude} (h : a.code ≤ b.code) : a.value ≤ b.value :=
  monotone_nat_of_le_succ valueAt_le_succ h

theorem value_nonneg (m : Magnitude) : 0 ≤ m.value := valueAt_nonneg m.code

/-- The exponent of the steps between the magnitudes around a number. -/
def stepExponent (x : ℚ) : ℤ := max (floorLog2 x - 52) (-1074)

def stepsOf (x : ℚ) : ℕ := (roundHalfEven (x / (2 : ℚ) ^ stepExponent x)).toNat

def placeOf (x : ℚ) : ℕ := (stepExponent x + 1074).toNat * binade + stepsOf x

theorem code_nearest (x : ℚ) : (nearest x).code = if x ≤ 0 then 0 else min (placeOf x) infinityCode := by
  unfold nearest
  split <;> rfl

variable {x y : ℚ}

theorem stepExponent_le (hx : 0 < x) (h : x ≤ y) : stepExponent x ≤ stepExponent y :=
  max_le_max (sub_le_sub_right (floorLog2_le hx h) 52) le_rfl

theorem stepsOf_le (hx : 0 < x) : stepsOf x ≤ 2 * binade := by
  have hexp : floorLog2 x + 1 ≤ stepExponent x + 53 := by
    unfold stepExponent
    omega
  have hlt : x ≤ 2 ^ 53 * (2 : ℚ) ^ stepExponent x :=
    calc x
      _ ≤ 2 ^ (floorLog2 x + 1) := (floorLog2_bounds hx).2.le
      _ ≤ 2 ^ (stepExponent x + 53) := zpow_le_zpow_right₀ one_le_two hexp
      _ = 2 ^ 53 * 2 ^ stepExponent x := by rw [add_comm, zpow_add₀ two_ne_zero]; rfl
  have hround : roundHalfEven (x / (2 : ℚ) ^ stepExponent x) ≤ (2 * binade : ℕ) := by
    apply roundHalfEven_le_of_le
    rw [div_le_iff₀ (zpow_pos two_pos _)]
    exact hlt
  exact Int.toNat_le.mpr hround

theorem le_stepsOf (hy : 0 < y) (hexp : -1074 < stepExponent y) : binade ≤ stepsOf y := by
  have hexp : stepExponent y + 52 = floorLog2 y := by
    unfold stepExponent at hexp ⊢
    omega
  have hle : 2 ^ 52 * (2 : ℚ) ^ stepExponent y ≤ y :=
    calc 2 ^ 52 * (2 : ℚ) ^ stepExponent y
      _ = 2 ^ (stepExponent y + 52) := by rw [add_comm, zpow_add₀ two_ne_zero]; rfl
      _ ≤ y := hexp ▸ (floorLog2_bounds hy).1
  have hround : ((binade : ℕ) : ℤ) ≤ roundHalfEven (y / (2 : ℚ) ^ stepExponent y) := by
    apply le_roundHalfEven
    rw [le_div_iff₀ (zpow_pos two_pos _)]
    exact hle
  exact Int.le_toNat (by omega) |>.mpr hround

/-- Within steps of one size nearest integers decide. Where the steps are wider for the greater number,
the end of the binade below lies between the two. -/
theorem placeOf_le (hx : 0 < x) (h : x ≤ y) : placeOf x ≤ placeOf y := by
  unfold placeOf
  have hstep : -1074 ≤ stepExponent x := le_max_right _ _
  rcases (stepExponent_le hx h).eq_or_lt with heq | hlt
  · have hround : stepsOf x ≤ stepsOf y := by
      unfold stepsOf
      rw [heq]
      exact Int.toNat_le_toNat (roundHalfEven_le (div_le_div_of_nonneg_right h (zpow_pos two_pos _).le))
    rw [heq]
    exact Nat.add_le_add_left hround _
  · have hsteps := stepsOf_le hx
    have hsteps' := le_stepsOf (hx.trans_le h) (hstep.trans_lt hlt)
    have hexp : (stepExponent x + 1074).toNat + 1 ≤ (stepExponent y + 1074).toNat := by omega
    have hmul := Nat.mul_le_mul_right binade hexp
    rw [Nat.succ_mul] at hmul
    omega

theorem code_nearest_le (h : x ≤ y) : (nearest x).code ≤ (nearest y).code := by
  rw [code_nearest, code_nearest]
  split
  case isTrue => exact Nat.zero_le _
  case isFalse hx =>
    rw [if_neg fun hy => hx (h.trans hy)]
    exact min_le_min_right _ (placeOf_le (not_le.mp hx) h)

theorem value_nearest_le (h : x ≤ y) : (nearest x).value ≤ (nearest y).value := value_le (code_nearest_le h)

theorem value_ofNat_le {k k' : ℕ} (h : k ≤ k') : (ofNat k).value ≤ (ofNat k').value := by
  apply value_nearest_le
  exact Nat.cast_le.mpr h

variable {a a' b b' : Magnitude}

theorem value_add_le (ha : a.value ≤ a'.value) (hb : b.value ≤ b'.value) :
    (a + b).value ≤ (a' + b').value := by
  apply value_nearest_le
  exact add_le_add ha hb

theorem value_mul_le (ha : a.value ≤ a'.value) (hb : b.value ≤ b'.value) :
    (a * b).value ≤ (a' * b').value := by
  apply value_nearest_le
  exact mul_le_mul ha hb b.value_nonneg a'.value_nonneg

end Magnitude

end FlowTiming
