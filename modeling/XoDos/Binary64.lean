import Mathlib.Tactic

/-!
# Double precision arithmetic

Numbers are rational, and the result of an operation is rounded to 53 significant
bits, to the nearest number and of two the even one.  This is `binary64`
arithmetic as long as results are normal numbers: there is no overflow, and no
underflow.
-/

namespace XoDos.Binary64

/-- The nearest integer, or the even one of the two nearest. -/
def nearest (x : ℚ) : ℤ :=
  if 2 * (x - ⌊x⌋) < 1 ∨ (2 * (x - ⌊x⌋) = 1 ∧ ⌊x⌋ % 2 = 0) then ⌊x⌋ else ⌊x⌋ + 1

/-- The exponent of the leading bit. -/
def exponent (x : ℚ) : ℤ :=
  let e : ℤ := (x.num.natAbs.log2 : ℤ) - x.den.log2
  if (2 : ℚ) ^ e ≤ |x| then e else e - 1

/-- The unit in the last place. -/
def ulp (x : ℚ) : ℚ := 2 ^ (exponent x - 52)

def round (x : ℚ) : ℚ := nearest (x / ulp x) * ulp x

/-- The square root.  It cannot lie halfway between two numbers. -/
def sqrt (x : ℚ) : ℚ :=
  let u : ℚ := 2 ^ (exponent x / 2 - 52)
  let m := Nat.sqrt ⌊x / u ^ 2⌋₊
  if x ≤ ((m + 1 / 2) * u) ^ 2 then m * u else (m + 1) * u

/-- The conversion to a 32-bit integer, which rounds towards zero and stops at the bounds. -/
def toInt (x : ℚ) : ℤ := max (-2 ^ 31) (min (2 ^ 31 - 1) (if 0 ≤ x then ⌊x⌋ else ⌈x⌉))

/-! ## Integers -/

theorem floor_le_nearest (x : ℚ) : ⌊x⌋ ≤ nearest x := by
  unfold nearest
  split_ifs
  · exact le_rfl
  · omega

theorem le_nearest {z : ℤ} {x : ℚ} (h : (z : ℚ) ≤ x) : z ≤ nearest x :=
  (Int.le_floor.mpr h).trans (floor_le_nearest x)

@[simp] theorem nearest_intCast (z : ℤ) : nearest z = z := by
  simp [nearest]

theorem abs_nearest_sub_le (x : ℚ) : |(nearest x : ℚ) - x| ≤ 1 / 2 := by
  have hfloor := Int.floor_le x
  have hnext := Int.lt_floor_add_one x
  unfold nearest
  split_ifs with hlow
  · rw [abs_le]
    rcases hlow with hlow | ⟨hhalf, -⟩
    · constructor <;> linarith
    · constructor <;> linarith
  · push_cast
    rw [not_or, not_lt] at hlow
    rw [abs_le]
    constructor <;> linarith [hlow.1]

/-! ## The unit -/

theorem two_zpow_pos (e : ℤ) : (0 : ℚ) < 2 ^ e := zpow_pos two_pos e

theorem ulp_pos (x : ℚ) : 0 < ulp x := two_zpow_pos _

theorem natCast_two_pow (n : ℕ) : ((2 ^ n : ℕ) : ℚ) = 2 ^ (n : ℤ) := by
  rw [zpow_natCast]
  push_cast
  rfl

theorem log2_bounds {n : ℕ} (hn : n ≠ 0) :
    (2 : ℚ) ^ (n.log2 : ℤ) ≤ n ∧ (n : ℚ) < 2 ^ ((n.log2 : ℤ) + 1) := by
  rw [← Nat.cast_succ, ← natCast_two_pow, ← natCast_two_pow]
  exact ⟨by exact_mod_cast Nat.log2_self_le hn, by exact_mod_cast Nat.lt_log2_self⟩

theorem abs_eq_num_div_den (x : ℚ) : |x| = (x.num.natAbs : ℚ) / x.den := by
  conv_lhs => rw [← Rat.num_div_den x]
  rw [abs_div, Nat.abs_cast, Nat.cast_natAbs, Int.cast_abs]

theorem exponent_bounds {x : ℚ} (hx : x ≠ 0) :
    (2 : ℚ) ^ exponent x ≤ |x| ∧ |x| < 2 ^ (exponent x + 1) := by
  obtain ⟨hnum, hnum'⟩ := log2_bounds (Int.natAbs_ne_zero.mpr (Rat.num_ne_zero.mpr hx))
  obtain ⟨hden, hden'⟩ := log2_bounds x.den_nz
  have hpos : (0 : ℚ) < x.den := by exact_mod_cast x.den_pos
  have habs : |x| * x.den = x.num.natAbs := by
    rw [abs_eq_num_div_den, div_mul_cancel₀ _ hpos.ne']
  have hx₀ : 0 < |x| := abs_pos.mpr hx
  have htwo : (2 : ℚ) ≠ 0 := two_ne_zero
  unfold exponent
  simp only
  generalize (x.num.natAbs.log2 : ℤ) = a at hnum hnum' ⊢
  generalize (x.den.log2 : ℤ) = b at hden hden' ⊢
  have hlow : (2 : ℚ) ^ (a - b - 1) ≤ |x| := by
    have hb : (0 : ℚ) < 2 ^ (b + 1) := two_zpow_pos _
    rw [show a - b - 1 = a - (b + 1) by omega, zpow_sub₀ htwo, div_le_iff₀ hb]
    calc (2 : ℚ) ^ a ≤ |x| * x.den := by rwa [habs]
      _ ≤ |x| * 2 ^ (b + 1) := mul_le_mul_of_nonneg_left hden'.le hx₀.le
  have hhigh : |x| < 2 ^ (a - b + 1) := by
    have hb : (0 : ℚ) < 2 ^ b := two_zpow_pos _
    rw [show a - b + 1 = a + 1 - b by omega, zpow_sub₀ htwo, lt_div_iff₀ hb]
    calc |x| * 2 ^ b ≤ |x| * x.den := mul_le_mul_of_nonneg_left hden hx₀.le
      _ < 2 ^ (a + 1) := by rwa [habs]
  split_ifs with hcase
  · exact ⟨hcase, hhigh⟩
  · rw [sub_add_cancel]
    exact ⟨hlow, not_le.mp hcase⟩

/-- The unit is small against the number. -/
theorem ulp_mul_le {x : ℚ} (hx : x ≠ 0) : ulp x * 2 ^ 52 ≤ |x| := by
  have h := (exponent_bounds hx).1
  have heq : ulp x * 2 ^ 52 = 2 ^ exponent x := by
    rw [ulp, ← zpow_natCast, ← zpow_add₀ two_ne_zero]
    congr 1
    push_cast
    omega
  rw [heq]
  exact h

/-! ## Rounding -/

@[simp] theorem round_zero : round 0 = 0 := by
  have hnearest : nearest 0 = 0 := by simpa using nearest_intCast 0
  rw [round, zero_div, hnearest, Int.cast_zero, zero_mul]

theorem abs_round_sub_le (x : ℚ) : |round x - x| ≤ ulp x / 2 := by
  have hu := ulp_pos x
  have hx : x = x / ulp x * ulp x := (div_mul_cancel₀ x hu.ne').symm
  calc |round x - x| = |((nearest (x / ulp x) : ℚ) - x / ulp x) * ulp x| := by
        rw [sub_mul, ← hx, round]
    _ = |(nearest (x / ulp x) : ℚ) - x / ulp x| * ulp x := by rw [abs_mul, abs_of_pos hu]
    _ ≤ 1 / 2 * ulp x := mul_le_mul_of_nonneg_right (abs_nearest_sub_le _) hu.le
    _ = ulp x / 2 := by ring

/-- The relative error. -/
theorem round_le {x : ℚ} (hx : 0 < x) : round x ≤ x + x / 2 ^ 53 := by
  have herror := abs_round_sub_le x
  have hu := ulp_mul_le hx.ne'
  rw [abs_of_pos hx] at hu
  rw [abs_le] at herror
  linarith [herror.2]

/-- Below `2 ^ 53` an integer is a multiple of the unit. -/
theorem intCast_div_ulp {x : ℚ} (hx : x ≠ 0) (hlt : |x| < 2 ^ 53) (z : ℤ) :
    ∃ k : ℤ, (z : ℚ) / ulp x = k := by
  have hle : exponent x ≤ 52 := by
    by_contra hno
    have h53 : (2 : ℚ) ^ (53 : ℤ) ≤ 2 ^ exponent x := zpow_le_zpow_right₀ one_le_two (by omega)
    have hexp := (exponent_bounds hx).1
    norm_num at h53 hlt
    linarith
  refine ⟨z * 2 ^ (52 - exponent x).toNat, ?_⟩
  have hexp : exponent x - 52 = -(((52 - exponent x).toNat : ℕ) : ℤ) := by omega
  rw [ulp, hexp, zpow_neg, div_inv_eq_mul, zpow_natCast]
  push_cast
  rfl

/-- Rounding does not pass an integer. -/
theorem le_round {z : ℤ} {x : ℚ} (hx : 0 < x) (hlt : x < 2 ^ 53) (h : (z : ℚ) ≤ x) : z ≤ round x := by
  have hu := ulp_pos x
  obtain ⟨k, hk⟩ := intCast_div_ulp hx.ne' (by rwa [abs_of_pos hx]) z
  have hle : k ≤ nearest (x / ulp x) := by
    apply le_nearest
    rw [← hk]
    exact div_le_div_of_nonneg_right h hu.le
  calc (z : ℚ) = z / ulp x * ulp x := (div_mul_cancel₀ _ hu.ne').symm
    _ = k * ulp x := by rw [hk]
    _ ≤ round x := mul_le_mul_of_nonneg_right (by exact_mod_cast hle) hu.le

/-! ## Conversion -/

theorem toInt_eq_floor {x : ℚ} (h : 0 ≤ x) (hlt : x < 2 ^ 31) : toInt x = ⌊x⌋ := by
  have hfloor : 0 ≤ ⌊x⌋ := Int.floor_nonneg.mpr h
  have hle : ⌊x⌋ < 2 ^ 31 := Int.floor_lt.mpr (by exact_mod_cast hlt)
  rw [toInt, if_pos h]
  omega

end XoDos.Binary64
