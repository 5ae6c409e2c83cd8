import Mathlib.Data.Int.Log
import Mathlib.Data.Rat.Floor
import Mathlib.Tactic.Linarith
import Mathlib.Tactic.NormNum
import Mathlib.Tactic.Positivity
import Mathlib.Tactic.Ring

/-!
# Doubles

Binary numbers with 53 digits, as rational numbers, and the rounding of their arithmetic.
Exponents have no bound, which is how doubles are as long as nothing overflows or comes close to
zero.

* `roundEven`, `double`: the nearest integer and the nearest double, the even one of two;
* `IsDouble`: what `double` returns (`isDouble_double`) and leaves as it is (`IsDouble.double_eq`);
* `double_mono`, `abs_double_sub_le`: the order is kept, and the error is at most half of the last
  digit;
* `IsDouble.exists_eq_mul`: large doubles are multiples of powers of two.
-/

namespace Doubles

/-! ### Integers -/

/-- The nearest integer, the even one of two. -/
def roundEven (x : ℚ) : ℤ :=
  if x - ⌊x⌋ < 1 / 2 then ⌊x⌋
  else if 1 / 2 < x - ⌊x⌋ then ⌊x⌋ + 1
  else if Even ⌊x⌋ then ⌊x⌋ else ⌊x⌋ + 1

@[simp] theorem roundEven_intCast (n : ℤ) : roundEven n = n := by
  simp [roundEven]

@[simp] theorem roundEven_zero : roundEven 0 = 0 := by
  exact_mod_cast roundEven_intCast 0

/-- It is the integer below or the one above. -/
theorem roundEven_eq_or (x : ℚ) :
    (roundEven x = ⌊x⌋ ∧ x - ⌊x⌋ ≤ 1 / 2) ∨ (roundEven x = ⌊x⌋ + 1 ∧ 1 / 2 ≤ x - ⌊x⌋) := by
  unfold roundEven
  split_ifs with hlt hgt heven
  · exact Or.inl ⟨rfl, hlt.le⟩
  · exact Or.inr ⟨rfl, hgt.le⟩
  · exact Or.inl ⟨rfl, not_lt.1 hgt⟩
  · exact Or.inr ⟨rfl, not_lt.1 hlt⟩

theorem abs_roundEven_sub_le (x : ℚ) : |(roundEven x : ℚ) - x| ≤ 1 / 2 := by
  have hfloor := Int.floor_le x
  have hnext := Int.lt_floor_add_one x
  rw [abs_le]
  rcases roundEven_eq_or x with ⟨h, hhalf⟩ | ⟨h, hhalf⟩
  · rw [h]
    constructor <;> linarith
  · rw [h]
    push_cast
    constructor <;> linarith

theorem roundEven_mono {x y : ℚ} (h : x ≤ y) : roundEven x ≤ roundEven y := by
  have hfloor : ⌊x⌋ ≤ ⌊y⌋ := Int.floor_mono h
  rcases lt_or_eq_of_le hfloor with hlt | heq
  · -- the integer above the first is not above the second
    have hx : roundEven x ≤ ⌊x⌋ + 1 := by
      rcases roundEven_eq_or x with ⟨hx, -⟩ | ⟨hx, -⟩ <;> omega
    have hy : ⌊y⌋ ≤ roundEven y := by
      rcases roundEven_eq_or y with ⟨hy, -⟩ | ⟨hy, -⟩ <;> omega
    omega
  · unfold roundEven
    rw [heq]
    split_ifs <;> first | omega | (exfalso; linarith)

/-! ### Doubles -/

/-- What the last of 53 binary digits of a number stands for. -/
def ulp (x : ℚ) : ℚ := 2 ^ (Int.log 2 |x| - 52)

/-- The double next to a number. -/
def double (x : ℚ) : ℚ := roundEven (x / ulp x) * ulp x

/-- Numbers with 53 binary digits. -/
def IsDouble (x : ℚ) : Prop := ∃ m e : ℤ, |m| < 2 ^ 53 ∧ x = m * 2 ^ e

variable {x y : ℚ} {e k : ℤ}

theorem ulp_pos (x : ℚ) : 0 < ulp x := zpow_pos (by norm_num) _

@[simp] theorem double_zero : double 0 = 0 := by simp [double]

/-- A multiple of what its last digit stands for is left as it is. -/
theorem double_eq_of_div {m : ℤ} (h : x / ulp x = m) : double x = x := by
  rw [double, h, roundEven_intCast, ← h, div_mul_cancel₀ x (ulp_pos x).ne']

/-- A double is left as it is. -/
theorem IsDouble.double_eq (h : IsDouble x) : double x = x := by
  obtain ⟨m, e, hm, rfl⟩ := h
  rcases eq_or_ne m 0 with rfl | hne
  · simp
  · -- the last digit does not stand for more than the exponent
    have hpow : (0 : ℚ) < 2 ^ e := zpow_pos (by norm_num) e
    have hpos : (0 : ℚ) < |(m : ℚ) * 2 ^ e| := by
      rw [abs_pos]
      exact mul_ne_zero (Int.cast_ne_zero.2 hne) hpow.ne'
    have hlt : |(m : ℚ) * 2 ^ e| < (2 : ℕ) ^ (53 + e) := by
      have hm' : |(m : ℚ)| < 2 ^ 53 := by exact_mod_cast hm
      have hsplit : (((2 : ℕ) : ℚ)) ^ (53 + e) = 2 ^ 53 * 2 ^ e := by
        rw [zpow_add₀ (by norm_num)]
        norm_cast
      rw [abs_mul, abs_of_pos hpow, hsplit]
      exact mul_lt_mul_of_pos_right hm' hpow
    have hlog := (Int.lt_zpow_iff_log_lt (by decide) hpos).1 hlt
    obtain ⟨j, hj⟩ : ∃ j : ℕ, e = Int.log 2 |(m : ℚ) * 2 ^ e| - 52 + j := by
      exact ⟨(e - (Int.log 2 |(m : ℚ) * 2 ^ e| - 52)).toNat, by omega⟩
    refine @double_eq_of_div _ (m * 2 ^ j) ?_
    rw [div_eq_iff (ulp_pos _).ne', ulp]
    push_cast
    rw [mul_assoc, ← zpow_natCast, ← zpow_add₀ (by norm_num), add_comm, ← hj]

/-- A multiple of what the last digit stands for is not passed. -/
theorem double_le_mul {n : ℤ} (h : x ≤ n * ulp x) : double x ≤ n * ulp x := by
  have hround := roundEven_mono ((div_le_iff₀ (ulp_pos x)).2 h)
  rw [roundEven_intCast] at hround
  exact mul_le_mul_of_nonneg_right (by exact_mod_cast hround) (ulp_pos x).le

theorem mul_le_double {n : ℤ} (h : n * ulp x ≤ x) : n * ulp x ≤ double x := by
  have hround := roundEven_mono ((le_div_iff₀ (ulp_pos x)).2 h)
  rw [roundEven_intCast] at hround
  exact mul_le_mul_of_nonneg_right (by exact_mod_cast hround) (ulp_pos x).le

theorem double_nonneg (h : 0 ≤ x) : 0 ≤ double x := by
  have hzero := @mul_le_double x 0 (by rwa [Int.cast_zero, zero_mul])
  rwa [Int.cast_zero, zero_mul] at hzero

/-- The powers of two around a number are multiples of what its last digit stands for. -/
theorem pow_mul_ulp (hx : 0 < x) (j : ℕ) :
    (((2 : ℤ) ^ (52 + j) : ℤ) : ℚ) * ulp x = 2 ^ (Int.log 2 x + j) := by
  rw [ulp, abs_of_pos hx, Int.cast_pow, Int.cast_ofNat, ← zpow_natCast,
    ← zpow_add₀ (by norm_num)]
  congr 1
  push_cast
  ring

/-- Numbers between a power of two and the next are rounded to such ones. -/
theorem double_mem (hx : 0 < x) :
    (2 : ℚ) ^ Int.log 2 x ≤ double x ∧ double x ≤ 2 ^ (Int.log 2 x + 1) := by
  have hlow : (2 : ℚ) ^ Int.log 2 x ≤ x := by
    exact_mod_cast Int.zpow_log_le_self (by decide : 1 < 2) hx
  have hhigh : x ≤ (2 : ℚ) ^ (Int.log 2 x + 1) := by
    exact_mod_cast (Int.lt_zpow_succ_log_self (by decide : 1 < 2) x).le
  have hzero := pow_mul_ulp hx 0
  have hone := pow_mul_ulp hx 1
  simp only [Nat.cast_zero, add_zero] at hzero
  rw [Nat.cast_one] at hone
  constructor
  · rw [← hzero] at hlow ⊢
    exact mul_le_double hlow
  · rw [← hone] at hhigh ⊢
    exact double_le_mul hhigh

/-- **The order** is kept. -/
theorem double_mono (hx : 0 ≤ x) (h : x ≤ y) : double x ≤ double y := by
  rcases hx.eq_or_lt with rfl | hpos
  · rw [double_zero]
    exact double_nonneg h
  · have hypos := hpos.trans_le h
    rcases (Int.log_mono_right hpos h).eq_or_lt with heq | hlt
    · -- both have the same last digit
      have hulp : ulp x = ulp y := by
        rw [ulp, ulp, abs_of_pos hpos, abs_of_pos hypos, heq]
      rw [double, double, hulp]
      have hround := roundEven_mono ((div_le_div_iff_of_pos_right (ulp_pos y)).2 h)
      exact mul_le_mul_of_nonneg_right (by exact_mod_cast hround) (ulp_pos y).le
    · have hpow : (2 : ℚ) ^ (Int.log 2 x + 1) ≤ 2 ^ Int.log 2 y :=
        zpow_le_zpow_right₀ (by norm_num) hlt
      exact ((double_mem hpos).2.trans hpow).trans (double_mem hypos).1

/-- **The error** is at most half of what the last digit stands for. -/
theorem abs_double_sub_le (hx : 0 ≤ x) (h : x < 2 ^ (k + 1)) : |double x - x| ≤ 2 ^ (k - 53) := by
  have hround := abs_roundEven_sub_le (x / ulp x)
  have hsplit : double x - x = (roundEven (x / ulp x) - x / ulp x) * ulp x := by
    rw [double, sub_mul, div_mul_cancel₀ x (ulp_pos x).ne']
  rcases hx.eq_or_lt with rfl | hpos
  · rw [double_zero, sub_zero, abs_zero]
    exact (zpow_pos (by norm_num) _).le
  · have hlog : Int.log 2 x ≤ k := by
      refine Int.lt_add_one_iff.1 ((Int.lt_zpow_iff_log_lt (by decide : 1 < 2) hpos).1 ?_)
      exact_mod_cast h
    have hulp : ulp x ≤ 2 ^ (k - 52) := by
      rw [ulp, abs_of_pos hpos]
      exact zpow_le_zpow_right₀ (by norm_num) (by omega)
    have hhalf : (2 : ℚ) ^ (k - 53) = 1 / 2 * 2 ^ (k - 52) := by
      rw [show k - 53 = -1 + (k - 52) by ring, zpow_add₀ (by norm_num)]
      norm_num
    rw [hsplit, abs_mul, abs_of_pos (ulp_pos x), hhalf]
    exact mul_le_mul hround hulp (ulp_pos x).le (by norm_num)

/-! ### Doubles as numbers -/

theorem isDouble_double (x : ℚ) : IsDouble (double x) := by
  rcases eq_or_ne x 0 with rfl | hne
  · exact ⟨0, 0, by norm_num, by simp⟩
  · have hhigh : |x| ≤ ((2 ^ 53 : ℤ) : ℚ) * ulp x := by
      have hlog : |x| ≤ (2 : ℚ) ^ (Int.log 2 |x| + 1) := by
        exact_mod_cast (Int.lt_zpow_succ_log_self (by decide : 1 < 2) |x|).le
      have hone := pow_mul_ulp (abs_pos.2 hne) 1
      have hulp : ulp |x| = ulp x := by rw [ulp, ulp, abs_abs]
      rw [Nat.cast_one, hulp] at hone
      rwa [hone]
    obtain ⟨hlow, hhigh⟩ := abs_le.1 hhigh
    have hle : roundEven (x / ulp x) ≤ 2 ^ 53 := by
      have hround := roundEven_mono ((div_le_iff₀ (ulp_pos x)).2 hhigh)
      rwa [roundEven_intCast] at hround
    have hge : -2 ^ 53 ≤ roundEven (x / ulp x) := by
      rw [← neg_mul, ← Int.cast_neg] at hlow
      have hround := roundEven_mono ((le_div_iff₀ (ulp_pos x)).2 hlow)
      rwa [roundEven_intCast] at hround
    -- the digits carry over at the ends
    have hcarry : ∀ m : ℤ, |m| < 2 ^ 53 → roundEven (x / ulp x) = m * 2 ^ 53 → IsDouble (double x) := by
      intro m hm hround
      refine ⟨m, 53 + (Int.log 2 |x| - 52), hm, ?_⟩
      rw [double, hround, zpow_add₀ (by norm_num), ulp]
      push_cast
      ring
    rcases hle.eq_or_lt with heq | hlt
    · exact hcarry 1 (by norm_num) (by rw [heq]; norm_num)
    · rcases hge.eq_or_lt with heq | hgt
      · exact hcarry (-1) (by norm_num) (by rw [← heq]; norm_num)
      · exact ⟨roundEven (x / ulp x), Int.log 2 |x| - 52, abs_lt.2 ⟨hgt, hlt⟩, rfl⟩

/-- **Large doubles** are multiples of powers of two. -/
theorem IsDouble.exists_eq_mul (h : IsDouble x) (hx : (2 : ℚ) ^ (52 + k) ≤ x) :
    ∃ j : ℤ, x = j * 2 ^ k := by
  obtain ⟨m, e, hm, rfl⟩ := h
  have hpow : (0 : ℚ) < 2 ^ e := zpow_pos (by norm_num) e
  have hm' : (m : ℚ) < 2 ^ 53 := by exact_mod_cast (abs_lt.1 hm).2
  have hlt : (2 : ℚ) ^ (52 + k) < 2 ^ (53 + e) := by
    refine hx.trans_lt ?_
    rw [zpow_add₀ (by norm_num)]
    exact mul_lt_mul_of_pos_right (by exact_mod_cast hm') hpow
  have hexp := (zpow_lt_zpow_iff_right₀ (by norm_num : (1 : ℚ) < 2)).1 hlt
  obtain ⟨j, rfl⟩ : ∃ j : ℕ, e = k + j := ⟨(e - k).toNat, by omega⟩
  refine ⟨m * 2 ^ j, ?_⟩
  push_cast
  rw [zpow_add₀ (by norm_num), zpow_natCast]
  ring

theorem isDouble_natCast {n : ℕ} (h : n ≤ 2 ^ 53) : IsDouble n := by
  rcases h.eq_or_lt with rfl | hlt
  · exact ⟨1, 53, by norm_num, by norm_num⟩
  · refine ⟨n, 0, ?_, by simp⟩
    rw [Nat.abs_cast]
    exact_mod_cast hlt

/-- Integers up to `2 ^ 53` are left as they are. -/
theorem double_natCast {n : ℕ} (h : n ≤ 2 ^ 53) : double n = n := (isDouble_natCast h).double_eq

/-- The rounding of an integer is an integer. -/
theorem exists_double_natCast (n : ℕ) : ∃ m : ℕ, double n = m ∧ (2 ^ 53 ≤ n → 2 ^ 53 ≤ m) := by
  rcases le_total n (2 ^ 53) with hle | hge
  · exact ⟨n, double_natCast hle, id⟩
  · have hlarge : (2 : ℚ) ^ 53 ≤ double n := by
      have hmono := double_mono (Nat.cast_nonneg _) (Nat.cast_le.2 hge : ((2 ^ 53 : ℕ) : ℚ) ≤ n)
      rw [double_natCast (Nat.le_refl _)] at hmono
      exact_mod_cast hmono
    obtain ⟨j, hj⟩ := @IsDouble.exists_eq_mul _ 1 (isDouble_double n) (by exact_mod_cast hlarge)
    have hj' : double n = ((j * 2 : ℤ) : ℚ) := by
      rw [hj]
      push_cast
      ring
    rw [hj'] at hlarge ⊢
    have hint : (2 : ℤ) ^ 53 ≤ j * 2 := by exact_mod_cast hlarge
    obtain ⟨m, hm⟩ := Int.eq_ofNat_of_zero_le (show 0 ≤ j * 2 by omega)
    refine ⟨m, by rw [hm]; rfl, fun _ => ?_⟩
    rw [hm] at hint
    exact_mod_cast hint

/-- Half integers up to `2 ^ 52` are left as they are. -/
theorem double_natCast_add_half {n : ℕ} (h : n < 2 ^ 52) : double (n + 1 / 2) = n + 1 / 2 := by
  refine IsDouble.double_eq ⟨2 * n + 1, -1, ?_, ?_⟩
  · rw [abs_of_nonneg (by positivity)]
    have : (n : ℤ) < 2 ^ 52 := by exact_mod_cast h
    omega
  · push_cast
    rw [zpow_neg_one]
    ring

end Doubles
