import Mathlib.Algebra.Order.Floor.Ring
import Mathlib.Data.Int.Log
import Mathlib.Tactic.Linarith
import Mathlib.Tactic.NormNum
import Mathlib.Tactic.Positivity

/-!
Rounding to a number of significant binary digits, half to even, as binary floating-point
arithmetic rounds results that are neither subnormal nor too large.

* `roundTo_mono` — rounding keeps the order of nonnegative numbers.
* `roundTo_of_digits` — what has few enough digits is not changed.
* `abs_sub_roundTo_le` — the error is at most half a unit of the last digit.
-/

namespace MeshcoreSim.Lib

variable {K : Type} [Field K] [LinearOrder K] [FloorRing K]

/-! ### Integers -/

/-- The nearest integer, and of two of them the even one. -/
def roundEven (x : K) : ℤ :=
  if Int.fract x < 1 / 2 ∨ Int.fract x = 1 / 2 ∧ ⌊x⌋ % 2 = 0 then ⌊x⌋ else ⌊x⌋ + 1

theorem floor_le_roundEven (x : K) : ⌊x⌋ ≤ roundEven x := by
  unfold roundEven
  split_ifs <;> omega

theorem roundEven_le_floor_add_one (x : K) : roundEven x ≤ ⌊x⌋ + 1 := by
  unfold roundEven
  split_ifs <;> omega

variable [IsStrictOrderedRing K]

theorem abs_sub_roundEven_le (x : K) : |x - roundEven x| ≤ 1 / 2 := by
  have split := Int.self_sub_floor x
  have below := Int.fract_lt_one x
  have positive := Int.fract_nonneg x
  unfold roundEven
  split_ifs with down
  · have half : Int.fract x ≤ 1 / 2 := down.elim le_of_lt fun tie => tie.1.le
    rw [split, abs_of_nonneg positive]
    exact half
  · have half : 1 / 2 ≤ Int.fract x := not_lt.mp fun less => down (Or.inl less)
    push_cast
    rw [abs_le]
    constructor <;> linarith

/-- Less than half a unit away there is only one integer. -/
theorem roundEven_eq {x : K} {n : ℤ} (near : |x - n| < 1 / 2) : roundEven x = n := by
  have error := abs_sub_roundEven_le x
  rw [abs_lt] at near
  rw [abs_le] at error
  have above : (roundEven x : K) < n + 1 := by linarith
  have below : (n : K) < roundEven x + 1 := by linarith
  have above' : roundEven x < n + 1 := by exact_mod_cast above
  have below' : n < roundEven x + 1 := by exact_mod_cast below
  omega

@[simp] theorem roundEven_intCast (n : ℤ) : roundEven (n : K) = n :=
  roundEven_eq (by simp)

theorem roundEven_mono {x y : K} (le : x ≤ y) : roundEven x ≤ roundEven y := by
  have floors := Int.floor_mono le
  rcases floors.lt_or_eq with less | same
  · have first := roundEven_le_floor_add_one x
    have second := floor_le_roundEven y
    omega
  · -- With one floor, a number that is rounded up has a fraction that is no smaller.
    have fractions : Int.fract x ≤ Int.fract y := by
      rw [← Int.self_sub_floor, ← Int.self_sub_floor, same]
      linarith
    unfold roundEven
    rw [same]
    split_ifs with first second second
    · omega
    · omega
    · refine absurd ?_ first
      rcases second with less | ⟨tie, even⟩
      · exact Or.inl (lt_of_le_of_lt fractions less)
      · exact (lt_or_eq_of_le (tie ▸ fractions)).imp_right fun tie' => ⟨tie', even⟩
    · omega

/-! ### Significant digits -/

/-- The place value of the last of `p` significant digits. -/
def ulp (p : ℕ) (x : K) : K := 2 ^ (Int.log 2 x + 1 - p)

/-- A nonnegative number, rounded to `p` significant digits. -/
def roundTo (p : ℕ) (x : K) : K := roundEven (x / ulp p x) * ulp p x

variable {p : ℕ} {x y : K}

theorem ulp_pos (p : ℕ) (x : K) : 0 < ulp p x := zpow_pos two_pos _

@[simp] theorem roundTo_zero (p : ℕ) : roundTo p (0 : K) = 0 := by
  have zero : roundEven (0 : K) = 0 := by simpa using roundEven_intCast (K := K) 0
  simp [roundTo, zero]

theorem zpow_log_le (pos : 0 < x) : (2 : K) ^ Int.log 2 x ≤ x := by
  simpa using Int.zpow_log_le_self (b := 2) (by omega) pos

theorem lt_zpow_log_succ (x : K) : x < (2 : K) ^ (Int.log 2 x + 1) := by
  simpa using Int.lt_zpow_succ_log_self (b := 2) (by omega) x

/-- A number of units fills `p` digits. -/
theorem zpow_eq_mul_ulp (p : ℕ) (x : K) : (2 : K) ^ (Int.log 2 x + 1) = 2 ^ p * ulp p x := by
  rw [ulp, ← zpow_natCast, ← zpow_add₀ two_ne_zero]
  congr 1
  omega

theorem zpow_log_eq_mul_ulp (pos : 0 < p) (x : K) :
    (2 : K) ^ Int.log 2 x = 2 ^ (p - 1) * ulp p x := by
  rw [ulp, ← zpow_natCast, ← zpow_add₀ two_ne_zero]
  congr 1
  omega

/-- The error is at most half a unit of the last digit. -/
theorem abs_sub_roundTo_le (p : ℕ) (x : K) : |x - roundTo p x| ≤ ulp p x / 2 := by
  have unit := ulp_pos p x
  have scaled : x - roundTo p x = (x / ulp p x - roundEven (x / ulp p x)) * ulp p x := by
    rw [roundTo, sub_mul, div_mul_cancel₀ _ unit.ne']
  rw [scaled, abs_mul, abs_of_pos unit]
  have half := mul_le_mul_of_nonneg_right (abs_sub_roundEven_le (x / ulp p x)) unit.le
  linarith

/-- The error below a power of two. -/
theorem abs_sub_roundTo_le_of_lt (p : ℕ) {k : ℤ} (nonneg : 0 ≤ x) (below : x < 2 ^ k) :
    |x - roundTo p x| ≤ 2 ^ (k - p) / 2 := by
  rcases nonneg.eq_or_lt with rfl | pos
  · rw [roundTo_zero, sub_zero, abs_zero]
    exact div_nonneg (zpow_pos two_pos _).le zero_le_two
  · have log : Int.log 2 x < k :=
      (Int.lt_zpow_iff_log_lt (b := 2) (by omega) pos).mp (by simpa using below)
    have unit : ulp p x ≤ 2 ^ (k - p) := zpow_le_zpow_right₀ one_le_two (by omega)
    exact (abs_sub_roundTo_le p x).trans (div_le_div_of_nonneg_right unit zero_le_two)

theorem roundTo_le_zpow (p : ℕ) (x : K) : roundTo p x ≤ 2 ^ (Int.log 2 x + 1) := by
  have unit := ulp_pos p x
  have inside : x / ulp p x ≤ ((2 ^ p : ℤ) : K) := by
    rw [div_le_iff₀ unit]
    push_cast
    rw [← zpow_eq_mul_ulp]
    exact (lt_zpow_log_succ x).le
  have rounded : ((roundEven (x / ulp p x) : ℤ) : K) ≤ ((2 ^ p : ℤ) : K) := by
    have mono := roundEven_mono inside
    rw [roundEven_intCast] at mono
    exact_mod_cast mono
  calc roundTo p x ≤ ((2 ^ p : ℤ) : K) * ulp p x := mul_le_mul_of_nonneg_right rounded unit.le
    _ = 2 ^ (Int.log 2 x + 1) := by
      push_cast
      exact (zpow_eq_mul_ulp p x).symm

theorem zpow_le_roundTo (digits : 0 < p) (pos : 0 < x) : 2 ^ Int.log 2 x ≤ roundTo p x := by
  have unit := ulp_pos p x
  have inside : ((2 ^ (p - 1) : ℤ) : K) ≤ x / ulp p x := by
    rw [le_div_iff₀ unit]
    push_cast
    rw [← zpow_log_eq_mul_ulp digits]
    exact zpow_log_le pos
  have rounded : ((2 ^ (p - 1) : ℤ) : K) ≤ ((roundEven (x / ulp p x) : ℤ) : K) := by
    have mono := roundEven_mono inside
    rw [roundEven_intCast] at mono
    exact_mod_cast mono
  calc (2 : K) ^ Int.log 2 x = ((2 ^ (p - 1) : ℤ) : K) * ulp p x := by
        push_cast
        exact zpow_log_eq_mul_ulp digits x
    _ ≤ roundTo p x := mul_le_mul_of_nonneg_right rounded unit.le

/-- Rounding keeps the order. -/
theorem roundTo_mono (digits : 0 < p) (nonneg : 0 ≤ x) (le : x ≤ y) :
    roundTo p x ≤ roundTo p y := by
  rcases nonneg.eq_or_lt with rfl | pos
  · rcases le.eq_or_lt with rfl | positive
    · rfl
    · rw [roundTo_zero]
      exact (zpow_pos two_pos _).le.trans (zpow_le_roundTo digits positive)
  · rcases (Int.log_mono_right (b := 2) pos le).lt_or_eq with less | same
    · -- A power of two lies between them.
      calc roundTo p x ≤ 2 ^ (Int.log 2 x + 1) := roundTo_le_zpow p x
        _ ≤ 2 ^ Int.log 2 y := zpow_le_zpow_right₀ one_le_two (by omega)
        _ ≤ roundTo p y := zpow_le_roundTo digits (lt_of_lt_of_le pos le)
    · have units : ulp p x = ulp p y := by rw [ulp, ulp, same]
      have unit := ulp_pos p y
      unfold roundTo
      rw [units]
      have scaled : x / ulp p y ≤ y / ulp p y := div_le_div_of_nonneg_right le unit.le
      have rounded : ((roundEven (x / ulp p y) : ℤ) : K) ≤ roundEven (y / ulp p y) := by
        exact_mod_cast roundEven_mono scaled
      exact mul_le_mul_of_nonneg_right rounded unit.le

theorem roundTo_nonneg (digits : 0 < p) (nonneg : 0 ≤ x) : 0 ≤ roundTo p x := by
  simpa using roundTo_mono digits le_rfl nonneg

/-- A number with at most `p` significant digits is not changed. -/
theorem roundTo_of_digits {m : ℕ} {e : ℤ} (few : m < 2 ^ p) (value : x = m * 2 ^ e) :
    roundTo p x = x := by
  rcases Nat.eq_zero_or_pos m with rfl | positive
  · simp [value]
  · have unit : (0 : K) < 2 ^ e := zpow_pos two_pos _
    have pos : 0 < x := value ▸ mul_pos (Nat.cast_pos.mpr positive) unit
    have bound : Int.log 2 x < p + e := by
      refine (Int.lt_zpow_iff_log_lt (b := 2) (by omega) pos).mp ?_
      have fits : (m : K) < 2 ^ p := by exact_mod_cast few
      calc x = m * 2 ^ e := value
        _ < 2 ^ p * 2 ^ e := mul_lt_mul_of_pos_right fits unit
        _ = ((2 : ℕ) : K) ^ ((p : ℤ) + e) := by
          rw [Nat.cast_ofNat, zpow_add₀ two_ne_zero, zpow_natCast]
    -- The number is a multiple of the unit of its last digit.
    obtain ⟨k, exponent⟩ : ∃ k : ℕ, e = Int.log 2 x + 1 - p + k :=
      ⟨(e - (Int.log 2 x + 1 - p)).toNat, by omega⟩
    have units : (2 : K) ^ e = 2 ^ k * ulp p x := by
      rw [ulp, ← zpow_natCast (2 : K) k, ← zpow_add₀ two_ne_zero]
      congr 1
      omega
    have multiple : x / ulp p x = ((m * 2 ^ k : ℤ) : K) := by
      rw [div_eq_iff (ulp_pos p x).ne']
      push_cast
      rw [mul_assoc, ← units, value]
    unfold roundTo
    rw [multiple, roundEven_intCast, ← multiple, div_mul_cancel₀ _ (ulp_pos p x).ne']

/-- What is rounded has at most `p` significant digits. -/
theorem exists_digits (digits : 0 < p) (nonneg : 0 ≤ x) :
    ∃ m < 2 ^ p, ∃ e : ℤ, roundTo p x = (m : ℕ) * 2 ^ e := by
  have unit := ulp_pos p x
  have positive : (0 : K) ≤ roundEven (x / ulp p x) :=
    nonneg_of_mul_nonneg_left (roundTo_nonneg digits nonneg) unit
  obtain ⟨m, count⟩ := Int.eq_ofNat_of_zero_le (by exact_mod_cast positive :
    0 ≤ roundEven (x / ulp p x))
  have value : roundTo p x = (m : K) * ulp p x := by
    rw [roundTo, count, Int.cast_natCast]
  have bound : m ≤ 2 ^ p := by
    have le := roundTo_le_zpow p x
    rw [value, zpow_eq_mul_ulp p x] at le
    exact_mod_cast le_of_mul_le_mul_right le unit
  rcases bound.lt_or_eq with few | all
  · exact ⟨m, few, _, value⟩
  · -- The next power of two.
    refine ⟨1, Nat.one_lt_two_pow digits.ne', Int.log 2 x + 1, ?_⟩
    rw [value, all, zpow_eq_mul_ulp p x]
    push_cast
    rw [one_mul]

/-- A power of two only moves the digits. -/
theorem roundTo_mul_zpow (digits : 0 < p) (nonneg : 0 ≤ x) (k : ℤ) :
    roundTo p (roundTo p x * 2 ^ k) = roundTo p x * 2 ^ k := by
  obtain ⟨m, few, e, value⟩ := exists_digits digits nonneg
  refine roundTo_of_digits (e := e + k) few ?_
  rw [value, zpow_add₀ two_ne_zero, mul_assoc]

end MeshcoreSim.Lib
