import Mathlib

/-!
# Double-precision numbers

A `Double` is the exact rational a binary64 datum denotes, or one of the special values. The
two zeros are one value: nothing in this development can tell them apart. An operation is the
exact rational operation followed by `Double.round`, which rounds to the nearest multiple of
the unit in the last place with ties to even, keeps the subnormal range and overflows to
infinity.

Whole numbers below `2 ^ 53` are represented exactly (`Double.round_intCast`), so arithmetic
whose exact results stay in that range does not round at all (`Double.mul_intCast`,
`Double.add_intCast`).
-/

namespace X3D

/-- A binary64 datum, up to the sign of zero and the payload of a NaN. -/
inductive Double where
  /-- A finite number. -/
  | fin (q : ℚ)
  /-- An infinity; `true` is the negative one. -/
  | inf (neg : Bool)
  /-- Not a number. -/
  | nan
  deriving DecidableEq

namespace Double

/-- The nearest integer, ties to even. -/
def nearestEven (q : ℚ) : ℤ :=
  if Int.fract q < 1 / 2 then ⌊q⌋
  else if 1 / 2 < Int.fract q then ⌊q⌋ + 1
  else if ⌊q⌋ % 2 = 0 then ⌊q⌋ else ⌊q⌋ + 1

/-- The exponent of the unit in the last place at `q`: 53 significant bits, but never below the
subnormal step. -/
def ulpExp (q : ℚ) : ℤ := max (Int.log 2 |q| - 52) (-1074)

/-- The datum a rational rounds to. -/
def round (q : ℚ) : Double :=
  let r : ℚ := nearestEven (q / 2 ^ ulpExp q) * 2 ^ ulpExp q
  if 2 ^ 1024 ≤ |r| then inf (r < 0) else fin r

/-- `-x`. -/
def neg : Double → Double
  | fin q => fin (-q)
  | inf s => inf !s
  | nan => nan

/-- `x + y`. -/
def add : Double → Double → Double
  | fin a, fin b => round (a + b)
  | inf s, inf t => if s = t then inf s else nan
  | inf s, fin _ => inf s
  | fin _, inf t => inf t
  | _, _ => nan

/-- `x * y`. -/
def mul : Double → Double → Double
  | fin a, fin b => round (a * b)
  | inf s, inf t => inf (s ^^ t)
  | inf s, fin b => if b = 0 then nan else inf (s ^^ decide (b < 0))
  | fin a, inf t => if a = 0 then nan else inf (t ^^ decide (a < 0))
  | _, _ => nan

/-- The integer part, towards zero. -/
def truncRat (q : ℚ) : ℤ := if 0 ≤ q then ⌊q⌋ else ⌈q⌉

/-- Conversion to a signed integer of `w` bits. Where the value does not fit, the conversion
instruction delivers the least integer. -/
def toInt (w : ℕ) : Double → ℤ
  | fin q => if -2 ^ (w - 1) ≤ truncRat q ∧ truncRat q < 2 ^ (w - 1) then truncRat q
      else -2 ^ (w - 1)
  | _ => -2 ^ (w - 1)

/-! ### Whole numbers are exact -/

@[simp] theorem nearestEven_intCast (n : ℤ) : nearestEven n = n := by
  have h : Int.fract (n : ℚ) < 1 / 2 := by
    rw [Int.fract_intCast]
    norm_num
  rw [nearestEven, if_pos h, Int.floor_intCast]

/-- Below `2 ^ 53` the unit in the last place divides one. -/
theorem ulpExp_intCast {n : ℤ} (h : |n| < 2 ^ 53) : ulpExp n ≤ 0 := by
  rcases eq_or_ne n 0 with rfl | hn
  · simp [ulpExp]
  · have hpos : (0 : ℚ) < |(n : ℚ)| := abs_pos.mpr (Int.cast_ne_zero.mpr hn)
    have hlt : |(n : ℚ)| < (2 : ℕ) ^ (53 : ℤ) := by
      have : ((|n| : ℤ) : ℚ) < ((2 ^ 53 : ℤ) : ℚ) := Int.cast_lt.mpr h
      rw [Int.cast_abs] at this
      exact_mod_cast this
    have hlog : Int.log 2 |(n : ℚ)| < 53 := (Int.lt_zpow_iff_log_lt (by norm_num) hpos).mp hlt
    unfold ulpExp
    omega

theorem round_intCast {n : ℤ} (h : |n| < 2 ^ 53) : round n = fin n := by
  obtain ⟨k, hk⟩ := Int.eq_ofNat_of_zero_le (neg_nonneg.mpr (ulpExp_intCast h))
  have hexp : ulpExp (n : ℚ) = -(k : ℤ) := by
    rw [← hk, neg_neg]
  have hdiv : (n : ℚ) / 2 ^ ulpExp (n : ℚ) = ((n * 2 ^ k : ℤ) : ℚ) := by
    rw [hexp, zpow_neg, zpow_natCast, div_inv_eq_mul]
    push_cast
    rfl
  have hback : ((n * 2 ^ k : ℤ) : ℚ) * 2 ^ ulpExp (n : ℚ) = n := by
    rw [hexp, zpow_neg, zpow_natCast]
    push_cast
    exact mul_inv_cancel_right₀ (by positivity) _
  have hsmall : |(n : ℚ)| < 2 ^ 1024 := by
    have h1 : ((|n| : ℤ) : ℚ) < ((2 ^ 53 : ℤ) : ℚ) := Int.cast_lt.mpr h
    rw [Int.cast_abs] at h1
    have h2 : ((2 ^ 53 : ℤ) : ℚ) ≤ 2 ^ 1024 := by
      rw [Int.cast_pow]
      exact pow_le_pow_right₀ (by norm_num) (by norm_num)
    exact h1.trans_le h2
  rw [round, hdiv, nearestEven_intCast, hback]
  exact if_neg (not_le.mpr hsmall)

/-- The nearest integer is at most one half away. -/
theorem abs_nearestEven_sub_le (q : ℚ) : |(nearestEven q : ℚ) - q| ≤ 1 / 2 := by
  have hfract : (⌊q⌋ : ℚ) = q - Int.fract q := (Int.self_sub_fract q).symm
  have hnonneg := Int.fract_nonneg q
  have hlt := Int.fract_lt_one q
  unfold nearestEven
  split
  next h =>
    rw [hfract, abs_le]
    constructor <;> linarith
  next h =>
    split
    next h' =>
      rw [Int.cast_add, Int.cast_one, hfract, abs_le]
      constructor <;> linarith
    next h' =>
      split
      next =>
        rw [hfract, abs_le]
        constructor <;> linarith
      next =>
        rw [Int.cast_add, Int.cast_one, hfract, abs_le]
        constructor <;> linarith

/-- **Rounding error.** At most half a unit in the last place. -/
theorem exists_round_eq {q : ℚ} {k : ℕ} (hk : k ≤ 52) (h : |q| < 2 ^ (53 - k)) :
    ∃ r, round q = fin r ∧ |r - q| ≤ 1 / 2 ^ (k + 1) := by
  have hexp : ulpExp q ≤ -(k : ℤ) := by
    unfold ulpExp
    rcases eq_or_ne q 0 with rfl | hq
    · rw [abs_zero, Int.log_zero_right]
      omega
    · have hlt : |q| < (2 : ℕ) ^ ((53 - k : ℕ) : ℤ) := by
        rw [zpow_natCast]
        exact_mod_cast h
      have hlog := (Int.lt_zpow_iff_log_lt (by norm_num) (abs_pos.mpr hq)).mp hlt
      omega
  have hulp : (2 : ℚ) ^ ulpExp q ≤ 1 / 2 ^ k := by
    rw [one_div, ← zpow_natCast, ← zpow_neg]
    exact zpow_le_zpow_right₀ (by norm_num) hexp
  have hpos : (0 : ℚ) < 2 ^ ulpExp q := by positivity
  have hdist : |nearestEven (q / 2 ^ ulpExp q) * 2 ^ ulpExp q - q| ≤ 1 / 2 ^ (k + 1) := by
    have hscaled := abs_nearestEven_sub_le (q / 2 ^ ulpExp q)
    calc |nearestEven (q / 2 ^ ulpExp q) * 2 ^ ulpExp q - q|
        = |(nearestEven (q / 2 ^ ulpExp q) : ℚ) - q / 2 ^ ulpExp q| * 2 ^ ulpExp q := by
          rw [← abs_of_pos hpos, ← abs_mul, abs_of_pos hpos, sub_mul,
            div_mul_cancel₀ q hpos.ne']
      _ ≤ 1 / 2 * (1 / 2 ^ k) := mul_le_mul hscaled hulp hpos.le (by norm_num)
      _ = 1 / 2 ^ (k + 1) := by
          rw [pow_succ]
          ring
  refine ⟨nearestEven (q / 2 ^ ulpExp q) * 2 ^ ulpExp q, if_neg ?_, hdist⟩
  -- far from an overflow
  have hsmall : (2 : ℚ) ^ (53 - k) ≤ 2 ^ 53 := pow_le_pow_right₀ (by norm_num) (Nat.sub_le _ _)
  have hhalf : (1 : ℚ) / 2 ^ (k + 1) ≤ 1 := by
    rw [div_le_one (by positivity)]
    exact one_le_pow₀ (by norm_num)
  have hbig : (2 : ℚ) ^ 54 ≤ 2 ^ 1024 := pow_le_pow_right₀ (by norm_num) (by norm_num)
  have hsum : |(nearestEven (q / 2 ^ ulpExp q) : ℚ) * 2 ^ ulpExp q - q| + |q| < 2 ^ 54 := by
    have hnum : (2 : ℚ) ^ 53 + 1 < 2 ^ 54 := by norm_num
    linarith only [hdist, hhalf, h, hsmall, hnum]
  rw [not_le]
  calc |(nearestEven (q / 2 ^ ulpExp q) : ℚ) * 2 ^ ulpExp q|
      ≤ |nearestEven (q / 2 ^ ulpExp q) * 2 ^ ulpExp q - q| + |q| := by
        simpa using abs_add_le (nearestEven (q / 2 ^ ulpExp q) * 2 ^ ulpExp q - q) q
    _ < 2 ^ 1024 := hsum.trans_le hbig

theorem add_intCast {m n : ℤ} (h : |m + n| < 2 ^ 53) : add (fin m) (fin n) = fin (m + n : ℤ) := by
  rw [add, ← Int.cast_add, round_intCast h]

theorem mul_intCast {m n : ℤ} (h : |m * n| < 2 ^ 53) : mul (fin m) (fin n) = fin (m * n : ℤ) := by
  rw [mul, ← Int.cast_mul, round_intCast h]

@[simp] theorem toInt_intCast {w : ℕ} {n : ℤ} (h : -2 ^ (w - 1) ≤ n ∧ n < 2 ^ (w - 1)) :
    toInt w (fin n) = n := by
  have htrunc : truncRat n = n := by
    unfold truncRat
    split
    · exact Int.floor_intCast n
    · exact Int.ceil_intCast n
  rw [toInt, htrunc, if_pos h]

/-- A conversion delivers an integer of the target width, whatever it is applied to. -/
theorem toInt_mem {w : ℕ} (x : Double) : -2 ^ (w - 1) ≤ toInt w x ∧ toInt w x < 2 ^ (w - 1) := by
  have hpow : (0 : ℤ) < 2 ^ (w - 1) := by positivity
  cases x with
  | fin q =>
    rw [toInt]
    split
    · assumption
    · omega
  | inf => simp only [toInt]; omega
  | nan => simp only [toInt]; omega

end Double
end X3D
