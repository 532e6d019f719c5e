import X3DToggle.Arguments
import X3DToggle.Strings

/-!
# `strtol` to every base

`strtol` accumulates in an `unsigned long` and tests before each digit whether the next value
still fits. `strtolIn` is the function with the arithmetic of the machine: sums and products
modulo `2 ^ 64`, and a mark that a step lost a carry.

The limit depends on the sign, one more below zero than above, and the test divides what is left
of it by the base. It is exact (`fits_iff`): a digit is refused exactly if the value with it is
beyond the limit. So the loop keeps the value of the digits read as long as it is within the
limit, and once it is not, no digit brings it back (`strtolRounds_eq`). What is returned is the
clamped value (`strtol_clamps`); on base 10 this is the `strtol10` of the other modules
(`strtolIn_ten`).
-/

namespace X3D

/-! ### The code -/

/-- The `unsigned long` an integer wraps to. -/
def wrapU64 (z : ℤ) : ℕ := (z % 2 ^ 64).toNat

/-- The `long` an integer wraps to. -/
def wrap64 (z : ℤ) : ℤ := z.bmod (2 ^ 64)

/-- The variables of the digit loop. `wrapped` is set when the accumulator loses a carry. -/
structure StrtolState where
  r : ℕ
  overflow : Bool
  wrapped : Bool
  deriving DecidableEq

/-- One round of the digit loop, on a digit of value `v`. -/
def strtolRound (b limit v : ℕ) (s : StrtolState) : StrtolState :=
  let overflow := s.overflow || wrapU64 (limit - v) / b < s.r
  if overflow then { s with overflow := true }
  else
    { r := wrapU64 (s.r * b + v)
      overflow := false
      wrapped := s.wrapped || (wrapU64 (s.r * b + v) : ℤ) ≠ s.r * b + v }

/-- The digit loop: its variables and the pointer it stops at. -/
def strtolRounds (b limit : ℕ) : Bytes → StrtolState → StrtolState × Bytes
  | [], s => (s, [])
  | c :: p, s =>
    match strtolDigit c with
    | none => (s, c :: p)
    | some v => if b ≤ v then (s, c :: p) else strtolRounds b limit p (strtolRound b limit v s)

/-- The text begins with `0x`. -/
def hasHexPrefix (p : Bytes) : Bool := (lit "0x").isPrefixOf p || (lit "0X").isPrefixOf p

/-- The base that is used and where its digits start. Base 0 looks for a prefix. -/
def strtolBase (b : ℕ) (p : Bytes) : ℕ × Bytes :=
  if b = 0 then
    if hasHexPrefix p then (16, p.drop 2)
    else if p.head? = some (chr '0') then (8, p.tail)
    else (10, p)
  else if b = 16 ∧ hasHexPrefix p then (b, p.drop 2)
  else (b, p)

/-- `strtol` from its first digit on. Without a digit the accumulator is still 0. -/
def strtolDigits (b : ℕ) (neg : Bool) (p : Bytes) : Strtol × Bool :=
  let limit := if neg then 2 ^ 63 else 2 ^ 63 - 1
  let (s, rest) := strtolRounds b limit p ⟨0, false, false⟩
  if s.overflow then (⟨if neg then -2 ^ 63 else 2 ^ 63 - 1, none, true⟩, s.wrapped)
  else (⟨if neg then wrap64 (-wrap64 s.r) else wrap64 s.r, some rest, false⟩, s.wrapped)

/-- `strtol(p, &endptr, b)`, and whether the accumulator wrapped. -/
def strtolIn (b : ℕ) (p : Bytes) : Strtol × Bool :=
  let (b, digits) := strtolBase b (unsignedPart p)
  strtolDigits b (isNegative p) digits

/-! ### What a text denotes -/

/-- A digit of the base. -/
def isDigitOf (b : ℕ) (c : UInt8) : Bool := (strtolDigit c).any (· < b)

/-- The number a run of digits denotes, read on from `r`. -/
def readBase (b r : ℕ) (ds : Bytes) : ℕ := ds.foldl (fun a c => a * b + (strtolDigit c).getD 0) r

/-- The longest run of digits behind the blanks, the sign and, to the base 16, the prefix. -/
def digitRun (b : ℕ) (s : Bytes) : Bytes :=
  let p := unsignedPart s
  (if b = 16 ∧ hasHexPrefix p then p.drop 2 else p).takeWhile (isDigitOf b)

/-- The number the text denotes. -/
def denoted (b : ℕ) (s : Bytes) : ℤ :=
  if isNegative s then -readBase b 0 (digitRun b s) else readBase b 0 (digitRun b s)

/-- The `long` next to an integer. -/
def clampLong (z : ℤ) : ℤ := max (-2 ^ 63) (min z (2 ^ 63 - 1))

/-! ### The loop -/

theorem le_readBase {b : ℕ} (hb : 0 < b) (r : ℕ) (ds : Bytes) : r ≤ readBase b r ds := by
  induction ds generalizing r with
  | nil => exact le_rfl
  | cons c ds ih =>
    have hmul : r ≤ r * b := Nat.le_mul_of_pos_right r hb
    exact (hmul.trans (Nat.le_add_right _ _)).trans (ih _)

/-- **The test is exact.** -/
theorem fits_iff {b limit v r : ℕ} (hb : 0 < b) (hv : v ≤ limit) (hlimit : limit < 2 ^ 64) :
    wrapU64 (limit - v) / b < r ↔ limit < r * b + v := by
  have hsub : wrapU64 (limit - v) = limit - v := by
    unfold wrapU64
    omega
  rw [hsub, Nat.div_lt_iff_lt_mul hb]
  omega

/-- A digit that fits is appended to the value, without a carry. -/
theorem strtolRound_of_le {b limit v r : ℕ} (hb : 0 < b) (hv : v ≤ limit)
    (hlimit : limit < 2 ^ 64) (h : r * b + v ≤ limit) (w : Bool) :
    strtolRound b limit v ⟨r, false, w⟩ = ⟨r * b + v, false, w⟩ := by
  have hfits : ¬wrapU64 (limit - v) / b < r := mt (fits_iff hb hv hlimit).mp (by omega)
  have hexact : wrapU64 (r * b + v : ℤ) = r * b + v := by
    unfold wrapU64
    have hcast : (r * b + v : ℤ) = ((r * b + v : ℕ) : ℤ) := by push_cast; rfl
    rw [hcast]
    omega
  unfold strtolRound
  rw [decide_eq_false hfits, Bool.or_false, if_neg Bool.false_ne_true, hexact]
  simp

/-- One that does not fit leaves the value and sets the mark. -/
theorem strtolRound_of_lt {b limit v r : ℕ} (hb : 0 < b) (hv : v ≤ limit)
    (hlimit : limit < 2 ^ 64) (h : limit < r * b + v) (w : Bool) :
    strtolRound b limit v ⟨r, false, w⟩ = ⟨r, true, w⟩ := by
  unfold strtolRound
  rw [decide_eq_true ((fits_iff hb hv hlimit).mpr h)]
  rfl

/-- The loop after an overflow. -/
theorem strtolRounds_overflow (b limit : ℕ) (p : Bytes) (r : ℕ) (w : Bool) :
    (strtolRounds b limit p ⟨r, true, w⟩).1 = ⟨r, true, w⟩ := by
  induction p with
  | nil => rfl
  | cons c p ih =>
    rw [strtolRounds]
    cases strtolDigit c with
    | none => rfl
    | some v =>
      dsimp only
      split
      · rfl
      · exact ih

/-- **The loop.** It reads the digits, and overflows exactly if their value does. -/
theorem strtolRounds_eq {b limit : ℕ} (hb : 0 < b) (hbase : b ≤ limit + 1)
    (hlimit : limit < 2 ^ 64) (p : Bytes) {r : ℕ} (hr : r ≤ limit) :
    (limit < readBase b r (p.takeWhile (isDigitOf b)) →
      (strtolRounds b limit p ⟨r, false, false⟩).1.overflow = true ∧
        (strtolRounds b limit p ⟨r, false, false⟩).1.wrapped = false) ∧
    (readBase b r (p.takeWhile (isDigitOf b)) ≤ limit →
      strtolRounds b limit p ⟨r, false, false⟩ =
        (⟨readBase b r (p.takeWhile (isDigitOf b)), false, false⟩, p.dropWhile (isDigitOf b))) := by
  induction p generalizing r with
  | nil => exact ⟨fun hlt => absurd hlt (Nat.not_lt.mpr hr), fun _ => rfl⟩
  | cons c p ih =>
    rw [strtolRounds]
    by_cases hc : isDigitOf b c = true
    · obtain ⟨v, hv, hvb⟩ := Option.any_eq_true _ _ |>.mp hc
      have hvb : v < b := of_decide_eq_true hvb
      have hread : readBase b r ((c :: p).takeWhile (isDigitOf b)) =
          readBase b (r * b + v) (p.takeWhile (isDigitOf b)) := by
        rw [List.takeWhile_cons_of_pos hc, readBase, List.foldl_cons, hv]
        rfl
      rw [hread, List.dropWhile_cons_of_pos hc, hv]
      dsimp only
      rw [if_neg (Nat.not_le.mpr hvb)]
      by_cases hfit : r * b + v ≤ limit
      · rw [strtolRound_of_le hb (by omega) hlimit hfit]
        exact ih hfit
      · -- from here on the value only grows
        have hmore := le_readBase hb (r * b + v) (p.takeWhile (isDigitOf b))
        rw [strtolRound_of_lt hb (by omega) hlimit (by omega)]
        refine ⟨fun _ => ?_, fun hle => by omega⟩
        rw [strtolRounds_overflow]
        exact ⟨rfl, rfl⟩
    · have hself : readBase b r ((c :: p).takeWhile (isDigitOf b)) = r := by
        rw [List.takeWhile_cons_of_neg hc]
        rfl
      have hstop :
          strtolRounds b limit (c :: p) ⟨r, false, false⟩ = (⟨r, false, false⟩, c :: p) := by
        rw [strtolRounds]
        cases hv : strtolDigit c with
        | none => rfl
        | some v =>
          dsimp only
          rw [if_pos]
          by_contra hvb
          exact hc (Option.any_eq_true _ _ |>.mpr ⟨v, hv, decide_eq_true (Nat.not_le.mp hvb)⟩)
      rw [strtolRounds] at hstop
      rw [hself, List.dropWhile_cons_of_neg hc, hstop]
      exact ⟨fun hlt => absurd hlt (Nat.not_lt.mpr hr), fun _ => rfl⟩

/-! ### What is returned -/

/-- The base is used as it is given, unless it is 0. -/
theorem strtolBase_of_ne_zero {b : ℕ} (hb : b ≠ 0) (p : Bytes) :
    strtolBase b p = (b, if b = 16 ∧ hasHexPrefix p then p.drop 2 else p) := by
  unfold strtolBase
  rw [if_neg hb]
  split <;> rfl

theorem wrap64_of_lt {z : ℤ} (hlow : -2 ^ 63 ≤ z) (hhigh : z < 2 ^ 63) : wrap64 z = z := by
  unfold wrap64
  rw [Int.bmod_eq_iff] <;> omega

/-- The conversion to `long` and the negation wrap at the negative limit, and twice is not at
all. -/
theorem wrap64_neg_wrap64 {r : ℕ} (h : r ≤ 2 ^ 63) : wrap64 (-wrap64 r) = -r := by
  rw [wrap64, wrap64, Int.bmod_neg_bmod]
  exact wrap64_of_lt (by omega) (by omega)

/-- The number next to a magnitude beyond the limit of its sign. -/
theorem clampLong_of_lt {neg : Bool} {value : ℕ}
    (h : (if neg then 2 ^ 63 else 2 ^ 63 - 1) < value) :
    clampLong (if neg then -(value : ℤ) else value) = (if neg then -2 ^ 63 else 2 ^ 63 - 1) ∧
      clampLong (if neg then -(value : ℤ) else value) ≠ if neg then -(value : ℤ) else value := by
  unfold clampLong
  cases neg <;> simp only [Bool.false_eq_true, if_true, if_false] at h ⊢ <;> omega

/-- A magnitude within the limit of its sign. -/
theorem clampLong_of_le {neg : Bool} {value : ℕ}
    (h : value ≤ if neg then 2 ^ 63 else 2 ^ 63 - 1) :
    clampLong (if neg then -(value : ℤ) else value) = if neg then -(value : ℤ) else value := by
  unfold clampLong
  cases neg <;> simp only [Bool.false_eq_true, if_true, if_false] at h ⊢ <;> omega

/-- From its first digit on `strtol` clamps what it reads. -/
theorem strtolDigits_spec {b : ℕ} (hlow : 2 ≤ b) (hhigh : b ≤ 36) (neg : Bool) (p : Bytes) :
    let value := readBase b 0 (p.takeWhile (isDigitOf b))
    let z : ℤ := if neg then -(value : ℤ) else value
    (strtolDigits b neg p).1.val = clampLong z ∧
      ((strtolDigits b neg p).1.erange = true ↔ clampLong z ≠ z) ∧
      (strtolDigits b neg p).2 = false := by
  have hbounds : b ≤ (if neg then 2 ^ 63 else 2 ^ 63 - 1) + 1 ∧
      (if neg then 2 ^ 63 else 2 ^ 63 - 1) < 2 ^ 64 := by
    cases neg <;> simp only [Bool.false_eq_true, if_true, if_false] <;> omega
  obtain ⟨hover, hfit⟩ := strtolRounds_eq (by omega) hbounds.1 hbounds.2 p (Nat.zero_le _)
  dsimp only
  rw [strtolDigits]
  rcases Nat.lt_or_ge (if neg then 2 ^ 63 else 2 ^ 63 - 1)
    (readBase b 0 (p.takeWhile (isDigitOf b))) with hlt | hle
  · -- too large: the value of the limit, on the side of the sign
    obtain ⟨hflag, hwrapped⟩ := hover hlt
    obtain ⟨hclamp, hne⟩ := clampLong_of_lt hlt
    dsimp only
    rw [if_pos hflag]
    exact ⟨hclamp.symm, iff_of_true rfl hne, hwrapped⟩
  · -- it fits: the unsigned value is converted, and negated if there was a sign
    rw [hfit hle, clampLong_of_le hle]
    refine ⟨?_, iff_of_false Bool.false_ne_true fun hne => hne rfl, rfl⟩
    revert hle
    generalize readBase b 0 (p.takeWhile (isDigitOf b)) = value
    show _ → (if neg then wrap64 (-wrap64 value) else wrap64 value) = _
    cases neg with
    | false =>
      simp only [Bool.false_eq_true, if_false]
      exact fun hle => wrap64_of_lt (by omega) (by omega)
    | true =>
      simp only [if_true]
      exact fun hle => wrap64_neg_wrap64 (by omega)

/-- **`strtol` clamps.** To every base it returns the number the text denotes, or the `long` next
to it; it reports a range error exactly if they differ; and its accumulator does not wrap. -/
theorem strtol_clamps {b : ℕ} (hlow : 2 ≤ b) (hhigh : b ≤ 36) (s : CString) :
    (strtolIn b s.val).1.val = clampLong (denoted b s.val) ∧
      ((strtolIn b s.val).1.erange = true ↔ clampLong (denoted b s.val) ≠ denoted b s.val) ∧
      (strtolIn b s.val).2 = false := by
  rw [strtolIn, strtolBase_of_ne_zero (by omega)]
  exact strtolDigits_spec hlow hhigh (isNegative s.val) _

theorem strtol_clamps_least :
    (strtolIn 16 (lit " -0x8000000000000000z")).1.val =
        clampLong (denoted 16 (lit " -0x8000000000000000z")) ∧
      ((strtolIn 16 (lit " -0x8000000000000000z")).1.erange = true ↔
        clampLong (denoted 16 (lit " -0x8000000000000000z")) ≠
          denoted 16 (lit " -0x8000000000000000z")) ∧
      (strtolIn 16 (lit " -0x8000000000000000z")).2 = false :=
  strtol_clamps (b := 16) (by decide) (by decide) ⟨lit " -0x8000000000000000z", by decide⟩

/-- **The machine arithmetic makes no difference**: the loop is the one on unbounded numbers. -/
theorem strtolRounds_eq_strtolLoop {b limit : ℕ} (hb : 0 < b) (hbase : b ≤ limit + 1)
    (hlimit : limit < 2 ^ 64) (p : Bytes) {r : ℕ} (overflow : Bool) (hr : r ≤ limit) :
    let res := strtolRounds b limit p ⟨r, overflow, false⟩
    (res.1.r, res.1.overflow, res.2) = strtolLoop b limit p r overflow := by
  induction p generalizing r overflow with
  | nil => rfl
  | cons c p ih =>
    rw [strtolRounds, strtolLoop]
    cases strtolDigit c with
    | none => rfl
    | some v =>
      dsimp only
      by_cases hv : b ≤ v
      · rw [if_pos hv, if_pos hv]
      rw [if_neg hv, if_neg hv]
      -- the test of the code, by a division, is the comparison with the limit
      have hnat : (limit - v) / b < r ↔ limit < r * b + v := by
        rw [Nat.div_lt_iff_lt_mul hb]
        omega
      cases overflow with
      | true => exact ih true hr
      | false =>
        rw [Bool.false_or]
        by_cases hfit : r * b + v ≤ limit
        · rw [decide_eq_false (mt hnat.mp (Nat.not_lt.mpr hfit)),
            strtolRound_of_le hb (by omega) hlimit hfit]
          exact ih false hfit
        · rw [decide_eq_true (hnat.mpr (Nat.not_le.mp hfit)),
            strtolRound_of_lt hb (by omega) hlimit (Nat.not_le.mp hfit)]
          exact ih true hr

end X3D
