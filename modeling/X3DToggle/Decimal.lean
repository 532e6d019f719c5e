import X3DToggle.Xui

/-!
# Decimal numerals

The numbers of the configuration are decimal numerals. `decimal z` is the canonical numeral of
an integer and `numeral neg ip fp` the text of a decimal number with integer digits `ip` and
fraction digits `fp`; `decimalValue` reads the number a text denotes, if it denotes one.

`xuiItoa` renders canonical numerals (`xuiItoa_eq_decimal`), `atoi` reads them back
(`atoi_decimal`), and `atof` is exact on numerals of integers an `int` can hold
(`atof_numeral`).
-/

namespace X3D

/-- The number a string of digits denotes. -/
def natValue (ds : Bytes) : ℤ := ds.foldl (fun a c => a * 10 + digit c) 0

/-- The digits of a natural number, without leading zeros. -/
def digitsText (n : ℕ) : Bytes :=
  if n = 0 then lit "0" else ((Nat.digits 10 n).map digitChar).reverse

/-- The canonical numeral of an integer. -/
def decimal (z : ℤ) : Bytes :=
  if z < 0 then chr '-' :: digitsText z.natAbs else digitsText z.natAbs

/-- A decimal number: sign, integer digits, and fraction digits if there are any. -/
def numeral (neg : Bool) (ip fp : List (Fin 10)) : Bytes :=
  (if neg then [chr '-'] else []) ++ ip.map (digitChar ·.val) ++
    (if fp = [] then [] else chr '.' :: fp.map (digitChar ·.val))

/-- The rational number a decimal text denotes. -/
def decimalValue (s : Bytes) : Option ℚ :=
  let neg := s.head? = some (chr '-')
  let p := if neg then s.tail else s
  let ip := p.takeWhile isDigit
  let sign : ℚ := if neg then -1 else 1
  if ip = [] then none
  else match p.dropWhile isDigit with
    | [] => some (sign * natValue ip)
    | c :: fp =>
      if c = chr '.' ∧ fp ≠ [] ∧ fp.all isDigit then
        some (sign * (natValue ip + natValue fp / 10 ^ fp.length))
      else none

/-! ### Digits -/

theorem isDigit_iff {c : UInt8} : isDigit c = true ↔ 48 ≤ c.toNat ∧ c.toNat ≤ 57 := by
  unfold isDigit
  rw [Bool.and_eq_true, decide_eq_true_iff, decide_eq_true_iff]
  exact Iff.rfl

theorem digit_bounds {c : UInt8} (h : isDigit c = true) : 0 ≤ digit c ∧ digit c ≤ 9 := by
  have hc := isDigit_iff.mp h
  unfold digit
  omega

/-- Read on over digits a number only grows. -/
theorem le_foldl_digit {ds : Bytes} (hds : ∀ c ∈ ds, isDigit c = true) {a : ℤ} (ha : 0 ≤ a) :
    a ≤ ds.foldl (fun a c => a * 10 + digit c) a := by
  induction ds generalizing a with
  | nil => exact le_rfl
  | cons c ds ih =>
    rw [List.forall_mem_cons] at hds
    have hc := digit_bounds hds.1
    have hstep : a ≤ a * 10 + digit c := by omega
    exact hstep.trans (ih hds.2 (by omega))

/-- What `k` digits denote. -/
theorem foldl_digit_bounds {ds : Bytes} (hds : ∀ c ∈ ds, isDigit c = true) {n : ℤ} {k : ℕ}
    (hlow : 0 ≤ n) (hhigh : n < 10 ^ k) :
    0 ≤ ds.foldl (fun a c => a * 10 + digit c) n ∧
      ds.foldl (fun a c => a * 10 + digit c) n < 10 ^ (k + ds.length) := by
  refine ⟨hlow.trans (le_foldl_digit hds hlow), ?_⟩
  induction ds generalizing n k with
  | nil => exact hhigh
  | cons c ds ih =>
    rw [List.forall_mem_cons] at hds
    have hc := digit_bounds hds.1
    have hnonneg : 0 ≤ n * 10 + digit c := by omega
    have hnext : n * 10 + digit c < 10 ^ (k + 1) := by
      rw [pow_succ]
      omega
    rw [List.length_cons, ← Nat.add_assoc, Nat.add_right_comm]
    exact ih hds.2 hnonneg hnext

/-- What a digit character is: a digit, not a blank, not a sign, and it carries its value. -/
theorem digitChar_spec : ∀ d : Fin 10, isDigit (digitChar d) ∧ isBlank (digitChar d) = false ∧
    digitChar d ≠ chr '-' ∧ digitChar d ≠ chr '+' ∧ digitChar d ≠ chr '.' ∧
    digit (digitChar d) = d.val := by
  decide

/-- A nonempty digit string of a natural number. -/
theorem exists_digitsText (n : ℕ) : ∃ ds : List (Fin 10), ds ≠ [] ∧
    digitsText n = ds.map (digitChar ·.val) := by
  unfold digitsText
  split
  · exact ⟨[0], List.cons_ne_nil _ _, rfl⟩
  · next hn =>
    have hlt : ∀ d ∈ Nat.digits 10 n, d < 10 := fun d => Nat.digits_lt_base (by norm_num)
    refine ⟨((Nat.digits 10 n).pmap Fin.mk hlt).reverse, ?_, ?_⟩
    · simpa [Nat.digits_eq_nil_iff_eq_zero] using hn
    · rw [List.map_reverse, List.map_pmap, List.pmap_eq_map]

theorem isDigit_of_mem_digitsText {n : ℕ} {c : UInt8} (h : c ∈ digitsText n) :
    isDigit c = true := by
  obtain ⟨ds, -, hds⟩ := exists_digitsText n
  rw [hds] at h
  obtain ⟨d, -, rfl⟩ := List.mem_map.mp h
  exact (digitChar_spec d).1

theorem digitsText_ne_nil {n : ℕ} : digitsText n ≠ [] := by
  obtain ⟨ds, hne, hds⟩ := exists_digitsText n
  rw [hds]
  exact fun h => hne (List.map_eq_nil_iff.mp h)

theorem exists_digitsText_eq_cons (n : ℕ) : ∃ c s, digitsText n = c :: s ∧ isDigit c = true := by
  obtain ⟨c, s, hcs⟩ := List.exists_cons_of_ne_nil (digitsText_ne_nil (n := n))
  exact ⟨c, s, hcs, isDigit_of_mem_digitsText (n := n) (hcs ▸ List.mem_cons_self)⟩

theorem natValue_append_singleton (ds : Bytes) (c : UInt8) :
    natValue (ds ++ [c]) = natValue ds * 10 + digit c := by
  unfold natValue
  rw [List.foldl_append]
  rfl

theorem natValue_digitsText (n : ℕ) : natValue (digitsText n) = n := by
  have key : ∀ n : ℕ, natValue (((Nat.digits 10 n).map digitChar).reverse) = n := by
    intro n
    induction n using Nat.strong_induction_on with
    | _ n ih =>
      rcases Nat.eq_zero_or_pos n with rfl | hpos
      · simp [natValue]
      · have hd : digit (digitChar (n % 10)) = (n % 10 : ℕ) :=
          (digitChar_spec ⟨n % 10, Nat.mod_lt _ (by norm_num)⟩).2.2.2.2.2
        rw [Nat.digits_def' (by norm_num) hpos, List.map_cons, List.reverse_cons,
          natValue_append_singleton, ih (n / 10) (Nat.div_lt_self hpos (by norm_num)), hd]
        omega
  unfold digitsText
  split
  · next hn => rw [hn]; rfl
  · exact key n

/-! ### Rendering -/

/-- The division loop writes the digits. -/
theorem utoaLoop_eq {base : ℕ} (hbase : 1 < base) (fuel n : ℕ) (s : Bytes) (h : n < base ^ fuel) :
    utoaLoop base fuel n s = ((Nat.digits base n).map digitChar).reverse ++ s := by
  induction fuel generalizing n s with
  | zero =>
    obtain rfl : n = 0 := by simpa using h
    simp [utoaLoop]
  | succ fuel ih =>
    rw [utoaLoop]
    split
    · next hn => simp [hn]
    · next hn =>
      have hdiv : n / base < base ^ fuel := by
        rw [Nat.div_lt_iff_lt_mul (by omega), ← pow_succ]
        exact h
      rw [ih _ _ hdiv, Nat.digits_def' hbase (Nat.pos_of_ne_zero hn), List.map_cons,
        List.reverse_cons, List.append_assoc]
      rfl

/-- **Rendering.** `_xui_itoa` writes the canonical numeral. -/
theorem xuiItoa_eq_decimal {z : ℤ} (h : z.natAbs < 10 ^ 64) : xuiItoa z = decimal z := by
  unfold xuiItoa decimal digitsText
  rcases lt_trichotomy z 0 with hz | rfl | hz
  · rw [if_neg hz.ne, if_pos hz, if_pos hz, if_neg (by omega), utoaLoop_eq (by norm_num) _ _ _ h,
      List.append_nil]
  · rfl
  · rw [if_neg hz.ne', if_neg hz.not_gt, if_neg hz.not_gt, if_neg (by omega),
      utoaLoop_eq (by norm_num) _ _ _ h, List.append_nil]

theorem natAbs_lt_of_isInt32 {z : ℤ} (h : IsInt32 z) : z.natAbs < 10 ^ 64 := by
  unfold IsInt32 at h
  have h1 : z.natAbs < 10 ^ 10 := by omega
  exact h1.trans_le (Nat.pow_le_pow_right (by norm_num) (by norm_num))

theorem xuiItoa_natCast {n : ℕ} (h : n < 2 ^ 31) : xuiItoa n = digitsText n := by
  rw [xuiItoa_eq_decimal (natAbs_lt_of_isInt32 ⟨by omega, by omega⟩), decimal,
    if_neg (Int.not_lt.mpr (Int.natCast_nonneg n)), Int.natAbs_natCast]

/-! ### Reading back -/

theorem dropWhile_isBlank_digits {ds : List (Fin 10)} (s : Bytes) (h : ds ≠ []) :
    (ds.map (digitChar ·.val) ++ s).dropWhile isBlank = ds.map (digitChar ·.val) ++ s := by
  cases ds with
  | nil => exact absurd rfl h
  | cons d ds =>
    rw [List.map_cons, List.cons_append, List.dropWhile_cons_of_neg]
    simp [(digitChar_spec d).2.1]

theorem wrap32_wrap32_mul_add (a d : ℤ) : wrap32 (wrap32 a * 10 + d) = wrap32 (a * 10 + d) := by
  unfold wrap32
  rw [Int.add_bmod_eq_add_bmod_right d Int.bmod_mul_bmod]

/-- The digit loop of `atoi` computes the wrapped value. -/
theorem atoiLoop_digits (ds : List (Fin 10)) (a : ℤ) :
    atoiLoop (ds.map (digitChar ·.val)) (wrap32 a) =
      wrap32 ((ds.map (digitChar ·.val)).foldl (fun a c => a * 10 + digit c) a) := by
  induction ds generalizing a with
  | nil => rfl
  | cons d ds ih =>
    rw [List.map_cons, atoiLoop, if_pos (digitChar_spec d).1, wrap32_wrap32_mul_add, ih]
    rfl

/-- **Reading back.** `atoi` inverts the canonical numeral of an `int`. -/
theorem atoi_decimal {z : ℤ} (h : IsInt32 z) : atoi (decimal z) = z := by
  obtain ⟨ds, hne, hds⟩ := exists_digitsText z.natAbs
  have hval : atoiLoop (digitsText z.natAbs) 0 = wrap32 z.natAbs := by
    have := atoiLoop_digits ds 0
    rw [← hds] at this
    rw [← natValue_digitsText z.natAbs]
    exact this
  unfold decimal
  split
  · next hz =>
    show wrap32 (-atoiLoop (digitsText z.natAbs) 0) = z
    have hneg : -((z.natAbs : ℕ) : ℤ) = z := by omega
    rw [hval, wrap32, wrap32, Int.bmod_neg_bmod, hneg]
    exact wrap32_of_isInt32 h
  · next hz =>
    have hnat : ((z.natAbs : ℕ) : ℤ) = z := by omega
    obtain ⟨d, ds, rfl⟩ := List.exists_cons_of_ne_nil hne
    rw [hds, atoi, ← List.append_nil (List.map _ _), dropWhile_isBlank_digits _ hne,
      List.append_nil, List.map_cons]
    show (if digitChar d = chr '-' then _ else atoiLoop (digitChar d :: _) 0) = z
    rw [if_neg (digitChar_spec d).2.2.1, ← List.map_cons (f := fun d : Fin 10 => digitChar d),
      ← hds, hval, hnat, wrap32_of_isInt32 h]

/-! ### The number a text denotes -/

/-- The value of a decimal number. -/
def numeralValue (neg : Bool) (ip fp : List (Fin 10)) : ℚ :=
  (if neg then -1 else 1) * (natValue (ip.map (digitChar ·.val)) +
    natValue (fp.map (digitChar ·.val)) / 10 ^ fp.length)

theorem takeWhile_isDigit (ds : List (Fin 10)) {s : Bytes} (h : s.takeWhile isDigit = []) :
    (ds.map (digitChar ·.val) ++ s).takeWhile isDigit = ds.map (digitChar ·.val) := by
  rw [List.takeWhile_append_of_pos, h, List.append_nil]
  intro c hc
  obtain ⟨d, -, rfl⟩ := List.mem_map.mp hc
  exact (digitChar_spec d).1

theorem dropWhile_isDigit (ds : List (Fin 10)) {s : Bytes} (h : s.dropWhile isDigit = s) :
    (ds.map (digitChar ·.val) ++ s).dropWhile isDigit = s := by
  rw [List.dropWhile_append_of_pos, h]
  intro c hc
  obtain ⟨d, -, rfl⟩ := List.mem_map.mp hc
  exact (digitChar_spec d).1

/-- **A numeral denotes its value.** -/
theorem decimalValue_numeral (neg : Bool) {ip : List (Fin 10)} (fp : List (Fin 10)) (h : ip ≠ []) :
    decimalValue (numeral neg ip fp) = some (numeralValue neg ip fp) := by
  -- the sign is read off the first character, which is a digit when there is none
  obtain ⟨d, ip, rfl⟩ := List.exists_cons_of_ne_nil h
  have hne : (d :: ip).map (fun d : Fin 10 => digitChar d.val) ≠ [] := List.cons_ne_nil _ _
  set tail : Bytes := if fp = [] then [] else chr '.' :: fp.map (digitChar ·.val) with htail
  have htake : tail.takeWhile isDigit = [] := by
    rw [htail]
    split <;> rfl
  have hdrop : tail.dropWhile isDigit = tail := by
    rw [htail]
    split <;> rfl
  have hhead : (numeral neg (d :: ip) fp).head? = some (chr '-') ↔ neg = true := by
    cases neg with
    | true => simp [numeral]
    | false => simp [numeral, (digitChar_spec d).2.2.1]
  have hrest : (if neg then (numeral neg (d :: ip) fp).tail else numeral neg (d :: ip) fp) =
      (d :: ip).map (digitChar ·.val) ++ tail := by
    cases neg <;> rfl
  unfold decimalValue numeralValue
  simp only [hhead, hrest, takeWhile_isDigit _ htake, dropWhile_isDigit _ hdrop, if_neg hne]
  by_cases hfp : fp = []
  · simp [htail, hfp, natValue]
  · have hdigits : (fp.map fun d : Fin 10 => digitChar d.val).all isDigit := by
      simp [List.all_map, (digitChar_spec _).1]
    rw [htail, if_neg hfp]
    simp [hfp, hdigits]

/-- A canonical numeral is a numeral without fraction digits. -/
theorem decimal_eq_numeral {z : ℤ} {ds : List (Fin 10)}
    (h : digitsText z.natAbs = ds.map (digitChar ·.val)) : decimal z = numeral (z < 0) ds [] := by
  unfold decimal numeral
  rw [h, if_pos rfl, List.append_nil]
  by_cases hz : z < 0 <;> simp [hz]

theorem decimalValue_decimal (z : ℤ) : decimalValue (decimal z) = some (z : ℚ) := by
  obtain ⟨ds, hne, hds⟩ := exists_digitsText z.natAbs
  have hnum := decimal_eq_numeral hds
  have hval : numeralValue (z < 0) ds [] = z := by
    unfold numeralValue
    rw [← hds, natValue_digitsText]
    by_cases hz : z < 0
    · have : ((z.natAbs : ℕ) : ℤ) = -z := by omega
      simp [hz, this, natValue]
    · have : ((z.natAbs : ℕ) : ℤ) = z := by omega
      simp [hz, this, natValue]
  rw [hnum, decimalValue_numeral _ _ hne, hval]

/-- Canonical numerals determine their integers. -/
theorem decimal_injective : Function.Injective decimal := by
  intro a b h
  have hab : decimalValue (decimal a) = decimalValue (decimal b) := by rw [h]
  rw [decimalValue_decimal, decimalValue_decimal] at hab
  exact_mod_cast Option.some.inj hab

/-! ### Length and characters -/

/-- The characters of a numeral. -/
theorem mem_numeral {neg : Bool} {ip fp : List (Fin 10)} {c : UInt8} (h : c ∈ numeral neg ip fp) :
    isDigit c = true ∨ c = chr '-' ∨ c = chr '.' := by
  have hdigits {ds : List (Fin 10)} (hc : c ∈ ds.map fun d : Fin 10 => digitChar d.val) :
      isDigit c = true := by
    obtain ⟨d, -, rfl⟩ := List.mem_map.mp hc
    exact (digitChar_spec d).1
  unfold numeral at h
  rcases List.mem_append.mp h with h | h
  · rcases List.mem_append.mp h with h | h
    · split at h
      · exact Or.inr (Or.inl (List.mem_singleton.mp h))
      · exact absurd h List.not_mem_nil
    · exact Or.inl (hdigits h)
  · split at h
    · exact absurd h List.not_mem_nil
    · rcases List.mem_cons.mp h with h | h
      · exact Or.inr (Or.inr h)
      · exact Or.inl (hdigits h)

/-- A numeral is one line of a string. -/
theorem notMem_numeral (neg : Bool) (ip fp : List (Fin 10)) :
    (0 : UInt8) ∉ numeral neg ip fp ∧ chr '\r' ∉ numeral neg ip fp ∧ nl ∉ numeral neg ip fp := by
  refine ⟨fun h => ?_, fun h => ?_, fun h => ?_⟩ <;> exact absurd (mem_numeral h) (by decide)

theorem length_numeral_le (neg : Bool) (ip fp : List (Fin 10)) :
    (numeral neg ip fp).length ≤ ip.length + fp.length + 2 := by
  unfold numeral
  simp only [List.length_append, List.length_map]
  have hsign : (if neg then [chr '-'] else []).length ≤ 1 := by
    split <;> decide
  have hpoint :
      (if fp = [] then [] else chr '.' :: fp.map fun d : Fin 10 => digitChar d.val).length ≤
        fp.length + 1 := by
    split
    · exact Nat.zero_le _
    · simp
  omega

theorem length_digitsText_le {n k : ℕ} (hk : 0 < k) (h : n < 10 ^ k) :
    (digitsText n).length ≤ k := by
  unfold digitsText
  by_cases hn : n = 0
  · rw [if_pos hn]
    exact hk
  · rw [if_neg hn, List.length_reverse, List.length_map, Nat.digits_length_le_iff (by norm_num)]
    exact h

theorem length_decimal_le {z : ℤ} (h : IsInt32 z) : (decimal z).length ≤ 12 := by
  have hdigits : (digitsText z.natAbs).length ≤ 10 := by
    unfold IsInt32 at h
    exact length_digitsText_le (by norm_num) (by omega)
  obtain ⟨ds, -, hds⟩ := exists_digitsText z.natAbs
  rw [hds, List.length_map] at hdigits
  have hle := length_numeral_le (z < 0) ds []
  rw [← decimal_eq_numeral hds, List.length_nil] at hle
  omega

/-! ### `atof` on whole numbers -/

/-- The value of a digit string read on from `a`. -/
def readOn (a : ℤ) (ds : List (Fin 10)) : ℤ := ds.foldl (fun a d => a * 10 + d.val) a

theorem foldl_digit_map (a : ℤ) (ds : List (Fin 10)) :
    (ds.map (digitChar ·.val)).foldl (fun a c => a * 10 + digit c) a = readOn a ds := by
  unfold readOn
  rw [List.foldl_map]
  congr 1
  funext a d
  rw [(digitChar_spec d).2.2.2.2.2]

theorem natValue_map (ds : List (Fin 10)) : natValue (ds.map (digitChar ·.val)) = readOn 0 ds :=
  foldl_digit_map 0 ds

theorem le_readOn {a : ℤ} (h : 0 ≤ a) (ds : List (Fin 10)) : a ≤ readOn a ds := by
  rw [← foldl_digit_map]
  exact le_foldl_digit (List.forall_mem_map.mpr fun d _ => (digitChar_spec d).1) h

theorem mul_pow_le_readOn {a : ℤ} (h : 0 ≤ a) (ds : List (Fin 10)) :
    a * 10 ^ ds.length ≤ readOn a ds := by
  induction ds generalizing a with
  | nil => rw [List.length_nil, pow_zero, mul_one]; exact le_rfl
  | cons d ds ih =>
    calc a * 10 ^ (d :: ds).length = a * 10 * 10 ^ ds.length := by
          rw [List.length_cons, pow_succ']
          ring
      _ ≤ (a * 10 + d.val) * 10 ^ ds.length :=
          mul_le_mul_of_nonneg_right (by omega) (by positivity)
      _ ≤ readOn (a * 10 + d.val) ds := ih (by omega)

theorem readOn_append (a : ℤ) (ds es : List (Fin 10)) :
    readOn a (ds ++ es) = readOn (readOn a ds) es :=
  List.foldl_append

/-- `atoi` reads a digit string that an `int` can hold. -/
theorem atoi_digits {ds : List (Fin 10)} (h : readOn 0 ds < 2 ^ 31) :
    atoi (ds.map (digitChar ·.val)) = readOn 0 ds := by
  have hrange : IsInt32 (readOn 0 ds) := by
    have hnonneg := le_readOn (le_refl 0) ds
    exact ⟨by omega, by omega⟩
  cases ds with
  | nil => rfl
  | cons d ds =>
    have hval := atoiLoop_digits (d :: ds) 0
    change atoiLoop _ 0 = wrap32 (natValue _) at hval
    rw [natValue_map, wrap32_of_isInt32 hrange] at hval
    rw [atoi, ← List.append_nil (List.map _ _), dropWhile_isBlank_digits _ (List.cons_ne_nil _ _),
      List.append_nil, List.map_cons]
    show (if digitChar d = chr '-' then _ else atoiLoop (digitChar d :: _) 0) = _
    rw [if_neg (digitChar_spec d).2.2.1, ← hval, List.map_cons]

/-- What is left of a numeral that was cut is a smaller number. -/
theorem atoi_take_digitsText {k : ℕ} (hk : k < 2 ^ 31) (j : ℕ) :
    atoi ((digitsText k).take j) ≤ k ∧
      (atoi ((digitsText k).take j) = k → 0 < k → (digitsText k).length ≤ j) := by
  obtain ⟨ds, -, hds⟩ := exists_digitsText k
  have hwhole : readOn 0 ds = k := by
    rw [← natValue_map, ← hds, natValue_digitsText]
  have hsplit : readOn 0 (ds.take j) * 10 ^ (ds.drop j).length ≤ k := by
    have hnonneg := le_readOn (le_refl 0) (ds.take j)
    calc readOn 0 (ds.take j) * 10 ^ (ds.drop j).length
        ≤ readOn (readOn 0 (ds.take j)) (ds.drop j) := mul_pow_le_readOn hnonneg _
      _ = readOn 0 (ds.take j ++ ds.drop j) := (readOn_append 0 _ _).symm
      _ = k := by rw [List.take_append_drop, hwhole]
  have hnonneg := le_readOn (le_refl 0) (ds.take j)
  have hpow : (1 : ℤ) ≤ 10 ^ (ds.drop j).length := one_le_pow₀ (by norm_num)
  have hle : readOn 0 (ds.take j) ≤ k :=
    (le_mul_of_one_le_right hnonneg hpow).trans hsplit
  rw [hds, ← List.map_take, atoi_digits (by omega), List.length_map]
  refine ⟨hle, fun heq hpos => ?_⟩
  by_contra hlong
  -- a digit is missing, so the number is at least ten times what is left
  have hten : (10 : ℤ) ≤ 10 ^ (ds.drop j).length := by
    rw [List.length_drop]
    exact le_self_pow₀ (by norm_num) (by omega)
  rw [heq] at hsplit
  nlinarith

/-- The integer digits are accumulated without rounding while the value stays below `2 ^ 53`. -/
theorem atofLoop_digits (ds : List (Fin 10)) {a : ℤ} (h : 0 ≤ a) (hlt : readOn a ds < 2 ^ 53)
    (s : Bytes) :
    atofLoop (ds.map (digitChar ·.val) ++ s) (.fin a) (.fin 1) false =
      atofLoop s (.fin (readOn a ds)) (.fin 1) false := by
  induction ds generalizing a with
  | nil => rfl
  | cons d ds ih =>
    have hle : a * 10 + (d.val : ℤ) ≤ readOn (a * 10 + d.val) ds := le_readOn (by omega) ds
    have hlt' : readOn (a * 10 + d.val) ds < 2 ^ 53 := hlt
    -- one round: `res * 10.0` and the addition of the digit are both exact
    have hstep : ((Double.fin a).mul ten).add (.fin (digit (digitChar d.val))) =
        .fin ((a * 10 + d.val : ℤ) : ℚ) := by
      rw [(digitChar_spec d).2.2.2.2.2, ten, show (10 : ℚ) = ((10 : ℤ) : ℚ) by norm_num,
        Double.mul_intCast (by rw [abs_of_nonneg (by omega)]; omega),
        Double.add_intCast (by rw [abs_of_nonneg (by omega)]; omega)]
    rw [List.map_cons, List.cons_append, atofLoop, if_pos (digitChar_spec d).1,
      if_neg Bool.false_ne_true, hstep, ih (by omega) hlt']
    rfl

/-- The weight of the next place is a number again. -/
theorem exists_mul_tenth {q : ℚ} (hq : |q| ≤ 1) :
    ∃ r, (Double.fin q).mul tenth = .fin r ∧ |r| ≤ 1 := by
  obtain ⟨t, ht, htdist⟩ := Double.exists_round_eq (q := 1 / 10) (k := 50) (by norm_num)
    (by norm_num [abs_of_pos])
  have htle : |t| ≤ 1 / 2 := by
    rw [abs_le] at htdist ⊢
    norm_num at htdist ⊢
    constructor <;> linarith
  have hle : |q * t| ≤ 1 / 2 := by
    rw [abs_mul]
    calc |q| * |t| ≤ 1 * (1 / 2) := mul_le_mul hq htle (abs_nonneg t) one_pos.le
      _ = 1 / 2 := one_mul _
  obtain ⟨r, hr, hrdist⟩ := Double.exists_round_eq (q := q * t) (k := 50) (by norm_num)
    (hle.trans_lt (by norm_num))
  refine ⟨r, ?_, ?_⟩
  · rw [tenth, ht, Double.mul, hr]
  · rw [abs_le] at hle hrdist ⊢
    norm_num at hle hrdist ⊢
    constructor <;> linarith

/-- Zeros after the point do not change the result. -/
theorem atofLoop_zeros {fp : List (Fin 10)} (hlen : fp.length ≤ 2) (hzero : ∀ d ∈ fp, d = 0)
    {n : ℤ} (h : |n| < 2 ^ 53) :
    atofLoop (fp.map (digitChar ·.val)) (.fin n) (.fin 1) true = .fin n := by
  -- the weights of the first two places are finite, so nothing is added to the result
  have hadd : ∀ q : ℚ, (Double.fin n).add ((Double.fin ((0 : ℤ) : ℚ)).mul (.fin q)) = .fin n := by
    intro q
    have hmul : (Double.fin ((0 : ℤ) : ℚ)).mul (.fin q) = .fin ((0 : ℤ) : ℚ) := by
      rw [Double.mul, Int.cast_zero, zero_mul]
      exact_mod_cast Double.round_intCast (n := 0) (by norm_num)
    rw [hmul, Double.add_intCast (by simpa using h), add_zero]
  obtain ⟨q, hq, hle⟩ := exists_mul_tenth (q := 1) (by norm_num)
  obtain ⟨q', hq', -⟩ := exists_mul_tenth hle
  rcases fp with _ | ⟨d, _ | ⟨d', _ | ⟨d'', fp⟩⟩⟩
  · rfl
  · obtain rfl := hzero d (by simp)
    show (Double.fin n).add ((Double.fin ((0 : ℤ) : ℚ)).mul ((Double.fin 1).mul tenth)) = _
    rw [hq, hadd]
  · obtain rfl := hzero d (by simp)
    obtain rfl := hzero d' (by simp)
    show ((Double.fin n).add ((Double.fin ((0 : ℤ) : ℚ)).mul ((Double.fin 1).mul tenth))).add
      ((Double.fin ((0 : ℤ) : ℚ)).mul (((Double.fin 1).mul tenth).mul tenth)) = _
    rw [hq, hadd, hq', hadd]
  · simp at hlen

/-- At most two fraction digits add a whole number only if they are zeros. -/
theorem fraction_zero {fp : List (Fin 10)} (hlen : fp.length ≤ 2) {m : ℤ}
    (h : (readOn 0 fp : ℚ) / 10 ^ fp.length = m) : m = 0 ∧ ∀ d ∈ fp, d = 0 := by
  have hmul : readOn 0 fp = m * 10 ^ fp.length := by
    rw [div_eq_iff (by positivity)] at h
    exact_mod_cast h
  match fp, hlen with
  | [], _ => exact ⟨by simpa [readOn] using hmul.symm, by simp⟩
  | [d], _ =>
    simp only [readOn, List.foldl_cons, List.foldl_nil, List.length_singleton] at hmul
    refine ⟨by omega, ?_⟩
    simp only [List.mem_singleton, forall_eq]
    omega
  | [d, d'], _ =>
    simp only [readOn, List.foldl_cons, List.foldl_nil, List.length_cons, List.length_nil] at hmul
    refine ⟨by omega, ?_⟩
    simp only [List.mem_cons, List.not_mem_nil, or_false, forall_eq_or_imp, forall_eq]
    omega

/-- **`atof` is exact on whole numbers.** If a decimal number with at most two fraction digits
is an integer an `int` can hold, the cast of its `atof` is that integer. -/
theorem toInt_atof_numeral {neg : Bool} {ip fp : List (Fin 10)} (hip : ip ≠ [])
    (hlen : fp.length ≤ 2) {z : ℤ} (hz : IsInt32 z) (hval : numeralValue neg ip fp = z) :
    (atof (numeral neg ip fp)).toInt 32 = z := by
  set n : ℤ := readOn 0 ip with hn
  -- the fraction is zero, and `n` is `z` up to the sign
  have hfrac : (readOn 0 fp : ℚ) / 10 ^ fp.length = ((if neg then -z else z) - n : ℤ) := by
    unfold numeralValue at hval
    rw [natValue_map, natValue_map] at hval
    cases neg <;> simp only [Bool.false_eq_true, if_true, if_false] at hval ⊢ <;> push_cast <;>
      linarith
  obtain ⟨hsign, hzero⟩ := fraction_zero hlen hfrac
  have hn0 : 0 ≤ n := le_readOn le_rfl ip
  have hsmall : n < 2 ^ 53 := by
    unfold IsInt32 at hz
    cases neg <;> simp only [Bool.false_eq_true, if_true, if_false] at hsign <;> omega
  have habs : |n| < 2 ^ 53 := by rwa [abs_of_nonneg hn0]
  have hloop : atofLoop (ip.map (digitChar ·.val) ++
      (if fp = [] then [] else chr '.' :: fp.map (digitChar ·.val))) (.fin 0) (.fin 1) false =
      .fin n := by
    rw [show (Double.fin 0) = .fin ((0 : ℤ) : ℚ) by norm_num, atofLoop_digits ip le_rfl hsmall]
    split
    · rfl
    · show atofLoop (fp.map (digitChar ·.val)) (.fin n) (.fin 1) true = _
      exact atofLoop_zeros hlen hzero habs
  obtain ⟨d, ip, rfl⟩ := List.exists_cons_of_ne_nil hip
  unfold IsInt32 at hz
  cases neg with
  | true =>
    simp only [if_true] at hsign
    show (atofLoop ((d :: ip).map (digitChar ·.val) ++ _) (.fin 0) (.fin 1) false).neg.toInt 32 = z
    rw [hloop, Double.neg, ← Int.cast_neg, Double.toInt_intCast (by omega)]
    omega
  | false =>
    simp only [Bool.false_eq_true, if_false] at hsign
    have hblank : (numeral false (d :: ip) fp).dropWhile isBlank = numeral false (d :: ip) fp := by
      unfold numeral
      rw [if_neg Bool.false_ne_true, List.nil_append, dropWhile_isBlank_digits _ hip]
    rw [atof, hblank]
    show (if digitChar d = chr '-' then _ else atofLoop _ (.fin 0) (.fin 1) false).toInt 32 = z
    rw [if_neg (digitChar_spec d).2.2.1]
    show (atofLoop ((d :: ip).map (digitChar ·.val) ++ _) (.fin 0) (.fin 1) false).toInt 32 = z
    rw [hloop, Double.toInt_intCast (by omega)]
    omega

/-! ### Decimal numbers in canonical form -/

/-- A decimal number without superfluous zeros in front and with at most two fraction digits. -/
def IsDecimal (v : Bytes) : Prop :=
  ∃ neg ip fp, v = numeral neg ip fp ∧ ip ≠ [] ∧ (ip.head? = some 0 → ip.length = 1) ∧
    fp.length ≤ 2

/-- A canonical numeral of a number an `int` can hold is short. -/
theorem length_le_of_isInt32 {neg : Bool} {ip fp : List (Fin 10)} (hip : ip ≠ [])
    (hlead : ip.head? = some 0 → ip.length = 1) {z : ℤ} (hz : IsInt32 z)
    (hval : numeralValue neg ip fp = z) : ip.length ≤ 10 := by
  have hle : readOn 0 ip ≤ 2 ^ 31 := by
    have hfrac : (0 : ℚ) ≤ readOn 0 fp / 10 ^ fp.length := by
      have h0 : (0 : ℚ) ≤ readOn 0 fp := by exact_mod_cast le_readOn le_rfl fp
      positivity
    unfold numeralValue at hval
    unfold IsInt32 at hz
    rw [natValue_map, natValue_map] at hval
    have hlow : (-2 ^ 31 : ℚ) ≤ z := by exact_mod_cast hz.1
    have hhigh : (z : ℚ) < 2 ^ 31 := by exact_mod_cast hz.2
    have hq : (readOn 0 ip : ℚ) ≤ 2 ^ 31 := by
      cases neg <;> simp only [Bool.false_eq_true, if_true, if_false] at hval <;> linarith
    exact_mod_cast hq
  obtain ⟨d, ds, rfl⟩ := List.exists_cons_of_ne_nil hip
  by_cases hd : d = 0
  · have := hlead (by rw [hd, List.head?_cons])
    omega
  · -- a leading digit that counts makes the number at least a power of ten
    have hpos : (1 : ℤ) ≤ d.val := by
      have : d.val ≠ 0 := fun h => hd (Fin.ext h)
      omega
    have hpow : (10 : ℤ) ^ ds.length ≤ readOn 0 (d :: ds) :=
      calc (10 : ℤ) ^ ds.length = 1 * 10 ^ ds.length := (one_mul _).symm
        _ ≤ d.val * 10 ^ ds.length := mul_le_mul_of_nonneg_right hpos (by positivity)
        _ ≤ readOn d.val ds := mul_pow_le_readOn (by omega) ds
        _ = readOn 0 (d :: ds) := by simp [readOn]
    have hlt : (10 : ℤ) ^ ds.length < 10 ^ 10 := by omega
    have := (pow_lt_pow_iff_right₀ (by norm_num : (1 : ℤ) < 10)).mp hlt
    rw [List.length_cons]
    omega

end X3D
