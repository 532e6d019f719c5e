import X3DToggle.Decimal
import X3DToggle.Strings

/-!
# Rendering numbers in place

`_xui_itoa` and `_xui_utoa` write the digits of a number from the last one to the first, then the
sign, then the terminator, and `_xui_rev` turns the buffer round. The callers give them 32 bytes.

The digits a loop writes are `Nat.digits` (`utoaFill_eq`), and swapping from both ends reverses
(`content_xuiRev`), so the buffer holds the canonical numeral (`utoa_exact`, `itoa_exact`).
`atoi` reads it back, but it builds the magnitude before it looks at the sign: the magnitude of
the least `int` is no `int` (`atoiChecked_decimal_iff`).
-/

namespace X3D

/-! ### The code -/

/-- `t = s[i]; s[i] = s[j]; s[j] = t`. -/
def swapBytes (i j : ℕ) (s : Slots UInt8) : Slots UInt8 :=
  ((s.touch i).copy id i j).write j (s.cell i)

/-- `for (i = 0, j = len - 1; i < j; i++, j--)`, from `i` and `j` on. -/
def xuiRevLoop : ℕ → ℕ → ℕ → Slots UInt8 → Slots UInt8
  | 0, _, _, s => s
  | fuel + 1, i, j, s => if i < j then xuiRevLoop fuel (i + 1) (j - 1) (swapBytes i j s) else s

/-- `_xui_rev(s, len)`. -/
def xuiRev (s : Slots UInt8) (len : ℕ) : Slots UInt8 := xuiRevLoop len 0 (len - 1) s

/-- `while (n != 0)` of `_xui_utoa`, with the next digit to be written at `i`. -/
def utoaFill (base : ℕ) : ℕ → ℕ → ℕ → Slots UInt8 → ℕ × Slots UInt8
  | 0, _, i, s => (i, s)
  | fuel + 1, n, i, s =>
    if n = 0 then (i, s)
    else utoaFill base fuel (n / base) (i + 1) (s.write i (digitChar (n % base)))

/-- `_xui_utoa(n, s, base)`: what it returns and leaves. -/
def xuiUtoaAt (n base : ℕ) (s : Slots UInt8) : ℕ × Slots UInt8 :=
  if n = 0 then (1, (s.write 0 (chr '0')).write 1 0)
  else
    let (i, s) := utoaFill base 64 n 0 s
    (i, xuiRev (s.write i 0) i)

/-- `(r > 9) ? (r - 10) + 'a' : r + '0'`, as a `char`. -/
def itoaChar (r : ℤ) : UInt8 := UInt8.ofInt (if 9 < r then r - 10 + 97 else r + 48)

/-- `while (n != 0)` of `_xui_itoa`; division truncates. -/
def itoaFill (base : ℤ) : ℕ → ℤ → ℕ → Slots UInt8 → ℕ × Slots UInt8
  | 0, _, i, s => (i, s)
  | fuel + 1, n, i, s =>
    if n = 0 then (i, s)
    else itoaFill base fuel (n.tdiv base) (i + 1) (s.write i (itoaChar (n.tmod base)))

/-- `_xui_itoa(n, s, base)`: what it returns and leaves. -/
def xuiItoaAt (n base : ℤ) (s : Slots UInt8) : ℕ × Slots UInt8 :=
  if n = 0 then (1, (s.write 0 (chr '0')).write 1 0)
  else
    let neg : Bool := n < 0 ∧ base = 10
    let (i, s) := itoaFill base 64 (if neg then -n else n) 0 s
    let (i, s) := if neg then (i + 1, s.write i (chr '-')) else (i, s)
    (i, xuiRev (s.write i 0) i)

/-- The digit loop of `atoi`, without a result if it leaves the range of `int`. -/
def atoiLoopChecked : Bytes → ℤ → Option ℤ
  | [], n => some n
  | c :: p, n =>
    if isDigit c then
      if IsInt32 (n * 10) ∧ IsInt32 (n * 10 + digit c) then atoiLoopChecked p (n * 10 + digit c)
      else none
    else some n

/-- `atoi`, without a result if a step leaves the range of `int`. -/
def atoiChecked (p : Bytes) : Option ℤ :=
  match p.dropWhile isBlank with
  | [] => some 0
  | c :: p =>
    if c = chr '-' then (atoiLoopChecked p 0).bind fun n => if IsInt32 (-n) then some (-n) else none
    else atoiLoopChecked (c :: p) 0

/-! ### Reversing -/

/-- What a cell holds after the loop: inside the range, what its mirror image held. -/
theorem xuiRevLoop_cell {fuel i j : ℕ} (hfuel : j < i + 2 * fuel + 1) (s : Slots UInt8) (k : ℕ) :
    (xuiRevLoop fuel i j s).cell k = if i ≤ k ∧ k ≤ j then s.cell (i + j - k) else s.cell k := by
  induction fuel generalizing i j s with
  | zero =>
    rw [xuiRevLoop]
    split
    · congr 1
      omega
    · rfl
  | succ fuel ih =>
    rw [xuiRevLoop]
    by_cases hij : i < j
    · rw [if_pos hij, ih (by omega)]
      have hcell : (swapBytes i j s).cell =
          Function.update (Function.update s.cell i (s.cell j)) j (s.cell i) := rfl
      rw [hcell]
      -- the two ends are swapped here, what is between them by the rest of the loop
      by_cases hinner : i + 1 ≤ k ∧ k ≤ j - 1
      · rw [if_pos hinner, if_pos (by omega), Function.update_of_ne (by omega),
          Function.update_of_ne (by omega)]
        congr 1
        omega
      · rw [if_neg hinner]
        rcases eq_or_ne k j with rfl | hkj
        · rw [Function.update_self, if_pos (by omega)]
          congr 1
          omega
        rw [Function.update_of_ne hkj]
        rcases eq_or_ne k i with rfl | hki
        · rw [Function.update_self, if_pos (by omega)]
          congr 1
          omega
        · rw [Function.update_of_ne hki, if_neg (by omega)]
    · rw [if_neg hij]
      split
      · congr 1
        omega
      · rfl

theorem xuiRevLoop_inBounds {fuel i j : ℕ} {s : Slots UInt8} (h : s.InBounds) (hj : j < s.cap) :
    (xuiRevLoop fuel i j s).InBounds := by
  induction fuel generalizing i j s with
  | zero => exact h
  | succ fuel ih =>
    rw [xuiRevLoop]
    split
    next hij =>
      refine ih ?_ ?_
      · unfold swapBytes
        simp only [Slots.inBounds_write, Slots.inBounds_copy, Slots.inBounds_touch,
          Slots.touch_cap, Slots.copy_cap]
        exact ⟨⟨⟨⟨h, hij.trans hj⟩, hj⟩, hij.trans hj⟩, hj⟩
      · show j - 1 < s.cap
        omega
    next => exact h

/-- **Reversing in place.** -/
theorem content_xuiRev (s : Slots UInt8) (len : ℕ) :
    (xuiRev s len).content len = (s.content len).reverse := by
  refine List.ext_getElem (by simp) fun k hk hk' => ?_
  rw [Slots.length_content] at hk
  rw [Slots.getElem_content, List.getElem_reverse, Slots.getElem_content, xuiRev,
    xuiRevLoop_cell (by omega), if_pos (by omega)]
  simp only [Slots.length_content]
  congr 1
  omega

/-! ### Rendering -/

/-- The canonical numeral of a number to a base: its digits, without leading zeros. -/
def baseText (base n : ℕ) : Bytes :=
  if n = 0 then lit "0" else ((Nat.digits base n).map digitChar).reverse

theorem baseText_ten (n : ℕ) : baseText 10 n = digitsText n := rfl

/-- Only the numeral of zero begins with a zero. -/
theorem baseText_head {base n : ℕ} (hone : 1 < base) (hbase : base ≤ 36)
    (h : (baseText base n).head? = some (chr '0')) : n = 0 := by
  by_contra hn
  have hne : Nat.digits base n ≠ [] := Nat.digits_ne_nil_iff_ne_zero.mpr hn
  have hlast : (Nat.digits base n).getLast hne ≠ 0 := Nat.getLast_digit_ne_zero base hn
  have hlt : (Nat.digits base n).getLast hne < base :=
    Nat.digits_lt_base hone (List.getLast_mem hne)
  rw [baseText, if_neg hn, List.head?_reverse, List.getLast?_map,
    List.getLast?_eq_getLast_of_ne_nil hne, Option.map_some, Option.some_inj] at h
  have hall : ∀ d : Fin 36, digitChar d.val = chr '0' → d.val = 0 := by decide
  exact hlast (hall ⟨_, hlt.trans_le hbase⟩ h)

/-- The loop writes the digits in a row, the last one first. -/
theorem utoaFill_eq {base : ℕ} (hbase : 1 < base) {fuel n : ℕ} (hfuel : n < base ^ fuel) (i : ℕ)
    (s : Slots UInt8) : utoaFill base fuel n i s =
      (i + (Nat.digits base n).length, s.writeList i ((Nat.digits base n).map digitChar)) := by
  induction fuel generalizing n i s with
  | zero =>
    obtain rfl : n = 0 := by simpa using hfuel
    rw [Nat.digits_zero]
    rfl
  | succ fuel ih =>
    rw [utoaFill]
    by_cases hn : n = 0
    · rw [if_pos hn, hn, Nat.digits_zero]
      rfl
    · have hdiv : n / base < base ^ fuel := by
        rw [Nat.div_lt_iff_lt_mul (by omega), ← pow_succ]
        exact hfuel
      rw [if_neg hn, ih hdiv, Nat.digits_def' hbase (Nat.pos_of_ne_zero hn), List.length_cons,
        List.map_cons, Slots.writeList_cons, Nat.add_assoc, Nat.add_comm 1]

/-- On numbers that are not negative the two loops do the same. -/
theorem itoaFill_natCast {base : ℕ} (hbase : base ≤ 36) (hpos : 0 < base) (fuel n i : ℕ)
    (s : Slots UInt8) : itoaFill base fuel n i s = utoaFill base fuel n i s := by
  induction fuel generalizing n i s with
  | zero => rfl
  | succ fuel ih =>
    have hchar : itoaChar ((n : ℤ).tmod base) = digitChar (n % base) := by
      have hlt : n % base < base := Nat.mod_lt n hpos
      have hmod : (n : ℤ).tmod base = (n % base : ℕ) := (Int.natCast_emod n base).symm ▸
        Int.tmod_eq_emod_of_nonneg (Int.natCast_nonneg n)
      have hall : ∀ r : Fin 36, itoaChar r.val = digitChar r.val := by decide
      rw [hmod]
      exact hall ⟨n % base, by omega⟩
    have hdiv : (n : ℤ).tdiv base = (n / base : ℕ) := (Int.natCast_ediv n base).symm ▸
      Int.tdiv_eq_ediv_of_nonneg (Int.natCast_nonneg n)
    rw [itoaFill, utoaFill]
    by_cases hn : n = 0
    · rw [if_pos hn, if_pos (by exact_mod_cast hn)]
    · rw [if_neg hn, if_neg (by exact_mod_cast hn), hchar, hdiv, ih]

/-- The last steps of the two functions: terminate what was written and reverse it. -/
theorem holds_xuiRev {s : Slots UInt8} {i : ℕ} {text : Bytes} (hi : 0 < i)
    (htext : s.content i = text.reverse) (hbounds : s.InBounds) (hcap : i < s.cap) :
    (xuiRev (s.write i 0) i).Holds text ∧ (xuiRev (s.write i 0) i).InBounds := by
  have hlen : text.length = i := by
    have := congrArg List.length htext
    rwa [Slots.length_content, List.length_reverse, eq_comm] at this
  refine ⟨⟨?_, ?_⟩, ?_⟩
  · have hbelow : (s.write i 0).content i = s.content i :=
      s.content_writeList_of_le le_rfl [0]
    rw [hlen, content_xuiRev, hbelow, htext, List.reverse_reverse]
  · rw [hlen, xuiRev, xuiRevLoop_cell (by omega), if_neg (by omega)]
    exact Function.update_self _ _ _
  · refine xuiRevLoop_inBounds ((Slots.inBounds_write s i 0).mpr ⟨hbounds, hcap⟩) ?_
    show i - 1 < s.cap
    omega

/-- The claim on `_xui_itoa(n, s, 10)`, in a buffer of 32 bytes. -/
def ItoaExact (n : ℤ) : Prop :=
  ∀ mem, let r := xuiItoaAt n 10 (.block mem 32)
    r.1 = (decimal n).length ∧ r.2.Holds (decimal n) ∧ r.2.InBounds

/-- The claim on `_xui_utoa(n, s, base)`, in a buffer of 32 bytes. -/
def UtoaExact (n base : ℕ) : Prop :=
  ∀ mem, let r := xuiUtoaAt n base (.block mem 32)
    r.1 = (baseText base n).length ∧ r.2.Holds (baseText base n) ∧ r.2.InBounds

/-- The numeral of zero is written as it is. -/
theorem holds_zero (mem : ℕ → UInt8) :
    (((Slots.block mem 32).write 0 (chr '0')).write 1 0).Holds (lit "0") ∧
      (((Slots.block mem 32).write 0 (chr '0')).write 1 0).InBounds := by
  refine ⟨Slots.holds_writeList (.block mem 32) (lit "0"), ?_⟩
  rw [Slots.inBounds_write, Slots.inBounds_write]
  exact ⟨⟨Slots.inBounds_block mem 32, Nat.zero_lt_succ 31⟩, Nat.one_lt_succ_succ 30⟩

/-- The digits of a number in a buffer of 32 bytes. -/
theorem digits_written (mem : ℕ → UInt8) {base n : ℕ} (hlen : (Nat.digits base n).length ≤ 20) :
    let s := (Slots.block mem 32).writeList 0 ((Nat.digits base n).map digitChar)
    s.content (Nat.digits base n).length = (Nat.digits base n).map digitChar ∧ s.InBounds := by
  have hcontent := (Slots.block mem 32).content_writeList 0 ((Nat.digits base n).map digitChar)
  rw [Nat.zero_add, List.length_map] at hcontent
  refine ⟨hcontent, (Slots.inBounds_block mem 32).writeList ?_⟩
  rw [List.length_map, Nat.zero_add]
  exact hlen.trans (show 20 ≤ 32 by decide)

/-- **`_xui_utoa` is exact** to the bases 10 and 16. -/
theorem utoa_exact {n base : ℕ} (hn : n < 2 ^ 64) (hbase : base = 10 ∨ base = 16) :
    UtoaExact n base := by
  intro mem
  have hone : 1 < base := by omega
  have hlen : (Nat.digits base n).length ≤ 20 := by
    rw [Nat.digits_length_le_iff hone]
    rcases hbase with rfl | rfl <;> omega
  have hfuel : n < base ^ 64 := hn.trans_le (Nat.pow_le_pow_left hone 64)
  unfold xuiUtoaAt baseText
  by_cases hzero : n = 0
  · rw [if_pos hzero, if_pos hzero]
    exact ⟨rfl, holds_zero mem⟩
  rw [if_neg hzero, if_neg hzero, utoaFill_eq hone hfuel, Nat.zero_add]
  have hpos : 0 < (Nat.digits base n).length :=
    List.length_pos_iff.mpr (Nat.digits_ne_nil_iff_ne_zero.mpr hzero)
  obtain ⟨hcontent, hbounds⟩ := digits_written mem hlen
  refine ⟨by rw [List.length_reverse, List.length_map], ?_⟩
  refine holds_xuiRev hpos (hcontent.trans (List.reverse_reverse _).symm) hbounds ?_
  rw [Slots.writeList_cap]
  exact hlen.trans_lt (show 20 < 32 by decide)

/-- The magnitude is written digit by digit. -/
theorem itoaFill_natAbs {n : ℤ} (h : IsInt32 n) (s : Slots UInt8) :
    itoaFill 10 64 (n.natAbs : ℤ) 0 s = ((Nat.digits 10 n.natAbs).length,
      s.writeList 0 ((Nat.digits 10 n.natAbs).map digitChar)) := by
  have hfill := itoaFill_natCast (by decide : 10 ≤ 36) (by decide) 64 n.natAbs 0 s
  rwa [utoaFill_eq (by decide) (natAbs_lt_of_isInt32 h), Nat.zero_add] at hfill

/-- **`_xui_itoa` is exact** on 32-bit numbers. -/
theorem itoa_exact {n : ℤ} (h : IsInt32 n) : ItoaExact n := by
  intro mem
  have hlen : (Nat.digits 10 n.natAbs).length ≤ 20 := by
    obtain ⟨hlow, hhigh⟩ := h
    rw [Nat.digits_length_le_iff (by decide)]
    omega
  unfold xuiItoaAt
  by_cases hzero : n = 0
  · rw [if_pos hzero, hzero]
    exact ⟨rfl, holds_zero mem⟩
  rw [if_neg hzero]
  have habs : (if decide (n < 0 ∧ (10 : ℤ) = 10) = true then -n else n) = (n.natAbs : ℤ) := by
    simp only [and_true, decide_eq_true_eq]
    split <;> omega
  have hpos : 0 < (Nat.digits 10 n.natAbs).length :=
    List.length_pos_iff.mpr (Nat.digits_ne_nil_iff_ne_zero.mpr (by omega))
  have hdigits : digitsText n.natAbs = ((Nat.digits 10 n.natAbs).map digitChar).reverse :=
    if_neg (by omega)
  obtain ⟨hcontent, hbounds⟩ := digits_written mem hlen
  dsimp only
  rw [habs, itoaFill_natAbs h]
  by_cases hneg : n < 0
  · -- the sign is written behind the digits
    rw [if_pos (by simpa using hneg), decimal, if_pos hneg, hdigits]
    refine ⟨by rw [List.length_cons, List.length_reverse, List.length_map], ?_⟩
    refine holds_xuiRev (Nat.succ_pos _) ?_ ?_ ?_
    · rw [Slots.content_write_self, hcontent, List.reverse_cons, List.reverse_reverse]
    · rw [Slots.inBounds_write, Slots.writeList_cap]
      exact ⟨hbounds, hlen.trans_lt (show 20 < 32 by decide)⟩
    · rw [Slots.write_cap, Slots.writeList_cap]
      exact (Nat.succ_le_succ hlen).trans_lt (show 21 < 32 by decide)
  · rw [if_neg (by simpa using hneg), decimal, if_neg hneg, hdigits]
    refine ⟨by rw [List.length_reverse, List.length_map], ?_⟩
    refine holds_xuiRev hpos (hcontent.trans (List.reverse_reverse _).symm) hbounds ?_
    rw [Slots.writeList_cap]
    exact hlen.trans_lt (show 20 < 32 by decide)

/-! ### Reading back -/

/-- Where no digit is, nothing is read. -/
theorem atoiLoopChecked_of_head {p : Bytes} (hp : ∀ c ∈ p.head?, isDigit c = false) (a : ℤ) :
    atoiLoopChecked p a = some a := by
  cases p with
  | nil => rfl
  | cons c p =>
    rw [atoiLoopChecked, hp c rfl]
    rfl

/-- Without overflow the digits of a number are read to their end. -/
theorem atoiLoopChecked_append {ds p : Bytes} {a : ℤ} (hds : ∀ c ∈ ds, isDigit c = true)
    (hp : ∀ c ∈ p.head?, isDigit c = false) (ha : 0 ≤ a)
    (hfit : ds.foldl (fun a c => a * 10 + digit c) a < 2 ^ 31) :
    atoiLoopChecked (ds ++ p) a = some (ds.foldl (fun a c => a * 10 + digit c) a) := by
  induction ds generalizing a with
  | nil => exact atoiLoopChecked_of_head hp a
  | cons c ds ih =>
    rw [List.forall_mem_cons] at hds
    rw [List.foldl_cons] at hfit ⊢
    have hc := digit_bounds hds.1
    have hnext : a * 10 + digit c ≤ ds.foldl (fun a c => a * 10 + digit c) (a * 10 + digit c) :=
      le_foldl_digit hds.2 (by omega)
    rw [List.cons_append, atoiLoopChecked, if_pos hds.1,
      if_pos ⟨⟨by omega, by omega⟩, ⟨by omega, by omega⟩⟩, ih hds.2 (by omega) hfit]

theorem atoiLoopChecked_digits {ds : List (Fin 10)} {a : ℤ} (ha : 0 ≤ a)
    (h : readOn a ds < 2 ^ 31) :
    atoiLoopChecked (ds.map (digitChar ·.val)) a = some (readOn a ds) := by
  have hds : ∀ c ∈ ds.map (digitChar ·.val), isDigit c = true :=
    List.forall_mem_map.mpr fun d _ => (digitChar_spec d).1
  have hend : ∀ c ∈ ([] : Bytes).head?, isDigit c = false := fun c hc =>
    absurd hc (Option.not_mem_none c)
  rw [← foldl_digit_map] at h ⊢
  have hread := atoiLoopChecked_append hds hend ha h
  rwa [List.append_nil] at hread

/-- A result of the checked loop is the number the digits continue to. -/
theorem eq_foldl_of_atoiLoopChecked {p : Bytes} {a b : ℤ} (h : atoiLoopChecked p a = some b) :
    b = (p.takeWhile isDigit).foldl (fun w c => w * 10 + digit c) a := by
  induction p generalizing a with
  | nil => exact (Option.some.inj h).symm
  | cons c p ih =>
    rw [atoiLoopChecked] at h
    by_cases hc : isDigit c = true
    · rw [if_pos hc] at h
      by_cases hfit : IsInt32 (a * 10) ∧ IsInt32 (a * 10 + digit c)
      · rw [if_pos hfit] at h
        rw [List.takeWhile_cons_of_pos hc, List.foldl_cons]
        exact ih h
      · rw [if_neg hfit] at h
        exact absurd h.symm (Option.some_ne_none _)
    · rw [if_neg hc] at h
      rw [List.takeWhile_cons_of_neg hc]
      exact (Option.some.inj h).symm

/-- A result of the checked loop is the result of the loop. -/
theorem atoiLoop_of_atoiLoopChecked {p : Bytes} {n z : ℤ} (h : atoiLoopChecked p n = some z) :
    atoiLoop p n = z := by
  induction p generalizing n with
  | nil => exact Option.some.inj h
  | cons c p ih =>
    rw [atoiLoopChecked] at h
    rw [atoiLoop]
    by_cases hc : isDigit c = true
    · rw [if_pos hc] at h ⊢
      by_cases hfit : IsInt32 (n * 10) ∧ IsInt32 (n * 10 + digit c)
      · rw [if_pos hfit] at h
        rw [wrap32_of_isInt32 hfit.2]
        exact ih h
      · rw [if_neg hfit] at h
        exact absurd h.symm (Option.some_ne_none z)
    · rw [if_neg hc] at h ⊢
      exact Option.some.inj h

/-- A result of the checked run is the result of `atoi`. -/
theorem atoi_of_atoiChecked {p : Bytes} {z : ℤ} (h : atoiChecked p = some z) : atoi p = z := by
  unfold atoiChecked at h
  unfold atoi
  cases hp : p.dropWhile isBlank with
  | nil =>
    rw [hp] at h
    exact Option.some.inj h
  | cons c p' =>
    rw [hp] at h
    dsimp only at h ⊢
    by_cases hc : c = chr '-'
    · rw [if_pos hc] at h ⊢
      obtain ⟨n, hn, hneg⟩ := Option.bind_eq_some_iff.mp h
      rw [atoiLoop_of_atoiLoopChecked hn]
      by_cases hfit : IsInt32 (-n)
      · rw [if_pos hfit] at hneg
        rw [wrap32_of_isInt32 hfit]
        exact Option.some.inj hneg
      · rw [if_neg hfit] at hneg
        exact absurd hneg.symm (Option.some_ne_none z)
    · rw [if_neg hc] at h ⊢
      exact atoiLoop_of_atoiLoopChecked h

/-- **Reading back** stays in range exactly if the magnitude is an `int`. -/
theorem atoiChecked_decimal_iff {n : ℤ} (h : IsInt32 n) :
    atoiChecked (decimal n) = some n ↔ n ≠ -2 ^ 31 := by
  obtain ⟨hlow, hhigh⟩ := h
  constructor
  · rintro hread rfl
    exact absurd hread (by decide)
  intro hmin
  obtain ⟨ds, hne, hds⟩ := exists_digitsText n.natAbs
  have hvalue : readOn 0 ds = n.natAbs := by
    rw [← natValue_map, ← hds, natValue_digitsText]
  -- the digits are those of the magnitude, which is an `int` by now
  have hloop : atoiLoopChecked (digitsText n.natAbs) 0 = some (n.natAbs : ℤ) := by
    rw [hds, atoiLoopChecked_digits le_rfl (by omega), hvalue]
  unfold decimal
  by_cases hneg : n < 0
  · have habs : -(n.natAbs : ℤ) = n := by omega
    rw [if_pos hneg]
    show (atoiLoopChecked (digitsText n.natAbs) 0).bind _ = _
    rw [hloop, Option.bind_some, habs]
    exact if_pos ⟨hlow, hhigh⟩
  · have habs : (n.natAbs : ℤ) = n := by omega
    obtain ⟨d, ds, rfl⟩ := List.exists_cons_of_ne_nil hne
    -- without a sign `atoi` looks at the first digit
    have hblank := dropWhile_isBlank_digits [] hne
    rw [List.append_nil, ← hds] at hblank
    rw [if_neg hneg, atoiChecked, hblank, hds, List.map_cons]
    show (if digitChar d = chr '-' then _ else atoiLoopChecked (digitChar d :: _) 0) = _
    rw [if_neg (digitChar_spec d).2.2.1, ← List.map_cons (f := fun d : Fin 10 => digitChar d),
      ← hds, hloop, habs]

/-- **Exact numbers.** Rendering is exact on every number, and reading back stays in range
except on the least `int`. -/
theorem numbers_exact_iff {n : ℤ} (hn : IsInt32 n) {m base : ℕ} (hm : m < 2 ^ 64)
    (hbase : base = 10 ∨ base = 16) :
    ItoaExact n ∧ UtoaExact m base ∧ atoiChecked (decimal n) = some n ↔ n ≠ -2 ^ 31 := by
  rw [← atoiChecked_decimal_iff hn]
  exact ⟨fun hall => hall.2.2, fun hread => ⟨itoa_exact hn, utoa_exact hm hbase, hread⟩⟩

theorem numbers_exact_iff_answer :
    ItoaExact (-42) ∧ UtoaExact 255 16 ∧ atoiChecked (decimal (-42)) = some (-42) ↔
      (-42 : ℤ) ≠ -2 ^ 31 :=
  numbers_exact_iff (by decide) (by decide) (Or.inr rfl)

/-- The least `int` is read with an overflow. -/
theorem least_int_overflows :
    ¬∀ n : ℤ, IsInt32 n → ∀ m < 2 ^ 64, ∀ base, base = 10 ∨ base = 16 →
      ItoaExact n ∧ UtoaExact m base ∧ atoiChecked (decimal n) = some n := by
  intro h
  have hread := (h (-2 ^ 31) (by decide) 0 (by decide) 10 (Or.inl rfl)).2.2
  exact absurd hread (by decide)

end X3D
