import X3DToggle.Decimal
import X3DToggle.Settings

/-!
# Numeric arguments

Five requests carry an integer for the hardware. Each branch calls `strtol` and checks the end
pointer it leaves, so what the branch accepts is decided by two habits of `strtol`:

* it writes the end pointer behind the blanks and the sign even if no digit follows. The check
  `endptr == s` looks for a pointer that has not moved, so a lone sign or a run of blanks
  passes as the number 0;
* on overflow it does not write the end pointer at all. Four of the five checks read through
  it before they look at `errno`.

`strtol10_eq` says what `strtol` leaves in terms of the parts of the text, and
`validated_iff` when a branch accepts exactly the numerals it should.
-/

namespace X3D

/-! ### The parts of a text -/

/-- The sign is a minus. -/
def isNegative (s : Bytes) : Bool := (s.dropWhile isBlank).head? = some (chr '-')

/-- What follows the blanks and the sign. -/
def unsignedPart (s : Bytes) : Bytes :=
  let p := s.dropWhile isBlank
  if p.head? = some (chr '-') ∨ p.head? = some (chr '+') then p.tail else p

/-- The digits after the blanks and the sign. -/
def digitsOf (s : Bytes) : Bytes := (unsignedPart s).takeWhile isDigit

/-- What follows the digits. -/
def restOf (s : Bytes) : Bytes := (unsignedPart s).dropWhile isDigit

/-- The number the digits denote, with its sign. -/
def valueOf (s : Bytes) : ℤ :=
  if isNegative s then -natValue (digitsOf s) else natValue (digitsOf s)

/-- The digits denote a number beyond a `long` of this sign. -/
def Overflows (s : Bytes) : Prop :=
  (if isNegative s then 2 ^ 63 else 2 ^ 63 - 1 : ℤ) < natValue (digitsOf s)

instance (s : Bytes) : Decidable (Overflows s) := inferInstanceAs (Decidable (_ < _))

/-! ### The digit loop -/

/-- The number read so far, as the loop of `strtol` accumulates it. -/
def readNat (r : ℕ) (ds : Bytes) : ℕ := ds.foldl (fun a c => a * 10 + (c.toNat - 48)) r

theorem le_readNat (r : ℕ) (ds : Bytes) : r ≤ readNat r ds := by
  induction ds generalizing r with
  | nil => exact le_refl r
  | cons c ds ih =>
    have hstep := ih (r * 10 + (c.toNat - 48))
    exact le_trans (by omega) hstep

theorem natCast_readNat {ds : Bytes} (h : ∀ c ∈ ds, isDigit c = true) :
    (readNat 0 ds : ℤ) = natValue ds := by
  have hgen : ∀ (ds : Bytes) (r : ℕ), (∀ c ∈ ds, isDigit c = true) →
      (readNat r ds : ℤ) = ds.foldl (fun a c => a * 10 + digit c) (r : ℤ) := by
    intro ds
    induction ds with
    | nil => exact fun _ _ => rfl
    | cons c ds ih =>
      intro r hds
      have hc := isDigit_iff.mp (hds c List.mem_cons_self)
      have hr : ((r * 10 + (c.toNat - 48) : ℕ) : ℤ) = (r : ℤ) * 10 + digit c := by
        unfold digit
        omega
      rw [List.foldl_cons, ← hr]
      exact ih _ fun c' hc' => hds c' (List.mem_cons_of_mem c hc')
  exact hgen ds 0 h

/-- In base 10 a letter stops the loop as any other character does. -/
theorem strtolLoop_cons (limit : ℕ) (c : UInt8) (p : Bytes) (r : ℕ) (overflow : Bool) :
    strtolLoop 10 limit (c :: p) r overflow =
      if isDigit c then
        strtolLoop 10 limit p
          (if overflow || (limit - (c.toNat - 48)) / 10 < r then r else r * 10 + (c.toNat - 48))
          (overflow || (limit - (c.toNat - 48)) / 10 < r)
      else (r, overflow, c :: p) := by
  rw [strtolLoop, strtolDigit]
  by_cases hc : isDigit c = true
  · have hdigit := isDigit_iff.mp hc
    have hlt : ¬10 ≤ c.toNat - 48 := by omega
    simp only [hc, if_true, hlt, if_false]
  · -- a letter counts ten at least
    simp only [hc, Bool.false_eq_true, if_false]
    split
    · rfl
    next v hv =>
      have hten : 10 ≤ v := by
        split at hv
        · obtain rfl := Option.some.inj hv
          omega
        · split at hv
          · obtain rfl := Option.some.inj hv
            omega
          · exact absurd hv (by simp)
      rw [if_pos hten]

/-- The loop after an overflow. -/
theorem strtolLoop_true (limit : ℕ) (p : Bytes) (r : ℕ) :
    (strtolLoop 10 limit p r true).2.1 = true := by
  induction p generalizing r with
  | nil => rfl
  | cons c p ih =>
    rw [strtolLoop_cons]
    split
    · exact ih _
    · rfl

/-- **The loop.** It reads the digits and overflows if their value does. -/
theorem strtolLoop_eq {limit r : ℕ} (hlimit : 9 ≤ limit) (hr : r ≤ limit) (p : Bytes) :
    if limit < readNat r (p.takeWhile isDigit) then (strtolLoop 10 limit p r false).2.1 = true
    else strtolLoop 10 limit p r false =
      (readNat r (p.takeWhile isDigit), false, p.dropWhile isDigit) := by
  induction p generalizing r with
  | nil => exact if_neg (not_lt.mpr hr) ▸ rfl
  | cons c p ih =>
    rw [strtolLoop_cons]
    by_cases hc : isDigit c = true
    · have hdigit := isDigit_iff.mp hc
      have hread : readNat r ((c :: p).takeWhile isDigit) =
          readNat (r * 10 + (c.toNat - 48)) (p.takeWhile isDigit) := by
        rw [List.takeWhile_cons_of_pos hc]
        rfl
      have hover : (limit - (c.toNat - 48)) / 10 < r ↔ limit < r * 10 + (c.toNat - 48) := by
        rw [Nat.div_lt_iff_lt_mul (by omega)]
        omega
      rw [if_pos hc, hread, List.dropWhile_cons_of_pos hc, Bool.false_or]
      by_cases hlt : limit < r * 10 + (c.toNat - 48)
      · -- this digit is one too many
        have hmore := le_readNat (r * 10 + (c.toNat - 48)) (p.takeWhile isDigit)
        rw [decide_eq_true (hover.mpr hlt), if_pos (lt_of_lt_of_le hlt hmore)]
        exact strtolLoop_true _ _ _
      · rw [decide_eq_false (mt hover.mp hlt), if_neg Bool.false_ne_true]
        exact ih (not_lt.mp hlt)
    · have hself : readNat r ((c :: p).takeWhile isDigit) = r := by
        rw [List.takeWhile_cons_of_neg hc]
        rfl
      rw [if_neg hc, hself, List.dropWhile_cons_of_neg hc, if_neg (not_lt.mpr hr)]

/-- The code in terms of the parts of the text. -/
theorem strtol10_loop (s : Bytes) (r : ℕ) (overflow : Bool) (rest : Bytes)
    (h : strtolLoop 10 (if isNegative s then 2 ^ 63 else 2 ^ 63 - 1) (unsignedPart s) 0 false =
      (r, overflow, rest)) :
    strtol10 s =
      if overflow then ⟨if isNegative s then -2 ^ 63 else 2 ^ 63 - 1, none, true⟩
      else ⟨if isNegative s then -r else r, some rest, false⟩ := by
  unfold unsignedPart isNegative at h
  unfold strtol10 isNegative
  simp only [decide_eq_true_eq] at h ⊢
  rw [h]
  cases overflow <;> rfl

/-- **What `strtol` leaves.** -/
theorem strtol10_eq (s : Bytes) :
    strtol10 s =
      if Overflows s then ⟨if isNegative s then -2 ^ 63 else 2 ^ 63 - 1, none, true⟩
      else ⟨valueOf s, some (restOf s), false⟩ := by
  set limit : ℕ := if isNegative s then 2 ^ 63 else 2 ^ 63 - 1 with hlimit
  have hnine : 9 ≤ limit := by
    rw [hlimit]
    split <;> norm_num
  have hloop : if limit < readNat 0 (digitsOf s) then
      (strtolLoop 10 limit (unsignedPart s) 0 false).2.1 = true
      else strtolLoop 10 limit (unsignedPart s) 0 false =
        (readNat 0 (digitsOf s), false, restOf s) :=
    strtolLoop_eq hnine (Nat.zero_le _) (unsignedPart s)
  have hvalue : (readNat 0 (digitsOf s) : ℤ) = natValue (digitsOf s) :=
    natCast_readNat fun c hc => List.mem_takeWhile_imp hc
  -- overflow of the text is overflow of the loop, with the limit of its sign
  have hover : Overflows s ↔ limit < readNat 0 (digitsOf s) := by
    unfold Overflows
    rw [← hvalue, hlimit]
    split <;> omega
  by_cases h : Overflows s
  · have hflag : (strtolLoop 10 limit (unsignedPart s) 0 false).2.1 = true := by
      rwa [if_pos (hover.mp h)] at hloop
    rcases hp : strtolLoop 10 limit (unsignedPart s) 0 false with ⟨r, overflow, rest⟩
    rw [hp] at hflag
    obtain rfl : overflow = true := hflag
    rw [strtol10_loop s r true rest hp, if_pos h, if_pos rfl]
  · have heq : strtolLoop 10 limit (unsignedPart s) 0 false =
        (readNat 0 (digitsOf s), false, restOf s) := by
      rwa [if_neg (mt hover.mpr h)] at hloop
    rw [strtol10_loop s _ _ _ heq, if_neg Bool.false_ne_true, if_neg h, valueOf, ← hvalue]

/-! ### Numerals -/

/-- A numeral with a tail: blanks, a sign, digits, and then `trail`. It denotes the `int` `n`. -/
def IntText (s trail : Bytes) (n : ℤ) : Prop :=
  ∃ blanks sign digits : Bytes, s = blanks ++ (sign ++ (digits ++ trail)) ∧
    blanks.all isBlank ∧ (sign = [] ∨ sign = [chr '-'] ∨ sign = [chr '+']) ∧
    digits ≠ [] ∧ digits.all isDigit ∧
    n = (if sign = [chr '-'] then -natValue digits else natValue digits) ∧ IsInt32 n

theorem not_isBlank_of_isDigit {c : UInt8} (h : isDigit c = true) : isBlank c = false := by
  have hc := isDigit_iff.mp h
  unfold isBlank
  rw [Bool.or_eq_false_iff, decide_eq_false_iff_not, decide_eq_false_iff_not]
  constructor <;> rintro rfl <;> exact absurd hc (by decide)

theorem ne_sign_of_isDigit {c : UInt8} (h : isDigit c = true) : c ≠ chr '-' ∧ c ≠ chr '+' := by
  have hc := isDigit_iff.mp h
  constructor <;> rintro rfl <;> exact absurd hc (by decide)

/-- The parts of a text that begins with blanks, a sign and a digit. -/
theorem parts_eq {blanks sign digits : Bytes} (hblanks : ∀ c ∈ blanks, isBlank c = true)
    (hsign : sign = [] ∨ sign = [chr '-'] ∨ sign = [chr '+']) (hne : digits ≠ [])
    (hdigits : ∀ c ∈ digits, isDigit c = true) (trail : Bytes) :
    isNegative (blanks ++ (sign ++ (digits ++ trail))) = decide (sign = [chr '-']) ∧
      unsignedPart (blanks ++ (sign ++ (digits ++ trail))) = digits ++ trail := by
  obtain ⟨d, digits, rfl⟩ := List.exists_cons_of_ne_nil hne
  have hd := hdigits d List.mem_cons_self
  have hdrop : (blanks ++ (sign ++ (d :: digits ++ trail))).dropWhile isBlank =
      sign ++ (d :: digits ++ trail) := by
    rw [List.dropWhile_append_of_pos hblanks]
    rcases hsign with rfl | rfl | rfl
    · exact List.dropWhile_cons_of_neg (by simp [not_isBlank_of_isDigit hd])
    · exact List.dropWhile_cons_of_neg (by decide)
    · exact List.dropWhile_cons_of_neg (by decide)
  unfold isNegative unsignedPart
  rw [hdrop]
  obtain ⟨hminus, hplus⟩ := ne_sign_of_isDigit hd
  have hpm : chr '+' ≠ chr '-' := by decide
  rcases hsign with rfl | rfl | rfl
  · simp [hminus, hplus]
  · simp
  · simp [hpm]

/-- Every text is blanks, a sign, digits and a rest. -/
theorem exists_parts (s : Bytes) : ∃ blanks sign : Bytes,
    s = blanks ++ (sign ++ (digitsOf s ++ restOf s)) ∧ blanks.all isBlank ∧
      (sign = [] ∨ sign = [chr '-'] ∨ sign = [chr '+']) ∧
      (isNegative s = true ↔ sign = [chr '-']) := by
  have hblanks : (s.takeWhile isBlank).all isBlank := List.all_takeWhile
  have hsplit : s = s.takeWhile isBlank ++ s.dropWhile isBlank :=
    (List.takeWhile_append_dropWhile).symm
  have hparts : digitsOf s ++ restOf s = unsignedPart s := List.takeWhile_append_dropWhile
  rw [hparts]
  unfold isNegative unsignedPart
  cases hp : s.dropWhile isBlank with
  | nil =>
    rw [hp] at hsplit
    exact ⟨s.takeWhile isBlank, [], by simpa using hsplit, hblanks, Or.inl rfl, by simp⟩
  | cons c p =>
    rw [hp] at hsplit
    by_cases hminus : c = chr '-'
    · subst hminus
      exact ⟨s.takeWhile isBlank, [chr '-'], by simpa using hsplit, hblanks, by simp, by simp⟩
    · by_cases hplus : c = chr '+'
      · subst hplus
        exact ⟨s.takeWhile isBlank, [chr '+'], by simpa using hsplit, hblanks, by simp, by simp⟩
      · exact ⟨s.takeWhile isBlank, [], by simpa [hminus, hplus] using hsplit, hblanks, Or.inl rfl,
          by simpa using hminus⟩

/-- **Numerals by their parts.** -/
theorem intText_iff {s trail : Bytes} {n : ℤ} (htrail : trail.dropWhile isDigit = trail) :
    IntText s trail n ↔ digitsOf s ≠ [] ∧ restOf s = trail ∧ valueOf s = n ∧ IsInt32 n := by
  constructor
  · rintro ⟨blanks, sign, digits, rfl, hblanks, hsign, hne, hdigits, rfl, hn⟩
    rw [List.all_eq_true] at hblanks hdigits
    obtain ⟨hneg, hparts⟩ := parts_eq hblanks hsign hne hdigits trail
    have htake : digitsOf (blanks ++ (sign ++ (digits ++ trail))) = digits := by
      rw [digitsOf, hparts, List.takeWhile_append_of_pos hdigits]
      have : trail.takeWhile isDigit = [] := by
        have happ := List.takeWhile_append_dropWhile (p := isDigit) (l := trail)
        rw [htrail] at happ
        simpa using happ
      rw [this, List.append_nil]
    have hdrop : restOf (blanks ++ (sign ++ (digits ++ trail))) = trail := by
      rw [restOf, hparts, List.dropWhile_append_of_pos hdigits, htrail]
    refine ⟨by rwa [htake], hdrop, ?_, hn⟩
    rw [valueOf, htake, hneg]
    simp only [decide_eq_true_eq]
  · rintro ⟨hne, rfl, rfl, hn⟩
    obtain ⟨blanks, sign, hs, hblanks, hsign, hneg⟩ := exists_parts s
    refine ⟨blanks, sign, digitsOf s, hs, hblanks, hsign, hne, List.all_takeWhile, ?_, hn⟩
    simp only [valueOf, hneg]

/-- A numeral of an `int` does not overflow. -/
theorem not_overflows_of_isInt32 {s : Bytes} (h : IsInt32 (valueOf s)) : ¬Overflows s := by
  unfold IsInt32 valueOf at h
  unfold Overflows
  split at h <;> simp_all <;> omega

theorem valueOf_of_digitsOf_nil {s : Bytes} (h : digitsOf s = []) : valueOf s = 0 := by
  unfold valueOf
  rw [h]
  split <;> rfl

/-! ### The five requests -/

/-- The requests whose first argument is an integer. -/
inductive IntVerb where
  | setCppc | setPark | setUnpark | setTdp | setEppCcd
  deriving DecidableEq

namespace IntVerb

/-- The beginning of the request. -/
def text : IntVerb → Bytes
  | setCppc => lit "SET_CPPC "
  | setPark => lit "SET_PARK "
  | setUnpark => lit "SET_UNPARK "
  | setTdp => lit "SET_TDP "
  | setEppCcd => lit "SET_EPP_CCD "

/-- Its branch. -/
def verb : IntVerb → Verb
  | setCppc => .setCppc
  | setPark => .setPark
  | setUnpark => .setUnpark
  | setTdp => .setTdp
  | setEppCcd => .setEppCcd

/-- The request with its argument `s`; `SET_EPP_CCD` has a second one. -/
def request (iv : IntVerb) (s v : Bytes) : Bytes :=
  iv.text ++ (if iv = setEppCcd then s ++ chr ' ' :: v else s)

/-- The call the request is for. -/
def call (iv : IntVerb) (n : ℤ) (v : Bytes) : HwCall :=
  match iv with
  | setCppc => .cppcPerf n
  | setPark => .setCore n false
  | setUnpark => .setCore n true
  | setTdp => .cppcTdp n
  | setEppCcd => .cppcCcd n v

/-- `s` denotes `n`. Only `SET_CPPC` lets blanks follow the digits. -/
def Denotes (iv : IntVerb) (s : Bytes) (n : ℤ) : Prop :=
  if iv = setCppc then ∃ trail : Bytes, trail.all isBlank ∧ IntText s trail n
  else IntText s [] n

end IntVerb

/-- **A validated argument.** The handler reads no unset pointer, makes the call with `n` exactly
if the argument denotes `n`, and otherwise says `ERR` and calls nothing. -/
structure Validated (iv : IntVerb) (s v : Bytes) (d : Daemon) (p : Option Bytes × Daemon) :
    Prop where
  noFault : p.2.crashed = d.crashed
  call_iff (n : ℤ) : p.2.calls = d.calls ++ [iv.call n v] ↔ iv.Denotes s n
  rejects (h : ∀ n, ¬iv.Denotes s n) : p.1 = some err ∧ p.2.calls = d.calls

/-- A sign or blanks without a digit, or a number beyond a `long`: the texts on which the end
pointer misleads a branch. -/
def Misread (s : Bytes) : Prop := (digitsOf s = [] ∧ restOf s = [] ∧ s ≠ []) ∨ Overflows s

/-- **When an argument is validated.** A second argument is split off at the first blank, which
may fall into the first one. -/
def IntVerb.Safe (iv : IntVerb) (s : Bytes) : Prop :=
  match iv with
  | setCppc => ¬(digitsOf s = [] ∧ (restOf s).all isBlank ∧ restOf s ≠ s)
  | setPark | setUnpark | setTdp => ¬Misread s
  | setEppCcd =>
    match strchr s (chr ' ') with
    | none => ¬Misread s
    | some (w, _) => ¬Misread w ∧ (∀ n, ¬IntText w [] n) ∧ ∀ n, ¬IntText s [] n

/-! ### One check -/

section

variable {env : RequestEnv} {d : Daemon} {s : Bytes} {c : ℤ → HwCall}

/-- The check lets the text through. -/
def Passes (s : Bytes) : Prop := restOf s = [] ∧ s ≠ [] ∧ IsInt32 (valueOf s)

/-- **What the check does.** -/
theorem intRequest_cases (env : RequestEnv) (d : Daemon) (s : Bytes) (c : ℤ → HwCall) :
    (Overflows s ∧ d.intRequest env s c = ([], { d with crashed := true })) ∨
    (¬Overflows s ∧ Passes s ∧ d.intRequest env s c = d.callReply env (c (valueOf s))) ∨
    (¬Overflows s ∧ ¬Passes s ∧ d.intRequest env s c = (err, d)) := by
  unfold Daemon.intRequest Daemon.intArg
  rw [strtol10_eq]
  by_cases hover : Overflows s
  · refine Or.inl ⟨hover, ?_⟩
    rw [if_pos hover]
  · refine Or.inr ?_
    simp only [if_neg hover]
    have hpass : (restOf s ≠ s ∧ restOf s = [] ∧ (!false) = true ∧ IsInt32 (valueOf s)) ↔
        Passes s := by
      unfold Passes
      constructor
      · rintro ⟨hmoved, hrest, -, hint⟩
        exact ⟨hrest, fun hs => hmoved (hrest.trans hs.symm), hint⟩
      · rintro ⟨hrest, hs, hint⟩
        exact ⟨fun hmoved => hs (hmoved.symm.trans hrest), hrest, rfl, hint⟩
    by_cases hp : Passes s
    · exact Or.inl ⟨hover, hp, by rw [if_pos (hpass.mpr hp)]⟩
    · exact Or.inr ⟨hover, hp, by rw [if_neg (mt hpass.mp hp)]⟩

theorem intText_nil_iff {n : ℤ} :
    IntText s [] n ↔ digitsOf s ≠ [] ∧ restOf s = [] ∧ valueOf s = n ∧ IsInt32 n :=
  intText_iff rfl

/-- A text that is let through is a numeral, or it has no digit. -/
theorem Passes.digits_or (h : Passes s) : IntText s [] (valueOf s) ∨ Misread s := by
  obtain ⟨hrest, hs, hint⟩ := h
  by_cases hdigits : digitsOf s = []
  · exact Or.inr (Or.inl ⟨hdigits, hrest, hs⟩)
  · exact Or.inl (intText_nil_iff.mpr ⟨hdigits, hrest, rfl, hint⟩)

theorem passes_of_intText {n : ℤ} (h : IntText s [] n) : Passes s ∧ ¬Misread s := by
  obtain ⟨hdigits, hrest, rfl, hint⟩ := intText_nil_iff.mp h
  have hs : s ≠ [] := by
    rintro rfl
    exact hdigits rfl
  refine ⟨⟨hrest, hs, hint⟩, ?_⟩
  rintro (⟨hnil, -⟩ | hover)
  · exact hdigits hnil
  · exact not_overflows_of_isInt32 hint hover

/-- A text without a digit is let through. -/
theorem passes_of_misread (h : Misread s) (hover : ¬Overflows s) :
    Passes s ∧ ∀ n, ¬IntText s [] n := by
  obtain ⟨hdigits, hrest, hs⟩ := h.resolve_right hover
  refine ⟨⟨hrest, hs, ?_⟩, fun n hn => (intText_nil_iff.mp hn).1 hdigits⟩
  rw [valueOf_of_digitsOf_nil hdigits]
  decide

/-! ### The branches -/

variable {B : Build} {iv : IntVerb} {v : Bytes}

theorem IntVerb.call_injective {n m : ℤ} (h : iv.call n v = iv.call m v) : n = m := by
  cases iv <;> simpa [IntVerb.call] using h

theorem IntVerb.denotes_iff (hiv : iv ≠ .setCppc) {n : ℤ} : iv.Denotes s n ↔ IntText s [] n := by
  unfold IntVerb.Denotes
  rw [if_neg hiv]

theorem append_call_ne (cs : List HwCall) (c : HwCall) : cs ≠ cs ++ [c] :=
  fun h => absurd (List.self_eq_append_right.mp h) (List.cons_ne_nil _ _)

/-- A fault is never valid. -/
theorem not_validated_fault (hnone : ∀ n, ¬iv.Denotes s n) (d' : Daemon) :
    ¬Validated iv s v d (some [], d') := by
  intro h
  have herr : ([] : Bytes) = err := Option.some.inj (h.rejects hnone).1
  exact absurd herr (by decide)

/-- A rejection is valid if there was nothing to accept. -/
theorem validated_reject_iff : Validated iv s v d (some err, d) ↔ ∀ n, ¬iv.Denotes s n := by
  constructor
  · intro h n hn
    exact append_call_ne _ _ ((h.call_iff n).mpr hn)
  · intro hnone
    exact ⟨rfl, fun n => iff_of_false (append_call_ne _ _) (hnone n), fun _ => ⟨rfl, rfl⟩⟩

/-- A call is valid if it is the one the argument denotes. -/
theorem validated_call_iff (iv : IntVerb) {n : ℤ} (v' : Bytes) :
    Validated iv s v d (some (d.callReply env (iv.call n v')).1,
      (d.callReply env (iv.call n v')).2) ↔
      iv.call n v' = iv.call n v ∧ ∀ m, iv.Denotes s m ↔ m = n := by
  have hcalls : (d.callReply env (iv.call n v')).2.calls = d.calls ++ [iv.call n v'] := rfl
  constructor
  · intro h
    have hsome : ∃ m, iv.Denotes s m := by
      by_contra hnone
      rw [not_exists] at hnone
      exact append_call_ne _ _ ((h.rejects hnone).2.symm.trans hcalls)
    -- the call names its argument, so at most one number is denoted
    have hsame (m : ℤ) (hm : iv.Denotes s m) : iv.call n v' = iv.call m v := by
      have hcall := hcalls.symm.trans ((h.call_iff m).mpr hm)
      exact List.singleton_injective (List.append_cancel_left hcall)
    have hn (m : ℤ) (hm : iv.Denotes s m) : m = n := by
      have hcall := hsame m hm
      cases iv <;> simp only [IntVerb.call, HwCall.cppcPerf.injEq, HwCall.setCore.injEq,
        HwCall.cppcTdp.injEq, HwCall.cppcCcd.injEq, and_true] at hcall
      · exact hcall.symm
      · exact hcall.symm
      · exact hcall.symm
      · exact hcall.symm
      · exact hcall.1.symm
    obtain ⟨m, hm⟩ := hsome
    obtain rfl := hn m hm
    exact ⟨hsame m hm, fun k => ⟨hn k, fun hk => hk ▸ hm⟩⟩
  · -- conversely the one number denoted is the one called with
    rintro ⟨hval, hdenotes⟩
    refine ⟨rfl, fun m => ?_, fun hnone => absurd ((hdenotes n).mpr rfl) (hnone n)⟩
    rw [hcalls, hdenotes, hval]
    constructor
    · intro hcall
      exact (IntVerb.call_injective
        (List.singleton_injective (List.append_cancel_left hcall))).symm
    · rintro rfl
      rfl

theorem intText_unique {n m : ℤ} (hn : IntText s [] n) (hm : IntText s [] m) : m = n :=
  (intText_nil_iff.mp hm).2.2.1.symm.trans (intText_nil_iff.mp hn).2.2.1

theorem validated_intRequest_iff {iv : IntVerb} (hiv : iv ≠ .setCppc) :
    Validated iv s v d (some (d.intRequest env s fun n => iv.call n v).1,
      (d.intRequest env s fun n => iv.call n v).2) ↔ ¬Misread s := by
  rcases intRequest_cases env d s (fun n => iv.call n v) with
    ⟨hover, heq⟩ | ⟨hover, hpass, heq⟩ | ⟨hover, hpass, heq⟩
  · rw [heq]
    refine iff_of_false (not_validated_fault (fun n hn => ?_) _) (not_not.mpr (Or.inr hover))
    exact (passes_of_intText ((IntVerb.denotes_iff hiv).mp hn)).2 (Or.inr hover)
  · rw [heq, validated_call_iff]
    simp only [IntVerb.denotes_iff hiv, true_and]
    constructor
    · intro hdenotes
      exact (passes_of_intText ((hdenotes _).mpr rfl)).2
    · intro hmisread m
      have htext := hpass.digits_or.resolve_right hmisread
      exact ⟨intText_unique htext, fun hm => hm ▸ htext⟩
  · rw [heq, validated_reject_iff]
    refine iff_of_true (fun n hn => ?_) fun hmisread => hpass (passes_of_misread hmisread hover).1
    exact hpass (passes_of_intText ((IntVerb.denotes_iff hiv).mp hn)).1

/-! ### `SET_CPPC` -/

theorem restOf_ne_self (h : digitsOf s ≠ []) : restOf s ≠ s := by
  intro hrest
  obtain ⟨blanks, sign, hs, -⟩ := exists_parts s
  have hlen := congrArg List.length hs
  simp only [List.length_append, hrest] at hlen
  have := List.length_pos_of_ne_nil h
  omega

theorem mem_of_mem_restOf {c : UInt8} (h : c ∈ restOf s) : c ∈ s := by
  obtain ⟨blanks, sign, hs, -⟩ := exists_parts s
  rw [hs]
  simp [h]

theorem denotes_setCppc_iff {n : ℤ} :
    IntVerb.setCppc.Denotes s n ↔
      digitsOf s ≠ [] ∧ (restOf s).all isBlank ∧ valueOf s = n ∧ IsInt32 n := by
  have hdrop : ∀ trail : Bytes, trail.all isBlank → trail.dropWhile isDigit = trail := by
    intro trail htrail
    cases trail with
    | nil => rfl
    | cons c trail =>
      have hc : isBlank c = true := (List.all_eq_true.mp htrail) c List.mem_cons_self
      refine List.dropWhile_cons_of_neg fun hdigit => ?_
      rw [not_isBlank_of_isDigit hdigit] at hc
      exact Bool.noConfusion hc
  unfold IntVerb.Denotes
  rw [if_pos rfl]
  constructor
  · rintro ⟨trail, htrail, htext⟩
    obtain ⟨hne, rfl, hn, hint⟩ := (intText_iff (hdrop trail htrail)).mp htext
    exact ⟨hne, htrail, hn, hint⟩
  · rintro ⟨hne, htrail, hn, hint⟩
    exact ⟨restOf s, htrail, (intText_iff (hdrop _ htrail)).mpr ⟨hne, rfl, hn, hint⟩⟩

/-- **What the check of `SET_CPPC` does.** It looks at `errno` first, so an overflow is an
error. -/
theorem handleSetCppc_eq (hcr : chr '\r' ∉ s) (hnl : nl ∉ s) :
    d.handleSetCppc env s =
      if ¬Overflows s ∧ restOf s ≠ s ∧ (restOf s).all isBlank ∧ IsInt32 (valueOf s) then
        d.callReply env (.cppcPerf (valueOf s))
      else (err, d) := by
  unfold Daemon.handleSetCppc
  rw [strtol10_eq]
  by_cases hover : Overflows s
  · rw [if_pos hover]
    simp only [hover, not_true_eq_false, false_and, if_false]
  · have hafter : ((restOf s).dropWhile fun c => isBlank c || c = chr '\r' || c = nl) = [] ↔
        (restOf s).all isBlank := by
      rw [List.dropWhile_eq_nil_iff, List.all_eq_true]
      refine forall₂_congr fun c hc => ?_
      have hmem := mem_of_mem_restOf hc
      have hne : c ≠ chr '\r' ∧ c ≠ nl := ⟨fun h => hcr (h ▸ hmem), fun h => hnl (h ▸ hmem)⟩
      simp [hne]
    rw [if_neg hover]
    simp only [hafter, Bool.not_false, true_and, hover, not_false_eq_true]

theorem validated_setCppc_iff (hcr : chr '\r' ∉ s) (hnl : nl ∉ s) :
    Validated .setCppc s v d (some (d.handleSetCppc env s).1, (d.handleSetCppc env s).2) ↔
      IntVerb.setCppc.Safe s := by
  rw [handleSetCppc_eq hcr hnl]
  by_cases haccept :
      ¬Overflows s ∧ restOf s ≠ s ∧ (restOf s).all isBlank ∧ IsInt32 (valueOf s)
  · -- accepted: right unless the text has no digits at all
    rw [if_pos haccept]
    obtain ⟨-, hmoved, hblank, hint⟩ := haccept
    refine (validated_call_iff .setCppc v).trans ?_
    simp only [denotes_setCppc_iff, true_and]
    constructor
    · rintro hdenotes ⟨hdigits, -, -⟩
      exact ((hdenotes _).mpr rfl).1 hdigits
    · intro hsafe m
      have hdigits : digitsOf s ≠ [] := fun hnil => hsafe ⟨hnil, hblank, hmoved⟩
      constructor
      · rintro ⟨-, -, hm, -⟩
        exact hm.symm
      · rintro rfl
        exact ⟨hdigits, hblank, rfl, hint⟩
  · -- rejected: right, since a text that denotes a number passes the four tests
    rw [if_neg haccept, validated_reject_iff]
    refine iff_of_true (fun n hn => ?_) fun ⟨hdigits, hblank, hmoved⟩ => haccept ?_
    · obtain ⟨hdigits, hblank, rfl, hint⟩ := denotes_setCppc_iff.mp hn
      exact haccept ⟨not_overflows_of_isInt32 hint, restOf_ne_self hdigits, hblank, hint⟩
    · have hint : IsInt32 (valueOf s) := by
        rw [valueOf_of_digitsOf_nil hdigits]
        decide
      exact ⟨not_overflows_of_isInt32 hint, hmoved, hblank, hint⟩

/-! ### `SET_EPP_CCD` -/

/-- The argument that is checked is the part before the first blank. If that is not the whole
first argument, only a rejection can be valid. -/
theorem validated_split_iff {w v' : Bytes} (hv : v' ≠ v) :
    Validated .setEppCcd s v d (some (d.intRequest env w fun n => .cppcCcd n v').1,
      (d.intRequest env w fun n => .cppcCcd n v').2) ↔
      ¬Misread w ∧ (∀ n, ¬IntText w [] n) ∧ ∀ n, ¬IntText s [] n := by
  have hdenotes (n : ℤ) : IntVerb.setEppCcd.Denotes s n ↔ IntText s [] n :=
    IntVerb.denotes_iff (by decide)
  rcases intRequest_cases env d w (fun n => .cppcCcd n v') with
    ⟨hover, heq⟩ | ⟨hover, hpass, heq⟩ | ⟨hover, hpass, heq⟩
  · rw [heq]
    -- an overflow is a fault
    refine iff_of_false (fun h => ?_) fun h => h.1 (Or.inr hover)
    by_cases hnone : ∀ n, ¬IntVerb.setEppCcd.Denotes s n
    · exact not_validated_fault hnone _ h
    · obtain ⟨n, hn⟩ := not_forall_not.mp hnone
      exact append_call_ne _ _ ((h.call_iff n).mpr hn)
  · rw [heq]
    refine iff_of_false (fun h => ?_) fun h => ?_
    · -- a call has the wrong rest of the arguments
      have hcall := ((validated_call_iff .setEppCcd _).mp h).1
      exact hv (HwCall.cppcCcd.inj hcall).2
    · rcases hpass.digits_or with htext | hmisread
      · exact h.2.1 _ htext
      · exact h.1 hmisread
  · rw [heq, validated_reject_iff]
    -- a rejection is right if nothing was denoted
    simp only [hdenotes]
    constructor
    · intro hnone
      exact ⟨fun hmisread => hpass (passes_of_misread hmisread hover).1,
        fun n hn => hpass (passes_of_intText hn).1, hnone⟩
    · exact fun h => h.2.2

theorem validated_setEppCcd_iff :
    Validated .setEppCcd s v d (some (d.handleSetEppCcd env (s ++ chr ' ' :: v)).1,
      (d.handleSetEppCcd env (s ++ chr ' ' :: v)).2) ↔ IntVerb.setEppCcd.Safe s := by
  unfold Daemon.handleSetEppCcd IntVerb.Safe
  cases hcut : strchr s (chr ' ') with
  | none =>
    rw [strchr, cut_append (cut_eq_none.mp hcut)]
    exact validated_intRequest_iff (show IntVerb.setEppCcd ≠ .setCppc by decide)
  | some p =>
    obtain ⟨w, rest⟩ := p
    obtain ⟨hw, rfl⟩ := cut_eq_some.mp hcut
    rw [List.append_assoc, List.cons_append, strchr, cut_append hw]
    refine validated_split_iff fun hv => ?_
    have hlen := congrArg List.length hv
    simp only [List.length_append, List.length_cons] at hlen
    omega

end

/-! ### The requests -/

/-- **When a numeric argument is validated.** For each of the five requests, any argument and
any state. -/
theorem validated_iff {iv : IntVerb} {r s v : Bytes} (hccd1 : s ≠ lit "ccd1") (hall : s ≠ lit "all")
    (hr : received r = iv.request s v) (B : Build) (env : RequestEnv) (d : Daemon) :
    Validated iv s v d (socketHandle B env r d) ↔ iv.Safe s := by
  obtain ⟨-, hcr, hnl⟩ := notMem_received r
  rw [hr, IntVerb.request] at hcr hnl
  rw [socketHandle_of_verb iv.verb hr (by cases iv <;> decide)
    (by cases iv <;> decide) (by cases iv <;> decide)]
  -- each handler reads its argument in its own way
  cases iv with
  | setCppc =>
    simp only [reduceCtorEq, if_false, List.mem_append, not_or] at hcr hnl
    exact validated_setCppc_iff hcr.2 hnl.2
  | setPark =>
    show Validated .setPark s v d
      (some (d.handleSetPark B env s).1, (d.handleSetPark B env s).2) ↔ _
    unfold Daemon.handleSetPark
    rw [if_neg hccd1]
    exact validated_intRequest_iff (by decide)
  | setUnpark =>
    show Validated .setUnpark s v d (some (d.handleSetUnpark env s).1,
      (d.handleSetUnpark env s).2) ↔ _
    unfold Daemon.handleSetUnpark
    rw [if_neg (not_or.mpr ⟨hccd1, hall⟩)]
    exact validated_intRequest_iff (by decide)
  | setTdp => exact validated_intRequest_iff (show IntVerb.setTdp ≠ .setCppc by decide)
  | setEppCcd => exact validated_setEppCcd_iff

/-- The rule for an ordinary request. -/
theorem validated_iff_tdp :
    Validated .setTdp (lit "105") [] (boot shippedBuild (.allOk none))
      (socketHandle shippedBuild .allOk (lit "SET_TDP 105") (boot shippedBuild (.allOk none))) ↔
      IntVerb.setTdp.Safe (lit "105") :=
  validated_iff (by decide) (by decide) (by decide) _ _ _

/-- A lone sign parks core 0. -/
theorem sign_parks_core :
    ¬∀ (B : Build) (st : Running) (env : RequestEnv) (iv : IntVerb) (r s v : Bytes),
      (daemonMachine B).Reachable st → s ≠ lit "ccd1" → s ≠ lit "all" →
      received r = iv.request s v →
      Validated iv s v st.daemon (socketHandle B env r st.daemon) := by
  intro h
  have hvalid := h shippedBuild ⟨boot shippedBuild (.allOk none), .select⟩ .allOk .setPark
    (lit "SET_PARK -") (lit "-") [] (Machine.Reachable.of_init ⟨_, rfl⟩) (by decide)
    (by decide) (by decide)
  have hcalls : (socketHandle shippedBuild .allOk (lit "SET_PARK -")
      (boot shippedBuild (.allOk none))).2.calls =
      (boot shippedBuild (.allOk none)).calls ++ [.setCore 0 false] := by
    decide
  -- no digit, no number
  have hnone : ¬IntText (lit "-") [] 0 := by
    rw [intText_nil_iff]
    exact fun htext => absurd htext.1 (by decide)
  exact hnone ((IntVerb.denotes_iff (by decide)).mp ((hvalid.call_iff 0).mp hcalls))

end X3D
