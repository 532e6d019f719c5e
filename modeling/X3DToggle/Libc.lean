import X3DToggle.Lib.Binary64
import X3DToggle.Lib.Text

/-!
# The C library of the project

The project carries its own C library (`libc.c`). A C string is modelled by the bytes before
its terminator, so `strcmp(a, b) == 0` is the equality of two byte lists, `strlen` is the
length of one, and a pointer into a string is one of its suffixes. `cstr` is what a buffer
holds as a string.

An `int` is an integer kept in range by `wrap32`. Signed overflow, which C leaves undefined,
wraps as it does on the machines the project is built for.
-/

namespace X3D

/-- Bytes of a buffer or of a file, or a C string without its terminator. -/
abbrev Bytes := List UInt8

instance : LawfulBEq Bytes := inferInstance

/-- A string literal. -/
def lit (s : String) : Bytes := s.toUTF8.data.toList

/-- A character constant. -/
def chr (c : Char) : UInt8 := c.val.toUInt8

/-- The line break. -/
abbrev nl : UInt8 := chr '\n'

/-- The C string a buffer holds: the bytes up to the first NUL. -/
def cstr (buf : Bytes) : Bytes := buf.takeWhile (· ≠ 0)

/-- `strncmp(s1, s2, n) == 0`. -/
def strncmp (s1 s2 : Bytes) (n : ℕ) : Bool := s1.take n == s2.take n

/-- `strchr`, as the string before and after the first occurrence. -/
def strchr (s : Bytes) (c : UInt8) : Option (Bytes × Bytes) := cut c s

/-- `strstr`: the first suffix of `h` that starts with `n`. -/
def strstr : Bytes → Bytes → Option Bytes
  | [], n => if n = [] then some [] else none
  | c :: h, n => if n.isPrefixOf (c :: h) then some (c :: h) else strstr h n

/-- `strstr` is used as a condition. -/
def contains (h n : Bytes) : Bool := (strstr h n).isSome

/-- `s[strcspn(s, reject)] = 0`. -/
def cutAny (s reject : Bytes) : Bytes := s.takeWhile (· ∉ reject)

/-- `isspace`. -/
def isspace (c : UInt8) : Bool :=
  c = chr ' ' || c = chr '\t' || c = nl || c = chr '\r' || c = 12 || c = 11

/-- The blanks the number parsers skip. -/
def isBlank (c : UInt8) : Bool := c = chr ' ' || c = chr '\t'

/-- `'0' <= c && c <= '9'`. -/
def isDigit (c : UInt8) : Bool := chr '0' ≤ c && c ≤ chr '9'

/-- `c - '0'`. -/
def digit (c : UInt8) : ℤ := c.toNat - 48

/-- The `int` an integer wraps to. -/
def wrap32 (z : ℤ) : ℤ := z.bmod (2 ^ 32)

/-- The `int` values. -/
def IsInt32 (z : ℤ) : Prop := -2 ^ 31 ≤ z ∧ z < 2 ^ 31

instance (z : ℤ) : Decidable (IsInt32 z) := inferInstanceAs (Decidable (_ ∧ _))

/-- The digit loop of `atoi`. -/
def atoiLoop : Bytes → ℤ → ℤ
  | [], n => n
  | c :: p, n => if isDigit c then atoiLoop p (wrap32 (n * 10 + digit c)) else n

/-- `atoi`. -/
def atoi (p : Bytes) : ℤ :=
  match p.dropWhile isBlank with
  | [] => 0
  | c :: p => if c = chr '-' then wrap32 (-atoiLoop p 0) else atoiLoop (c :: p) 0

/-- The literal `10.0`. -/
def ten : Double := .fin 10

/-- The literal `0.1`. -/
def tenth : Double := .round (1 / 10)

/-- The loop of `atof`; `state` is set after a decimal point. -/
def atofLoop : Bytes → Double → Double → Bool → Double
  | [], res, _, _ => res
  | c :: p, res, frac, state =>
    if isDigit c then
      if state then
        atofLoop p (res.add ((Double.fin (digit c)).mul (frac.mul tenth))) (frac.mul tenth) state
      else atofLoop p ((res.mul ten).add (.fin (digit c))) frac state
    else if c = chr '.' then atofLoop p res frac true
    else res

/-- `atof`. -/
def atof (p : Bytes) : Double :=
  match p.dropWhile isBlank with
  | [] => .fin 0
  | c :: p =>
    if c = chr '-' then (atofLoop p (.fin 0) (.fin 1) false).neg
    else atofLoop (c :: p) (.fin 0) (.fin 1) false

/-- `strlcat_local(dst, src, size)`. -/
def strlcatLocal (dst src : Bytes) (size : ℕ) : Bytes :=
  if size ≤ dst.length then dst
  else if size ≤ dst.length + src.length then dst ++ src.take (size - dst.length - 1)
  else dst ++ src

/-! ### `strtol` -/

/-- The value of a digit or letter in `strtol`. -/
def strtolDigit (c : UInt8) : Option ℕ :=
  if isDigit c then some (c.toNat - 48)
  else if chr 'a' ≤ c ∧ c ≤ chr 'z' then some (c.toNat - 97 + 10)
  else if chr 'A' ≤ c ∧ c ≤ chr 'Z' then some (c.toNat - 65 + 10)
  else none

/-- The digit loop of `strtol`: accumulator, overflow flag and the pointer it stops at. -/
def strtolLoop (base limit : ℕ) : Bytes → ℕ → Bool → ℕ × Bool × Bytes
  | [], r, overflow => (r, overflow, [])
  | c :: p, r, overflow =>
    match strtolDigit c with
    | none => (r, overflow, c :: p)
    | some v =>
      if base ≤ v then (r, overflow, c :: p)
      else
        let overflow := overflow || (limit - v) / base < r
        strtolLoop base limit p (if overflow then r else r * base + v) overflow

/-- What a call `strtol(p, &endptr, 10)` leaves. On overflow `endptr` is not written. -/
structure Strtol where
  /-- The returned value. -/
  val : ℤ
  /-- The end pointer, if it was set. -/
  endptr : Option Bytes
  /-- `errno == ERANGE`. -/
  erange : Bool
  deriving DecidableEq

/-- `strtol(p, &endptr, 10)`. -/
def strtol10 (p : Bytes) : Strtol :=
  let p := p.dropWhile isBlank
  let neg := p.head? = some (chr '-')
  let digits := if neg ∨ p.head? = some (chr '+') then p.tail else p
  let limit := if neg then 2 ^ 63 else 2 ^ 63 - 1
  match strtolLoop 10 limit digits 0 false with
  | (_, true, _) => ⟨if neg then -2 ^ 63 else 2 ^ 63 - 1, none, true⟩
  | (r, false, rest) => ⟨if neg then -r else r, some rest, false⟩

/-! ### Files and error codes -/

/-- `open` and `read` with a buffer of `n` bytes: what was read, if anything was. -/
def readFile (ok : Bool) (file : Option Bytes) (n : ℕ) : Option Bytes :=
  match file with
  | none => none
  | some s => if ok ∧ s.take n ≠ [] then some (s.take n) else none

/-- `ERR_SUCCESS`. -/
abbrev errSuccess : ℤ := 0
/-- `ERR_LOST`. -/
abbrev errLost : ℤ := -1
/-- `ERR_IO`. -/
abbrev errIo : ℤ := -3
/-- `ERR_IPC`. -/
abbrev errIpc : ℤ := -4
/-- `ERR_HW`. -/
abbrev errHw : ℤ := -5
/-- `ERR_SYNTAX`. -/
abbrev errSyntax : ℤ := -6
/-- `ERR_REMOVE`. -/
abbrev errRemove : ℤ := -16
/-- `ERR_MEM`. -/
abbrev errMem : ℤ := -29
/-- `ERR_CONF`. -/
abbrev errConf : ℤ := -30
/-- `ERR_CGROUP`. -/
abbrev errCgroup : ℤ := -34
/-- `ERR_INVALID_ARGS`. -/
abbrev errInvalidArgs : ℤ := -38
/-- `ERR_IRQ_UDEV`. -/
abbrev errIrqUdev : ℤ := -43

/-! ### Facts about strings -/

@[simp] theorem cstr_nil : cstr [] = [] := rfl

theorem zero_notMem_cstr (buf : Bytes) : (0 : UInt8) ∉ cstr buf := by
  intro h
  have := List.mem_takeWhile_imp h
  simp at this

theorem cstr_of_notMem {s : Bytes} (h : (0 : UInt8) ∉ s) : cstr s = s := by
  rw [cstr, List.takeWhile_eq_self_iff]
  intro c hc
  simp only [ne_eq, decide_not, Bool.not_eq_true', decide_eq_false_iff_not]
  rintro rfl
  exact h hc

/-- The string before the first NUL of a concatenation whose first part has none. -/
theorem cstr_append {s : Bytes} (h : (0 : UInt8) ∉ s) (t : Bytes) :
    cstr (s ++ t) = s ++ cstr t := by
  rw [cstr, List.takeWhile_append_of_pos]
  · rfl
  · intro c hc
    simp only [ne_eq, decide_not, Bool.not_eq_true', decide_eq_false_iff_not]
    rintro rfl
    exact h hc

theorem cstr_append_of_mem {s : Bytes} (h : (0 : UInt8) ∈ s) (t : Bytes) :
    cstr (s ++ t) = cstr s := by
  rw [cstr, List.takeWhile_append, if_neg]
  · rfl
  · intro hlen
    have hself : cstr s = s := (List.takeWhile_prefix _).eq_of_length hlen
    exact zero_notMem_cstr s (hself.symm ▸ h)

theorem suffix_of_strstr {h n p : Bytes} (hp : strstr h n = some p) : p <:+ h ∧ n <+: p := by
  induction h with
  | nil =>
    rw [strstr] at hp
    split at hp
    next hn =>
      cases hp
      exact ⟨List.suffix_rfl, hn ▸ List.prefix_rfl⟩
    next => exact absurd hp.symm (Option.some_ne_none p)
  | cons c h ih =>
    rw [strstr] at hp
    by_cases hpre : n.isPrefixOf (c :: h) = true
    · rw [if_pos hpre] at hp
      cases hp
      exact ⟨List.suffix_rfl, List.isPrefixOf_iff_prefix.mp hpre⟩
    · rw [if_neg hpre] at hp
      exact ⟨(ih hp).1.trans (List.suffix_cons c h), (ih hp).2⟩

/-- Where the text searched for has no `c`, it is found in the first part that has it. -/
theorem strstr_append_cons {c : UInt8} {n : Bytes} (hne : n ≠ []) (hn : c ∉ n) (l t : Bytes) :
    strstr (l ++ c :: t) n = ((strstr l n).map (· ++ c :: t)).or (strstr t n) := by
  induction l with
  | nil =>
    have hpre : ¬n.isPrefixOf (c :: t) = true := by
      rw [List.isPrefixOf_iff_prefix]
      intro hpre
      exact hne (List.prefix_nil.mp (prefix_of_prefix_append (s := []) hn hpre))
    have hnil : strstr [] n = none := if_neg hne
    rw [List.nil_append, hnil, strstr, if_neg hpre]
    rfl
  | cons x l ih =>
    rw [List.cons_append, strstr, strstr]
    by_cases hpre : n.isPrefixOf (x :: l) = true
    · have hwhole : n.isPrefixOf (x :: (l ++ c :: t)) = true :=
        List.isPrefixOf_iff_prefix.mpr
          ((List.isPrefixOf_iff_prefix.mp hpre).trans (List.prefix_append (x :: l) (c :: t)))
      rw [if_pos hpre, if_pos hwhole]
      rfl
    · have hwhole : ¬n.isPrefixOf (x :: (l ++ c :: t)) = true := by
        intro hwhole
        refine hpre (List.isPrefixOf_iff_prefix.mpr ?_)
        exact prefix_of_prefix_append hn (List.isPrefixOf_iff_prefix.mp hwhole)
      rw [if_neg hpre, if_neg hwhole, ih]

/-- A beginning without the first character of the text searched for is passed over. -/
theorem strstr_append_of_head {c : UInt8} {n a : Bytes} (h : c ∉ a) (b : Bytes) :
    strstr (a ++ b) (c :: n) = strstr b (c :: n) := by
  induction a with
  | nil => rfl
  | cons x a ih =>
    rw [List.mem_cons, not_or] at h
    have hpre : ¬(c :: n).isPrefixOf (x :: (a ++ b)) = true := by
      rw [List.isPrefixOf_iff_prefix, List.cons_prefix_cons]
      exact fun hpre => h.1 hpre.1
    rw [List.cons_append, strstr, if_neg hpre, ih h.2]

theorem strstr_of_head_notMem {c : UInt8} {n a : Bytes} (h : c ∉ a) : strstr a (c :: n) = none := by
  have happend := strstr_append_of_head (n := n) h []
  rw [List.append_nil] at happend
  exact happend.trans (if_neg (List.cons_ne_nil c n))

/-- What a text begins with is found there. -/
theorem strstr_append_self {n : Bytes} (hne : n ≠ []) (t : Bytes) :
    strstr (n ++ t) n = some (n ++ t) := by
  obtain ⟨c, s, rfl⟩ := List.exists_cons_of_ne_nil hne
  exact if_pos (List.isPrefixOf_iff_prefix.mpr (List.prefix_append (c :: s) t))

/-- `strstr` finds what occurs. -/
theorem contains_iff (h n : Bytes) : contains h n = true ↔ n <:+: h := by
  unfold contains
  induction h with
  | nil =>
    rw [strstr, List.infix_nil]
    split <;> simp [*]
  | cons c h ih =>
    rw [strstr]
    split
    · next hpre =>
      simpa using (List.isPrefixOf_iff_prefix.mp hpre).isInfix
    · next hpre =>
      rw [ih, List.infix_cons_iff, ← List.isPrefixOf_iff_prefix]
      simp [hpre]

/-! ### Facts about numbers -/

theorem isInt32_wrap32 (z : ℤ) : IsInt32 (wrap32 z) := by
  have h1 := Int.le_bmod (x := z) (m := 2 ^ 32) (by norm_num)
  have h2 := Int.bmod_lt (x := z) (m := 2 ^ 32) (by norm_num)
  unfold IsInt32 wrap32
  omega

theorem wrap32_of_isInt32 {z : ℤ} (h : IsInt32 z) : wrap32 z = z := by
  unfold IsInt32 at h
  unfold wrap32
  rw [Int.bmod_eq_iff] <;> omega

theorem isInt32_atoiLoop (p : Bytes) {n : ℤ} (h : IsInt32 n) : IsInt32 (atoiLoop p n) := by
  induction p generalizing n with
  | nil => exact h
  | cons c p ih =>
    rw [atoiLoop]
    split
    · exact ih (isInt32_wrap32 _)
    · exact h

/-- What `atoi` returns fits an `int`. -/
theorem isInt32_atoi (p : Bytes) : IsInt32 (atoi p) := by
  have zero : IsInt32 0 := by decide
  unfold atoi
  split
  · exact zero
  · split
    · exact isInt32_wrap32 _
    · exact isInt32_atoiLoop _ zero

theorem atoiLoop_append {c : UInt8} (hc : isDigit c = false) (p t : Bytes) (n : ℤ) :
    atoiLoop (p ++ c :: t) n = atoiLoop p n := by
  induction p generalizing n with
  | nil =>
    exact if_neg (hc ▸ Bool.false_ne_true)
  | cons x p ih =>
    rw [List.cons_append, atoiLoop, atoiLoop]
    split
    next => exact ih _
    next => rfl

/-- A character that is neither a digit nor a blank nor a sign ends a number. -/
theorem atoi_append {c : UInt8} (hdigit : isDigit c = false) (hblank : isBlank c = false)
    (hsign : c ≠ chr '-') (p t : Bytes) : atoi (p ++ c :: t) = atoi p := by
  induction p with
  | nil =>
    unfold atoi
    rw [List.nil_append, List.dropWhile_cons_of_neg (hblank ▸ Bool.false_ne_true)]
    dsimp only
    rw [if_neg hsign]
    exact if_neg (hdigit ▸ Bool.false_ne_true)
  | cons x p ih =>
    unfold atoi at ih ⊢
    rw [List.cons_append]
    by_cases hx : isBlank x = true
    · rw [List.dropWhile_cons_of_pos hx, List.dropWhile_cons_of_pos hx, ih]
    · rw [List.dropWhile_cons_of_neg hx, List.dropWhile_cons_of_neg hx]
      dsimp only
      rw [atoiLoop_append hdigit, ← List.cons_append, atoiLoop_append hdigit]

/-! ### Facts about files -/

theorem readFile_eq (s : Bytes) (n : ℕ) :
    readFile true (some s) n = if s.take n = [] then none else some (s.take n) := by
  unfold readFile
  by_cases h : s.take n = []
  · rw [if_pos h]
    exact if_neg fun hne => hne.2 h
  · rw [if_neg h]
    exact if_pos ⟨rfl, h⟩

/-- A file that fits the buffer is read whole, if there is anything to read. -/
theorem readFile_of_length_le {s : Bytes} {n : ℕ} (h : s.length ≤ n) :
    readFile true (some s) n = if s = [] then none else some s := by
  rw [readFile_eq, List.take_of_length_le h]

theorem readFile_take (s : Bytes) (n : ℕ) :
    readFile true (some (s.take n)) n = readFile true (some s) n := by
  rw [readFile_eq, readFile_eq, List.take_take, min_self]

end X3D
