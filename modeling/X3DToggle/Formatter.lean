import X3DToggle.Numerals

/-!
# The formatter in its buffer

`printf_vsn` again, store by store: where `printfLoop` builds a list, `vsnLoop` writes to a
buffer that logs its accesses. The arithmetic of its `int`s is checked too: a run that leaves
the range of `int`, or reads behind the end of the format, has no result.

`Renders` is what the formatter is for: the text of a format when nothing is cut.
`printfVsn_eq` states that the buffer receives the beginning of that text, whatever its size, and
`printfLoop_of_vsnLoop` that the list-level formatter of the other modules is this one.

The length it returns is converted to `int`, and the length of a string argument is counted in
one, so a text of 2^31 bytes and more is returned wrongly, or not at all
(`long_text_fails`).
-/

namespace X3D

/-! ### The code -/

/-- The buffer, and where the next byte goes. -/
structure Sink where
  buf : Slots UInt8
  i : ℕ

/-- `buf[i++] = c`. -/
def Sink.store (o : Sink) (c : UInt8) : Sink := ⟨o.buf.write o.i c, o.i + 1⟩

/-- `while (*s && i < size - 1) buf[i++] = *s++`. -/
def putWhile (size : ℕ) : Bytes → Sink → Sink
  | [], o => o
  | c :: s, o => if o.i < size - 1 then putWhile size s (o.store c) else o

/-- `while (width > len && i < size - 1) { buf[i++] = ' '; width--; }`. -/
def padWhile (size : ℕ) (width : ℤ) (len : ℕ) (o : Sink) : Sink :=
  putWhile size (List.replicate (width - len).toNat (chr ' ')) o

/-- An argument with its padding. -/
def putField (size : ℕ) (left : Bool) (width : ℤ) (len : ℕ) (s : Bytes) (o : Sink) : Sink :=
  let o := if left then o else padWhile size width len o
  let o := putWhile size s o
  if left then padWhile size width len o else o

/-- `%.1f`. -/
def putFixed1 (size : ℕ) (f : Double) (o : Sink) : Sink :=
  let whole := f.toInt 64
  let frac := (((f.add (Double.round whole).neg).mul ten).toInt 32).natAbs
  putWhile size [(frac + 48).toUInt8] (putWhile size [chr '.'] (putWhile size (xuiItoa whole) o))

/-- The conversion at the front of a format, behind its width: the rest of the format and of the
arguments, and the buffer. -/
def vsnConversion (size : ℕ) (left : Bool) (width : ℤ) (p : Bytes) (args : List Arg) (o : Sink) :
    Option (Bytes × List Arg × Sink) :=
  match p with
  -- the terminator is stored, and the format read behind it
  | [] => none
  | c :: rest =>
    if c = chr 's' then
      let (s, args) := argStr args
      -- `slen` is an `int`
      if s.length < 2 ^ 31 then
        some (rest, args, putField size left width (visibleLen s false) s o)
      else none
    else if c = chr 'd' then
      let (n, args) := argInt args
      some (rest, args, putField size left width (xuiItoa n).length (xuiItoa n) o)
    else if c = chr 'u' ∨ c = chr 'z' ∧ rest.head? = some (chr 'u') then
      let (n, args) := argUint args
      some (if c = chr 'z' then rest.tail else rest, args,
        putField size left width (xuiUtoa n 10).length (xuiUtoa n 10) o)
    else if c = chr 'x' then
      let (n, args) := argUint args
      some (rest, args, putField size left width (xuiUtoa n 16).length (xuiUtoa n 16) o)
    else if c = chr '.' then
      if (lit "1f").isPrefixOf rest then
        let (f, args) := argDbl args
        some (rest.drop 2, args, putFixed1 size f o)
      else if rest = [] then none
      else some (rest.drop 1, args, o)
    else some (rest, args, o.store c)

/-- The width at the front of a format: its value, and the rest of the format and of the
arguments. -/
def vsnWidth (p : Bytes) (args : List Arg) : Option (ℤ × Bytes × List Arg) :=
  let star : Bool := p.head? = some (chr '*')
  let (width, args) := if star then argInt args else (0, args)
  let p := if star then p.tail else p
  -- the digits are read as `atoi` reads them
  (atoiLoopChecked p width).map fun width => (width, p.dropWhile isDigit, args)

/-- What stands behind a `%`: flag, width and conversion. -/
def vsnDirective (size : ℕ) (p : Bytes) (args : List Arg) (o : Sink) :
    Option (Bytes × List Arg × Sink) :=
  let left : Bool := p.head? = some (chr '-')
  let p := if left then p.tail else p
  (vsnWidth p args).bind fun r => vsnConversion size left r.1 r.2.1 r.2.2 o

/-- The loop of `printf_vsn`. -/
def vsnLoop (size : ℕ) : ℕ → Bytes → List Arg → Sink → Option Sink
  | 0, _, _, o => some o
  | fuel + 1, p, args, o =>
    match p with
    | [] => some o
    | c :: rest =>
      if o.i < size - 1 then
        match xuiToken (c :: rest) with
        | some (val, rest) => vsnLoop size fuel rest args (putWhile size val o)
        | none =>
          if c ≠ chr '%' then vsnLoop size fuel rest args (o.store c)
          else (vsnDirective size rest args o).bind fun r => vsnLoop size fuel r.1 r.2.1 r.2.2
      else some o

/-- `printf_vsn(buf, size, fmt, args)` on a buffer that holds `mem`: what it returns and
leaves. -/
def printfVsn (size : ℕ) (fmt : Bytes) (args : List Arg) (mem : ℕ → UInt8) :
    Option (ℤ × Slots UInt8) :=
  (vsnLoop size fmt.length fmt args ⟨.block mem size, 0⟩).map fun o =>
    (wrap32 o.i, o.buf.write o.i 0)

/-! ### What a format stands for -/

/-- A token of the format. -/
def tokenText (name : Bytes) : Bytes := lit "$\x7b" ++ name ++ lit "\x7d"

/-- A text without its colour sequences, which reach from an escape character to an `m`. -/
def uncoloured : Bytes → Bytes
  | [] => []
  | c :: s => if c = 27 then uncoloured ((s.dropWhile (· ≠ chr 'm')).tail) else c :: uncoloured s
termination_by s => s.length
decreasing_by
  · have hdrop : (s.dropWhile (· ≠ chr 'm')).length ≤ s.length :=
      (List.dropWhile_suffix _).sublist.length_le
    rw [List.length_tail, List.length_cons]
    omega
  · exact Nat.lt_succ_self _

/-- The columns of a text: bytes outside colour sequences that do not continue a character. -/
def columns (s : Bytes) : ℕ := (uncoloured s).countP fun c => c &&& 0xC0 ≠ 0x80

/-- The width of a conversion: digits of the format, if any, or the next argument. -/
inductive Width : Bytes → List Arg → ℤ → Prop
  | digits {ds : Bytes} (hds : ∀ c ∈ ds, isDigit c) (hfit : natValue ds < 2 ^ 31) :
      Width ds [] (natValue ds)
  | star {n : ℤ} (hpos : 0 ≤ n) (hfit : n < 2 ^ 31) : Width (lit "*") [.int n] n

/-- A conversion: its letters, an argument of its type, and the text and the columns it takes. -/
inductive Conversion : Bytes → Arg → Bytes → ℕ → Prop
  | s {s : Bytes} (hs : (0 : UInt8) ∉ s) : Conversion (lit "s") (.str s) s (columns s)
  | d {n : ℤ} (hn : IsInt32 n) : Conversion (lit "d") (.int n) (decimal n) (decimal n).length
  | u {n : ℕ} (hn : n < 2 ^ 32) :
      Conversion (lit "u") (.uint n) (baseText 10 n) (baseText 10 n).length
  | zu {n : ℕ} (hn : n < 2 ^ 64) :
      Conversion (lit "zu") (.uint n) (baseText 10 n) (baseText 10 n).length
  | x {n : ℕ} (hn : n < 2 ^ 32) :
      Conversion (lit "x") (.uint n) (baseText 16 n) (baseText 16 n).length

/-- A text filled up to a width, on the right if the flag `-` is given. -/
def padded (left : Bool) (width : ℤ) (cols : ℕ) (s : Bytes) : Bytes :=
  let pad := List.replicate (width - cols).toNat (chr ' ')
  if left then s ++ pad else pad ++ s

/-- **Rendering.** The text a format and its arguments stand for, when nothing is cut. -/
inductive Renders : Bytes → List Arg → Bytes → Prop
  | nil : Renders [] [] []
  | text {c : UInt8} {p : Bytes} {args : List Arg} {text : Bytes} (hzero : c ≠ 0)
      (hpercent : c ≠ chr '%') (htoken : ∀ sym ∈ xuiSymbols, ¬tokenText sym.1 <+: c :: p)
      (h : Renders p args text) : Renders (c :: p) args (c :: text)
  | token {name val p : Bytes} {args : List Arg} {text : Bytes} (hsym : (name, val) ∈ xuiSymbols)
      (h : Renders p args text) : Renders (tokenText name ++ p) args (val ++ text)
  | percent {p : Bytes} {args : List Arg} {text : Bytes} (h : Renders p args text) :
      Renders (chr '%' :: chr '%' :: p) args (chr '%' :: text)
  | conversion (left : Bool) {w letters p s text : Bytes} {wargs args : List Arg} {arg : Arg}
      {width : ℤ} {cols : ℕ} (hw : Width w wargs width) (hconv : Conversion letters arg s cols)
      (h : Renders p args text) :
      Renders (chr '%' :: ((if left then lit "-" else []) ++ w ++ letters ++ p))
        (wargs ++ arg :: args) (padded left width cols s ++ text)

/-! ### Rendering rules -/

/-- Several characters of the text. -/
theorem Renders.literal {a p text : Bytes} {args : List Arg}
    (ha : (0 : UInt8) ∉ a ∧ chr '%' ∉ a ∧ chr '$' ∉ a) (h : Renders p args text) :
    Renders (a ++ p) args (a ++ text) := by
  obtain ⟨hzero, hpercent, hdollar⟩ := ha
  induction a with
  | nil => exact h
  | cons c a ih =>
    rw [List.mem_cons, not_or] at hzero hpercent hdollar
    refine .text (Ne.symm hzero.1) (Ne.symm hpercent.1) ?_ (ih hzero.2 hpercent.2 hdollar.2)
    -- a token begins with a dollar sign
    rintro sym - ⟨rest, hrest⟩
    exact hdollar.1 (List.head_eq_of_cons_eq hrest)

/-- A conversion without a width adds the text of its argument. -/
theorem Renders.plain {letters p s text : Bytes} {arg : Arg} {args : List Arg} {cols : ℕ}
    (hconv : Conversion letters arg s cols) (h : Renders p args text) :
    Renders (chr '%' :: (letters ++ p)) (arg :: args) (s ++ text) := by
  have hwidth : Width [] [] 0 := .digits (List.forall_mem_nil _) (by decide)
  have hpad : padded false 0 cols s = s := by
    unfold padded
    rw [Int.toNat_eq_zero.mpr (by omega), List.replicate_zero]
    rfl
  have hrenders := Renders.conversion false hwidth hconv h
  rwa [hpad] at hrenders

/-! ### Stores -/

/-- The text stored so far. -/
def Sink.text (o : Sink) : Bytes := o.buf.content o.i

/-- The sink stayed inside its buffer of `size` bytes, and leaves room for the terminator. -/
structure Sink.Fits (o : Sink) (size : ℕ) : Prop where
  room : o.i ≤ size - 1
  inBounds : o.buf.InBounds
  cap : o.buf.cap = size

variable {size : ℕ} {o : Sink}

theorem Sink.length_text (o : Sink) : o.text.length = o.i := Slots.length_content _ _

theorem Sink.text_store (o : Sink) (c : UInt8) : (o.store c).text = o.text ++ [c] :=
  Slots.content_write_self o.buf o.i c

theorem Sink.Fits.store (h : o.Fits size) (hroom : o.i < size - 1) (c : UInt8) :
    (o.store c).Fits size := by
  refine ⟨hroom, (Slots.inBounds_write _ _ _).mpr ⟨h.inBounds, ?_⟩, h.cap⟩
  rw [h.cap]
  omega

/-- The loop stores what fits. -/
theorem text_putWhile (size : ℕ) (s : Bytes) (o : Sink) :
    (putWhile size s o).text = emit (size - 1) o.text s := by
  unfold emit
  rw [Sink.length_text]
  induction s generalizing o with
  | nil => rw [List.take_nil, List.append_nil]; rfl
  | cons c s ih =>
    rw [putWhile]
    by_cases hroom : o.i < size - 1
    · have hnext : size - 1 - o.i = size - 1 - (o.store c).i + 1 := by
        show size - 1 - o.i = size - 1 - (o.i + 1) + 1
        omega
      rw [if_pos hroom, ih, Sink.text_store, hnext, List.take_succ_cons, List.append_assoc,
        List.singleton_append]
    · rw [if_neg hroom, Nat.sub_eq_zero_of_le (by omega), List.take_zero, List.append_nil]

theorem Sink.Fits.putWhile (h : o.Fits size) (s : Bytes) : (putWhile size s o).Fits size := by
  induction s generalizing o with
  | nil => exact h
  | cons c s ih =>
    rw [X3D.putWhile]
    split
    · next hroom => exact ih (h.store hroom c)
    · exact h

theorem text_putField (left : Bool) (width : ℤ) (len : ℕ) (s : Bytes) (o : Sink) :
    (putField size left width len s o).text = field (size - 1) left width len o.text s := by
  unfold putField field padWhile
  cases left with
  | false =>
    show (putWhile size s _).text = emit (size - 1) _ s
    rw [text_putWhile]
    exact congrArg (emit (size - 1) · s) (text_putWhile size _ o)
  | true =>
    show (putWhile size _ (putWhile size s o)).text = emit (size - 1) _ _
    rw [text_putWhile, text_putWhile]

theorem Sink.Fits.putField (h : o.Fits size) (left : Bool) (width : ℤ) (len : ℕ) (s : Bytes) :
    (putField size left width len s o).Fits size := by
  unfold X3D.putField padWhile
  cases left with
  | false => exact (h.putWhile _).putWhile s
  | true => exact (h.putWhile s).putWhile _

theorem text_putFixed1 (f : Double) (o : Sink) :
    (putFixed1 size f o).text = fixed1 (size - 1) o.text f := by
  unfold putFixed1 fixed1
  dsimp only
  rw [text_putWhile, text_putWhile, text_putWhile]

theorem Sink.Fits.putFixed1 (h : o.Fits size) (f : Double) : (putFixed1 size f o).Fits size :=
  ((h.putWhile _).putWhile _).putWhile _

/-! ### Tokens -/

/-- The names of the table are distinct, short, and do not end a token. -/
theorem xuiSymbols_wellFormed : ∀ sym ∈ xuiSymbols, chr '\x7d' ∉ sym.1 ∧ sym.1.length < 64 ∧
    xuiSymbols.lookup sym.1 = some sym.2 := by
  decide +kernel

theorem xuiToken_tokenText {name val : Bytes} (h : (name, val) ∈ xuiSymbols) (p : Bytes) :
    xuiToken (tokenText name ++ p) = some (val, p) := by
  obtain ⟨hbrace, hlen, hlookup⟩ := xuiSymbols_wellFormed _ h
  have hcut : cut (chr '\x7d') (name ++ lit "\x7d" ++ p) = some (name, p) := by
    rw [List.append_assoc]
    exact cut_append hbrace p
  have hopen : tokenText name ++ p = chr '$' :: chr '\x7b' :: (name ++ lit "\x7d" ++ p) := rfl
  rw [hopen, xuiToken, if_pos ⟨rfl, rfl⟩, hcut]
  dsimp only
  rw [if_pos hlen, hlookup]
  rfl

/-- Only tokens are replaced. -/
theorem exists_of_xuiToken {p val rest : Bytes} (h : xuiToken p = some (val, rest)) :
    ∃ name, (name, val) ∈ xuiSymbols ∧ p = tokenText name ++ rest := by
  match p with
  | [] => exact absurd h.symm (Option.some_ne_none _)
  | [_] => exact absurd h.symm (Option.some_ne_none _)
  | d :: b :: p =>
    rw [xuiToken] at h
    -- each of the tests must have passed: the opening, the length, the table
    by_cases hopen : d = chr '$' ∧ b = chr '\x7b'
    · rw [if_pos hopen] at h
      cases hcut : cut (chr '\x7d') p with
      | none =>
        rw [hcut] at h
        exact absurd h.symm (Option.some_ne_none _)
      | some r =>
        obtain ⟨name, q⟩ := r
        rw [hcut] at h
        dsimp only at h
        by_cases hlen : name.length < 64
        · rw [if_pos hlen, Option.map_eq_some_iff] at h
          obtain ⟨val', hlookup, heq⟩ := h
          obtain ⟨rfl, rfl⟩ := Prod.mk.inj heq
          obtain ⟨pre, post, htable, -⟩ := List.lookup_eq_some_iff.mp hlookup
          refine ⟨name, ?_, ?_⟩
          · rw [htable]
            exact List.mem_append_right _ List.mem_cons_self
          · rw [hopen.1, hopen.2, (cut_eq_some.mp hcut).2, tokenText, List.append_assoc,
              List.append_assoc]
            rfl
        · rw [if_neg hlen] at h
          exact absurd h.symm (Option.some_ne_none _)
    · rw [if_neg hopen] at h
      exact absurd h.symm (Option.some_ne_none _)

theorem xuiToken_percent (p : Bytes) : xuiToken (chr '%' :: p) = none := by
  cases p with
  | nil => rfl
  | cons b p =>
    have hdollar : ¬(chr '%' = chr '$' ∧ b = chr '\x7b') := fun h => absurd h.1 (by decide)
    rw [xuiToken, if_neg hdollar]

/-- Where no known token begins, nothing is replaced. -/
theorem xuiToken_eq_none {p : Bytes} (h : ∀ sym ∈ xuiSymbols, ¬tokenText sym.1 <+: p) :
    xuiToken p = none := by
  cases htoken : xuiToken p with
  | none => rfl
  | some r =>
    obtain ⟨name, hsym, hp⟩ := exists_of_xuiToken htoken
    exact absurd ⟨r.2, hp.symm⟩ (h _ hsym)

/-! ### Columns -/

/-- The scan of a string argument counts its columns. -/
theorem visibleLen_eq_columns (s : Bytes) : visibleLen s false = columns s := by
  -- behind an escape the scan goes on as if the sequence had not been there
  have hescape : ∀ t : Bytes,
      visibleLen t true = visibleLen ((t.dropWhile (· ≠ chr 'm')).tail) false := by
    intro t
    induction t with
    | nil => rfl
    | cons c t ih =>
      by_cases hm : c = chr 'm'
      · subst hm
        rfl
      · have hdrop : (c :: t).dropWhile (· ≠ chr 'm') = t.dropWhile (· ≠ chr 'm') :=
          List.dropWhile_cons_of_pos (by simpa using hm)
        rw [hdrop, ← ih, visibleLen]
        split
        · rfl
        · rw [if_pos rfl, decide_eq_true hm]
  induction s using uncoloured.induct with
  | case1 =>
    unfold columns uncoloured
    rfl
  | case2 s ih =>
    rw [visibleLen, if_pos rfl, hescape, ih]
    unfold columns
    conv_rhs => rw [uncoloured, if_pos rfl]
  | case3 c s hc ih =>
    rw [visibleLen, if_neg hc, if_neg Bool.false_ne_true, ih]
    unfold columns
    conv_rhs => rw [uncoloured, if_neg hc, List.countP_cons]
    rw [Nat.add_comm]
    simp only [decide_eq_true_eq]

/-- A colour sequence takes no column. -/
theorem columns_colour {seq : Bytes} (h : chr 'm' ∉ seq) (s : Bytes) :
    columns (27 :: (seq ++ chr 'm' :: s)) = columns s := by
  have hdrop : (seq ++ chr 'm' :: s).dropWhile (· ≠ chr 'm') = chr 'm' :: s := by
    rw [List.dropWhile_append_of_pos]
    · rfl
    · intro c hc
      have hne : c ≠ chr 'm' := fun heq => h (heq ▸ hc)
      simpa using hne
  unfold columns
  rw [uncoloured, if_pos rfl, hdrop, List.tail_cons]

/-! ### Conversions -/

/-- **Rendering.** `_xui_utoa` writes the canonical numeral. -/
theorem xuiUtoa_eq_baseText {n base : ℕ} (hbase : 1 < base) (h : n < 2 ^ 64) :
    xuiUtoa n base = baseText base n := by
  unfold xuiUtoa baseText
  split
  · rfl
  · rw [utoaLoop_eq hbase _ _ _ (h.trans_le (Nat.pow_le_pow_left hbase 64)), List.append_nil]

/-- No letter of a conversion is taken for a part of the width or for the flag. -/
theorem Conversion.exists_head {letters s : Bytes} {arg : Arg} {cols : ℕ}
    (h : Conversion letters arg s cols) (p : Bytes) :
    ∃ c rest, letters ++ p = c :: rest ∧ isDigit c = false ∧ c ≠ chr '-' ∧ c ≠ chr '*' := by
  cases h with
  | s _ => exact ⟨chr 's', p, rfl, by decide⟩
  | d _ => exact ⟨chr 'd', p, rfl, by decide⟩
  | u _ => exact ⟨chr 'u', p, rfl, by decide⟩
  | zu _ => exact ⟨chr 'z', chr 'u' :: p, rfl, by decide⟩
  | x _ => exact ⟨chr 'x', p, rfl, by decide⟩

/-- What a conversion does behind its width. -/
theorem Conversion.vsnConversion {letters s : Bytes} {arg : Arg} {cols : ℕ}
    (h : Conversion letters arg s cols) (hlong : ∀ t, arg = .str t → t.length < 2 ^ 31)
    (left : Bool) (width : ℤ) (p : Bytes) (args : List Arg) (o : Sink) :
    vsnConversion size left width (letters ++ p) (arg :: args) o =
      some (p, args, putField size left width cols s o) := by
  cases h with
  | s _ =>
    rw [← visibleLen_eq_columns]
    exact if_pos (hlong s rfl)
  | d hn =>
    rw [← xuiItoa_eq_decimal (natAbs_lt_of_isInt32 hn)]
    rfl
  | u hn =>
    rw [← xuiUtoa_eq_baseText (by decide) (hn.trans (by decide))]
    rfl
  | zu hn =>
    rw [← xuiUtoa_eq_baseText (by decide) hn]
    rfl
  | x hn =>
    rw [← xuiUtoa_eq_baseText (by decide) (hn.trans (by decide))]
    rfl

/-- The width is read to its end. -/
theorem Width.vsnWidth {w p : Bytes} {wargs : List Arg} {width : ℤ} (h : Width w wargs width)
    (hdigit : ∀ c ∈ p.head?, isDigit c = false) (hstar : p.head? ≠ some (chr '*'))
    (args : List Arg) : vsnWidth (w ++ p) (wargs ++ args) = some (width, p, args) := by
  -- what follows is not taken for a digit of the width
  have hrest : p.dropWhile isDigit = p := by
    cases p with
    | nil => rfl
    | cons c p =>
      refine List.dropWhile_cons_of_neg ?_
      rw [hdigit c rfl]
      exact Bool.false_ne_true
  cases h with
  | star _ _ =>
    show (atoiLoopChecked p width).map _ = _
    rw [atoiLoopChecked_of_head hdigit, Option.map_some]
    show some (width, p.dropWhile isDigit, args) = _
    rw [hrest]
  | digits hds hfit =>
    have hhead : (w ++ p).head? ≠ some (chr '*') := by
      cases w with
      | nil => exact hstar
      | cons d w =>
        intro hd
        obtain rfl : d = chr '*' := Option.some.inj hd
        exact absurd (hds _ List.mem_cons_self) (by decide)
    unfold X3D.vsnWidth
    simp only [decide_eq_true_eq, if_neg hhead]
    rw [List.nil_append, atoiLoopChecked_append hds hdigit le_rfl hfit, Option.map_some,
      List.dropWhile_append_of_pos hds, hrest]
    rfl

/-- No width is taken for the flag. -/
theorem Width.head?_ne_minus {w p : Bytes} {wargs : List Arg} {width : ℤ} (h : Width w wargs width)
    (hp : p.head? ≠ some (chr '-')) : (w ++ p).head? ≠ some (chr '-') := by
  cases h with
  | star _ _ => exact fun h => absurd (Option.some.inj h) (by decide)
  | digits hds _ =>
    cases w with
    | nil => exact hp
    | cons d ds =>
      intro hd
      obtain rfl : d = chr '-' := Option.some.inj hd
      exact absurd (hds _ List.mem_cons_self) (by decide)

/-- What a directive does. -/
theorem vsnDirective_eq {w letters s : Bytes} {wargs : List Arg} {arg : Arg} {width : ℤ}
    {cols : ℕ} (hw : Width w wargs width) (hconv : Conversion letters arg s cols)
    (hlong : ∀ t, arg = .str t → t.length < 2 ^ 31) (left : Bool) (p : Bytes)
    (args : List Arg) (o : Sink) :
    vsnDirective size ((if left then lit "-" else []) ++ w ++ letters ++ p)
        (wargs ++ arg :: args) o =
      some (p, args, putField size left width cols s o) := by
  obtain ⟨c, rest, hhead, hdigit, hminus, hstar⟩ := hconv.exists_head p
  have hwidth : vsnWidth (w ++ (letters ++ p)) (wargs ++ arg :: args) =
      some (width, letters ++ p, arg :: args) := by
    refine hw.vsnWidth ?_ ?_ _
    · rw [hhead]
      rintro d hd
      obtain rfl : c = d := Option.some.inj hd
      exact hdigit
    · rw [hhead]
      exact fun h => hstar (Option.some.inj h)
  have hflag : (w ++ (letters ++ p)).head? ≠ some (chr '-') := by
    refine hw.head?_ne_minus ?_
    rw [hhead]
    exact fun h => hminus (Option.some.inj h)
  rw [List.append_assoc, List.append_assoc]
  cases left with
  | true =>
    show (vsnWidth (w ++ (letters ++ p)) _).bind _ = _
    rw [hwidth, Option.bind_some]
    exact hconv.vsnConversion hlong true width p args o
  | false =>
    unfold vsnDirective
    simp only [Bool.false_eq_true, if_false, List.nil_append, decide_eq_true_eq, if_neg hflag]
    rw [hwidth, Option.bind_some, decide_eq_false hflag]
    exact hconv.vsnConversion hlong false width p args o

/-! ### Runs -/

/-- A conversion adds its padded text. -/
theorem field_take_padded (cap : ℕ) (left : Bool) (width : ℤ) (cols : ℕ) (full s : Bytes) :
    field cap left width cols (full.take cap) s =
      (full ++ padded left width cols s).take cap := by
  unfold field padded
  cases left with
  | false =>
    show emit cap (emit cap (full.take cap) _) s = (full ++ (_ ++ s)).take cap
    rw [emit_take, emit_take, List.append_assoc]
  | true =>
    show emit cap (emit cap (full.take cap) s) _ = (full ++ (s ++ _)).take cap
    rw [emit_take, emit_take, List.append_assoc]

theorem vsnLoop_of_full {fuel : ℕ} (h : size - 1 ≤ o.i) (p : Bytes) (args : List Arg) :
    vsnLoop size fuel p args o = some o := by
  match fuel, p with
  | 0, _ => rfl
  | _ + 1, [] => rfl
  | _ + 1, _ :: _ => exact if_neg (by omega)

/-- The run ends, inside the buffer, with the beginning of `text` stored. -/
def Stores (size fuel : ℕ) (p : Bytes) (args : List Arg) (o : Sink) (text : Bytes) : Prop :=
  ∃ o', vsnLoop size fuel p args o = some o' ∧ o'.Fits size ∧ o'.text = text.take (size - 1)

/-- A full buffer already holds the beginning of any longer text. -/
theorem stores_of_room {fuel : ℕ} {p full text : Bytes} {args : List Arg} (ho : o.Fits size)
    (htext : o.text = full.take (size - 1))
    (h : o.i < size - 1 → full.length = o.i → Stores size fuel p args o (full ++ text)) :
    Stores size fuel p args o (full ++ text) := by
  have hlen := congrArg List.length htext
  rw [Sink.length_text, List.length_take] at hlen
  by_cases hroom : o.i < size - 1
  · exact h hroom (by omega)
  · refine ⟨o, vsnLoop_of_full (by omega) p args, ho, ?_⟩
    rw [htext, List.take_append_of_le_length (by omega)]

/-- One byte more. -/
theorem text_store_take {full : Bytes} (htext : o.text = full.take (size - 1))
    (hroom : o.i < size - 1) (hlen : full.length = o.i) (c : UInt8) :
    (o.store c).text = (full ++ [c]).take (size - 1) := by
  rw [Sink.text_store, htext, List.take_of_length_le (by omega : full.length ≤ size - 1),
    List.take_of_length_le]
  rw [List.length_append, List.length_singleton]
  omega

/-- **Run lemma.** The loop stores the beginning of the text its format stands for. -/
theorem vsnLoop_renders {p text : Bytes} {args : List Arg} (h : Renders p args text)
    (hlong : ∀ s, .str s ∈ args → s.length < 2 ^ 31) {fuel : ℕ} (hfuel : p.length ≤ fuel)
    {full : Bytes} (ho : o.Fits size) (htext : o.text = full.take (size - 1)) :
    Stores size fuel p args o (full ++ text) := by
  -- along the format; where the buffer is full there is nothing left to show
  induction h generalizing fuel full o with
  | nil =>
    refine ⟨o, ?_, ho, ?_⟩
    · cases fuel <;> rfl
    · rw [htext, List.append_nil]
  | @text c p args text hzero hpercent htoken h ih =>
    refine stores_of_room ho htext fun hroom hlen => ?_
    obtain ⟨fuel, rfl⟩ := Nat.exists_eq_succ_of_ne_zero (Nat.ne_zero_of_lt hfuel)
    have hrest := ih hlong (Nat.le_of_succ_le_succ hfuel) (ho.store hroom c)
      (text_store_take htext hroom hlen c)
    rw [List.append_assoc, List.singleton_append] at hrest
    unfold Stores
    rw [vsnLoop, if_pos hroom, xuiToken_eq_none htoken]
    dsimp only
    -- a byte that begins neither a token nor a directive is stored
    rwa [if_pos hpercent]
  | @token name val p args text hsym h ih =>
    refine stores_of_room ho htext fun hroom _ => ?_
    have hlen : (tokenText name ++ p).length = name.length + 2 + p.length + 1 := by
      rw [tokenText, List.length_append, List.length_append, List.length_append]
      show 2 + name.length + 1 + p.length = _
      omega
    obtain ⟨fuel, rfl⟩ := Nat.exists_eq_succ_of_ne_zero (by omega : fuel ≠ 0)
    have hput : (putWhile size val o).text = (full ++ val).take (size - 1) := by
      rw [text_putWhile, htext, emit_take]
    have hrest := ih hlong (by omega : p.length ≤ fuel) (ho.putWhile val) hput
    rw [List.append_assoc] at hrest
    obtain ⟨c, q, hq⟩ : ∃ c q, tokenText name ++ p = c :: q := ⟨_, _, rfl⟩
    unfold Stores
    rw [hq, vsnLoop, if_pos hroom, ← hq, xuiToken_tokenText hsym]
    exact hrest
  | @percent p args text h ih =>
    refine stores_of_room ho htext fun hroom hlen => ?_
    obtain ⟨fuel, rfl⟩ := Nat.exists_eq_succ_of_ne_zero (Nat.ne_zero_of_lt hfuel)
    rw [List.length_cons, List.length_cons] at hfuel
    have hrest := ih hlong (by omega : p.length ≤ fuel) (ho.store hroom (chr '%'))
      (text_store_take htext hroom hlen _)
    rw [List.append_assoc, List.singleton_append] at hrest
    unfold Stores
    rw [vsnLoop, if_pos hroom]
    exact hrest
  | @conversion left w letters p s text wargs args arg width cols hw hconv h ih =>
    refine stores_of_room ho htext fun hroom _ => ?_
    obtain ⟨fuel, rfl⟩ := Nat.exists_eq_succ_of_ne_zero (Nat.ne_zero_of_lt hfuel)
    rw [List.length_cons, List.length_append] at hfuel
    have hput : (putField size left width cols s o).text =
        (full ++ padded left width cols s).take (size - 1) := by
      rw [text_putField, htext, field_take_padded]
    have hargs : ∀ t, arg = .str t → t.length < 2 ^ 31 := fun t ht =>
      hlong t (List.mem_append_right _ (ht ▸ List.mem_cons_self))
    have hrest := ih (fun t ht => hlong t (List.mem_append_right _ (List.mem_cons_of_mem _ ht)))
      (by omega : p.length ≤ fuel) (ho.putField left width cols s) hput
    rw [List.append_assoc] at hrest
    unfold Stores
    rw [vsnLoop, if_pos hroom, xuiToken_percent]
    dsimp only
    rw [if_neg (not_not_intro rfl), vsnDirective_eq hw hconv hargs]
    exact hrest

/-- **The formatter is exact.** -/
theorem printfVsn_eq (hsize : 1 ≤ size) {fmt text : Bytes} {args : List Arg}
    (h : Renders fmt args text) (hlong : ∀ s, .str s ∈ args → s.length < 2 ^ 31)
    (mem : ℕ → UInt8) :
    ∃ buf, printfVsn size fmt args mem = some (wrap32 (text.take (size - 1)).length, buf) ∧
      buf.Holds (text.take (size - 1)) ∧ buf.InBounds ∧ buf.cap = size := by
  have hstart : (⟨.block mem size, 0⟩ : Sink).Fits size :=
    ⟨Nat.zero_le _, Slots.inBounds_block mem size, rfl⟩
  have hempty : (⟨.block mem size, 0⟩ : Sink).text = ([] : Bytes).take (size - 1) :=
    List.take_nil.symm
  obtain ⟨o, hrun, ho, htext⟩ := vsnLoop_renders h hlong le_rfl hstart hempty
  rw [List.nil_append] at htext
  have hlen : (text.take (size - 1)).length = o.i := by rw [← htext, Sink.length_text]
  refine ⟨o.buf.write o.i 0, ?_, ⟨?_, ?_⟩, ?_, ho.cap⟩
  · rw [printfVsn, hrun, hlen]
    rfl
  · rw [hlen, ← htext]
    exact o.buf.content_writeList_of_le le_rfl [0]
  · rw [hlen]
    exact Function.update_self _ _ _
  · refine (Slots.inBounds_write _ _ _).mpr ⟨ho.inBounds, ?_⟩
    have := ho.room
    rw [ho.cap]
    omega

/-! ### The list-level formatter -/

/-- A token. -/
theorem printfLoop_token {cap fuel : ℕ} {p val rest out : Bytes} {args : List Arg}
    (hgo : ¬(p = [] ∨ cap ≤ out.length)) (htoken : xuiToken p = some (val, rest)) :
    printfLoop cap (fuel + 1) p args out = printfLoop cap fuel rest args (emit cap out val) := by
  rw [printfLoop, if_neg hgo, htoken]

/-- The list-level loop goes on where there is room. -/
theorem not_stops (hroom : o.i < size - 1) (c : UInt8) (p : Bytes) :
    ¬(c :: p = [] ∨ size - 1 ≤ o.text.length) := by
  rw [Sink.length_text]
  rintro (hnil | hfull)
  · exact List.cons_ne_nil _ _ hnil
  · omega

/-- A directive stores what the list-level formatter gives for it. -/
theorem printfLoop_of_vsnDirective {rest : Bytes} {args : List Arg} {r : Bytes × List Arg × Sink}
    (ho : o.Fits size) (hroom : o.i < size - 1) (hr : vsnDirective size rest args o = some r)
    (fuel : ℕ) : r.2.2.Fits size ∧
      printfLoop (size - 1) (fuel + 1) (chr '%' :: rest) args o.text =
        printfLoop (size - 1) fuel r.1 r.2.1 r.2.2.text := by
  have hhead : ¬(chr '%' :: rest).head? ≠ some (chr '%') := not_not_intro rfl
  rw [printfLoop, if_neg (not_stops hroom _ _), xuiToken_percent]
  show _ ∧ (if (chr '%' :: rest).head? ≠ some (chr '%') then _ else _) = _
  rw [if_neg hhead]
  -- both read the flag and the width in the same way
  unfold vsnDirective at hr
  dsimp only at hr
  dsimp only [List.tail_cons]
  generalize decide (rest.head? = some (chr '-')) = left at hr ⊢
  generalize (if left = true then rest.tail else rest) = p at hr ⊢
  obtain ⟨⟨width, q, args'⟩, hw, hconv⟩ := Option.bind_eq_some_iff.mp hr
  unfold vsnWidth at hw
  dsimp only at hw
  generalize decide (p.head? = some (chr '*')) = star at hw ⊢
  obtain ⟨width', hwidth, heq⟩ := Option.map_eq_some_iff.mp hw
  obtain ⟨rfl, rfl, rfl⟩ : width' = width ∧ _ = q ∧ _ = args' := by
    simpa only [Prod.mk.injEq] using heq
  -- a checked width that has a result is the width
  rw [← eq_foldl_of_atoiLoopChecked hwidth]
  generalize (if star = true then argInt args else (0, args)).2 = args' at hconv ⊢
  cases hq : (if star = true then p.tail else p).dropWhile isDigit with
  | nil =>
    rw [hq] at hconv
    -- the format ends inside the directive
    exact absurd hconv.symm (Option.some_ne_none _)
  | cons c q =>
    rw [hq] at hconv
    -- the letters, in the order of the code
    unfold vsnConversion at hconv
    dsimp only at hconv ⊢
    by_cases hs : c = chr 's'
    · rw [if_pos hs] at hconv ⊢
      by_cases hlong : (argStr args').1.length < 2 ^ 31
      · rw [if_pos hlong] at hconv
        obtain rfl := Option.some.inj hconv
        rw [← text_putField]
        exact ⟨ho.putField _ _ _ _, rfl⟩
      · rw [if_neg hlong] at hconv
        exact absurd hconv.symm (Option.some_ne_none _)
    rw [if_neg hs] at hconv ⊢
    by_cases hd : c = chr 'd'
    · rw [if_pos hd] at hconv ⊢
      obtain rfl := Option.some.inj hconv
      rw [← text_putField]
      exact ⟨ho.putField _ _ _ _, rfl⟩
    rw [if_neg hd] at hconv ⊢
    by_cases hu : c = chr 'u' ∨ c = chr 'z' ∧ q.head? = some (chr 'u')
    · rw [if_pos hu] at hconv ⊢
      obtain rfl := Option.some.inj hconv
      rw [← text_putField]
      exact ⟨ho.putField _ _ _ _, rfl⟩
    rw [if_neg hu] at hconv ⊢
    by_cases hx : c = chr 'x'
    · rw [if_pos hx] at hconv ⊢
      obtain rfl := Option.some.inj hconv
      rw [← text_putField]
      exact ⟨ho.putField _ _ _ _, rfl⟩
    rw [if_neg hx] at hconv ⊢
    by_cases hdot : c = chr '.'
    · rw [if_pos hdot] at hconv ⊢
      by_cases hfixed : (lit "1f").isPrefixOf q = true
      · rw [if_pos hfixed] at hconv ⊢
        obtain rfl := Option.some.inj hconv
        rw [← text_putFixed1]
        exact ⟨ho.putFixed1 _, rfl⟩
      rw [if_neg hfixed] at hconv ⊢
      by_cases hend : q = []
      · rw [if_pos hend] at hconv
        exact absurd hconv.symm (Option.some_ne_none _)
      · rw [if_neg hend] at hconv
        obtain rfl := Option.some.inj hconv
        exact ⟨ho, rfl⟩
    · -- any other letter stands for itself
      rw [if_neg hdot] at hconv ⊢
      obtain rfl := Option.some.inj hconv
      rw [← Sink.text_store]
      exact ⟨ho.store hroom c, rfl⟩

/-- **Refinement.** A run of the formatter in its buffer stores what the list-level formatter
gives. -/
theorem printfLoop_of_vsnLoop {fuel : ℕ} {p : Bytes} {args : List Arg} {o' : Sink}
    (ho : o.Fits size) (h : vsnLoop size fuel p args o = some o') :
    o'.text = printfLoop (size - 1) fuel p args o.text := by
  induction fuel generalizing p args o with
  | zero =>
    obtain rfl := Option.some.inj h
    rfl
  | succ fuel ih =>
    cases p with
    | nil =>
      obtain rfl := Option.some.inj h
      rw [printfLoop, if_pos (Or.inl rfl)]
    | cons c rest =>
      rw [vsnLoop] at h
      by_cases hroom : o.i < size - 1
      swap
      · -- the buffer is full, and the list-level formatter stores no more
        rw [if_neg hroom] at h
        obtain rfl := Option.some.inj h
        refine (printfLoop_full ?_ _ _ _).symm
        rw [Sink.length_text]
        omega
      rw [if_pos hroom] at h
      cases htoken : xuiToken (c :: rest) with
      | some r =>
        rw [htoken] at h
        have hrest := ih (ho.putWhile r.1) h
        rwa [text_putWhile, ← printfLoop_token (not_stops hroom c rest) htoken] at hrest
      | none =>
        rw [htoken] at h
        dsimp only at h
        by_cases hpercent : c = chr '%'
        · subst hpercent
          rw [if_neg (not_not_intro rfl)] at h
          obtain ⟨r, hr, hrun⟩ := Option.bind_eq_some_iff.mp h
          obtain ⟨hfits, hstep⟩ := printfLoop_of_vsnDirective ho hroom hr fuel
          rw [hstep]
          exact ih hfits hrun
        · have hhead : (c :: rest).head? ≠ some (chr '%') := fun hc => hpercent (Option.some.inj hc)
          rw [if_pos hpercent] at h
          -- an ordinary byte
          have hrest := ih (ho.store hroom c) h
          rw [printfLoop, if_neg (not_stops hroom c rest), htoken]
          show o'.text = (if (c :: rest).head? ≠ some (chr '%') then _ else _)
          rw [Sink.text_store] at hrest
          rwa [if_pos hhead]

/-- **Formatting rule.** A rendered format gives its text, cut to the buffer. -/
theorem printfSn_renders {fmt text : Bytes} {args : List Arg}
    (h : Renders fmt args text) (hlong : ∀ s, .str s ∈ args → s.length < 2 ^ 31) :
    printfSn size fmt args = text.take (size - 1) := by
  have hstart : (⟨.block (fun _ => 0) size, 0⟩ : Sink).Fits size :=
    ⟨Nat.zero_le _, Slots.inBounds_block _ size, rfl⟩
  have hempty : (⟨.block (fun _ => 0) size, 0⟩ : Sink).text = ([] : Bytes).take (size - 1) :=
    List.take_nil.symm
  obtain ⟨o, hrun, -, htext⟩ := vsnLoop_renders h hlong le_rfl hstart hempty
  have hlist := printfLoop_of_vsnLoop hstart hrun
  rw [htext, List.nil_append] at hlist
  exact hlist.symm

/-! ### One call -/

/-- **`printf_vsn` under truncation.** It writes inside its buffer and leaves there the beginning
of the text, terminated. The length it returns is converted to `int`. -/
theorem printfVsn_truncates {size : ℕ} (hsize : 1 ≤ size) {fmt text : Bytes} {args : List Arg}
    (h : Renders fmt args text) (hlong : ∀ s, .str s ∈ args → s.length < 2 ^ 31)
    (mem : ℕ → UInt8) :
    let written := text.take (size - 1)
    ∃ res buf, printfVsn size fmt args mem = some (res, buf) ∧ res = wrap32 written.length ∧
      (written.length < 2 ^ 31 → res = written.length) ∧ buf.Holds written ∧ buf.InBounds ∧
      buf.cap = size := by
  intro written
  obtain ⟨buf, hcall, hbuf⟩ := printfVsn_eq hsize h hlong mem
  refine ⟨wrap32 written.length, buf, hcall, rfl, fun hlen => wrap32_of_isInt32 ?_, hbuf⟩
  unfold IsInt32
  omega

theorem printfVsn_truncates_answer :
    let written := (lit "🧙   42|ab").take (10 - 1)
    ∃ res buf, printfVsn 10 (lit "$\x7bWIZARD\x7d%5d|%s") [.int 42, .str (lit "ab")]
        (fun _ => 0) = some (res, buf) ∧ res = wrap32 written.length ∧
      (written.length < 2 ^ 31 → res = written.length) ∧ buf.Holds written ∧ buf.InBounds ∧
      buf.cap = 10 := by
  have hlast : Renders (lit "%s") [.str (lit "ab")] (lit "ab") :=
    Renders.plain (.s (by decide)) .nil
  have hbar : Renders (lit "|%s") [.str (lit "ab")] (lit "|ab") :=
    .text (by decide) (by decide) (by decide) hlast
  have hfive : Width (lit "5") [] (natValue (lit "5")) := 
    .digits (show ∀ c ∈ [chr '5'], isDigit c from List.forall_mem_singleton.mpr rfl) (by decide)
  have hanswer : Conversion (lit "d") (.int 42) (decimal 42) (decimal 42).length := .d (by decide)
  have hnumber := Renders.conversion false hfive hanswer hbar
  have hpad : padded false (natValue (lit "5")) (decimal 42).length (decimal 42) = lit "   42" := by
    decide
  rw [hpad] at hnumber
  have hformat := Renders.token (by decide : (lit "WIZARD", lit "🧙") ∈ xuiSymbols) hnumber
  refine printfVsn_truncates (by decide) hformat ?_ (fun _ => 0)
  intro s hs
  rcases List.mem_cons.mp hs with h | h
  · exact absurd h (by simp)
  · obtain rfl : s = lit "ab" := by simpa using h
    decide

/-- The claim on one call. -/
def VsnExact (size : ℕ) (fmt : Bytes) (args : List Arg) (text : Bytes) (mem : ℕ → UInt8) : Prop :=
  let written := text.take (size - 1)
  ∃ buf, printfVsn size fmt args mem = some ((written.length : ℤ), buf) ∧ buf.Holds written ∧
    buf.InBounds ∧ buf.cap = size

/-- The length of a string argument is counted in an `int`. -/
theorem printfVsn_long {s : Bytes} (h : ¬s.length < 2 ^ 31) (mem : ℕ → UInt8) :
    printfVsn 2 (lit "%s") [.str s] mem = none := by
  show ((if s.length < 2 ^ 31 then some ([], [], _) else none :
    Option (Bytes × List Arg × Sink)).bind _).map _ = none
  rw [if_neg h]
  rfl

theorem length_padded (left : Bool) (width : ℤ) (cols : ℕ) (s : Bytes) :
    (padded left width cols s).length = s.length + (width - cols).toNat := by
  unfold padded
  cases left with
  | false =>
    show (List.replicate _ _ ++ s).length = _
    rw [List.length_append, List.length_replicate, Nat.add_comm]
  | true =>
    show (s ++ List.replicate _ _).length = _
    rw [List.length_append, List.length_replicate]

/-- No `int` is the length of a text of `2 ^ 31` bytes. -/
theorem not_vsnExact_of_length {fmt text : Bytes} {args : List Arg} (h : Renders fmt args text)
    (hargs : ∀ s, .str s ∈ args → s.length < 2 ^ 31) (hlen : text.length = 2 ^ 31)
    (mem : ℕ → UInt8) : ¬VsnExact (2 ^ 31 + 1) fmt args text mem := by
  rintro ⟨buf, hcall, -⟩
  obtain ⟨buf', hcall', -⟩ := printfVsn_eq (Nat.le_add_left 1 _) h hargs mem
  rw [hcall', List.take_of_length_le (by omega), hlen] at hcall
  have hres : wrap32 (2 ^ 31 : ℕ) = (2 ^ 31 : ℕ) := congrArg Prod.fst (Option.some.inj hcall)
  exact absurd hres (by decide)

/-- A text of `2 ^ 31` bytes is returned wrongly, and an argument of that length is not printed
at all. -/
theorem long_text_fails :
    (∃ text, Renders (lit "%*sa") [.int (2 ^ 31 - 1), .str []] text ∧
      ∀ mem, ¬VsnExact (2 ^ 31 + 1) (lit "%*sa") [.int (2 ^ 31 - 1), .str []] text mem) ∧
    ∃ s text, Renders (lit "%s") [.str s] text ∧
      ∀ mem, ¬VsnExact 2 (lit "%s") [.str s] text mem := by
  constructor
  · -- padded to `INT_MAX` columns, and one byte more
    have hstar : Width (lit "*") [.int (2 ^ 31 - 1)] (2 ^ 31 - 1) := .star (by decide) (by decide)
    have hempty : Conversion (lit "s") (.str []) [] (columns []) := .s List.not_mem_nil
    have hlast : Renders (lit "a") [] (lit "a") :=
      .text (by decide) (by decide) (by decide) .nil
    have hformat := Renders.conversion false hstar hempty hlast
    refine ⟨_, hformat, not_vsnExact_of_length hformat ?_ ?_⟩
    · intro s hs
      rcases List.mem_cons.mp hs with h | h
      · exact absurd h (by simp)
      · obtain rfl : s = [] := by simpa using h
        decide
    · have hcols : columns [] = 0 := by rw [← visibleLen_eq_columns]; rfl
      have hone : (lit "a").length = 1 := rfl
      rw [hcols, List.length_append, length_padded, hone, List.length_nil]
      omega
  · -- the length of the argument is no `int`
    have hlong : ¬(List.replicate (2 ^ 31) (chr 'a')).length < 2 ^ 31 := by
      rw [List.length_replicate]
      omega
    have harg : Conversion (lit "s") (.str (List.replicate (2 ^ 31) (chr 'a'))) _ _ :=
      .s fun h => absurd (List.eq_of_mem_replicate h) (by decide)
    refine ⟨_, _, Renders.plain harg .nil, fun mem hexact => ?_⟩
    obtain ⟨buf, hcall, -⟩ := hexact
    rw [printfVsn_long hlong] at hcall
    exact absurd hcall.symm (Option.some_ne_none _)

end X3D
