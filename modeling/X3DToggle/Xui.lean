import X3DToggle.Libc

/-!
# The formatter `printf_vsn`

Every text the C programs build goes through one formatter, generated into `xui.c`. It knows
`%s`, `%d`, `%u`, `%zu`, `%x` and `%.1f`, with an optional `-` and width, and replaces
`${NAME}` tokens of the format. What it does not know it does not reject: after the `%` it
copies the next character, and `%.` consumes one more character whatever it is. So `%.2f`
prints `f` and takes no argument (`printfSn_dot2f`).

`printfLoop` is its main loop. `cap` is `size - 1`, the number of bytes that may be written
before the terminator, `p` the rest of the format and `out` the buffer so far. Each round
consumes at least one character of the format, so the length of the format is fuel enough.
-/

namespace X3D

/-- The table of `${NAME}` tokens. -/
def xuiSymbols : List (Bytes × Bytes) :=
  [(lit "CACHED", lit "🐇"), (lit "FREQU", lit "🐆"), (lit "CACHELIZ", lit "🦎"),
   (lit "CACHEBEAR", lit "🐻"), (lit "QUERY", lit "❓"), (lit "TOPSWAP", lit "🔄"),
   (lit "DUALIZE", lit "♊"), (lit "PINNED", lit "📌"), (lit "HUT", lit "🛖 "),
   (lit "CHICKEN", lit "🐥"), (lit "MANUAL", lit "🔧"), (lit "SLEEPY", lit "🐨"),
   (lit "STOPSIGN", lit "🛑"), (lit "SCHED", lit "🐙"), (lit "BOOST", lit "🦅"),
   (lit "CCD0", lit "0️⃣ "), (lit "CCD1", lit "1️⃣ "), (lit "DRIVER", lit "🚛"),
   (lit "EPP", lit "🦊"), (lit "GOV", lit "🐺"), (lit "SMT", lit "👥"), (lit "PLAT", lit "💻"),
   (lit "ALRIGHT", lit "✅"), (lit "XOUT", lit "❌ "), (lit "WARN", lit "⚠️"),
   (lit "NOTICE", lit "💡"), (lit "WIPE", lit "🧹"), (lit "ROCKET", lit "🚀"),
   (lit "SPARKLE", lit "✨"), (lit "RELOAD", lit "🔄"), (lit "SCREEN", lit "🖥️ "),
   (lit "TOOLS", lit "🛠️ "), (lit "SEARCH", lit "🔍"), (lit "PACKAGE", lit "📦"),
   (lit "HAMMER", lit "🔨"), (lit "PADLOCK", lit "🔐"), (lit "SHIELD", lit "🛡️ "),
   (lit "GLOBE", lit "🌐"), (lit "PAUSE", lit "⏸️ "), (lit "TRASHCAN", lit "🗑️ "),
   (lit "UNLOCK", lit "🔓 "), (lit "GEAR", lit "⚙️ "), (lit "ALERT", lit "ℹ️ "),
   (lit "WIZARD", lit "🧙"), (lit "WAND", lit "🪄"), (lit "LLAP", lit "🖖 "),
   (lit "COLOR_RESET", 27 :: lit "[0m"), (lit "COLOR_RED", 27 :: lit "[31m"),
   (lit "COLOR_GREEN", 27 :: lit "[32m"), (lit "COLOR_YELLOW", 27 :: lit "[33m"),
   (lit "COLOR_BLUE", 27 :: lit "[34m"), (lit "COLOR_CYAN", 27 :: lit "[36m"),
   (lit "COLOR_BOLD", 27 :: lit "[1m"), (lit "COLOR_DIM", 27 :: lit "[2m")]

/-! ### Numbers -/

/-- The character of a digit. -/
def digitChar (r : ℕ) : UInt8 := if 9 < r then (r - 10 + 97).toUInt8 else (r + 48).toUInt8

/-- The division loop of `_xui_utoa`, with the reversal `_xui_rev` folded in. -/
def utoaLoop (base : ℕ) : ℕ → ℕ → Bytes → Bytes
  | 0, _, s => s
  | fuel + 1, n, s => if n = 0 then s else utoaLoop base fuel (n / base) (digitChar (n % base) :: s)

/-- `_xui_utoa`; an argument of 64 bits has at most 64 digits. -/
def xuiUtoa (n base : ℕ) : Bytes := if n = 0 then lit "0" else utoaLoop base 64 n []

/-- `_xui_itoa(n, s, 10)`. -/
def xuiItoa (n : ℤ) : Bytes :=
  if n = 0 then lit "0"
  else if n < 0 then chr '-' :: utoaLoop 10 64 n.natAbs []
  else utoaLoop 10 64 n.natAbs []

/-! ### The formatter -/

/-- An argument of a variadic call. -/
inductive Arg where
  /-- `const char *`. -/
  | str (s : Bytes)
  /-- `int`. -/
  | int (n : ℤ)
  /-- `unsigned int`, `size_t`. -/
  | uint (n : ℕ)
  /-- `double`. -/
  | dbl (d : Double)

/-- `va_arg(args, const char *)`. -/
def argStr : List Arg → Bytes × List Arg
  | .str s :: args => (s, args)
  | args => ([], args.tail)

/-- `va_arg(args, int)`. -/
def argInt : List Arg → ℤ × List Arg
  | .int n :: args => (n, args)
  | args => (0, args.tail)

/-- `va_arg(args, unsigned int)`. -/
def argUint : List Arg → ℕ × List Arg
  | .uint n :: args => (n, args)
  | args => (0, args.tail)

/-- `va_arg(args, double)`. -/
def argDbl : List Arg → Double × List Arg
  | .dbl d :: args => (d, args)
  | args => (.fin 0, args.tail)

/-- `for (...; s[k] && i < size - 1; k++) buf[i++] = s[k]`. -/
def emit (cap : ℕ) (out s : Bytes) : Bytes := out ++ s.take (cap - out.length)

/-- Characters that take up a column: neither inside an escape sequence nor the continuation
of a multi-byte character. -/
def visibleLen : Bytes → Bool → ℕ
  | [], _ => 0
  | c :: s, inEscape =>
    if c = 27 then visibleLen s true
    else if inEscape then visibleLen s (c ≠ chr 'm')
    else (if c &&& 0xC0 ≠ 0x80 then 1 else 0) + visibleLen s false

/-- An argument with its padding. -/
def field (cap : ℕ) (left : Bool) (width : ℤ) (len : ℕ) (out s : Bytes) : Bytes :=
  let pad := List.replicate (width - len).toNat (chr ' ')
  if left then emit cap (emit cap out s) pad else emit cap (emit cap out pad) s

/-- A known `${NAME}` at the front of the format: its value and the rest of the format. -/
def xuiToken (p : Bytes) : Option (Bytes × Bytes) :=
  match p with
  | d :: b :: p =>
    if d = chr '$' ∧ b = chr '\x7b' then
      match cut (chr '\x7d') p with
      | some (name, rest) =>
        if name.length < 64 then (xuiSymbols.lookup name).map fun val => (val, rest) else none
      | none => none
    else none
  | _ => none

/-- `%.1f`: the whole part and one digit, both towards zero. -/
def fixed1 (cap : ℕ) (out : Bytes) (f : Double) : Bytes :=
  let whole := f.toInt 64
  let frac := (((f.add (Double.round whole).neg).mul ten).toInt 32).natAbs
  emit cap (emit cap (emit cap out (xuiItoa whole)) [chr '.']) [(frac + 48).toUInt8]

/-- The loop of `printf_vsn`. -/
def printfLoop (cap : ℕ) : ℕ → Bytes → List Arg → Bytes → Bytes
  | 0, _, _, out => out
  | fuel + 1, p, args, out =>
    if p = [] ∨ cap ≤ out.length then out
    else match xuiToken p with
    | some (val, rest) => printfLoop cap fuel rest args (emit cap out val)
    | none =>
      if p.head? ≠ some (chr '%') then printfLoop cap fuel p.tail args (out ++ p.take 1)
      else
        let p := p.tail
        let left : Bool := p.head? = some (chr '-')
        let p := if left then p.tail else p
        let star : Bool := p.head? = some (chr '*')
        let (width, args) := if star then argInt args else (0, args)
        let p := if star then p.tail else p
        let width := (p.takeWhile isDigit).foldl (fun w c => w * 10 + digit c) width
        match p.dropWhile isDigit with
        | [] => out ++ [0]
        | c :: rest =>
          if c = chr 's' then
            let (s, args) := argStr args
            printfLoop cap fuel rest args (field cap left width (visibleLen s false) out s)
          else if c = chr 'd' then
            let (n, args) := argInt args
            printfLoop cap fuel rest args
              (field cap left width (xuiItoa n).length out (xuiItoa n))
          else if c = chr 'u' ∨ c = chr 'z' ∧ rest.head? = some (chr 'u') then
            let (n, args) := argUint args
            printfLoop cap fuel (if c = chr 'z' then rest.tail else rest) args
              (field cap left width (xuiUtoa n 10).length out (xuiUtoa n 10))
          else if c = chr 'x' then
            let (n, args) := argUint args
            printfLoop cap fuel rest args
              (field cap left width (xuiUtoa n 16).length out (xuiUtoa n 16))
          else if c = chr '.' then
            if (lit "1f").isPrefixOf rest then
              let (f, args) := argDbl args
              printfLoop cap fuel (rest.drop 2) args (fixed1 cap out f)
            -- an unknown precision: the character after the point is dropped
            else printfLoop cap fuel (rest.drop 1) args out
          else printfLoop cap fuel rest args (out ++ [c])

/-- `printf_sn(buf, size, fmt, ...)`: what it leaves in `buf`, for a positive size. -/
def printfSn (size : ℕ) (fmt : Bytes) (args : List Arg) : Bytes :=
  printfLoop (size - 1) fmt.length fmt args []

/-! ### The formats in use -/

/-- `printf_sn(buf, n, "%s", s)` copies at most `n - 1` bytes. -/
theorem printfSn_s (n : ℕ) (s : Bytes) : printfSn n (lit "%s") [.str s] = s.take (n - 1) := by
  rcases Nat.eq_zero_or_pos (n - 1) with h | h
  · rw [h, List.take_zero, printfSn, h]
    rfl
  · have hfield : field (n - 1) false 0 (visibleLen s false) [] s = s.take (n - 1) := by
      simp [field, emit]
    have hcap : ¬n - 1 ≤ ([] : Bytes).length := by
      rw [List.length_nil]
      omega
    rw [← hfield]
    show printfLoop (n - 1) 2 [37, 115] [.str s] [] = _
    rw [printfLoop, if_neg (by simp only [hcap, or_false]; decide)]
    show printfLoop (n - 1) 1 [] [] (field (n - 1) false 0 (visibleLen s false) [] s) = _
    rw [printfLoop, if_pos (Or.inl rfl)]

/-- `printf_sn(buf, n, "%d", z)` copies at most `n - 1` bytes of the numeral. -/
theorem printfSn_d (n : ℕ) (z : ℤ) : printfSn n (lit "%d") [.int z] = (xuiItoa z).take (n - 1) := by
  rcases Nat.eq_zero_or_pos (n - 1) with h | h
  · rw [h, List.take_zero, printfSn, h]
    rfl
  · have hfield : field (n - 1) false 0 (xuiItoa z).length [] (xuiItoa z) =
        (xuiItoa z).take (n - 1) := by
      simp [field, emit]
    have hcap : ¬n - 1 ≤ ([] : Bytes).length := by
      rw [List.length_nil]
      omega
    rw [← hfield]
    show printfLoop (n - 1) 2 [37, 100] [.int z] [] = _
    rw [printfLoop, if_neg (by simp only [hcap, or_false]; decide)]
    show printfLoop (n - 1) 1 [] [] (field (n - 1) false 0 _ [] (xuiItoa z)) = _
    rw [printfLoop, if_pos (Or.inl rfl)]

/-- **`%.2f` is not understood.** The formatter drops the `2`, prints the `f` and leaves the
argument alone. -/
theorem printfSn_dot2f {n : ℕ} (h : 1 < n) (args : List Arg) :
    printfSn n (lit "%.2f") args = lit "f" := by
  have hcap : ¬n - 1 ≤ ([] : Bytes).length := by
    rw [List.length_nil]
    omega
  show printfLoop (n - 1) 4 [37, 46, 50, 102] args [] = _
  rw [printfLoop, if_neg (by simp only [hcap, or_false]; decide)]
  show printfLoop (n - 1) 3 [102] args [] = _
  rw [printfLoop, if_neg (by simp only [hcap, or_false]; decide)]
  show printfLoop (n - 1) 2 [] args [102] = _
  rw [printfLoop, if_pos (Or.inl rfl)]
  rfl

/-! ### Formats of text and `%s` -/

/-- The text a format stands for when nothing is cut: each `%s` is replaced by an argument. -/
def rendered : Bytes → List Bytes → Bytes
  | [], _ => []
  | c :: p, args =>
    if c = chr '%' then
      match p, args with
      | d :: p, s :: args => if d = chr 's' then s ++ rendered p args else []
      | _, _ => []
    else c :: rendered p args

/-- The format has no token, and each of its `k` conversions is `%s`. -/
def plainFormat : Bytes → ℕ → Bool
  | [], k => k = 0
  | c :: p, k =>
    if c = chr '%' then
      match p, k with
      | d :: p, k + 1 => d = chr 's' && plainFormat p k
      | _, _ => false
    else c ≠ chr '$' && plainFormat p k

theorem rendered_char {c : UInt8} (hc : c ≠ chr '%') (p : Bytes) (args : List Bytes) :
    rendered (c :: p) args = c :: rendered p args := by
  conv_lhs => unfold rendered
  exact if_neg hc

theorem plainFormat_char {c : UInt8} (hc : c ≠ chr '%') (p : Bytes) (k : ℕ) :
    plainFormat (c :: p) k = (decide (c ≠ chr '$') && plainFormat p k) := by
  conv_lhs => unfold plainFormat
  exact if_neg hc

/-- The loop stops when the buffer is full. -/
theorem printfLoop_full {cap : ℕ} {out : Bytes} (h : cap ≤ out.length) (fuel : ℕ) (p : Bytes)
    (args : List Arg) : printfLoop cap fuel p args out = out := by
  cases fuel with
  | zero => rfl
  | succ fuel => rw [printfLoop, if_pos (Or.inr h)]

theorem emit_take (cap : ℕ) (full s : Bytes) :
    emit cap (full.take cap) s = (full ++ s).take cap := by
  unfold emit
  rw [List.take_append, List.length_take]
  by_cases h : full.length ≤ cap
  · rw [min_eq_right h]
  · rw [min_eq_left (by omega), Nat.sub_self, Nat.sub_eq_zero_of_le (by omega)]

/-- To know what a step adds to the text it is enough to look at it where the buffer has room. -/
theorem printfLoop_of_room {cap fuel fuel' : ℕ} {p q : Bytes} {args args' : List Arg}
    {full a : Bytes}
    (h : full.length < cap → printfLoop cap fuel p args (full.take cap) =
      printfLoop cap fuel' q args' ((full ++ a).take cap)) :
    printfLoop cap fuel p args (full.take cap) =
      printfLoop cap fuel' q args' ((full ++ a).take cap) := by
  rcases lt_or_ge full.length cap with hroom | hle
  · exact h hroom
  · have hfull : cap ≤ (full.take cap).length := by
      rw [List.length_take]
      omega
    rw [printfLoop_full hfull, List.take_append_of_le_length hle, printfLoop_full hfull]

/-- The loop goes on in front of a character when there is room. -/
theorem printfLoop_goesOn {cap : ℕ} {full : Bytes} (h : full.length < cap) (c : UInt8)
    (p : Bytes) : ¬(c :: p = [] ∨ cap ≤ (full.take cap).length) := by
  rw [List.length_take]
  rintro (hnil | hcap)
  · exact List.cons_ne_nil _ _ hnil
  · omega

/-- A character of the text. -/
theorem printfLoop_char {cap : ℕ} {c : UInt8} (hpercent : c ≠ chr '%') (hdollar : c ≠ chr '$')
    (fuel : ℕ) (p : Bytes) (args : List Arg) (full : Bytes) :
    printfLoop cap (fuel + 1) (c :: p) args (full.take cap) =
      printfLoop cap fuel p args ((full ++ [c]).take cap) := by
  refine printfLoop_of_room fun hroom => ?_
  have htoken : xuiToken (c :: p) = none := by
    cases p with
    | nil => rfl
    | cons b p => exact if_neg fun h => hdollar h.1
  have hhead : (c :: p).head? ≠ some (chr '%') := fun h => hpercent (Option.some.inj h)
  have hone : (full ++ [c]).take cap = full.take cap ++ [c] := by
    have hlen : (full ++ [c]).length ≤ cap := by
      rw [List.length_append, List.length_singleton]
      omega
    rw [List.take_of_length_le hlen, List.take_of_length_le hroom.le]
  rw [hone, printfLoop, if_neg (printfLoop_goesOn hroom c p), htoken]
  show (if (c :: p).head? ≠ some (chr '%') then _ else _) = _
  rw [if_pos hhead]
  rfl

/-- Several characters of the text. -/
theorem printfLoop_text {cap fuel k : ℕ} {a : Bytes}
    (hpercent : chr '%' ∉ a) (hdollar : chr '$' ∉ a) (hfuel : fuel = k + a.length) (p : Bytes)
    (args : List Arg) (full : Bytes) :
    printfLoop cap fuel (a ++ p) args (full.take cap) =
      printfLoop cap k p args ((full ++ a).take cap) := by
  induction a generalizing fuel full with
  | nil =>
    rw [hfuel, List.append_nil]
    rfl
  | cons c a ih =>
    rw [List.mem_cons, not_or] at hpercent hdollar
    rw [hfuel, List.length_cons, ← Nat.add_assoc, List.cons_append,
      printfLoop_char (Ne.symm hpercent.1) (Ne.symm hdollar.1), ih hpercent.2 hdollar.2 rfl,
      List.append_assoc, List.singleton_append]

/-- A conversion without a width adds the text of its argument. -/
theorem field_take (cap len : ℕ) (full s : Bytes) :
    field cap false 0 len (full.take cap) s = (full ++ s).take cap := by
  show emit cap (emit cap (full.take cap) (List.replicate (0 - _ : ℤ).toNat (chr ' '))) s = _
  rw [Int.toNat_eq_zero.mpr (by omega), List.replicate_zero, emit_take, List.append_nil, emit_take]

/-- A conversion `%s`. -/
theorem printfLoop_s (cap fuel : ℕ) (p : Bytes) (s : Bytes) (args : List Arg) (full : Bytes) :
    printfLoop cap (fuel + 1) (chr '%' :: chr 's' :: p) (.str s :: args) (full.take cap) =
      printfLoop cap fuel p args ((full ++ s).take cap) := by
  refine printfLoop_of_room fun hroom => ?_
  rw [printfLoop, if_neg (printfLoop_goesOn hroom _ _), ← field_take cap (visibleLen s false)]
  rfl

/-- A conversion `%d`. -/
theorem printfLoop_d (cap fuel : ℕ) (p : Bytes) (n : ℤ) (args : List Arg) (full : Bytes) :
    printfLoop cap (fuel + 1) (chr '%' :: chr 'd' :: p) (.int n :: args) (full.take cap) =
      printfLoop cap fuel p args ((full ++ xuiItoa n).take cap) := by
  refine printfLoop_of_room fun hroom => ?_
  rw [printfLoop, if_neg (printfLoop_goesOn hroom _ _), ← field_take cap (xuiItoa n).length]
  rfl

/-- What `%.1f` prints. -/
def fixed1Text (f : Double) : Bytes :=
  let whole := f.toInt 64
  let frac := (((f.add (Double.round whole).neg).mul ten).toInt 32).natAbs
  xuiItoa whole ++ [chr '.'] ++ [(frac + 48).toUInt8]

/-- A conversion `%.1f`. -/
theorem printfLoop_dot1f (cap fuel : ℕ) (p : Bytes) (f : Double) (args : List Arg) (full : Bytes) :
    printfLoop cap (fuel + 1) (chr '%' :: chr '.' :: chr '1' :: chr 'f' :: p) (.dbl f :: args)
        (full.take cap) =
      printfLoop cap fuel p args ((full ++ fixed1Text f).take cap) := by
  refine printfLoop_of_room fun hroom => ?_
  have hfixed : fixed1 cap (full.take cap) f = (full ++ fixed1Text f).take cap := by
    unfold fixed1 fixed1Text
    dsimp only
    rw [emit_take, emit_take, emit_take, List.append_assoc, List.append_assoc, List.append_assoc]
  rw [printfLoop, if_neg (printfLoop_goesOn hroom _ _), ← hfixed]
  rfl

/-- A conversion that is not known: its character is copied, and no argument is taken. -/
theorem printfLoop_unknown_l (cap fuel : ℕ) (p : Bytes) (args : List Arg) (full : Bytes) :
    printfLoop cap (fuel + 1) (chr '%' :: chr 'l' :: p) args (full.take cap) =
      printfLoop cap fuel p args ((full ++ [chr 'l']).take cap) := by
  refine printfLoop_of_room fun hroom => ?_
  have hone : (full ++ [chr 'l']).take cap = full.take cap ++ [chr 'l'] := by
    have hlen : (full ++ [chr 'l']).length ≤ cap := by
      rw [List.length_append, List.length_singleton]
      omega
    rw [List.take_of_length_le hlen, List.take_of_length_le (by omega)]
  rw [printfLoop, if_neg (printfLoop_goesOn hroom _ _), hone]
  rfl

/-- `printf_sn(buf, n, "%d-%d", a, b)`. -/
theorem printfSn_range (n : ℕ) (a b : ℤ) :
    printfSn n (lit "%d-%d") [.int a, .int b] =
      (xuiItoa a ++ chr '-' :: xuiItoa b).take (n - 1) := by
  have hloop (full : Bytes) : printfLoop (n - 1) 5
      (chr '%' :: chr 'd' :: chr '-' :: [chr '%', chr 'd']) [.int a, .int b] (full.take (n - 1)) =
        (full ++ xuiItoa a ++ [chr '-'] ++ xuiItoa b).take (n - 1) := by
    rw [printfLoop_d, printfLoop_char (by decide) (by decide), printfLoop_d, printfLoop,
      if_pos (Or.inl rfl)]
  have hstart := hloop []
  rw [List.take_nil, List.nil_append, List.append_assoc, List.singleton_append] at hstart
  exact hstart

/-- **Run lemma.** The loop goes on with the text the rest of the format stands for. -/
theorem printfLoop_plain {n fuel : ℕ} {p : Bytes} {args : List Bytes} (full : Bytes)
    (hfuel : p.length ≤ fuel) (h : plainFormat p args.length = true) :
    printfLoop (n - 1) fuel p (args.map .str) (full.take (n - 1)) =
      (full ++ rendered p args).take (n - 1) := by
  induction fuel generalizing p args full with
  | zero =>
    obtain rfl := List.length_eq_zero_iff.mp (Nat.le_zero.mp hfuel)
    simp [printfLoop, rendered]
  | succ fuel ih =>
    cases p with
    | nil => simp [printfLoop, rendered]
    | cons c p =>
      rw [List.length_cons] at hfuel
      by_cases hc : c = chr '%'
      · subst hc
        -- the format is plain, so an `s` follows and an argument is left for it
        cases p with
        | nil => exact Bool.noConfusion h
        | cons d p =>
          cases args with
          | nil => exact Bool.noConfusion h
          | cons s args =>
            change (d = chr 's' && plainFormat p args.length) = true at h
            obtain ⟨hd, hplain⟩ := Bool.and_eq_true_iff.mp h
            obtain rfl : d = chr 's' := of_decide_eq_true hd
            rw [List.length_cons] at hfuel
            rw [List.map_cons, printfLoop_s, ih _ (by omega) hplain, List.append_assoc]
            rfl
      · rw [plainFormat_char hc] at h
        obtain ⟨hd, hplain⟩ := Bool.and_eq_true_iff.mp h
        rw [printfLoop_char hc (of_decide_eq_true hd), ih _ (by omega) hplain,
          rendered_char hc, List.append_assoc, List.singleton_append]

/-- **Formatting rule.** A format of text and `%s` gives the text it stands for, cut to the
buffer. -/
theorem printfSn_plain {n : ℕ} {fmt : Bytes} {args : List Bytes}
    (h : plainFormat fmt args.length = true) :
    printfSn n fmt (args.map .str) = (rendered fmt args).take (n - 1) := by
  have hstart := printfLoop_plain (n := n) [] (le_refl fmt.length) h
  rwa [List.take_nil, List.nil_append] at hstart

/-- Text before the first conversion. -/
theorem rendered_append {a : Bytes} (ha : chr '%' ∉ a) (p : Bytes) (args : List Bytes) :
    rendered (a ++ p) args = a ++ rendered p args := by
  induction a with
  | nil => rfl
  | cons c a ih =>
    rw [List.mem_cons, not_or] at ha
    rw [List.cons_append, rendered_char (Ne.symm ha.1), ih ha.2, List.cons_append]

@[simp] theorem rendered_s (p s : Bytes) (args : List Bytes) :
    rendered (chr '%' :: chr 's' :: p) (s :: args) = s ++ rendered p args :=
  rfl

/-- `printf_sn(buf, n, "%s\n", s)`: a line with its break. -/
theorem printfSn_line (n : ℕ) (s : Bytes) :
    printfSn n (lit "%s\n") [.str s] = (s ++ [nl]).take (n - 1) := by
  have hplain : printfSn n (lit "%s\n") ([s].map .str) = (rendered (lit "%s\n") [s]).take (n - 1) :=
    printfSn_plain (show plainFormat (lit "%s\n") 1 = true by decide)
  have hformat : lit "%s\n" = chr '%' :: chr 's' :: [nl] := by decide
  have htext : rendered (lit "%s\n") [s] = s ++ [nl] := by
    rw [hformat, rendered_s]
    rfl
  rwa [htext] at hplain

/-- `printf_sn(buf, n, "%s%s", a, b)`. -/
theorem printfSn_two (n : ℕ) (a b : Bytes) :
    printfSn n (lit "%s%s") [.str a, .str b] = (a ++ b).take (n - 1) := by
  have hplain : printfSn n (lit "%s%s") ([a, b].map .str) =
      (rendered (lit "%s%s") [a, b]).take (n - 1) :=
    printfSn_plain (show plainFormat (lit "%s%s") 2 = true by decide)
  have htext : rendered (lit "%s%s") [a, b] = a ++ b := by
    rw [show lit "%s%s" = chr '%' :: chr 's' :: chr '%' :: [chr 's'] by decide, rendered_s,
      rendered_s]
    exact congrArg (a ++ ·) (List.append_nil b)
  rwa [htext] at hplain

/-- The text before the conversions of a format is plain. -/
theorem plainFormat_append {a : Bytes} (hpercent : chr '%' ∉ a) (hdollar : chr '$' ∉ a) (p : Bytes)
    (k : ℕ) : plainFormat (a ++ p) k = plainFormat p k := by
  induction a with
  | nil => rfl
  | cons c a ih =>
    rw [List.mem_cons, not_or] at hpercent hdollar
    rw [List.cons_append, plainFormat_char (Ne.symm hpercent.1), ih hpercent.2 hdollar.2,
      decide_eq_true (Ne.symm hdollar.1), Bool.true_and]

/-- Two arguments after a word. -/
theorem rendered_two {word fmt : Bytes} (hpercent : chr '%' ∉ word ++ [chr ' '])
    (hfmt : fmt = word ++ [chr ' '] ++ [chr '%', chr 's', chr ' ', chr '%', chr 's'])
    (s t : Bytes) : rendered fmt [s, t] = word ++ [chr ' '] ++ (s ++ chr ' ' :: t) := by
  rw [hfmt, rendered_append hpercent, rendered_s, rendered_char (by decide), rendered_s]
  simp [rendered]

theorem plainFormat_two {word fmt : Bytes}
    (hplain : chr '%' ∉ word ++ [chr ' '] ∧ chr '$' ∉ word ++ [chr ' '])
    (hfmt : fmt = word ++ [chr ' '] ++ [chr '%', chr 's', chr ' ', chr '%', chr 's']) :
    plainFormat fmt 2 = true := by
  rw [hfmt, plainFormat_append hplain.1 hplain.2]
  rfl

end X3D
