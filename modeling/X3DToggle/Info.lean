import X3DToggle.Decimal
import X3DToggle.Loop
import X3DToggle.Readers

/-!
# `DAEMON_INFO` and its decoders

The reply to `DAEMON_INFO` is one line of fields `NAME=value` with `|` between them. The clients
read it into 128 bytes and find each field with `strstr`, so they take the first place where the
name occurs, be it inside a value. The state comes first, and is free text.

The formatter does not know `%llx`, so that the capabilities never get into the reply: it ends in
`CAPS=llx`. `infoRoundTrip_iff` says for which values the decoders find what the daemon put in.
-/

namespace X3D

/-! ### The clients -/

/-- What both clients take out of the reply, where they find it. -/
structure InfoFields where
  daemonState : Option Bytes
  override : Option ℤ
  bpfActive : Option Bool
  affinityActive : Bool

/-- The text behind `STATE=`, in 64 bytes, up to the first `;` or else the first `|`. -/
def infoState (info : Bytes) : Option Bytes :=
  (strstr info (lit "STATE=")).map fun p =>
    let state := printfSn 64 (lit "%s") [.str (p.drop 6)]
    match strchr state (chr ';') with
    | some (s, _) => s
    | none => (strchr state (chr '|')).elim state Prod.fst

def infoFields (info : Bytes) : InfoFields where
  daemonState := infoState info
  override := (strstr info (lit "OVERRIDE=")).map fun p => atoi (p.drop 9)
  bpfActive := (strstr info (lit "BPF_ACTIVE=")).map fun p => decide (atoi (p.drop 11) ≠ 0)
  affinityActive := (strstr info (lit "MASK=")).any fun p => !strncmp (p.drop 5) (lit "none") 4

/-- What `daemon_status` makes of the reply. -/
structure OnlineStatus where
  daemonState : Bytes
  ebpfStatus : Bytes
  liveOverride : ℤ
  refreshInterval : Double
  affinityActive : Bool

/-- The online branch of `daemon_status`. -/
def statusOnline (info : Bytes) : OnlineStatus :=
  let fields := infoFields info
  let daemonState := (fields.daemonState.getD (lit "MANUAL")).map toupper
  let ebpf := fields.bpfActive.elim (lit "DYNAMIC POLLING") fun active =>
    if active then lit "eBPF (Active)" else lit "Polling (Fallback)"
  { daemonState
    ebpfStatus := if daemonState ≠ lit "DEFAULT" then lit "INACTIVE (MANUAL OVERRIDE)" else ebpf
    liveOverride := fields.override.getD (-1)
    refreshInterval := (strstr info (lit "REFRESH_INTERVAL=")).elim (.fin (1 / 2)) fun p =>
      atof (p.drop 17)
    affinityActive := fields.affinityActive }

/-- The digits of a hexadecimal number, behind its sign and `0x`. -/
def hexDigits (p : Bytes) : Bytes :=
  let p := if p.head? = some (chr '-') ∨ p.head? = some (chr '+') then p.tail else p
  if lit "0x" <+: p ∨ lit "0X" <+: p then p.drop 2 else p

/-- `strtoul(p, NULL, 16)`. -/
def strtoul16 (p : Bytes) : ℕ :=
  let p := p.dropWhile isspace
  match strtolLoop 16 (2 ^ 64 - 1) (hexDigits p) 0 false with
  | (_, true, _) => 2 ^ 64 - 1
  | (r, false, _) => if p.head? = some (chr '-') then (2 ^ 64 - r) % 2 ^ 64 else r

/-- The capabilities the GUI finds in the reply. -/
def infoCaps (info : Bytes) : Option ℕ :=
  (strstr info (lit "CAPS=")).map fun p => strtoul16 (p.drop 5) % 2 ^ 32

/-- What the GUI's dashboard shows of the reply. -/
structure Dashboard where
  daemonState : Bytes
  ebpfStatus : Bytes
  schedMode : Bytes
  overrideVal : ℤ
  affinityActive : Bool
  caps : Option ℕ

/-- `update_dashboard_cb`, on a reply. -/
def updateDashboard (info : Bytes) : Dashboard :=
  let fields := infoFields info
  let daemonState := (fields.daemonState.getD (lit "STOPPED")).map toupper
  let ebpf := fields.bpfActive.elim (lit "INACTIVE") fun active =>
    if active then lit "HEALTHY" else lit "POLLING (FALLBACK)"
  let manual := lit "INACTIVE (MANUAL OVERRIDE)"
  let (daemonState, sched, ebpf) :=
    if daemonState = lit "DEFAULT" then (lit "ACTIVE", lit "ACTIVE", ebpf)
    else if daemonState = lit "HARD_RESET" ∨ daemonState = lit "AUTO" then
      (lit "CPPC NATIVE", manual, ebpf)
    else (lit "SUSPENDED", manual, manual)
  { daemonState
    ebpfStatus := ebpf
    schedMode := sched
    overrideVal := fields.override.getD 0
    affinityActive := fields.affinityActive
    caps := infoCaps info }

/-! ### The specification -/

/-- The values the reply is made for. -/
structure InfoInput (d : Daemon) : Prop where
  -- a string without the separators of the reply
  state : ∀ c ∈ (d.cfg.str .daemonState).val, c ≠ 0 ∧ c ≠ chr '|' ∧ c ≠ chr ';'
  override : 0 ≤ d.activeOverride ∧ d.activeOverride ≤ 4
  refresh : ∃ q, d.cfg.dbl .refreshInterval = .fin q ∧ 0 ≤ q ∧ q < 100
  mask : (0 : UInt8) ∉ (d.cfg.str .affinityMask).val

/-- The clients find what the daemon put in, as far as it gets into their buffers. -/
structure InfoRoundTrip (B : Build) (env : RequestEnv) (d : Daemon) : Prop where
  state : ∀ reply, (socketHandle B env (lit "DAEMON_INFO") d).1 = some reply →
    (infoFields (reply.take 127)).daemonState = some (d.cfg.str .daemonState).val
  override : ∀ reply, (socketHandle B env (lit "DAEMON_INFO") d).1 = some reply →
    (infoFields (reply.take 127)).override = some d.activeOverride
  bpf : ∀ reply, (socketHandle B env (lit "DAEMON_INFO") d).1 = some reply →
    (infoFields (reply.take 127)).bpfActive = some d.bpfActive
  mask : ∀ reply, (socketHandle B env (lit "DAEMON_INFO") d).1 = some reply →
    ((infoFields (reply.take 127)).affinityActive = true ↔
      (d.cfg.str .affinityMask).val ≠ lit "none")
  caps : ∀ reply, (socketHandle B env (lit "DAEMON_INFO") d).1 = some reply →
    infoCaps (reply.take 127) = some d.cfg.capabilities

/-- The values that survive: the state has no field name with another value behind it, the mask
has no `;` among its first bytes and does not merely begin with `none`, and there are no
capabilities, unless state or mask happen to spell them. -/
structure InfoPlain (st mask : Bytes) (override : ℤ) (bpf : Bool) (refresh : Double) (caps : ℕ) :
    Prop where
  stateEnd : chr ';' ∉ mask.take (15 - st.length - (fixed1Text refresh).length)
  overrideText : ∀ p, strstr st (lit "OVERRIDE=") = some p → atoi (p.drop 9) = override
  bpfText : ∀ p, strstr st (lit "BPF_ACTIVE=") = some p → decide (atoi (p.drop 11) ≠ 0) = bpf
  maskText : lit "none" <+: (strstr st (lit "MASK=")).elim mask (·.drop 5) ↔ mask = lit "none"
  capsText :
    match (strstr st (lit "CAPS=")).or
      (strstr (mask.take (73 - st.length - (fixed1Text refresh).length)) (lit "CAPS=")) with
    | some p => strtoul16 (p.drop 5) % 2 ^ 32 = caps
    -- the reply has to reach up to its own `CAPS=`
    | none => caps = 0 ∧ st.length + (fixed1Text refresh).length + mask.length ≤ 67

/-! ### The names -/

/-- The names of the fields, in the order of the reply. -/
def infoNames : List Bytes :=
  [lit "STATE=", lit "OVERRIDE=", lit "BPF_ACTIVE=", lit "REFRESH_INTERVAL=", lit "MASK=",
    lit "CAPS="]

theorem length_names : (lit "STATE=").length = 6 ∧ (lit "OVERRIDE=").length = 9 ∧
    (lit "BPF_ACTIVE=").length = 11 ∧ (lit "REFRESH_INTERVAL=").length = 17 ∧
    (lit "MASK=").length = 5 ∧ (lit "CAPS=").length = 5 := by
  decide

theorem plain_names : ∀ n ∈ infoNames, n ≠ [] ∧ chr '|' ∉ n ∧ chr ';' ∉ n := by
  decide

-- a name is told from the fields in front of it by its first letter, but for `CAPS` in `ACTIVE`
theorem override_head : lit "OVERRIDE=" = chr 'O' :: lit "VERRIDE=" ∧ chr 'O' ∉ lit "STATE=" := by
  decide

theorem bpf_head : lit "BPF_ACTIVE=" = chr 'B' :: lit "PF_ACTIVE=" ∧ chr 'B' ∉ lit "STATE=" ∧
    chr 'B' ∉ lit "OVERRIDE=" := by
  decide

theorem mask_head : lit "MASK=" = chr 'M' :: lit "ASK=" ∧ chr 'M' ∉ lit "STATE=" ∧
    chr 'M' ∉ lit "OVERRIDE=" ∧ chr 'M' ∉ lit "BPF_ACTIVE=" ∧
    chr 'M' ∉ lit "REFRESH_INTERVAL=" := by
  decide

theorem caps_head : lit "CAPS=" = chr 'C' :: lit "APS=" ∧ chr 'C' ∉ lit "STATE=" ∧
    chr 'C' ∉ lit "OVERRIDE=" ∧ chr 'C' ∉ lit "REFRESH_INTERVAL=" ∧ chr 'C' ∉ lit "MASK=" := by
  decide

/-! ### The text of the reply -/

/-- The fields from the mask on, from the refresh interval on, and so on, with the text that
follows `MASK=`. -/
def maskPart (tail : Bytes) : Bytes := lit "MASK=" ++ tail

def refreshPart (w tail : Bytes) : Bytes := lit "REFRESH_INTERVAL=" ++ w ++ chr '|' :: maskPart tail

def bpfPart (b w tail : Bytes) : Bytes := lit "BPF_ACTIVE=" ++ b ++ chr '|' :: refreshPart w tail

def overridePart (o b w tail : Bytes) : Bytes := lit "OVERRIDE=" ++ o ++ chr '|' :: bpfPart b w tail

def infoText (st o b w tail : Bytes) : Bytes :=
  lit "STATE=" ++ (st ++ chr '|' :: overridePart o b w tail)

section

variable {st o b w tail : Bytes}

theorem length_infoText (st o b w tail : Bytes) : (infoText st o b w tail).length =
    st.length + o.length + b.length + w.length + tail.length + 52 := by
  obtain ⟨h1, h2, h3, h4, h5, -⟩ := length_names
  simp only [infoText, overridePart, bpfPart, refreshPart, maskPart, List.length_append,
    List.length_cons, h1, h2, h3, h4, h5]
  omega

theorem infoText_append (st o b w tail : Bytes) :
    infoText st o b w tail = infoText st o b w [] ++ tail := by
  simp [infoText, overridePart, bpfPart, refreshPart, maskPart]

/-- A reply is cut within the text behind `MASK=`. -/
theorem take_infoText {n : ℕ} (h : st.length + o.length + b.length + w.length + 52 ≤ n) :
    (infoText st o b w tail).take n =
      infoText st o b w (tail.take (n - (st.length + o.length + b.length + w.length + 52))) := by
  have hlen := length_infoText st o b w []
  rw [List.length_nil, Nat.add_zero] at hlen
  rw [infoText_append, List.take_append, List.take_of_length_le (by omega), hlen,
    ← infoText_append]

/-- The format of the reply, with what follows each conversion. -/
theorem infoFormat_eq :
    lit "STATE=%s|OVERRIDE=%d|BPF_ACTIVE=%d|REFRESH_INTERVAL=%.1f|MASK=%s|CAPS=%llx" =
      lit "STATE=" ++ (chr '%' :: chr 's' :: (lit "|OVERRIDE=" ++ (chr '%' :: chr 'd' ::
        (lit "|BPF_ACTIVE=" ++ (chr '%' :: chr 'd' :: (lit "|REFRESH_INTERVAL=" ++
          (chr '%' :: chr '.' :: chr '1' :: chr 'f' :: (lit "|MASK=" ++ (chr '%' :: chr 's' ::
            (lit "|CAPS=" ++ (chr '%' :: chr 'l' :: (lit "lx" ++ [])))))))))))) := by
  decide

theorem printfSn_info (s m : Bytes) (o b : ℤ) (f : Double) (c : Arg) :
    printfSn 512 (lit "STATE=%s|OVERRIDE=%d|BPF_ACTIVE=%d|REFRESH_INTERVAL=%.1f|MASK=%s|CAPS=%llx")
      [.str s, .int o, .int b, .dbl f, .str m, c] =
      (infoText s (xuiItoa o) (xuiItoa b) (fixed1Text f) (m ++ lit "|CAPS=llx")).take 511 := by
  have hloop (full : Bytes) :
      printfLoop 511 74 (lit "STATE=" ++ (chr '%' :: chr 's' :: (lit "|OVERRIDE=" ++
        (chr '%' :: chr 'd' :: (lit "|BPF_ACTIVE=" ++ (chr '%' :: chr 'd' ::
          (lit "|REFRESH_INTERVAL=" ++ (chr '%' :: chr '.' :: chr '1' :: chr 'f' ::
            (lit "|MASK=" ++ (chr '%' :: chr 's' :: (lit "|CAPS=" ++ (chr '%' :: chr 'l' ::
              (lit "lx" ++ [])))))))))))))
        [.str s, .int o, .int b, .dbl f, .str m, c] (full.take 511) =
      (full ++ lit "STATE=" ++ s ++ lit "|OVERRIDE=" ++ xuiItoa o ++ lit "|BPF_ACTIVE=" ++
        xuiItoa b ++ lit "|REFRESH_INTERVAL=" ++ fixed1Text f ++ lit "|MASK=" ++ m ++
        lit "|CAPS=" ++ [chr 'l'] ++ lit "lx").take 511 := by
    rw [printfLoop_text (k := 68) (by decide) (by decide) (by decide),
      printfLoop_s,
      printfLoop_text (k := 57) (by decide) (by decide) (by decide),
      printfLoop_d,
      printfLoop_text (k := 44) (by decide) (by decide) (by decide),
      printfLoop_d,
      printfLoop_text (k := 25) (by decide) (by decide) (by decide),
      printfLoop_dot1f,
      printfLoop_text (k := 18) (by decide) (by decide) (by decide),
      printfLoop_s,
      printfLoop_text (k := 11) (by decide) (by decide) (by decide),
      printfLoop_unknown_l,
      printfLoop_text (k := 8) (by decide) (by decide) (by decide),
      printfLoop,
      if_pos (Or.inl rfl)]
  have hstart := hloop []
  rw [List.take_nil, ← infoFormat_eq] at hstart
  have hlen : (lit
      "STATE=%s|OVERRIDE=%d|BPF_ACTIVE=%d|REFRESH_INTERVAL=%.1f|MASK=%s|CAPS=%llx").length =
        74 := by
    decide
  rw [printfSn, hlen, hstart]
  -- the separators stand at the end of the fields here
  have hsep : lit "|OVERRIDE=" = chr '|' :: lit "OVERRIDE=" ∧
      lit "|BPF_ACTIVE=" = chr '|' :: lit "BPF_ACTIVE=" ∧
      lit "|REFRESH_INTERVAL=" = chr '|' :: lit "REFRESH_INTERVAL=" ∧
      lit "|MASK=" = chr '|' :: lit "MASK=" ∧
      lit "|CAPS=llx" = lit "|CAPS=" ++ [chr 'l'] ++ lit "lx" := by
    decide
  obtain ⟨h1, h2, h3, h4, h5⟩ := hsep
  simp only [infoText, overridePart, bpfPart, refreshPart, maskPart, h1, h2, h3, h4, h5,
    List.nil_append, List.append_assoc, List.cons_append]

/-- **The reply.** -/
theorem reply_daemonInfo (B : Build) (env : RequestEnv) (d : Daemon) :
    (socketHandle B env (lit "DAEMON_INFO") d).1 = some ((infoText (d.cfg.str .daemonState).val
      (xuiItoa d.activeOverride) (xuiItoa (if d.bpfActive then 1 else 0))
      (fixed1Text (d.cfg.dbl .refreshInterval))
      ((d.cfg.str .affinityMask).val ++ lit "|CAPS=llx")).take 511) := by
  rw [socketHandle_of_dispatch .daemonInfo 11 (by decide) (by decide),
    ← printfSn_info _ _ _ _ _ (.uint d.cfg.capabilities)]
  rfl

end

/-! ### Where the names are found -/

/-- The characters of a number. -/
def isNumeric (c : UInt8) : Bool := isDigit c || c = chr '.' || c = chr ':'

section

variable {st o b w tail n : Bytes}

/-- A name that does not begin in `STATE=` is found in the state, or behind it. -/
theorem strstr_infoText {c : UInt8} (hn : c :: n ∈ infoNames) (hc : c ∉ lit "STATE=") :
    strstr (infoText st o b w tail) (c :: n) =
      ((strstr st (c :: n)).map (· ++ chr '|' :: overridePart o b w tail)).or
        (strstr (overridePart o b w tail) (c :: n)) := by
  obtain ⟨hne, hbar, -⟩ := plain_names _ hn
  rw [infoText, strstr_append_of_head hc, strstr_append_cons hne hbar]

/-- A field that a name does not begin in is passed by. -/
theorem strstr_skip {c : UInt8} {a : Bytes} (hn : c :: n ∈ infoNames) (ha : c ∉ a)
    (hc : isNumeric c = false) (ho : ∀ c ∈ o, isNumeric c = true) (t : Bytes) :
    strstr (a ++ o ++ chr '|' :: t) (c :: n) = strstr t (c :: n) := by
  obtain ⟨hne, hbar, -⟩ := plain_names _ hn
  have hnone : strstr (a ++ o) (c :: n) = none := by
    refine strstr_of_head_notMem fun hmem => ?_
    rcases List.mem_append.mp hmem with h | h
    · exact ha h
    · exact Bool.false_ne_true (hc.symm.trans (ho c h))
  rw [strstr_append_cons hne hbar, hnone]
  rfl

theorem strstr_override : strstr (infoText st o b w tail) (lit "OVERRIDE=") =
    some ((strstr st (lit "OVERRIDE=")).elim (overridePart o b w tail)
      (· ++ chr '|' :: overridePart o b w tail)) := by
  obtain ⟨hname, hstate⟩ := override_head
  have hn : lit "OVERRIDE=" ∈ infoNames := by simp [infoNames]
  have hfound : strstr (overridePart o b w tail) (lit "OVERRIDE=") =
      some (overridePart o b w tail) := by
    rw [overridePart, List.append_assoc]
    exact strstr_append_self (plain_names _ hn).1 _
  rw [hname] at hn hfound ⊢
  rw [strstr_infoText hn hstate, hfound]
  cases strstr st (chr 'O' :: lit "VERRIDE=") <;> rfl

theorem strstr_bpf (ho : ∀ c ∈ o, isNumeric c = true) :
    strstr (infoText st o b w tail) (lit "BPF_ACTIVE=") =
      some ((strstr st (lit "BPF_ACTIVE=")).elim (bpfPart b w tail)
        (· ++ chr '|' :: overridePart o b w tail)) := by
  obtain ⟨hname, hstate, hoverride⟩ := bpf_head
  have hn : lit "BPF_ACTIVE=" ∈ infoNames := by simp [infoNames]
  have hfound : strstr (bpfPart b w tail) (lit "BPF_ACTIVE=") = some (bpfPart b w tail) := by
    rw [bpfPart, List.append_assoc]
    exact strstr_append_self (plain_names _ hn).1 _
  rw [hname] at hn hfound ⊢
  have hskip : strstr (overridePart o b w tail) (chr 'B' :: lit "PF_ACTIVE=") =
      some (bpfPart b w tail) :=
    (strstr_skip hn hoverride (by decide) ho _).trans hfound
  rw [strstr_infoText hn hstate, hskip]
  cases strstr st (chr 'B' :: lit "PF_ACTIVE=") <;> rfl

theorem strstr_mask (ho : ∀ c ∈ o, isNumeric c = true) (hb : ∀ c ∈ b, isNumeric c = true)
    (hw : ∀ c ∈ w, isNumeric c = true) :
    strstr (infoText st o b w tail) (lit "MASK=") =
      some ((strstr st (lit "MASK=")).elim (maskPart tail)
        (· ++ chr '|' :: overridePart o b w tail)) := by
  obtain ⟨hname, hstate, hoverride, hbpf, hrefresh⟩ := mask_head
  have hn : lit "MASK=" ∈ infoNames := by simp [infoNames]
  have hfound : strstr (maskPart tail) (lit "MASK=") = some (maskPart tail) :=
    strstr_append_self (plain_names _ hn).1 _
  rw [hname] at hn hfound ⊢
  have hskip : strstr (overridePart o b w tail) (chr 'M' :: lit "ASK=") = some (maskPart tail) :=
    (strstr_skip hn hoverride (by decide) ho _).trans <|
      (strstr_skip hn hbpf (by decide) hb _).trans <|
        (strstr_skip hn hrefresh (by decide) hw _).trans hfound
  rw [strstr_infoText hn hstate, hskip]
  cases strstr st (chr 'M' :: lit "ASK=") <;> rfl

theorem strstr_caps (ho : ∀ c ∈ o, isNumeric c = true)
    (hb : strstr (lit "BPF_ACTIVE=" ++ b) (lit "CAPS=") = none)
    (hw : ∀ c ∈ w, isNumeric c = true) :
    strstr (infoText st o b w tail) (lit "CAPS=") =
      ((strstr st (lit "CAPS=")).map (· ++ chr '|' :: overridePart o b w tail)).or
        (strstr tail (lit "CAPS=")) := by
  obtain ⟨hname, hstate, hoverride, hrefresh, hmask⟩ := caps_head
  have hn : lit "CAPS=" ∈ infoNames := by simp [infoNames]
  rw [hname] at hn hb ⊢
  -- the `C` of `ACTIVE` is no `CAPS=`
  have hbpf : strstr (bpfPart b w tail) (chr 'C' :: lit "APS=") =
      strstr (refreshPart w tail) (chr 'C' :: lit "APS=") := by
    obtain ⟨hne, hbar, -⟩ := plain_names _ hn
    rw [bpfPart, strstr_append_cons hne hbar, hb]
    rfl
  have hskip : strstr (overridePart o b w tail) (chr 'C' :: lit "APS=") =
      strstr (maskPart tail) (chr 'C' :: lit "APS=") :=
    (strstr_skip hn hoverride (by decide) ho _).trans <|
      hbpf.trans (strstr_skip hn hrefresh (by decide) hw _)
  rw [strstr_infoText hn hstate, hskip, maskPart, strstr_append_of_head hmask]

end

/-! ### The numbers of the reply -/

theorem isNumeric_digits {n : ℤ} (h : 0 ≤ n ∧ n ≤ 4) :
    (∀ c ∈ xuiItoa n, isNumeric c = true) ∧ (xuiItoa n).length = 1 ∧ atoi (xuiItoa n) = n := by
  obtain ⟨h0, h4⟩ := h
  interval_cases n <;> decide +kernel

/-- Rounding does not take ten times a fraction to eleven. -/
theorem exists_tenths {y : ℚ} (h0 : 0 ≤ y) (h1 : y < 1) :
    ∃ t, (Double.round y).mul ten = .fin t ∧ -1 < t ∧ t < 11 := by
  have hy : |y| < 2 ^ (53 - 40) := by
    rw [abs_of_nonneg h0]
    exact h1.trans_le (by norm_num)
  obtain ⟨r, hr, hry⟩ := Double.exists_round_eq (by norm_num) hy
  have hr0 : -(1 / 2 ^ 41) ≤ r := by linarith [(abs_le.mp hry).1]
  have hr1 : r ≤ 1 + 1 / 2 ^ 41 := by linarith [(abs_le.mp hry).2]
  have hr10 : |r * 10| < 2 ^ (53 - 40) := by
    rw [abs_lt]
    norm_num at hr0 hr1 ⊢
    constructor <;> linarith
  obtain ⟨t, ht, htr⟩ := Double.exists_round_eq (by norm_num) hr10
  refine ⟨t, by rw [hr]; exact ht, ?_, ?_⟩
  · have hlow := (abs_le.mp htr).1
    norm_num at hlow hr0 ⊢
    linarith
  · have hhigh := (abs_le.mp htr).2
    norm_num at hhigh hr1 ⊢
    linarith

theorem truncRat_mem {t : ℚ} (h0 : -1 < t) (h11 : t < 11) :
    0 ≤ Double.truncRat t ∧ Double.truncRat t ≤ 10 := by
  unfold Double.truncRat
  split
  next hpos =>
    have hlt : ⌊t⌋ < 11 := Int.floor_lt.mpr (by exact_mod_cast h11)
    exact ⟨Int.floor_nonneg.mpr hpos, by omega⟩
  next hneg =>
    have hceil : ⌈t⌉ = 0 := by
      rw [Int.ceil_eq_zero_iff]
      exact ⟨h0, (not_le.mp hneg).le⟩
    rw [hceil]
    decide

/-- **The refresh interval** is printed with one or two digits, a point and one more character. -/
theorem fixed1Text_spec {q : ℚ} (h0 : 0 ≤ q) (h100 : q < 100) :
    (∀ c ∈ fixed1Text (.fin q), isNumeric c = true) ∧ (fixed1Text (.fin q)).length ≤ 4 := by
  have hwhole0 : 0 ≤ ⌊q⌋ := Int.floor_nonneg.mpr h0
  have hwhole : ⌊q⌋ < 100 := Int.floor_lt.mpr (by exact_mod_cast h100)
  have htrunc : (Double.fin q).toInt 64 = ⌊q⌋ := by
    have htr : Double.truncRat q = ⌊q⌋ := if_pos h0
    rw [Double.toInt, htr, if_pos ⟨by omega, by omega⟩]
  -- what is left of the number is below one
  obtain ⟨t, ht, ht0, ht11⟩ := exists_tenths (Int.fract_nonneg q) (Int.fract_lt_one q)
  have hround : Double.round (⌊q⌋ : ℤ) = .fin ⌊q⌋ :=
    Double.round_intCast (by rw [abs_of_nonneg hwhole0]; omega)
  have hval : ((Double.fin q).add (Double.round (⌊q⌋ : ℤ)).neg).mul ten = .fin t := by
    rw [← ht, hround]
    show (Double.round (q + -⌊q⌋)).mul ten = _
    rw [← sub_eq_add_neg, Int.self_sub_floor]
  have hfrac : (((Double.fin q).add (Double.round (⌊q⌋ : ℤ)).neg).mul ten).toInt 32 =
      Double.truncRat t := by
    obtain ⟨hlow, hhigh⟩ := truncRat_mem ht0 ht11
    rw [hval, Double.toInt, if_pos ⟨by omega, by omega⟩]
  have hchar : ∀ k ≤ 10, isNumeric (k + 48).toUInt8 = true := by decide
  have hdigits : (∀ c ∈ xuiItoa ⌊q⌋, isNumeric c = true) ∧ (xuiItoa ⌊q⌋).length ≤ 2 := by
    obtain ⟨n, hn⟩ := Int.eq_ofNat_of_zero_le hwhole0
    obtain ⟨ds, -, hds⟩ := exists_digitsText n
    rw [hn, xuiItoa_natCast (by omega)]
    refine ⟨fun c hc => ?_, length_digitsText_le (by norm_num) (by omega)⟩
    rw [hds, List.mem_map] at hc
    obtain ⟨d, -, rfl⟩ := hc
    rw [isNumeric, (digitChar_spec d).1]
    rfl
  unfold fixed1Text
  rw [htrunc]
  dsimp only
  rw [hfrac]
  constructor
  · intro c hc
    rw [List.mem_append, List.mem_append, List.mem_singleton, List.mem_singleton] at hc
    rcases hc with (hc | rfl) | rfl
    · exact hdigits.1 c hc
    · decide
    · have hmem := truncRat_mem ht0 ht11
      exact hchar _ (by omega)
  · rw [List.length_append, List.length_append, List.length_singleton, List.length_singleton]
    have := hdigits.2
    omega

/-! ### What the clients find -/

section

variable {st o b w tail : Bytes}

/-- A name found in the state leaves the text behind it. -/
theorem drop_of_strstr {n p : Bytes} {k : ℕ} (h : strstr st n = some p) (hk : n.length = k)
    (t : Bytes) : (p ++ t).drop k = p.drop k ++ t := by
  have hle := (suffix_of_strstr h).2.length_le
  exact List.drop_append_of_le_length (hk ▸ hle)

/-- **The state** is found unless a `;` follows it within the buffer. -/
theorem infoState_eq_iff (hst : ∀ c ∈ st, c ≠ chr '|' ∧ c ≠ chr ';') (hlen : st.length ≤ 31)
    (ho : (∀ c ∈ o, isNumeric c = true) ∧ o.length = 1)
    (hb : (∀ c ∈ b, isNumeric c = true) ∧ b.length = 1) (hw : ∀ c ∈ w, isNumeric c = true) :
    infoState (infoText st o b w tail) = some st ↔
      chr ';' ∉ tail.take (15 - st.length - w.length) := by
  have hbar : chr '|' ∉ st := fun h => (hst _ h).1 rfl
  have hsemi : chr ';' ∉ st := fun h => (hst _ h).2 rfl
  have hfound : strstr (infoText st o b w tail) (lit "STATE=") = some (infoText st o b w tail) :=
    strstr_append_self (plain_names _ (by simp [infoNames])).1 _
  have hdrop : (infoText st o b w tail).drop 6 = st ++ chr '|' :: overridePart o b w tail :=
    List.drop_left' length_names.1
  have htake : (st ++ chr '|' :: overridePart o b w tail).take 63 =
      st ++ chr '|' :: (overridePart o b w tail).take (62 - st.length) := by
    rw [List.take_append, List.take_of_length_le (by omega),
      show 63 - st.length = 62 - st.length + 1 by omega, List.take_succ_cons]
  -- a `;` behind the state comes from the mask
  have hpart : overridePart o b w tail = overridePart o b w [] ++ tail := by
    simp [overridePart, bpfPart, refreshPart, maskPart]
  have hpartlen : (overridePart o b w []).length = 47 + w.length := by
    have htext := length_infoText st o b w []
    have hstate : (lit "STATE=").length = 6 := length_names.1
    simp only [infoText, List.length_append, List.length_cons, List.length_nil, hstate, ho.2,
      hb.2] at htext
    omega
  have hnum {d : Bytes} (hd : ∀ c ∈ d, isNumeric c = true) : chr ';' ∉ d := fun h =>
    absurd (hd _ h) (by decide)
  have hpartsemi : chr ';' ∉ overridePart o b w [] := by
    have h1 : chr ';' ∉ lit "OVERRIDE=" := (plain_names _ (by simp [infoNames])).2.2
    have h2 : chr ';' ∉ lit "BPF_ACTIVE=" := (plain_names _ (by simp [infoNames])).2.2
    have h3 : chr ';' ∉ lit "REFRESH_INTERVAL=" := (plain_names _ (by simp [infoNames])).2.2
    have h4 : chr ';' ∉ lit "MASK=" := (plain_names _ (by simp [infoNames])).2.2
    have h5 : chr ';' ≠ chr '|' := by decide
    simp [overridePart, bpfPart, refreshPart, maskPart, h1, h2, h3, h4, h5, hnum ho.1, hnum hb.1,
      hnum hw]
  have hmem : chr ';' ∈ st ++ chr '|' :: (overridePart o b w tail).take (62 - st.length) ↔
      chr ';' ∈ tail.take (15 - st.length - w.length) := by
    have hne : chr ';' ≠ chr '|' := by decide
    have hhead : chr ';' ∉ (overridePart o b w []).take (62 - st.length) := fun h =>
      hpartsemi (List.mem_of_mem_take h)
    rw [hpart, List.take_append, hpartlen,
      show 62 - st.length - (47 + w.length) = 15 - st.length - w.length by omega]
    simp [hsemi, hne, hhead]
  unfold infoState strchr
  rw [hfound, Option.map_some, hdrop]
  dsimp only
  rw [printfSn_s, htake, ← hmem, Option.some.injEq]
  cases hcut : cut (chr ';') (st ++ chr '|' :: (overridePart o b w tail).take (62 - st.length)) with
  | none =>
    rw [cut_append hbar]
    exact iff_of_true rfl (cut_eq_none.mp hcut)
  | some q =>
    obtain ⟨a, t⟩ := q
    obtain ⟨-, heq⟩ := cut_eq_some.mp hcut
    dsimp only
    refine iff_of_false ?_ ?_
    · rintro rfl
      exact absurd (List.cons.inj (List.append_cancel_left heq)).1 (by decide)
    · rw [heq, not_not]
      simp

/-- **A number** is found unless the state has the name, with another number behind it. -/
theorem override_eq_iff {n : ℤ} (ho : atoi o = n) :
    (infoFields (infoText st o b w tail)).override = some n ↔
      ∀ p, strstr st (lit "OVERRIDE=") = some p → atoi (p.drop 9) = n := by
  have hname : (lit "OVERRIDE=").length = 9 := length_names.2.1
  show (strstr (infoText st o b w tail) (lit "OVERRIDE=")).map (fun p => atoi (p.drop 9)) = _ ↔ _
  rw [strstr_override, Option.map_some, Option.some.injEq]
  cases hp : strstr st (lit "OVERRIDE=") with
  | none =>
    have hdrop : (overridePart o b w tail).drop 9 = o ++ chr '|' :: bpfPart b w tail := by
      rw [overridePart, List.append_assoc]
      exact List.drop_left' hname
    rw [Option.elim_none, hdrop, atoi_append (by decide) (by decide) (by decide)]
    exact iff_of_true ho fun p h => absurd h.symm (Option.some_ne_none p)
  | some p =>
    rw [Option.elim_some, drop_of_strstr hp hname,
      atoi_append (by decide) (by decide) (by decide)]
    simp

theorem bpfActive_eq_iff (ho : ∀ c ∈ o, isNumeric c = true) {bpf : Bool}
    (hb : decide (atoi b ≠ 0) = bpf) :
    (infoFields (infoText st o b w tail)).bpfActive = some bpf ↔
      ∀ p, strstr st (lit "BPF_ACTIVE=") = some p → decide (atoi (p.drop 11) ≠ 0) = bpf := by
  have hname : (lit "BPF_ACTIVE=").length = 11 := length_names.2.2.1
  show (strstr (infoText st o b w tail) (lit "BPF_ACTIVE=")).map
    (fun p => decide (atoi (p.drop 11) ≠ 0)) = _ ↔ _
  rw [strstr_bpf ho, Option.map_some, Option.some.injEq]
  cases hp : strstr st (lit "BPF_ACTIVE=") with
  | none =>
    have hdrop : (bpfPart b w tail).drop 11 = b ++ chr '|' :: refreshPart w tail := by
      rw [bpfPart, List.append_assoc]
      exact List.drop_left' hname
    rw [Option.elim_none, hdrop, atoi_append (by decide) (by decide) (by decide)]
    exact iff_of_true hb fun p h => absurd h.symm (Option.some_ne_none p)
  | some p =>
    rw [Option.elim_some, drop_of_strstr hp hname,
      atoi_append (by decide) (by decide) (by decide)]
    simp

/-- **The mask** counts as set unless `none` follows the first `MASK=`. -/
theorem affinityActive_iff (ho : ∀ c ∈ o, isNumeric c = true) (hb : ∀ c ∈ b, isNumeric c = true)
    (hw : ∀ c ∈ w, isNumeric c = true) :
    (infoFields (infoText st o b w tail)).affinityActive = true ↔
      ¬lit "none" <+: (strstr st (lit "MASK=")).elim tail (·.drop 5) := by
  have hname : (lit "MASK=").length = 5 := length_names.2.2.2.2.1
  have hbar : chr '|' ∉ lit "none" := by decide
  have hnone (s : Bytes) : strncmp s (lit "none") 4 = true ↔ lit "none" <+: s := by
    have hself : (lit "none").take 4 = lit "none" := by decide
    have hfour : (lit "none").length = 4 := by decide
    rw [strncmp, hself, beq_iff_eq, List.prefix_iff_eq_take, hfour, eq_comm]
  show (strstr (infoText st o b w tail) (lit "MASK=")).any
    (fun p => !strncmp (p.drop 5) (lit "none") 4) = true ↔ _
  rw [strstr_mask ho hb hw, Option.any_some, Bool.not_eq_true', ← Bool.not_eq_true, hnone]
  cases hp : strstr st (lit "MASK=") with
  | none =>
    have hdrop : (maskPart tail).drop 5 = tail := List.drop_left' hname
    rw [Option.elim_none, Option.elim_none, hdrop]
  | some p =>
    rw [Option.elim_some, Option.elim_some, drop_of_strstr hp hname]
    refine not_congr ⟨fun h => prefix_of_prefix_append hbar h, fun h => ?_⟩
    exact h.trans (List.prefix_append _ _)

end

/-! ### The capabilities -/

/-- A character that is no digit ends the loop. -/
theorem strtolLoop_append {base limit : ℕ} {c : UInt8} (hc : strtolDigit c = none) (p t : Bytes)
    (r : ℕ) (overflow : Bool) :
    ∃ rest, strtolLoop base limit (p ++ c :: t) r overflow =
      ((strtolLoop base limit p r overflow).1, (strtolLoop base limit p r overflow).2.1, rest) := by
  induction p generalizing r overflow with
  | nil =>
    refine ⟨c :: t, ?_⟩
    rw [List.nil_append, strtolLoop.eq_def base limit (c :: t)]
    dsimp only
    rw [hc]
    rfl
  | cons x p ih =>
    rw [List.cons_append, strtolLoop, strtolLoop]
    cases strtolDigit x with
    | none => exact ⟨_, rfl⟩
    | some v =>
      dsimp only
      by_cases hv : base ≤ v
      · rw [if_pos hv, if_pos hv]
        exact ⟨_, rfl⟩
      · rw [if_neg hv, if_neg hv]
        exact ih _ _

theorem dropWhile_isspace_append (p t : Bytes) :
    (p ++ chr '|' :: t).dropWhile isspace = p.dropWhile isspace ++ chr '|' :: t := by
  induction p with
  | nil => exact List.dropWhile_cons_of_neg (by decide)
  | cons x p ih =>
    rw [List.cons_append]
    by_cases hx : isspace x = true
    · rw [List.dropWhile_cons_of_pos hx, List.dropWhile_cons_of_pos hx, ih]
    · rw [List.dropWhile_cons_of_neg hx, List.dropWhile_cons_of_neg hx, List.cons_append]

theorem head?_append_bar {c : UInt8} (hc : chr '|' ≠ c) (s t : Bytes) :
    (s ++ chr '|' :: t).head? = some c ↔ s.head? = some c := by
  cases s with
  | nil => simp [hc]
  | cons x s => rfl

theorem hexDigits_append (p t : Bytes) :
    hexDigits (p ++ chr '|' :: t) = hexDigits p ++ chr '|' :: t := by
  -- neither the sign nor the `0x` reaches past the bar
  have hsigned : (if (p ++ chr '|' :: t).head? = some (chr '-') ∨
      (p ++ chr '|' :: t).head? = some (chr '+') then (p ++ chr '|' :: t).tail
      else p ++ chr '|' :: t) =
      (if p.head? = some (chr '-') ∨ p.head? = some (chr '+') then p.tail else p) ++
        chr '|' :: t := by
    simp only [head?_append_bar (show chr '|' ≠ chr '-' by decide),
      head?_append_bar (show chr '|' ≠ chr '+' by decide)]
    by_cases h : p.head? = some (chr '-') ∨ p.head? = some (chr '+')
    · rw [if_pos h, if_pos h]
      cases p with
      | nil => exact absurd h (by simp)
      | cons x p => rfl
    · rw [if_neg h, if_neg h]
  unfold hexDigits
  dsimp only
  rw [hsigned]
  generalize (if p.head? = some (chr '-') ∨ p.head? = some (chr '+') then p.tail else p) = u
  have hstarts {n : Bytes} (hn : chr '|' ∉ n) : n <+: u ++ chr '|' :: t ↔ n <+: u :=
    ⟨prefix_of_prefix_append hn, fun h => h.trans (List.prefix_append _ _)⟩
  have hiff : lit "0x" <+: u ++ chr '|' :: t ∨ lit "0X" <+: u ++ chr '|' :: t ↔
      lit "0x" <+: u ∨ lit "0X" <+: u :=
    or_congr (hstarts (by decide)) (hstarts (by decide))
  by_cases h : lit "0x" <+: u ∨ lit "0X" <+: u
  · have hlen : 2 ≤ u.length := by
      have hx : (lit "0x").length = 2 ∧ (lit "0X").length = 2 := by decide
      rcases h with h | h
      · exact hx.1 ▸ h.length_le
      · exact hx.2 ▸ h.length_le
    rw [if_pos (hiff.mpr h), if_pos h, List.drop_append_of_le_length hlen]
  · rw [if_neg (mt hiff.mp h), if_neg h]

/-- A `|` ends a number. -/
theorem strtoul16_append (p t : Bytes) : strtoul16 (p ++ chr '|' :: t) = strtoul16 p := by
  have hbar : strtolDigit (chr '|') = none := by decide
  obtain ⟨rest, hloop⟩ : ∃ rest, strtolLoop 16 (2 ^ 64 - 1)
      (hexDigits (p.dropWhile isspace) ++ chr '|' :: t) 0 false = (_, _, rest) :=
    strtolLoop_append hbar (hexDigits (p.dropWhile isspace)) t 0 false
  unfold strtoul16
  dsimp only
  rw [dropWhile_isspace_append, hexDigits_append, hloop]
  simp only [head?_append_bar (show chr '|' ≠ chr '-' by decide)]
  obtain ⟨r, overflow, rest'⟩ :=
    strtolLoop 16 (2 ^ 64 - 1) (hexDigits (p.dropWhile isspace)) 0 false
  cases overflow <;> rfl

/-- The capabilities as they are found behind a `CAPS=`. -/
theorem caps_take (k : ℕ) :
    (strstr ((lit "CAPS=llx").take k) (lit "CAPS=")).map (fun p => strtoul16 (p.drop 5) % 2 ^ 32) =
      if 5 ≤ k then some 0 else none := by
  have hshort : ∀ k < 8, (strstr ((lit "CAPS=llx").take k) (lit "CAPS=")).map
      (fun p => strtoul16 (p.drop 5) % 2 ^ 32) = if 5 ≤ k then some 0 else none := by
    decide
  rcases lt_or_ge k 8 with hk | hk
  · exact hshort k hk
  · have hlen : (lit "CAPS=llx").length = 8 := by decide
    rw [List.take_of_length_le (by omega), if_pos (by omega)]
    decide

section

variable {st o b w mask : Bytes}

/-- **The capabilities** that are found are the first ones spelled in the state or the mask, and
zero where the reply reaches up to its own `CAPS=`. -/
theorem infoCaps_eq_iff (ho : ∀ c ∈ o, isNumeric c = true)
    (hb : strstr (lit "BPF_ACTIVE=" ++ b) (lit "CAPS=") = none)
    (hw : (∀ c ∈ w, isNumeric c = true) ∧ w.length ≤ 4) (hlen : st.length ≤ 31) (caps : ℕ) :
    infoCaps (infoText st o b w ((mask ++ lit "|CAPS=llx").take (73 - st.length - w.length))) =
        some caps ↔
      match (strstr st (lit "CAPS=")).or
        (strstr (mask.take (73 - st.length - w.length)) (lit "CAPS=")) with
      | some p => strtoul16 (p.drop 5) % 2 ^ 32 = caps
      | none => caps = 0 ∧ st.length + w.length + mask.length ≤ 67 := by
  have hname : (lit "CAPS=").length = 5 := length_names.2.2.2.2.2
  -- what stands behind the number does not change it
  have hfound {s p : Bytes} (hp : strstr s (lit "CAPS=") = some p) (t : Bytes) :
      strtoul16 ((p ++ chr '|' :: t).drop 5) = strtoul16 (p.drop 5) := by
    rw [drop_of_strstr hp hname, strtoul16_append]
  unfold infoCaps
  rw [strstr_caps ho hb hw.1]
  cases hst : strstr st (lit "CAPS=") with
  | some p => simp only [Option.map_some, Option.some_or, Option.some.injEq, hfound hst]
  | none =>
    rw [Option.map_none, Option.none_or, Option.none_or]
    have hw4 := hw.2
    obtain ⟨room, hroom⟩ : ∃ room, room = 73 - st.length - w.length := ⟨_, rfl⟩
    rw [← hroom]
    rcases lt_or_ge mask.length room with hlt | hge
    · -- the reply goes on behind the mask
      have hbar : lit "|CAPS=llx" = chr '|' :: lit "CAPS=llx" := by decide
      have htail : (mask ++ lit "|CAPS=llx").take room =
          mask ++ chr '|' :: (lit "CAPS=llx").take (room - mask.length - 1) := by
        rw [hbar, List.take_append, List.take_of_length_le hlt.le,
          show room - mask.length = room - mask.length - 1 + 1 by omega, List.take_succ_cons]
        rfl
      obtain ⟨hne, hnobar, -⟩ := plain_names (lit "CAPS=") (by simp [infoNames])
      rw [htail, strstr_append_cons hne hnobar, List.take_of_length_le hlt.le]
      cases hmask : strstr mask (lit "CAPS=") with
      | some p => simp only [Option.map_some, Option.some_or, Option.some.injEq, hfound hmask]
      | none =>
        rw [Option.map_none, Option.none_or, caps_take]
        by_cases hk : 5 ≤ room - mask.length - 1
        · rw [if_pos hk, Option.some.injEq]
          exact ⟨fun h => ⟨h.symm, by omega⟩, fun h => h.1.symm⟩
        · rw [if_neg hk]
          exact iff_of_false (by simp) fun h => hk (by omega)
    · -- the reply ends inside the mask
      rw [List.take_append_of_le_length hge]
      cases strstr (mask.take room) (lit "CAPS=") with
      | some p => exact Option.some_inj
      | none => exact iff_of_false (by simp) fun h => by omega

/-- Whether the text behind `MASK=` begins with `none` is a matter of the mask. -/
theorem none_prefix_take_iff (mask : Bytes) {k : ℕ} (hk : 4 ≤ k) :
    lit "none" <+: (mask ++ lit "|CAPS=llx").take k ↔ lit "none" <+: mask := by
  obtain ⟨hbar, hlen, hrest⟩ : chr '|' ∉ lit "none" ∧ (lit "none").length = 4 ∧
      lit "|CAPS=llx" = chr '|' :: lit "CAPS=llx" := by
    decide
  rw [hrest]
  refine ⟨fun h => prefix_of_prefix_append hbar (h.trans (List.take_prefix _ _)), fun h => ?_⟩
  exact List.prefix_take_iff.mpr ⟨h.trans (List.prefix_append _ _), hlen ▸ hk⟩

/-- The text behind the mask has no `;`. -/
theorem semi_mem_take_iff (mask : Bytes) (k : ℕ) :
    chr ';' ∈ (mask ++ lit "|CAPS=llx").take k ↔ chr ';' ∈ mask.take k := by
  have hnot : chr ';' ∉ lit "|CAPS=llx" := by decide
  rw [List.take_append, List.mem_append]
  exact or_iff_left fun h => hnot (List.mem_of_mem_take h)

end

/-! ### The round trip -/

/-- The reply as it arrives in the buffers of the clients. -/
def infoReceived (d : Daemon) : Bytes :=
  infoText (d.cfg.str .daemonState).val (xuiItoa d.activeOverride)
    (xuiItoa (if d.bpfActive then 1 else 0)) (fixed1Text (d.cfg.dbl .refreshInterval))
    (((d.cfg.str .affinityMask).val ++ lit "|CAPS=llx").take
      (73 - (d.cfg.str .daemonState).val.length - (fixed1Text (d.cfg.dbl .refreshInterval)).length))

theorem length_state_le (d : Daemon) : (d.cfg.str .daemonState).val.length ≤ 31 :=
  Nat.le_of_lt_succ (d.cfg.str .daemonState).property

theorem isNumeric_bool (bpf : Bool) :
    (∀ c ∈ xuiItoa (if bpf then 1 else 0), isNumeric c = true) ∧
      (xuiItoa (if bpf then 1 else 0)).length = 1 ∧
      decide (atoi (xuiItoa (if bpf then 1 else 0)) ≠ 0) = bpf ∧
      strstr (lit "BPF_ACTIVE=" ++ xuiItoa (if bpf then 1 else 0)) (lit "CAPS=") = none := by
  revert bpf
  decide +kernel

/-- The clients read the reply up to the text behind `MASK=`. -/
theorem take_reply (B : Build) (env : RequestEnv) {d : Daemon} (h : InfoInput d) {reply : Bytes}
    (hreply : (socketHandle B env (lit "DAEMON_INFO") d).1 = some reply) :
    reply.take 127 = infoReceived d := by
  obtain ⟨q, hq, h0, h100⟩ := h.refresh
  have hwlen := (fixed1Text_spec h0 h100).2
  rw [← hq] at hwlen
  have hstlen := length_state_le d
  have holen := (isNumeric_digits h.override).2.1
  have hblen := (isNumeric_bool d.bpfActive).2.1
  rw [reply_daemonInfo, Option.some.injEq] at hreply
  rw [← hreply, List.take_take, min_eq_left (by norm_num), take_infoText (by omega), holen, hblen]
  unfold infoReceived
  congr 2
  omega

/-- **`DAEMON_INFO`.** The clients find the state, the override, the flag, whether there is a mask
and the capabilities exactly for the values of `InfoPlain`. -/
theorem infoRoundTrip_iff (B : Build) (env : RequestEnv) (d : Daemon) (h : InfoInput d) :
    InfoRoundTrip B env d ↔
      InfoPlain (d.cfg.str .daemonState).val (d.cfg.str .affinityMask).val d.activeOverride
        d.bpfActive (d.cfg.dbl .refreshInterval) d.cfg.capabilities := by
  obtain ⟨q, hq, h0, h100⟩ := h.refresh
  have hw := fixed1Text_spec h0 h100
  rw [← hq] at hw
  have hstlen := length_state_le d
  obtain ⟨ho, holen, hoval⟩ := isNumeric_digits h.override
  obtain ⟨hb, hblen, hbval, hbcaps⟩ := isNumeric_bool d.bpfActive
  have hst (c : UInt8) (hc : c ∈ (d.cfg.str .daemonState).val) : c ≠ chr '|' ∧ c ≠ chr ';' :=
    (h.state c hc).2
  -- field by field
  have hstate : infoState (infoReceived d) = some (d.cfg.str .daemonState).val ↔
      chr ';' ∉ (d.cfg.str .affinityMask).val.take (15 - (d.cfg.str .daemonState).val.length -
        (fixed1Text (d.cfg.dbl .refreshInterval)).length) := by
    rw [infoReceived, infoState_eq_iff hst hstlen ⟨ho, holen⟩ ⟨hb, hblen⟩ hw.1, List.take_take,
      min_eq_left (by omega), semi_mem_take_iff]
  have hoverride : (infoFields (infoReceived d)).override = some d.activeOverride ↔
      ∀ p, strstr (d.cfg.str .daemonState).val (lit "OVERRIDE=") = some p →
        atoi (p.drop 9) = d.activeOverride :=
    override_eq_iff hoval
  have hbpf : (infoFields (infoReceived d)).bpfActive = some d.bpfActive ↔
      ∀ p, strstr (d.cfg.str .daemonState).val (lit "BPF_ACTIVE=") = some p →
        decide (atoi (p.drop 11) ≠ 0) = d.bpfActive :=
    bpfActive_eq_iff ho hbval
  have hmask : (infoFields (infoReceived d)).affinityActive = true ↔
      ¬lit "none" <+: (strstr (d.cfg.str .daemonState).val (lit "MASK=")).elim
        (d.cfg.str .affinityMask).val (·.drop 5) := by
    rw [infoReceived, affinityActive_iff ho hb hw.1]
    cases strstr (d.cfg.str .daemonState).val (lit "MASK=") with
    | none => exact not_congr (none_prefix_take_iff _ (by omega))
    | some p => exact Iff.rfl
  have hcaps : infoCaps (infoReceived d) = some d.cfg.capabilities ↔ _ :=
    infoCaps_eq_iff ho hbcaps hw hstlen d.cfg.capabilities
  have hreply := reply_daemonInfo B env d
  constructor
  · intro hr
    have hread := take_reply B env h hreply
    refine ⟨hstate.mp ?_, hoverride.mp ?_, hbpf.mp ?_, ?_, hcaps.mp ?_⟩
    · exact hread ▸ hr.state _ hreply
    · exact hread ▸ hr.override _ hreply
    · exact hread ▸ hr.bpf _ hreply
    · have hseen := hr.mask _ hreply
      rw [hread, hmask] at hseen
      exact not_iff_not.mp hseen
    · have hseen := hr.caps _ hreply
      rwa [hread] at hseen
  · intro hp
    refine ⟨?_, ?_, ?_, ?_, ?_⟩ <;> intro reply hr <;> rw [take_reply B env h hr]
    · exact hstate.mpr hp.stateEnd
    · exact hoverride.mpr hp.overrideText
    · exact hbpf.mpr hp.bpfText
    · exact hmask.trans (not_congr hp.maskText)
    · exact hcaps.mpr hp.capsText

/-! ### A machine with capabilities -/

/-- The daemon after a start, on a machine with all capabilities or with none. -/
def startedWith (caps : Bool) : Daemon :=
  boot shippedBuild { BootEnv.allOk none with load := ⟨true, fun _ => caps⟩ }

theorem infoInput_startedWith (caps : Bool) : InfoInput (startedWith caps) := by
  have hstate : ∀ c ∈ ((startedWith caps).cfg.str .daemonState).val,
      c ≠ 0 ∧ c ≠ chr '|' ∧ c ≠ chr ';' := by
    revert caps
    decide +kernel
  have hmask : (0 : UInt8) ∉ ((startedWith caps).cfg.str .affinityMask).val := by
    revert caps
    decide +kernel
  have hoverride : 0 ≤ (startedWith caps).activeOverride ∧
      (startedWith caps).activeOverride ≤ 4 := by
    revert caps
    decide +kernel
  exact ⟨hstate, hoverride, ⟨1 / 2, rfl, by norm_num, by norm_num⟩, hmask⟩

/-- The GUI finds no capability on a machine that has them all. -/
theorem capabilities_lost : ¬∀ (B : Build) (env : RequestEnv) (d : Daemon), InfoInput d →
    InfoRoundTrip B env d := by
  intro h
  have hcaps := (h shippedBuild .allOk _ (infoInput_startedWith true)).caps
  have hreply : ((socketHandle shippedBuild .allOk (lit "DAEMON_INFO") (startedWith true)).1.map
      fun reply => infoCaps (reply.take 127)) = some (some 0) := by
    decide +kernel
  obtain ⟨reply, hr, hzero⟩ := Option.map_eq_some_iff.mp hreply
  have hfound := hcaps reply hr
  rw [hzero] at hfound
  have hall : (startedWith true).cfg.capabilities = 63 := by decide
  rw [hall] at hfound
  exact absurd (Option.some.inj hfound) (by decide)

/-- The rule on a machine that has none. -/
theorem infoRoundTrip_iff_startedWith :
    InfoRoundTrip shippedBuild .allOk (startedWith false) ↔
      InfoPlain ((startedWith false).cfg.str .daemonState).val
        ((startedWith false).cfg.str .affinityMask).val (startedWith false).activeOverride
        (startedWith false).bpfActive ((startedWith false).cfg.dbl .refreshInterval)
        (startedWith false).cfg.capabilities :=
  infoRoundTrip_iff _ _ _ (infoInput_startedWith false)

end X3D
