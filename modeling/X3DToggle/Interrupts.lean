import X3DToggle.Decimal
import X3DToggle.Irq

/-!
# The interrupt table

`/proc/interrupts` has a line for each interrupt: blanks, its number, a colon, and the rest, with
the counts of each core, the chip and the devices. Other lines begin with a label. An
`InterruptRow` is such a line and `tableText` the text of a table.

`discover_irqs` goes through the lines, but of the first 8191 bytes only. A device is found
exactly if its token and number are within these (`discoverIrqs_iff`). `verify_msi` and
`count_msix_vectors` do not split the text into lines: a marker anywhere below the place where
the search begins counts for it (`msi_iff`). `discover_nic_names` takes one name from each line,
and takes it again from the next line of the same interface (`nicNames_once_iff`).
-/

namespace X3D

/-- A line of `/proc/interrupts`. -/
inductive InterruptRow where
  | irq (pad num : ℕ) (rest : Bytes) (hnum : num < 2 ^ 31) (hrest : nl ∉ rest ∧ (0 : UInt8) ∉ rest)
  -- the names of the cores, or the line of an interrupt that has no number
  | label (name : Bytes) (hname : nl ∉ name ∧ (0 : UInt8) ∉ name)
      (hhead : ∀ c ∈ (name.dropWhile isBlank).head?, isDigit c = false ∧ c ≠ chr '-')

namespace InterruptRow

/-- The line, without its break. -/
def text : InterruptRow → Bytes
  | irq pad num rest _ _ => List.replicate pad (chr ' ') ++ (digitsText num ++ chr ':' :: rest)
  | label name _ _ => name

/-- The interrupt of a line that has a token in it, if its number is positive. -/
def deviceIrq (token : Bytes) : InterruptRow → Option ℤ
  | irq pad num rest hnum hrest =>
    if token <:+: (irq pad num rest hnum hrest).text ∧ 0 < num then some num else none
  | label _ _ _ => none

end InterruptRow

/-- The text of a table. -/
def tableText (rows : List InterruptRow) : Bytes := unlines nl (rows.map InterruptRow.text)

/-! ### Numbers of lines -/

theorem atoi_cons_blank {c : UInt8} (h : isBlank c = true) (s : Bytes) :
    atoi (c :: s) = atoi s := by
  unfold atoi
  rw [List.dropWhile_cons_of_pos h]

theorem atoi_replicate (pad : ℕ) (s : Bytes) :
    atoi (List.replicate pad (chr ' ') ++ s) = atoi s := by
  induction pad with
  | zero => rfl
  | succ pad ih =>
    rw [List.replicate_succ, List.cons_append, atoi_cons_blank (by decide), ih]

theorem atoi_digitsText {n : ℕ} (h : n < 2 ^ 31) : atoi (digitsText n) = n := by
  have hdecimal : decimal n = digitsText n := by
    rw [decimal, if_neg (Int.not_lt.mpr (Int.natCast_nonneg n)), Int.natAbs_natCast]
  rw [← hdecimal]
  exact atoi_decimal ⟨by omega, by omega⟩

/-- No number begins a line whose first character is none of one. -/
theorem atoi_of_head {s : Bytes}
    (h : ∀ c ∈ (s.dropWhile isBlank).head?, isDigit c = false ∧ c ≠ chr '-') : atoi s = 0 := by
  unfold atoi
  cases hs : s.dropWhile isBlank with
  | nil => rfl
  | cons c p =>
    rw [hs] at h
    obtain ⟨hdigit, hsign⟩ := h c rfl
    dsimp only
    rw [if_neg hsign]
    exact if_neg (hdigit ▸ Bool.false_ne_true)

/-- The first character of a text cut short is the one of the text. -/
theorem head_dropWhile_take {p : UInt8 → Bool} {s : Bytes} {n : ℕ} {c : UInt8}
    (h : c ∈ ((s.take n).dropWhile p).head?) : c ∈ (s.dropWhile p).head? := by
  induction s generalizing n with
  | nil =>
    rw [List.take_nil] at h
    exact h
  | cons x s ih =>
    cases n with
    | zero => exact absurd h (by simp)
    | succ n =>
      rw [List.take_succ_cons] at h
      by_cases hx : p x = true
      · rw [List.dropWhile_cons_of_pos hx] at h ⊢
        exact ih h
      · rw [List.dropWhile_cons_of_neg hx] at h ⊢
        exact h

namespace InterruptRow

theorem atoi_text_irq (pad num : ℕ) (rest : Bytes) (hnum : num < 2 ^ 31)
    (hrest : nl ∉ rest ∧ (0 : UInt8) ∉ rest) : atoi (irq pad num rest hnum hrest).text = num := by
  rw [text, atoi_replicate, atoi_append (by decide) (by decide) (by decide), atoi_digitsText hnum]

/-- What is left of the line of interrupt 0 shows no other number. -/
theorem atoi_take_irq_zero (pad : ℕ) (rest : Bytes) (hnum : 0 < 2 ^ 31)
    (hrest : nl ∉ rest ∧ (0 : UInt8) ∉ rest) (n : ℕ) :
    atoi ((irq pad 0 rest hnum hrest).text.take n) = 0 := by
  induction pad generalizing n with
  | zero =>
    show atoi ((chr '0' :: chr ':' :: rest).take n) = 0
    match n with
    | 0 => rfl
    | 1 => rfl
    | n + 2 =>
      rw [List.take_succ_cons, List.take_succ_cons]
      exact atoi_append (p := [chr '0']) (by decide) (by decide) (by decide) _
  | succ pad ih =>
    cases n with
    | zero => rfl
    | succ n =>
      have htext : (irq (pad + 1) 0 rest hnum hrest).text =
          chr ' ' :: (irq pad 0 rest hnum hrest).text := rfl
      rw [htext, List.take_succ_cons, atoi_cons_blank (by decide)]
      exact ih n

/-- A line counts for a token as the code reads it. -/
theorem irqOfLine_text (token : Bytes) (r : InterruptRow) :
    irqOfLine token r.text = r.deviceIrq token := by
  unfold irqOfLine
  cases r with
  | irq pad num rest hnum hrest =>
    rw [atoi_text_irq, deviceIrq]
    have hcond :
        (contains (irq pad num rest hnum hrest).text token && decide (0 < (num : ℤ))) = true ↔
          token <:+: (irq pad num rest hnum hrest).text ∧ 0 < num := by
      rw [Bool.and_eq_true, contains_iff, decide_eq_true_iff, Int.natCast_pos]
    exact if_congr hcond rfl rfl
  | label name hname hhead =>
    rw [show atoi (label name hname hhead).text = 0 from atoi_of_head hhead, deviceIrq,
      if_neg (by simp)]

/-- What is left of a line counts only if the line does. -/
theorem irqOfLine_take_eq_none {token : Bytes} {r : InterruptRow} (h : r.deviceIrq token = none)
    (n : ℕ) : irqOfLine token (r.text.take n) = none := by
  unfold irqOfLine
  apply if_neg
  rw [Bool.and_eq_true, contains_iff, decide_eq_true_iff]
  rintro ⟨htoken, hpos⟩
  cases r with
  | irq pad num rest hnum hrest =>
    rcases Nat.eq_zero_or_pos num with rfl | hnumpos
    · rw [atoi_take_irq_zero] at hpos
      exact absurd hpos (lt_irrefl _)
    · rw [deviceIrq, if_pos ⟨htoken.trans (List.take_prefix _ _).isInfix, hnumpos⟩] at h
      exact Option.some_ne_none _ h
  | label name hname hhead =>
    rw [text, atoi_of_head fun c hc => hhead c (head_dropWhile_take hc)] at hpos
    exact absurd hpos (lt_irrefl _)

theorem notMem_text (r : InterruptRow) : nl ∉ r.text ∧ (0 : UInt8) ∉ r.text := by
  have hplain (c : UInt8) (hblank : chr ' ' ≠ c) (hdigit : isDigit c = false) (hcolon : c ≠ chr ':')
      {pad num : ℕ} {rest : Bytes} (hrest : c ∉ rest) :
      c ∉ List.replicate pad (chr ' ') ++ (digitsText num ++ chr ':' :: rest) := by
    intro hc
    rcases List.mem_append.mp hc with hc | hc
    · exact hblank (List.eq_of_mem_replicate hc).symm
    rcases List.mem_append.mp hc with hc | hc
    · exact absurd (isDigit_of_mem_digitsText hc) (hdigit ▸ Bool.false_ne_true)
    rcases List.mem_cons.mp hc with hc | hc
    · exact hcolon hc
    · exact hrest hc
  cases r with
  | irq pad num rest hnum hrest =>
    exact ⟨hplain _ (by decide) (by decide) (by decide) hrest.1,
      hplain _ (by decide) (by decide) (by decide) hrest.2⟩
  | label name hname hhead => exact hname

end InterruptRow

/-! ### Discovery -/

section

variable (rows : List InterruptRow)

theorem lines_tableText : lines nl (tableText rows) = rows.map InterruptRow.text := by
  apply lines_unlines
  intro l hl
  obtain ⟨r, -, rfl⟩ := List.mem_map.mp hl
  exact r.notMem_text.1

theorem zero_notMem_tableText : (0 : UInt8) ∉ tableText rows := by
  intro h
  obtain ⟨l, hl, hz⟩ := List.mem_flatMap.mp h
  obtain ⟨r, -, rfl⟩ := List.mem_map.mp hl
  rcases List.mem_append.mp hz with hz | hz
  · exact r.notMem_text.2 hz
  · exact absurd hz (by decide)

/-- `discover_irqs` searches the visible lines. -/
theorem discoverIrqs_tableText (token : Bytes) :
    (discoverIrqs .allOk (some (tableText rows)) token).val =
      ((visible 8191 (rows.map InterruptRow.text)).filterMap (irqOfLine token)).take 64 := by
  have hz : (0 : UInt8) ∉ (tableText rows).take 8191 := fun h =>
    zero_notMem_tableText rows (List.mem_of_mem_take h)
  have hread : readFile IrqEnv.allOk.interrupts (some (tableText rows)) 8191 = _ :=
    readFile_eq (tableText rows) 8191
  unfold discoverIrqs
  rw [hread, ← lines_tableText, ← lines_take]
  by_cases hnil : (tableText rows).take 8191 = []
  · rw [if_pos hnil, hnil]
    rfl
  · rw [if_neg hnil]
    dsimp only
    rw [cstr_of_notMem hz]

/-- The first 64 interrupts of the lines with a token. -/
def deviceIrqs (token : Bytes) : List ℤ := (rows.filterMap (InterruptRow.deviceIrq token)).take 64

/-- **What discovery finds.** `discover_irqs` returns the interrupts of a device exactly if of
each line that counts enough is among the first 8191 bytes to show the token and the number. -/
theorem discoverIrqs_iff (token : Bytes) :
    (discoverIrqs .allOk (some (tableText rows)) token).val = deviceIrqs rows token ↔
      ∀ xs r ys, rows = xs ++ r :: ys → r.deviceIrq token ≠ none →
        (xs.filterMap (InterruptRow.deviceIrq token)).length < 64 →
          irqOfLine token (r.text.take (8191 - (tableText xs).length)) = r.deviceIrq token := by
  have hline (xs : List InterruptRow) :
      (xs.map InterruptRow.text).filterMap (irqOfLine token) =
        xs.filterMap (InterruptRow.deviceIrq token) := by
    rw [List.filterMap_map]
    exact List.filterMap_congr fun r _ => r.irqOfLine_text token
  have hmono : ∀ l ∈ rows.map InterruptRow.text, ∀ n, irqOfLine token l = none →
      irqOfLine token (l.take n) = none := by
    intro l hl n h
    obtain ⟨r, -, rfl⟩ := List.mem_map.mp hl
    rw [r.irqOfLine_text] at h
    exact InterruptRow.irqOfLine_take_eq_none h n
  have hnil : irqOfLine token [] = none := if_neg (by simp [atoi])
  rw [discoverIrqs_tableText, deviceIrqs, ← hline, take_filterMap_visible_iff nl hnil hmono,
    forall_split_map (P := fun xs l => irqOfLine token l ≠ none →
      (xs.filterMap (irqOfLine token)).length < 64 →
        irqOfLine token (l.take (8191 - (unlines nl xs).length)) = irqOfLine token l)]
  simp only [InterruptRow.irqOfLine_text, hline]
  rfl

/-- A line of `n + 1` characters without a number. -/
def fillerRow (n : ℕ) : InterruptRow :=
  .label (chr 'x' :: List.replicate n (chr 'x'))
    (by
      rw [← List.replicate_succ]
      exact ⟨fun h => absurd (List.eq_of_mem_replicate h) (by decide),
        fun h => absurd (List.eq_of_mem_replicate h) (by decide)⟩)
    (by
      rw [List.dropWhile_cons_of_neg (by decide)]
      intro c hc
      obtain rfl := Option.mem_some_iff.mp hc
      decide)

/-- A table whose first line fills the buffer. -/
def wideTable : List InterruptRow :=
  [fillerRow 8190, .irq 0 24 (lit " PCI-MSI amdgpu") (by decide) (by decide)]

/-- The graphics card of that table is not found. -/
theorem device_past_buffer :
    ¬ ∀ (rows : List InterruptRow) (token : Bytes),
      (discoverIrqs .allOk (some (tableText rows)) token).val = deviceIrqs rows token := by
  intro h
  have hlen : (fillerRow 8190).text.length = 8191 :=
    (List.length_cons).trans (congrArg (· + 1) List.length_replicate)
  have hvisible : visible 8191 (wideTable.map InterruptRow.text) = [(fillerRow 8190).text] := by
    rw [wideTable, List.map_cons, visible, if_neg (by omega), List.take_of_length_le hlen.le]
    exact if_neg (List.cons_ne_nil _ _)
  have hcode : (discoverIrqs .allOk (some (tableText wideTable)) (lit "amdgpu")).val = [] := by
    rw [discoverIrqs_tableText, hvisible,
      List.filterMap_cons_none ((fillerRow 8190).irqOfLine_text _)]
    rfl
  have hspec : deviceIrqs wideTable (lit "amdgpu") = [24] := by decide
  exact absurd (hcode.symm.trans ((h _ _).trans hspec)) (by decide)

/-! ### Message-signalled interrupts -/

/-- The text `verify_msi` looks for. -/
theorem printfSn_irq {n : ℕ} (h : n < 2 ^ 31) :
    printfSn 16 (lit "%d:") [.int n] = digitsText n ++ [chr ':'] := by
  have hloop (full : Bytes) : printfLoop 15 3 (chr '%' :: chr 'd' :: [chr ':']) [.int n]
      (full.take 15) = (full ++ xuiItoa n ++ [chr ':']).take 15 := by
    rw [printfLoop_d, printfLoop_char (by decide) (by decide), printfLoop, if_pos (Or.inl rfl)]
  have hstart := hloop []
  have hlen : (digitsText n).length ≤ 10 :=
    length_digitsText_le (by norm_num) (h.trans_le (by norm_num))
  rw [List.take_nil, List.nil_append, xuiItoa_natCast h, List.take_of_length_le (by simp; omega)]
    at hstart
  exact hstart

/-- The first occurrence leaves the longest rest. -/
theorem suffix_of_strstr_of_suffix {h n p b : Bytes} (hp : strstr h n = some p) (hb : b <:+ h)
    (hn : n <+: b) : b <:+ p := by
  induction h with
  | nil =>
    obtain rfl := List.suffix_nil.mp hb
    exact List.nil_suffix
  | cons c h ih =>
    rw [strstr] at hp
    by_cases hpre : n.isPrefixOf (c :: h) = true
    · rw [if_pos hpre] at hp
      exact Option.some.inj hp ▸ hb
    · rw [if_neg hpre] at hp
      rcases List.suffix_cons_iff.mp hb with rfl | hb
      · exact absurd (List.isPrefixOf_iff_prefix.mpr hn) hpre
      · exact ih hp hb

/-- A search from the first occurrence of `n` on finds what stands below any occurrence. -/
theorem contains_strstr_iff (h n m : Bytes) :
    (match strstr h n with
      | none => false
      | some p => contains p m) = true ↔ ∃ b, b <:+ h ∧ n <+: b ∧ m <:+: b := by
  cases hp : strstr h n with
  | none =>
    refine iff_of_false Bool.false_ne_true ?_
    rintro ⟨b, hb, hn, -⟩
    have hocc : contains h n = true := (contains_iff h n).mpr (hn.isInfix.trans hb.isInfix)
    rw [contains, hp] at hocc
    exact Bool.false_ne_true hocc
  | some p =>
    dsimp only
    rw [contains_iff]
    constructor
    · exact fun hm => ⟨p, (suffix_of_strstr hp).1, (suffix_of_strstr hp).2, hm⟩
    · rintro ⟨b, hb, hn, hm⟩
      exact hm.trans (suffix_of_strstr_of_suffix hp hb hn).isInfix

/-- The text that `verify_msi` takes for the line of an interrupt. -/
def irqMark (n : ℕ) : Bytes := digitsText n ++ [chr ':']

/-- **What `verify_msi` tests.** Somewhere below an occurrence of the number is a marker. -/
theorem verifyMsi_iff {text : Bytes} (hz : (0 : UInt8) ∉ text) (hlen : text.length ≤ 8191) {n : ℕ}
    (hn : n < 2 ^ 31) :
    verifyMsi .allOk (some text) n = true ↔
      ∃ b, b <:+ text ∧ irqMark n <+: b ∧ lit "PCI-MSI" <:+: b := by
  have hsub : lit "PCI-MSI" <:+: lit "PCI-MSIX" := by decide
  have hor (p : Bytes) : (contains p (lit "PCI-MSI") || contains p (lit "PCI-MSIX")) =
      contains p (lit "PCI-MSI") := by
    rw [Bool.or_eq_left_iff_imp, contains_iff, contains_iff]
    exact fun h => hsub.trans h
  have hread : readFile IrqEnv.allOk.interrupts (some text) 8191 = _ := readFile_of_length_le hlen
  unfold verifyMsi
  rw [hread]
  by_cases hne : text = []
  · rw [if_pos hne]
    refine iff_of_false Bool.false_ne_true ?_
    rintro ⟨b, hb, hmark, -⟩
    rw [hne, List.suffix_nil] at hb
    rw [hb, List.prefix_nil] at hmark
    exact List.append_ne_nil_of_right_ne_nil _ (List.cons_ne_nil _ _) hmark
  · rw [if_neg hne]
    dsimp only
    rw [cstr_of_notMem hz, printfSn_irq hn]
    simp only [hor]
    exact contains_strstr_iff text (irqMark n) (lit "PCI-MSI")

/-- A row stands in its table. -/
theorem exists_tableText {r : InterruptRow} (h : r ∈ rows) :
    ∃ a b, tableText rows = a ++ (r.text ++ nl :: b) := by
  obtain ⟨xs, ys, rfl⟩ := List.append_of_mem h
  refine ⟨tableText xs, tableText ys, ?_⟩
  unfold tableText
  rw [List.map_append, unlines_append, List.map_cons, unlines_cons]

/-- A marker in the line of an interrupt stands below its number. -/
theorem exists_suffix_of_row {pad num : ℕ} {rest : Bytes} {hnum : num < 2 ^ 31}
    {hrest : nl ∉ rest ∧ (0 : UInt8) ∉ rest}
    (hmem : InterruptRow.irq pad num rest hnum hrest ∈ rows)
    (hmsi : lit "PCI-MSI" <:+: (InterruptRow.irq pad num rest hnum hrest).text) :
    ∃ b, b <:+ tableText rows ∧ irqMark num <+: b ∧ lit "PCI-MSI" <:+: b := by
  obtain ⟨a, b, htable⟩ := exists_tableText rows hmem
  refine ⟨digitsText num ++ chr ':' :: rest ++ nl :: b, ?_, ?_, ?_⟩
  · have hsplit : tableText rows = (a ++ List.replicate pad (chr ' ')) ++
        (digitsText num ++ chr ':' :: rest ++ nl :: b) := by
      rw [htable, InterruptRow.text, List.append_assoc, List.append_assoc, List.append_assoc]
    exact hsplit ▸ List.suffix_append _ _
  · refine List.IsPrefix.trans ?_ (List.prefix_append _ _)
    rw [irqMark, List.prefix_append_right_inj]
    exact List.prefix_append [chr ':'] rest
  · -- the marker has no blank at its beginning
    have hblank : chr 'P' ∉ List.replicate pad (chr ' ') := fun h =>
      absurd (List.eq_of_mem_replicate h) (by decide)
    have hskip : contains (InterruptRow.irq pad num rest hnum hrest).text (lit "PCI-MSI") =
        contains (digitsText num ++ chr ':' :: rest) (lit "PCI-MSI") :=
      congrArg Option.isSome (strstr_append_of_head hblank _)
    rw [← contains_iff, hskip, contains_iff] at hmsi
    exact hmsi.trans (List.prefix_append _ _).isInfix

/-- `verify_msi` is right about every interrupt. -/
def ClassifiesMsi : Prop :=
  ∀ pad num rest hnum hrest, InterruptRow.irq pad num rest hnum hrest ∈ rows →
    (verifyMsi .allOk (some (tableText rows)) num = true ↔
      lit "PCI-MSI" <:+: (InterruptRow.irq pad num rest hnum hrest).text)

/-- Below the number of an interrupt without a marker of its own there is no marker. -/
def MsiFirst : Prop :=
  ∀ pad num rest hnum hrest, InterruptRow.irq pad num rest hnum hrest ∈ rows →
    lit "PCI-MSI" <:+: (InterruptRow.irq pad num rest hnum hrest).text ∨
      ∀ b, b <:+ tableText rows → irqMark num <+: b → ¬ lit "PCI-MSI" <:+: b

theorem classifiesMsi_iff (hlen : (tableText rows).length ≤ 8191) :
    ClassifiesMsi rows ↔ MsiFirst rows := by
  unfold ClassifiesMsi MsiFirst
  refine forall_congr' fun pad => forall_congr' fun num => forall_congr' fun rest =>
    forall_congr' fun hnum => forall_congr' fun hrest => imp_congr_right fun hmem => ?_
  rw [verifyMsi_iff (zero_notMem_tableText rows) hlen hnum]
  constructor
  · intro hiff
    by_cases hmsi : lit "PCI-MSI" <:+: (InterruptRow.irq pad num rest hnum hrest).text
    · exact Or.inl hmsi
    · exact Or.inr fun b hb hmark hin => hmsi (hiff.mp ⟨b, hb, hmark, hin⟩)
  · rintro (hmsi | hno)
    · exact iff_of_true (exists_suffix_of_row rows hmem hmsi) hmsi
    · refine ⟨?_, exists_suffix_of_row rows hmem⟩
      rintro ⟨b, hb, hmark, hin⟩
      exact absurd hin (hno b hb hmark)

/-! ### Counting vectors -/

/-- The occurrences of a text, one after the other. -/
theorem countP_tails {w : Bytes} (hw : w ≠ []) (g : Bytes → Bool) (p : Bytes) :
    p.tails.countP (fun q => w.isPrefixOf q && g q) =
      match strstr p w with
      | none => 0
      | some q => (if g q then 1 else 0) + q.tail.tails.countP fun q => w.isPrefixOf q && g q := by
  induction p with
  | nil =>
    obtain ⟨c, w, rfl⟩ := List.exists_cons_of_ne_nil hw
    rfl
  | cons c p ih =>
    rw [List.tails_cons, List.countP_cons, strstr]
    by_cases hpre : w.isPrefixOf (c :: p) = true
    · rw [if_pos hpre, hpre, Bool.true_and, Nat.add_comm]
      rfl
    · rw [if_neg hpre, Bool.eq_false_of_not_eq_true hpre, Bool.false_and, ih,
        if_neg Bool.false_ne_true, Nat.add_zero]

/-- The loop of `count_msix_vectors` counts occurrences. -/
theorem msixLoop_eq (buf : Bytes) {fuel : ℕ} {p : Bytes} (h : p.length < fuel) :
    msixLoop buf fuel p = p.tails.countP fun q =>
      (lit "amdgpu").isPrefixOf q &&
        contains (buf.drop (buf.length - q.length - 80)) (lit "PCI-MSIX") := by
  induction fuel generalizing p with
  | zero => exact absurd h (Nat.not_lt_zero _)
  | succ fuel ih =>
    rw [msixLoop, countP_tails (by decide)]
    cases hq : strstr p (lit "amdgpu") with
    | none => rfl
    | some q =>
      obtain ⟨hsuf, hpre⟩ := suffix_of_strstr hq
      have hpos : 0 < q.length := lt_of_lt_of_le (by decide) hpre.length_le
      have htail : q.tail.length < fuel := by
        have := hsuf.length_le
        rw [List.length_tail]
        omega
      dsimp only
      rw [ih htail]

/-- The occurrences of the driver that are before a marker, or at most 80 bytes behind its
beginning. -/
def nearMarker (text : Bytes) : ℕ :=
  text.tails.countP fun q => decide (lit "amdgpu" <+: q ∧
    ∃ s ∈ text.tails, lit "PCI-MSIX" <+: s ∧ s.length ≤ q.length + 80)

/-- **What `count_msix_vectors` counts.** -/
theorem countMsixVectors_eq {text : Bytes} (hz : (0 : UInt8) ∉ text) (hlen : text.length ≤ 8191) :
    countMsixVectors .allOk (some text) = nearMarker text := by
  -- the search begins 80 bytes in front of the occurrence
  have hnear (q : Bytes) (hq : q <:+ text) :
      contains (text.drop (text.length - q.length - 80)) (lit "PCI-MSIX") = true ↔
        ∃ s ∈ text.tails, lit "PCI-MSIX" <+: s ∧ s.length ≤ q.length + 80 := by
    have hqlen := hq.length_le
    rw [contains_iff, List.infix_iff_prefix_suffix]
    constructor
    · rintro ⟨s, hpre, hsuf⟩
      have hslen := hsuf.length_le
      rw [List.length_drop] at hslen
      exact ⟨s, (List.mem_tails _ _).mpr (hsuf.trans (List.drop_suffix _ _)), hpre, by omega⟩
    · rintro ⟨s, hs, hpre, hslen⟩
      have hsuf := (List.mem_tails _ _).mp hs
      have := hsuf.length_le
      refine ⟨s, hpre, List.suffix_of_suffix_length_le hsuf (List.drop_suffix _ _) ?_⟩
      rw [List.length_drop]
      omega
  -- the loop counts one for each occurrence with a marker near
  have hcount : msixLoop text (text.length + 1) text = nearMarker text := by
    rw [msixLoop_eq text (Nat.lt_succ_self _), nearMarker]
    apply List.countP_congr
    intro q hq
    rw [Bool.and_eq_true, List.isPrefixOf_iff_prefix, hnear q ((List.mem_tails _ _).mp hq),
      decide_eq_true_iff]
  have hread : readFile IrqEnv.allOk.interrupts (some text) 8191 = _ := readFile_of_length_le hlen
  unfold countMsixVectors
  rw [hread]
  by_cases hne : text = []
  · rw [if_pos hne, hne]
    rfl
  · rw [if_neg hne]
    dsimp only
    rw [cstr_of_notMem hz, hcount]

/-- The lines of the driver that have a marker. -/
def msixLines : ℕ :=
  rows.countP fun r => decide (lit "amdgpu" <:+: r.text ∧ lit "PCI-MSIX" <:+: r.text)

/-- **When the classification is by line.** In a table that fits the buffer `verify_msi` is right
about every interrupt and `count_msix_vectors` counts lines exactly if no marker stands below the
number of an interrupt without one, and there are as many occurrences of the driver near a marker
as lines with both. -/
theorem msi_iff (hlen : (tableText rows).length ≤ 8191) :
    ClassifiesMsi rows ∧ countMsixVectors .allOk (some (tableText rows)) = msixLines rows ↔
      MsiFirst rows ∧ nearMarker (tableText rows) = msixLines rows := by
  rw [classifiesMsi_iff rows hlen, countMsixVectors_eq (zero_notMem_tableText rows) hlen]

/-- A timer without messages, and above a disk with them. -/
def mixedTable : List InterruptRow :=
  [.irq 1 8 (lit " IO-APIC rtc0") (by decide) (by decide),
    .irq 0 24 (lit " PCI-MSIX nvme0q0") (by decide) (by decide)]

theorem msi_iff_mixedTable :
    ClassifiesMsi mixedTable ∧
        countMsixVectors .allOk (some (tableText mixedTable)) = msixLines mixedTable ↔
      MsiFirst mixedTable ∧ nearMarker (tableText mixedTable) = msixLines mixedTable :=
  msi_iff mixedTable (by decide)

/-- The timer is taken for message-signalled. -/
theorem timer_taken_for_msi :
    ¬ ∀ rows : List InterruptRow, (tableText rows).length ≤ 8191 →
      ClassifiesMsi rows ∧ countMsixVectors .allOk (some (tableText rows)) = msixLines rows := by
  intro h
  have hclass := (h mixedTable (by decide)).1 1 8 (lit " IO-APIC rtc0") (by decide) (by decide)
    List.mem_cons_self
  have hcode : verifyMsi .allOk (some (tableText mixedTable)) 8 = true := by decide
  exact absurd (hclass.mp hcode) (by decide)

end

/-! ### Interfaces -/

section

variable {text : Bytes}

/-- Where a name ends. -/
def endsName (c : UInt8) : Bool := c = chr ' ' || c = chr '-'

/-- The names of interfaces in a text: a token, wherever it stands, and what follows it. -/
def interfaceNames (text : Bytes) : List Bytes :=
  (lines nl text).flatMap fun l =>
    (l.tails.filter fun s => nicTokens.any (·.isPrefixOf s)).map (·.takeWhile fun c => !endsName c)

/-- A table whose interfaces fit the array of `irq.c`. -/
structure FewInterfaces (text : Bytes) : Prop where
  length : text.length ≤ 8191
  zero : (0 : UInt8) ∉ text
  short : ∀ name ∈ interfaceNames text, name.length < 32
  count : (interfaceNames text).dedup.length ≤ 8

theorem cutAny_eq_takeWhile {s : Bytes} (h : nl ∉ s) :
    cutAny s [chr ' ', nl, chr '-'] = s.takeWhile fun c => !endsName c := by
  unfold cutAny
  induction s with
  | nil => rfl
  | cons c s ih =>
    rw [List.mem_cons, not_or] at h
    have hend : decide (c ∉ [chr ' ', nl, chr '-']) = !endsName c := by
      have hne : ¬ c = nl := fun hc => h.1 hc.symm
      simp [endsName, hne]
    rw [List.takeWhile_cons, List.takeWhile_cons, hend, ih h.2]

/-- What a line gives is the name of an interface. -/
theorem interfaceName_of_nicName (hfew : FewInterfaces text) {l name : Bytes}
    (hl : l ∈ lines nl text) (h : nicName l = some name) : name ∈ interfaceNames text := by
  obtain ⟨found, hfound, rfl⟩ := Option.map_eq_some_iff.mp h
  obtain ⟨token, htoken, hstr⟩ := List.exists_of_findSome?_eq_some hfound
  obtain ⟨hsuf, hpre⟩ := suffix_of_strstr hstr
  have hnl : nl ∉ found := fun hmem => notMem_of_mem_lines hl (hsuf.subset hmem)
  have hname : (found.takeWhile fun c => !endsName c) ∈ interfaceNames text := by
    refine List.mem_flatMap.mpr ⟨l, hl, List.mem_map.mpr ⟨found, ?_, rfl⟩⟩
    rw [List.mem_filter, List.mem_tails, List.any_eq_true]
    exact ⟨hsuf, token, htoken, List.isPrefixOf_iff_prefix.mpr hpre⟩
  have hlen := hfew.short _ hname
  rwa [cutAny_eq_takeWhile hnl, List.take_of_length_le (by omega)]

/-- The names the lines give, in order. -/
def nicHits (text : Bytes) : List Bytes := (lines nl text).filterMap nicName

theorem discoverNicNames_eq (hfew : FewInterfaces text) :
    discoverNicNames .allOk (some text) = (nicHits text).take 8 := by
  have hread : readFile IrqEnv.allOk.interrupts (some text) 8191 = _ :=
    readFile_of_length_le hfew.length
  unfold discoverNicNames
  rw [hread]
  by_cases hne : text = []
  · rw [if_pos hne, hne]
    rfl
  · rw [if_neg hne]
    dsimp only
    rw [cstr_of_notMem hfew.zero]
    rfl

/-- **When each interface is collected once.** Every name is the one some line gives, and the first
eight lines that give one give different ones. -/
theorem nicNames_once_iff (hfew : FewInterfaces text) :
    (∀ name ∈ interfaceNames text, (discoverNicNames .allOk (some text)).count name = 1) ↔
      (∀ name ∈ interfaceNames text, ∃ l ∈ lines nl text, nicName l = some name) ∧
        ((nicHits text).take 8).Nodup := by
  have hnames : ∀ name ∈ (nicHits text).take 8, name ∈ interfaceNames text := by
    intro name h
    obtain ⟨l, hl, hname⟩ := List.mem_filterMap.mp (List.mem_of_mem_take h)
    exact interfaceName_of_nicName hfew hl hname
  rw [discoverNicNames_eq hfew]
  constructor
  · intro honce
    refine ⟨fun name hname => ?_, List.nodup_iff_count_le_one.mpr fun name => ?_⟩
    · have hmem : name ∈ (nicHits text).take 8 := List.count_pos_iff.mp (honce name hname ▸ one_pos)
      exact List.mem_filterMap.mp (List.mem_of_mem_take hmem)
    · by_cases hmem : name ∈ (nicHits text).take 8
      · exact (honce name (hnames name hmem)).le
      · rw [List.count_eq_zero_of_not_mem hmem]
        exact zero_le_one
  · rintro ⟨hfound, hnodup⟩ name hname
    refine List.count_eq_one_of_mem hnodup ?_
    by_contra hmem
    obtain ⟨l, hl, hnic⟩ := hfound name hname
    have hhit : name ∈ nicHits text := List.mem_filterMap.mpr ⟨l, hl, hnic⟩
    -- a name behind eight different ones would be the ninth
    have hlong : 8 < (nicHits text).length := by
      by_contra hle
      rw [List.take_of_length_le (by omega)] at hmem
      exact hmem hhit
    have hsub : name :: (nicHits text).take 8 ⊆ (interfaceNames text).dedup := by
      intro n hn
      rw [List.mem_dedup]
      exact List.forall_mem_cons.mpr ⟨hname, hnames⟩ n hn
    have hnine := ((List.nodup_cons.mpr ⟨hmem, hnodup⟩).subperm hsub).length_le
    have := hfew.count
    rw [List.length_cons, List.length_take] at hnine
    omega

/-- An interface with two queues. -/
def twoQueues : Bytes := lit "45: PCI-MSI eth0-rx-0\n46: PCI-MSI eth0-tx-0\n"

theorem fewInterfaces_twoQueues : FewInterfaces twoQueues := by
  refine ⟨?_, ?_, ?_, ?_⟩ <;> decide

theorem nicNames_once_iff_twoQueues :
    (∀ name ∈ interfaceNames twoQueues,
        (discoverNicNames .allOk (some twoQueues)).count name = 1) ↔
      (∀ name ∈ interfaceNames twoQueues, ∃ l ∈ lines nl twoQueues, nicName l = some name) ∧
        ((nicHits twoQueues).take 8).Nodup :=
  nicNames_once_iff fewInterfaces_twoQueues

/-- Its name is collected twice. -/
theorem queue_names_repeated :
    ¬ ∀ text, FewInterfaces text →
      ∀ name ∈ interfaceNames text, (discoverNicNames .allOk (some text)).count name = 1 := by
  intro h
  have honce := h twoQueues fewInterfaces_twoQueues (lit "eth0") (by decide)
  have htwice : (discoverNicNames .allOk (some twoQueues)).count (lit "eth0") = 2 := by decide
  omega

end
end X3D
