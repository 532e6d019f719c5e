import X3DToggle.Affinity
import X3DToggle.Decimal
import X3DToggle.Socket

/-!
# The two halves of the package

The build scripts split the CPUs of the machine once and for all. `ccd.sh` reads the list of the
CPUs that share the L3 cache of CPU 0, keeps it as `CCD0_CORE_MASK`, and takes one number out of
it: where the other half starts, `CCD1_START`. The programs then treat the other half as the range
from `CCD1_START` to the last CPU, as the mask of the frequency partition (`affinityGetTopology`),
in the loop of `SET_PARK ccd1` and in the loop of `cppc_ccd`.

The number comes from string surgery: what follows the first `-` of the list up to the next `,`,
plus one. It is the end of the first range of the list, so that the two halves are complementary
if and only if the list is the CPUs up to there (`ccdSplit_iff`). A list of two ranges, as a
machine reports it that numbers the second threads of its cores after the first ones, leaves its
second range in both halves; and a list of single numbers is taken to be the first eight CPUs.
-/

namespace X3D

/-! ### CPU lists -/

/-- The number a digit string stands for. -/
def numberOf (s : Bytes) : Option ℕ :=
  if s ≠ [] ∧ s.all isDigit then some (natValue s).toNat else none

/-- An item of a list, a number or a range, names the CPU `c`. A range whose end is before its
start names none. -/
def itemHas (item : Bytes) (c : ℕ) : Bool :=
  match strchr item (chr '-') with
  | none => numberOf item = some c
  | some (a, b) =>
    match numberOf a, numberOf b with
    | some lo, some hi => lo ≤ c && c ≤ hi
    | _, _ => false

/-- The list names the CPU `c`. -/
def cpulistHas (s : Bytes) (c : ℕ) : Bool := (lines (chr ',') s).any (itemHas · c)

/-- The CPUs a list denotes. -/
def cpus (s : Bytes) : Set ℕ := {c | cpulistHas s c = true}

/-- An item as the kernel prints it: a range is printed as one number if it has one CPU. -/
structure CpuRun where
  first : ℕ
  last : ℕ
  le : first ≤ last

namespace CpuRun

def text (r : CpuRun) : Bytes :=
  if r.first = r.last then digitsText r.first
  else digitsText r.first ++ chr '-' :: digitsText r.last

/-- The run is printed with its two ends. -/
def IsRange (r : CpuRun) : Prop := r.first < r.last

instance (r : CpuRun) : Decidable r.IsRange := inferInstanceAs (Decidable (r.first < r.last))

end CpuRun

/-- The text of a list of runs. -/
def cpulistText (rs : List CpuRun) : Bytes := List.intercalate [chr ','] (rs.map CpuRun.text)

section

variable {n : ℕ} {c : UInt8}

theorem dash_notMem_digitsText : chr '-' ∉ digitsText n := fun h =>
  absurd (isDigit_of_mem_digitsText h) (by decide)

theorem comma_notMem_digitsText : chr ',' ∉ digitsText n := fun h =>
  absurd (isDigit_of_mem_digitsText h) (by decide)

theorem numberOf_digitsText : numberOf (digitsText n) = some n := by
  have hall : (digitsText n).all isDigit = true :=
    List.all_eq_true.mpr fun _ => isDigit_of_mem_digitsText
  rw [numberOf, if_pos ⟨digitsText_ne_nil, hall⟩, natValue_digitsText, Int.toNat_natCast]

end

section

variable {a b c : ℕ}

theorem itemHas_number : itemHas (digitsText a) c = true ↔ c = a := by
  unfold itemHas strchr
  rw [cut_eq_none.mpr dash_notMem_digitsText]
  show decide (numberOf (digitsText a) = some c) = true ↔ _
  rw [numberOf_digitsText, decide_eq_true_iff, Option.some.injEq, eq_comm]

theorem itemHas_range :
    itemHas (digitsText a ++ chr '-' :: digitsText b) c = true ↔ a ≤ c ∧ c ≤ b := by
  unfold itemHas strchr
  rw [cut_append dash_notMem_digitsText]
  dsimp only
  rw [numberOf_digitsText, numberOf_digitsText]
  simp

end

namespace CpuRun

variable (r : CpuRun)

theorem itemHas_text {c : ℕ} : itemHas r.text c = true ↔ r.first ≤ c ∧ c ≤ r.last := by
  unfold text
  split
  next h =>
    rw [itemHas_number, ← h]
    omega
  next => exact itemHas_range

theorem comma_notMem_text : chr ',' ∉ r.text := by
  unfold text
  split
  next => exact comma_notMem_digitsText
  next =>
    rw [List.mem_append, List.mem_cons]
    rintro (h | h | h)
    · exact comma_notMem_digitsText h
    · exact absurd h (by decide)
    · exact comma_notMem_digitsText h

theorem text_ne_nil : r.text ≠ [] := by
  unfold text
  split
  next => exact digitsText_ne_nil
  next => exact List.append_ne_nil_of_right_ne_nil _ (List.cons_ne_nil _ _)

end CpuRun

/-- **What a list denotes.** The CPUs of its items. -/
theorem mem_cpus_cpulistText {rs : List CpuRun} {c : ℕ} :
    c ∈ cpus (cpulistText rs) ↔ ∃ r ∈ rs, r.first ≤ c ∧ c ≤ r.last := by
  have hitems : lines (chr ',') (cpulistText rs) = rs.map CpuRun.text := by
    refine lines_intercalate fun l hl => ?_
    obtain ⟨r, -, rfl⟩ := List.mem_map.mp hl
    exact ⟨r.comma_notMem_text, r.text_ne_nil⟩
  show cpulistHas _ c = true ↔ _
  rw [cpulistHas, hitems, List.any_map, List.any_eq_true]
  exact exists_congr fun r => and_congr_right fun _ => r.itemHas_text

/-! ### `ccd.sh` -/

/-- A directory `/sys/devices/system/cpu/cpu0/cache/index*`. -/
structure CacheIndex where
  -- the line of `level`, if the file is there
  level : Option Bytes
  -- the line of `shared_cpu_list`
  sharedCpuList : Bytes

/-- What the script sees of the machine. -/
structure CpuSysfs where
  caches : List CacheIndex
  -- the line of `package_cpus_list`, if the file is there
  packageCpus : Option Bytes
  -- the number of entries `/sys/devices/system/cpu/cpu[0-9]*`
  total : ℕ

/-- The first cache of level 3. -/
def CpuSysfs.l3 (sys : CpuSysfs) : Option CacheIndex :=
  sys.caches.find? fun i => i.level = some (lit "3")

/-- `CCD0_CORES`. -/
def ccd0Cores (sys : CpuSysfs) : Bytes :=
  let shared := sys.l3.elim [] CacheIndex.sharedCpuList
  let cores := if shared = [] then sys.packageCpus.getD [] else shared
  if cores = [] then lit "0-7" else cores

/-- Some `-` is followed by a digit. -/
def dashDigit : Bytes → Bool
  | [] => false
  | c :: s => c = chr '-' && s.head?.any isDigit || dashDigit s

/-- The pattern `[0-9]*-[0-9]*`. -/
def rangePattern : Bytes → Bool
  | [] => false
  | c :: s => isDigit c && dashDigit s

/-- An integer constant in `$((...))`; a leading zero makes it octal. -/
def shellConst (s : Bytes) : Option ℕ :=
  if s = [] ∨ !s.all isDigit then none
  else if s.head? = some (chr '0') then
    if s.all (· < chr '8') then some (s.foldl (fun a c => a * 8 + (digit c).toNat) 0) else none
  else numberOf s

/-- `CCD1_START`, unless the arithmetic fails. -/
def ccd1StartSh (cores : Bytes) : Option ℕ :=
  if rangePattern cores then
    -- `${CCD0_CORES#*-}`
    let tmp := (strchr cores (chr '-')).elim cores Prod.snd
    -- `${_l_tmp%%,*}`
    let last := (strchr tmp (chr ',')).elim tmp Prod.fst
    (shellConst last).map (· + 1)
  else some 8

/-- `ccd.sh --gen-ccd`: the constants of the generated `ccd.h`. -/
def ccdHeader (B : Build) (sys : CpuSysfs) : Option Build :=
  (ccd1StartSh (ccd0Cores sys)).map fun start =>
    { B with ccd0CoreMask := ccd0Cores sys, ccd1Start := start, totalCores := sys.total }

/-! ### What the surgery finds -/

/-- What follows the first item of a list. -/
def afterItem (rs : List CpuRun) : Bytes := if rs = [] then [] else chr ',' :: cpulistText rs

theorem cpulistText_cons (r : CpuRun) (rs : List CpuRun) :
    cpulistText (r :: rs) = r.text ++ afterItem rs := by
  cases rs with
  | nil => simp [cpulistText, afterItem, List.intercalate_singleton]
  | cons r' rs =>
    rw [afterItem, if_neg (List.cons_ne_nil _ _), cpulistText, List.map_cons, List.map_cons,
      List.intercalate_cons_cons, List.append_assoc, List.singleton_append]
    rfl

theorem dashDigit_append {a : Bytes} (h : chr '-' ∉ a) (b : Bytes) :
    dashDigit (a ++ b) = dashDigit b := by
  induction a with
  | nil => rfl
  | cons c a ih =>
    rw [List.mem_cons, not_or] at h
    rw [List.cons_append, dashDigit, ih h.2, decide_eq_false (Ne.symm h.1), Bool.false_and,
      Bool.false_or]

section

variable {rs : List CpuRun} {r : CpuRun}

/-- A text without a range item has no `-` at all. -/
theorem dash_notMem_cpulistText (h : ∀ r ∈ rs, ¬r.IsRange) : chr '-' ∉ cpulistText rs := by
  induction rs with
  | nil => exact List.not_mem_nil
  | cons r rs ih =>
    have hr : r.first = r.last :=
      Nat.le_antisymm r.le (Nat.le_of_not_lt (h r List.mem_cons_self))
    rw [cpulistText_cons, List.mem_append, CpuRun.text, if_pos hr, not_or]
    refine ⟨dash_notMem_digitsText, ?_⟩
    unfold afterItem
    split
    next => exact List.not_mem_nil
    next =>
      rw [List.mem_cons, not_or]
      exact ⟨by decide, ih fun r hr => h r (List.mem_cons_of_mem _ hr)⟩

/-- **The first range of a list.** Its end follows the first `-`. -/
theorem cpulistText_eq_of_find (h : rs.find? (·.IsRange) = some r) :
    ∃ a rest, chr '-' ∉ a ∧
      cpulistText rs = a ++ chr '-' :: (digitsText r.last ++ afterItem rest) := by
  induction rs with
  | nil => exact absurd h (Option.some_ne_none r).symm
  | cons r' rs ih =>
    rw [List.find?_cons] at h
    by_cases hr' : r'.IsRange
    · rw [decide_eq_true hr'] at h
      obtain rfl : r' = r := Option.some.inj h
      refine ⟨digitsText r'.first, rs, dash_notMem_digitsText, ?_⟩
      rw [cpulistText_cons, CpuRun.text, if_neg (Nat.ne_of_lt hr'), List.append_assoc,
        List.cons_append]
    · rw [decide_eq_false hr'] at h
      obtain ⟨a, rest, ha, htext⟩ := ih h
      have heq : r'.first = r'.last := Nat.le_antisymm r'.le (Nat.le_of_not_lt hr')
      have hne : rs ≠ [] := by
        rintro rfl
        exact absurd h (Option.some_ne_none r).symm
      -- the number before it and its comma have no `-`
      refine ⟨digitsText r'.first ++ chr ',' :: a, rest, ?_, ?_⟩
      · rw [List.mem_append, List.mem_cons, not_or, not_or]
        exact ⟨dash_notMem_digitsText, by decide, ha⟩
      · rw [cpulistText_cons, CpuRun.text, if_pos heq, afterItem, if_neg hne, htext,
          List.append_assoc, List.cons_append]

theorem head_cpulistText (h : rs ≠ []) : ∃ c s, cpulistText rs = c :: s ∧ isDigit c = true := by
  obtain ⟨r, rs, rfl⟩ := List.exists_cons_of_ne_nil h
  obtain ⟨c, s, hcs, hc⟩ := exists_digitsText_eq_cons r.first
  rw [cpulistText_cons, CpuRun.text]
  split
  next => exact ⟨c, s ++ afterItem rs, by rw [hcs]; rfl, hc⟩
  next =>
    refine ⟨c, s ++ chr '-' :: digitsText r.last ++ afterItem rs, ?_, hc⟩
    rw [hcs]
    rfl

end

theorem dashDigit_of_notMem {s : Bytes} (h : chr '-' ∉ s) : dashDigit s = false := by
  rw [← List.append_nil s, dashDigit_append h]
  rfl

/-- The list matches the pattern if it has a range item. -/
theorem rangePattern_cpulistText {rs : List CpuRun} (hne : rs ≠ []) :
    rangePattern (cpulistText rs) = (rs.find? (·.IsRange)).isSome := by
  obtain ⟨c, s, hcs, hc⟩ := head_cpulistText hne
  have hdash : c ≠ chr '-' := by
    rintro rfl
    exact absurd hc (by decide)
  have hpattern : rangePattern (cpulistText rs) = dashDigit (cpulistText rs) := by
    rw [hcs, rangePattern, dashDigit, hc, decide_eq_false hdash, Bool.true_and, Bool.false_and,
      Bool.false_or]
  rw [hpattern]
  cases hfind : rs.find? (·.IsRange) with
  | none =>
    refine dashDigit_of_notMem (dash_notMem_cpulistText fun r hr hrange => ?_)
    exact List.find?_eq_none.mp hfind r hr (decide_eq_true hrange)
  | some r =>
    obtain ⟨a, rest, ha, htext⟩ := cpulistText_eq_of_find hfind
    obtain ⟨d, t, hdt, hd⟩ := exists_digitsText_eq_cons r.last
    rw [htext, dashDigit_append ha, hdt, dashDigit]
    show (_ && isDigit d || _) = true
    rw [hd]
    rfl

theorem head_digitsText_ne_zero {n : ℕ} (h : 0 < n) :
    (digitsText n).head? ≠ some (chr '0') := by
  have hdigits : Nat.digits 10 n ≠ [] := Nat.digits_ne_nil_iff_ne_zero.mpr h.ne'
  rw [digitsText, if_neg h.ne', List.head?_reverse, List.getLast?_map,
    List.getLast?_eq_getLast_of_ne_nil hdigits]
  have hlast := Nat.getLast_digit_ne_zero 10 h.ne'
  have hlt := Nat.digits_lt_base (b := 10) (by norm_num) (List.getLast_mem hdigits)
  generalize (Nat.digits 10 n).getLast _ = d at hlast hlt
  intro heq
  interval_cases d <;> first | exact hlast rfl | exact absurd heq (by decide)

theorem shellConst_digitsText {n : ℕ} (h : 0 < n) : shellConst (digitsText n) = some n := by
  have hall : (digitsText n).all isDigit = true :=
    List.all_eq_true.mpr fun _ => isDigit_of_mem_digitsText
  rw [shellConst, if_neg (by simp [digitsText_ne_nil, hall]),
    if_neg (head_digitsText_ne_zero h), numberOf_digitsText]

/-- **The boundary.** `CCD1_START` is the CPU after the first range of the list, and 8 if the
list has no range. -/
theorem ccd1StartSh_cpulistText {rs : List CpuRun} (hne : rs ≠ []) :
    ccd1StartSh (cpulistText rs) = some ((rs.find? (·.IsRange)).elim 8 fun r => r.last + 1) := by
  rw [ccd1StartSh, rangePattern_cpulistText hne]
  cases hfind : rs.find? (·.IsRange) with
  | none => rfl
  | some r =>
    obtain ⟨a, rest, ha, htext⟩ := cpulistText_eq_of_find hfind
    have hrange : r.IsRange := by simpa using List.find?_some hfind
    have hlast : (strchr (digitsText r.last ++ afterItem rest) (chr ',')).elim
        (digitsText r.last ++ afterItem rest) Prod.fst = digitsText r.last := by
      unfold afterItem strchr
      split
      next => rw [List.append_nil, cut_eq_none.mpr comma_notMem_digitsText]; rfl
      next => rw [cut_append comma_notMem_digitsText]; rfl
    rw [Option.isSome_some, if_pos rfl, htext, strchr, cut_append ha]
    show (shellConst ((strchr (digitsText r.last ++ afterItem rest) (chr ',')).elim
      (digitsText r.last ++ afterItem rest) Prod.fst)).map (· + 1) = some (r.last + 1)
    rw [hlast, shellConst_digitsText (Nat.zero_lt_of_lt hrange)]
    rfl

/-! ### The users of the constants -/

/-- `ccd`, of the generated `ccd.c`: the mask, `CCD1_START` and `TOTAL_CORES`. -/
def ccd (B : Build) : Bytes × ℕ × ℕ :=
  (printfSn 128 (lit "%s") [.str B.ccd0CoreMask], B.ccd1Start, B.totalCores)

/-- `affinity_get_topology`: the mask of the cache partition and that of the frequency
partition. -/
def affinityGetTopology (B : Build) (size : ℕ) : Bytes × Bytes :=
  let (cache, ccd1Start, totalCores) := ccd B
  (cache, printfSn size (lit "%d-%d") [.int ccd1Start, .int (totalCores - 1)])

/-- The files of the two partitions. -/
structure Partitions where
  masks : Masks
  mems : Masks

/-- The outcomes of the calls of `affinity_init`. -/
structure InitEnv where
  -- `mkdir` succeeds, or the directory is there
  mkdirCache : Bool
  mkdirFrequency : Bool
  cpus : CgroupEnv
  mems : CgroupEnv

/-- `affinity_init`. -/
def affinityInit (B : Build) (env : InitEnv) (p : Partitions) : ℤ × Partitions :=
  if !env.mkdirCache then (errCgroup, p)
  else if !env.mkdirFrequency then (errCgroup, p)
  else
    let (cacheMask, ccd1Start, totalCores) := ccd B
    let cache := (cgroupWriteRaw env.cpus.cache cacheMask p.masks.cache).2
    let freqMask := printfSn 128 (lit "%d-%d") [.int ccd1Start, .int (totalCores - 1)]
    let freq := (cgroupWriteRaw env.cpus.frequency freqMask p.masks.frequency).2
    let cacheMems := (cgroupWriteRaw env.mems.cache (lit "0") p.mems.cache).2
    let freqMems := (cgroupWriteRaw env.mems.frequency (lit "0") p.mems.frequency).2
    (errSuccess, ⟨⟨cache, freq⟩, ⟨cacheMems, freqMems⟩⟩)

/-- The outcomes of the calls on the files `energy_performance_preference` of the cores. -/
structure CppcEnv where
  opens : ℕ → Bool
  writes : ℕ → Bool

/-- The loop of `cppc_ccd`: the result, and the cores whose file is written with the value. -/
def preferenceLoop (env : CppcEnv) (val : Bytes) : List ℕ → ℤ → ℤ × List (ℕ × Bytes)
  | [], ret => (ret, [])
  | i :: is, ret =>
    if env.opens i then
      let (ret, ws) := preferenceLoop env val is (if env.writes i then ret else errIo)
      (ret, (i, val) :: ws)
    else preferenceLoop env val is ret

/-- `cppc_ccd`. -/
def cppcCcd (B : Build) (env : CppcEnv) (ccd : ℤ) (val : Bytes) : ℤ × List (ℕ × Bytes) :=
  let start := if ccd = 0 then 0 else B.ccd1Start
  let stop := if ccd = 0 then B.ccd1Start else B.totalCores
  preferenceLoop env val (List.Ico start stop) errSuccess

section

variable {B : Build}

/-- A cache mask that fits the buffer is the list itself. -/
theorem affinityGetTopology_cache (h : B.ccd0CoreMask.length ≤ 127) (size : ℕ) :
    (affinityGetTopology B size).1 = B.ccd0CoreMask := by
  show printfSn 128 (lit "%s") [.str B.ccd0CoreMask] = _
  rw [printfSn_s]
  exact List.take_of_length_le h

/-- The partitions get the masks that the topology names. -/
theorem affinityInit_masks {env : InitEnv} {p : Partitions}
    (h : (affinityInit B env p).1 = errSuccess) (hcache : env.cpus.cache.Takes)
    (hfreq : env.cpus.frequency.Takes) :
    (affinityInit B env p).2.masks =
      ⟨env.cpus.cache.shows (affinityGetTopology B 128).1,
        env.cpus.frequency.shows (affinityGetTopology B 128).2⟩ := by
  unfold affinityInit at h ⊢
  cases hmk1 : env.mkdirCache with
  | false =>
    rw [hmk1] at h
    have hret : errCgroup = errSuccess := h
    exact absurd hret (by decide)
  | true =>
    cases hmk2 : env.mkdirFrequency with
    | false =>
      rw [hmk1, hmk2] at h
      have hret : errCgroup = errSuccess := h
      exact absurd hret (by decide)
    | true =>
      simp only [Bool.not_true, Bool.false_eq_true, if_false, cgroupWriteRaw_of_takes hcache,
        cgroupWriteRaw_of_takes hfreq]
      rfl

/-- `GET_TOPOLOGY` reports these masks. -/
theorem handleGetTopology_eq (d : Daemon) :
    (d.handleGetTopology B).1 =
      printfSn 512 (lit "CACHE=%s;FREQ=%s") [.str (affinityGetTopology B 128).1,
        .str (affinityGetTopology B 128).2] := by
  unfold Daemon.handleGetTopology affinityGetTopology ccd
  dsimp only

/-- The frequency mask is the text of a range. -/
theorem affinityGetTopology_freq (hstart : B.ccd1Start < 2 ^ 31) (hpos : 0 < B.totalCores)
    (htotal : B.totalCores < 2 ^ 31) :
    (affinityGetTopology B 128).2 =
      digitsText B.ccd1Start ++ chr '-' :: digitsText (B.totalCores - 1) := by
  have hlen {n : ℕ} (hn : n < 2 ^ 31) : (digitsText n).length ≤ 12 :=
    length_digitsText_le (by norm_num) (hn.trans_le (by norm_num))
  have hlast : ((B.totalCores : ℤ) - 1) = ((B.totalCores - 1 : ℕ) : ℤ) := by omega
  show printfSn 128 (lit "%d-%d") [.int B.ccd1Start, .int (B.totalCores - 1)] = _
  rw [printfSn_range, hlast, xuiItoa_natCast hstart, xuiItoa_natCast (by omega)]
  refine List.take_of_length_le ?_
  have h1 := hlen hstart
  have h2 := hlen (n := B.totalCores - 1) (by omega)
  rw [List.length_append, List.length_cons]
  omega

/-- **The second half.** The frequency mask denotes the CPUs from `CCD1_START` on. -/
theorem mem_cpus_freq (hstart : B.ccd1Start < 2 ^ 31) (hpos : 0 < B.totalCores)
    (htotal : B.totalCores < 2 ^ 31) {c : ℕ} :
    c ∈ cpus (affinityGetTopology B 128).2 ↔ B.ccd1Start ≤ c ∧ c < B.totalCores := by
  have hcomma : chr ',' ∉ digitsText B.ccd1Start ++ chr '-' :: digitsText (B.totalCores - 1) := by
    rw [List.mem_append, List.mem_cons]
    rintro (h | h | h)
    · exact comma_notMem_digitsText h
    · exact absurd h (by decide)
    · exact comma_notMem_digitsText h
  rw [affinityGetTopology_freq hstart hpos htotal]
  show cpulistHas _ c = true ↔ _
  rw [cpulistHas, lines_of_notMem hcomma,
    if_neg (List.append_ne_nil_of_right_ne_nil _ (List.cons_ne_nil _ _)), List.any_cons,
    List.any_nil, Bool.or_false, itemHas_range]
  omega

/-- `SET_PARK ccd1` takes the cores of a list off line one by one. -/
theorem calls_parkCores (env : RequestEnv) (is : List ℕ) (ret : ℤ) (d : Daemon) :
    (Daemon.parkCores env is ret d).2.calls =
      d.calls ++ is.map fun i : ℕ => HwCall.setCore i false := by
  induction is generalizing ret d with
  | nil => exact (List.append_nil _).symm
  | cons i is ih =>
    rw [Daemon.parkCores, ih]
    show (d.calls ++ [HwCall.setCore i false]) ++ _ = _
    rw [List.append_assoc, List.singleton_append, List.map_cons]

theorem calls_setPark_ccd1 (env : RequestEnv) (d : Daemon) :
    (socketHandle B env (lit "SET_PARK ccd1") d).2.calls =
      d.calls ++ (List.Ico B.ccd1Start B.totalCores).map fun i : ℕ => HwCall.setCore i false := by
  have hne : lit "SET_PARK ccd1" ≠ [] := by decide
  have hdispatch : dispatch (received (lit "SET_PARK ccd1")) = some (.setPark, 9) := by
    decide
  have harg : (received (lit "SET_PARK ccd1")).drop 9 = lit "ccd1" := by decide
  rw [socketHandle, if_neg hne, hdispatch]
  show (d.handleSetPark B env ((received (lit "SET_PARK ccd1")).drop 9)).2.calls = _
  rw [harg, Daemon.handleSetPark, if_pos rfl]
  exact calls_parkCores env _ errSuccess d

/-- The loop of `cppc_ccd` writes the value to the files it can open. -/
theorem mem_preferenceLoop {env : CppcEnv} {val : Bytes} {is : List ℕ} {ret : ℤ} {c : ℕ} :
    (c, val) ∈ (preferenceLoop env val is ret).2 ↔ c ∈ is ∧ env.opens c = true := by
  induction is generalizing ret with
  | nil => simp [preferenceLoop]
  | cons i is ih =>
    rw [preferenceLoop, List.mem_cons]
    cases hopen : env.opens i with
    | true =>
      rw [if_pos rfl]
      dsimp only
      rw [List.mem_cons, ih, Prod.mk.injEq]
      constructor
      · rintro (⟨rfl, -⟩ | ⟨hc, ho⟩)
        · exact ⟨Or.inl rfl, hopen⟩
        · exact ⟨Or.inr hc, ho⟩
      · rintro ⟨rfl | hc, ho⟩
        · exact Or.inl ⟨rfl, rfl⟩
        · exact Or.inr ⟨hc, ho⟩
    | false =>
      rw [if_neg Bool.false_ne_true, ih]
      constructor
      · rintro ⟨hc, ho⟩
        exact ⟨Or.inr hc, ho⟩
      · rintro ⟨rfl | hc, ho⟩
        · exact absurd (hopen.symm.trans ho) Bool.false_ne_true
        · exact ⟨hc, ho⟩

theorem mem_cppcCcd_one {env : CppcEnv} {val : Bytes} {c : ℕ} :
    (c, val) ∈ (cppcCcd B env 1 val).2 ↔
      (B.ccd1Start ≤ c ∧ c < B.totalCores) ∧ env.opens c = true := by
  show (c, val) ∈ (preferenceLoop env val (List.Ico B.ccd1Start B.totalCores) errSuccess).2 ↔ _
  rw [mem_preferenceLoop, List.Ico.mem]

end

/-! ### The specification -/

/-- The cache mask and the frequency mask split the CPUs, and what concerns the second half
concerns the CPUs of the frequency mask. -/
structure CcdSplit (B : Build) : Prop where
  disjoint : Disjoint (cpus B.ccd0CoreMask) (cpus (affinityGetTopology B 128).2)
  union : cpus B.ccd0CoreMask ∪ cpus (affinityGetTopology B 128).2 = {c | c < B.totalCores}
  parked (env : RequestEnv) (d : Daemon) : ∃ cores : List ℕ,
    (socketHandle B env (lit "SET_PARK ccd1") d).2.calls =
      d.calls ++ cores.map (fun i : ℕ => HwCall.setCore i false) ∧
    {c | c ∈ cores} = cpus (affinityGetTopology B 128).2
  preferred (env : CppcEnv) (val : Bytes) :
    {c | (c, val) ∈ (cppcCcd B env 1 val).2} =
      {c ∈ cpus (affinityGetTopology B 128).2 | env.opens c = true}

/-- A machine whose CPU 0 has an L3 cache, with the list it reports for it. -/
structure CacheReport where
  sys : CpuSysfs
  runs : List CpuRun
  runs_ne : runs ≠ []
  reported : sys.l3.map CacheIndex.sharedCpuList = some (cpulistText runs)
  -- the machine has the CPUs of the list
  fits : ∀ r ∈ runs, r.last < sys.total
  -- and as many as an `int` can count
  total_int : sys.total < 2 ^ 31

namespace CacheReport

/-- The CPUs of the list. -/
def listed (R : CacheReport) : Set ℕ := {c | ∃ r ∈ R.runs, r.first ≤ c ∧ c ≤ r.last}

/-- The list is all CPUs up to the end of its first range. If it has no range, it is the first
eight CPUs, or all of them where there are fewer. -/
def Initial (R : CacheReport) : Prop :=
  match R.runs.find? (·.IsRange) with
  | some r => R.listed = {c | c ≤ r.last}
  | none => R.listed = {c | c < 8 ∧ c < R.sys.total}

end CacheReport

namespace CacheReport

variable (R : CacheReport)

/-- The number the script takes out of the list. -/
def start : ℕ := (R.runs.find? (·.IsRange)).elim 8 fun r => r.last + 1

theorem total_pos : 0 < R.sys.total := by
  obtain ⟨r, hr⟩ := List.exists_mem_of_ne_nil _ R.runs_ne
  exact Nat.zero_lt_of_lt (R.fits r hr)

theorem start_lt : R.start < 2 ^ 31 := by
  unfold start
  cases hfind : R.runs.find? (·.IsRange) with
  | none => decide
  | some r => exact Nat.lt_of_le_of_lt (R.fits r (List.mem_of_find?_eq_some hfind)) R.total_int

theorem ccd0Cores_eq : ccd0Cores R.sys = cpulistText R.runs := by
  obtain ⟨i, hl3, hshared⟩ := Option.map_eq_some_iff.mp R.reported
  obtain ⟨c, s, hcs, -⟩ := head_cpulistText R.runs_ne
  have hne : cpulistText R.runs ≠ [] := hcs ▸ List.cons_ne_nil c s
  simp only [ccd0Cores, hl3, Option.elim_some, hshared, if_neg hne]

/-- The script succeeds. -/
theorem ccdHeader_eq (B : Build) :
    ccdHeader B R.sys = some { B with
      ccd0CoreMask := cpulistText R.runs, ccd1Start := R.start, totalCores := R.sys.total } := by
  rw [ccdHeader, R.ccd0Cores_eq, ccd1StartSh_cpulistText R.runs_ne]
  rfl

theorem lt_total_of_listed {c : ℕ} (h : c ∈ R.listed) : c < R.sys.total := by
  obtain ⟨r, hr, -, hle⟩ := h
  exact hle.trans_lt (R.fits r hr)

theorem initial_iff : R.Initial ↔ R.listed = {c | c < R.start ∧ c < R.sys.total} := by
  unfold Initial start
  cases hfind : R.runs.find? (·.IsRange) with
  | none => rfl
  | some r =>
    -- the range fits the machine
    have hlast := R.fits r (List.mem_of_find?_eq_some hfind)
    have hset : {c | c ≤ r.last} = {c | c < r.last + 1 ∧ c < R.sys.total} := by
      ext c
      simp only [Set.mem_ofPred_eq]
      omega
    show R.listed = {c | c ≤ r.last} ↔ R.listed = {c | c < r.last + 1 ∧ c < R.sys.total}
    rw [hset]

end CacheReport

/-- A set of numbers below `t` and the range from `s` to `t` split the numbers below `t` if the
set is the rest of them. -/
theorem split_iff {S : Set ℕ} {s t : ℕ} (h : ∀ c ∈ S, c < t) :
    Disjoint S {c | s ≤ c ∧ c < t} ∧ S ∪ {c | s ≤ c ∧ c < t} = {c | c < t} ↔
      S = {c | c < s ∧ c < t} := by
  constructor
  · rintro ⟨hdisj, hunion⟩
    ext c
    constructor
    · intro hc
      refine ⟨Nat.lt_of_not_le fun hle => ?_, h c hc⟩
      exact Set.disjoint_left.mp hdisj hc ⟨hle, h c hc⟩
    · rintro ⟨hlt, htotal⟩
      have hmem : c ∈ S ∪ {c | s ≤ c ∧ c < t} := hunion ▸ htotal
      exact hmem.resolve_right fun hfreq => absurd hfreq.1 (Nat.not_le_of_lt hlt)
  · rintro rfl
    refine ⟨Set.disjoint_left.mpr fun c hc hfreq => absurd hfreq.1 (Nat.not_le_of_lt hc.1), ?_⟩
    ext c
    simp only [Set.mem_union, Set.mem_ofPred_eq]
    omega

/-- **The two halves.** The script succeeds, and the masks it leads to split the CPUs if and only
if the list is all CPUs up to the end of its first range (or, without a range, the first eight).
What is done to the second half concerns the frequency mask in any case. -/
theorem ccdSplit_iff (B : Build) (R : CacheReport) :
    ∃ B', ccdHeader B R.sys = some B' ∧ (CcdSplit B' ↔ R.Initial) := by
  refine ⟨_, R.ccdHeader_eq B, ?_⟩
  set B' : Build := { B with
    ccd0CoreMask := cpulistText R.runs, ccd1Start := R.start, totalCores := R.sys.total }
  have hmask : cpus B'.ccd0CoreMask = R.listed := Set.ext fun c => mem_cpus_cpulistText
  have hfreq : cpus (affinityGetTopology B' 128).2 = {c | R.start ≤ c ∧ c < R.sys.total} :=
    Set.ext fun c => mem_cpus_freq (B := B') R.start_lt R.total_pos R.total_int
  rw [R.initial_iff, ← split_iff fun c => R.lt_total_of_listed, ← hmask, ← hfreq]
  constructor
  · intro h
    exact ⟨h.disjoint, h.union⟩
  · rintro ⟨hdisjoint, hunion⟩
    refine ⟨hdisjoint, hunion, fun env d => ?_, fun env val => ?_⟩
    · refine ⟨List.Ico R.start R.sys.total, calls_setPark_ccd1 (B := B') env d, ?_⟩
      rw [hfreq]
      exact Set.ext fun c => List.Ico.mem
    · rw [hfreq]
      exact Set.ext fun c => mem_cppcCcd_one (B := B')

/-- CPUs 0 to 7 and their second threads 16 to 23 share the cache, of 32 CPUs. -/
def siblingReport : CacheReport where
  sys := ⟨[⟨some (lit "3"), lit "0-7,16-23"⟩], none, 32⟩
  runs := [⟨0, 7, by decide⟩, ⟨16, 23, by decide⟩]
  runs_ne := List.cons_ne_nil _ _
  reported := by decide
  fits := by decide
  total_int := by decide

/-- The second threads are in both masks. -/
theorem siblings_in_both_halves :
    ¬∀ (B : Build) (R : CacheReport), ∃ B', ccdHeader B R.sys = some B' ∧ CcdSplit B' := by
  intro h
  obtain ⟨B', hheader, hsplit⟩ := h shippedBuild siblingReport
  obtain rfl := Option.some.inj (hheader.symm.trans (siblingReport.ccdHeader_eq shippedBuild))
  have hcache : 16 ∈ cpus (cpulistText siblingReport.runs) :=
    mem_cpus_cpulistText.mpr ⟨⟨16, 23, by decide⟩, by simp [siblingReport], by decide, by decide⟩
  refine Set.disjoint_left.mp hsplit.disjoint hcache ?_
  refine (mem_cpus_freq siblingReport.start_lt siblingReport.total_pos
    siblingReport.total_int).mpr ?_
  exact ⟨by decide, by decide⟩

/-! ### What the kernel prints -/

namespace CacheReport

/-- The list as the kernel prints a set of CPUs that has CPU 0: the longest runs, in order. -/
def Normal (R : CacheReport) : Prop :=
  (R.runs.head R.runs_ne).first = 0 ∧ R.runs.Pairwise fun a b => a.last + 1 < b.first

/-- Of the lists the kernel prints, only a single range has what it takes, or CPU 0 where there
is no other. -/
theorem initial_iff_of_normal {R : CacheReport} (h : R.Normal) :
    R.Initial ↔ ∃ r, R.runs = [r] ∧ (r.IsRange ∨ R.sys.total = 1) := by
  obtain ⟨hzero, hpair⟩ := h
  obtain ⟨r, rs, hruns⟩ := List.exists_cons_of_ne_nil R.runs_ne
  have hfirst : r.first = 0 := by simpa [hruns] using hzero
  rw [hruns, List.pairwise_cons] at hpair
  have hgap := hpair.1
  -- the CPU after the first run is not listed
  have hnext : r.last + 1 ∉ R.listed := by
    rintro ⟨r', hr', hlo, hhi⟩
    rw [hruns, List.mem_cons] at hr'
    rcases hr' with rfl | hr'
    · omega
    · have := hgap r' hr'
      omega
  have hlisted : r.last ∈ R.listed :=
    ⟨r, hruns ▸ List.mem_cons_self, r.le, le_rfl⟩
  rw [R.initial_iff]
  constructor
  · intro hinit
    rw [hinit] at hnext hlisted
    obtain ⟨hlt, htotal⟩ := hlisted
    -- so the boundary is the end of the first run or the number of CPUs
    have hend : R.start = r.last + 1 ∨ R.sys.total = r.last + 1 := by
      have : ¬(r.last + 1 < R.start ∧ r.last + 1 < R.sys.total) := hnext
      omega
    have hnil : rs = [] := by
      rw [List.eq_nil_iff_forall_not_mem]
      intro r' hr'
      have hmem : r'.first ∈ R.listed :=
        ⟨r', hruns ▸ List.mem_cons_of_mem r hr', le_rfl, r'.le⟩
      rw [hinit] at hmem
      have := hgap r' hr'
      obtain ⟨h1, h2⟩ := hmem
      omega
    subst hnil
    refine ⟨r, hruns, or_iff_not_imp_left.mpr fun hrange => ?_⟩
    have hstart : R.start = 8 := by
      unfold start
      rw [hruns, List.find?_singleton, if_neg (by simpa using hrange)]
      rfl
    have hle := r.le
    unfold CpuRun.IsRange at hrange
    omega
  · rintro ⟨r', hr', hcase⟩
    rw [hruns] at hr'
    obtain ⟨rfl, rfl⟩ := List.cons.inj hr'
    have hfits := R.fits r (hruns ▸ List.mem_cons_self)
    ext c
    have hmem : c ∈ R.listed ↔ c ≤ r.last := by
      unfold listed
      rw [hruns]
      simp [hfirst]
    rw [hmem]
    show c ≤ r.last ↔ c < R.start ∧ c < R.sys.total
    by_cases hrange : r.IsRange
    · have hstart : R.start = r.last + 1 := by
        unfold start
        rw [hruns, List.find?_singleton, if_pos (by simpa using hrange)]
        rfl
      omega
    · have htotal := hcase.resolve_left hrange
      have hstart : R.start = 8 := by
        unfold start
        rw [hruns, List.find?_singleton, if_neg (by simpa using hrange)]
        rfl
      omega

end CacheReport

end X3D
