import X3DToggle.Interrupts
import X3DToggle.ReadBack
import X3DToggle.Readers
import X3DToggle.Topology

/-!
# The selection of cores

The affinity page of the GUI has a button for each core. `on_affinity_apply_clicked` lists the
cores whose button is pressed, with commas between them, and sends the list to the daemon as
`AFFINITY_MASK`; `refresh_topology` asks for that key again and presses the buttons of the cores
`is_core_in_mask` finds in the reply.

The daemon keeps the mask in a field of 64 bytes. A list that is longer comes back without its
last core, and an empty one does not come back at all, since the page then shows what the file
says, or the cores of the first half. The selection survives in all other cases
(`roundTrips_iff`).
-/

namespace X3D

/-! ### `on_affinity_apply_clicked` -/

/-- One call of `printf_sn` in the loops: the core is added to the list. -/
def appendCore (fmt : Bytes) (core : Arg) (mask : Bytes) : Bytes :=
  mask ++ printfSn (256 - mask.length) fmt [.str (if mask = [] then [] else lit ","), core]

/-- The label of the button of a core. -/
def coreLabel (i : ℕ) : Bytes := printfSn 8 (lit "%d") [.int i]

/-- `cache_mask` and `freq_mask`. -/
def affinityMasks (B : Build) (level : ℕ) (chosen : ℕ → Bool) : Bytes × Bytes :=
  match level with
  | 0 => (printfSn 256 (lit "none") [], printfSn 256 (lit "none") [])
  | 1 =>
    let (_, start, total) := ccd B
    if 0 < start then
      (List.range total).foldl (fun (m : Bytes × Bytes) i =>
        if i < start then (appendCore (lit "%s%d") (.int i) m.1, m.2)
        else (m.1, appendCore (lit "%s%d") (.int i) m.2)) ([], [])
    else ([], [])
  | _ =>
    -- the page has the buttons of all cores, in this order
    (List.range B.totalCores).foldl (fun (m : Bytes × Bytes) i =>
      if chosen i then (appendCore (lit "%s%s") (.str (coreLabel i)) m.1, m.2)
      else (m.1, appendCore (lit "%s%s") (.str (coreLabel i)) m.2)) ([], [])

/-- `config_send`. -/
def configSend (key value : Bytes) : Bytes :=
  printfSn 256 (lit "SET_CONFIG %s %s") [.str key, .str value]

/-- The requests `on_affinity_apply_clicked` sends. -/
def affinityRequests (B : Build) (level : ℕ) (chosen : ℕ → Bool) : List Bytes :=
  let (cache, freq) := affinityMasks B level chosen
  [printfSn 512 (lit "SET_AFFINITY_CONFIG %s %s")
      [.str (if cache = [] then lit "none" else cache),
        .str (if freq = [] then lit "none" else freq)],
    configSend (lit "AFFINITY_MASK") cache,
    configSend (lit "AFFINITY_FREQ_MASK") freq,
    configSend (lit "AFFINITY_LEVEL") (printfSn 4 (lit "%u") [.uint level])]

/-- The daemon after it has handled them. -/
def applied (B : Build) (env : Bytes → RequestEnv) (level : ℕ) (chosen : ℕ → Bool) (d : Daemon) :
    Daemon :=
  (affinityRequests B level chosen).foldl (fun d r => (socketHandle B (env r) r d).2) d

/-! ### `refresh_topology` -/

/-- What `config_get` finds when the page is drawn again. -/
structure PageEnv where
  -- the daemon, as it handles the request
  env : RequestEnv
  -- the file is opened, and what it holds
  opens : Bool
  file : Option Bytes

/-- `config_get` of the GUI: the reply of the daemon, or else the file. -/
def PageEnv.configGet (p : PageEnv) (B : Build) (key : Bytes) (d : Daemon) : Bytes :=
  match (socketHandle B p.env (printfSn 128 (lit "GET_CONFIG %s") [.str key]) d).1 with
  | none => guiConfigGet p.opens p.file key
  | some reply =>
    if reply.take 255 ≠ [] ∧ reply.take 255 ≠ err then reply.take 255
    else guiConfigGet p.opens p.file key

/-- The mask `refresh_topology` goes by: the saved one, or the one of the first half. -/
def pageMask (B : Build) (saved : Bytes) : Bytes :=
  if saved ≠ [] ∧ saved ≠ lit "none" then saved.take 127 else (ccd B).1

/-- `is_core_in_mask`. -/
def isCoreInMask (core : ℤ) (mask : Bytes) : Bool :=
  (lines (chr ',') (mask.take 255)).any fun p =>
    match strchr p (chr '-') with
    | some (_, stop) => atoi p ≤ core && core ≤ atoi stop
    | none => atoi p = core

/-- The property: the page shows the cores that were chosen. -/
def RoundTrips (B : Build) (env : Bytes → RequestEnv) (ps : List PollEnv) (p : PageEnv)
    (chosen : ℕ → Bool) (d : Daemon) : Prop :=
  ∀ i < B.totalCores,
    isCoreInMask i (pageMask B (p.configGet B (lit "AFFINITY_MASK")
      ((applied B env 2 chosen d).polls ps))) = true ↔ chosen i = true

/-! ### The list -/

/-- The cores of a selection, in order. -/
def chosenCores (n : ℕ) (chosen : ℕ → Bool) : List ℕ := (List.range n).filter (chosen ·)

/-- The list of some cores, with commas between them. -/
def coreList (cores : List ℕ) : Bytes := List.intercalate [chr ','] (cores.map digitsText)

/-- The list, with a comma behind each core, takes up at most 64 bytes. -/
def FieldHolds (cores : List ℕ) : Prop :=
  (unlines (chr ',') (cores.map digitsText)).length ≤ 64

instance (cores : List ℕ) : Decidable (FieldHolds cores) := inferInstanceAs (Decidable (_ ≤ _))

/-! ### What the loops put together -/

section

variable {cores : List ℕ} {i : ℕ}

theorem unlines_coreList (h : cores ≠ []) :
    unlines (chr ',') (cores.map digitsText) = coreList cores ++ [chr ','] :=
  unlines_eq_intercalate fun hnil => h (List.map_eq_nil_iff.mp hnil)

theorem coreList_ne_nil (h : cores ≠ []) : coreList cores ≠ [] := by
  intro hnil
  obtain ⟨i, is, rfl⟩ := List.exists_cons_of_ne_nil h
  have hlist := unlines_coreList h
  rw [hnil, List.map_cons, unlines_cons, List.nil_append] at hlist
  have hlen := congrArg List.length hlist
  have hpos := List.length_pos_of_ne_nil (digitsText_ne_nil (n := i))
  rw [List.length_append, List.length_cons, List.length_singleton] at hlen
  omega

/-- One more core: behind a comma, unless it is the first. -/
theorem coreList_concat (cores : List ℕ) (i : ℕ) :
    coreList (cores ++ [i]) =
      coreList cores ++ ((if coreList cores = [] then [] else [chr ',']) ++ digitsText i) := by
  by_cases h : cores = []
  · subst h
    show List.intercalate [chr ','] [digitsText i] = digitsText i
    exact List.intercalate_singleton
  · rw [if_neg (coreList_ne_nil h)]
    have hlist := unlines_coreList
      (List.append_ne_nil_of_right_ne_nil cores (List.cons_ne_nil i []))
    rw [List.map_append, unlines_append, unlines_coreList h, List.map_singleton,
      unlines_cons] at hlist
    exact List.append_cancel_right (hlist.symm.trans (by simp [unlines]))

theorem length_unlines_cores (h : ∀ i ∈ cores, i < 100) :
    (unlines (chr ',') (cores.map digitsText)).length ≤ 3 * cores.length := by
  induction cores with
  | nil => exact le_rfl
  | cons i cores ih =>
    have hi : (digitsText i).length ≤ 2 :=
      length_digitsText_le (by norm_num) (h i List.mem_cons_self)
    have ih := ih fun i hi => h i (List.mem_cons_of_mem _ hi)
    rw [List.map_cons, unlines_cons, List.length_append, List.length_cons, List.length_cons]
    omega

theorem length_coreList_le (h : ∀ i ∈ cores, i < 100) :
    (coreList cores).length ≤ 3 * cores.length := by
  by_cases hnil : cores = []
  · subst hnil
    exact le_rfl
  · have hle := length_unlines_cores h
    rw [unlines_coreList hnil, List.length_append] at hle
    omega

theorem coreLabel_eq (h : i < 100) : coreLabel i = digitsText i := by
  have hlen : (digitsText i).length ≤ 2 := length_digitsText_le (by norm_num) h
  rw [coreLabel, printfSn_d, xuiItoa_natCast (by omega), List.take_of_length_le (by omega)]

theorem appendCore_coreList (hi : i < 100)
    (hlen : (coreList cores).length ≤ 252) :
    appendCore (lit "%s%s") (.str (coreLabel i)) (coreList cores) = coreList (cores ++ [i]) := by
  have hdigits : (digitsText i).length ≤ 2 := length_digitsText_le (by norm_num) hi
  rw [coreList_concat]
  unfold appendCore
  rw [printfSn_two, coreLabel_eq hi, List.take_of_length_le]
  · rfl
  · rw [List.length_append]
    have hsep : (if coreList cores = [] then [] else [chr ',']).length ≤ 1 := by
      split <;> simp
    have hcomma : lit "," = [chr ','] := by decide
    rw [hcomma]
    omega

/-- **The loop.** It lists its cores. -/
theorem foldl_appendCore (h : ∀ i ∈ cores, i < 100) (hlen : cores.length ≤ 64) :
    cores.foldl (fun m i => appendCore (lit "%s%s") (.str (coreLabel i)) m) [] =
      coreList cores := by
  induction cores using List.reverseRecOn with
  | nil => rfl
  | append_singleton cores i ih =>
    rw [List.length_append, List.length_singleton] at hlen
    have hcores : ∀ i ∈ cores, i < 100 := fun i hi => h i (List.mem_append_left _ hi)
    have hle := length_coreList_le hcores
    rw [List.foldl_append, ih hcores (by omega), List.foldl_cons, List.foldl_nil]
    exact appendCore_coreList (h i (List.mem_append_right _ (List.mem_singleton_self i))) (by omega)

end

/-! ### What the daemon keeps -/

/-- `SET_CONFIG` with both arguments, where they fit the buffer. -/
theorem configSend_eq {key value : Bytes} (h : key.length + value.length ≤ 243) :
    configSend key value = lit "SET_CONFIG " ++ (key ++ chr ' ' :: value) := by
  have hformat : lit "SET_CONFIG %s %s" =
      lit "SET_CONFIG" ++ [chr ' '] ++ [chr '%', chr 's', chr ' ', chr '%', chr 's'] := by
    decide
  have hverb : lit "SET_CONFIG " = lit "SET_CONFIG" ++ [chr ' '] := by decide
  have hplain : printfSn 256 (lit "SET_CONFIG %s %s") ([key, value].map .str) =
      (rendered (lit "SET_CONFIG %s %s") [key, value]).take 255 :=
    printfSn_plain (plainFormat_two (by decide) hformat)
  rw [rendered_two (by decide) hformat, ← hverb, List.take_of_length_le] at hplain
  · exact hplain
  · have hlen : (lit "SET_CONFIG ").length = 11 := by decide
    rw [List.length_append, List.length_append, List.length_cons, hlen]
    omega

/-- The command for the partitions begins with its verb. -/
theorem exists_received_affinityConfig (cache freq : Bytes) :
    ∃ arg, received (printfSn 512 (lit "SET_AFFINITY_CONFIG %s %s") [.str cache, .str freq]) =
      lit "SET_AFFINITY_CONFIG " ++ arg := by
  have hplain : printfSn 512 (lit "SET_AFFINITY_CONFIG %s %s") ([cache, freq].map .str) =
      (rendered (lit "SET_AFFINITY_CONFIG %s %s") [cache, freq]).take 511 :=
    printfSn_plain (show plainFormat (lit "SET_AFFINITY_CONFIG %s %s") 2 = true by decide)
  rw [show lit "SET_AFFINITY_CONFIG %s %s" = lit "SET_AFFINITY_CONFIG " ++ lit "%s %s" by decide,
    rendered_append (by decide), List.take_append, List.take_of_length_le (by decide)] at hplain
  exact ⟨_, (congrArg received hplain).trans
    (received_append (by decide) (by decide) (by decide) (by decide) _)⟩

section

variable {B : Build} {n : ℕ} {chosen : ℕ → Bool}

theorem lt_of_mem_chosenCores {i : ℕ} (h : i ∈ chosenCores n chosen) : i < n :=
  List.mem_range.mp (List.mem_filter.mp h).1

/-- The two lists of the manual page. -/
theorem affinityMasks_manual (hn : B.totalCores ≤ 64) (chosen : ℕ → Bool) :
    affinityMasks B 2 chosen =
      (coreList (chosenCores B.totalCores chosen),
        coreList (chosenCores B.totalCores (!chosen ·))) := by
  have hcores (chosen : ℕ → Bool) :
      (∀ i ∈ chosenCores B.totalCores chosen, i < 100) ∧
        (chosenCores B.totalCores chosen).length ≤ 64 := by
    refine ⟨fun i hi => by have := lt_of_mem_chosenCores hi; omega, ?_⟩
    have hle : (chosenCores B.totalCores chosen).length ≤ (List.range B.totalCores).length :=
      List.length_filter_le _ _
    rw [List.length_range] at hle
    omega
  have hsplit := foldl_split (fun (m : Bytes) i => appendCore (lit "%s%s") (.str (coreLabel i)) m)
    chosen (List.range B.totalCores) [] []
  exact hsplit.trans (Prod.ext (foldl_appendCore (hcores chosen).1 (hcores chosen).2)
    (foldl_appendCore (hcores (!chosen ·)).1 (hcores (!chosen ·)).2))

/-- The bytes of a list travel unchanged. -/
theorem notMem_coreList {c : UInt8} (hdigit : isDigit c = false) (hcomma : c ≠ chr ',')
    (cores : List ℕ) : c ∉ coreList cores := by
  intro hc
  have hterm : c ∉ unlines (chr ',') (cores.map digitsText) := by
    refine notMem_unlines hcomma fun l hl hcl => ?_
    obtain ⟨i, -, rfl⟩ := List.mem_map.mp hl
    rw [isDigit_of_mem_digitsText hcl] at hdigit
    exact Bool.noConfusion hdigit
  by_cases hnil : cores = []
  · subst hnil
    exact absurd hc List.not_mem_nil
  · rw [unlines_coreList hnil] at hterm
    exact hterm (List.mem_append_left _ hc)

end

section

variable {B : Build} {env : RequestEnv} {d : Daemon} {v : Bytes}

/-- A key that is sent with a list is stored, and nothing else changes. -/
theorem cfg_configSend {k : Bytes} {g : Getter} {st : Setter}
    (hget : configGetTable.lookup k = some g) (hset : setConfigTable.lookup k = some st)
    (hlen : v.length ≤ 200) (hv : (0 : UInt8) ∉ v ∧ chr '\r' ∉ v ∧ nl ∉ v) :
    (socketHandle B env (configSend k v) d).2.cfg = d.cfg.store (st.store v) := by
  have hspec := getKey_spec hget
  rw [configSend_eq (by omega)]
  obtain ⟨d', hd', -, hcfg⟩ :=
    socketHandle_setConfig hspec.2.2.2.2 (received_setConfig hget v) B env d
  rw [hd', hcfg, hset, Option.elim_some, arrived_eq hget (by omega) hv.1,
    (cutAny_eq_self_iff v).mpr hv.2]

/-- The command for the partitions leaves the configuration alone. -/
theorem cfg_affinityConfig (cache freq : Bytes) :
    (socketHandle B env
      (printfSn 512 (lit "SET_AFFINITY_CONFIG %s %s") [.str cache, .str freq]) d).2.cfg =
        d.cfg := by
  obtain ⟨arg, harg⟩ := exists_received_affinityConfig cache freq
  rw [socketHandle_of_verb .setAffinityConfig harg (by decide) (by decide) (by decide)]
  exact cfg_handleSetAffinityConfig arg

end

section

variable {B : Build} {env : Bytes → RequestEnv} {chosen : ℕ → Bool} {d : Daemon}

/-- **What the daemon keeps.** The first 63 bytes of the list. -/
theorem affinityMask_applied (hn : B.totalCores ≤ 64) :
    ((applied B env 2 chosen d).cfg.str .affinityMask).val =
      (coreList (chosenCores B.totalCores chosen)).take 63 := by
  -- both lists are short enough to arrive whole
  have hlist (chosen : ℕ → Bool) :
      (coreList (chosenCores B.totalCores chosen)).length ≤ 200 ∧
        ((0 : UInt8) ∉ coreList (chosenCores B.totalCores chosen) ∧
          chr '\r' ∉ coreList (chosenCores B.totalCores chosen) ∧
          nl ∉ coreList (chosenCores B.totalCores chosen)) := by
    refine ⟨?_, notMem_coreList (by decide) (by decide) _,
      notMem_coreList (by decide) (by decide) _, notMem_coreList (by decide) (by decide) _⟩
    have hle : (chosenCores B.totalCores chosen).length ≤ (List.range B.totalCores).length :=
      List.length_filter_le _ _
    rw [List.length_range] at hle
    have hlen : (coreList (chosenCores B.totalCores chosen)).length ≤
        3 * (chosenCores B.totalCores chosen).length :=
      length_coreList_le fun i hi => by
        have := lt_of_mem_chosenCores hi
        omega
    omega
  obtain ⟨hcache, hcacheChars⟩ := hlist chosen
  obtain ⟨hfreq, hfreqChars⟩ := hlist (!chosen ·)
  unfold applied affinityRequests
  rw [affinityMasks_manual hn]
  dsimp only
  -- the four requests, the last one of which stores nothing
  rw [List.foldl_cons, List.foldl_cons, List.foldl_cons, List.foldl_cons, List.foldl_nil,
    cfg_configSend (k := lit "AFFINITY_LEVEL") (g := .int .affinityLevel) (by rfl) (by rfl)
      (by decide) (by decide),
    cfg_configSend (k := lit "AFFINITY_FREQ_MASK") (g := .str .affinityFreqMask) (by rfl) (by rfl)
      hfreq hfreqChars,
    cfg_configSend (k := lit "AFFINITY_MASK") (g := .str .affinityMask) (by rfl) (by rfl) hcache
      hcacheChars, cfg_affinityConfig]
  simp [Setter.store, DaemonConfig.store]
  rfl

/-- What the page gets to see of it. -/
theorem configGet_applied (hn : B.totalCores ≤ 64) (ps : List PollEnv) (p : PageEnv) :
    p.configGet B (lit "AFFINITY_MASK") ((applied B env 2 chosen d).polls ps) =
      if chosenCores B.totalCores chosen = [] then
        guiConfigGet p.opens p.file (lit "AFFINITY_MASK")
      else (coreList (chosenCores B.totalCores chosen)).take 63 := by
  have hrequest : printfSn 128 (lit "GET_CONFIG %s") [.str (lit "AFFINITY_MASK")] =
      lit "GET_CONFIG " ++ lit "AFFINITY_MASK" := by
    decide
  have hreply : (socketHandle B p.env (lit "GET_CONFIG " ++ lit "AFFINITY_MASK")
      ((applied B env 2 chosen d).polls ps)).1 =
        some ((coreList (chosenCores B.totalCores chosen)).take 63) := by
    rw [socketHandle_getConfig (g := .str .affinityMask) (by rfl),
      (Daemon.sameSettings_polls ps).cfg, ← affinityMask_applied hn]
    rfl
  unfold PageEnv.configGet
  rw [hrequest, hreply]
  dsimp only
  rw [List.take_take, show min 255 63 = 63 from rfl]
  by_cases hnil : chosenCores B.totalCores chosen = []
  · rw [hnil, if_neg (by decide), if_pos rfl]
  · rw [if_neg hnil, if_pos]
    have hlist := coreList_ne_nil hnil
    refine ⟨fun htake => hlist ?_, fun herr => ?_⟩
    · rcases List.take_eq_nil_iff.mp htake with h | h
      · exact absurd h (by decide)
      · exact h
    · -- a letter is no part of a list
      have hE : chr 'E' ∉ coreList (chosenCores B.totalCores chosen) :=
        notMem_coreList (by decide) (by decide) _
      exact hE (List.mem_of_mem_take (herr ▸ (by decide : chr 'E' ∈ err)))

end

/-! ### What `is_core_in_mask` finds -/

section

variable {cores : List ℕ} {m : ℕ}

/-- A mask without a range is searched for one number. -/
theorem isCoreInMask_iff {mask : Bytes} (hdash : chr '-' ∉ mask) (hlen : mask.length ≤ 255)
    (core : ℤ) :
    isCoreInMask core mask = true ↔ ∃ p ∈ lines (chr ',') mask, atoi p = core := by
  unfold isCoreInMask
  rw [List.take_of_length_le hlen, List.any_eq_true]
  refine exists_congr fun p => and_congr_right fun hp => ?_
  have hnone : strchr p (chr '-') = none := cut_eq_none.mpr fun h => hdash (mem_of_mem_lines hp h)
  rw [hnone, decide_eq_true_iff]

theorem lines_coreList (cores : List ℕ) :
    lines (chr ',') (coreList cores) = cores.map digitsText := by
  refine lines_intercalate fun l hl => ?_
  obtain ⟨i, -, rfl⟩ := List.mem_map.mp hl
  exact ⟨comma_notMem_digitsText, digitsText_ne_nil⟩

theorem dash_notMem_coreList (cores : List ℕ) : chr '-' ∉ coreList cores :=
  notMem_coreList (by decide) (by decide) cores

/-- A list that fits the field names its cores. -/
theorem isCoreInMask_coreList (hcores : ∀ i ∈ cores, i < 2 ^ 31)
    (hlen : (coreList cores).length ≤ 63) (i : ℕ) :
    isCoreInMask i ((coreList cores).take 63) = true ↔ i ∈ cores := by
  rw [List.take_of_length_le hlen, isCoreInMask_iff (dash_notMem_coreList cores) (by omega),
    lines_coreList]
  simp only [List.mem_map, exists_exists_and_eq_and]
  constructor
  · rintro ⟨k, hk, heq⟩
    rw [atoi_digitsText (hcores k hk)] at heq
    exact Int.natCast_inj.mp heq ▸ hk
  · exact fun hi => ⟨i, hi, atoi_digitsText (hcores i hi)⟩

/-- **The last core is lost.** What the field holds of a longer list does not name it. -/
theorem isCoreInMask_last (hsorted : (cores ++ [m]).Pairwise (· < ·)) (hm : m < 2 ^ 31)
    (hlong : ¬FieldHolds (cores ++ [m])) :
    isCoreInMask m ((coreList (cores ++ [m])).take 63) = false := by
  obtain ⟨-, -, hlast⟩ := List.pairwise_append.mp hsorted
  have hlt (k : ℕ) (hk : k ∈ cores) : k < m := hlast k hk m (List.mem_singleton_self m)
  have hpos : 0 < m := by
    by_contra hzero
    -- a core below it would be negative, and a single one is not long
    have hnil : cores = [] := List.eq_nil_iff_forall_not_mem.mpr fun k hk => by
      have := hlt k hk
      omega
    obtain rfl : m = 0 := by omega
    rw [hnil] at hlong
    exact hlong (by decide)
  rw [Bool.eq_false_iff, ne_eq, isCoreInMask_iff
    (fun h => dash_notMem_coreList _ (List.mem_of_mem_take h)) (by rw [List.length_take]; omega),
    lines_take, lines_coreList, any_visible_iff (chr ',') (show ¬atoi [] = m by
      intro h
      have hzero : atoi [] = 0 := rfl
      omega)]
  rintro ⟨xs, l, ys, hsplit, hval⟩
  obtain ⟨is, ks, hcores, rfl, hks⟩ := List.map_eq_append_iff.mp hsplit
  obtain ⟨k, js, rfl, rfl, -⟩ := List.map_eq_cons_iff.mp hks
  have hk : k ∈ cores ++ [m] := hcores ▸ List.mem_append_right _ List.mem_cons_self
  have hkm : k ≤ m := by
    rcases List.mem_append.mp hk with h | h
    · exact (hlt k h).le
    · exact (List.mem_singleton.mp h).le
  have hcut := atoi_take_digitsText (show k < 2 ^ 31 by omega)
    (63 - (unlines (chr ',') (is.map digitsText)).length)
  rw [hval] at hcut
  obtain rfl : k = m := by
    have := hcut.1
    omega
  have hfits := hcut.2 rfl hpos
  -- it is the last of the list, so all of the list fits
  have hjs : js = [] := by
    rw [hcores] at hsorted
    obtain ⟨-, htail, -⟩ := List.pairwise_append.mp hsorted
    refine List.eq_nil_iff_forall_not_mem.mpr fun j hj => ?_
    have hkj : k < j := List.rel_of_pairwise_cons htail hj
    have hjmem : j ∈ cores ++ [k] :=
      hcores ▸ List.mem_append_right _ (List.mem_cons_of_mem _ hj)
    rcases List.mem_append.mp hjmem with h | h
    · exact absurd (hlt j h) (by omega)
    · exact absurd (List.mem_singleton.mp h) (by omega)
  subst hjs
  refine hlong ?_
  have hdigits := List.length_pos_of_ne_nil (digitsText_ne_nil (n := k))
  rw [FieldHolds, hcores, List.map_append, unlines_append, List.length_append, List.map_singleton,
    unlines_cons, List.length_append, List.length_cons]
  simp only [unlines, List.flatMap_nil, List.length_nil]
  unfold unlines at hfits
  omega

end

/-! ### The round trip -/

section

variable {B : Build} {env : Bytes → RequestEnv} {ps : List PollEnv} {p : PageEnv}
variable {chosen : ℕ → Bool} {d : Daemon}

theorem mem_chosenCores {n i : ℕ} : i ∈ chosenCores n chosen ↔ i < n ∧ chosen i = true := by
  rw [chosenCores, List.mem_filter, List.mem_range]

/-- The page goes by the list that came back. -/
theorem pageMask_coreList {cores : List ℕ} (h : cores ≠ []) :
    pageMask B ((coreList cores).take 63) = (coreList cores).take 63 := by
  have hne : (coreList cores).take 63 ≠ [] := by
    rw [ne_eq, List.take_eq_nil_iff, not_or]
    exact ⟨by decide, coreList_ne_nil h⟩
  have hnone : (coreList cores).take 63 ≠ lit "none" := by
    intro heq
    have hletter : chr 'n' ∈ (coreList cores).take 63 := heq ▸ (by decide : chr 'n' ∈ lit "none")
    exact notMem_coreList (by decide) (by decide) cores (List.mem_of_mem_take hletter)
  rw [pageMask, if_pos ⟨hne, hnone⟩, List.take_take, show min 127 63 = 63 from rfl]

/-- A selection whose list is too long for the field does not come back. -/
theorem not_roundTrips_of_long (hn : B.totalCores ≤ 64)
    (hlong : ¬FieldHolds (chosenCores B.totalCores chosen)) : ¬RoundTrips B env ps p chosen d := by
  intro h
  have hne : chosenCores B.totalCores chosen ≠ [] := by
    intro hnil
    rw [hnil] at hlong
    exact hlong (by decide)
  obtain ⟨cores, m, hcores⟩ := (List.eq_nil_or_concat _).resolve_left hne
  rw [List.concat_eq_append] at hcores
  have hm : m ∈ chosenCores B.totalCores chosen :=
    hcores ▸ List.mem_append_right _ (List.mem_singleton_self m)
  obtain ⟨hmn, hmchosen⟩ := mem_chosenCores.mp hm
  have hsorted : (cores ++ [m]).Pairwise (· < ·) := by
    rw [← hcores]
    exact List.pairwise_lt_range.filter _
  have hlost := isCoreInMask_last hsorted (by omega) (hcores ▸ hlong)
  have hshown := (h m hmn).mpr hmchosen
  rw [configGet_applied hn, if_neg hne, pageMask_coreList hne, hcores, hlost] at hshown
  exact Bool.noConfusion hshown

/-- **When a selection survives.** Either the daemon has room for the list, or nothing was chosen
and nothing is shown instead. -/
theorem roundTrips_iff (hn : B.totalCores ≤ 64) :
    RoundTrips B env ps p chosen d ↔
      chosenCores B.totalCores chosen ≠ [] ∧ FieldHolds (chosenCores B.totalCores chosen) ∨
        chosenCores B.totalCores chosen = [] ∧ ∀ i < B.totalCores,
          isCoreInMask i (pageMask B (guiConfigGet p.opens p.file (lit "AFFINITY_MASK"))) =
            false := by
  by_cases hnil : chosenCores B.totalCores chosen = []
  · -- nothing is chosen, and a page without a mask has nothing checked
    have hnone (i : ℕ) (hi : i < B.totalCores) : chosen i = false := by
      rw [Bool.eq_false_iff]
      exact fun h => List.not_mem_nil (hnil ▸ mem_chosenCores.mpr ⟨hi, h⟩)
    simp only [hnil, ne_eq, not_true_eq_false, false_and, true_and, false_or]
    unfold RoundTrips
    rw [configGet_applied hn, if_pos hnil]
    refine forall₂_congr fun i hi => ?_
    rw [hnone i hi]
    simp
  · simp only [hnil, ne_eq, not_false_eq_true, true_and, false_and, or_false]
    constructor
    · intro h
      by_contra hlong
      exact not_roundTrips_of_long hn hlong h
    · intro hfits i hi
      -- the field holds the list and a separator, so the list has 63 bytes at most
      have hlen : (coreList (chosenCores B.totalCores chosen)).length ≤ 63 := by
        rw [FieldHolds, unlines_coreList hnil, List.length_append, List.length_singleton] at hfits
        omega
      rw [configGet_applied hn, if_neg hnil, pageMask_coreList hnil,
        isCoreInMask_coreList (fun k hk => by have := lt_of_mem_chosenCores hk; omega) hlen,
        mem_chosenCores]
      exact and_iff_right hi

end

/-- A machine with 32 logical cores. -/
def largeBuild : Build := { shippedBuild with totalCores := 32 }

/-- What the page meets where all calls succeed. -/
def pageOk : PageEnv where
  env := .allOk
  opens := true
  file := none

/-- All 32 cores are chosen, and the last does not come back. -/
theorem selection_cut :
    ¬∀ (B : Build) (env : Bytes → RequestEnv) (ps : List PollEnv) (p : PageEnv)
      (chosen : ℕ → Bool) (d : Daemon), B.totalCores ≤ 64 → RoundTrips B env ps p chosen d := by
  intro h
  have hlong : ¬FieldHolds (chosenCores largeBuild.totalCores fun _ => true) := by decide
  have hcores : largeBuild.totalCores ≤ 64 := by decide
  exact not_roundTrips_of_long hcores hlong
    (h largeBuild (fun _ => .allOk) [] pageOk (fun _ => true) (boot shippedBuild (.allOk none))
      hcores)

/-- The selection of the first half of sixteen cores. -/
theorem roundTrips_iff_firstHalf :
    let cores := chosenCores shippedBuild.totalCores (· < 8)
    RoundTrips shippedBuild (fun _ => .allOk) [] pageOk (· < 8) (boot shippedBuild (.allOk none)) ↔
      cores ≠ [] ∧ FieldHolds cores ∨
        cores = [] ∧ ∀ i < shippedBuild.totalCores, isCoreInMask i (pageMask shippedBuild
          (guiConfigGet pageOk.opens pageOk.file (lit "AFFINITY_MASK"))) = false :=
  roundTrips_iff (by decide : shippedBuild.totalCores ≤ 64)

end X3D
