import X3DToggle.Decimal
import X3DToggle.Shell

/-!
# Missing settings

`config.sh` checks its variables one after the other. `guard` gives a variable that is empty its
default, but it reports first, through `journal_write` with the code -38; and that function looks
the code up in the source of the registry and ends the script for every negative code, whether it
finds an entry or not (`journalWrite_of_neg`). So no default is ever given: the script passes its
guards exactly if there is nothing to do for them (`fallsBack_iff`).

A configuration file is its assignments, in order. The script is called with `X3D_EXEC=1` by
`cli_config_update`, and with nothing else in its environment; the shipped files do not set
`DIR_BIN` (`config_update_exits`).
-/

namespace X3D

/-! ### The registry -/

/-- What the scan of the registry remembers. -/
structure Scan where
  found : Bool
  capture : Bool
  summary : Bytes
  details : Bytes

/-- The quoted strings of a line; the last one may be open. -/
def quotedStrings : ℕ → Bytes → List Bytes
  | 0, _ => []
  | fuel + 1, line =>
    match cut (chr '"') line with
    | none => []
    | some (_, rest) =>
      match cut (chr '"') rest with
      | none => [rest]
      | some (str, rest) => str :: quotedStrings fuel rest

/-- The first string is the summary, the others make up the details. -/
def collect (msg : Bytes × Bytes) (str : Bytes) : Bytes × Bytes :=
  if msg.1 = [] then (str, msg.2) else (msg.1, msg.2 ++ str)

/-- The loop of `journal_get` over the lines of `error.c`. -/
def journalGetLoop (reg idx : Bytes) : List Bytes → Scan → Option (Bytes × Bytes)
  | [], _ => none
  | line :: ls, st =>
    if contains line (lit "static const msg_t " ++ reg) then
      journalGetLoop reg idx ls { st with found := true }
    else if !st.found then journalGetLoop reg idx ls st
    else if (lit "\x7d;").isPrefixOf line then none
    else if st.capture || contains line (lit "[" ++ idx ++ lit "] = \x7b") then
      let msg := (quotedStrings line.length line).foldl collect (st.summary, st.details)
      if contains line (lit "\x7d,") ∧ msg.1 ≠ [] then some msg
      else journalGetLoop reg idx ls ⟨true, true, msg.1, msg.2⟩
    else journalGetLoop reg idx ls st

/-- `journal_get CODE`, with `error.c` if it is there: summary and details. -/
def journalGet (errorC : Option Bytes) (code : ℤ) : Option (Bytes × Bytes) :=
  let reg := if 0 < code ∧ code ≤ 16 then lit "registry_status" else lit "registry_msg"
  match errorC with
  | none => none
  | some text =>
    journalGetLoop reg (digitsText code.natAbs) (lines nl (text.filter (· ≠ 0)))
      ⟨false, false, [], []⟩

/-- `journal_write CODE`, without what it displays; no result if it ends the script. -/
def journalWrite (errorC : Option Bytes) (code : ℤ) : Option Unit :=
  match journalGet errorC code with
  | none => none
  | some _ => if code < 0 then none else some ()

/-! ### The variables -/

/-- Assignments, one after the other. -/
def assign (settings : List (Bytes × Bytes)) (vars : ShellVars) : ShellVars :=
  settings.foldl (fun vars setting => Function.update vars setting.1 setting.2) vars

/-- `${value:-fallback}`. -/
def orDefault (value fallback : Bytes) : Bytes := if value = [] then fallback else value

/-- The first word of an unquoted expansion. -/
def firstWord (s : Bytes) : Bytes :=
  (s.dropWhile fun c => isBlank c || c = nl).takeWhile fun c => !(isBlank c || c = nl)

/-- `${value%\"}`, then `${value#\"}`. -/
def stripQuotes (value : Bytes) : Bytes :=
  let value := if value.getLast? = some (chr '"') then value.dropLast else value
  if value.head? = some (chr '"') then value.tail else value

/-- The loop of `get_conf_value`. -/
def getConfLoop (target : Bytes) : List Bytes → Bytes
  | [] => []
  | line :: ls =>
    let (key, value) := (cut (chr '=') line).getD (line, [])
    if key = [] ∨ key.head? = some (chr '#') then getConfLoop target ls
    else if firstWord key = target ∨ firstWord key = chr '-' :: target then
      stripQuotes (firstWord value)
    else getConfLoop target ls

/-- `get_conf_value`, with the file if it is there. -/
def getConfValue (target : Bytes) (file : Option Bytes) : Bytes :=
  match file with
  | none => []
  | some text => getConfLoop target (lines nl (text.filter (· ≠ 0)))

/-- The variables read from `advanced.conf`, with their keys and fallbacks. -/
def advancedTunables : List (Bytes × Bytes × Bytes) :=
  [(lit "SCHED_SLICE_US", lit "kernel.sched_cfs_bandwidth_slice_us", lit "3000"),
   (lit "SCHED_BORE", lit "kernel.sched_bore", lit "1"),
   (lit "SCHED_BIT_SHIFT", lit "kernel.sched_bit_shift", lit "12"),
   (lit "SCHED_BURST_FORK", lit "kernel.sched_burst_fork_at_init", lit "1"),
   (lit "VM_MAX_MAP", lit "vm.max_map_count", lit "1048576"),
   (lit "SPLIT_LOCK_DETECT", lit "split_lock_detect", lit "0"),
   (lit "NMI_WATCHDOG", lit "nmi_watchdog", lit "0"),
   (lit "THP_MODE", lit "target_thp_mode", lit "madvise")]

/-- The variables read from `networking.conf`. -/
def networkTunables : List (Bytes × Bytes × Bytes) :=
  [(lit "NET_QDISC", lit "net.core.default_qdisc", lit "fq_codel"),
   (lit "NET_FASTOPEN", lit "net.ipv4.tcp_fastopen", lit "3"),
   (lit "NET_RP_FILTER", lit "net.ipv4.conf.default.rp_filter", lit "2"),
   (lit "NET_SOURCE_ROUTE", lit "net.ipv4.conf.default.accept_source_route", lit "0"),
   (lit "SERVER_ENABLED", lit "ENABLED", lit "false"),
   (lit "SERVER_ADDRESS", lit "SERVER_ADDRESS", lit "127.0.0.1"),
   (lit "SERVER_PORT", lit "SERVER_PORT", lit "9370"),
   (lit "SERVER_SSH", lit "SERVER_SSH", lit "local")]

/-- The fallbacks of the linter settings. -/
def lintDefaults : List (Bytes × Bytes) :=
  [(lit "LINT_CLANG_DIAGNOSTIC", lit "enabled"), (lit "LINT_CLANG_BUGPRONE", lit "enabled"),
   (lit "LINT_CLANG_MODERNIZE", lit "enabled"), (lit "LINT_CLANG_READABILITY", lit "enabled"),
   (lit "LINT_CLANG_PERFORMANCE", lit "enabled"), (lit "LINT_CLANG_PORTABILITY", lit "enabled"),
   (lit "LINT_CLANG_ANALYZER", lit "enabled"), (lit "LINT_CPPCHECK_ALL", lit "enabled"),
   (lit "LINT_CPPCHECK_WARNING", lit "enabled"), (lit "LINT_CPPCHECK_STYLE", lit "enabled"),
   (lit "LINT_CPPCHECK_PERFORMANCE", lit "enabled"),
   (lit "LINT_CPPCHECK_PORTABILITY", lit "enabled"),
   (lit "LINT_CPPCHECK_INFORMATION", lit "disabled"), (lit "LINT_CPPCHECK_UNUSED", lit "enabled"),
   (lit "LINT_VALGRIND_MODE", lit "full"), (lit "LINT_VALGRIND_KINDS", lit "all"),
   (lit "LINT_VALGRIND_ORIGINS", lit "enabled")]

/-- What the script finds when it is called. -/
structure Installation where
  env : ShellVars
  settings : List (Bytes × Bytes)
  irq : Option (List (Bytes × Bytes))
  advanced : Option Bytes
  networking : Option Bytes
  errorC : Option Bytes
  games : Bytes
  daemonConf : Option Bytes

/-- After `settings.conf` and `irq.conf`. -/
def sourcedVars (inst : Installation) : ShellVars :=
  assign (inst.irq.getD []) (assign inst.settings inst.env)

/-- The settings of a file of tunables. -/
def tunableSettings (tunables : List (Bytes × Bytes × Bytes)) (file : Option Bytes) :
    List (Bytes × Bytes) :=
  tunables.map fun t => (t.1, orDefault (getConfValue t.2.1 file) t.2.2)

/-- The linter settings. -/
def lintSettings (vars : ShellVars) : List (Bytes × Bytes) :=
  lintDefaults.map fun setting => (setting.1, orDefault (vars setting.1) setting.2)

/-- The variables before the first guard. -/
def initialVars (inst : Installation) : ShellVars :=
  let vars := assign (tunableSettings advancedTunables inst.advanced) (sourcedVars inst)
  let vars := assign (tunableSettings networkTunables inst.networking) vars
  assign (lintSettings vars) vars

/-! ### The guards -/

/-- The default of a variable: its first line in `settings.conf`. -/
def guardDefault (inst : Installation) (name : Bytes) : Bytes :=
  if name = lit "DIR_BIN" then lit "/etc/x3d-toggle.d" else (inst.settings.lookup name).getD []

/-- `guard NAME`; no result if the script ends. -/
def guard (inst : Installation) (vars : ShellVars) (name : Bytes) : Option ShellVars :=
  if vars name = [] then
    (journalWrite inst.errorC (-38)).map fun _ =>
      Function.update vars name (guardDefault inst name)
  else some vars

/-- Guards in a row. -/
def guards (inst : Installation) (names : List Bytes) : Option ShellVars :=
  names.foldlM (guard inst) (initialVars inst)

/-- `config.sh --update`: the new `daemon.conf`, or no result if the script ends before. -/
def runConfigSh (inst : Installation) : Option Bytes :=
  (if inst.env (lit "X3D_EXEC") = lit "1" then some () else journalWrite inst.errorC (-37)).bind
    fun _ => (guards inst guardedVars).map fun vars => generated vars inst.games inst.daemonConf

/-! ### Reporting -/

/-- An index that stands in no line is not found. -/
theorem journalGetLoop_eq_none {reg idx : Bytes} {ls : List Bytes} {st : Scan}
    (hst : st.capture = false)
    (h : ∀ line ∈ ls, contains line (lit "[" ++ idx ++ lit "] = \x7b") = false) :
    journalGetLoop reg idx ls st = none := by
  induction ls generalizing st with
  | nil => rfl
  | cons line ls ih =>
    rw [List.forall_mem_cons] at h
    rw [journalGetLoop, hst, h.1, Bool.or_self, if_neg Bool.false_ne_true]
    split
    · exact ih rfl h.2
    split
    · exact ih hst h.2
    split
    · rfl
    · exact ih hst h.2

/-- **Reporting an error ends the script**, whatever the registry says about it. -/
theorem journalWrite_of_neg {code : ℤ} (h : code < 0) (errorC : Option Bytes) :
    journalWrite errorC code = none := by
  unfold journalWrite
  cases journalGet errorC code with
  | none => rfl
  | some msg => exact if_pos h

/-! ### The variables before the guards -/

variable {settings : List (Bytes × Bytes)} {vars : ShellVars} {name : Bytes}

/-- What is not assigned keeps its value. -/
theorem assign_of_notMem (h : name ∉ settings.map Prod.fst) :
    assign settings vars name = vars name := by
  induction settings generalizing vars with
  | nil => rfl
  | cons setting settings ih =>
    rw [List.map_cons, List.mem_cons, not_or] at h
    exact (ih h.2).trans (Function.update_of_ne h.1 _ _)

/-- What is assigned has one of the values assigned. -/
theorem assign_ne_nil (h : name ∈ settings.map Prod.fst)
    (hvalues : ∀ setting ∈ settings, setting.2 ≠ []) : assign settings vars name ≠ [] := by
  induction settings generalizing vars with
  | nil => exact absurd h List.not_mem_nil
  | cons setting settings ih =>
    rw [List.forall_mem_cons] at hvalues
    by_cases hlater : name ∈ settings.map Prod.fst
    · exact ih hlater hvalues.2
    · obtain rfl : name = setting.1 := by
        rw [List.map_cons, List.mem_cons] at h
        exact h.resolve_right hlater
      show assign settings (Function.update vars setting.1 setting.2) setting.1 ≠ []
      rw [assign_of_notMem hlater, Function.update_self]
      exact hvalues.1

theorem orDefault_ne_nil {value fallback : Bytes} (h : fallback ≠ []) :
    orDefault value fallback ≠ [] := by
  unfold orDefault
  split
  · exact h
  · assumption

/-- The variables that have a fallback of their own. -/
def fallbackVars : List Bytes :=
  advancedTunables.map Prod.fst ++ networkTunables.map Prod.fst ++ lintDefaults.map Prod.fst

/-- No fallback is empty. -/
theorem fallbacks_ne_nil : (∀ t ∈ advancedTunables, t.2.2 ≠ []) ∧
    (∀ t ∈ networkTunables, t.2.2 ≠ []) ∧ ∀ setting ∈ lintDefaults, setting.2 ≠ [] := by
  decide

theorem map_fst_tunableSettings (tunables : List (Bytes × Bytes × Bytes)) (file : Option Bytes) :
    (tunableSettings tunables file).map Prod.fst = tunables.map Prod.fst :=
  List.map_map

theorem map_fst_lintSettings (vars : ShellVars) :
    (lintSettings vars).map Prod.fst = lintDefaults.map Prod.fst :=
  List.map_map

theorem tunableSettings_ne_nil {tunables : List (Bytes × Bytes × Bytes)}
    (h : ∀ t ∈ tunables, t.2.2 ≠ []) (file : Option Bytes) :
    ∀ setting ∈ tunableSettings tunables file, setting.2 ≠ [] := by
  rintro setting hsetting
  obtain ⟨t, ht, rfl⟩ := List.mem_map.mp hsetting
  exact orDefault_ne_nil (h t ht)

variable {inst : Installation}

/-- A variable without a fallback holds what the files and the environment give it. -/
theorem initialVars_of_notMem (h : name ∉ fallbackVars) :
    initialVars inst name = sourcedVars inst name := by
  unfold fallbackVars at h
  rw [List.mem_append, List.mem_append, not_or, not_or] at h
  obtain ⟨⟨hadvanced, hnetwork⟩, hlint⟩ := h
  unfold initialVars
  rw [assign_of_notMem (by rwa [map_fst_lintSettings]),
    assign_of_notMem (by rwa [map_fst_tunableSettings]),
    assign_of_notMem (by rwa [map_fst_tunableSettings])]

/-- A variable with a fallback is not empty. -/
theorem initialVars_ne_nil (h : name ∈ fallbackVars) : initialVars inst name ≠ [] := by
  obtain ⟨hadvanced, hnetwork, hlint⟩ := fallbacks_ne_nil
  unfold initialVars
  by_cases hmem : name ∈ lintDefaults.map Prod.fst
  · refine assign_ne_nil (by rwa [map_fst_lintSettings]) ?_
    rintro setting hsetting
    obtain ⟨t, ht, rfl⟩ := List.mem_map.mp hsetting
    exact orDefault_ne_nil (hlint t ht)
  rw [assign_of_notMem (by rwa [map_fst_lintSettings])]
  by_cases hmem' : name ∈ networkTunables.map Prod.fst
  · refine assign_ne_nil (by rwa [map_fst_tunableSettings]) (tunableSettings_ne_nil hnetwork _)
  rw [assign_of_notMem (by rwa [map_fst_tunableSettings])]
  unfold fallbackVars at h
  rw [List.mem_append, List.mem_append] at h
  refine assign_ne_nil ?_ (tunableSettings_ne_nil hadvanced _)
  rw [map_fst_tunableSettings]
  exact (h.resolve_right hmem).resolve_right hmem'

/-! ### Runs of guards -/

/-- A guard passes exactly if there is nothing to do. -/
theorem guard_eq_some_iff {vars' : ShellVars} :
    guard inst vars name = some vars' ↔ vars name ≠ [] ∧ vars' = vars := by
  unfold guard
  by_cases hname : vars name = []
  · rw [if_pos hname, journalWrite_of_neg (by decide)]
    exact ⟨fun h => absurd h.symm (Option.some_ne_none _), fun h => absurd hname h.1⟩
  · rw [if_neg hname, Option.some_inj, eq_comm]
    exact ⟨fun h => ⟨hname, h⟩, And.right⟩

/-- A run of guards passes exactly if there is nothing to do for any of them. -/
theorem foldlM_guard_eq_some_iff {names : List Bytes} {vars' : ShellVars} :
    names.foldlM (guard inst) vars = some vars' ↔
      (∀ name ∈ names, vars name ≠ []) ∧ vars' = vars := by
  induction names with
  | nil =>
    rw [List.foldlM_nil, and_iff_right (List.forall_mem_nil _), eq_comm]
    exact Option.some_inj
  | cons name names ih =>
    rw [List.foldlM_cons, List.forall_mem_cons, Option.bind_eq_bind, Option.bind_eq_some_iff]
    constructor
    · rintro ⟨next, hguard, hrest⟩
      obtain ⟨hname, rfl⟩ := guard_eq_some_iff.mp hguard
      obtain ⟨hnames, hvars⟩ := ih.mp hrest
      exact ⟨⟨hname, hnames⟩, hvars⟩
    · rintro ⟨⟨hname, hnames⟩, hvars⟩
      exact ⟨vars, guard_eq_some_iff.mpr ⟨hname, rfl⟩, ih.mpr ⟨hnames, hvars⟩⟩

/-- The claim: after each guard its variable holds its value or its default, and the file is
written. -/
def FallsBack (inst : Installation) : Prop :=
  (∀ pre name post, guardedVars = pre ++ name :: post → ∃ vars,
    guards inst (pre ++ [name]) = some vars ∧
      vars name = orDefault (initialVars inst name) (guardDefault inst name)) ∧
  ∃ vars, guards inst guardedVars = some vars ∧
    runConfigSh inst = some (generated vars inst.games inst.daemonConf)

/-- Every variable that has no fallback of its own is set. -/
def AllSet (inst : Installation) : Prop :=
  ∀ name ∈ guardedVars, name ∉ fallbackVars → sourcedVars inst name ≠ []

theorem allSet_iff : AllSet inst ↔ ∀ name ∈ guardedVars, initialVars inst name ≠ [] := by
  constructor
  · intro h name hname
    by_cases hfallback : name ∈ fallbackVars
    · exact initialVars_ne_nil hfallback
    · rw [initialVars_of_notMem hfallback]
      exact h name hname hfallback
  · intro h name hname hfallback
    rw [← initialVars_of_notMem hfallback]
    exact h name hname

/-- A run that passes its guards writes the file. -/
theorem runConfigSh_of_allSet (hexec : inst.env (lit "X3D_EXEC") = lit "1") (h : AllSet inst) :
    runConfigSh inst = some (generated (initialVars inst) inst.games inst.daemonConf) := by
  have hguards : guards inst guardedVars = some (initialVars inst) :=
    foldlM_guard_eq_some_iff.mpr ⟨allSet_iff.mp h, rfl⟩
  unfold runConfigSh
  rw [if_pos hexec, Option.bind_some, hguards, Option.map_some]

theorem allSet_of_fallsBack (h : FallsBack inst) :
    inst.env (lit "X3D_EXEC") = lit "1" ∧ AllSet inst := by
  obtain ⟨-, vars, hguards, hupdate⟩ := h
  refine ⟨?_, allSet_iff.mpr (foldlM_guard_eq_some_iff.mp hguards).1⟩
  by_contra hexec
  unfold runConfigSh at hupdate
  rw [if_neg hexec, journalWrite_of_neg (by decide)] at hupdate
  exact absurd hupdate.symm (Option.some_ne_none _)

/-- **Missing settings.** The script gets through its guards exactly if nothing is missing. -/
theorem fallsBack_iff (inst : Installation) :
    FallsBack inst ↔ inst.env (lit "X3D_EXEC") = lit "1" ∧ AllSet inst := by
  refine ⟨allSet_of_fallsBack, fun ⟨hexec, hset⟩ => ?_⟩
  have hvars := allSet_iff.mp hset
  refine ⟨fun pre name post hsplit => ⟨initialVars inst, ?_, ?_⟩, initialVars inst, ?_, ?_⟩
  · refine foldlM_guard_eq_some_iff.mpr ⟨fun x hx => hvars x ?_, rfl⟩
    rw [hsplit, List.append_cons]
    exact List.mem_append_left _ hx
  · refine (if_neg (hvars name ?_)).symm
    rw [hsplit]
    exact List.mem_append_right _ List.mem_cons_self
  · exact foldlM_guard_eq_some_iff.mpr ⟨hvars, rfl⟩
  · exact runConfigSh_of_allSet hexec hset

/-- The file `daemon.conf` afterwards: the script that ends in a guard leaves it alone. -/
theorem runConfigSh_or_eq (hexec : inst.env (lit "X3D_EXEC") = lit "1") :
    (runConfigSh inst).or inst.daemonConf =
      configShUpdate (initialVars inst) inst.games inst.daemonConf := by
  unfold configShUpdate
  by_cases hset : ∃ key ∈ guardedVars, initialVars inst key = []
  · have hguards : guards inst guardedVars = none := by
      rw [Option.eq_none_iff_forall_ne_some]
      intro vars hvars
      obtain ⟨key, hkey, hnil⟩ := hset
      exact (foldlM_guard_eq_some_iff.mp hvars).1 key hkey hnil
    unfold runConfigSh
    rw [if_pos hset, if_pos hexec, Option.bind_some, hguards]
    rfl
  · have hall : AllSet inst := allSet_iff.mpr fun key hkey hnil => hset ⟨key, hkey, hnil⟩
    rw [if_neg hset, runConfigSh_of_allSet hexec hall]
    rfl

/-! ### The shipped files -/

/-- The assignments of the shipped `settings.conf`. -/
def settingsConf : List (Bytes × Bytes) :=
  [(lit "POLLING_INTERVAL", lit "3"), (lit "LOAD_THRESHOLD", lit "50"),
   (lit "DETECTION_LEVEL", lit "2"), (lit "EBPF_ENABLE", lit "1"), (lit "DEV_ENABLE", lit "0"),
   (lit "AFFINITY_LEVEL", lit "0"), (lit "AFFINITY_MASK", lit "none"),
   (lit "AFFINITY_FREQ_MASK", lit "none"), (lit "FALLBACK_PROFILE", lit "default"),
   (lit "DAEMON_STATE", lit "default"), (lit "REFRESH_INTERVAL", lit "0.5"),
   (lit "DEBUG_ENABLE", lit "0"), (lit "LINT_CLANG_DIAGNOSTIC", lit "enabled"),
   (lit "LINT_CLANG_BUGPRONE", lit "enabled"), (lit "LINT_CLANG_MODERNIZE", lit "enabled"),
   (lit "LINT_CLANG_READABILITY", lit "enabled"), (lit "LINT_CLANG_PERFORMANCE", lit "enabled"),
   (lit "LINT_CLANG_PORTABILITY", lit "enabled"), (lit "LINT_CLANG_ANALYZER", lit "enabled"),
   (lit "LINT_CPPCHECK_ALL", lit "enabled"), (lit "LINT_CPPCHECK_WARNING", lit "enabled"),
   (lit "LINT_CPPCHECK_STYLE", lit "enabled"), (lit "LINT_CPPCHECK_PERFORMANCE", lit "enabled"),
   (lit "LINT_CPPCHECK_PORTABILITY", lit "enabled"),
   (lit "LINT_CPPCHECK_INFORMATION", lit "disabled"),
   (lit "LINT_CPPCHECK_UNUSED", lit "enabled"), (lit "LINT_VALGRIND_MODE", lit "full"),
   (lit "LINT_VALGRIND_KINDS", lit "all"), (lit "LINT_VALGRIND_ORIGINS", lit "enabled"),
   (lit "JOURNAL_KEEP", lit "7"), (lit "JOURNAL_MAX_MB", lit "10")]

/-- The assignments of the shipped `irq.conf`. -/
def irqConf : List (Bytes × Bytes) :=
  [(lit "IRQ_PINNING", lit "0"), (lit "IRQ_CUSTOM", lit "none"), (lit "THREAD_CONTROL", lit "0"),
   (lit "THREAD_CAP", lit "16"), (lit "THREAD_EXEMPT", lit "antigravity,ffmpeg,blender"),
   (lit "IRQ_ENABLE", lit "1"), (lit "IRQ_GPU", lit "1"), (lit "IRQ_NVME", lit "1"),
   (lit "IRQ_USB", lit "1"), (lit "IRQ_NIC", lit "1"), (lit "IRQ_AUDIO", lit "1"),
   (lit "IRQ_COALESCE", lit "0"), (lit "IRQ_WATCH", lit "0")]

/-- The environment `cli_config_update` gives the script. -/
def execEnv : ShellVars := fun name => if name = lit "X3D_EXEC" then lit "1" else []

/-- With the shipped settings the script ends in its first guard. -/
theorem not_fallsBack_shipped (advanced networking errorC : Option Bytes) (games : Bytes)
    (file : Option Bytes) :
    ¬FallsBack
      ⟨execEnv, settingsConf, some irqConf, advanced, networking, errorC, games, file⟩ := by
  intro h
  have hdir : assign irqConf (assign settingsConf execEnv) (lit "DIR_BIN") = [] := by
    rw [assign_of_notMem (by decide), assign_of_notMem (by decide)]
    decide
  exact (allSet_of_fallsBack h).2 (lit "DIR_BIN") List.mem_cons_self (by decide) hdir

/-- There is no registry with which every installation falls back. -/
theorem config_update_exits : ¬∃ errorC : Option Bytes, ∀ inst : Installation,
    inst.errorC = errorC → inst.env (lit "X3D_EXEC") = lit "1" → FallsBack inst := by
  rintro ⟨errorC, h⟩
  exact not_fallsBack_shipped none none errorC [] none (h _ rfl rfl)

end X3D
