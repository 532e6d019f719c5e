import X3DToggle.Daemon

/-!
# The request handler

`socket_handle` receives one request of at most 511 bytes, cuts it at the first line break and
runs the first branch whose verb matches. The chain of `strncmp` tests is `verbTable`, in the
order of the source, with the number of bytes each test compares; the order matters, because
one verb may be a prefix of another. Each branch is a handler from the rest of the request to
the reply and the new state.

Outcomes of system calls are in `RequestEnv`. Where a branch hands a request on to the
hardware, the call is recorded and its result taken from the environment.
-/

namespace X3D

/-- The branches of `socket_handle`. -/
inductive Verb where
  | ping | mode | daemonInfo | getConfig | toggle | setMode | getTopology | setAffinityConfig
  | setCppc | setBoost | setPark | setUnpark | setTdp | setEpp | setEppCcd | setPstate
  | setGovernor | setPrefcore | setDaemon | setConfig | setWrapper | daemonDisable | configSync
  | gamesList | advancedGet | advancedSet
  deriving DecidableEq

/-- The tests of `socket_handle`: literal, number of bytes compared, branch. -/
def verbTable : List (Bytes × ℕ × Verb) :=
  [(lit "PING", 4, .ping),
   (lit "MODE", 4, .mode),
   (lit "DAEMON_INFO", 11, .daemonInfo),
   (lit "GET_CONFIG ", 11, .getConfig),
   (lit "TOGGLE", 6, .toggle),
   (lit "SET_MODE ", 9, .setMode),
   (lit "GET_TOPOLOGY", 12, .getTopology),
   (lit "SET_AFFINITY_CONFIG ", 20, .setAffinityConfig),
   (lit "SET_CPPC ", 9, .setCppc),
   (lit "SET_BOOST ", 10, .setBoost),
   (lit "SET_PARK ", 9, .setPark),
   (lit "SET_UNPARK ", 11, .setUnpark),
   (lit "SET_TDP ", 8, .setTdp),
   (lit "SET_EPP ", 8, .setEpp),
   (lit "SET_EPP_CCD ", 12, .setEppCcd),
   (lit "SET_PSTATE ", 11, .setPstate),
   (lit "SET_GOVERNOR ", 13, .setGovernor),
   (lit "SET_PREFCORE ", 13, .setPrefcore),
   (lit "SET_DAEMON ", 11, .setDaemon),
   (lit "SET_CONFIG ", 11, .setConfig),
   (lit "SET_WRAPPER ", 12, .setWrapper),
   (lit "DAEMON_DISABLE", 14, .daemonDisable),
   (lit "CONFIG_SYNC", 11, .configSync),
   (lit "GAMES_LIST", 10, .gamesList),
   (lit "ADVANCED_GET ", 13, .advancedGet),
   (lit "ADVANCED_SET ", 13, .advancedSet)]

/-- The branch a request takes, with the length of its verb. -/
def dispatch (buf : Bytes) : Option (Verb × ℕ) :=
  (verbTable.find? fun e => strncmp buf e.1 e.2.1).map fun e => (e.2.2, e.2.1)

/-- The outcomes a request depends on. -/
structure RequestEnv where
  /-- The calls on the mode node. -/
  io : ModeIo
  /-- `config_update`. -/
  update : UpdateEnv
  /-- `config_load`. -/
  load : LoadEnv
  /-- `bpf_init`. -/
  bpf : BpfEnv
  /-- The results of the calls on the hardware. -/
  hw : HwCall → ℤ
  /-- `fork` succeeds. -/
  fork : Bool
  /-- What the mode node reads after `reset.sh`, from what it read before. -/
  reprobe : Bytes → Bytes
  /-- The content of a sysctl file, if `sysctl_read` succeeds. -/
  sysctl : Bytes → Option Bytes
  /-- What an uninitialised `char current[32]` holds. -/
  stack : CArray 32

/-- `"OK"`. -/
def ok : Bytes := lit "OK"

/-- `"ERR"`. -/
def err : Bytes := lit "ERR"

/-- `(ret == ERR_SUCCESS) ? "OK" : "ERR"`. -/
def replyOf (ret : ℤ) : Bytes := if ret = errSuccess then ok else err

namespace Daemon

/-- Make a call on the hardware. -/
def call (env : RequestEnv) (c : HwCall) (d : Daemon) : ℤ × Daemon :=
  (env.hw c, { d with calls := d.calls ++ [c] })

/-- Make a call and report its result. -/
def callReply (env : RequestEnv) (c : HwCall) (d : Daemon) : Bytes × Daemon :=
  (replyOf (env.hw c), (d.call env c).2)

/-- `MODE`. -/
def handleMode (env : RequestEnv) (d : Daemon) : Bytes × Daemon :=
  let path := findPath env.io.access d.pathCache
  ((X3D.mode env.io path d.node env.stack).2.val, { d with pathCache := path })

/-- `DAEMON_INFO`. The formatter knows neither the `l` of `%llx` nor anything after it. -/
def handleDaemonInfo (d : Daemon) : Bytes × Daemon :=
  (printfSn 512
    (lit "STATE=%s|OVERRIDE=%d|BPF_ACTIVE=%d|REFRESH_INTERVAL=%.1f|MASK=%s|CAPS=%llx")
    [.str (d.cfg.str .daemonState).val, .int d.activeOverride, .int (if d.bpfActive then 1 else 0),
     .dbl (d.cfg.dbl .refreshInterval), .str (d.cfg.str .affinityMask).val,
     .uint d.cfg.capabilities], d)

/-- `TOGGLE`. -/
def handleToggle (env : RequestEnv) (d : Daemon) : Bytes × Daemon :=
  let path := findPath env.io.access d.pathCache
  let current := (X3D.mode env.io path d.node env.stack).2.val
  let target := if current = lit "cache" then lit "frequency" else lit "cache"
  let d := { d with
    pathCache := path
    activeOverride := if target = lit "cache" then 1 else 2 }
  (ok, d.setMode env.io target)

/-- A branch of `SET_MODE` that names a mode. -/
def modeRequest (env : RequestEnv) (override : ℤ) (target : Bytes) (partition : ℕ)
    (d : Daemon) : Bytes × Daemon :=
  let d := ({ d with activeOverride := override } : Daemon).setMode env.io target
  (ok, (d.call env (.modeApply partition)).2)

/-- `SET_MODE`. -/
def handleSetMode (env : RequestEnv) (val : Bytes) (d : Daemon) : Bytes × Daemon :=
  if contains val (lit "auto") || contains val (lit "default") || contains val (lit "reset") then
    (ok, { d with activeOverride := 0 })
  else if contains val (lit "cache") then d.modeRequest env 1 (lit "cache") 1
  else if contains val (lit "frequency") then d.modeRequest env 2 (lit "frequency") 2
  else if contains val (lit "dual") then d.modeRequest env 3 (lit "dual") 0
  else if contains val (lit "swap") then d.modeRequest env 4 (lit "swap") 0
  else (err, d)

/-- `GET_TOPOLOGY`. -/
def handleGetTopology (B : Build) (d : Daemon) : Bytes × Daemon :=
  let cacheMask := printfSn 128 (lit "%s") [.str B.ccd0CoreMask]
  let freqMask := printfSn 128 (lit "%d-%d") [.int B.ccd1Start, .int (B.totalCores - 1)]
  (printfSn 512 (lit "CACHE=%s;FREQ=%s") [.str cacheMask, .str freqMask], d)

/-- `SET_AFFINITY_CONFIG`. -/
def handleSetAffinityConfig (env : RequestEnv) (val : Bytes) (d : Daemon) : Bytes × Daemon :=
  match strchr val (chr ' ') with
  | none => (err, d)
  | some (cache, freq) => d.callReply env (.affinityMasks cache freq)

/-- What the checks on an `int` argument come to. -/
inductive IntArg where
  | value (n : ℤ) | invalid
  /-- `strtol` overflowed and left the end pointer null, and the check reads through it. -/
  | fault
  deriving DecidableEq

/-- An `int` argument that must fill the whole text:
`endptr == s || *endptr != '\0' || errno == ERANGE || n < INT_MIN || n > INT_MAX`. -/
def intArg (s : Bytes) : IntArg :=
  let r := strtol10 s
  match r.endptr with
  | none => .fault
  | some rest =>
    if rest ≠ s ∧ rest = [] ∧ !r.erange ∧ IsInt32 r.val then .value r.val else .invalid

/-- A branch that hands an `int` argument to the hardware. -/
def intRequest (env : RequestEnv) (arg : Bytes) (c : ℤ → HwCall) (d : Daemon) : Bytes × Daemon :=
  match intArg arg with
  | .value n => d.callReply env (c n)
  | .invalid => (err, d)
  | .fault => ([], { d with crashed := true })

/-- `SET_CPPC`. Blanks and line breaks may follow the number. -/
def handleSetCppc (env : RequestEnv) (val : Bytes) (d : Daemon) : Bytes × Daemon :=
  let r := strtol10 val
  match r.endptr with
  | none => (err, d)
  | some rest =>
    let after := rest.dropWhile fun c => isBlank c || c = chr '\r' || c = nl
    if rest ≠ val ∧ !r.erange ∧ after = [] ∧ IsInt32 r.val then d.callReply env (.cppcPerf r.val)
    else (err, d)

/-- The loop of `SET_PARK ccd1`. -/
def parkCores (env : RequestEnv) : List ℕ → ℤ → Daemon → ℤ × Daemon
  | [], ret, d => (ret, d)
  | i :: is, ret, d =>
    let (r, d) := d.call env (.setCore i false)
    parkCores env is (if r ≠ errSuccess ∧ r ≠ errLost then r else ret) d

/-- `SET_PARK`. -/
def handleSetPark (B : Build) (env : RequestEnv) (val : Bytes) (d : Daemon) : Bytes × Daemon :=
  if val = lit "ccd1" then
    let (ret, d) := parkCores env (List.Ico B.ccd1Start B.totalCores) errSuccess d
    (replyOf ret, d)
  else d.intRequest env val fun n => .setCore n false

/-- `SET_UNPARK`. -/
def handleSetUnpark (env : RequestEnv) (val : Bytes) (d : Daemon) : Bytes × Daemon :=
  if val = lit "ccd1" ∨ val = lit "all" then
    let path := findPath env.io.access d.pathCache
    (replyOf (cliSetMode env.io path (lit "dual") d.node).1, d.setMode env.io (lit "dual"))
  else d.intRequest env val fun n => .setCore n true

/-- `SET_TDP`. -/
def handleSetTdp (env : RequestEnv) (val : Bytes) (d : Daemon) : Bytes × Daemon :=
  d.intRequest env val .cppcTdp

/-- `SET_EPP_CCD`. -/
def handleSetEppCcd (env : RequestEnv) (val : Bytes) (d : Daemon) : Bytes × Daemon :=
  match strchr val (chr ' ') with
  | none => (err, d)
  | some (ccd, epp) => d.intRequest env ccd fun n => .cppcCcd n epp

/-- `SET_DAEMON`. The file is updated before the value is stored, and the reset script of
`auto` runs in between. -/
def handleSetDaemon (env : RequestEnv) (val : Bytes) (d : Daemon) : Bytes × Daemon :=
  if val = lit "manual" ∨ val = lit "auto" ∨ val = lit "default" then
    let d := { d with
      conf := configUpdate env.update (lit "DAEMON_STATE") val d.conf
      cfg := d.cfg.store (.str .daemonState 32 val (StrField.size_bounds .daemonState)) }
    if val = lit "auto" ∧ !env.fork then (err, d)
    else
      let d := if val = lit "auto" then
        { (d.call env .reset).2 with
          node := { d.node with content := env.reprobe d.node.content } } else d
      let d := if d.activeOverride ≠ 0 ∧ (val = lit "auto" ∨ val = lit "default") then
        { d with activeOverride := 0 } else d
      (ok, d)
  else (err, d)

/-- The tracker follows `EBPF_ENABLE`. -/
def followEbpf (env : RequestEnv) (d : Daemon) : Daemon :=
  if d.cfg.int .ebpfEnable ≠ 0 ∧ !d.bpfActive then
    let (active, bpf) := bpfInit env.bpf d.bpf
    { d with bpfActive := active, bpf := bpf }
  else if d.cfg.int .ebpfEnable = 0 ∧ d.bpfActive then
    { d with bpfActive := false, bpf := bpfCleanup d.bpf }
  else d

/-- `SET_CONFIG`. -/
def handleSetConfig (env : RequestEnv) (val : Bytes) (d : Daemon) : Bytes × Daemon :=
  match strchr val (chr ' ') with
  | none => (err, d)
  | some (k, v) =>
    let d := { d with conf := configUpdate env.update k v d.conf }
    match setConfigTable.lookup k with
    | none => (ok, d)
    | some st =>
      let d := { d with cfg := d.cfg.store (st.store v) }
      (ok, if k = lit "EBPF_ENABLE" then d.followEbpf env else d)

/-- `SET_WRAPPER`. -/
def handleSetWrapper (env : RequestEnv) (val : Bytes) (d : Daemon) : Bytes × Daemon :=
  let enable := atoi val
  let d := { d with wrapperLock := enable }
  if enable ≠ 0 then (ok, { d.setMode env.io (lit "cache") with activeOverride := 1 })
  else (ok, { d.setMode env.io (lit "frequency") with activeOverride := 0 })

/-- An entry of the chains of `ADVANCED_GET` and `ADVANCED_SET`. -/
structure Tunable where
  /-- The sysctl file. -/
  path : Bytes
  /-- The assignment of `ADVANCED_SET`. -/
  setter : Setter
  /-- The key of `daemon.conf`. -/
  ckey : Bytes

/-- The keys of `ADVANCED_GET` and `ADVANCED_SET`. -/
def advancedTable : List (Bytes × Tunable) :=
  [(lit "kernel.sched_bore",
      ⟨lit "/proc/sys/kernel/sched_bore", .atoi .schedBore, lit "SCHED_BORE"⟩),
   (lit "kernel.sched_bit_shift",
      ⟨lit "/proc/sys/kernel/sched_bit_shift", .atoi .schedBitShift, lit "SCHED_BIT_SHIFT"⟩),
   (lit "kernel.sched_burst_fork_at_init",
      ⟨lit "/proc/sys/kernel/sched_burst_fork_at_init", .atoi .schedBurstFork,
        lit "SCHED_BURST_FORK"⟩),
   (lit "kernel.sched_cfs_bandwidth_slice_us",
      ⟨lit "/proc/sys/kernel/sched_cfs_bandwidth_slice_us", .atoi .schedSliceUs,
        lit "SCHED_SLICE_US"⟩),
   (lit "vm.max_map_count", ⟨lit "/proc/sys/vm/max_map_count", .atoi .vmMaxMap, lit "VM_MAX_MAP"⟩),
   (lit "kernel.split_lock_mitigate",
      ⟨lit "/proc/sys/kernel/split_lock_mitigate", .atoi .splitLockDetect,
        lit "SPLIT_LOCK_DETECT"⟩),
   (lit "kernel.nmi_watchdog",
      ⟨lit "/proc/sys/kernel/nmi_watchdog", .atoi .nmiWatchdog, lit "NMI_WATCHDOG"⟩),
   (lit "net.core.default_qdisc",
      ⟨lit "/proc/sys/net/core/default_qdisc",
        .copy .netQdisc 31 (StrField.pred_size_bounds .netQdisc), lit "NET_QDISC"⟩),
   (lit "net.ipv4.tcp_fastopen",
      ⟨lit "/proc/sys/net/ipv4/tcp_fastopen", .atoi .netFastopen, lit "NET_FASTOPEN"⟩),
   (lit "net.ipv4.conf.all.rp_filter",
      ⟨lit "/proc/sys/net/ipv4/conf/all/rp_filter", .atoi .netRpFilter, lit "NET_RP_FILTER"⟩),
   (lit "net.ipv4.conf.all.accept_source_route",
      ⟨lit "/proc/sys/net/ipv4/conf/all/accept_source_route", .atoi .netSourceRoute,
        lit "NET_SOURCE_ROUTE"⟩),
   (lit "target_thp_mode",
      ⟨lit "/sys/kernel/mm/transparent_hugepage/enabled",
        .copy .thpMode 15 (StrField.pred_size_bounds .thpMode),
        lit "THP_MODE"⟩)]

/-- `ADVANCED_GET`, with `sysctl_read` on a buffer of 128 bytes. -/
def handleAdvancedGet (env : RequestEnv) (key : Bytes) (d : Daemon) : Bytes × Daemon :=
  match advancedTable.lookup key with
  | none => (err, d)
  | some t =>
    match env.sysctl t.path with
    | none => (err, d)
    | some content =>
      (cstr ((content.take 127).rdropWhile fun c => c = nl || c = chr '\r' || c = chr ' '), d)

/-- `ADVANCED_SET`. The field is stored before the write, whatever comes of it. -/
def handleAdvancedSet (env : RequestEnv) (arg : Bytes) (d : Daemon) : Bytes × Daemon :=
  match strchr arg (chr ' ') with
  | none => (err, d)
  | some (key, val) =>
    match advancedTable.lookup key with
    | none => (err, d)
    | some t =>
      let d := { d with cfg := d.cfg.store (t.setter.store val) }
      let (ret, d) := d.call env (.sysctlWrite t.path val)
      if ret = 0 then (ok, { d with conf := configUpdate env.update t.ckey val d.conf })
      else (err, d)

/-- The branches of `socket_handle`, on the rest of the request. -/
def handle (B : Build) (env : RequestEnv) (verb : Verb) (arg : Bytes) (d : Daemon) :
    Bytes × Daemon :=
  match verb with
  | .ping => (ok, d)
  | .mode => d.handleMode env
  | .daemonInfo => d.handleDaemonInfo
  | .getConfig => (configGet d.cfg arg, d)
  | .toggle => d.handleToggle env
  | .setMode => d.handleSetMode env arg
  | .getTopology => d.handleGetTopology B
  | .setAffinityConfig => d.handleSetAffinityConfig env arg
  | .setCppc => d.handleSetCppc env arg
  | .setBoost => d.callReply env (.cppcBoost (contains arg (lit "on")))
  | .setPark => d.handleSetPark B env arg
  | .setUnpark => d.handleSetUnpark env arg
  | .setTdp => d.handleSetTdp env arg
  | .setEpp => d.callReply env (.cppcEpp arg)
  | .setEppCcd => d.handleSetEppCcd env arg
  | .setPstate => d.callReply env (.cppcPstate arg)
  | .setGovernor => d.callReply env (.cppcGovernor arg)
  | .setPrefcore =>
    d.callReply env (.cppcPrefcore (contains arg (lit "on") || contains arg (lit "1")))
  | .setDaemon => d.handleSetDaemon env arg
  | .setConfig => d.handleSetConfig env arg
  | .setWrapper => d.handleSetWrapper env arg
  | .daemonDisable => (ok, { d with activeKeep := false })
  | .configSync => (ok, { d with cfg := configLoad B env.load d.conf d.cfg })
  | .gamesList => (lit "GAMES_SYNCED", d)
  | .advancedGet => d.handleAdvancedGet env arg
  | .advancedSet => d.handleAdvancedSet env arg

end Daemon

/-- The request as the handler sees it: what `recv` delivers into `buf[512]`, as a string up to
the first line break. -/
def received (r : Bytes) : Bytes := cutAny (cstr (r.take 511)) [chr '\r', nl]

/-- `socket_handle`: the reply, if something was received, and the new state. -/
def socketHandle (B : Build) (env : RequestEnv) (r : Bytes) (d : Daemon) :
    Option Bytes × Daemon :=
  if r = [] then (none, d)
  else match dispatch (received r) with
    | none => (some err, d)
    | some (verb, n) =>
      let (reply, d) := d.handle B env verb ((received r).drop n)
      (some reply, d)

theorem ok_ne_err : ok ≠ err := by
  decide

/-! ### Requests by their verb -/

/-- No verb needs more of a request than this, unless it differs from it already. -/
def Decides (a : Bytes) : Prop := ∀ e ∈ verbTable, e.2.1 ≤ a.length ∨ e.1.take a.length ≠ a

instance (a : Bytes) : Decidable (Decides a) := inferInstanceAs (Decidable (∀ e ∈ verbTable, _))

theorem strncmp_append_of_ne {a s : Bytes} {n : ℕ} (hlen : a.length ≤ n)
    (hne : s.take a.length ≠ a) (rest : Bytes) : strncmp (a ++ rest) s n = false := by
  unfold strncmp
  rw [beq_eq_false_iff_ne]
  intro heq
  have htake := congrArg (List.take a.length) heq
  rw [List.take_take, List.take_take, min_eq_left hlen, List.take_left] at htake
  exact hne htake.symm

/-- The beginning of a request decides its branch. -/
theorem dispatch_append {a : Bytes} (h : Decides a) (rest : Bytes) :
    dispatch (a ++ rest) = dispatch a := by
  unfold dispatch
  congr 1
  refine List.find?_congr fun e he => ?_
  by_cases hle : e.2.1 ≤ a.length
  · unfold strncmp
    rw [List.take_append_of_le_length hle]
  · have hne := (h e he).resolve_left hle
    have hnil := strncmp_append_of_ne (Nat.le_of_not_le hle) hne []
    rw [List.append_nil] at hnil
    rw [strncmp_append_of_ne (Nat.le_of_not_le hle) hne, hnil]

theorem socketHandle_of_dispatch {r : Bytes} (verb : Verb) (n : ℕ) (hr : r ≠ [])
    (h : dispatch (received r) = some (verb, n)) (B : Build) (env : RequestEnv) (d : Daemon) :
    socketHandle B env r d =
      (some (d.handle B env verb ((received r).drop n)).1,
        (d.handle B env verb ((received r).drop n)).2) := by
  unfold socketHandle
  rw [if_neg hr, h]

/-- A request that begins with a verb is handled by the verb's branch. -/
theorem socketHandle_of_verb (verb : Verb) {r a arg : Bytes} (hr : received r = a ++ arg)
    (hne : a ≠ []) (ha : Decides a) (hverb : dispatch a = some (verb, a.length)) (B : Build)
    (env : RequestEnv) (d : Daemon) :
    socketHandle B env r d =
      (some (d.handle B env verb arg).1, (d.handle B env verb arg).2) := by
  have hnil : r ≠ [] := by
    rintro rfl
    have : a = [] := (List.append_eq_nil_iff.mp hr.symm).1
    exact hne this
  rw [socketHandle_of_dispatch verb a.length hnil (by rw [hr, dispatch_append ha, hverb]), hr,
    List.drop_left]

/-- What arrives of a request is a string without line breaks. -/
theorem notMem_received (r : Bytes) :
    (0 : UInt8) ∉ received r ∧ chr '\r' ∉ received r ∧ nl ∉ received r := by
  unfold received cutAny
  refine ⟨fun h => ?_, fun h => ?_, fun h => ?_⟩
  · exact zero_notMem_cstr _ ((List.takeWhile_sublist _).subset h)
  · simpa using List.mem_takeWhile_imp h
  · simpa using List.mem_takeWhile_imp h

/-- A request arrives whole up to its first line break, if it fits the buffer. -/
theorem received_append {a : Bytes} (hlen : a.length ≤ 511) (hz : (0 : UInt8) ∉ a)
    (hcr : chr '\r' ∉ a) (hnl : nl ∉ a) (v : Bytes) :
    received (a ++ v) = a ++ cutAny (cstr (v.take (511 - a.length))) [chr '\r', nl] := by
  unfold received
  rw [List.take_append, List.take_of_length_le hlen, cstr_append hz, cutAny,
    List.takeWhile_append_of_pos]
  · rfl
  · intro c hc
    rw [decide_eq_true_iff, List.mem_cons, List.mem_singleton, not_or]
    exact ⟨fun h => hcr (h ▸ hc), fun h => hnl (h ▸ hc)⟩

end X3D
