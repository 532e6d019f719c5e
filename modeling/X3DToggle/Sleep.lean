import X3DToggle.Decimal
import X3DToggle.Settings

/-!
# The timeout of the main loop

A round of the main loop waits in `select` for `cfg.polling_interval` seconds. Three paths write
that field: `config_load` at the start, at a reload and on `CONFIG_SYNC`; and `SET_CONFIG`. Each
hands a text to `atoi` and stores what comes back. None of them looks at it.

`atoi` accumulates in an `int`, so it is itself only defined while what it accumulates fits one.
`AtoiOk` follows it step by step; `numberIn` is the number the text writes, however large, and
`atoiOk_iff` says that the one is a bound on the other.

`along_sleeps_iff` is the rule for a whole run: the loop sleeps in every state, and no step
overflows, exactly when every text that counts writes a number between 1 and `2 ^ 31 - 1`, and
every other one a number of fewer than 32 bits.
-/

namespace X3D

/-! ### `atoi` without overflow -/

/-- The digit loop of `atoi` computes nothing outside an `int`. -/
def AtoiLoopOk : Bytes → ℤ → Prop
  | [], _ => True
  | c :: p, n => isDigit c = true →
      IsInt32 (n * 10) ∧ IsInt32 (n * 10 + digit c) ∧ AtoiLoopOk p (n * 10 + digit c)

/-- `atoi` computes nothing outside an `int`. -/
def AtoiOk (p : Bytes) : Prop :=
  match p.dropWhile isBlank with
  | [] => True
  | c :: p =>
    if c = chr '-' then AtoiLoopOk p 0 ∧ IsInt32 (-atoiLoop p 0) else AtoiLoopOk (c :: p) 0

/-- The number the digits at the beginning of a text continue `n` to. -/
def digitsFrom (n : ℤ) (p : Bytes) : ℤ :=
  (p.takeWhile isDigit).foldl (fun a c => a * 10 + digit c) n

/-- The number a text begins with, after blanks. -/
def numberIn (p : Bytes) : ℤ :=
  match p.dropWhile isBlank with
  | [] => 0
  | c :: p => if c = chr '-' then -digitsFrom 0 p else digitsFrom 0 (c :: p)

section

variable {p : Bytes} {n : ℤ}

theorem digitsFrom_cons {c : UInt8} (h : isDigit c = true) (p : Bytes) (n : ℤ) :
    digitsFrom n (c :: p) = digitsFrom (n * 10 + digit c) p := by
  unfold digitsFrom
  rw [List.takeWhile_cons_of_pos h, List.foldl_cons]

theorem digitsFrom_cons_of_not {c : UInt8} (h : ¬isDigit c = true) (p : Bytes) (n : ℤ) :
    digitsFrom n (c :: p) = n := by
  unfold digitsFrom
  rw [List.takeWhile_cons_of_neg h, List.foldl_nil]

theorem le_digitsFrom (hn : 0 ≤ n) (p : Bytes) : n ≤ digitsFrom n p := by
  induction p generalizing n with
  | nil => exact le_rfl
  | cons c p ih =>
    by_cases hc : isDigit c = true
    · have hd := digit_bounds hc
      rw [digitsFrom_cons hc]
      have hle : n ≤ n * 10 + digit c := by omega
      exact hle.trans (ih (by omega))
    · rw [digitsFrom_cons_of_not hc]

/-- **The digit loop.** It overflows exactly when the number does not fit, and computes it
otherwise. -/
theorem atoiLoopOk_iff (h0 : 0 ≤ n) (hn : n < 2 ^ 31) :
    (AtoiLoopOk p n ↔ digitsFrom n p < 2 ^ 31) ∧
      (digitsFrom n p < 2 ^ 31 → atoiLoop p n = digitsFrom n p) := by
  induction p generalizing n with
  | nil => exact ⟨iff_of_true trivial hn, fun _ => rfl⟩
  | cons c p ih =>
    by_cases hc : isDigit c = true
    · have hd := digit_bounds hc
      have hle := le_digitsFrom (n := n * 10 + digit c) (by omega) p
      rw [digitsFrom_cons hc, atoiLoop, if_pos hc]
      by_cases hfit : n * 10 + digit c < 2 ^ 31
      · have hten : IsInt32 (n * 10) := ⟨by omega, by omega⟩
        have hnext : IsInt32 (n * 10 + digit c) := ⟨by omega, hfit⟩
        obtain ⟨hok, hval⟩ := ih (n := n * 10 + digit c) (by omega) hfit
        rw [wrap32_of_isInt32 hnext]
        refine ⟨⟨fun h => hok.mp (h hc).2.2, fun h _ => ⟨hten, hnext, hok.mpr h⟩⟩, hval⟩
      · -- the number only grows from here on
        have hbig : ¬digitsFrom (n * 10 + digit c) p < 2 ^ 31 := fun h => hfit (hle.trans_lt h)
        exact ⟨iff_of_false (fun h => hfit (h hc).2.1.2) hbig, fun h => absurd h hbig⟩
    · rw [digitsFrom_cons_of_not hc]
      refine ⟨iff_of_true (fun h => absurd h hc) hn, fun _ => ?_⟩
      rw [atoiLoop, if_neg hc]

/-- **`atoi` overflows exactly when the number does not fit**, and returns the number
otherwise. -/
theorem atoiOk_iff (p : Bytes) :
    (AtoiOk p ↔ (numberIn p).natAbs < 2 ^ 31) ∧ (AtoiOk p → atoi p = numberIn p) := by
  unfold AtoiOk numberIn atoi
  cases p.dropWhile isBlank with
  | nil => exact ⟨iff_of_true trivial (by decide), fun _ => rfl⟩
  | cons c p =>
    dsimp only
    by_cases hc : c = chr '-'
    · rw [if_pos hc, if_pos hc, if_pos hc]
      obtain ⟨hok, hval⟩ := atoiLoopOk_iff (p := p) le_rfl (by decide : (0 : ℤ) < 2 ^ 31)
      -- the loop reads the magnitude, and a magnitude that fits can be negated
      have h0 := le_digitsFrom le_rfl p
      rw [hok]
      constructor
      · constructor
        · rintro ⟨h, -⟩
          omega
        · intro h
          have hlt : digitsFrom 0 p < 2 ^ 31 := by omega
          rw [hval hlt]
          exact ⟨hlt, by omega, by omega⟩
      · rintro ⟨hlt, -⟩
        rw [hval hlt]
        exact wrap32_of_isInt32 ⟨by omega, by omega⟩
    · rw [if_neg hc, if_neg hc, if_neg hc]
      obtain ⟨hok, hval⟩ := atoiLoopOk_iff (p := c :: p) le_rfl (by decide : (0 : ℤ) < 2 ^ 31)
      have h0 := le_digitsFrom le_rfl (c :: p)
      rw [hok]
      exact ⟨⟨fun h => by omega, fun h => by omega⟩, hval⟩

end

/-! ### The texts behind the interval -/

/-- The key of the interval. -/
def intervalKey : Bytes := lit "POLLING_INTERVAL"

/-- The values `config_load` comes across for a key. -/
def fileValues (ok : Bool) (file : Option Bytes) (key : Bytes) : List Bytes :=
  match readFile ok file 4095 with
  | none => []
  | some buf => (lines nl (cstr buf)).filterMap (entryOf key)

/-- What a step does to the interval. -/
inductive IntervalChange where
  | keep
  -- `SET_CONFIG POLLING_INTERVAL`
  | store (v : Bytes)
  -- `config_load`
  | load (ok : Bool)
  deriving DecidableEq

namespace IntervalChange

/-- The texts it hands to `atoi`. -/
def texts (conf : Option Bytes) : IntervalChange → List Bytes
  | keep => []
  | store v => [v]
  | load ok => fileValues ok conf intervalKey

/-- The interval it leaves. -/
def result (B : Build) (d : Daemon) : IntervalChange → ℤ
  | keep => d.cfg.int .pollingInterval
  | store v => atoi v
  | load ok => (fileValue ok d.conf intervalKey).elim B.pollingInterval atoi

/-- The number it stores lies between 1 and the largest `int`, and no other one it reads is
larger than that. -/
def Lawful (B : Build) (conf : Option Bytes) : IntervalChange → Prop
  | keep => True
  | store v => 1 ≤ numberIn v ∧ numberIn v < 2 ^ 31
  | load ok => 1 ≤ (fileValue ok conf intervalKey).elim B.pollingInterval numberIn ∧
      ∀ v ∈ fileValues ok conf intervalKey, (numberIn v).natAbs < 2 ^ 31

end IntervalChange

/-- What a branch of the request handler does to the interval. -/
def Verb.intervalChange (env : RequestEnv) (arg : Bytes) : Verb → IntervalChange
  | .setConfig =>
    match strchr arg (chr ' ') with
    | none => .keep
    | some (k, v) => if k = intervalKey then .store v else .keep
  | .configSync => .load env.load.openRd
  | _ => .keep

/-- What an input does to the interval. -/
def Input.intervalChange : Input → IntervalChange
  | .request env r =>
    match dispatch (received r) with
    | none => .keep
    | some (verb, n) => verb.intervalChange env ((received r).drop n)
  | .poll _ (some r) => .load r.load.openRd
  | _ => .keep

/-- The timeout of `select`, in seconds; `tv_usec` is 0. -/
def Daemon.timeout (d : Daemon) : ℤ := d.cfg.int .pollingInterval

/-- The main loop sleeps. -/
def Running.Sleeps (s : Running) : Prop := 1 ≤ s.daemon.timeout

/-- A step computes the interval without overflow. -/
def Input.NoOverflow (i : Input) (s : Running) : Prop :=
  ∀ v ∈ i.intervalChange.texts s.daemon.conf, AtoiOk v

/-- From its start on, and under these inputs, the daemon sleeps in every round and computes the
interval without overflow. -/
def AlwaysSleeps (B : Build) (env : BootEnv) (is : List Input) : Prop :=
  (∀ v ∈ (IntervalChange.load env.load.openRd).texts env.conf, AtoiOk v) ∧
  (daemonMachine B).Along Running.Sleeps is ⟨boot B env, .select⟩ ∧
  (daemonMachine B).Guarded Input.NoOverflow is ⟨boot B env, .select⟩

section

variable {B : Build} {d : Daemon}

theorem fileValue_eq_getLast (ok : Bool) (file : Option Bytes) (key : Bytes) :
    fileValue ok file key = (fileValues ok file key).getLast? := by
  unfold fileValue fileValues
  cases readFile ok file 4095 <;> rfl

theorem lookup_intervalKey :
    configLoadTable.lookup intervalKey = some (.atoi .pollingInterval) := rfl

/-- A load leaves the last number of the file, or the built one. -/
theorem interval_configLoad (env : LoadEnv) (file : Option Bytes) (cfg : DaemonConfig) :
    (configLoad B env file cfg).int .pollingInterval =
      (fileValue env.openRd file intervalKey).elim B.pollingInterval atoi := by
  have hdefault : defaultOf B (.int .pollingInterval) = some (.int B.pollingInterval) := rfl
  have hget := configLoad_get lookup_intervalKey B env file cfg
  rw [show (Setter.atoi .pollingInterval).field = .int .pollingInterval from rfl, hdefault] at hget
  cases hval : fileValue env.openRd file intervalKey with
  | none =>
    rw [hval] at hget
    exact Value.int.inj hget
  | some v =>
    rw [hval] at hget
    exact Value.int.inj hget

/-- Only `POLLING_INTERVAL` stores into the interval. -/
theorem setConfigTable_interval : ∀ e ∈ setConfigTable,
    e.2.field = .int .pollingInterval → e.1 = intervalKey := by
  decide +kernel

theorem lookup_setConfig_intervalKey :
    setConfigTable.lookup intervalKey = some (.atoi .pollingInterval) := rfl

theorem advancedTable_interval : ∀ e ∈ Daemon.advancedTable,
    e.2.setter.field ≠ .int .pollingInterval := by
  decide +kernel

theorem interval_store {st : Store} (h : st.field ≠ .int .pollingInterval) (cfg : DaemonConfig) :
    (cfg.store st).int .pollingInterval = cfg.int .pollingInterval := by
  have hget := DaemonConfig.get_store cfg st (.int .pollingInterval)
  rw [if_neg h] at hget
  exact Value.int.inj hget

theorem interval_handleSetConfig (env : RequestEnv) (arg : Bytes) :
    (d.handleSetConfig env arg).2.cfg.int .pollingInterval =
      (Verb.setConfig.intervalChange env arg).result B d := by
  unfold Daemon.handleSetConfig Verb.intervalChange
  cases hcut : strchr arg (chr ' ') with
  | none => rfl
  | some kv =>
    obtain ⟨k, v⟩ := kv
    dsimp only
    cases hst : setConfigTable.lookup k with
    | none =>
      have hk : k ≠ intervalKey := by
        rintro rfl
        exact Option.some_ne_none _ (lookup_setConfig_intervalKey.symm.trans hst)
      rw [if_neg hk]
      rfl
    | some st =>
      -- starting or stopping the tracker changes no setting
      have hebpf : ∀ d' : Daemon,
          (if k = lit "EBPF_ENABLE" then d'.followEbpf env else d').cfg = d'.cfg := by
        intro d'
        by_cases hk : k = lit "EBPF_ENABLE"
        · rw [if_pos hk]
          exact (Daemon.followEbpf_conf env d').2
        · rw [if_neg hk]
      dsimp only
      rw [hebpf]
      by_cases hk : k = intervalKey
      · obtain rfl : st = .atoi .pollingInterval := by
          rw [hk] at hst
          exact (Option.some.inj (lookup_setConfig_intervalKey.symm.trans hst)).symm
        rw [if_pos hk]
        rfl
      · rw [if_neg hk, interval_store]
        · rfl
        · intro hfield
          rw [Setter.field_store] at hfield
          exact hk (setConfigTable_interval _ (lookup_mem hst) hfield)

theorem interval_handleAdvancedSet (env : RequestEnv) (arg : Bytes) :
    (d.handleAdvancedSet env arg).2.cfg.int .pollingInterval = d.cfg.int .pollingInterval := by
  unfold Daemon.handleAdvancedSet
  cases strchr arg (chr ' ') with
  | none => rfl
  | some kv =>
    obtain ⟨key, val⟩ := kv
    dsimp only
    cases ht : Daemon.advancedTable.lookup key with
    | none => rfl
    | some t =>
      have hfield : (t.setter.store val).field ≠ .int .pollingInterval := by
        rw [Setter.field_store]
        exact advancedTable_interval _ (lookup_mem ht)
      have hstore := interval_store hfield d.cfg
      dsimp only
      split
      · exact hstore
      · exact hstore

/-- **One branch.** It leaves the interval its change says. -/
theorem interval_handle (env : RequestEnv) (verb : Verb) (arg : Bytes) :
    (d.handle B env verb arg).2.cfg.int .pollingInterval =
      (verb.intervalChange env arg).result B d := by
  have hof {d' : Daemon} (hcfg : d'.cfg = d.cfg) :
      d'.cfg.int .pollingInterval = d.cfg.int .pollingInterval :=
    congrArg (DaemonConfig.int · .pollingInterval) hcfg
  -- only a store, a load and the two requests that change single keys can change the interval
  cases verb with
  | setConfig => exact interval_handleSetConfig env arg
  | configSync => exact interval_configLoad _ _ _
  | advancedSet => exact interval_handleAdvancedSet env arg
  | setDaemon =>
    rcases cfg_handleSetDaemon env d arg with h | h
    · exact hof h
    · have hfield : (Store.str .daemonState 32 arg (by decide)).field ≠ .int .pollingInterval := by
        intro heq
        cases heq
      exact (congrArg (DaemonConfig.int · .pollingInterval) h).trans (interval_store hfield d.cfg)
  | setMode => exact hof (cfg_handleSetMode arg)
  | setAffinityConfig => exact hof (cfg_handleSetAffinityConfig arg)
  | setCppc => exact hof (untouched_handleSetCppc arg).cfg
  | setPark => exact hof (untouched_handleSetPark arg).cfg
  | setUnpark => exact hof (untouched_handleSetUnpark arg).cfg
  | setTdp => exact hof (untouched_intRequest fun _ => rfl).cfg
  | setEppCcd => exact hof (untouched_handleSetEppCcd arg).cfg
  | setWrapper => exact hof (cfg_handleSetWrapper arg)
  | advancedGet => exact hof (untouched_handleAdvancedGet arg).cfg
  | ping | mode | daemonInfo | getConfig | toggle | getTopology | setBoost | setEpp | setPstate
  | setGovernor | setPrefcore | daemonDisable | gamesList => rfl

/-! ### The steps of the daemon -/

theorem interval_socketHandle (B : Build) (env : RequestEnv) (r : Bytes) (d : Daemon) :
    (socketHandle B env r d).2.cfg.int .pollingInterval =
      (Input.request env r).intervalChange.result B d := by
  have hchange : (Input.request env r).intervalChange =
      (dispatch (received r)).elim .keep
        fun e => e.1.intervalChange env ((received r).drop e.2) := by
    unfold Input.intervalChange
    dsimp only
    cases dispatch (received r) <;> rfl
  unfold socketHandle
  rw [hchange]
  by_cases hr : r = []
  · subst hr
    rfl
  · rw [if_neg hr]
    cases dispatch (received r) with
    | none => rfl
    | some e => exact interval_handle env e.1 _

theorem interval_boot (B : Build) (env : BootEnv) :
    (boot B env).cfg.int .pollingInterval =
      (fileValue env.load.openRd env.conf intervalKey).elim B.pollingInterval atoi := by
  have hload := interval_configLoad (B := B) env.load env.conf DaemonConfig.zero
  unfold boot
  dsimp only
  -- neither the tracker nor a write to the node matters, and the state is another field
  split <;> split <;> split <;> exact hload

/-- **One step.** The interval after a step is the one its change leaves. -/
theorem interval_step {s s' : Running} {i : Input} (h : (daemonMachine B).step i s = some s') :
    s'.daemon.cfg.int .pollingInterval = i.intervalChange.result B s.daemon := by
  cases stepped h with
  | request env r d => exact interval_socketHandle B env r d
  | poll env d =>
    have hpoll : SameSettings d (d.pollingRun env) := Daemon.sameSettings_pollingRun
    exact congrArg (DaemonConfig.int · .pollingInterval) hpoll.cfg
  | reload env r d =>
    have hpoll : SameSettings d (d.pollingRun env) := Daemon.sameSettings_pollingRun
    have hload : (IntervalChange.load r.load.openRd).result B (d.pollingRun env) =
        (IntervalChange.load r.load.openRd).result B d :=
      congrArg (fun f => (fileValue r.load.openRd f intervalKey).elim B.pollingInterval atoi)
        hpoll.conf
    exact (interval_configLoad r.load _ _).trans hload
  | timeout | stop | gamemode | external => rfl

/-- A load leaves a positive interval, without overflow, exactly when it is lawful. -/
theorem load_lawful_iff (ok : Bool) (d : Daemon) :
    1 ≤ (IntervalChange.load ok).result B d ∧
        (∀ v ∈ (IntervalChange.load ok).texts d.conf, AtoiOk v) ↔
      (IntervalChange.load ok).Lawful B d.conf := by
  have hall : (∀ v ∈ fileValues ok d.conf intervalKey, AtoiOk v) ↔
      ∀ v ∈ fileValues ok d.conf intervalKey, (numberIn v).natAbs < 2 ^ 31 :=
    forall₂_congr fun v _ => (atoiOk_iff v).1
  simp only [IntervalChange.result, IntervalChange.texts, IntervalChange.Lawful]
  rw [hall]
  refine and_congr_left fun h => ?_
  -- the value that counts is one of the values read
  cases hlast : fileValue ok d.conf intervalKey with
  | none => rfl
  | some v =>
    have hmem : v ∈ fileValues ok d.conf intervalKey := by
      rw [fileValue_eq_getLast] at hlast
      exact List.mem_of_getLast? hlast
    obtain ⟨hok, hval⟩ := atoiOk_iff v
    rw [Option.elim_some, Option.elim_some, hval (hok.mpr (h v hmem))]

/-- A change out of a positive interval leaves one, without overflow, exactly when it is
lawful. -/
theorem IntervalChange.lawful_iff (hd : 1 ≤ d.cfg.int .pollingInterval) (c : IntervalChange) :
    1 ≤ c.result B d ∧ (∀ v ∈ c.texts d.conf, AtoiOk v) ↔ c.Lawful B d.conf := by
  cases c with
  | keep => exact ⟨fun _ => trivial, fun _ => ⟨hd, by simp [texts]⟩⟩
  | load ok => exact load_lawful_iff ok d
  | store v =>
    obtain ⟨hok, hval⟩ := atoiOk_iff v
    simp only [result, texts, Lawful, List.forall_mem_singleton]
    constructor
    · rintro ⟨hpos, h⟩
      rw [hval h] at hpos
      have hlt := hok.mp h
      omega
    · intro h
      have hv : AtoiOk v := hok.mpr (by omega)
      rw [hval hv]
      exact ⟨h.1, hv⟩

/-- **When the loop sleeps.** It does in every round of a run, without an overflow on the way,
exactly when the start and every step of the run are lawful. -/
theorem alwaysSleeps_iff (B : Build) (env : BootEnv) (is : List Input) :
    AlwaysSleeps B env is ↔
      (IntervalChange.load env.load.openRd).Lawful B env.conf ∧
      (daemonMachine B).Guarded (fun i s => i.intervalChange.Lawful B s.daemon.conf) is
        ⟨boot B env, .select⟩ := by
  have hstart : Running.Sleeps ⟨boot B env, .select⟩ ∧
      (∀ v ∈ (IntervalChange.load env.load.openRd).texts env.conf, AtoiOk v) ↔
        (IntervalChange.load env.load.openRd).Lawful B env.conf := by
    have hload := load_lawful_iff (B := B) env.load.openRd (boot B env)
    rw [IntervalChange.result, boot_conf, ← interval_boot] at hload
    exact hload
  -- a step is lawful if the interval it leaves is positive and was read without overflow
  have hrun : Running.Sleeps ⟨boot B env, .select⟩ →
      ((daemonMachine B).Along Running.Sleeps is ⟨boot B env, .select⟩ ∧
          (daemonMachine B).Guarded Input.NoOverflow is ⟨boot B env, .select⟩ ↔
        (daemonMachine B).Guarded (fun i s => i.intervalChange.Lawful B s.daemon.conf) is
          ⟨boot B env, .select⟩) := by
    refine Machine.along_and_guarded_iff fun i s s' hP hs' => ?_
    unfold Running.Sleeps Daemon.timeout
    rw [interval_step hs']
    exact IntervalChange.lawful_iff hP i.intervalChange
  rw [AlwaysSleeps, ← hstart]
  constructor
  · rintro ⟨hok, halong, hno⟩
    exact ⟨⟨halong.head, hok⟩, (hrun halong.head).mp ⟨halong, hno⟩⟩
  · rintro ⟨⟨hP, hok⟩, hguarded⟩
    exact ⟨hok, (hrun hP).mpr hguarded⟩

/-- `SET_CONFIG POLLING_INTERVAL 0`. -/
theorem interval_zero :
    ¬AlwaysSleeps shippedBuild (BootEnv.allOk (some (lit "POLLING_INTERVAL=3\n")))
      [.request .allOk (lit "SET_CONFIG POLLING_INTERVAL 0")] := by
  rintro ⟨-, halong, -⟩
  obtain ⟨s', hs'⟩ : ∃ s', (daemonMachine shippedBuild).step
      (.request .allOk (lit "SET_CONFIG POLLING_INTERVAL 0"))
      ⟨boot shippedBuild (BootEnv.allOk (some (lit "POLLING_INTERVAL=3\n"))), .select⟩ = some s' :=
    ⟨_, rfl⟩
  have hchange : (Input.request .allOk
      (lit "SET_CONFIG POLLING_INTERVAL 0")).intervalChange = .store (lit "0") := by
    decide +kernel
  have hpos : 1 ≤ s'.daemon.cfg.int .pollingInterval := (halong.2 s' hs').head
  rw [interval_step hs', hchange] at hpos
  exact absurd hpos (by decide)

end

end X3D
