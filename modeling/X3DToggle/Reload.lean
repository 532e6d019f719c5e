import X3DToggle.Loop

/-!
# Loads that start over

`config_load` gives most fields a default before it reads the file; the fields of `unresetKeys`
get none. What the file does not say about them comes from whatever the structure held: values of
the session in the daemon, which loads into the same structure again for `CONFIG_SYNC` and for
`SIGHUP`, and uninitialised memory in `cli_status_monitor`, which loads into a local variable.

So two loads of one file agree, whatever they start from, if and only if the file sets each of
these keys (`fresh_iff`). The bytes behind the terminator of a string are no part of a value and
are left out of the comparison.
-/

namespace X3D

/-- The keys of `config_load` whose fields have no default. -/
def unresetKeys : List Bytes :=
  [lit "SCHED_BORE", lit "SCHED_BIT_SHIFT", lit "SCHED_BURST_FORK", lit "SCHED_SLICE_US",
   lit "VM_MAX_MAP", lit "SPLIT_LOCK_DETECT", lit "NMI_WATCHDOG", lit "THP_MODE",
   lit "NET_QDISC", lit "NET_FASTOPEN", lit "NET_RP_FILTER", lit "NET_SOURCE_ROUTE",
   lit "IRQ_ENABLE", lit "IRQ_GPU", lit "IRQ_NVME", lit "IRQ_USB", lit "IRQ_NIC",
   lit "IRQ_AUDIO", lit "IRQ_COALESCE", lit "IRQ_WATCH",
   lit "ADVANCED_CONFIG_ENABLE", lit "FORCE_UNSUPPORTED_DISPLAY",
   lit "JOURNAL_KEEP", lit "JOURNAL_MAX_MB"]

/-- The configuration after a load depends on the file and on the outcomes of the calls alone: in
`config_load`, and in a daemon that reloads it for a request or for a signal. -/
structure Fresh (B : Build) (env : LoadEnv) (file : Option Bytes) : Prop where
  load : ∀ cfg cfg', configLoad B env file cfg = configLoad B env file cfg'
  sync : ∀ (r : RequestEnv) (d d' : Daemon), r.load = env → d.conf = file → d'.conf = file →
    (socketHandle B r (lit "CONFIG_SYNC") d).2.cfg = (socketHandle B r (lit "CONFIG_SYNC") d').2.cfg
  hangup : ∀ (r : ReloadEnv) (d d' : Daemon), r.load = env → d.conf = file → d'.conf = file →
    (d.reload B r).cfg = (d'.reload B r).cfg

/-! ### The fields without a default -/

section

variable {B : Build}

/-- The fields `config_load` sets first are the same in every build. -/
theorem map_field_configDefaults (B : Build) :
    (configDefaults B).map Store.field = (configDefaults shippedBuild).map Store.field :=
  rfl

theorem defaultOf_eq_none_iff {f : Field} :
    defaultOf B f = none ↔ f ∉ (configDefaults shippedBuild).map Store.field := by
  rw [← map_field_configDefaults B, defaultOf, lastSome, List.getLast?_eq_none_iff,
    List.filterMap_eq_nil_iff, List.mem_map]
  constructor
  · rintro h ⟨st, hst, hf⟩
    exact absurd (h st hst) (by rw [if_pos hf]; exact Option.some_ne_none _)
  · intro h st hst
    exact if_neg fun hf => h ⟨st, hst, hf⟩

/-- A key of the table is looked up to its own entry. -/
theorem exists_lookup_of_field {f : Field} (h : f ∈ configLoadTable.map (·.2.field)) :
    ∃ e ∈ configLoadTable, ∃ st, configLoadTable.lookup e.1 = some st ∧ st.field = f ∧
      e.2.field = f := by
  have hall : ∀ e ∈ configLoadTable,
      (configLoadTable.lookup e.1).map Setter.field = some e.2.field := by
    decide
  obtain ⟨e, he, rfl⟩ := List.mem_map.mp h
  obtain ⟨st, hst, hsame⟩ := Option.map_eq_some_iff.mp (hall e he)
  exact ⟨e, he, st, hst, hsame, rfl⟩

/-- A field without a default has one of these keys. -/
theorem exists_unresetKey {f : Field} (h : defaultOf B f = none) :
    ∃ key ∈ unresetKeys, ∃ st, configLoadTable.lookup key = some st ∧ st.field = f := by
  have hall : ∀ e ∈ configLoadTable,
      e.2.field ∉ (configDefaults shippedBuild).map Store.field → e.1 ∈ unresetKeys := by
    decide
  rw [defaultOf_eq_none_iff] at h
  have hfield : f ∈ configLoadTable.map (·.2.field) := by
    revert h
    cases f with
    | int f => cases f <;> decide
    | dbl f => cases f <;> decide
    | str f => cases f <;> decide
  obtain ⟨e, he, st, hst, hsame, rfl⟩ := exists_lookup_of_field hfield
  exact ⟨e.1, hall e he h, st, hst, hsame⟩

/-- What these keys stand for: a field without a default, which can hold different values. -/
theorem unresetKeys_spec {key : Bytes} (h : key ∈ unresetKeys) :
    ∃ st, configLoadTable.lookup key = some st ∧ defaultOf B st.field = none ∧
      st.parse (lit "0") ≠ st.parse (lit "1") := by
  have hall : ∀ key ∈ unresetKeys, (configLoadTable.lookup key).isSome ∧
      ∀ st ∈ configLoadTable.lookup key,
        st.field ∉ (configDefaults shippedBuild).map Store.field ∧
          st.parse (lit "0") ≠ st.parse (lit "1") := by
    decide
  obtain ⟨hsome, hspec⟩ := hall key h
  obtain ⟨st, hst⟩ := Option.isSome_iff_exists.mp hsome
  obtain ⟨hnone, hne⟩ := hspec st hst
  exact ⟨st, hst, defaultOf_eq_none_iff.mpr hnone, hne⟩

end

/-! ### Two loads -/

section

variable {B : Build} {env : LoadEnv} {file : Option Bytes}

theorem loadLine_capabilities (cfg : DaemonConfig) (ln : Bytes) :
    (loadLine cfg ln).capabilities = cfg.capabilities := by
  unfold loadLine
  split
  next => rfl
  next =>
    split
    next => rfl
    next =>
      split
      next => rfl
      next => exact cfg.store_capabilities _

/-- The capabilities are probed afresh. -/
theorem configLoad_capabilities (cfg : DaemonConfig) :
    (configLoad B env file cfg).capabilities = configProbeCapabilities env.access := by
  have hstores (sts : List Store) (c : DaemonConfig) :
      (sts.foldl DaemonConfig.store c).capabilities = c.capabilities := by
    induction sts generalizing c with
    | nil => rfl
    | cons st sts ih => rw [List.foldl_cons, ih, c.store_capabilities]
  have hlines (ls : List Bytes) (c : DaemonConfig) :
      (ls.foldl loadLine c).capabilities = c.capabilities := by
    induction ls generalizing c with
    | nil => rfl
    | cons l ls ih => rw [List.foldl_cons, ih, loadLine_capabilities]
  unfold configLoad
  cases readFile env.openRd file 4095 with
  | none => exact hstores _ _
  | some buf => exact (hlines _ _).trans (hstores _ _)

/-- **Two loads.** They agree if the file sets every field that has no default, or the field held
the same value before. -/
theorem configLoad_eq_iff {cfg cfg' : DaemonConfig} :
    configLoad B env file cfg = configLoad B env file cfg' ↔
      ∀ key ∈ unresetKeys, ∀ st, configLoadTable.lookup key = some st →
        fileValue env.openRd file key = none → cfg.get st.field = cfg'.get st.field := by
  constructor
  · intro h key hkey st hst hnone
    obtain ⟨st', hst', hdef, -⟩ := unresetKeys_spec (B := B) hkey
    obtain rfl := Option.some.inj (hst.symm.trans hst')
    have hget := congrArg (DaemonConfig.get · st.field) h
    simp only [configLoad_get hst, hnone, hdef] at hget
    exact hget
  · intro h
    refine DaemonConfig.eq_of_get ?_ fun f => ?_
    · rw [configLoad_capabilities, configLoad_capabilities]
    · cases hdef : defaultOf B f with
      | none =>
        obtain ⟨key, hkey, st, hst, rfl⟩ := exists_unresetKey hdef
        rw [configLoad_get hst, configLoad_get hst, hdef]
        cases hval : fileValue env.openRd file key with
        | none => exact h key hkey st hst hval
        | some val => rfl
      | some v =>
        -- the default has overwritten what the field held
        by_cases hfield : f ∈ configLoadTable.map (·.2.field)
        · obtain ⟨e, -, st, hst, rfl, -⟩ := exists_lookup_of_field hfield
          rw [configLoad_get hst, configLoad_get hst, hdef]
          rfl
        · have hno : ∀ e ∈ configLoadTable, e.2.field ≠ f := fun e he hf =>
            hfield (List.mem_map.mpr ⟨e, he, hf⟩)
          rw [configLoad_get_of_notMem hno, configLoad_get_of_notMem hno, hdef]
          rfl

/-- A key the file does not set leaves its field to what was there before. -/
theorem exists_configLoad_ne {key : Bytes} (hkey : key ∈ unresetKeys)
    (hnone : fileValue env.openRd file key = none) :
    ∃ cfg cfg', configLoad B env file cfg ≠ configLoad B env file cfg' := by
  obtain ⟨st, hst, -, hne⟩ := unresetKeys_spec (B := B) hkey
  refine ⟨DaemonConfig.zero.store (st.store (lit "0")),
    DaemonConfig.zero.store (st.store (lit "1")), fun h => hne ?_⟩
  have hsame := configLoad_eq_iff.mp h key hkey st hst hnone
  rw [DaemonConfig.get_store, DaemonConfig.get_store, st.field_store, st.field_store,
    if_pos rfl, if_pos rfl] at hsame
  exact hsame

/-- `CONFIG_SYNC` is a load. -/
theorem cfg_configSync (r : RequestEnv) (d : Daemon) :
    (socketHandle B r (lit "CONFIG_SYNC") d).2.cfg = configLoad B r.load d.conf d.cfg := by
  rw [socketHandle_of_dispatch .configSync 11 (by decide) (by decide)]
  rfl

/-- **Reload.** It starts over if and only if the file sets every field that has no default. -/
theorem fresh_iff (B : Build) (env : LoadEnv) (file : Option Bytes) :
    Fresh B env file ↔ ∀ key ∈ unresetKeys, (fileValue env.openRd file key).isSome = true := by
  constructor
  · intro h key hkey
    rw [← Option.ne_none_iff_isSome]
    intro hnone
    obtain ⟨cfg, cfg', hne⟩ := exists_configLoad_ne (B := B) hkey hnone
    exact hne (h.load cfg cfg')
  · intro h
    have hload (cfg cfg' : DaemonConfig) :
        configLoad B env file cfg = configLoad B env file cfg' := by
      refine configLoad_eq_iff.mpr fun key hkey st _ hnone => ?_
      exact absurd (h key hkey) (by rw [hnone]; exact Bool.false_ne_true)
    refine ⟨hload, ?_, ?_⟩
    · rintro r d d' rfl rfl hconf
      rw [cfg_configSync, cfg_configSync, hconf]
      exact hload d.cfg d'.cfg
    · rintro r d d' rfl rfl hconf
      show configLoad B r.load d.conf d.cfg = configLoad B r.load d'.conf d'.cfg
      rw [hconf]
      exact hload d.cfg d'.cfg

/-- A file that sets the polling interval leaves the IRQ settings to the session. -/
theorem stale_after_reload :
    ¬∀ (B : Build) (env : LoadEnv) (file : Option Bytes), Fresh B env file := by
  intro h
  have hfresh := h shippedBuild ⟨true, fun _ => false⟩ (some (lit "POLLING_INTERVAL=3\n"))
  have hkey : lit "IRQ_ENABLE" ∈ unresetKeys := by decide
  have hnone : fileValue true (some (lit "POLLING_INTERVAL=3\n")) (lit "IRQ_ENABLE") = none := by
    decide
  obtain ⟨cfg, cfg', hne⟩ : ∃ cfg cfg', configLoad shippedBuild ⟨true, fun _ => false⟩
      (some (lit "POLLING_INTERVAL=3\n")) cfg ≠ configLoad shippedBuild ⟨true, fun _ => false⟩
      (some (lit "POLLING_INTERVAL=3\n")) cfg' :=
    exists_configLoad_ne hkey hnone
  exact hne (hfresh.load cfg cfg')

end

end X3D
