import X3DToggle.Config.Update
import X3DToggle.Settings

/-!
# What survives a reload

`SET_CONFIG` writes a value to `daemon.conf` and stores it in memory, and answers `OK` whatever
became of the file. A later load gives the field the value the file shows for the key, or the
default. `setConfig_durable_iff` says exactly when that is the value in memory, in terms of the
file before the request and of the write:

* the key must be one `config_load` knows, which `AFFINITY_LEVEL` is not;
* the file must have been rewritten, and a line of the key must begin early enough for the 4095
  bytes a load reads and for the bytes that were written;
* what is left of the value there must mean the same. A string of full length is already cut by
  the load, whose copies are one byte shorter than the field.

Where any of this fails, the value survives only if it is the default.
-/

namespace X3D

/-! ### The request -/

/-- **`SET_CONFIG`.** It updates the file, stores the value if it knows the key, and says
`OK`. -/
theorem socketHandle_setConfig {r k v : Bytes} (hk : chr ' ' ∉ k)
    (hr : received r = lit "SET_CONFIG " ++ (k ++ chr ' ' :: v)) (B : Build) (env : RequestEnv)
    (d : Daemon) :
    ∃ d', socketHandle B env r d = (some ok, d') ∧
      d'.conf = configUpdate env.update k v d.conf ∧
      d'.cfg = (setConfigTable.lookup k).elim d.cfg fun st => d.cfg.store (st.store v) := by
  have hhandle := socketHandle_of_verb .setConfig hr (by decide)
    (by decide) (by decide) B env d
  rw [hhandle, Daemon.handle, Daemon.handleSetConfig, strchr, cut_append hk]
  cases hlookup : setConfigTable.lookup k with
  | none =>
    simp only [hlookup]
    exact ⟨{ d with conf := configUpdate env.update k v d.conf }, rfl, rfl, rfl⟩
  | some st =>
    simp only [hlookup]
    split
    · exact ⟨_, rfl, (Daemon.followEbpf_conf env _).1, (Daemon.followEbpf_conf env _).2⟩
    · exact ⟨_, rfl, rfl, rfl⟩

/-! ### The reload -/

/-- A key `config_load` does not know has a field it does not load. -/
theorem setConfigTable_unloaded : ∀ e ∈ setConfigTable, (configLoadTable.lookup e.1).isNone →
    ∀ e' ∈ configLoadTable, e'.2.field ≠ e.2.field := by
  decide

/-- The keys `SET_CONFIG` stores, without NUL. -/
theorem setConfigTable_zero : ∀ e ∈ setConfigTable, (0 : UInt8) ∉ e.1 := by
  decide

/-- The value a load gives to a field whose key the file does not show. -/
def fallbackOf (B : Build) (f : Field) : Value := (defaultOf B f).getD (DaemonConfig.zero.get f)

/-- **The condition for a value to survive.** Either the load finds something of the value and
makes the same of it, or it finds nothing and the value is the one it falls back to. -/
def Durable (B : Build) (env : UpdateEnv) (k v : Bytes) (st : Setter) (file : Option Bytes) :
    Prop :=
  (∃ ld u, configLoadTable.lookup k = some ld ∧ reloadedValue env k v file = some u ∧
      ld.parse u = st.parse v) ∨
    ((configLoadTable.lookup k = none ∨ reloadedValue env k v file = none) ∧
      fallbackOf B st.field = st.parse v)

section

variable {B : Build} {env : RequestEnv} {d : Daemon} {k v r : Bytes} {st : Setter}

/-- A field gets its default or keeps what it had: a load right after the request, or one in a
fresh process. -/
theorem forall_prior_iff (B : Build) {cfg : DaemonConfig} {f : Field} {x : Value}
    (hlive : cfg.get f = x) :
    (∀ prior, prior = cfg ∨ prior = DaemonConfig.zero → (defaultOf B f).getD (prior.get f) = x) ↔
      fallbackOf B f = x := by
  unfold fallbackOf
  constructor
  · exact fun h => h _ (Or.inr rfl)
  · rintro h prior (rfl | rfl)
    · cases hdef : defaultOf B f with
      | none => exact hlive
      | some y => rwa [hdef] at h
    · exact h

/-- **When a setting survives.** A load of the file a `SET_CONFIG` leaves, in the same process
or in a new one, gives the field the value in memory exactly if the value is durable. -/
theorem setConfig_durable_iff (hk : setConfigTable.lookup k = some st)
    (hr : received r = lit "SET_CONFIG " ++ (k ++ chr ' ' :: v)) :
    (∀ d', socketHandle B env r d = (some ok, d') →
      ∀ (load : LoadEnv) (prior : DaemonConfig), load.openRd = true →
        prior = d'.cfg ∨ prior = DaemonConfig.zero →
        (configLoad B load d'.conf prior).get st.field = d'.cfg.get st.field) ↔
      Durable B env.update k v st d.conf := by
  have hmem := lookup_mem hk
  obtain ⟨-, -, heq, hnl, hspace⟩ := setConfigTable_keys _ hmem
  obtain ⟨d', hd', hconf, hcfg⟩ := socketHandle_setConfig hspace hr B env d
  rw [hk, Option.elim_some] at hcfg
  have hlive : d'.cfg.get st.field = st.parse v := by
    rw [hcfg, DaemonConfig.get_store, Setter.field_store, if_pos rfl]
    rfl
  have hv : (0 : UInt8) ∉ v ∧ nl ∉ v := by
    obtain ⟨hz, -, hnl'⟩ := notMem_received r
    rw [hr] at hz hnl'
    exact ⟨fun h => hz (by simp [h]), fun h => hnl' (by simp [h])⟩
  have hfile : fileValue true d'.conf k = reloadedValue env.update k v d.conf := by
    rw [hconf]
    exact fileValue_configUpdate heq hnl (setConfigTable_zero _ hmem) hv.2 hv.1 _ _
  -- the property speaks about this one successor
  have hone : (∀ d'', socketHandle B env r d = (some ok, d'') →
      ∀ (load : LoadEnv) (prior : DaemonConfig), load.openRd = true →
        prior = d''.cfg ∨ prior = DaemonConfig.zero →
        (configLoad B load d''.conf prior).get st.field = d''.cfg.get st.field) ↔
      ∀ (load : LoadEnv) (prior : DaemonConfig), load.openRd = true →
        prior = d'.cfg ∨ prior = DaemonConfig.zero →
        (configLoad B load d'.conf prior).get st.field = st.parse v := by
    rw [hd', ← hlive]
    constructor
    · exact fun h => h d' rfl
    · rintro h d'' hd''
      obtain ⟨-, rfl⟩ := Prod.mk.inj hd''
      exact h
  rw [hone]
  have hreadable : ∃ load : LoadEnv, load.openRd = true := ⟨⟨true, fun _ => true⟩, rfl⟩
  have hfallback := forall_prior_iff B hlive
  cases hld : configLoadTable.lookup k with
  | none =>
    have hget (load : LoadEnv) (prior : DaemonConfig) :
        (configLoad B load d'.conf prior).get st.field =
          (defaultOf B st.field).getD (prior.get st.field) :=
      configLoad_get_of_notMem (setConfigTable_unloaded _ hmem (by rw [hld]; rfl)) _ _ _ _
    simp only [hget, Durable, hld]
    simp only [reduceCtorEq, false_and, exists_false, true_or, true_and, false_or]
    rw [← hfallback]
    constructor
    · obtain ⟨load, hload⟩ := hreadable
      exact fun h prior hprior => h load prior hload hprior
    · exact fun h load prior _ hprior => h prior hprior
  | some ld =>
    have hfield : ld.field = st.field := by
      have hloads := setConfigTable_loads _ hmem
      rw [hld] at hloads
      split at hloads
      · exact absurd hloads (by simp)
      · exact Option.some.inj hloads
    have hget (load : LoadEnv) (prior : DaemonConfig) (hload : load.openRd = true) :
        (configLoad B load d'.conf prior).get st.field =
          (reloadedValue env.update k v d.conf).elim
            ((defaultOf B st.field).getD (prior.get st.field)) ld.parse := by
      rw [← hfield, configLoad_get hld, hload, hfile]
    cases hu : reloadedValue env.update k v d.conf with
    | none =>
      simp only [hu, Option.elim_none] at hget
      simp only [Durable, hld, hu]
      simp only [reduceCtorEq, false_and, and_false, exists_false, or_true, true_and, false_or]
      rw [← hfallback]
      constructor
      · obtain ⟨load, hload⟩ := hreadable
        exact fun h prior hprior => (hget load prior hload) ▸ h load prior hload hprior
      · exact fun h load prior hload hprior => (hget load prior hload).trans (h prior hprior)
    | some u =>
      simp only [hu, Option.elim_some] at hget
      simp only [Durable, hld, hu]
      simp only [reduceCtorEq, or_false, false_and, Option.some.injEq, exists_and_left,
        exists_eq_left']
      constructor
      · obtain ⟨load, hload⟩ := hreadable
        exact fun h => (hget load _ hload) ▸ h load _ hload (Or.inr rfl)
      · exact fun h load prior hload _ => (hget load prior hload).trans h

/-! ### Where the load sees everything -/

/-- A file that is seen to its end shows the whole value. -/
theorem seenValue_of_length_le {key val : Bytes} {ls : List Bytes} {N : ℕ} (hkey : chr '=' ∉ key)
    (hnl : ∀ l ∈ ls, nl ∉ l) (hval : ∀ l ∈ ls, isKeyLine key l = true → l = assignment key val)
    (hone : ∃ l ∈ ls, isKeyLine key l = true) (hlen : (unlines nl ls).length ≤ N) :
    seenValue key val N ls = some val := by
  have hcut := lastSome_take_unlines hkey hnl hval 0 N
  rw [List.take_of_length_le hlen, lines_unlines hnl, Nat.zero_add] at hcut
  rw [seenValue, ← hcut, lastSome]
  obtain ⟨l, hl, hkl⟩ := hone
  have hentry : val ∈ ls.filterMap (entryOf key) :=
    List.mem_filterMap.mpr ⟨l, hl, by rw [hval l hl hkl, entryOf_assignment hkey]⟩
  -- the last of the values is one of them, and they are all the same
  obtain ⟨u, hu⟩ := Option.ne_none_iff_exists'.mp
    (mt List.getLast?_eq_none_iff.mp (List.ne_nil_of_mem hentry))
  obtain ⟨m, hm, hmu⟩ := List.mem_filterMap.mp (List.mem_of_getLast? hu)
  have hkm : isKeyLine key m = true := isKeyLine_iff.mpr ⟨u, (entryOf_eq_some hkey).mp hmu⟩
  rw [hval m hm hkm, entryOf_assignment hkey] at hmu
  rw [hu, hmu]

/-- **The common case.** A number under a key `config_load` knows survives if the update goes
through and its file fits into what a load reads. -/
theorem durable_of_fits {upd : UpdateEnv} {ld : Setter} {file : Option Bytes} {buf : Bytes}
    (hk : setConfigTable.lookup k = some st) (hld : configLoadTable.lookup k = some ld)
    (hparse : ld.parse v = st.parse v) (hv : nl ∉ v)
    (hread : readFile upd.openRd file 8191 = some buf) (hwrite : upd.openWr = true)
    (hfits : (unlines nl (placed k v (lines nl (cstr buf)))).length ≤ min 4095 upd.written) :
    Durable B upd k v st file := by
  obtain ⟨-, -, heq, hknl, -⟩ := setConfigTable_keys _ (lookup_mem hk)
  refine Or.inl ⟨ld, v, hld, ?_, hparse⟩
  rw [reloadedValue, hread]
  show (if upd.openWr then _ else _) = _
  rw [if_pos hwrite]
  refine seenValue_of_length_le heq (fun l hl hc => ?_)
    (fun l hl => eq_assignment_of_mem_placed hl) (exists_mem_placed _ _ _) hfits
  rcases mem_of_mem_placed hl hc with hassign | ⟨m, hm, hcm⟩
  · exact notMem_assignment hknl (by decide) hv hassign
  · exact notMem_of_mem_lines hm hcm

end

/-! ### A setting that is lost -/

/-- A daemon with a short configuration file. -/
def configuredState : Running :=
  ⟨boot shippedBuild (.allOk (some (lit "EBPF_ENABLE=0\n"))), .select⟩

theorem lookup_affinityLevel :
    setConfigTable.lookup (lit "AFFINITY_LEVEL") = some (.atoi .affinityLevel) := by
  rfl

/-- The affinity level is gone with the next reload. -/
theorem affinity_level_lost :
    ¬∀ (B : Build) (s : Running) (env : RequestEnv) (k v r : Bytes) (st : Setter),
      (daemonMachine B).Reachable s → setConfigTable.lookup k = some st →
      received r = lit "SET_CONFIG " ++ (k ++ chr ' ' :: v) →
      ∀ d', socketHandle B env r s.daemon = (some ok, d') →
        ∀ (load : LoadEnv) (prior : DaemonConfig), load.openRd = true →
          prior = d'.cfg ∨ prior = DaemonConfig.zero →
          (configLoad B load d'.conf prior).get st.field = d'.cfg.get st.field := by
  intro h
  set r := lit "SET_CONFIG AFFINITY_LEVEL 3"
  set d' := (socketHandle shippedBuild .allOk r configuredState.daemon).2 with hd'
  have hreply : socketHandle shippedBuild .allOk r configuredState.daemon = (some ok, d') := by
    refine Prod.ext ?_ rfl
    show (socketHandle shippedBuild .allOk (lit "SET_CONFIG AFFINITY_LEVEL 3")
      configuredState.daemon).1 = some ok
    decide
  have hsame := h shippedBuild configuredState .allOk (lit "AFFINITY_LEVEL") (lit "3") r
    (.atoi .affinityLevel) (Machine.Reachable.of_init ⟨_, rfl⟩) lookup_affinityLevel
    (by decide) d' hreply ⟨true, fun _ => true⟩ d'.cfg rfl (Or.inl rfl)
  -- the key is stored in `daemon.conf`, and no load reads it back
  have hlost : (configLoad shippedBuild ⟨true, fun _ => true⟩
      (socketHandle shippedBuild .allOk (lit "SET_CONFIG AFFINITY_LEVEL 3")
        configuredState.daemon).2.conf
      (socketHandle shippedBuild .allOk (lit "SET_CONFIG AFFINITY_LEVEL 3")
        configuredState.daemon).2.cfg).get (.int .affinityLevel) ≠
      (socketHandle shippedBuild .allOk (lit "SET_CONFIG AFFINITY_LEVEL 3")
        configuredState.daemon).2.cfg.get (.int .affinityLevel) := by
    decide
  exact hlost hsame

/-- The rule for that request. -/
theorem setConfig_durable_iff_affinityLevel :
    (∀ d', socketHandle shippedBuild .allOk (lit "SET_CONFIG AFFINITY_LEVEL 3")
        configuredState.daemon = (some ok, d') →
      ∀ (load : LoadEnv) (prior : DaemonConfig), load.openRd = true →
        prior = d'.cfg ∨ prior = DaemonConfig.zero →
        (configLoad shippedBuild load d'.conf prior).get (.int .affinityLevel) =
          d'.cfg.get (.int .affinityLevel)) ↔
      Durable shippedBuild (RequestEnv.allOk).update (lit "AFFINITY_LEVEL") (lit "3")
        (.atoi .affinityLevel) configuredState.daemon.conf :=
  setConfig_durable_iff lookup_affinityLevel (by decide)

end X3D
