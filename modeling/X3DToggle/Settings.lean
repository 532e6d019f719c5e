import X3DToggle.Loop

/-!
# The configuration over a run

Three things change the configuration in memory: a request that stores a value, a load, and the
start of the daemon. `cfg_handle` is the inversion of the request handler as far as the
configuration goes, and `inRange_of_reachable` the first use of it: the `int` fields hold `int`
values in every reachable state.
-/

namespace X3D

/-- The `int` assigned, if one is, is in range. -/
def Store.InRange : Store → Prop
  | int _ z => IsInt32 z
  | dbl _ _ => True
  | str _ _ _ _ => True

instance : (st : Store) → Decidable st.InRange
  | .int _ z => inferInstanceAs (Decidable (IsInt32 z))
  | .dbl _ _ | .str _ _ _ _ => isTrue trivial

/-- The `int` fields hold `int` values. -/
def DaemonConfig.InRange (cfg : DaemonConfig) : Prop := ∀ f, IsInt32 (cfg.int f)

/-- The constants of the generated headers fit their fields. -/
def Build.InRange (B : Build) : Prop := ∀ st ∈ configDefaults B, st.InRange

instance (B : Build) : Decidable B.InRange := inferInstanceAs (Decidable (∀ st ∈ _, _))

section

variable {B : Build} {cfg : DaemonConfig}

theorem DaemonConfig.InRange.store (h : cfg.InRange) {st : Store} (hst : st.InRange) :
    (cfg.store st).InRange := by
  intro f
  cases st with
  | int g z =>
    show IsInt32 (Function.update cfg.int g z f)
    by_cases hf : f = g
    · subst hf
      rwa [Function.update_self]
    · rw [Function.update_of_ne hf]
      exact h f
  | dbl g d => exact h f
  | str g n s hn => exact h f

theorem Setter.inRange_store (st : Setter) (val : Bytes) : (st.store val).InRange := by
  cases st with
  | atoi f => exact isInt32_atoi val
  | atof f => trivial
  | copy f n h => trivial
  | flag f =>
    show IsInt32 (if _ then 1 else 0)
    split <;> decide

theorem DaemonConfig.InRange.loadLine (h : cfg.InRange) (ln : Bytes) :
    (loadLine cfg ln).InRange := by
  unfold X3D.loadLine
  split
  · exact h
  · split
    · exact h
    · split
      · exact h
      · exact h.store (Setter.inRange_store _ _)

theorem DaemonConfig.InRange.configLoad (h : cfg.InRange) (hB : B.InRange) (env : LoadEnv)
    (file : Option Bytes) : (configLoad B env file cfg).InRange := by
  have hdefaults : ∀ (sts : List Store) (cfg : DaemonConfig), (∀ st ∈ sts, st.InRange) →
      cfg.InRange → (sts.foldl DaemonConfig.store cfg).InRange := by
    intro sts
    induction sts with
    | nil => exact fun _ _ hcfg => hcfg
    | cons st sts ih =>
      exact fun cfg hsts hcfg => ih _ (fun st' hst' => hsts st' (List.mem_cons_of_mem st hst'))
        (hcfg.store (hsts st List.mem_cons_self))
  have hlines : ∀ (ls : List Bytes) (cfg : DaemonConfig), cfg.InRange →
      (ls.foldl X3D.loadLine cfg).InRange := by
    intro ls
    induction ls with
    | nil => exact fun _ hcfg => hcfg
    | cons l ls ih => exact fun cfg hcfg => ih _ (hcfg.loadLine l)
  have hstart := hdefaults (configDefaults B)
    { cfg with capabilities := configProbeCapabilities env.access } hB h
  unfold X3D.configLoad
  split
  · exact hstart
  · exact hlines _ _ hstart

end

/-! ### Requests -/

/-- `affinity_set_masks` is the call that writes the masks. -/
def HwCall.isMasks : HwCall → Bool
  | affinityMasks _ _ => true
  | _ => false

/-- The settings, the file, the tracker and the masks stay as they are. -/
structure Untouched (d d' : Daemon) : Prop where
  cfg : d'.cfg = d.cfg
  conf : d'.conf = d.conf
  activeOverride : d'.activeOverride = d.activeOverride
  wrapperLock : d'.wrapperLock = d.wrapperLock
  tracker : d'.bpf = d.bpf ∧ d'.bpfActive = d.bpfActive
  calls : ∃ cs, d'.calls = d.calls ++ cs ∧ ∀ c ∈ cs, c.isMasks = false

/-- What a request does to the configuration. -/
inductive CfgChange (B : Build) (env : RequestEnv) (d d' : Daemon) : Prop where
  /-- It leaves it alone. -/
  | same (h : d'.cfg = d.cfg)
  /-- It stores a value from the request. -/
  | store (st : Store) (hst : st.InRange) (h : d'.cfg = d.cfg.store st)
  /-- It loads the file. -/
  | load (h : d'.cfg = configLoad B env.load d.conf d.cfg)

section

variable {B : Build} {env : RequestEnv} {d : Daemon}

theorem Untouched.rfl : Untouched d d :=
  ⟨Eq.refl _, Eq.refl _, Eq.refl _, Eq.refl _, ⟨Eq.refl _, Eq.refl _⟩, [],
    (List.append_nil _).symm, by simp⟩

theorem Untouched.trans {d' d'' : Daemon} (h : Untouched d d') (h' : Untouched d' d'') :
    Untouched d d'' := by
  obtain ⟨cs, hcs, hmasks⟩ := h.calls
  obtain ⟨cs', hcs', hmasks'⟩ := h'.calls
  refine ⟨h'.cfg.trans h.cfg, h'.conf.trans h.conf, h'.activeOverride.trans h.activeOverride,
    h'.wrapperLock.trans h.wrapperLock, ⟨h'.tracker.1.trans h.tracker.1,
    h'.tracker.2.trans h.tracker.2⟩, cs ++ cs', ?_, ?_⟩
  · rw [hcs', hcs, List.append_assoc]
  · intro c hc
    rcases List.mem_append.mp hc with hc | hc
    · exact hmasks c hc
    · exact hmasks' c hc

theorem untouched_call (env : RequestEnv) {c : HwCall} (hc : c.isMasks = false) :
    Untouched d (d.call env c).2 := by
  refine ⟨rfl, rfl, rfl, rfl, ⟨rfl, rfl⟩, [c], rfl, ?_⟩
  intro c' hc'
  rwa [List.mem_singleton.mp hc']

theorem untouched_setMode (io : ModeIo) (target : Bytes) : Untouched d (d.setMode io target) :=
  ⟨rfl, rfl, rfl, rfl, ⟨rfl, rfl⟩, [], (List.append_nil _).symm, by simp⟩

theorem untouched_intRequest {arg : Bytes} {c : ℤ → HwCall} (hc : ∀ n, (c n).isMasks = false) :
    Untouched d (d.intRequest env arg c).2 := by
  unfold Daemon.intRequest
  split
  · exact untouched_call env (hc _)
  · exact .rfl
  · exact ⟨rfl, rfl, rfl, rfl, ⟨rfl, rfl⟩, [], (List.append_nil _).symm, by simp⟩

theorem untouched_parkCores (is : List ℕ) (ret : ℤ) :
    Untouched d (Daemon.parkCores env is ret d).2 := by
  induction is generalizing ret d with
  | nil => exact .rfl
  | cons i is ih =>
    have hcall : Untouched d (d.call env (.setCore i false)).2 := untouched_call env rfl
    exact hcall.trans (ih _)

theorem untouched_handleSetCppc (val : Bytes) : Untouched d (d.handleSetCppc env val).2 := by
  unfold Daemon.handleSetCppc
  dsimp only
  split
  · exact .rfl
  · split
    · exact untouched_call env rfl
    · exact .rfl

theorem untouched_handleSetPark (val : Bytes) : Untouched d (d.handleSetPark B env val).2 := by
  unfold Daemon.handleSetPark
  split
  · exact untouched_parkCores _ _
  · exact untouched_intRequest fun _ => rfl

theorem untouched_handleSetUnpark (val : Bytes) : Untouched d (d.handleSetUnpark env val).2 := by
  unfold Daemon.handleSetUnpark
  split
  · exact untouched_setMode _ _
  · exact untouched_intRequest fun _ => rfl

theorem untouched_handleSetEppCcd (val : Bytes) : Untouched d (d.handleSetEppCcd env val).2 := by
  unfold Daemon.handleSetEppCcd
  split
  · exact .rfl
  · exact untouched_intRequest fun _ => rfl

theorem untouched_handleAdvancedGet (key : Bytes) :
    Untouched d (d.handleAdvancedGet env key).2 := by
  unfold Daemon.handleAdvancedGet
  split
  · exact .rfl
  · split <;> exact .rfl

theorem cfg_handleSetMode (val : Bytes) : (d.handleSetMode env val).2.cfg = d.cfg := by
  unfold Daemon.handleSetMode
  repeat' split
  all_goals rfl

theorem cfg_handleSetAffinityConfig (val : Bytes) :
    (d.handleSetAffinityConfig env val).2.cfg = d.cfg := by
  unfold Daemon.handleSetAffinityConfig
  split <;> rfl

theorem cfg_handleSetWrapper (val : Bytes) : (d.handleSetWrapper env val).2.cfg = d.cfg := by
  unfold Daemon.handleSetWrapper
  dsimp only
  split <;> rfl

theorem cfg_handleSetDaemon (env : RequestEnv) (d : Daemon) (val : Bytes) :
    (d.handleSetDaemon env val).2.cfg = d.cfg ∨
      (d.handleSetDaemon env val).2.cfg =
        d.cfg.store (.str .daemonState 32 val (by decide)) := by
  unfold Daemon.handleSetDaemon
  split
  · refine Or.inr ?_
    dsimp only
    split
    · rfl
    · by_cases hauto : val = lit "auto"
      · rw [if_pos hauto]
        split <;> rfl
      · rw [if_neg hauto]
        split <;> rfl
  · exact Or.inl rfl

theorem Daemon.followEbpf_conf (env : RequestEnv) (d : Daemon) :
    (d.followEbpf env).conf = d.conf ∧ (d.followEbpf env).cfg = d.cfg := by
  unfold followEbpf
  split
  · exact ⟨rfl, rfl⟩
  · split <;> exact ⟨rfl, rfl⟩

theorem cfg_handleSetConfig (val : Bytes) : CfgChange B env d (d.handleSetConfig env val).2 := by
  unfold Daemon.handleSetConfig
  split
  · exact .same rfl
  next k v _ =>
    dsimp only
    split
    · exact .same rfl
    next st _ =>
      refine .store (st.store v) (st.inRange_store v) ?_
      dsimp only
      split
      · exact (Daemon.followEbpf_conf env _).2
      · rfl

theorem cfg_handleAdvancedSet (arg : Bytes) :
    CfgChange B env d (d.handleAdvancedSet env arg).2 := by
  unfold Daemon.handleAdvancedSet
  split
  · exact .same rfl
  next key val _ =>
    split
    · exact .same rfl
    next t _ =>
      refine .store (t.setter.store val) (t.setter.inRange_store val) ?_
      dsimp only
      split <;> rfl

/-- **What a branch does to the configuration.** -/
theorem cfg_handle (verb : Verb) (arg : Bytes) : CfgChange B env d (d.handle B env verb arg).2 := by
  cases verb with
  | setMode => exact .same (cfg_handleSetMode arg)
  | setAffinityConfig => exact .same (cfg_handleSetAffinityConfig arg)
  | setCppc => exact .same (untouched_handleSetCppc arg).cfg
  | setPark => exact .same (untouched_handleSetPark arg).cfg
  | setUnpark => exact .same (untouched_handleSetUnpark arg).cfg
  | setTdp => exact .same (untouched_intRequest fun _ => rfl).cfg
  | setEppCcd => exact .same (untouched_handleSetEppCcd arg).cfg
  | setDaemon =>
    rcases cfg_handleSetDaemon env d arg with h | h
    · exact .same h
    · exact .store (.str .daemonState 32 arg (by decide)) trivial h
  | setConfig => exact cfg_handleSetConfig arg
  | setWrapper => exact .same (cfg_handleSetWrapper arg)
  | configSync => exact .load rfl
  | advancedGet => exact .same (untouched_handleAdvancedGet arg).cfg
  | advancedSet => exact cfg_handleAdvancedSet arg
  | ping | mode | daemonInfo | getConfig | toggle | getTopology | setBoost | setEpp | setPstate
  | setGovernor | setPrefcore | daemonDisable | gamesList => exact .same rfl

/-- What a request does to the configuration. -/
theorem cfg_socketHandle (B : Build) (env : RequestEnv) (r : Bytes) (d : Daemon) :
    CfgChange B env d (socketHandle B env r d).2 := by
  unfold socketHandle
  split
  · exact .same rfl
  · split
    · exact .same rfl
    · exact cfg_handle _ _

end

/-! ### Reachable states -/

section

variable {B : Build} {s s' : Running} {i : Input}

theorem inRange_boot (hB : B.InRange) (env : BootEnv) : (boot B env).cfg.InRange := by
  have hzero : DaemonConfig.zero.InRange := fun _ => (by decide : IsInt32 0)
  have hload := hzero.configLoad hB env.load env.conf
  unfold boot
  dsimp only
  -- neither the tracker nor a write to the node matters, and an empty state is a string
  split <;> split <;> split <;> exact hload

theorem inRange_step (hB : B.InRange) (h : s.daemon.cfg.InRange)
    (hstep : (daemonMachine B).step i s = some s') : s'.daemon.cfg.InRange := by
  cases hi : i.request? with
  | none =>
    rcases step_cases hi hstep with ⟨env, -, hpoll⟩ | ⟨env, r, -, hpoll⟩ | ⟨hcfg, -, -⟩
    · rw [hpoll, Daemon.sameSettings_pollingRun.cfg]
      exact h
    · rw [hpoll]
      have hpolled : (s.daemon.pollingRun env).cfg.InRange := by
        rw [Daemon.sameSettings_pollingRun.cfg]
        exact h
      exact hpolled.configLoad hB _ _
    · rw [hcfg]
      exact h
  | some r =>
    obtain ⟨env, hs'⟩ := exists_request_step hi hstep
    rw [hs']
    cases cfg_socketHandle B env r s.daemon with
    | same hcfg => rw [hcfg]; exact h
    | store st hst hcfg => rw [hcfg]; exact h.store hst
    | load hcfg => rw [hcfg]; exact h.configLoad hB _ _

/-- **Invariant.** In every reachable state the `int` fields hold `int` values. -/
theorem inRange_of_reachable (hB : B.InRange) (h : (daemonMachine B).Reachable s) :
    s.daemon.cfg.InRange := by
  obtain ⟨s₀, is, ⟨env, rfl⟩, hrun⟩ := h
  exact Machine.run_induction (P := fun t : Running => t.daemon.cfg.InRange)
    (fun _ _ _ _ hP hstep => inRange_step hB hP hstep) (inRange_boot hB env) hrun

end

end X3D
