import X3DToggle.Affinity
import X3DToggle.Settings

/-!
# Rejected requests

A client that reads `ERR` may take it that its request left everything as it was. Most branches
of the handler keep to that: they check before they act, or act on the hardware alone. Three do
not (`err_unchanged_iff`):

* `SET_AFFINITY_CONFIG` writes two masks and keeps the first if the second is refused;
* `SET_DAEMON auto` updates the file and stores the state before it forks the reset script;
* `ADVANCED_SET` stores the value before it writes the sysctl file.

`Host` is the daemon with the two masks next to it. The handler hands the masks on to
`affinity_set_masks`, so the result of that call is taken from the writes and not from the
environment.
-/

namespace X3D

/-- The daemon and the masks of its partitions. -/
structure Host where
  daemon : Daemon
  masks : Masks

/-- What a call of the handler does to the masks. -/
def HwCall.onMasks (cg : CgroupEnv) (m : Masks) : HwCall → Masks
  | affinityMasks cache freq => (affinitySetMasks cg cache freq m).2
  | _ => m

/-- The environment in which `affinity_set_masks` does its writes. -/
def RequestEnv.withMasks (env : RequestEnv) (cg : CgroupEnv) (m : Masks) : RequestEnv :=
  { env with
    hw := fun c => match c with
      | .affinityMasks cache freq => (affinitySetMasks cg cache freq m).1
      | c => env.hw c }

/-- `socket_handle` on a machine with masks. -/
def Host.socketHandle (B : Build) (env : RequestEnv) (cg : CgroupEnv) (r : Bytes) (h : Host) :
    Option Bytes × Host :=
  let (reply, d) := X3D.socketHandle B (env.withMasks cg h.masks) r h.daemon
  -- the calls of this request come after those recorded before
  (reply, ⟨d, (d.calls.drop h.daemon.calls.length).foldl (HwCall.onMasks cg) h.masks⟩)

/-- The configuration, the override, the lock, the file and the masks are the same. -/
structure Host.Unchanged (h h' : Host) : Prop where
  cfg : h'.daemon.cfg = h.daemon.cfg
  activeOverride : h'.daemon.activeOverride = h.daemon.activeOverride
  wrapperLock : h'.daemon.wrapperLock = h.daemon.wrapperLock
  conf : h'.daemon.conf = h.daemon.conf
  masks : h'.masks = h.masks

/-- An update that finds nothing to change: the file cannot be read or written, or it holds
already what the update would leave. -/
def UpdateEnv.Keeps (env : UpdateEnv) (key val : Bytes) (file : Option Bytes) : Prop :=
  ∀ buf, readFile env.openRd file 8191 = some buf → env.openWr = true →
    file = some ((configUpdateText key val buf).take env.written)

theorem configUpdate_eq_self_iff {env : UpdateEnv} {key val : Bytes} {file : Option Bytes} :
    configUpdate env key val file = file ↔ env.Keeps key val file := by
  unfold configUpdate UpdateEnv.Keeps
  cases hread : readFile env.openRd file 8191 with
  | none => simp
  | some buf =>
    by_cases hwr : env.openWr = true
    · simp only [hwr, if_true, Option.some.injEq, forall_eq', true_imp_iff]
      exact eq_comm
    · simp [hwr]

/-- **When `ERR` is safe.** The condition on a request, the outcomes of its calls and the state
before it. -/
def ErrSafe (env : RequestEnv) (cg : CgroupEnv) (r : Bytes) (h : Host) : Prop :=
  match dispatch (received r) with
  | some (.setAffinityConfig, n) =>
    ∀ cache freq, strchr ((received r).drop n) (chr ' ') = some (cache, freq) →
      ((cg.cache.Takes ∧ cache ≠ []) ∧ (cg.frequency.Takes ∧ freq ≠ [])) ∨
      (cg.cache.Keeps cache h.masks.cache ∧ cg.frequency.Keeps freq h.masks.frequency)
  | some (.setDaemon, n) =>
    (received r).drop n = lit "auto" → env.fork = true ∨
      (env.update.Keeps (lit "DAEMON_STATE") (lit "auto") h.daemon.conf ∧
        h.daemon.cfg.get (.str .daemonState) = .str (lit "auto"))
  | some (.advancedSet, n) =>
    ∀ key val t, strchr ((received r).drop n) (chr ' ') = some (key, val) →
      Daemon.advancedTable.lookup key = some t →
      env.hw (.sysctlWrite t.path val) = 0 ∨ h.daemon.cfg.get t.setter.field = t.setter.parse val
  | _ => True

/-! ### Branches that act on the hardware alone -/

section

variable {B : Build} {env : RequestEnv} {cg : CgroupEnv} {h : Host} {d : Daemon}

/-- No call on the masks, no change of the masks. -/
theorem foldl_onMasks {cs : List HwCall} (hcs : ∀ c ∈ cs, c.isMasks = false) (m : Masks) :
    cs.foldl (HwCall.onMasks cg) m = m := by
  induction cs with
  | nil => rfl
  | cons c cs ih =>
    have hc : HwCall.onMasks cg m c = m := by
      have := hcs c List.mem_cons_self
      cases c <;> first | rfl | exact absurd this (by simp [HwCall.isMasks])
    rw [List.foldl_cons, hc]
    exact ih fun c' hc' => hcs c' (List.mem_cons_of_mem c hc')

/-- The host after a request that leaves the daemon in state `d`. -/
def Host.after (cg : CgroupEnv) (h : Host) (d : Daemon) : Host :=
  ⟨d, (d.calls.drop h.daemon.calls.length).foldl (HwCall.onMasks cg) h.masks⟩

theorem Untouched.unchanged (hd : Untouched h.daemon d) : h.Unchanged (h.after cg d) := by
  obtain ⟨cs, hcs, hmasks⟩ := hd.calls
  refine ⟨hd.cfg, hd.activeOverride, hd.wrapperLock, hd.conf, ?_⟩
  show (d.calls.drop h.daemon.calls.length).foldl (HwCall.onMasks cg) h.masks = h.masks
  rw [hcs, List.drop_left]
  exact foldl_onMasks hmasks h.masks

/-- A branch other than the three that says `ERR` has touched nothing. -/
theorem untouched_of_err {verb : Verb} {arg : Bytes} (hmasks : verb ≠ .setAffinityConfig)
    (hdaemon : verb ≠ .setDaemon) (hadvanced : verb ≠ .advancedSet)
    (herr : (d.handle B env verb arg).1 = err) : Untouched d (d.handle B env verb arg).2 := by
  cases verb with
  | setAffinityConfig => exact absurd rfl hmasks
  | setDaemon => exact absurd rfl hdaemon
  | advancedSet => exact absurd rfl hadvanced
  | ping | daemonInfo | getConfig | getTopology | gamesList => exact .rfl
  | mode => exact ⟨rfl, rfl, rfl, rfl, ⟨rfl, rfl⟩, [], (List.append_nil _).symm, by simp⟩
  | toggle | daemonDisable | configSync => exact absurd herr ok_ne_err
  | setMode =>
    -- every mode it knows is answered with `OK`
    revert herr
    show (d.handleSetMode env arg).1 = err → Untouched d (d.handleSetMode env arg).2
    unfold Daemon.handleSetMode
    repeat' split
    all_goals first | exact fun herr => absurd herr ok_ne_err | exact fun _ => .rfl
  | setWrapper =>
    revert herr
    show (d.handleSetWrapper env arg).1 = err → Untouched d (d.handleSetWrapper env arg).2
    unfold Daemon.handleSetWrapper
    dsimp only
    split <;> exact fun herr => absurd herr ok_ne_err
  | setConfig =>
    revert herr
    show (d.handleSetConfig env arg).1 = err → Untouched d (d.handleSetConfig env arg).2
    unfold Daemon.handleSetConfig
    split
    · exact fun _ => .rfl
    · dsimp only
      split <;> exact fun herr => absurd herr ok_ne_err
  | setCppc => exact untouched_handleSetCppc arg
  | setPark => exact untouched_handleSetPark arg
  | setUnpark => exact untouched_handleSetUnpark arg
  | setTdp => exact untouched_intRequest fun _ => rfl
  | setEppCcd => exact untouched_handleSetEppCcd arg
  | advancedGet => exact untouched_handleAdvancedGet arg
  | setBoost | setEpp | setPstate | setGovernor | setPrefcore => exact untouched_call env rfl

/-! ### The three branches that do not wait -/

theorem err_setAffinityConfig_iff (arg : Bytes) :
    ((h.daemon.handleSetAffinityConfig (env.withMasks cg h.masks) arg).1 = err →
      h.Unchanged (h.after cg
        (h.daemon.handleSetAffinityConfig (env.withMasks cg h.masks) arg).2)) ↔
      ∀ cache freq, strchr arg (chr ' ') = some (cache, freq) →
        ((cg.cache.Takes ∧ cache ≠ []) ∧ (cg.frequency.Takes ∧ freq ≠ [])) ∨
        (cg.cache.Keeps cache h.masks.cache ∧ cg.frequency.Keeps freq h.masks.frequency) := by
  unfold Daemon.handleSetAffinityConfig
  cases hcut : strchr arg (chr ' ') with
  | none => exact iff_of_true (fun _ => Untouched.rfl.unchanged) (by simp)
  | some p =>
    obtain ⟨cache, freq⟩ := p
    -- the masks after the request are those after the call
    have hmasks : (h.after cg (h.daemon.call env (.affinityMasks cache freq)).2).masks =
        (affinitySetMasks cg cache freq h.masks).2 := by
      show ((h.daemon.calls ++ [_]).drop _).foldl (HwCall.onMasks cg) h.masks = _
      rw [List.drop_left]
      rfl
    have hunchanged : h.Unchanged (h.after cg (h.daemon.call env (.affinityMasks cache freq)).2) ↔
        cg.cache.Keeps cache h.masks.cache ∧ cg.frequency.Keeps freq h.masks.frequency := by
      rw [← affinitySetMasks_keeps_iff, ← hmasks]
      exact ⟨fun hsame => hsame.masks, fun hsame => ⟨rfl, rfl, rfl, rfl, hsame⟩⟩
    have hreply : replyOf (affinitySetMasks cg cache freq h.masks).1 = err ↔
        ¬((cg.cache.Takes ∧ cache ≠ []) ∧ (cg.frequency.Takes ∧ freq ≠ [])) := by
      rw [← affinitySetMasks_ok_iff (m := h.masks), replyOf]
      split
      next hret => exact iff_of_false ok_ne_err (not_not.mpr hret)
      next hret => exact iff_of_true rfl hret
    show (replyOf (affinitySetMasks cg cache freq h.masks).1 = err →
      h.Unchanged (h.after cg (h.daemon.call env (.affinityMasks cache freq)).2)) ↔ _
    rw [hreply, hunchanged]
    constructor
    · intro hkeeps cache' freq' hcut'
      obtain ⟨rfl, rfl⟩ := Prod.mk.inj (Option.some.inj hcut')
      exact or_iff_not_imp_left.mpr hkeeps
    · intro hsafe
      exact or_iff_not_imp_left.mp (hsafe cache freq rfl)

/-- A branch that stores a value and perhaps updates the file, and then says `ERR`. -/
theorem unchanged_store_iff (cg : CgroupEnv) (h : Host) (st : Store) (conf : Option Bytes)
    {cs : List HwCall} (hcs : ∀ c ∈ cs, c.isMasks = false) :
    h.Unchanged (h.after cg { h.daemon with
        cfg := h.daemon.cfg.store st, conf := conf, calls := h.daemon.calls ++ cs }) ↔
      conf = h.daemon.conf ∧ h.daemon.cfg.get st.field = st.value := by
  rw [← DaemonConfig.store_eq_self_iff]
  constructor
  · exact fun hsame => ⟨hsame.conf, hsame.cfg⟩
  · rintro ⟨hconf, hcfg⟩
    refine ⟨hcfg, rfl, rfl, hconf, ?_⟩
    show ((h.daemon.calls ++ cs).drop _).foldl (HwCall.onMasks cg) h.masks = h.masks
    rw [List.drop_left]
    exact foldl_onMasks hcs h.masks

theorem err_setDaemon_iff (arg : Bytes) :
    ((h.daemon.handleSetDaemon env arg).1 = err →
      h.Unchanged (h.after cg (h.daemon.handleSetDaemon env arg).2)) ↔
      (arg = lit "auto" → env.fork = true ∨
        (env.update.Keeps (lit "DAEMON_STATE") (lit "auto") h.daemon.conf ∧
          h.daemon.cfg.get (.str .daemonState) = .str (lit "auto"))) := by
  unfold Daemon.handleSetDaemon
  by_cases hauto : arg = lit "auto"
  · subst hauto
    rw [if_pos (Or.inr (Or.inl rfl))]
    by_cases hfork : env.fork = true
    · -- the script is started
      simp only [hfork, Bool.not_true, Bool.false_eq_true, and_false, if_false]
      exact iff_of_true (fun herr => absurd herr ok_ne_err) fun _ => Or.inl trivial
    · simp only [Bool.eq_false_of_not_eq_true hfork, Bool.not_false, and_true, if_true]
      have hstore := unchanged_store_iff cg h (.str .daemonState 32 (lit "auto") (by decide))
        (configUpdate env.update (lit "DAEMON_STATE") (lit "auto") h.daemon.conf)
        (List.forall_mem_nil _)
      rw [List.append_nil, configUpdate_eq_self_iff] at hstore
      simp only [true_imp_iff, Bool.false_eq_true, false_or]
      exact hstore
  · -- no other state runs the script, and an unknown one is left alone
    refine iff_of_true (fun herr => ?_) fun h => absurd h hauto
    by_cases hknown : arg = lit "manual" ∨ arg = lit "auto" ∨ arg = lit "default"
    · rw [if_pos hknown] at herr
      simp only [hauto, false_and, if_false] at herr
      exact absurd herr ok_ne_err
    · rw [if_neg hknown]
      exact Untouched.rfl.unchanged

theorem err_advancedSet_iff (arg : Bytes) :
    ((h.daemon.handleAdvancedSet env arg).1 = err →
      h.Unchanged (h.after cg (h.daemon.handleAdvancedSet env arg).2)) ↔
      ∀ key val t, strchr arg (chr ' ') = some (key, val) →
        Daemon.advancedTable.lookup key = some t →
        env.hw (.sysctlWrite t.path val) = 0 ∨
          h.daemon.cfg.get t.setter.field = t.setter.parse val := by
  unfold Daemon.handleAdvancedSet
  cases hcut : strchr arg (chr ' ') with
  | none => exact iff_of_true (fun _ => Untouched.rfl.unchanged) (by simp)
  | some p =>
    obtain ⟨key, val⟩ := p
    cases hlookup : Daemon.advancedTable.lookup key with
    | none =>
      refine iff_of_true (fun _ => ?_) ?_
      · simp only [hlookup]
        exact Untouched.rfl.unchanged
      · intro key' val' t hcut' hlookup'
        obtain ⟨rfl, rfl⟩ := Prod.mk.inj (Option.some.inj hcut')
        exact absurd (hlookup.symm.trans hlookup') (by simp)
    | some t =>
      -- the request names one tunable
      have hone : (∀ key' val' t', some (key, val) = some (key', val') →
          Daemon.advancedTable.lookup key' = some t' →
          env.hw (.sysctlWrite t'.path val') = 0 ∨
            h.daemon.cfg.get t'.setter.field = t'.setter.parse val') ↔
          (env.hw (.sysctlWrite t.path val) = 0 ∨
            h.daemon.cfg.get t.setter.field = t.setter.parse val) := by
        constructor
        · intro hsafe
          exact hsafe key val t rfl hlookup
        · intro hsafe key' val' t' hcut' hlookup'
          obtain ⟨rfl, rfl⟩ := Prod.mk.inj (Option.some.inj hcut')
          obtain rfl := Option.some.inj (hlookup.symm.trans hlookup')
          exact hsafe
      rw [hone]
      have hcs : ∀ c ∈ [HwCall.sysctlWrite t.path val], c.isMasks = false := by
        simp [HwCall.isMasks]
      have hstore := unchanged_store_iff cg h (t.setter.store val) h.daemon.conf hcs
      rw [Setter.field_store] at hstore
      simp only [hlookup, Daemon.call]
      -- it is rejected if the write fails, and the setting is stored all the same
      by_cases hret : env.hw (.sysctlWrite t.path val) = 0
      · simp only [hret, if_true, true_or, iff_true]
        exact fun herr => absurd herr ok_ne_err
      · simp only [hret, if_false, false_or, true_imp_iff]
        exact hstore.trans (and_iff_right rfl)

end

/-- **An `ERR` and the state.** A request that is answered `ERR` has changed nothing, exactly
if it is not one of those that act before the step that fails. -/
theorem err_unchanged_iff (B : Build) (env : RequestEnv) (cg : CgroupEnv) (r : Bytes) (h : Host) :
    ((h.socketHandle B env cg r).1 = some err → h.Unchanged (h.socketHandle B env cg r).2) ↔
      ErrSafe env cg r h := by
  unfold Host.socketHandle
  by_cases hr : r = []
  · -- nothing was received
    subst hr
    refine iff_of_true (fun herr => ?_) ?_
    · exact absurd herr (by simp [X3D.socketHandle])
    · have hnone : dispatch (received []) = none := by decide
      simp [ErrSafe, hnone]
  · cases hdispatch : dispatch (received r) with
    | none =>
      simp only [X3D.socketHandle, hr, if_false, hdispatch, ErrSafe, iff_true]
      exact fun _ => Untouched.rfl.unchanged
    | some p =>
      obtain ⟨verb, n⟩ := p
      simp only [X3D.socketHandle, hr, if_false, hdispatch, Option.some.injEq, ErrSafe]
      by_cases hmasks : verb = .setAffinityConfig
      · subst hmasks
        exact err_setAffinityConfig_iff _
      · by_cases hdaemon : verb = .setDaemon
        · subst hdaemon
          exact err_setDaemon_iff _
        · by_cases hadvanced : verb = .advancedSet
          · subst hadvanced
            exact err_advancedSet_iff _
          · have hsafe : ((h.daemon.handle B (env.withMasks cg h.masks) verb
                ((received r).drop n)).1 = err →
                h.Unchanged (h.after cg (h.daemon.handle B (env.withMasks cg h.masks) verb
                  ((received r).drop n)).2)) :=
              fun herr => (untouched_of_err hmasks hdaemon hadvanced herr).unchanged
            refine iff_of_true hsafe ?_
            cases verb <;> trivial

/-! ### A value that stays behind -/

/-- A request whose calls on the hardware all fail. -/
def RequestEnv.hwFails : RequestEnv := { RequestEnv.allOk with hw := fun _ => errIo }

/-- Both masks can be written. -/
def CgroupEnv.allOk : CgroupEnv where
  cache := ⟨true, true, id⟩
  frequency := ⟨true, true, id⟩

/-- The sysctl file cannot be written, and yet the field has the new value. -/
theorem rejected_setting_stored :
    ¬∀ (B : Build) (s : Running) (m : Masks) (env : RequestEnv) (cg : CgroupEnv) (r : Bytes),
      (daemonMachine B).Reachable s →
      (Host.socketHandle B env cg r ⟨s.daemon, m⟩).1 = some err →
        Host.Unchanged ⟨s.daemon, m⟩ (Host.socketHandle B env cg r ⟨s.daemon, m⟩).2 := by
  intro h
  set s : Running := ⟨boot shippedBuild (.allOk none), .select⟩ with hs
  set r := lit "ADVANCED_SET kernel.sched_bore 1" with hr
  have hreachable : (daemonMachine shippedBuild).Reachable s := Machine.Reachable.of_init ⟨_, rfl⟩
  have herr : (Host.socketHandle shippedBuild .hwFails .allOk r ⟨s.daemon, ⟨[], []⟩⟩).1 =
      some err := by
    rw [hs, hr]
    decide
  have hcfg := (h _ s ⟨[], []⟩ .hwFails .allOk r hreachable herr).cfg
  have hbefore : s.daemon.cfg.int .schedBore = 0 := by
    rw [hs]
    decide
  have hafter : (Host.socketHandle shippedBuild .hwFails .allOk r
      ⟨s.daemon, ⟨[], []⟩⟩).2.daemon.cfg.int .schedBore = 1 := by
    rw [hs, hr]
    decide
  rw [hcfg, hbefore] at hafter
  exact absurd hafter (by decide)

end X3D
