import X3DToggle.Decimal
import X3DToggle.Loop

/-!
# Back to automation

Three commands promise to put the daemon back in charge: `daemon wake`, `mode default` and
`mode reset`. Each is a series of requests (`Command.requests`), and `default` first writes five
keys of `daemon.conf`. Between the requests of a command the daemon polls, and other processes
go on.

What a poll selects is decided by three variables, `daemon_state`, `active_override` and
`wrapper_lock`, which are `Daemon.controls`. Nothing but a request or a reload changes them
(`controls_step`), so each command is a function on the controls (`Command.controls_run`):

* `wake` and `default` set `daemon_state` to `default` and clear the override, and then send
  `SET_MODE frequency`, which sets the override to `frequency` again;
* `reset` clears the override and leaves `daemon_state`.
-/

namespace X3D

/-! ### The commands -/

/-- The commands that return to automation. -/
inductive Command where
  /-- `cli_daemon_wake`. -/
  | wake
  /-- `cli_mode_default`. -/
  | default
  /-- `cli_mode_reset`, when its request goes through. -/
  | reset
  deriving DecidableEq

namespace Command

/-- The calls of `config_update` before the first request. -/
def updates (B : Build) : Command → List (Bytes × Bytes)
  | wake | reset => []
  | default =>
    [(lit "DAEMON_STATE", lit "default"),
     (lit "POLLING_INTERVAL", decimal B.pollingInterval),
     (lit "LOAD_THRESHOLD", B.loadThresholdText),
     (lit "DETECTION_LEVEL", decimal B.detectionLevel),
     (lit "EBPF_ENABLE", decimal B.ebpfEnable)]

/-- The requests, in order. -/
def requests : Command → List Bytes
  | wake | default => [lit "CONFIG_SYNC", lit "SET_DAEMON default", lit "SET_MODE frequency"]
  | reset => [lit "SET_MODE reset"]

/-- The daemon and its files when the command sends its first request. -/
def start (B : Build) (c : Command) (env : Bytes → UpdateEnv) (s : Running) : Running :=
  { s with daemon := { s.daemon with
      conf := (c.updates B).foldl (fun file u => configUpdate (env u.1) u.1 u.2 file)
        s.daemon.conf } }

end Command

/-- The input is not a poll that ends in a reload. -/
def Input.NoReload : Input → Prop
  | .poll _ (some _) => False
  | _ => True

/-! ### What a poll depends on -/

/-- The variables that decide between the lock, automation and suspension. -/
structure Controls where
  /-- `cfg.daemon_state`. -/
  state : Bytes
  /-- `active_override`. -/
  override : ℤ
  /-- `wrapper_lock`. -/
  lock : ℤ

namespace Daemon

variable {d : Daemon}

/-- The controls of a daemon. -/
def controls (d : Daemon) : Controls :=
  ⟨(d.cfg.str .daemonState).val, d.activeOverride, d.wrapperLock⟩

/-- **What a poll selects**, from its controls and the detection. -/
theorem selects_eq (d : Daemon) (env : PollEnv) :
    d.selects env =
      if d.controls.lock ≠ 0 then none
      else if d.controls.override < 3 ∧ d.controls.state = lit "default" then
        some (if d.controls.override = 1 then lit "cache"
          else if d.controls.override = 2 then lit "frequency"
          else if d.gameDetected env then lit "cache" else lit "frequency")
      else none :=
  rfl

/-- A poll that selects a target leaves it in `target`. -/
theorem pollingRun_target {env : PollEnv} {t : Bytes} (h : d.selects env = some t) :
    (d.pollingRun env).target = copy32 t := by
  unfold selects at h
  split at h
  · exact absurd h (by simp)
  next hlock =>
  split at h
  next hauto =>
    obtain rfl := Option.some.inj h
    rw [pollingRun_automated (not_not.mp hlock) hauto, applyTarget]
    split <;> rfl
  · exact absurd h (by simp)

end Daemon

theorem SameSettings.controls {d d' : Daemon} (h : SameSettings d d') :
    d'.controls = d.controls := by
  unfold Daemon.controls
  rw [h.cfg, h.activeOverride, h.wrapperLock]

/-- **Frame.** Only requests and reloads change the controls. -/
theorem controls_step {B : Build} {i : Input} {s s' : Running} (hreq : i.request? = none)
    (hload : i.NoReload) (h : (daemonMachine B).step i s = some s') :
    s'.daemon.controls = s.daemon.controls := by
  rcases step_cases hreq h with ⟨env, -, hpoll⟩ | ⟨env, r, rfl, -⟩ | ⟨hcfg, hoverride, hlock⟩
  · rw [hpoll]
    exact Daemon.sameSettings_pollingRun.controls
  · exact absurd hload id
  · unfold Daemon.controls
    rw [hcfg, hoverride, hlock]

theorem controls_run {B : Build} {is : List Input} {s s' : Running}
    (hreq : ∀ i ∈ is, i.request? = none) (hload : ∀ i ∈ is, i.NoReload)
    (h : (daemonMachine B).run is s = some s') : s'.daemon.controls = s.daemon.controls :=
  Machine.run_induction (P := fun t => t.daemon.controls = s.daemon.controls)
    (fun i hi _ _ hP hstep => (controls_step (hreq i hi) (hload i hi) hstep).trans hP) rfl h

/-! ### What a request does to the controls -/

section

variable (B : Build) (env : RequestEnv) (d : Daemon)

theorem controls_configSync :
    ∃ state, (socketHandle B env (lit "CONFIG_SYNC") d).2.controls =
      ⟨state, d.activeOverride, d.wrapperLock⟩ := by
  rw [socketHandle_of_dispatch .configSync 11 (by decide)
    (by decide)]
  exact ⟨_, rfl⟩

theorem controls_setDaemon :
    (socketHandle B env (lit "SET_DAEMON default") d).2.controls =
      ⟨lit "default", 0, d.wrapperLock⟩ := by
  have hval : (received (lit "SET_DAEMON default")).drop 11 = lit "default" := by decide
  have hauto : lit "default" ≠ lit "auto" := by decide
  have htake : (lit "default").take 31 = lit "default" := by decide
  have hstore (c : DaemonConfig) :
      ((c.store (.str .daemonState 32 (lit "default") (by decide))).str .daemonState).val =
        lit "default" := by
    simp [DaemonConfig.store, htake]
  rw [socketHandle_of_dispatch .setDaemon 11 (by decide)
    (by decide), hval]
  simp only [Daemon.handle, Daemon.handleSetDaemon, or_true, if_true, hauto, false_and, if_false,
    and_true]
  -- an override that is set is cleared, and one that is clear stays so
  split
  next hset => exact congrArg (Controls.mk · 0 d.wrapperLock) (hstore _)
  next hclear =>
    exact congrArg₂ (Controls.mk · · d.wrapperLock) (hstore _) (not_not.mp hclear)

theorem controls_setMode_frequency :
    (socketHandle B env (lit "SET_MODE frequency") d).2.controls =
      ⟨(d.cfg.str .daemonState).val, 2, d.wrapperLock⟩ := by
  have hval : (received (lit "SET_MODE frequency")).drop 9 = lit "frequency" := by decide
  rw [socketHandle_of_dispatch .setMode 9 (by decide)
    (by decide), hval, Daemon.handle, Daemon.handleSetMode, if_neg (by decide),
    if_neg (by decide), if_pos (by decide)]
  rfl

theorem controls_setMode_reset :
    (socketHandle B env (lit "SET_MODE reset") d).2.controls =
      ⟨(d.cfg.str .daemonState).val, 0, d.wrapperLock⟩ := by
  have hval : (received (lit "SET_MODE reset")).drop 9 = lit "reset" := by decide
  rw [socketHandle_of_dispatch .setMode 9 (by decide)
    (by decide), hval, Daemon.handle, Daemon.handleSetMode, if_pos (by decide)]
  rfl

end

/-! ### What a command does to the controls -/

/-- The controls after a command. -/
def Command.result (c : Command) (k : Controls) : Controls :=
  match c with
  | .wake | .default => ⟨lit "default", 2, k.lock⟩
  | .reset => ⟨k.state, 0, k.lock⟩

section

variable {B : Build} {is : List Input} {s s' : Running}

/-- A run up to its next request: the controls when it comes in, and the rest of the run. -/
theorem exists_next_request {r : Bytes} {rs : List Bytes}
    (h : (daemonMachine B).run is s = some s') (hreqs : is.filterMap Input.request? = r :: rs)
    (hload : ∀ i ∈ is, i.NoReload) :
    ∃ (d : Daemon) (env : RequestEnv) (is' : List Input) (t : Running),
      d.controls = s.daemon.controls ∧ t.daemon = (socketHandle B env r d).2 ∧
      (daemonMachine B).run is' t = some s' ∧ is'.filterMap Input.request? = rs ∧
      ∀ i ∈ is', i.NoReload := by
  obtain ⟨is₁, i, is₂, u, t, rfl, hquiet, hi, hrs, hbefore, hstep, hafter⟩ :=
    Machine.run_split h hreqs
  obtain ⟨env, ht⟩ := exists_request_step hi hstep
  have hcontrols := controls_run hquiet
    (fun j hj => hload j (List.mem_append_left _ hj)) hbefore
  exact ⟨u.daemon, env, is₂, t, hcontrols, ht, hafter, hrs,
    fun j hj => hload j (List.mem_append_right _ (List.mem_cons_of_mem i hj))⟩

/-- The controls at the end of a run without requests. -/
theorem controls_rest (h : (daemonMachine B).run is s = some s')
    (hreqs : is.filterMap Input.request? = []) (hload : ∀ i ∈ is, i.NoReload) :
    s'.daemon.controls = s.daemon.controls :=
  controls_run (List.filterMap_eq_nil_iff.mp hreqs) hload h

/-- **Run lemma.** The controls after a command and any polls among and after its requests. -/
theorem Command.controls_run (c : Command) (h : (daemonMachine B).run is s = some s')
    (hreqs : is.filterMap Input.request? = c.requests) (hload : ∀ i ∈ is, i.NoReload) :
    s'.daemon.controls = c.result s.daemon.controls := by
  have hthree (hreqs : is.filterMap Input.request? =
      [lit "CONFIG_SYNC", lit "SET_DAEMON default", lit "SET_MODE frequency"]) :
      s'.daemon.controls = ⟨lit "default", 2, s.daemon.controls.lock⟩ := by
    obtain ⟨d₁, env₁, is₁, t₁, hd₁, ht₁, hrun₁, hreqs₁, hload₁⟩ :=
      exists_next_request h hreqs hload
    obtain ⟨d₂, env₂, is₂, t₂, hd₂, ht₂, hrun₂, hreqs₂, hload₂⟩ :=
      exists_next_request hrun₁ hreqs₁ hload₁
    obtain ⟨d₃, env₃, is₃, t₃, hd₃, ht₃, hrun₃, hreqs₃, hload₃⟩ :=
      exists_next_request hrun₂ hreqs₂ hload₂
    -- the first request leaves the lock, the second sets the state, the third the override
    obtain ⟨state, hsync⟩ := controls_configSync B env₁ d₁
    rw [ht₁, hsync] at hd₂
    rw [ht₂, controls_setDaemon] at hd₃
    rw [controls_rest hrun₃ hreqs₃ hload₃, ht₃, controls_setMode_frequency]
    have hstate : (d₃.cfg.str .daemonState).val = lit "default" := congrArg Controls.state hd₃
    have hlock : d₃.wrapperLock = s.daemon.controls.lock :=
      calc d₃.wrapperLock = d₂.wrapperLock := congrArg Controls.lock hd₃
        _ = d₁.wrapperLock := congrArg Controls.lock hd₂
        _ = s.daemon.controls.lock := congrArg Controls.lock hd₁
    rw [hstate, hlock]
  cases c with
  | wake => exact hthree hreqs
  | default => exact hthree hreqs
  | reset =>
    obtain ⟨d₁, env₁, is₁, t₁, hd₁, ht₁, hrun₁, hreqs₁, hload₁⟩ :=
      exists_next_request h hreqs hload
    rw [controls_rest hrun₁ hreqs₁ hload₁, ht₁, controls_setMode_reset]
    exact congrArg (fun k : Controls => (⟨k.state, 0, k.lock⟩ : Controls)) hd₁

end

/-! ### A game that is not noticed -/

/-- The requests of `wake`, each followed by the daemon's poll. -/
def wakeRun : List Input :=
  [.request .allOk (lit "CONFIG_SYNC"), .poll .allOk none,
   .request .allOk (lit "SET_DAEMON default"), .poll .allOk none,
   .request .allOk (lit "SET_MODE frequency"), .poll .allOk none]

/-- A daemon right after its start. -/
def freshState : Running := ⟨boot shippedBuild (.allOk none), .select⟩

/-- Outcomes under which every update of the file goes through. -/
def writesOk (_ : Bytes) : UpdateEnv := ⟨true, true, 8191⟩

theorem wakeRun_enabled :
    ((daemonMachine shippedBuild).run wakeRun
      (Command.wake.start shippedBuild writesOk freshState)).isSome := by
  decide

/-- The state after `wakeRun`. -/
def wokenState : Running :=
  ((daemonMachine shippedBuild).run wakeRun
    (Command.wake.start shippedBuild writesOk freshState)).get wakeRun_enabled

theorem run_wakeRun :
    (daemonMachine shippedBuild).run wakeRun
      (Command.wake.start shippedBuild writesOk freshState) = some wokenState :=
  (Option.some_get wakeRun_enabled).symm

theorem wakeRun_requests : wakeRun.filterMap Input.request? = Command.wake.requests := rfl

theorem wakeRun_noReload : ∀ i ∈ wakeRun, i.NoReload := by
  intro i hi
  fin_cases hi <;> trivial

/-- A poll while a Steam game runs. -/
def gamePoll : PollEnv where
  io := .allOk
  procs := [⟨4242, none, [], some (lit "hl2_linux\n"), some (lit "SteamAppId=220")⟩]
  events := []

end X3D
