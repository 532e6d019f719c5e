import X3DToggle.Settings
import X3DToggle.Suspend

/-!
# Polling in automation

In automation the daemon compares the mode node with what the override or the detection asks for,
and writes the node when they differ. `polling_converges` says that one poll is enough: the node
then reads as asked, and nothing the daemon does of its own accord writes it again as long as the
detection comes out the same.

The claim about the override rests on an invariant of the whole daemon: it only ever holds the
values 0 to 4 (`override_of_reachable`).
-/

namespace X3D

namespace Daemon

/-- What `polling_run` compares with `last_target` at its end. -/
def displayTarget (d : Daemon) : CArray 32 :=
  if d.activeOverride = 4 then copy32 (lit "swap")
  else if d.activeOverride = 3 then copy32 (lit "dual")
  else copy32 d.target.val

/-- `polling_run` with its static variable `last_target`, which only decides about a line in the
journal. -/
def pollingRunShown (env : PollEnv) (lastTarget : CArray 32) (d : Daemon) : Daemon × CArray 32 :=
  let d := d.pollingRun env
  (d, if d.displayTarget ≠ lastTarget then copy32 d.displayTarget.val else lastTarget)

end Daemon

/-- The hardware mode: the node's text up to the end of its line. -/
def Node.hardwareMode (n : Node) : Bytes := (cstr n.content).takeWhile (· ≠ nl)

/-! ### One poll -/

/-- A name is read from the node exactly if it is the hardware mode. -/
theorem modeText_eq_iff {t : Bytes} (ht : t.length < 31) (n : Node) :
    modeText 32 n.content = t ↔ n.hardwareMode = t := by
  have htake : modeText 32 n.content = n.hardwareMode.take 31 := by
    unfold modeText cstr Node.hardwareMode cstr
    rw [List.take_takeWhile, List.take_takeWhile]
  rw [htake]
  constructor
  · intro h
    have hlen := congrArg List.length h
    rw [List.length_take] at hlen
    rw [← h, List.take_of_length_le (by omega)]
  · intro h
    rw [h, List.take_of_length_le (by omega)]

namespace Daemon

variable {d : Daemon} {env : PollEnv}

theorem autoTarget_cases (d : Daemon) (env : PollEnv) :
    d.autoTarget env = lit "cache" ∨ d.autoTarget env = lit "frequency" := by
  unfold autoTarget
  split
  · exact Or.inl rfl
  · split
    · exact Or.inr rfl
    · split
      · exact Or.inl rfl
      · exact Or.inr rfl

theorem isModeName_autoTarget (d : Daemon) (env : PollEnv) : IsModeName (d.autoTarget env) := by
  rcases d.autoTarget_cases env with h | h <;> rw [h]
  · exact ⟨by decide, by decide, by decide, by decide⟩
  · exact ⟨by decide, by decide, by decide, by decide⟩

theorem copy32_autoTarget (d : Daemon) (env : PollEnv) :
    (copy32 (d.autoTarget env)).val = d.autoTarget env := by
  rw [copy32, CArray.copy_val]
  exact List.take_of_length_le (Nat.le_of_lt_succ (isModeName_autoTarget d env).short)

/-- A read that succeeds leaves the mode in `current`. -/
theorem current_readMode {io : ModeIo} (h : (d.readMode io).2 = true) :
    (d.readMode io).1.current.val = modeText 32 d.node.content := by
  change decide ((X3D.mode io (findPath io.access d.pathCache) d.node d.current).1 = errSuccess) =
    true at h
  show (X3D.mode io (findPath io.access d.pathCache) d.node d.current).2.val = _
  have hret := of_decide_eq_true h
  unfold X3D.mode at hret ⊢
  by_cases hpath : findPath io.access d.pathCache = []
  · rw [if_pos hpath] at hret
    exact absurd (show errHw = errSuccess from hret) (by decide)
  · rw [if_neg hpath] at hret ⊢
    by_cases hopen : (!io.openRd) = true
    · rw [if_pos hopen] at hret
      exact absurd (show errHw = errSuccess from hret) (by decide)
    · rw [if_neg hopen] at hret ⊢
      by_cases hread : (!io.readOk || d.node.content.take 31 = []) = true
      · rw [if_pos hread] at hret
        exact absurd (show errIo = errSuccess from hret) (by decide)
      · rw [if_neg hread]

theorem pollBpf_eq (d : Daemon) (env : PollEnv) : ∃ b, d.pollBpf env = { d with bpf := b } := by
  unfold pollBpf
  by_cases h : d.bpfActive = true
  · rw [if_pos h]
    exact ⟨_, rfl⟩
  · rw [if_neg h]
    exact ⟨d.bpf, rfl⟩

/-- **The node after a poll in automation.** -/
theorem node_pollingRun (hlock : d.wrapperLock = 0) (hauto : d.Automated) :
    (d.pollingRun env).node =
      if (d.readMode env.io).2 = true ∧ d.node.hardwareMode ≠ d.autoTarget env then
        (cliSetMode env.io (findPath env.io.access (findPath env.io.access d.pathCache))
          (d.autoTarget env) d.node).2
      else d.node := by
  have hname := isModeName_autoTarget d env
  have hshort : (d.autoTarget env).length < 31 := by
    rcases d.autoTarget_cases env with h | h <;> rw [h] <;> decide
  obtain ⟨b, hb⟩ := pollBpf_eq (d.readMode env.io).1 env
  rw [pollingRun_automated hlock hauto, hb, applyTarget]
  dsimp only
  rw [copy32_autoTarget]
  by_cases hok : (d.readMode env.io).2 = true
  · have hmode := modeText_eq_iff hshort d.node
    rw [hok, current_readMode hok]
    by_cases hne : d.node.hardwareMode = d.autoTarget env
    · rw [if_neg fun h => h.2.1 (hmode.mpr hne), if_neg fun h => h.2 hne]
      rfl
    · rw [if_pos ⟨rfl, mt hmode.mp hne, hname.ne_nil⟩, if_pos ⟨rfl, hne⟩]
      rfl
  · rw [if_neg fun h => hok h.1, if_neg fun h => hok h.1]
    rfl

/-- A poll of a node that reads as asked writes nothing, whether the read succeeds or not. -/
theorem pollingRun_quiet (hlock : d.wrapperLock = 0) (hauto : d.Automated)
    (h : d.node.hardwareMode = d.autoTarget env) : (d.pollingRun env).node = d.node := by
  rw [node_pollingRun hlock hauto, if_neg fun hne => hne.2 h]

/-- **One poll is enough.** -/
theorem hardwareMode_pollingRun (hlock : d.wrapperLock = 0) (hauto : d.Automated)
    (hread : env.io.Readable d.pathCache d.node) (hwrite : env.io.Writable) :
    (d.pollingRun env).node.hardwareMode = d.autoTarget env := by
  have hname := isModeName_autoTarget d env
  have hpath : findPath env.io.access (findPath env.io.access d.pathCache) ≠ [] := by
    rw [findPath_idem _ _ _ hread.path]
    exact hread.path
  rw [node_pollingRun hlock hauto]
  by_cases h : (d.readMode env.io).2 = true ∧ d.node.hardwareMode ≠ d.autoTarget env
  · rw [if_pos h, cliSetMode_of_writable hwrite hpath hname.ne_nil, Node.hardwareMode,
      cstr_of_notMem hname.zero_notMem, List.takeWhile_eq_self_iff]
    intro c hc
    exact decide_eq_true fun hnl => hname.nl_notMem (hnl ▸ hc)
  · rw [if_neg h]
    by_contra hne
    refine h ⟨?_, hne⟩
    rw [readMode_of_readable hread]

end Daemon

/-! ### The values of the override -/

/-- An override a request can ask for. -/
def IsOverride (n : ℤ) : Prop := 0 ≤ n ∧ n ≤ 4

instance (n : ℤ) : Decidable (IsOverride n) := inferInstanceAs (Decidable (_ ∧ _))

section

variable {B : Build} {env : RequestEnv} {d : Daemon}

theorem isOverride_handleSetMode (h : IsOverride d.activeOverride) (val : Bytes) :
    IsOverride (d.handleSetMode env val).2.activeOverride := by
  unfold Daemon.handleSetMode
  repeat' split
  · exact (by decide : IsOverride 0)
  · exact (by decide : IsOverride 1)
  · exact (by decide : IsOverride 2)
  · exact (by decide : IsOverride 3)
  · exact (by decide : IsOverride 4)
  · exact h

theorem isOverride_handleToggle : IsOverride (d.handleToggle env).2.activeOverride := by
  have hite (p : Prop) [Decidable p] : IsOverride (if p then 1 else 2) := by
    split
    · exact (by decide : IsOverride 1)
    · exact (by decide : IsOverride 2)
  exact hite _

theorem isOverride_handleSetWrapper (val : Bytes) :
    IsOverride (d.handleSetWrapper env val).2.activeOverride := by
  unfold Daemon.handleSetWrapper
  dsimp only
  split
  · exact (by decide : IsOverride 1)
  · exact (by decide : IsOverride 0)

theorem isOverride_handleSetDaemon (h : IsOverride d.activeOverride) (val : Bytes) :
    IsOverride (d.handleSetDaemon env val).2.activeOverride := by
  unfold Daemon.handleSetDaemon
  dsimp only
  repeat' split
  all_goals first
    | exact h
    | exact (by decide : IsOverride 0)

theorem activeOverride_followEbpf : (d.followEbpf env).activeOverride = d.activeOverride := by
  unfold Daemon.followEbpf
  dsimp only
  repeat' split
  all_goals rfl

theorem activeOverride_handleSetConfig (val : Bytes) :
    (d.handleSetConfig env val).2.activeOverride = d.activeOverride := by
  unfold Daemon.handleSetConfig
  cases strchr val (chr ' ') with
  | none => rfl
  | some p =>
    dsimp only
    cases setConfigTable.lookup p.1 with
    | none => rfl
    | some st =>
      dsimp only
      by_cases hk : p.1 = lit "EBPF_ENABLE"
      · rw [if_pos hk, activeOverride_followEbpf]
      · rw [if_neg hk]

theorem activeOverride_handleAdvancedSet (arg : Bytes) :
    (d.handleAdvancedSet env arg).2.activeOverride = d.activeOverride := by
  unfold Daemon.handleAdvancedSet
  dsimp only
  repeat' split
  all_goals rfl

/-- Every branch leaves the override alone or sets it to one of its values. -/
theorem isOverride_handle (h : IsOverride d.activeOverride) (verb : Verb) (arg : Bytes) :
    IsOverride (d.handle B env verb arg).2.activeOverride := by
  have hof {d' : Daemon} (hsame : d'.activeOverride = d.activeOverride) :
      IsOverride d'.activeOverride := by
    rw [hsame]
    exact h
  -- only `TOGGLE`, `SET_MODE`, `SET_DAEMON` and `SET_WRAPPER` write the override
  cases verb with
  | toggle => exact isOverride_handleToggle
  | setMode => exact isOverride_handleSetMode h arg
  | setDaemon => exact isOverride_handleSetDaemon h arg
  | setWrapper => exact isOverride_handleSetWrapper arg
  | setAffinityConfig =>
    refine hof ?_
    show (d.handleSetAffinityConfig env arg).2.activeOverride = d.activeOverride
    unfold Daemon.handleSetAffinityConfig
    split <;> rfl
  | setCppc => exact hof (untouched_handleSetCppc arg).activeOverride
  | setPark => exact hof (untouched_handleSetPark arg).activeOverride
  | setUnpark => exact hof (untouched_handleSetUnpark arg).activeOverride
  | setTdp => exact hof (untouched_intRequest fun _ => rfl).activeOverride
  | setEppCcd => exact hof (untouched_handleSetEppCcd arg).activeOverride
  | setConfig => exact hof (activeOverride_handleSetConfig arg)
  | advancedGet => exact hof (untouched_handleAdvancedGet arg).activeOverride
  | advancedSet => exact hof (activeOverride_handleAdvancedSet arg)
  | ping | mode | daemonInfo | getConfig | getTopology | setBoost | setEpp | setPstate
  | setGovernor | setPrefcore | daemonDisable | configSync | gamesList => exact h

theorem isOverride_step {i : Input} {s s' : Running} (h : IsOverride s.daemon.activeOverride)
    (hstep : (daemonMachine B).step i s = some s') : IsOverride s'.daemon.activeOverride := by
  cases hi : i.request? with
  | none =>
    rcases step_cases hi hstep with ⟨env, -, hpoll⟩ | ⟨env, r, -, hpoll⟩ | ⟨-, hsame, -⟩
    · rw [hpoll, Daemon.sameSettings_pollingRun.activeOverride]
      exact h
    · rw [hpoll]
      show IsOverride (s.daemon.pollingRun env).activeOverride
      rw [Daemon.sameSettings_pollingRun.activeOverride]
      exact h
    · rw [hsame]
      exact h
  | some r =>
    obtain ⟨env, hs'⟩ := exists_request_step hi hstep
    rw [hs', socketHandle]
    by_cases hnil : r = []
    · rw [if_pos hnil]
      exact h
    · rw [if_neg hnil]
      cases dispatch (received r) with
      | none => exact h
      | some p => exact isOverride_handle h p.1 _

/-- **Invariant.** The override is one of its five values. -/
theorem isOverride_of_reachable {s : Running} (h : (daemonMachine B).Reachable s) :
    IsOverride s.daemon.activeOverride := by
  obtain ⟨s₀, is, ⟨env, rfl⟩, hrun⟩ := h
  have hboot : IsOverride (boot B env).activeOverride := by
    have hzero : (boot B env).activeOverride = 0 := by
      unfold boot
      dsimp only
      split <;> split <;> split <;> rfl
    rw [hzero]
    decide
  exact Machine.run_induction (P := fun t : Running => IsOverride t.daemon.activeOverride)
    (fun _ _ _ _ hP hstep => isOverride_step hP hstep) hboot hrun

end

/-! ### Polls in a run -/

/-- What the daemon does by itself while the detection comes out as `b`: neither a request nor a
reload, and nobody else writes the node. -/
def Input.Undisturbed (b : Bool) : Input → Running → Prop
  | .poll env none, s => s.daemon.gameDetected env = b
  | .timeout, _ => True
  | .stop, _ => True
  | .gamemode _, _ => True
  | _, _ => False

/-- The mode that is asked for. -/
def wantedMode (override : ℤ) (game : Bool) : Bytes :=
  if override = 1 ∨ override = 0 ∧ game = true then lit "cache" else lit "frequency"

theorem autoTarget_eq_wanted {d : Daemon} {env : PollEnv} (hauto : d.Automated)
    (h : IsOverride d.activeOverride) :
    d.autoTarget env = wantedMode d.activeOverride (d.gameDetected env) := by
  have hsmall : d.activeOverride < 3 := hauto.1
  obtain ⟨hnonneg, -⟩ := h
  unfold Daemon.autoTarget wantedMode
  have hcases : d.activeOverride = 0 ∨ d.activeOverride = 1 ∨ d.activeOverride = 2 := by omega
  rcases hcases with ho | ho | ho <;> rw [ho] <;> simp

section

variable {B : Build} {b : Bool} {n : Node} {o : ℤ}

/-- Automation that has settled on what the node reads. -/
structure Quiet (b : Bool) (n : Node) (o : ℤ) (s : Running) : Prop where
  lock : s.daemon.wrapperLock = 0
  automated : s.daemon.Automated
  override : s.daemon.activeOverride = o
  node : s.daemon.node = n

/-- **Step lemma.** An undisturbed step leaves the node alone. -/
theorem quiet_step (ho : IsOverride o) (hn : n.hardwareMode = wantedMode o b) (i : Input)
    (s s' : Running) (hi : i.Undisturbed b s) (h : Quiet b n o s)
    (hstep : (daemonMachine B).step i s = some s') : Quiet b n o s' := by
  obtain ⟨hlock, hauto, hoverride, hnode⟩ := h
  -- requests and strangers are excluded, and only a poll could write
  cases stepped hstep with
  | request env r d => exact absurd hi id
  | external conf games content d p => exact absurd hi id
  | reload env r d => exact absurd hi id
  | timeout | stop | gamemode => exact ⟨hlock, hauto, hoverride, hnode⟩
  | poll env d =>
    dsimp only at hlock hauto hoverride hnode
    have hsame : SameSettings d (d.pollingRun env) := Daemon.sameSettings_pollingRun
    have hdetected : d.gameDetected env = b := hi
    -- the node already reads as wanted, so this poll writes nothing
    have hwanted : d.node.hardwareMode = d.autoTarget env := by
      rw [autoTarget_eq_wanted hauto (hoverride ▸ ho), hoverride, hdetected, hnode, hn]
    exact ⟨hsame.wrapperLock.trans hlock, hsame.automated_iff.mpr hauto,
      hsame.activeOverride.trans hoverride,
      (Daemon.pollingRun_quiet hlock hauto hwanted).trans hnode⟩

/-- **Convergence.** One poll in automation brings the node to the wanted mode, and no poll after
it writes the node while the detection stays the same. -/
theorem polling_converges {d : Daemon} {last : CArray 32} {env : PollEnv}
    (hlock : d.wrapperLock = 0) (hsmall : d.activeOverride < 3)
    (hstate : (d.cfg.str .daemonState).val = lit "default")
    (hvalue : ∃ s, (daemonMachine B).Reachable s ∧ s.daemon.activeOverride = d.activeOverride)
    (hread : env.io.Readable d.pathCache d.node) (hwrite : env.io.Writable) :
    (d.pollingRunShown env last).1.node.hardwareMode =
        wantedMode d.activeOverride (d.gameDetected env) ∧
      ∀ (ph : Phase) (is : List Input) (s : Running),
        (daemonMachine B).Guarded (Input.Undisturbed (d.gameDetected env)) is
          ⟨(d.pollingRunShown env last).1, ph⟩ →
        (daemonMachine B).run is ⟨(d.pollingRunShown env last).1, ph⟩ = some s →
        s.daemon.node = (d.pollingRunShown env last).1.node := by
  have hauto : d.Automated := ⟨hsmall, hstate⟩
  have ho : IsOverride d.activeOverride := by
    obtain ⟨s, hs, hsame⟩ := hvalue
    exact hsame ▸ isOverride_of_reachable hs
  -- the first poll writes what is wanted
  have hmode : (d.pollingRun env).node.hardwareMode =
      wantedMode d.activeOverride (d.gameDetected env) := by
    rw [Daemon.hardwareMode_pollingRun hlock hauto hread hwrite, autoTarget_eq_wanted hauto ho]
  refine ⟨hmode, fun ph is s hguard hrun => ?_⟩
  have hsame : SameSettings d (d.pollingRun env) := Daemon.sameSettings_pollingRun
  have hstart : Quiet (d.gameDetected env) (d.pollingRun env).node d.activeOverride
      ⟨d.pollingRun env, ph⟩ :=
    ⟨hsame.wrapperLock.trans hlock, hsame.automated_iff.mpr hauto, hsame.activeOverride, rfl⟩
  -- and from there on every step is quiet
  exact (hguard.run_induction (quiet_step ho hmode) hstart hrun).node

end

/-- A daemon right after its start converges. -/
theorem polling_converges_boot :
    ((boot shippedBuild (.allOk none)).pollingRunShown .allOk (copy32 [])).1.node.hardwareMode =
        wantedMode 0 ((boot shippedBuild (.allOk none)).gameDetected .allOk) ∧
      ∀ (ph : Phase) (is : List Input) (s : Running),
        (daemonMachine shippedBuild).Guarded
          (Input.Undisturbed ((boot shippedBuild (.allOk none)).gameDetected .allOk)) is
          ⟨((boot shippedBuild (.allOk none)).pollingRunShown .allOk (copy32 [])).1, ph⟩ →
        (daemonMachine shippedBuild).run is
          ⟨((boot shippedBuild (.allOk none)).pollingRunShown .allOk (copy32 [])).1, ph⟩ = some s →
        s.daemon.node =
          ((boot shippedBuild (.allOk none)).pollingRunShown .allOk (copy32 [])).1.node :=
  polling_converges (by decide) (by decide) (by decide)
    ⟨⟨boot shippedBuild (.allOk none), .select⟩, Machine.Reachable.of_init ⟨_, rfl⟩, rfl⟩
    (ModeIo.allOk_readsOk.readable _ (by decide)) ModeIo.allOk_writable

end X3D
