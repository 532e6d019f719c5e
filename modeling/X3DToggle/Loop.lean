import X3DToggle.Lib.Machine
import X3DToggle.Socket

/-!
# The main loop

`daemonMachine` is `daemon()` after its start. A round waits in `select`; when a connection is
ready it handles one request; unless that told it to stop it polls; and after the poll it
reloads its files if `SIGHUP` has come in. Signals and other processes act between these
steps: they stop the daemon, report GameMode registrations, or change the shared files and the
mode node.

`boot` is the way there: the first load of the configuration and of the game list, the start of
the tracker, and the first write to the mode node. The buffers `current` and `target` are
uninitialised, so their first content is arbitrary.

The spec lemmas `pollingRun_locked`, `pollingRun_automated` and `pollingRun_suspended` say which
way a poll takes. The frame lemmas say what it cannot change: it writes `current`, `target`, the
mode node, the path cache and the event counter, and reads everything else.
-/

namespace X3D

/-- Where the main loop is. -/
inductive Phase where
  | select | poll | stopped
  deriving DecidableEq

/-- A running daemon. -/
structure Running where
  /-- Its state. -/
  daemon : Daemon
  /-- Where its main loop is. -/
  phase : Phase

/-- What the start of the daemon depends on. -/
structure BootEnv where
  /-- `config_load`. -/
  load : LoadEnv
  /-- `games.conf` can be read. -/
  gamesOk : Bool
  /-- `bpf_init`. -/
  bpf : BpfEnv
  /-- The calls on the mode node. -/
  io : ModeIo
  /-- The first content of `current`. -/
  current : CArray 32
  /-- The first content of `target`. -/
  target : CArray 32
  /-- `daemon.conf`. -/
  conf : Option Bytes
  /-- `games.conf`. -/
  games : Option Bytes
  /-- What the mode node reads. -/
  content : Bytes

/-- `daemon()` up to its main loop. -/
def boot (B : Build) (env : BootEnv) : Daemon :=
  let cfg := configLoad B env.load env.conf DaemonConfig.zero
  let (bpfActive, bpf) :=
    if cfg.int .ebpfEnable ≠ 0 then bpfInit env.bpf Bpf.zero else (false, Bpf.zero)
  let d : Daemon :=
    { cfg := cfg
      gl := gamesLoad env.gamesOk env.games
      bpf := bpf
      bpfActive := bpfActive
      activeOverride := 0
      wrapperLock := 0
      activeKeep := true
      crashed := false
      current := env.current
      target := env.target
      pathCache := []
      node := { content := env.content, writes := [] }
      conf := env.conf
      games := env.games
      calls := [] }
  let d := d.setMode env.io (lit "frequency")
  let d := if (d.cfg.str .daemonState).val = [] then
    { d with
      cfg := d.cfg.store
        (.str .daemonState 32 (lit "default") (StrField.size_bounds .daemonState)) }
    else d
  if (d.cfg.str .daemonState).val = lit "default" then d.setMode env.io (lit "frequency") else d

/-- The start does not touch the file. -/
theorem boot_conf (B : Build) (env : BootEnv) : (boot B env).conf = env.conf := by
  unfold boot
  dsimp only
  split <;> split <;> split <;> rfl

/-- What a reload depends on. -/
structure ReloadEnv where
  /-- `config_load`. -/
  load : LoadEnv
  /-- `games.conf` can be read. -/
  gamesOk : Bool

/-- The reload at the end of a round. -/
def Daemon.reload (B : Build) (env : ReloadEnv) (d : Daemon) : Daemon :=
  { d with
    cfg := configLoad B env.load d.conf d.cfg
    gl := gamesLoad env.gamesOk d.games }

/-- What happens to the daemon. -/
inductive Input where
  /-- `select` reports a connection, and it delivers this request. -/
  | request (env : RequestEnv) (r : Bytes)
  /-- `select` times out. -/
  | timeout
  /-- A poll, with a reload after it if `SIGHUP` has come in. -/
  | poll (env : PollEnv) (reload : Option ReloadEnv)
  /-- `SIGTERM` or `SIGINT`. -/
  | stop
  /-- A GameMode signal. -/
  | gamemode (s : GameModeSignal)
  /-- Other processes change the files and the mode node. -/
  | external (conf games : Option Bytes) (content : Bytes)

/-- One step of the main loop. -/
def daemonStep (B : Build) : Input → Running → Option Running
  | .request env r, ⟨d, .select⟩ =>
    let d := (socketHandle B env r d).2
    some ⟨d, if d.crashed ∨ !d.activeKeep then .stopped else .poll⟩
  | .timeout, ⟨d, .select⟩ => some ⟨d, if d.activeKeep then .poll else .stopped⟩
  | .poll env reload, ⟨d, .poll⟩ =>
    let d := d.pollingRun env
    let d := match reload with
      | some r => d.reload B r
      | none => d
    some ⟨d, if d.activeKeep then .select else .stopped⟩
  | .stop, ⟨d, p⟩ => some ⟨{ d with activeKeep := false }, p⟩
  | .gamemode s, ⟨d, p⟩ => some ⟨{ d with bpf := onGamemodeSignal d.bpf s }, p⟩
  | .external conf games content, ⟨d, p⟩ =>
    some ⟨{ d with conf := conf, games := games, node := { d.node with content := content } }, p⟩
  | _, _ => none

/-- The daemon from its start on. -/
def daemonMachine (B : Build) : Machine Running Input where
  init s := ∃ env, s = ⟨boot B env, .select⟩
  step := daemonStep B

/-- The request an input delivers. -/
def Input.request? : Input → Option Bytes
  | .request _ r => some r
  | _ => none

/-- Polls with nothing in between. -/
def Daemon.polls (envs : List PollEnv) (d : Daemon) : Daemon :=
  envs.foldl (fun d env => d.pollingRun env) d

/-! ### Steps -/

/-- **What a step does.** -/
inductive Stepped (B : Build) : Input → Running → Running → Prop where
  | request (env : RequestEnv) (r : Bytes) (d : Daemon) :
    Stepped B (.request env r) ⟨d, .select⟩ ⟨(socketHandle B env r d).2,
      if (socketHandle B env r d).2.crashed ∨ !(socketHandle B env r d).2.activeKeep then .stopped
      else .poll⟩
  | timeout (d : Daemon) :
    Stepped B .timeout ⟨d, .select⟩ ⟨d, if d.activeKeep then .poll else .stopped⟩
  | poll (env : PollEnv) (d : Daemon) :
    Stepped B (.poll env none) ⟨d, .poll⟩
      ⟨d.pollingRun env, if (d.pollingRun env).activeKeep then .select else .stopped⟩
  | reload (env : PollEnv) (r : ReloadEnv) (d : Daemon) :
    Stepped B (.poll env (some r)) ⟨d, .poll⟩ ⟨(d.pollingRun env).reload B r,
      if ((d.pollingRun env).reload B r).activeKeep then .select else .stopped⟩
  | stop (d : Daemon) (p : Phase) : Stepped B .stop ⟨d, p⟩ ⟨{ d with activeKeep := false }, p⟩
  | gamemode (g : GameModeSignal) (d : Daemon) (p : Phase) :
    Stepped B (.gamemode g) ⟨d, p⟩ ⟨{ d with bpf := onGamemodeSignal d.bpf g }, p⟩
  | external (conf games : Option Bytes) (content : Bytes) (d : Daemon) (p : Phase) :
    Stepped B (.external conf games content) ⟨d, p⟩
      ⟨{ d with conf := conf, games := games, node := { d.node with content := content } }, p⟩

theorem stepped {B : Build} {s s' : Running} {i : Input}
    (h : (daemonMachine B).step i s = some s') : Stepped B i s s' := by
  obtain ⟨d, p⟩ := s
  cases i with
  | request env r =>
    cases p with
    | select => exact Option.some.inj h ▸ .request env r d
    | poll | stopped => exact absurd h.symm (Option.some_ne_none s')
  | timeout =>
    cases p with
    | select => exact Option.some.inj h ▸ .timeout d
    | poll | stopped => exact absurd h.symm (Option.some_ne_none s')
  | poll env reload =>
    cases p with
    | poll =>
      cases reload with
      | none => exact Option.some.inj h ▸ .poll env d
      | some r => exact Option.some.inj h ▸ .reload env r d
    | select | stopped => exact absurd h.symm (Option.some_ne_none s')
  | stop => exact Option.some.inj h ▸ .stop d p
  | gamemode g => exact Option.some.inj h ▸ .gamemode g d p
  | external conf games content => exact Option.some.inj h ▸ .external conf games content d p

/-- The step that handles a request. -/
theorem exists_request_step {B : Build} {s s' : Running} {i : Input} {r : Bytes}
    (hi : i.request? = some r) (h : (daemonMachine B).step i s = some s') :
    ∃ env, s'.daemon = (socketHandle B env r s.daemon).2 := by
  cases stepped h with
  | request env r' d =>
    obtain rfl : r' = r := Option.some.inj hi
    exact ⟨env, rfl⟩
  | timeout | poll | reload | stop | gamemode | external =>
    exact absurd hi.symm (Option.some_ne_none r)

/-- **Steps without a request.** They poll, or poll and reload, or leave the settings and the
lock alone. -/
theorem step_cases {B : Build} {s s' : Running} {i : Input} (hi : i.request? = none)
    (h : (daemonMachine B).step i s = some s') :
    (∃ env, i = .poll env none ∧ s'.daemon = s.daemon.pollingRun env) ∨
    (∃ env r, i = .poll env (some r) ∧ s'.daemon = (s.daemon.pollingRun env).reload B r) ∨
    (s'.daemon.cfg = s.daemon.cfg ∧ s'.daemon.activeOverride = s.daemon.activeOverride ∧
      s'.daemon.wrapperLock = s.daemon.wrapperLock) := by
  cases stepped h with
  | request env r d => exact absurd hi (Option.some_ne_none r)
  | poll env d => exact Or.inl ⟨env, rfl, rfl⟩
  | reload env r d => exact Or.inr (Or.inl ⟨env, r, rfl, rfl⟩)
  | timeout | stop | gamemode | external => exact Or.inr (Or.inr ⟨rfl, rfl, rfl⟩)

/-- The mode node can be read and written. -/
def ModeIo.allOk : ModeIo where
  access _ := true
  openRd := true
  readOk := true
  openWr := true
  accepts := true

/-- Every library call of the tracker succeeds. -/
def BpfEnv.allOk : BpfEnv where
  thread := true
  openFile := true
  load := true
  findExec := true
  attachExec := true
  findExit := true
  attachExit := true
  map := true
  ring := true

/-- A poll that finds no process and no event. -/
def PollEnv.allOk : PollEnv where
  io := .allOk
  procs := []
  events := []

/-- A request whose every call succeeds. -/
def RequestEnv.allOk : RequestEnv where
  io := .allOk
  update := { openRd := true, openWr := true, written := 8191 }
  load := { openRd := true, access := fun _ => true }
  bpf := .allOk
  hw _ := errSuccess
  fork := true
  reprobe := id
  sysctl _ := none
  stack := ⟨[], by decide⟩

/-- A start with the given `daemon.conf`. -/
def BootEnv.allOk (conf : Option Bytes) : BootEnv where
  load := { openRd := true, access := fun _ => true }
  gamesOk := true
  bpf := .allOk
  io := .allOk
  current := ⟨[], by decide⟩
  target := ⟨[], by decide⟩
  conf := conf
  games := none
  content := lit "frequency"

theorem ModeIo.allOk_readsOk : ModeIo.allOk.ReadsOk :=
  ⟨⟨_, List.mem_cons_self, rfl⟩, rfl, rfl⟩

theorem ModeIo.allOk_writable : ModeIo.allOk.Writable := ⟨rfl, rfl⟩

/-! ### The three ways of a poll -/

namespace Daemon

variable {d : Daemon} {env : PollEnv}

/-- The detection reads the list and the tracker. -/
theorem gameDetected_eq (d : Daemon) (env : PollEnv) :
    d.gameDetected env =
      (bpfGame (if d.bpfActive then bpfPoll d.gl env.procs env.events d.bpf else d.bpf) ||
        detectGame d.gl env.procs) := by
  unfold gameDetected pollBpf
  split <;> rfl

/-- Under the lock a poll serves the wrapper. -/
theorem pollingRun_locked (h : d.wrapperLock ≠ 0) :
    d.pollingRun env =
      ({ (d.readMode env.io).1 with target := copy32 (lit "cache") } : Daemon).forceApply env.io
        (d.readMode env.io).2 :=
  if_pos h

/-- In automation a poll writes what it selects. -/
theorem pollingRun_automated (hlock : d.wrapperLock = 0) (h : d.Automated) :
    d.pollingRun env =
      ({ (d.readMode env.io).1.pollBpf env with target := copy32 (d.autoTarget env) } :
        Daemon).applyTarget env.io (d.readMode env.io).2 := by
  have hauto : (d.readMode env.io).1.autoTarget env = d.autoTarget env := by
    unfold autoTarget
    rw [gameDetected_eq, gameDetected_eq]
    rfl
  rw [← hauto]
  exact (if_neg (not_not.mpr hlock)).trans (if_pos h)

/-- In suspension a poll is the block at `force_apply`. -/
theorem pollingRun_suspended (hlock : d.wrapperLock = 0) (h : ¬d.Automated) :
    d.pollingRun env = (d.readMode env.io).1.forceApply env.io (d.readMode env.io).2 :=
  (if_neg (not_not.mpr hlock)).trans (if_neg h)

end Daemon

/-! ### What a poll leaves alone -/

/-- The part of the state a poll does not change. -/
structure SameSettings (d d' : Daemon) : Prop where
  cfg : d'.cfg = d.cfg
  gl : d'.gl = d.gl
  activeOverride : d'.activeOverride = d.activeOverride
  wrapperLock : d'.wrapperLock = d.wrapperLock
  conf : d'.conf = d.conf
  games : d'.games = d.games

namespace SameSettings

variable {d d' d'' : Daemon}

theorem rfl : SameSettings d d := ⟨Eq.refl _, Eq.refl _, Eq.refl _, Eq.refl _, Eq.refl _, Eq.refl _⟩

theorem trans (h : SameSettings d d') (h' : SameSettings d' d'') : SameSettings d d'' :=
  ⟨h'.cfg.trans h.cfg, h'.gl.trans h.gl, h'.activeOverride.trans h.activeOverride,
    h'.wrapperLock.trans h.wrapperLock, h'.conf.trans h.conf, h'.games.trans h.games⟩

/-- Automation depends on the settings alone. -/
theorem automated_iff (h : SameSettings d d') : d'.Automated ↔ d.Automated := by
  unfold Daemon.Automated
  rw [h.cfg, h.activeOverride]

end SameSettings

namespace Daemon

variable {d : Daemon} {env : PollEnv} {io : ModeIo}

theorem sameSettings_setMode (target : Bytes) : SameSettings d (d.setMode io target) :=
  ⟨rfl, rfl, rfl, rfl, rfl, rfl⟩

theorem sameSettings_readMode : SameSettings d (d.readMode io).1 :=
  ⟨rfl, rfl, rfl, rfl, rfl, rfl⟩

theorem sameSettings_pollBpf : SameSettings d (d.pollBpf env) := by
  unfold pollBpf
  split <;> exact ⟨rfl, rfl, rfl, rfl, rfl, rfl⟩

theorem sameSettings_applyTarget {sysfsOk : Bool} : SameSettings d (d.applyTarget io sysfsOk) := by
  unfold applyTarget
  split
  · exact sameSettings_setMode _
  · exact SameSettings.rfl

theorem sameSettings_target (t : CArray 32) : SameSettings d { d with target := t } :=
  ⟨rfl, rfl, rfl, rfl, rfl, rfl⟩

theorem sameSettings_forceApply {sysfsOk : Bool} : SameSettings d (d.forceApply io sysfsOk) :=
  sameSettings_applyTarget.trans (sameSettings_target _)

/-- **Frame of a poll.** -/
theorem sameSettings_pollingRun : SameSettings d (d.pollingRun env) := by
  have hread : SameSettings d (d.readMode env.io).1 := sameSettings_readMode
  by_cases hlock : d.wrapperLock = 0
  · by_cases hauto : d.Automated
    · rw [pollingRun_automated hlock hauto]
      exact hread.trans (sameSettings_pollBpf.trans
        ((sameSettings_target _).trans sameSettings_applyTarget))
    · rw [pollingRun_suspended hlock hauto]
      exact hread.trans sameSettings_forceApply
  · rw [pollingRun_locked hlock]
    exact hread.trans ((sameSettings_target _).trans sameSettings_forceApply)

theorem sameSettings_polls (envs : List PollEnv) : SameSettings d (d.polls envs) := by
  induction envs generalizing d with
  | nil => exact SameSettings.rfl
  | cons env envs ih => exact sameSettings_pollingRun.trans ih

end Daemon
end X3D
