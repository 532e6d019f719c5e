import X3DToggle.Config.File
import X3DToggle.Modes
import X3DToggle.Bpf

/-!
# The daemon's state and its poll

`Daemon` is everything the daemon's main loop carries from one round to the next: the globals
of `daemon.c`, `systemd.c`, `modes.c` and `bpf-user.c`, the buffers `current` and `target` of
`daemon()`, the files it shares with other processes, and a record of the calls it made on the
hardware.

`pollingRun` is one poll. It reads the mode node into `current` and takes one of three ways:

* under the wrapper lock it sets `target` to `cache` and falls into the last way;
* in automation it computes `target` from the override and from the game detection and writes
  it if the node holds something else;
* in suspension it writes the `target` it finds, whatever poll that is from, if the node holds
  something else, and then sets `target` to what it read at the beginning.

The CPU statistics and the debug message at the end of `polling_run` decide nothing and are
left out.
-/

namespace X3D

/-- A call of the request handler on the hardware or on the system. -/
inductive HwCall where
  /-- `cli_mode_apply(partition)`. -/
  | modeApply (partition : ℕ)
  /-- `affinity_set_masks(cache, freq)`. -/
  | affinityMasks (cache freq : Bytes)
  /-- `cppc_perf(n)`. -/
  | cppcPerf (n : ℤ)
  /-- `cppc_boost(enable)`. -/
  | cppcBoost (enable : Bool)
  /-- `cli_set_core(core, online)`. -/
  | setCore (core : ℤ) (online : Bool)
  /-- `cppc_tdp(watts)`. -/
  | cppcTdp (watts : ℤ)
  /-- `cppc_epp(val)`. -/
  | cppcEpp (val : Bytes)
  /-- `cppc_ccd(ccd, val)`. -/
  | cppcCcd (ccd : ℤ) (val : Bytes)
  /-- `cppc_pstate(val)`. -/
  | cppcPstate (val : Bytes)
  /-- `cppc_governor(val)`. -/
  | cppcGovernor (val : Bytes)
  /-- `cppc_prefcore(enable)`. -/
  | cppcPrefcore (enable : Bool)
  /-- A run of `reset.sh`. -/
  | reset
  /-- `sysctl_write(path, val)`. -/
  | sysctlWrite (path val : Bytes)
  deriving DecidableEq

/-- The state of the daemon and of the files around it. -/
structure Daemon where
  /-- `cfg`. -/
  cfg : DaemonConfig
  /-- `gl`. -/
  gl : GameList
  /-- The globals of `bpf-user.c`. -/
  bpf : Bpf
  /-- `bpf_active`. -/
  bpfActive : Bool
  /-- `active_override`. -/
  activeOverride : ℤ
  /-- `wrapper_lock`. -/
  wrapperLock : ℤ
  /-- `active_keep`. -/
  activeKeep : Bool
  /-- The process has died of a null pointer. -/
  crashed : Bool
  /-- `current`, of `daemon()`. -/
  current : CArray 32
  /-- `target`, of `daemon()`. -/
  target : CArray 32
  /-- `x3d_path_cache`. -/
  pathCache : Bytes
  /-- The mode node. -/
  node : Node
  /-- `daemon.conf`. -/
  conf : Option Bytes
  /-- `games.conf`. -/
  games : Option Bytes
  /-- The calls made on the hardware. -/
  calls : List HwCall

/-- `printf_sn(target, 32, "%s", s)`. -/
def copy32 (s : Bytes) : CArray 32 := CArray.copy 32 modeSize_bounds s

/-- The outcomes a poll depends on. -/
structure PollEnv where
  /-- The calls on the mode node. -/
  io : ModeIo
  /-- The processes at this moment. -/
  procs : List Proc
  /-- The events pending in the ring buffer. -/
  events : List ProcessEvent

namespace Daemon

/-- `cli_set_mode(target)` in the daemon's process. -/
def setMode (io : ModeIo) (target : Bytes) (d : Daemon) : Daemon :=
  let path := findPath io.access d.pathCache
  { d with pathCache := path, node := (cliSetMode io path target d.node).2 }

/-- `mode(current, 32)` on the daemon's buffer, and `sysfs_ok`. -/
def readMode (io : ModeIo) (d : Daemon) : Daemon × Bool :=
  let path := findPath io.access d.pathCache
  let (ret, current) := X3D.mode io path d.node d.current
  ({ d with pathCache := path, current := current }, ret = errSuccess)

/-- `if (sysfs_ok && strcmp(current, target) != 0 && strlen(target) > 0) cli_set_mode(target)`. -/
def applyTarget (io : ModeIo) (sysfsOk : Bool) (d : Daemon) : Daemon :=
  if sysfsOk ∧ d.current.val ≠ d.target.val ∧ d.target.val ≠ [] then d.setMode io d.target.val
  else d

/-- The block at the label `force_apply`. -/
def forceApply (io : ModeIo) (sysfsOk : Bool) (d : Daemon) : Daemon :=
  let d := d.applyTarget io sysfsOk
  { d with target := copy32 d.current.val }

/-- `active_override < 3 && strcmp(cfg.daemon_state, "default") == 0`. -/
def Automated (d : Daemon) : Prop :=
  d.activeOverride < 3 ∧ (d.cfg.str .daemonState).val = lit "default"

instance (d : Daemon) : Decidable d.Automated := inferInstanceAs (Decidable (_ ∧ _))

/-- `if (bpf_active) bpf_poll(0)`. -/
def pollBpf (env : PollEnv) (d : Daemon) : Daemon :=
  if d.bpfActive then { d with bpf := bpfPoll d.gl env.procs env.events d.bpf } else d

/-- `eg || pg`, after `bpf_poll`. -/
def gameDetected (env : PollEnv) (d : Daemon) : Bool :=
  bpfGame (d.pollBpf env).bpf || detectGame d.gl env.procs

/-- The target automation selects. -/
def autoTarget (env : PollEnv) (d : Daemon) : Bytes :=
  if d.activeOverride = 1 then lit "cache"
  else if d.activeOverride = 2 then lit "frequency"
  else if d.gameDetected env then lit "cache" else lit "frequency"

/-- `polling_run`. -/
def pollingRun (env : PollEnv) (d : Daemon) : Daemon :=
  let (d, sysfsOk) := d.readMode env.io
  if d.wrapperLock ≠ 0 then
    ({ d with target := copy32 (lit "cache") } : Daemon).forceApply env.io sysfsOk
  else if d.Automated then
    ({ d.pollBpf env with target := copy32 (d.autoTarget env) } : Daemon).applyTarget env.io sysfsOk
  else d.forceApply env.io sysfsOk

/-- The target a poll selects by automation; none under the lock and in suspension. -/
def selects (env : PollEnv) (d : Daemon) : Option Bytes :=
  if d.wrapperLock ≠ 0 then none
  else if d.Automated then some (d.autoTarget env)
  else none

end Daemon
end X3D
