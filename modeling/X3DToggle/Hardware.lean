import X3DToggle.Lib.Overlay
import X3DToggle.Formatter
import X3DToggle.Socket
import X3DToggle.Topology

/-!
# The hardware behind the daemon

The functions of `cppc.c`, `scheduler.c`, `affinity.c` and `modes.c` that the request handler calls
write texts to files of the kernel. What such a call comes to is an `Effect`: its result, and the
texts it has passed to `write` by then, with their files.

`Knob` is what these files are for: the settings of the machine. A knob has one file
(`Knob.path_injective`), and the names the functions put together in their buffers are these files,
whole (`Kernel.perfPath_eq` and so on).
-/

namespace X3D

/-! ### Settings -/

/-- `CGROUP_ROOT`, the directory of the partitions. -/
def cgroupRoot : Bytes := lit "/sys/fs/cgroup/x3d-toggle"

/-- The sysctl files of `ADVANCED_SET`. -/
def sysctlFiles : List Bytes := Daemon.advancedTable.map (·.2.path)

/-- `PROC_KERNEL`. -/
def procKernel : Bytes := lit "/proc/sys/kernel/"

/-- The file that is there with the BORE scheduler. -/
def boreFile : Bytes := procKernel ++ lit "sched_bore"

/-- The file of `cppc_boost`. -/
def boostFile : Bytes := lit "/sys/devices/system/cpu/cpufreq/boost"

/-- The file of `cppc_pstate`. -/
def pstateFile : Bytes := lit "/sys/devices/system/cpu/amd_pstate/status"

/-- The file of `cppc_prefcore`. -/
def prefcoreFile : Bytes := lit "/sys/devices/system/cpu/amd_pstate/prefcore"

/-- The files of the partitions. -/
def cgroupFiles : List Bytes :=
  [lit "/cache/cpuset.cpus", lit "/frequency/cpuset.cpus", lit "/cache/cpuset.mems",
    lit "/frequency/cpuset.mems", lit "/cache/cgroup.procs", lit "/frequency/cgroup.procs",
    lit "//cgroup.procs"].map (cgroupRoot ++ ·)

/-- The files that are there once. -/
def plainFiles : List Bytes :=
  modeTargets ++ sysctlFiles ++ [boostFile, pstateFile, prefcoreFile] ++ cgroupFiles

/-- The settings of a core. -/
inductive CoreSetting where
  | perf | epp | governor | online
  deriving DecidableEq

/-- The end of its file's name. -/
def CoreSetting.file : CoreSetting → Bytes
  | perf => lit "/acpi_cppc/desired_perf"
  | epp => lit "/cpufreq/energy_performance_preference"
  | governor => lit "/cpufreq/scaling_governor"
  | online => lit "/online"

/-- A setting of the machine: of one core, or one that is there once. -/
inductive Knob where
  | core (core : ℤ) (setting : CoreSetting)
  | plain (file : { path // path ∈ plainFiles })
  deriving DecidableEq

/-- `/sys/devices/system/cpu/cpu`, and the number of a core to follow. -/
def coreDir : Bytes := lit "/sys/devices/system/cpu/cpu"

/-- The file of a setting. -/
def Knob.path : Knob → Bytes
  | core c s => coreDir ++ (decimal c ++ s.file)
  | plain file => file.val

/-! ### The code -/

/-- A text passed to `write`, and whether the kernel took it. -/
structure FileWrite where
  path : Bytes
  text : Bytes
  taken : Bool
  deriving DecidableEq

/-- A result, and the writes up to it. -/
abbrev Effect := ℤ × List FileWrite

/-- What the calls depend on. The kernel takes a text whole or not at all. -/
structure Kernel where
  -- `geteuid() == 0`
  root : Bool
  -- `access(path, F_OK) == 0`
  present : Bytes → Bool
  -- `open(path, O_WRONLY)` succeeds
  opens : Bytes → Bool
  takes : Bytes → Bytes → Bool
  -- `close` succeeds
  closes : Bytes → Bool
  -- the child process of a call is started and exits with 0
  child : HwCall → Bool

namespace Kernel

variable (k : Kernel)

/-- `write`. -/
def put (path text : Bytes) : FileWrite := ⟨path, text, k.takes path text⟩

/-- Open a file, write a text to it and close it; something must have been written. -/
def writeFile (path text : Bytes) (missing failed : ℤ) : Effect :=
  if !k.opens path then (missing, [])
  else (if k.takes path text ∧ text ≠ [] then errSuccess else failed, [k.put path text])

/-- `enable ? "1" : "0"`. -/
def flag (enable : Bool) : Bytes := if enable then lit "1" else lit "0"

/-- `cppc_boost`. -/
def cppcBoost (enable : Bool) : Effect :=
  k.writeFile boostFile (flag enable) errHw errIo

/-- `cppc_tdp`: `x3d-toggle framework --set-tdp` in a child. -/
def cppcTdp (watts : ℤ) : Effect :=
  (if k.child (.cppcTdp watts) then errSuccess else errIo, [])

/-- The loop over the cores, which `cppc_perf`, `cppc_epp`, `cppc_ccd` and `cppc_governor` share. -/
def eachCore (file : ℕ → Bytes) (val : Bytes) (cores : List ℕ) : Effect :=
  let r := preferenceLoop ⟨fun i => k.opens (file i), fun i => k.takes (file i) val⟩ val cores
    errSuccess
  (r.1, r.2.map fun w => k.put (file w.1) w.2)

/-- The file of `cppc_perf`. -/
def perfPath (i : ℕ) : Bytes :=
  printfSn 256 (lit "/sys/devices/system/cpu/cpu%d/acpi_cppc/desired_perf") [.int i]

/-- The file of `cppc_epp` and `cppc_ccd`. -/
def eppPath (i : ℕ) : Bytes :=
  printfSn 256 (lit "/sys/devices/system/cpu/cpu%d/cpufreq/energy_performance_preference") [.int i]

/-- The file of `cppc_governor`. -/
def governorPath (i : ℕ) : Bytes :=
  printfSn 256 (lit "/sys/devices/system/cpu/cpu%d/cpufreq/scaling_governor") [.int i]

/-- `cppc_perf`. -/
def cppcPerf (B : Build) (val : ℤ) : Effect :=
  k.eachCore perfPath (printfSn 16 (lit "%d") [.int val]) (List.range B.totalCores)

/-- `cppc_epp`. -/
def cppcEpp (B : Build) (val : Bytes) : Effect := k.eachCore eppPath val (List.range B.totalCores)

/-- `cppc_ccd`. -/
def cppcCcd (B : Build) (ccd : ℤ) (val : Bytes) : Effect :=
  let start := if ccd = 0 then 0 else B.ccd1Start
  let stop := if ccd = 0 then B.ccd1Start else B.totalCores
  k.eachCore eppPath val (List.Ico start stop)

/-- `cppc_pstate`. -/
def cppcPstate (val : Bytes) : Effect :=
  k.writeFile pstateFile val errHw errIo

/-- `cppc_governor`. -/
def cppcGovernor (B : Build) (val : Bytes) : Effect :=
  k.eachCore governorPath val (List.range B.totalCores)

/-- `cppc_prefcore`. -/
def cppcPrefcore (enable : Bool) : Effect :=
  k.writeFile prefcoreFile (flag enable) errHw errIo

/-- `cli_set_core`. -/
def cliSetCore (core : ℤ) (online : Bool) : Effect :=
  k.writeFile (printfSn 128 (lit "/sys/devices/system/cpu/cpu%d/online") [.int core])
    (flag online) errHw errIo

/-- `sysctl_write`. An empty text counts as written. -/
def sysctlWrite (path val : Bytes) : Effect :=
  if !k.opens path then (-1, [])
  else (if k.takes path val then 0 else -1, [k.put path val])

/-- `sysctl_kernel_write`. -/
def sysctlKernelWrite (node value : Bytes) : Effect :=
  let path := printfSn 128 (lit "%s%s") [.str procKernel, .str node]
  if 128 ≤ path.length then (-1, [])
  else if !k.opens path then (-1, [])
  else (if k.takes path value ∧ k.closes path then 0 else -1, [k.put path value])

/-- `if (f() != 0) return -1;`, and then the rest. -/
def orFail (first rest : Effect) : Effect :=
  if first.1 ≠ 0 then (-1, first.2) else (rest.1, first.2 ++ rest.2)

/-- `scheduler_check`. -/
def schedulerCheck : Bool := k.present boreFile

/-- `scheduler_set`. The branches of the two profiles differ in the values. -/
def schedulerSet (gaming : Bool) : Effect :=
  if !k.root then (-1, [])
  else
    orFail (k.sysctlKernelWrite (lit "sched_cfs_bandwidth_slice_us")
      (if gaming then lit "3000" else lit "5000"))
    (if k.schedulerCheck then
      orFail (k.sysctlKernelWrite (lit "sched_bore") (flag gaming))
        (orFail (k.sysctlKernelWrite (lit "sched_bit_shift")
          (if gaming then lit "14" else lit "12")) (0, []))
    else (0, []))

/-- `cgroup_write_raw`. -/
def cgroupWriteRaw (relPath val : Bytes) : Effect :=
  k.writeFile (printfSn 512 (lit "%s/%s") [.str cgroupRoot, .str relPath]) val errCgroup errCgroup

/-- `cgroup_write_pid`. -/
def cgroupWritePid (partition : Bytes) (pid : ℤ) : Effect :=
  k.writeFile (printfSn 256 (lit "%s/%s/cgroup.procs") [.str cgroupRoot, .str partition])
    (printfSn 16 (lit "%d") [.int pid]) errCgroup errCgroup

/-- `affinity_partition`. -/
def affinityPartition (pid : ℤ) (partition : ℕ) : Effect :=
  if partition = 1 then k.cgroupWritePid (lit "cache") pid
  else if partition = 2 then k.cgroupWritePid (lit "frequency") pid
  else k.cgroupWritePid [] pid

/-- `affinity_set_masks`. -/
def affinitySetMasks (cache freq : Bytes) : Effect :=
  let r1 := k.cgroupWriteRaw (lit "cache/cpuset.cpus") cache
  let r2 := k.cgroupWriteRaw (lit "frequency/cpuset.cpus") freq
  (if r1.1 = errSuccess ∧ r2.1 = errSuccess then errSuccess else errCgroup, r1.2 ++ r2.2)

/-- `affinity_init`. `mkdir` makes a directory, or finds it there. -/
def affinityInit (B : Build) (mkdirCache mkdirFrequency : Bool) : Effect :=
  if !mkdirCache then (errCgroup, [])
  else if !mkdirFrequency then (errCgroup, [])
  else
    let (cacheMask, ccd1Start, totalCores) := ccd B
    let freqMask := printfSn 128 (lit "%d-%d") [.int ccd1Start, .int (totalCores - 1)]
    (errSuccess,
      (k.cgroupWriteRaw (lit "cache/cpuset.cpus") cacheMask).2 ++
      (k.cgroupWriteRaw (lit "frequency/cpuset.cpus") freqMask).2 ++
      (k.cgroupWriteRaw (lit "cache/cpuset.mems") (lit "0")).2 ++
      (k.cgroupWriteRaw (lit "frequency/cpuset.mems") (lit "0")).2)

/-- `cli_mode_apply`. A scheduler that cannot be set is a warning. -/
def cliModeApply (mode : ℕ) : Effect :=
  if !k.root then (0, [])
  else
    let aff := k.affinityPartition 0 mode
    if aff.1 ≠ 0 then (-1, aff.2)
    else (0, aff.2 ++ (k.schedulerSet (mode = 1)).2)

/-- A call of the request handler. -/
def perform (B : Build) : HwCall → Effect
  | .modeApply partition => k.cliModeApply partition
  | .affinityMasks cache freq => k.affinitySetMasks cache freq
  | .cppcPerf n => k.cppcPerf B n
  | .cppcBoost enable => k.cppcBoost enable
  | .setCore core online => k.cliSetCore core online
  | .cppcTdp watts => k.cppcTdp watts
  | .cppcEpp val => k.cppcEpp B val
  | .cppcCcd ccd val => k.cppcCcd B ccd val
  | .cppcPstate val => k.cppcPstate val
  | .cppcGovernor val => k.cppcGovernor B val
  | .cppcPrefcore enable => k.cppcPrefcore enable
  | .reset => (if k.child .reset then errSuccess else errIo, [])
  | .sysctlWrite path val => k.sysctlWrite path val

end Kernel

/-! ### The names of the files -/

/-- A number between two texts. -/
theorem printfSn_between {size : ℕ} {a b : Bytes} {n : ℤ}
    (ha : (0 : UInt8) ∉ a ∧ chr '%' ∉ a ∧ chr '$' ∉ a)
    (hb : (0 : UInt8) ∉ b ∧ chr '%' ∉ b ∧ chr '$' ∉ b) (hn : IsInt32 n)
    (hsize : a.length + b.length + 12 < size) :
    printfSn size (a ++ chr '%' :: chr 'd' :: b) [.int n] = a ++ (decimal n ++ b) := by
  have hrest : Renders b [] b := by
    have h := Renders.literal hb .nil
    rwa [List.append_nil] at h
  have hnumber : Renders (chr '%' :: chr 'd' :: b) [.int n] (decimal n ++ b) :=
    Renders.plain (.d hn) hrest
  have hstrings : ∀ s, Arg.str s ∈ [Arg.int n] → s.length < 2 ^ 31 := by
    intro s hs
    simp at hs
  have hprint : printfSn size _ _ = _ := printfSn_renders (Renders.literal ha hnumber) hstrings
  have hlen := length_decimal_le hn
  rwa [List.take_of_length_le (by simp only [List.length_append]; omega)] at hprint

/-- The name of a core's file. -/
theorem printfSn_core {size : ℕ} {n : ℤ} (hn : IsInt32 n) (s : CoreSetting) (hsize : 128 ≤ size) :
    printfSn size (coreDir ++ chr '%' :: chr 'd' :: s.file) [.int n] = (Knob.core n s).path := by
  have hdir : (0 : UInt8) ∉ coreDir ∧ chr '%' ∉ coreDir ∧ chr '$' ∉ coreDir := by decide
  have hfile : ((0 : UInt8) ∉ s.file ∧ chr '%' ∉ s.file ∧ chr '$' ∉ s.file) ∧
      coreDir.length + s.file.length + 12 < 128 := by
    cases s <;> decide
  exact printfSn_between hdir hfile.1 hn (hfile.2.trans_le hsize)

theorem isInt32_natCast {i : ℕ} (h : i < 2 ^ 31) : IsInt32 i := by
  unfold IsInt32
  omega

namespace Kernel

theorem perfPath_eq {i : ℕ} (h : i < 2 ^ 31) : perfPath i = (Knob.core i .perf).path :=
  printfSn_core (isInt32_natCast h) .perf (by decide)

theorem eppPath_eq {i : ℕ} (h : i < 2 ^ 31) : eppPath i = (Knob.core i .epp).path :=
  printfSn_core (isInt32_natCast h) .epp (by decide)

theorem governorPath_eq {i : ℕ} (h : i < 2 ^ 31) : governorPath i = (Knob.core i .governor).path :=
  printfSn_core (isInt32_natCast h) .governor (by decide)

end Kernel

/-! ### One knob, one file -/

/-- The number of a core ends where its file's name goes on. -/
theorem slash_notMem_decimal (n : ℤ) : chr '/' ∉ decimal n := by
  obtain ⟨ds, -, hds⟩ := exists_digitsText n.natAbs
  rw [decimal_eq_numeral hds]
  intro h
  exact absurd (mem_numeral h) (by decide)

theorem CoreSetting.file_injective : Function.Injective CoreSetting.file := by
  intro s t h
  cases s <;> cases t <;> first | rfl | exact absurd h (by decide)

theorem CoreSetting.exists_file_eq_cons (s : CoreSetting) : ∃ rest, s.file = chr '/' :: rest := by
  cases s <;> exact ⟨_, rfl⟩

/-- What follows `coreDir` in the name of a core's file: a sign or a digit. -/
def isCoreFile (path : Bytes) : Bool :=
  coreDir.isPrefixOf path &&
    (path.drop coreDir.length).head?.any fun c => isDigit c || c = chr '-'

theorem isCoreFile_core (c : ℤ) (s : CoreSetting) : isCoreFile (Knob.core c s).path = true := by
  have hdrop : (Knob.core c s).path.drop coreDir.length = decimal c ++ s.file := List.drop_left
  have hprefix : coreDir.isPrefixOf (Knob.core c s).path = true :=
    List.isPrefixOf_iff_prefix.mpr (List.prefix_append _ _)
  obtain ⟨d, rest, hd, hdigit⟩ := exists_digitsText_eq_cons c.natAbs
  rw [isCoreFile, hprefix, hdrop, Bool.true_and, decimal]
  by_cases hneg : c < 0
  · rw [if_pos hneg]
    rfl
  · rw [if_neg hneg, hd]
    exact Bool.or_eq_true_iff.mpr (Or.inl hdigit)

theorem isCoreFile_plain {path : Bytes} (h : path ∈ plainFiles) : isCoreFile path = false := by
  have hall : (plainFiles.all fun path => !isCoreFile path) = true := by decide
  simpa using List.all_eq_true.mp hall path h

theorem plain_ne_core {path : Bytes} (h : path ∈ plainFiles) (c : ℤ) (s : CoreSetting) :
    path ≠ (Knob.core c s).path := by
  rintro rfl
  have hcore := isCoreFile_core c s
  rw [isCoreFile_plain h] at hcore
  exact Bool.noConfusion hcore

/-- **One knob, one file.** -/
theorem Knob.path_injective : Function.Injective Knob.path := by
  intro a b h
  cases a with
  | core c s =>
    cases b with
    | core c' s' =>
      have htail : decimal c ++ s.file = decimal c' ++ s'.file := List.append_cancel_left h
      obtain ⟨rest, hrest⟩ := s.exists_file_eq_cons
      obtain ⟨rest', hrest'⟩ := s'.exists_file_eq_cons
      rw [hrest, hrest'] at htail
      have hcut := congrArg (cut (chr '/')) htail
      rw [cut_append (slash_notMem_decimal c), cut_append (slash_notMem_decimal c')] at hcut
      obtain ⟨hc, hs⟩ := Prod.mk.inj (Option.some.inj hcut)
      have hfile : s.file = s'.file := by rw [hrest, hrest', hs]
      rw [decimal_injective hc, CoreSetting.file_injective hfile]
    | plain q => exact absurd h.symm (plain_ne_core q.prop c s)
  | plain p =>
    cases b with
    | core c' s' => exact absurd h (plain_ne_core p.prop c' s')
    | plain q => exact congrArg Knob.plain (Subtype.ext h)

end X3D
