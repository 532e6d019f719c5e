import X3DToggle.Hardware

/-!
# What a call is to set

`HwCall.sets` reads a call of the request handler as a list of assignments to knobs.
`Kernel.carries_perform` connects it with the code. Whatever fails, a call writes nothing but what
it is to set, and in this order; and a kernel that lets it do everything gets all of it.

A lost write can take others with it: the loops over the cores go on after a failure, while
`scheduler_set` and `cli_mode_apply` stop at the first one. `Kernel.Carries` is what both ways have
in common.
-/

namespace X3D

/-! ### What a call is to set -/

/-- The setting in a file that is there once. -/
def Knob.ofFile? (path : Bytes) : Option Knob :=
  if h : path ∈ plainFiles then some (.plain ⟨path, h⟩) else none

/-- An assignment to the setting in a file that is there once. -/
def single (path val : Bytes) : List (Knob × Bytes) :=
  (Knob.ofFile? path).toList.map fun knob => (knob, val)

/-- The same value for a setting of several cores. -/
def onCores (setting : CoreSetting) (val : Bytes) (cores : List ℕ) : List (Knob × Bytes) :=
  cores.map fun i : ℕ => (Knob.core i setting, val)

/-- The assignments of a scheduler profile, with or without the BORE scheduler. -/
def profile (bore gaming : Bool) : List (Knob × Bytes) :=
  single (procKernel ++ lit "sched_cfs_bandwidth_slice_us")
    (if gaming then lit "3000" else lit "5000") ++
  if bore then
    single boreFile (Kernel.flag gaming) ++
    single (procKernel ++ lit "sched_bit_shift") (if gaming then lit "14" else lit "12")
  else []

/-- The file that takes processes into a partition. -/
def procsFile (partition : ℕ) : Bytes :=
  cgroupRoot ++ (if partition = 1 then lit "/cache/cgroup.procs"
    else if partition = 2 then lit "/frequency/cgroup.procs" else lit "//cgroup.procs")

/-- **What a call of the request handler is to set.** -/
def HwCall.sets (B : Build) (bore : Bool) : HwCall → List (Knob × Bytes)
  | modeApply partition => single (procsFile partition) (lit "0") ++ profile bore (partition = 1)
  | affinityMasks cache freq =>
    single (cgroupRoot ++ lit "/cache/cpuset.cpus") cache ++
      single (cgroupRoot ++ lit "/frequency/cpuset.cpus") freq
  | cppcPerf n => onCores .perf (decimal n) (List.range B.totalCores)
  | cppcBoost enable => single boostFile (Kernel.flag enable)
  | setCore core online => [(.core core .online, Kernel.flag online)]
  | cppcTdp _ => []
  | cppcEpp val => onCores .epp val (List.range B.totalCores)
  | cppcCcd ccd val => onCores .epp val
      (List.Ico (if ccd = 0 then 0 else B.ccd1Start)
        (if ccd = 0 then B.ccd1Start else B.totalCores))
  | cppcPstate val => single pstateFile val
  | cppcGovernor val => onCores .governor val (List.range B.totalCores)
  | cppcPrefcore enable => single prefcoreFile (Kernel.flag enable)
  | reset => []
  | sysctlWrite path val => single path val

/-- The arguments the request handler makes calls with. -/
def HwCall.Proper : HwCall → Prop
  | setCore core _ => IsInt32 core
  | cppcPerf n => IsInt32 n
  | sysctlWrite path _ => path ∈ sysctlFiles
  | _ => True

/-- The core numbers of the generated header are an `int`. -/
structure Build.IntCores (B : Build) : Prop where
  start : B.ccd1Start < 2 ^ 31
  total : B.totalCores < 2 ^ 31

/-- An assignment, by its file. -/
def inFile (w : Knob × Bytes) : Bytes × Bytes := (w.1.path, w.2)

/-- A write, without its outcome. -/
def FileWrite.text? (w : FileWrite) : Bytes × Bytes := (w.path, w.text)

theorem inFile_single {path : Bytes} (h : path ∈ plainFiles) (val : Bytes) :
    (single path val).map inFile = [(path, val)] := by
  unfold single Knob.ofFile?
  rw [dif_pos h]
  rfl

theorem mem_plainFiles_of_sysctl {path : Bytes} (h : path ∈ sysctlFiles) : path ∈ plainFiles :=
  List.mem_append_left _ (List.mem_append_left _ (List.mem_append_right _ h))

theorem mem_plainFiles_of_cgroup {path : Bytes} (h : path ∈ cgroupFiles) : path ∈ plainFiles :=
  List.mem_append_right _ h

/-! ### What a call writes -/

/-- A kernel that lets the daemon do everything. -/
structure Kernel.Permissive (k : Kernel) : Prop where
  root : k.root = true
  opens : ∀ path, k.opens path = true
  takes : ∀ path text, k.takes path text = true
  closes : ∀ path, k.closes path = true

/-- The writes go to the listed files with the listed texts, in this order; some may be missing,
but under a permissive kernel none is, and all are taken. -/
def Kernel.Carries (k : Kernel) (ws : List FileWrite) (listed : List (Bytes × Bytes)) : Prop :=
  (ws.map FileWrite.text?).Sublist listed ∧
    (k.Permissive → ws = listed.map fun w => ⟨w.1, w.2, true⟩)

/-- A kernel that refuses nothing, with the BORE scheduler. -/
def Kernel.allOk : Kernel where
  root := true
  present _ := true
  opens _ := true
  takes _ _ := true
  closes _ := true
  child _ := true

theorem Kernel.permissive_allOk : Kernel.allOk.Permissive :=
  ⟨rfl, fun _ => rfl, fun _ _ => rfl, fun _ => rfl⟩

namespace Kernel

variable {k : Kernel} {B : Build}

theorem Carries.nil : k.Carries [] [] := ⟨List.Sublist.refl _, fun _ => rfl⟩

theorem Carries.append {ws vs : List FileWrite} {a b : List (Bytes × Bytes)} (hws : k.Carries ws a)
    (hvs : k.Carries vs b) : k.Carries (ws ++ vs) (a ++ b) := by
  constructor
  · rw [List.map_append]
    exact hws.1.append hvs.1
  · intro hperm
    rw [List.map_append, ← hws.2 hperm, ← hvs.2 hperm]

/-- A step that may fail, and what comes after it. -/
theorem carries_orFail {first rest : Effect} {a b : List (Bytes × Bytes)}
    (hfirst : k.Carries first.2 a) (hrest : k.Carries rest.2 b)
    (hok : k.Permissive → first.1 = 0) : k.Carries (orFail first rest).2 (a ++ b) := by
  unfold orFail
  by_cases h : first.1 = 0
  · rw [if_neg (not_not.mpr h)]
    exact hfirst.append hrest
  · rw [if_pos h]
    refine ⟨hfirst.1.trans (List.sublist_append_left a b), ?_⟩
    intro hperm
    exact absurd (hok hperm) h

theorem carries_writeFile (path text : Bytes) (missing failed : ℤ) :
    k.Carries (k.writeFile path text missing failed).2 [(path, text)] := by
  unfold writeFile
  by_cases h : k.opens path = true
  · rw [h, if_neg (by simp)]
    refine ⟨List.Sublist.refl _, fun hperm => ?_⟩
    rw [put, hperm.takes]
    rfl
  · rw [Bool.eq_false_of_not_eq_true h]
    refine ⟨List.nil_sublist _, ?_⟩
    intro hperm
    exact absurd (hperm.opens path) h

/-- The loop writes to the files it can open. -/
theorem preferenceLoop_writes (env : CppcEnv) (val : Bytes) (is : List ℕ) (ret : ℤ) :
    (preferenceLoop env val is ret).2 = (is.filter env.opens).map fun i => (i, val) := by
  induction is generalizing ret with
  | nil => rfl
  | cons i is ih =>
    rw [preferenceLoop, List.filter_cons]
    by_cases h : env.opens i = true
    · rw [if_pos h, if_pos h, List.map_cons, ← ih]
    · rw [if_neg h, if_neg h, ih]

/-- The loop over the cores. -/
theorem carries_eachCore {file : ℕ → Bytes} {setting : CoreSetting} {cores : List ℕ}
    (hfile : ∀ i ∈ cores, file i = (Knob.core i setting).path) (val : Bytes) :
    k.Carries (k.eachCore file val cores).2 ((onCores setting val cores).map inFile) := by
  have hlisted : (onCores setting val cores).map inFile = cores.map fun i => (file i, val) := by
    rw [onCores, List.map_map]
    refine List.map_congr_left fun i hi => ?_
    rw [hfile i hi]
    rfl
  have hwrites : (k.eachCore file val cores).2 =
      (cores.filter fun i => k.opens (file i)).map fun i => k.put (file i) val := by
    unfold eachCore
    dsimp only
    rw [preferenceLoop_writes, List.map_map]
    rfl
  rw [hlisted, hwrites]
  constructor
  · rw [List.map_map]
    exact List.filter_sublist.map _
  · intro hperm
    have hall : (cores.filter fun i => k.opens (file i)) = cores :=
      List.filter_eq_self.mpr fun i _ => hperm.opens _
    rw [hall, List.map_map]
    refine List.map_congr_left fun i _ => ?_
    rw [put, hperm.takes]
    rfl

theorem carries_sysctlWrite {path : Bytes} (hpath : path ∈ plainFiles) (val : Bytes) :
    k.Carries (k.sysctlWrite path val).2 ((single path val).map inFile) := by
  rw [inFile_single hpath]
  unfold sysctlWrite
  by_cases h : k.opens path = true
  · rw [h, if_neg (by simp)]
    refine ⟨List.Sublist.refl _, fun hperm => ?_⟩
    rw [put, hperm.takes]
    rfl
  · rw [Bool.eq_false_of_not_eq_true h]
    refine ⟨List.nil_sublist _, ?_⟩
    intro hperm
    exact absurd (hperm.opens path) h

/-- A node of `/proc/sys/kernel` by its name. -/
theorem sysctlKernelWrite_eq {node : Bytes} (hshort : node.length < 100) (value : Bytes) :
    k.sysctlKernelWrite node value =
      if !k.opens (procKernel ++ node) then (-1, [])
      else (if k.takes (procKernel ++ node) value ∧ k.closes (procKernel ++ node) then 0 else -1,
        [k.put (procKernel ++ node) value]) := by
  have hlen : (procKernel ++ node).length ≤ 127 := by
    have hdir : procKernel.length = 17 := by decide
    rw [List.length_append]
    omega
  unfold sysctlKernelWrite
  dsimp only
  rw [printfSn_two, List.take_of_length_le hlen, if_neg (by omega)]

theorem carries_sysctlKernelWrite {node : Bytes} (hshort : node.length < 100)
    (hpath : procKernel ++ node ∈ plainFiles) (value : Bytes) :
    k.Carries (k.sysctlKernelWrite node value).2 ((single (procKernel ++ node) value).map inFile) ∧
      (k.Permissive → (k.sysctlKernelWrite node value).1 = 0) := by
  rw [inFile_single hpath, sysctlKernelWrite_eq hshort]
  by_cases h : k.opens (procKernel ++ node) = true
  · rw [h, if_neg (by simp)]
    refine ⟨⟨List.Sublist.refl _, fun hperm => ?_⟩, fun hperm => ?_⟩
    · rw [put, hperm.takes]
      rfl
    · exact if_pos ⟨hperm.takes _ _, hperm.closes _⟩
  · rw [Bool.eq_false_of_not_eq_true h]
    refine ⟨⟨List.nil_sublist _, fun hperm => ?_⟩, fun hperm => ?_⟩
    · exact absurd (hperm.opens _) h
    · exact absurd (hperm.opens _) h

/-- `scheduler_set` writes its profile, up to the first failure. -/
theorem carries_schedulerSet (gaming : Bool) :
    k.Carries (k.schedulerSet gaming).2 ((profile (k.present boreFile) gaming).map inFile) := by
  have hnodes : ∀ node ∈ [lit "sched_cfs_bandwidth_slice_us", lit "sched_bore",
      lit "sched_bit_shift"], node.length < 100 ∧ procKernel ++ node ∈ sysctlFiles := by decide
  have hnode (node : Bytes) (hmem : node ∈ [lit "sched_cfs_bandwidth_slice_us", lit "sched_bore",
      lit "sched_bit_shift"]) (value : Bytes) :=
    carries_sysctlKernelWrite (k := k) (hnodes node hmem).1
      (mem_plainFiles_of_sysctl (hnodes node hmem).2) value
  obtain ⟨hslice, hsliceok⟩ := hnode (lit "sched_cfs_bandwidth_slice_us") List.mem_cons_self
    (if gaming then lit "3000" else lit "5000")
  obtain ⟨hbore, hboreok⟩ := hnode (lit "sched_bore")
    (List.mem_cons_of_mem _ List.mem_cons_self) (flag gaming)
  obtain ⟨hshift, hshiftok⟩ := hnode (lit "sched_bit_shift")
    (List.mem_cons_of_mem _ (List.mem_cons_of_mem _ List.mem_cons_self))
    (if gaming then lit "14" else lit "12")
  unfold schedulerSet schedulerCheck profile
  rw [List.map_append]
  by_cases hroot : k.root = true
  · rw [hroot, if_neg (by simp)]
    refine carries_orFail hslice ?_ hsliceok
    by_cases hpresent : k.present boreFile = true
    · rw [if_pos hpresent, if_pos hpresent, List.map_append]
      refine carries_orFail hbore ?_ hboreok
      have hend : k.Carries ((0, []) : Effect).2 [] := Carries.nil
      have hlast := carries_orFail hshift hend hshiftok
      rwa [List.append_nil] at hlast
    · rw [if_neg hpresent, if_neg hpresent]
      exact Carries.nil
  · rw [Bool.eq_false_of_not_eq_true hroot]
    refine ⟨List.nil_sublist _, ?_⟩
    intro hperm
    exact absurd hperm.root hroot

/-- A file of a partition, as `cgroup_write_raw` puts its name together. -/
theorem carries_cgroupWriteRaw {rel : Bytes} (hname : printfSn 512 (lit "%s/%s")
    [.str cgroupRoot, .str rel] ∈ cgroupFiles) (val : Bytes) :
    k.Carries (k.cgroupWriteRaw rel val).2
      ((single (printfSn 512 (lit "%s/%s") [.str cgroupRoot, .str rel]) val).map inFile) := by
  rw [inFile_single (mem_plainFiles_of_cgroup hname)]
  exact carries_writeFile _ _ _ _

/-- The names `cgroup_write_raw` puts together. -/
theorem cgroupWriteRaw_names :
    printfSn 512 (lit "%s/%s") [.str cgroupRoot, .str (lit "cache/cpuset.cpus")] =
      cgroupRoot ++ lit "/cache/cpuset.cpus" ∧
    printfSn 512 (lit "%s/%s") [.str cgroupRoot, .str (lit "frequency/cpuset.cpus")] =
      cgroupRoot ++ lit "/frequency/cpuset.cpus" := by
  decide

theorem carries_affinitySetMasks (cache freq : Bytes) :
    k.Carries (k.affinitySetMasks cache freq).2
      ((single (cgroupRoot ++ lit "/cache/cpuset.cpus") cache ++
        single (cgroupRoot ++ lit "/frequency/cpuset.cpus") freq).map inFile) := by
  have hfiles : ∀ rel ∈ [lit "/cache/cpuset.cpus", lit "/frequency/cpuset.cpus"],
      cgroupRoot ++ rel ∈ cgroupFiles := by decide
  rw [List.map_append]
  refine Carries.append ?_ ?_
  · rw [← cgroupWriteRaw_names.1]
    refine carries_cgroupWriteRaw ?_ cache
    rw [cgroupWriteRaw_names.1]
    exact hfiles _ List.mem_cons_self
  · rw [← cgroupWriteRaw_names.2]
    refine carries_cgroupWriteRaw ?_ freq
    rw [cgroupWriteRaw_names.2]
    exact hfiles _ (List.mem_cons_of_mem _ List.mem_cons_self)

/-- The names `cgroup_write_pid` puts together. -/
theorem cgroupWritePid_names :
    printfSn 256 (lit "%s/%s/cgroup.procs") [.str cgroupRoot, .str (lit "cache")] = procsFile 1 ∧
    printfSn 256 (lit "%s/%s/cgroup.procs") [.str cgroupRoot, .str (lit "frequency")] =
      procsFile 2 ∧
    printfSn 256 (lit "%s/%s/cgroup.procs") [.str cgroupRoot, .str []] = procsFile 0 := by
  decide

theorem procsFile_mem (partition : ℕ) : procsFile partition ∈ plainFiles := by
  have hfiles : ∀ rel ∈ [lit "/cache/cgroup.procs", lit "/frequency/cgroup.procs",
      lit "//cgroup.procs"], cgroupRoot ++ rel ∈ cgroupFiles := by decide
  unfold procsFile
  refine mem_plainFiles_of_cgroup (hfiles _ ?_)
  split
  · exact List.mem_cons_self
  · split
    · exact List.mem_cons_of_mem _ List.mem_cons_self
    · exact List.mem_cons_of_mem _ (List.mem_cons_of_mem _ List.mem_cons_self)

/-- The daemon itself, process 0 to the kernel, goes into a partition. -/
theorem affinityPartition_zero (partition : ℕ) :
    k.affinityPartition 0 partition =
      k.writeFile (procsFile partition) (lit "0") errCgroup errCgroup := by
  have hpid : printfSn 16 (lit "%d") [.int 0] = lit "0" := by decide
  unfold affinityPartition cgroupWritePid
  rw [hpid, cgroupWritePid_names.1, cgroupWritePid_names.2.1, cgroupWritePid_names.2.2]
  by_cases h1 : partition = 1
  · rw [if_pos h1, h1]
  · by_cases h2 : partition = 2
    · rw [if_neg h1, if_pos h2, h2]
    · have hrest : procsFile partition = procsFile 0 := by
        unfold procsFile
        rw [if_neg h1, if_neg h2, if_neg (by decide), if_neg (by decide)]
      rw [if_neg h1, if_neg h2, hrest]

theorem carries_cliModeApply (mode : ℕ) :
    k.Carries (k.cliModeApply mode).2
      ((single (procsFile mode) (lit "0") ++
        profile (k.present boreFile) (mode = 1)).map inFile) := by
  have hmove : k.Carries (k.affinityPartition 0 mode).2
      ((single (procsFile mode) (lit "0")).map inFile) := by
    rw [affinityPartition_zero, inFile_single (procsFile_mem mode)]
    exact carries_writeFile _ _ _ _
  have hmoveok : k.Permissive → (k.affinityPartition 0 mode).1 = 0 := by
    intro hperm
    have htaken : true = true ∧ lit "0" ≠ [] := ⟨rfl, by decide⟩
    rw [affinityPartition_zero, writeFile, hperm.opens, hperm.takes, if_neg (by simp)]
    show (if true = true ∧ lit "0" ≠ [] then errSuccess else errCgroup) = 0
    exact if_pos htaken
  unfold cliModeApply
  rw [List.map_append]
  by_cases hroot : k.root = true
  · rw [hroot, if_neg (by simp)]
    dsimp only
    by_cases haff : (k.affinityPartition 0 mode).1 = 0
    · rw [if_neg (not_not.mpr haff)]
      exact hmove.append (carries_schedulerSet _)
    · rw [if_pos haff]
      refine ⟨hmove.1.trans (List.sublist_append_left _ _), ?_⟩
      intro hperm
      exact absurd (hmoveok hperm) haff
  · rw [Bool.eq_false_of_not_eq_true hroot]
    refine ⟨List.nil_sublist _, ?_⟩
    intro hperm
    exact absurd hperm.root hroot

/-- **A call writes what it is to set.** Whatever the kernel refuses, it writes nothing else. -/
theorem carries_perform (hB : B.IntCores) {c : HwCall} (hc : c.Proper) :
    k.Carries (k.perform B c).2 ((c.sets B (k.present boreFile)).map inFile) := by
  have hplain : ∀ path ∈ [boostFile, pstateFile, prefcoreFile], path ∈ plainFiles := fun path h =>
    List.mem_append_left _ (List.mem_append_right _ h)
  have hone (path : Bytes) (hpath : path ∈ [boostFile, pstateFile, prefcoreFile]) (val : Bytes) :
      k.Carries (k.writeFile path val errHw errIo).2 ((single path val).map inFile) := by
    rw [inFile_single (hplain path hpath)]
    exact carries_writeFile _ _ _ _
  have hall : ∀ i ∈ List.range B.totalCores, i < 2 ^ 31 := fun i hi =>
    (List.mem_range.mp hi).trans hB.total
  cases c with
  | modeApply partition => exact carries_cliModeApply partition
  | affinityMasks cache freq => exact carries_affinitySetMasks cache freq
  | cppcPerf n =>
    have hn : IsInt32 n := hc
    have hnumber : printfSn 16 (lit "%d") [.int n] = decimal n := by
      have hlen := length_decimal_le hn
      unfold IsInt32 at hn
      rw [printfSn_d, xuiItoa_eq_decimal (by omega), List.take_of_length_le (by omega)]
    show k.Carries (k.eachCore perfPath (printfSn 16 (lit "%d") [.int n]) _).2 _
    rw [hnumber]
    exact carries_eachCore (fun i hi => perfPath_eq (hall i hi)) _
  | cppcBoost enable => exact hone boostFile List.mem_cons_self _
  | setCore core online =>
    have hname : printfSn 128 (lit "/sys/devices/system/cpu/cpu%d/online") [.int core] =
        (Knob.core core .online).path :=
      printfSn_core hc .online (by decide)
    show k.Carries (k.writeFile (printfSn 128 _ [.int core]) _ _ _).2 _
    rw [hname]
    exact carries_writeFile _ _ _ _
  | cppcTdp watts => exact Carries.nil
  | cppcEpp val => exact carries_eachCore (fun i hi => eppPath_eq (hall i hi)) val
  | cppcCcd ccd val =>
    refine carries_eachCore (fun i hi => eppPath_eq ?_) val
    have hlt := (List.Ico.mem.mp hi).2
    have hstart := hB.start
    have htotal := hB.total
    split at hlt <;> omega
  | cppcPstate val => exact hone pstateFile (List.mem_cons_of_mem _ List.mem_cons_self) val
  | cppcGovernor val => exact carries_eachCore (fun i hi => governorPath_eq (hall i hi)) val
  | cppcPrefcore enable =>
    exact hone prefcoreFile (List.mem_cons_of_mem _ (List.mem_cons_of_mem _ List.mem_cons_self)) _
  | reset => exact Carries.nil
  | sysctlWrite path val => exact carries_sysctlWrite (mem_plainFiles_of_sysctl hc) val

/-! ### Both sides and all cores -/

/-- The loop succeeds if every file it can open takes the text. -/
theorem preferenceLoop_result (env : CppcEnv) (val : Bytes) (is : List ℕ) (ret : ℤ) :
    (preferenceLoop env val is ret).1 =
      if ∀ i ∈ is, env.opens i = true → env.writes i = true then ret else errIo := by
  induction is generalizing ret with
  | nil => exact (if_pos (List.forall_mem_nil _)).symm
  | cons i is ih =>
    rw [preferenceLoop]
    by_cases hopen : env.opens i = true
    · rw [if_pos hopen]
      dsimp only
      rw [ih]
      by_cases hwrite : env.writes i = true
      · simp only [List.forall_mem_cons, hopen, hwrite, true_and, if_true, forall_const]
      · simp only [List.forall_mem_cons, hopen, hwrite, forall_const, false_and, if_false,
          ite_self, Bool.false_eq_true]
    · rw [if_neg hopen, ih]
      simp only [List.forall_mem_cons, hopen, false_imp_iff, true_and, Bool.false_eq_true]

theorem eachCore_append (file : ℕ → Bytes) (val : Bytes) (a b : List ℕ) :
    (k.eachCore file val (a ++ b)).2 = (k.eachCore file val a).2 ++ (k.eachCore file val b).2 := by
  unfold eachCore
  dsimp only
  rw [preferenceLoop_writes, preferenceLoop_writes, preferenceLoop_writes, List.filter_append,
    List.map_append, List.map_append]

theorem eachCore_ok_iff {file : ℕ → Bytes} {val : Bytes} {cores : List ℕ} :
    (k.eachCore file val cores).1 = errSuccess ↔
      ∀ i ∈ cores, k.opens (file i) = true → k.takes (file i) val = true := by
  unfold eachCore
  dsimp only
  rw [preferenceLoop_result]
  split
  · next h => exact iff_of_true rfl h
  · next h => exact iff_of_false (by decide) h

/-- A file that is opened, takes the text and is closed. -/
def GoesThrough (k : Kernel) (w : Bytes × Bytes) : Prop :=
  k.opens w.1 = true ∧ k.takes w.1 w.2 = true ∧ k.closes w.1 = true

/-- The writes are a beginning of the listed ones, and the result is 0 if all of them went
through. -/
def Begins (k : Kernel) (e : Effect) (listed : List (Bytes × Bytes)) : Prop :=
  e.2.map FileWrite.text? <+: listed ∧ (e.1 = 0 ↔ ∀ w ∈ listed, k.GoesThrough w)

theorem Begins.nil : k.Begins (0, []) [] :=
  ⟨List.prefix_refl _, iff_of_true rfl (List.forall_mem_nil _)⟩

/-- A step that stops the rest if it fails. -/
theorem Begins.orFail {first rest : Effect} {w : Bytes × Bytes} {listed : List (Bytes × Bytes)}
    (hfirst : k.Begins first [w]) (hrest : k.Begins rest listed)
    (hall : first.1 = 0 → first.2.map FileWrite.text? = [w]) :
    k.Begins (Kernel.orFail first rest) (w :: listed) := by
  unfold Kernel.orFail
  by_cases h : first.1 = 0
  · rw [if_neg (not_not.mpr h)]
    refine ⟨?_, ?_⟩
    · rw [List.map_append, hall h]
      exact (List.prefix_append_right_inj [w]).mpr hrest.1
    · have hw := List.forall_mem_singleton.mp (hfirst.2.mp h)
      rw [List.forall_mem_cons, ← hrest.2]
      exact (and_iff_right hw).symm
  · rw [if_pos h]
    refine ⟨hfirst.1.trans (List.prefix_append [w] listed),
      iff_of_false (show ¬((-1 : ℤ) = 0) by decide) ?_⟩
    intro hlisted
    exact h (hfirst.2.mpr (List.forall_mem_singleton.mpr (hlisted w List.mem_cons_self)))

theorem begins_sysctlKernelWrite {node : Bytes} (hshort : node.length < 100) (value : Bytes) :
    k.Begins (k.sysctlKernelWrite node value) [(procKernel ++ node, value)] ∧
      ((k.sysctlKernelWrite node value).1 = 0 →
        (k.sysctlKernelWrite node value).2.map FileWrite.text? =
          [(procKernel ++ node, value)]) := by
  rw [sysctlKernelWrite_eq hshort]
  by_cases hopen : k.opens (procKernel ++ node) = true
  · rw [hopen, if_neg (by simp)]
    refine ⟨⟨List.prefix_refl _, ?_⟩, fun _ => rfl⟩
    rw [List.forall_mem_singleton, GoesThrough, hopen]
    by_cases hdone : k.takes (procKernel ++ node) value = true ∧
        k.closes (procKernel ++ node) = true
    · rw [if_pos hdone]
      exact iff_of_true rfl ⟨rfl, hdone⟩
    · rw [if_neg hdone]
      exact iff_of_false (show ¬((-1 : ℤ) = 0) by decide) fun h => hdone h.2
  · have hfails : ¬((-1 : ℤ) = 0) := by decide
    rw [Bool.eq_false_of_not_eq_true hopen]
    refine ⟨⟨List.nil_prefix, iff_of_false hfails ?_⟩, fun h => absurd h hfails⟩
    intro h
    exact hopen (List.forall_mem_singleton.mp h).1

/-- The files of a profile. -/
theorem inFile_profile (bore gaming : Bool) :
    (profile bore gaming).map inFile =
      (procKernel ++ lit "sched_cfs_bandwidth_slice_us",
        if gaming then lit "3000" else lit "5000") ::
      if bore then
        [(procKernel ++ lit "sched_bore", flag gaming),
          (procKernel ++ lit "sched_bit_shift", if gaming then lit "14" else lit "12")]
      else [] := by
  have hfile (node : Bytes) (hnode : procKernel ++ node ∈ sysctlFiles) (value : Bytes) :
      (single (procKernel ++ node) value).map inFile = [(procKernel ++ node, value)] :=
    inFile_single (mem_plainFiles_of_sysctl hnode) value
  rw [profile, List.map_append, hfile _ (by decide), List.singleton_append]
  cases bore with
  | false => rfl
  | true =>
    rw [if_pos rfl, if_pos rfl, List.map_append, boreFile, hfile _ (by decide),
      hfile _ (by decide)]
    rfl

/-- **A scheduler profile.** `scheduler_set` writes a beginning of its profile, and returns 0 if the
process is root and all of the profile went through. -/
theorem schedulerSet_begins (k : Kernel) (gaming : Bool) :
    let listed := (profile (k.present boreFile) gaming).map inFile
    (k.schedulerSet gaming).2.map FileWrite.text? <+: listed ∧
      ((k.schedulerSet gaming).1 = 0 ↔ k.root = true ∧ ∀ w ∈ listed, k.GoesThrough w) := by
  intro listed
  obtain ⟨hslice, hsliceall⟩ :=
    begins_sysctlKernelWrite (k := k)
      (show (lit "sched_cfs_bandwidth_slice_us").length < 100 by decide)
      (if gaming then lit "3000" else lit "5000")
  obtain ⟨hbore, hboreall⟩ :=
    begins_sysctlKernelWrite (k := k) (show (lit "sched_bore").length < 100 by decide)
      (flag gaming)
  obtain ⟨hshift, hshiftall⟩ :=
    begins_sysctlKernelWrite (k := k) (show (lit "sched_bit_shift").length < 100 by decide)
      (if gaming then lit "14" else lit "12")
  by_cases hroot : k.root = true
  · have hall : k.Begins (k.schedulerSet gaming) listed := by
      show k.Begins _ ((profile _ _).map inFile)
      rw [inFile_profile, schedulerSet, schedulerCheck, hroot, if_neg (by simp)]
      refine Begins.orFail hslice ?_ hsliceall
      by_cases hpresent : k.present boreFile = true
      · rw [if_pos hpresent, if_pos hpresent]
        exact Begins.orFail hbore (Begins.orFail hshift Begins.nil hshiftall) hboreall
      · rw [if_neg hpresent, if_neg hpresent]
        exact Begins.nil
    exact ⟨hall.1, hall.2.trans (and_iff_right hroot).symm⟩
  · -- the first thing the function checks
    have hfails : k.schedulerSet gaming = (-1, []) := by
      unfold schedulerSet
      rw [Bool.eq_false_of_not_eq_true hroot]
      rfl
    rw [hfails]
    refine ⟨List.nil_prefix, iff_of_false (show ¬((-1 : ℤ) = 0) by decide) ?_⟩
    intro h
    exact hroot h.1

end Kernel
end X3D
