import X3DToggle.Host

/-!
# What the daemon can reach

Requests come from any member of a group, while the daemon runs as root. `writes_confined` says
what a client can make it write to: over every run, whatever the requests are, the daemon passes
texts only to the files of the knobs within reach, and to one of the five mode nodes. A request
chooses the text and the number of a core; no part of it becomes a part of a name in any other way.

The mode node is written by `cli_set_mode` under the name that `find_path` has cached, so for it the
invariant is about the cache (`NodePath`).
-/

namespace X3D

/-- The knobs within reach. -/
def Knob.InReach (B : Build) : Knob → Prop
  | core c .online => IsInt32 c
  | core c _ => 0 ≤ c ∧ (c < B.ccd1Start ∨ c < B.totalCores)
  | plain _ => True

/-- What `find_path` may have cached. -/
def NodePath (cache : Bytes) : Prop := cache = [] ∨ cache ∈ modeTargets

/-! ### Assignments -/

section

variable {B : Build} {h : HwHost}

theorem inReach_single {path val : Bytes} : ∀ w ∈ single path val, w.1.InReach B := by
  intro w hw
  obtain ⟨knob, hknob, rfl⟩ := List.mem_map.mp hw
  unfold Knob.ofFile? at hknob
  by_cases hpath : path ∈ plainFiles
  · rw [dif_pos hpath, Option.toList_some, List.mem_singleton] at hknob
    rw [hknob]
    trivial
  · rw [dif_neg hpath, Option.toList_none] at hknob
    exact absurd hknob List.not_mem_nil

theorem inReach_onCores {setting : CoreSetting} (hsetting : setting ≠ .online) {val : Bytes}
    {cores : List ℕ} (hcores : ∀ i ∈ cores, i < B.ccd1Start ∨ i < B.totalCores) :
    ∀ w ∈ onCores setting val cores, w.1.InReach B := by
  intro w hw
  obtain ⟨i, hi, rfl⟩ := List.mem_map.mp hw
  have hbound : (0 : ℤ) ≤ i ∧ ((i : ℤ) < B.ccd1Start ∨ (i : ℤ) < B.totalCores) := by
    have hlt := hcores i hi
    omega
  cases setting with
  | online => exact absurd rfl hsetting
  | perf | epp | governor => exact hbound

theorem inReach_append {ws vs : List (Knob × Bytes)} (hws : ∀ w ∈ ws, w.1.InReach B)
    (hvs : ∀ w ∈ vs, w.1.InReach B) : ∀ w ∈ ws ++ vs, w.1.InReach B := by
  intro w hw
  rcases List.mem_append.mp hw with hmem | hmem
  · exact hws w hmem
  · exact hvs w hmem

theorem inReach_profile (bore gaming : Bool) : ∀ w ∈ profile bore gaming, w.1.InReach B := by
  unfold profile
  refine inReach_append inReach_single ?_
  split
  · exact inReach_append inReach_single inReach_single
  · exact fun w hw => absurd hw List.not_mem_nil

/-- A call is to set knobs within reach. -/
theorem inReach_sets {c : HwCall} (hc : c.Proper) (bore : Bool) :
    ∀ w ∈ c.sets B bore, w.1.InReach B := by
  have hall : ∀ i ∈ List.range B.totalCores, i < B.ccd1Start ∨ i < B.totalCores := fun i hi =>
    Or.inr (List.mem_range.mp hi)
  cases c with
  | modeApply partition => exact inReach_append inReach_single (inReach_profile bore _)
  | affinityMasks cache freq => exact inReach_append inReach_single inReach_single
  | setCore core online =>
    intro w hw
    obtain rfl := List.mem_singleton.mp hw
    exact hc
  | cppcPerf n => exact inReach_onCores (by decide) hall
  | cppcEpp val => exact inReach_onCores (by decide) hall
  | cppcGovernor val => exact inReach_onCores (by decide) hall
  | cppcCcd ccd val =>
    refine inReach_onCores (by decide) fun i hi => ?_
    have hlt := (List.Ico.mem.mp hi).2
    split at hlt
    · exact Or.inl hlt
    · exact Or.inr hlt
  | cppcBoost _ | cppcPstate _ | cppcPrefcore _ | sysctlWrite _ _ => exact inReach_single
  | cppcTdp _ | reset => exact fun w hw => absurd hw List.not_mem_nil

theorem inReach_input (hB : B.IntCores) (i : HostInput) : ∀ w ∈ i.sets B, w.1.InReach B := by
  obtain ⟨k, input⟩ := i
  cases input with
  | request env r =>
    intro w hw
    obtain ⟨c, hc, hmem⟩ := List.mem_flatMap.mp hw
    exact inReach_sets (proper_requestCalls hB env.fork r c hc) _ w hmem
  | timeout | poll | stop | gamemode | external => exact fun w hw => absurd hw List.not_mem_nil

/-- The start writes to the partitions. -/
theorem affinityInit_files (k : Kernel) (mkdirCache mkdirFrequency : Bool) :
    ∀ w ∈ (k.affinityInit B mkdirCache mkdirFrequency).2, w.path ∈ cgroupFiles := by
  have hnames : ∀ rel ∈ [lit "cache/cpuset.cpus", lit "frequency/cpuset.cpus",
      lit "cache/cpuset.mems", lit "frequency/cpuset.mems"],
      printfSn 512 (lit "%s/%s") [.str cgroupRoot, .str rel] ∈ cgroupFiles := by decide
  have hraw (rel val : Bytes) (hrel : rel ∈ [lit "cache/cpuset.cpus", lit "frequency/cpuset.cpus",
      lit "cache/cpuset.mems", lit "frequency/cpuset.mems"]) :
      ∀ w ∈ (k.cgroupWriteRaw rel val).2, w.path ∈ cgroupFiles := by
    intro w hw
    unfold Kernel.cgroupWriteRaw Kernel.writeFile at hw
    split at hw
    · exact absurd hw List.not_mem_nil
    · obtain rfl := List.mem_singleton.mp hw
      exact hnames rel hrel
  unfold Kernel.affinityInit
  split
  · exact List.forall_mem_nil _
  split
  · exact List.forall_mem_nil _
  dsimp only
  intro w hw
  simp only [List.mem_append] at hw
  rcases hw with ((hw | hw) | hw) | hw
  · exact hraw _ _ (by simp) w hw
  · exact hraw _ _ (by simp) w hw
  · exact hraw _ _ (by simp) w hw
  · exact hraw _ _ (by simp) w hw

/-! ### The mode node -/

theorem NodePath.findPath {cache : Bytes} (hcache : NodePath cache) (access : Bytes → Bool) :
    NodePath (X3D.findPath access cache) := by
  have hshort : ∀ path ∈ modeTargets, path.length ≤ 255 := by decide
  unfold X3D.findPath
  split
  · exact hcache
  · split
    · next path hfind =>
      have hmem := List.mem_of_find?_eq_some hfind
      rw [printfSn_s, List.take_of_length_le (hshort path hmem)]
      exact Or.inr hmem
    · exact hcache

section

variable {env : RequestEnv} {d : Daemon} {arg : Bytes}

theorem NodePath.handled {d' : Daemon} (h : Handled env d d') (hd : NodePath d.pathCache) :
    NodePath d'.pathCache := by
  induction h with
  | same h => exact h.pathCache ▸ hd
  | find d => exact hd.findPath env.io.access
  | setMode _ d => exact hd.findPath env.io.access
  | reprobe d => exact hd
  | trans _ _ ih ih' => exact ih' (ih hd)

/-- No request caches another name. -/
theorem nodePath_socketHandle (hd : NodePath d.pathCache) (r : Bytes) :
    NodePath (socketHandle B env r d).2.pathCache := by
  rcases handled_socketHandle B env r d with h | h
  · exact hd.handled h
  · exact h ▸ hd

theorem NodePath.polled {env : PollEnv} {d' : Daemon} (h : Polled env d d')
    (hd : NodePath d.pathCache) : NodePath d'.pathCache := by
  induction h with
  | read d => exact hd.findPath env.io.access
  | write d => exact hd.findPath env.io.access
  | refl | bpf | select | settle => exact hd
  | trans _ _ ih ih' => exact ih' (ih hd)

/-- No poll does. -/
theorem nodePath_pollingRun (hd : NodePath d.pathCache) (env : PollEnv) :
    NodePath (d.pollingRun env).pathCache :=
  hd.polled (polled_pollingRun env d)

end

theorem nodePath_step {s s' : Running} {i : Input} (hs : NodePath s.daemon.pathCache)
    (hstep : (daemonMachine B).step i s = some s') : NodePath s'.daemon.pathCache := by
  cases stepped hstep with
  | request env r d => exact nodePath_socketHandle hs r
  | poll env d => exact nodePath_pollingRun hs env
  | reload env r d => exact nodePath_pollingRun hs env
  | timeout | stop | gamemode | external => exact hs

theorem nodePath_boot (env : BootEnv) : NodePath (boot B env).pathCache := by
  have hfirst : NodePath (findPath env.io.access []) := NodePath.findPath (Or.inl rfl) _
  unfold boot
  dsimp only
  repeat' split
  all_goals first | exact hfirst.findPath _ | exact hfirst

/-! ### Every run -/

/-- **Confinement.** Whatever requests come in and whatever the kernel answers, the daemon writes to
the hardware only the knobs within its reach, and to the mode under one of its five names. -/
theorem writes_confined (hB : B.IntCores) (hreach : (hostMachine B).Reachable h) :
    (∀ w ∈ h.writes, ∃ knob : Knob, knob.InReach B ∧ w.path = knob.path) ∧
      NodePath h.running.daemon.pathCache := by
  obtain ⟨h₀, is, ⟨env, k, mkdirCache, mkdirFrequency, rfl⟩, hrun⟩ := hreach
  refine Machine.run_induction (P := fun h : HwHost =>
    (∀ w ∈ h.writes, ∃ knob : Knob, knob.InReach B ∧ w.path = knob.path) ∧
      NodePath h.running.daemon.pathCache) ?_ ⟨fun w hw => ?_, nodePath_boot env⟩ hrun
  · intro i _ h h' ⟨hwrites, hnode⟩ hstep
    obtain ⟨ws, hws, hsub, -⟩ := carries_hostStep hB hstep
    refine ⟨fun w hw => ?_, ?_⟩
    · rw [hws] at hw
      rcases List.mem_append.mp hw with hold | hnew
      · exact hwrites w hold
      · -- a new write is one of the assignments of the input
        obtain ⟨a, ha, hpair⟩ := List.mem_map.mp (hsub.subset (List.mem_map_of_mem hnew))
        exact ⟨a.1, inReach_input hB i a ha, (Prod.mk.inj hpair).1.symm⟩
    · change hostStep B i h = some h' at hstep
      obtain ⟨s, hs, rfl⟩ := Option.map_eq_some_iff.mp hstep
      exact nodePath_step hnode hs
  · have hfile := mem_plainFiles_of_cgroup (affinityInit_files k mkdirCache mkdirFrequency w hw)
    exact ⟨.plain ⟨w.path, hfile⟩, trivial, rfl⟩

theorem writes_confined_started :
    (∀ w ∈ startedHost.writes, ∃ knob : Knob, knob.InReach shippedBuild ∧ w.path = knob.path) ∧
      NodePath startedHost.running.daemon.pathCache :=
  writes_confined Build.intCores_shipped
    (Machine.Reachable.of_init ⟨_, _, true, true, rfl⟩)

end

end X3D
