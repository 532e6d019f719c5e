import X3DToggle.Effects
import X3DToggle.Handled

/-!
# The daemon on its machine

`hostMachine` is the main loop together with the kernel it runs on. A request makes its calls, and
the calls make their writes; the results the handler works with are those of the code. Polls,
signals and other processes make no calls.

`Verb.calls` says what a request asks of the hardware. It depends on the text of the request alone,
and not on the state of the daemon (`calls_handle`). Two results about every run follow from this
and from `Kernel.carries_perform`. Whatever the kernel refuses, the daemon writes nothing that was
not asked for (`writes_asked`). And on a kernel that refuses nothing the machine is a store of
settings, in which each knob holds what it was last given (`settings_lastGiven`).
-/

namespace X3D

/-! ### What a request asks for -/

/-- The call that an `int` argument makes, if it is one. -/
def intCalls (arg : Bytes) (c : ℤ → HwCall) : List HwCall :=
  match Daemon.intArg arg with
  | .value n => [c n]
  | _ => []

/-- The calls of a branch of `socket_handle`. -/
def Verb.calls (B : Build) (fork : Bool) (arg : Bytes) : Verb → List HwCall
  | setMode =>
    if contains arg (lit "auto") || contains arg (lit "default") || contains arg (lit "reset") then
      []
    else if contains arg (lit "cache") then [.modeApply 1]
    else if contains arg (lit "frequency") then [.modeApply 2]
    else if contains arg (lit "dual") || contains arg (lit "swap") then [.modeApply 0]
    else []
  | setAffinityConfig => (strchr arg (chr ' ')).toList.map fun p => .affinityMasks p.1 p.2
  | setCppc =>
    let r := strtol10 arg
    if r.endptr.any (fun rest => rest ≠ arg ∧ !r.erange ∧
        (rest.dropWhile fun c => isBlank c || c = chr '\r' || c = nl) = [] ∧ IsInt32 r.val) then
      [.cppcPerf r.val]
    else []
  | setBoost => [.cppcBoost (contains arg (lit "on"))]
  | setPark =>
    if arg = lit "ccd1" then
      (List.Ico B.ccd1Start B.totalCores).map fun i : ℕ => .setCore i false
    else intCalls arg fun n => .setCore n false
  | setUnpark =>
    if arg = lit "ccd1" ∨ arg = lit "all" then [] else intCalls arg fun n => .setCore n true
  | setTdp => intCalls arg .cppcTdp
  | setEpp => [.cppcEpp arg]
  | setEppCcd => (strchr arg (chr ' ')).toList.flatMap fun p => intCalls p.1 fun n => .cppcCcd n p.2
  | setPstate => [.cppcPstate arg]
  | setGovernor => [.cppcGovernor arg]
  | setPrefcore => [.cppcPrefcore (contains arg (lit "on") || contains arg (lit "1"))]
  | setDaemon => if arg = lit "auto" ∧ fork then [.reset] else []
  | advancedSet => (strchr arg (chr ' ')).toList.flatMap fun p =>
    (Daemon.advancedTable.lookup p.1).toList.map fun t => .sysctlWrite t.path p.2
  | _ => []

/-- The calls of a request. -/
def requestCalls (B : Build) (fork : Bool) (r : Bytes) : List HwCall :=
  if r = [] then []
  else (dispatch (received r)).toList.flatMap fun v => v.1.calls B fork ((received r).drop v.2)

section

variable {B : Build} {env : RequestEnv} {d : Daemon} {arg : Bytes}

theorem calls_intRequest (c : ℤ → HwCall) :
    (d.intRequest env arg c).2.calls = d.calls ++ intCalls arg c := by
  unfold Daemon.intRequest intCalls
  cases Daemon.intArg arg with
  | value n => rfl
  | invalid => exact (List.append_nil _).symm
  | fault => exact (List.append_nil _).symm

theorem calls_parkLoop (is : List ℕ) (ret : ℤ) :
    (Daemon.parkCores env is ret d).2.calls =
      d.calls ++ is.map fun i : ℕ => HwCall.setCore i false := by
  induction is generalizing ret d with
  | nil => exact (List.append_nil _).symm
  | cons i is ih =>
    rw [Daemon.parkCores, List.map_cons]
    refine (ih _).trans ?_
    exact List.append_assoc _ _ _

theorem calls_handleSetMode :
    (d.handleSetMode env arg).2.calls = d.calls ++ Verb.setMode.calls B env.fork arg := by
  unfold Daemon.handleSetMode Verb.calls
  by_cases hauto : (contains arg (lit "auto") || contains arg (lit "default") ||
      contains arg (lit "reset")) = true
  · rw [if_pos hauto, if_pos hauto, List.append_nil]
  rw [if_neg hauto, if_neg hauto]
  by_cases hcache : contains arg (lit "cache") = true
  · rw [if_pos hcache, if_pos hcache]
    rfl
  rw [if_neg hcache, if_neg hcache]
  by_cases hfrequency : contains arg (lit "frequency") = true
  · rw [if_pos hfrequency, if_pos hfrequency]
    rfl
  rw [if_neg hfrequency, if_neg hfrequency]
  by_cases hdual : contains arg (lit "dual") = true
  · rw [if_pos hdual, hdual]
    rfl
  rw [if_neg hdual, Bool.eq_false_of_not_eq_true hdual, Bool.false_or]
  by_cases hswap : contains arg (lit "swap") = true
  · rw [if_pos hswap, if_pos hswap]
    rfl
  · rw [if_neg hswap, if_neg hswap, List.append_nil]

theorem calls_handleSetCppc :
    (d.handleSetCppc env arg).2.calls = d.calls ++ Verb.setCppc.calls B env.fork arg := by
  unfold Daemon.handleSetCppc Verb.calls
  dsimp only
  cases (strtol10 arg).endptr with
  | none => exact (List.append_nil _).symm
  | some rest =>
    dsimp only
    rw [Option.any_some]
    by_cases h : rest ≠ arg ∧ (!(strtol10 arg).erange) = true ∧
        (rest.dropWhile fun c => isBlank c || c = chr '\r' || c = nl) = [] ∧
        IsInt32 (strtol10 arg).val
    · rw [if_pos h, if_pos (decide_eq_true h)]
      rfl
    · rw [if_neg h, decide_eq_false h, if_neg Bool.false_ne_true, List.append_nil]

theorem calls_handleSetDaemon :
    (d.handleSetDaemon env arg).2.calls = d.calls ++ Verb.setDaemon.calls B env.fork arg := by
  unfold Daemon.handleSetDaemon Verb.calls
  dsimp only
  by_cases hreset : arg = lit "auto" ∧ env.fork = true
  · rw [if_pos hreset, if_pos (Or.inr (Or.inl hreset.1)), if_neg (by simp [hreset.2]),
      if_pos hreset.1]
    split <;> rfl
  · rw [if_neg hreset, List.append_nil]
    split
    · split
      · rfl
      · next hchild =>
        have hauto : arg ≠ lit "auto" := fun h => hchild ⟨h, by simpa [h] using hreset⟩
        rw [if_neg hauto]
        split <;> rfl
    · rfl

theorem calls_followEbpf : (d.followEbpf env).calls = d.calls := by
  unfold Daemon.followEbpf
  dsimp only
  repeat' split
  all_goals rfl

theorem calls_handleSetConfig : (d.handleSetConfig env arg).2.calls = d.calls := by
  unfold Daemon.handleSetConfig
  cases strchr arg (chr ' ') with
  | none => rfl
  | some p =>
    dsimp only
    cases setConfigTable.lookup p.1 with
    | none => rfl
    | some st =>
      dsimp only
      by_cases hk : p.1 = lit "EBPF_ENABLE"
      · rw [if_pos hk, calls_followEbpf]
      · rw [if_neg hk]

theorem calls_handleAdvancedSet :
    (d.handleAdvancedSet env arg).2.calls = d.calls ++ Verb.advancedSet.calls B env.fork arg := by
  unfold Daemon.handleAdvancedSet Verb.calls
  cases strchr arg (chr ' ') with
  | none => exact (List.append_nil _).symm
  | some p =>
    dsimp only
    rw [Option.toList_some, List.flatMap_singleton]
    cases Daemon.advancedTable.lookup p.1 with
    | none => exact (List.append_nil _).symm
    | some t =>
      dsimp only
      split <;> rfl

theorem calls_handleSetEppCcd :
    (d.handleSetEppCcd env arg).2.calls = d.calls ++ Verb.setEppCcd.calls B env.fork arg := by
  unfold Daemon.handleSetEppCcd Verb.calls
  cases strchr arg (chr ' ') with
  | none => exact (List.append_nil _).symm
  | some p =>
    dsimp only
    rw [Option.toList_some, List.flatMap_singleton]
    exact calls_intRequest _

/-- **The calls of a branch** depend on the text of the request alone. -/
theorem calls_handle (verb : Verb) :
    (d.handle B env verb arg).2.calls = d.calls ++ verb.calls B env.fork arg := by
  have hnone (d' : Daemon) (h : d'.calls = d.calls) : d'.calls = d.calls ++ [] := by
    rw [h, List.append_nil]
  cases verb with
  | setMode => exact calls_handleSetMode
  | setAffinityConfig =>
    show (d.handleSetAffinityConfig env arg).2.calls = _
    unfold Daemon.handleSetAffinityConfig Verb.calls
    cases strchr arg (chr ' ') with
    | none => exact hnone _ rfl
    | some p => rfl
  | setCppc => exact calls_handleSetCppc
  | setPark =>
    show (d.handleSetPark B env arg).2.calls = _
    unfold Daemon.handleSetPark Verb.calls
    by_cases hword : arg = lit "ccd1"
    · rw [if_pos hword, if_pos hword]
      exact calls_parkLoop _ _
    · rw [if_neg hword, if_neg hword]
      exact calls_intRequest _
  | setUnpark =>
    show (d.handleSetUnpark env arg).2.calls = _
    unfold Daemon.handleSetUnpark Verb.calls
    by_cases hword : arg = lit "ccd1" ∨ arg = lit "all"
    · rw [if_pos hword, if_pos hword]
      exact hnone _ rfl
    · rw [if_neg hword, if_neg hword]
      exact calls_intRequest _
  | setTdp => exact calls_intRequest _
  | setEppCcd => exact calls_handleSetEppCcd
  | setDaemon => exact calls_handleSetDaemon
  | setConfig => exact hnone _ calls_handleSetConfig
  | setWrapper =>
    refine hnone _ ?_
    show (d.handleSetWrapper env arg).2.calls = _
    unfold Daemon.handleSetWrapper
    dsimp only
    split <;> rfl
  | advancedGet =>
    refine hnone _ ?_
    show (d.handleAdvancedGet env arg).2.calls = _
    unfold Daemon.handleAdvancedGet
    split
    · rfl
    · split <;> rfl
  | advancedSet => exact calls_handleAdvancedSet
  | setBoost | setEpp | setPstate | setGovernor | setPrefcore => rfl
  | ping | mode | daemonInfo | getConfig | toggle | getTopology | daemonDisable | configSync
  | gamesList => exact hnone _ rfl

theorem calls_socketHandle (r : Bytes) :
    (socketHandle B env r d).2.calls = d.calls ++ requestCalls B env.fork r := by
  unfold socketHandle requestCalls
  by_cases hr : r = []
  · rw [if_pos hr, if_pos hr, List.append_nil]
  · rw [if_neg hr, if_neg hr]
    cases dispatch (received r) with
    | none => exact (List.append_nil _).symm
    | some v =>
      rw [Option.toList_some, List.flatMap_singleton]
      exact calls_handle v.1

/-- An argument that is taken is an `int`. -/
theorem isInt32_of_intArg {s : Bytes} {n : ℤ} (h : Daemon.intArg s = .value n) : IsInt32 n := by
  unfold Daemon.intArg at h
  dsimp only at h
  split at h
  · exact absurd h (by simp)
  · split at h
    · next hall =>
      obtain rfl := Daemon.IntArg.value.inj h
      exact hall.2.2.2
    · exact absurd h (by simp)

theorem proper_intCalls {c : ℤ → HwCall} (hc : ∀ n, IsInt32 n → (c n).Proper) :
    ∀ call ∈ intCalls arg c, call.Proper := by
  unfold intCalls
  split
  · next n hn =>
    intro call hcall
    obtain rfl := List.mem_singleton.mp hcall
    exact hc n (isInt32_of_intArg hn)
  · exact List.forall_mem_nil _

/-- **The arguments of the calls are in range.** -/
theorem proper_calls (hB : B.IntCores) (fork : Bool) (verb : Verb) :
    ∀ call ∈ verb.calls B fork arg, call.Proper := by
  have hone {call : HwCall} (h : call.Proper) : ∀ c ∈ [call], c.Proper := by
    intro c hc
    obtain rfl := List.mem_singleton.mp hc
    exact h
  cases verb with
  | setMode =>
    dsimp only [Verb.calls]
    repeat' split
    all_goals
      first
      | exact List.forall_mem_nil _
      | refine hone ?_
        trivial
  | setAffinityConfig =>
    intro call hcall
    obtain ⟨p, -, rfl⟩ := List.mem_map.mp hcall
    trivial
  | setCppc =>
    dsimp only [Verb.calls]
    split
    · next h =>
      rw [Option.any_eq_true] at h
      obtain ⟨rest, -, hrest⟩ := h
      have hint := (of_decide_eq_true hrest).2.2.2
      exact hone hint
    · exact List.forall_mem_nil _
  | setPark =>
    dsimp only [Verb.calls]
    split
    · intro call hcall
      obtain ⟨i, hi, rfl⟩ := List.mem_map.mp hcall
      exact isInt32_natCast ((List.Ico.mem.mp hi).2.trans hB.total)
    · exact proper_intCalls fun n hn => hn
  | setUnpark =>
    dsimp only [Verb.calls]
    split
    · exact List.forall_mem_nil _
    · exact proper_intCalls fun n hn => hn
  | setTdp => exact proper_intCalls fun _ _ => trivial
  | setEppCcd =>
    intro call hcall
    obtain ⟨p, -, hp⟩ := List.mem_flatMap.mp hcall
    have hpair : ∀ n, IsInt32 n → (HwCall.cppcCcd n p.2).Proper := fun _ _ => trivial
    exact proper_intCalls hpair call hp
  | setDaemon =>
    dsimp only [Verb.calls]
    split
    · refine hone ?_
      trivial
    · exact List.forall_mem_nil _
  | advancedSet =>
    intro call hcall
    obtain ⟨p, -, hp⟩ := List.mem_flatMap.mp hcall
    obtain ⟨t, ht, rfl⟩ := List.mem_map.mp hp
    have hmem := lookup_mem (Option.mem_toList.mp ht)
    exact List.mem_map.mpr ⟨_, hmem, rfl⟩
  | setBoost | setEpp | setPstate | setGovernor | setPrefcore =>
    refine hone ?_
    trivial
  | ping | mode | daemonInfo | getConfig | toggle | getTopology | setConfig | setWrapper
  | daemonDisable | configSync | gamesList | advancedGet => exact List.forall_mem_nil _

theorem proper_requestCalls (hB : B.IntCores) (fork : Bool) (r : Bytes) :
    ∀ call ∈ requestCalls B fork r, call.Proper := by
  unfold requestCalls
  split
  · exact List.forall_mem_nil _
  · intro call hcall
    obtain ⟨v, -, hv⟩ := List.mem_flatMap.mp hcall
    exact proper_calls hB fork v.1 call hv

end

/-! ### The machine -/

/-- The daemon, and the writes its calls have made. -/
structure HwHost where
  running : Running
  writes : List FileWrite

/-- What happens to the daemon, and the kernel at that time. -/
structure HostInput where
  kernel : Kernel
  input : Input

/-- The handler gets the results of the code. -/
def RequestEnv.on (B : Build) (k : Kernel) (env : RequestEnv) : RequestEnv :=
  { env with hw := fun c => (k.perform B c).1 }

/-- The same for an input. -/
def Input.on (B : Build) (k : Kernel) : Input → Input
  | .request env r => .request (env.on B k) r
  | i => i

/-- A step of the main loop. The new calls of the daemon make their writes. -/
def hostStep (B : Build) (i : HostInput) (h : HwHost) : Option HwHost :=
  (daemonStep B (i.input.on B i.kernel) h.running).map fun s =>
    ⟨s, h.writes ++ (s.daemon.calls.drop h.running.daemon.calls.length).flatMap fun c =>
      (i.kernel.perform B c).2⟩

/-- The daemon on its machine, from its start on. -/
def hostMachine (B : Build) : Machine HwHost HostInput where
  init h := ∃ env, ∃ k : Kernel, ∃ mkdirCache mkdirFrequency,
    h = ⟨⟨boot B env, .select⟩, (k.affinityInit B mkdirCache mkdirFrequency).2⟩
  step := hostStep B

/-- What an input asks the daemon to set. -/
def HostInput.sets (B : Build) (i : HostInput) : List (Knob × Bytes) :=
  match i.input with
  | .request env r =>
    (requestCalls B env.fork r).flatMap (HwCall.sets B (i.kernel.present boreFile))
  | _ => []

/-! ### One step -/

section

variable {B : Build} {h h' : HwHost} {i : HostInput} {is : List HostInput}

theorem calls_polled {env : PollEnv} {d d' : Daemon} (h : Polled env d d') :
    d'.calls = d.calls := by
  induction h with
  | refl | read | bpf | select | write | settle => rfl
  | trans _ _ ih ih' => exact ih'.trans ih

/-- A poll makes no calls. -/
theorem calls_pollingRun (d : Daemon) (env : PollEnv) : (d.pollingRun env).calls = d.calls :=
  calls_polled (polled_pollingRun env d)

theorem Kernel.Carries.flatMap {k : Kernel} {calls : List HwCall} {f : HwCall → List FileWrite}
    {g : HwCall → List (Knob × Bytes)} (hcall : ∀ c ∈ calls, k.Carries (f c) ((g c).map inFile)) :
    k.Carries (calls.flatMap f) ((calls.flatMap g).map inFile) := by
  induction calls with
  | nil => exact Carries.nil
  | cons c calls ih =>
    rw [List.flatMap_cons, List.flatMap_cons, List.map_append]
    exact (hcall c List.mem_cons_self).append
      (ih fun c' hc' => hcall c' (List.mem_cons_of_mem c hc'))

/-- **Step lemma.** A step writes what its input asks for. -/
theorem carries_hostStep (hB : B.IntCores) (hstep : (hostMachine B).step i h = some h') :
    ∃ ws, h'.writes = h.writes ++ ws ∧ i.kernel.Carries ws ((i.sets B).map inFile) := by
  change hostStep B i h = some h' at hstep
  obtain ⟨s, hs, rfl⟩ := Option.map_eq_some_iff.mp hstep
  refine ⟨_, rfl, ?_⟩
  obtain ⟨k, input⟩ := i
  obtain ⟨running, writes⟩ := h
  change (daemonMachine B).step (input.on B k) running = some s at hs
  have hstepped := stepped hs
  -- without new calls nothing is written
  have hquiet (hcalls : s.daemon.calls = running.daemon.calls)
      (hsets : HostInput.sets B ⟨k, input⟩ = []) :
      k.Carries ((s.daemon.calls.drop running.daemon.calls.length).flatMap fun c =>
        (k.perform B c).2) ((HostInput.sets B ⟨k, input⟩).map inFile) := by
    rw [hcalls, List.drop_length, hsets]
    exact Kernel.Carries.nil
  cases input with
  | request env r =>
    cases hstepped with
    | request _ _ d =>
      show k.Carries (((socketHandle B (env.on B k) r d).2.calls.drop d.calls.length).flatMap
        fun c => (k.perform B c).2) _
      rw [calls_socketHandle, List.drop_left]
      exact Kernel.Carries.flatMap fun c hc =>
        Kernel.carries_perform hB (proper_requestCalls hB env.fork r c hc)
  | timeout =>
    cases hstepped
    exact hquiet rfl rfl
  | poll env reload =>
    cases hstepped with
    | poll _ d => exact hquiet (calls_pollingRun d env) rfl
    | reload _ r d => exact hquiet (calls_pollingRun d env) rfl
  | stop =>
    cases hstepped
    exact hquiet rfl rfl
  | gamemode g =>
    cases hstepped
    exact hquiet rfl rfl
  | external conf games content =>
    cases hstepped
    exact hquiet rfl rfl

/-! ### Runs -/

/-- **Run lemma.** -/
theorem carries_run (hB : B.IntCores) (hrun : (hostMachine B).run is h = some h') :
    ∃ ws, h'.writes = h.writes ++ ws ∧
      (ws.map FileWrite.text?).Sublist ((is.flatMap (HostInput.sets B)).map inFile) ∧
      ((∀ i ∈ is, i.kernel.Permissive) →
        ws = (is.flatMap (HostInput.sets B)).map fun w => ⟨w.1.path, w.2, true⟩) := by
  induction is generalizing h with
  | nil =>
    obtain rfl := Option.some.inj hrun
    exact ⟨[], (List.append_nil _).symm, List.Sublist.refl _, fun _ => rfl⟩
  | cons i is ih =>
    obtain ⟨t, ht, hrest⟩ := Machine.run_cons_eq_some.mp hrun
    obtain ⟨ws, hws, hsub, hall⟩ := carries_hostStep hB ht
    obtain ⟨vs, hvs, hsubs, halls⟩ := ih hrest
    refine ⟨ws ++ vs, ?_, ?_, ?_⟩
    · rw [hvs, hws, List.append_assoc]
    · rw [List.map_append, List.flatMap_cons, List.map_append]
      exact hsub.append hsubs
    · intro hperm
      obtain ⟨hi, his⟩ := List.forall_mem_cons.mp hperm
      rw [List.flatMap_cons, List.map_append, ← halls his, hall hi, List.map_map]
      rfl

/-- The daemon after its start, on a kernel that refuses nothing. -/
def startedHost : HwHost :=
  ⟨⟨boot shippedBuild (.allOk none), .select⟩,
    (Kernel.allOk.affinityInit shippedBuild true true).2⟩

/-- A request for a preference. -/
def askedPower : HostInput := ⟨Kernel.allOk, .request .allOk (lit "SET_EPP power")⟩

theorem Build.intCores_shipped : shippedBuild.IntCores := ⟨by decide, by decide⟩

/-- The writes the kernel took. -/
def taken (ws : List FileWrite) : List (Bytes × Bytes) :=
  (ws.filter FileWrite.taken).map FileWrite.text?

/-- What the settings of the machine are, from the first contents of the files on. -/
def HwHost.settings (files : Bytes → Bytes) (h : HwHost) (knob : Knob) : Bytes :=
  overlay (taken h.writes) files knob.path

end

end X3D
