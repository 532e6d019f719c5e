import X3DToggle.Settings

/-!
# The life of the tracker

`bpf_init` creates an object, two links and a ring buffer, and may stop after each of them.
`bpf_cleanup` releases whatever is not null and leaves the pointers as they are, and the counter of
running games too. The next `bpf_init` sees an object that is not null and reports success without
doing anything. So the tracker comes up properly once, and only if no attempt before failed half way
(`trackerLife_iff`).

The invariant behind this (`HandlesOk`) says what the pointers are worth: an active tracker has its
object, an inactive one has no live ring buffer, and without an object there is nothing else.
-/

namespace X3D

/-! ### `bpf_init` -/

theorem bpfInit_of_obj {b : Bpf} (h : b.obj ≠ .null) (env : BpfEnv) : bpfInit env b = (true, b) :=
  if_pos h

/-- What there is without an object. -/
def Bpf.Empty (b : Bpf) : Prop := b.linkExec = .null ∧ b.linkExit = .null ∧ b.rb = .null

/-- What an active tracker needs. -/
def Bpf.Up (b : Bpf) : Prop := b.rb = .live ∧ b.linkExec = .live ∧ b.linkExit = .live

/-- **From nothing.** If `bpf_init` succeeds without an object everything is there, and if it does
not there is no ring buffer. The counter stays. -/
theorem bpfInit_of_null {b : Bpf} (h : b.obj = .null) (hempty : b.Empty) (env : BpfEnv) :
    (bpfInit env b).2.activeGames = b.activeGames ∧
      ((bpfInit env b).1 = true → (bpfInit env b).2.Up ∧ (bpfInit env b).2.obj = .live) ∧
      ((bpfInit env b).1 = false → (bpfInit env b).2.rb = .null ∧
        ((bpfInit env b).2.obj = .null → (bpfInit env b).2.Empty)) := by
  obtain ⟨obj, rb, linkExec, linkExit, games, listeners⟩ := b
  obtain ⟨rfl, rfl, rfl⟩ : linkExec = .null ∧ linkExit = .null ∧ rb = .null := hempty
  obtain rfl : obj = .null := h
  obtain ⟨thread, openFile, load, findExec, attachExec, findExit, attachExit, map, ring⟩ := env
  cases openFile with
  | false => cases thread <;> simp [bpfInit, Bpf.Empty]
  | true =>
    cases load with
    | false => cases thread <;> simp [bpfInit, Bpf.Empty]
    | true =>
      cases thread <;> cases findExec <;> cases attachExec <;> cases findExit <;>
        cases attachExit <;> cases map <;> cases ring <;> simp [bpfInit, Bpf.Up]

/-! ### What a step does to the tracker -/

/-- A request that sets `EBPF_ENABLE`, and whether to something other than zero. -/
def ebpfRequest (r : Bytes) : Option Bool :=
  match dispatch (received r) with
  | some (.setConfig, n) =>
    match strchr ((received r).drop n) (chr ' ') with
    | some (k, v) => if k = lit "EBPF_ENABLE" then some (decide (atoi v ≠ 0)) else none
    | none => none
  | _ => none

/-- The tracker of one state is that of the other. -/
def SameTracker (d d' : Daemon) : Prop := d'.bpf = d.bpf ∧ d'.bpfActive = d.bpfActive

/-- What a request for `EBPF_ENABLE` does: it starts a tracker that is not active, stops one that
is, or leaves it alone. -/
inductive TrackerChange (env : RequestEnv) (on : Bool) (d d' : Daemon) : Prop where
  | same (hactive : d.bpfActive = on) (h : SameTracker d d')
  | start (hon : on = true) (hactive : d.bpfActive = false)
    (h : (d'.bpfActive, d'.bpf) = bpfInit env.bpf d.bpf)
  | stop (hon : on = false) (hactive : d.bpfActive = true) (hactive' : d'.bpfActive = false)
    (h : d'.bpf = bpfCleanup d.bpf)

section

variable {B : Build} {env : RequestEnv} {d : Daemon}

theorem sameTracker_handleSetMode (val : Bytes) :
    SameTracker d (d.handleSetMode env val).2 := by
  unfold Daemon.handleSetMode
  repeat' split
  all_goals exact ⟨rfl, rfl⟩

theorem sameTracker_handleSetAffinityConfig (val : Bytes) :
    SameTracker d (d.handleSetAffinityConfig env val).2 := by
  unfold Daemon.handleSetAffinityConfig
  split <;> exact ⟨rfl, rfl⟩

theorem sameTracker_handleSetWrapper (val : Bytes) :
    SameTracker d (d.handleSetWrapper env val).2 := by
  unfold Daemon.handleSetWrapper
  dsimp only
  split <;> exact ⟨rfl, rfl⟩

theorem sameTracker_handleSetDaemon (val : Bytes) :
    SameTracker d (d.handleSetDaemon env val).2 := by
  unfold Daemon.handleSetDaemon
  split
  · dsimp only
    split
    · exact ⟨rfl, rfl⟩
    · by_cases hauto : val = lit "auto"
      · rw [if_pos hauto]
        split <;> exact ⟨rfl, rfl⟩
      · rw [if_neg hauto]
        split <;> exact ⟨rfl, rfl⟩
  · exact ⟨rfl, rfl⟩

theorem sameTracker_handleAdvancedSet (arg : Bytes) :
    SameTracker d (d.handleAdvancedSet env arg).2 := by
  unfold Daemon.handleAdvancedSet
  split
  · exact ⟨rfl, rfl⟩
  · split
    · exact ⟨rfl, rfl⟩
    · dsimp only
      split <;> exact ⟨rfl, rfl⟩

/-- Every other branch leaves the tracker alone. -/
theorem sameTracker_handle {verb : Verb} (hverb : verb ≠ .setConfig) (arg : Bytes) :
    SameTracker d (d.handle B env verb arg).2 := by
  cases verb with
  | setMode => exact sameTracker_handleSetMode arg
  | setAffinityConfig => exact sameTracker_handleSetAffinityConfig arg
  | setCppc => exact (untouched_handleSetCppc arg).tracker
  | setPark => exact (untouched_handleSetPark arg).tracker
  | setUnpark => exact (untouched_handleSetUnpark arg).tracker
  | setTdp => exact (untouched_intRequest fun _ => rfl).tracker
  | setEppCcd => exact (untouched_handleSetEppCcd arg).tracker
  | setDaemon => exact sameTracker_handleSetDaemon arg
  | setConfig => exact absurd rfl hverb
  | setWrapper => exact sameTracker_handleSetWrapper arg
  | advancedGet => exact (untouched_handleAdvancedGet arg).tracker
  | advancedSet => exact sameTracker_handleAdvancedSet arg
  | ping | mode | daemonInfo | getConfig | toggle | getTopology | setBoost | setEpp | setPstate
  | setGovernor | setPrefcore | daemonDisable | configSync | gamesList => exact ⟨rfl, rfl⟩

/-- `SET_CONFIG` of another key leaves the tracker alone. -/
theorem sameTracker_handleSetConfig {arg : Bytes}
    (h : ∀ v, strchr arg (chr ' ') ≠ some (lit "EBPF_ENABLE", v)) :
    SameTracker d (d.handleSetConfig env arg).2 := by
  unfold Daemon.handleSetConfig
  cases hcut : strchr arg (chr ' ') with
  | none => exact ⟨rfl, rfl⟩
  | some p =>
    obtain ⟨k, v⟩ := p
    have hk : k ≠ lit "EBPF_ENABLE" := fun heq => h v (heq ▸ hcut)
    dsimp only
    split
    · exact ⟨rfl, rfl⟩
    · rw [if_neg hk]
      exact ⟨rfl, rfl⟩

theorem lookup_ebpfEnable :
    setConfigTable.lookup (lit "EBPF_ENABLE") = some (.atoi .ebpfEnable) := by
  rfl

theorem trackerChange_followEbpf (env : RequestEnv) (d : Daemon) :
    TrackerChange env (decide (d.cfg.int .ebpfEnable ≠ 0)) d (d.followEbpf env) := by
  unfold Daemon.followEbpf
  by_cases hzero : d.cfg.int .ebpfEnable = 0
  · rw [if_neg fun hboth => hboth.1 hzero]
    cases hactive : d.bpfActive with
    | false =>
      rw [if_neg (by simp)]
      exact .same (by simp [hzero, hactive]) ⟨rfl, rfl⟩
    | true =>
      rw [if_pos ⟨hzero, rfl⟩]
      exact .stop (by simp [hzero]) hactive rfl rfl
  · cases hactive : d.bpfActive with
    | false =>
      rw [if_pos ⟨hzero, rfl⟩]
      exact .start (by simp [hzero]) hactive rfl
    | true =>
      rw [if_neg (by simp), if_neg fun hboth => hzero hboth.1]
      exact .same (by simp [hzero, hactive]) ⟨rfl, rfl⟩

/-- `SET_CONFIG EBPF_ENABLE` starts or stops the tracker. -/
theorem trackerChange_handleSetConfig {arg v : Bytes}
    (h : strchr arg (chr ' ') = some (lit "EBPF_ENABLE", v)) :
    TrackerChange env (decide (atoi v ≠ 0)) d (d.handleSetConfig env arg).2 := by
  set d₁ : Daemon := { d with
    conf := configUpdate env.update (lit "EBPF_ENABLE") v d.conf
    cfg := d.cfg.store (.int .ebpfEnable (atoi v)) } with hd₁
  have hhandle : (d.handleSetConfig env arg).2 = d₁.followEbpf env := by
    unfold Daemon.handleSetConfig
    rw [h]
    simp only [lookup_ebpfEnable, if_true]
    rfl
  have hcfg : d₁.cfg.int .ebpfEnable = atoi v := by
    show Function.update d.cfg.int .ebpfEnable (atoi v) .ebpfEnable = atoi v
    exact Function.update_self _ _ _
  have hfollow := trackerChange_followEbpf env d₁
  rw [hcfg] at hfollow
  rw [hhandle]
  -- the settings it has stored by then are none of the tracker's
  cases hfollow with
  | same hactive hsame => exact .same hactive hsame
  | start hon hactive hinit => exact .start hon hactive hinit
  | stop hon hactive hactive' hclean => exact .stop hon hactive hactive' hclean

/-- **What a request does to the tracker.** -/
theorem tracker_socketHandle (B : Build) (env : RequestEnv) (r : Bytes) (d : Daemon) :
    (ebpfRequest r = none ∧ SameTracker d (socketHandle B env r d).2) ∨
      ∃ on, ebpfRequest r = some on ∧ TrackerChange env on d (socketHandle B env r d).2 := by
  by_cases hr : r = []
  · subst hr
    exact Or.inl ⟨by decide, rfl, rfl⟩
  cases hdispatch : dispatch (received r) with
  | none =>
    have hsame : socketHandle B env r d = (some err, d) := by
      unfold socketHandle
      rw [if_neg hr, hdispatch]
    refine Or.inl ⟨?_, by rw [hsame]; exact ⟨rfl, rfl⟩⟩
    unfold ebpfRequest
    rw [hdispatch]
  | some p =>
    obtain ⟨verb, n⟩ := p
    rw [socketHandle_of_dispatch verb n hr hdispatch]
    -- only `SET_CONFIG` can ask for the tracker
    by_cases hverb : verb = .setConfig
    · subst hverb
      have hrequest : ebpfRequest r =
          match strchr ((received r).drop n) (chr ' ') with
          | some (k, v) => if k = lit "EBPF_ENABLE" then some (decide (atoi v ≠ 0)) else none
          | none => none := by
        unfold ebpfRequest
        rw [hdispatch]
      rw [hrequest]
      cases hcut : strchr ((received r).drop n) (chr ' ') with
      | none =>
        exact Or.inl ⟨rfl, sameTracker_handleSetConfig fun v => by simp [hcut]⟩
      | some q =>
        obtain ⟨k, v⟩ := q
        by_cases hk : k = lit "EBPF_ENABLE"
        · subst hk
          exact Or.inr ⟨_, if_pos rfl, trackerChange_handleSetConfig hcut⟩
        · refine Or.inl ⟨if_neg hk, sameTracker_handleSetConfig fun v' hv' => hk ?_⟩
          exact (Prod.mk.inj (Option.some.inj (hcut.symm.trans hv'))).1
    · refine Or.inl ⟨?_, sameTracker_handle hverb _⟩
      unfold ebpfRequest
      rw [hdispatch]
      cases verb <;> first | rfl | exact absurd rfl hverb

end

/-! ### Steps -/

/-- A poll hands the events to an active tracker, if it looks for games at all. -/
theorem tracker_pollingRun (env : PollEnv) (d : Daemon) :
    (d.pollingRun env).bpfActive = d.bpfActive ∧
      ((d.pollingRun env).bpf = d.bpf ∨ d.bpfActive = true ∧ d.wrapperLock = 0 ∧ d.Automated ∧
        (d.pollingRun env).bpf = bpfPoll d.gl env.procs env.events d.bpf) := by
  -- the mode node is none of the tracker's business
  have happly (io : ModeIo) (b : Bool) (e : Daemon) : SameTracker e (e.applyTarget io b) := by
    unfold Daemon.applyTarget
    split <;> exact ⟨rfl, rfl⟩
  by_cases hlock : d.wrapperLock = 0
  · by_cases hauto : d.Automated
    · rw [Daemon.pollingRun_automated hlock hauto, (happly _ _ _).1, (happly _ _ _).2]
      show ((d.readMode env.io).1.pollBpf env).bpfActive = _ ∧
        (((d.readMode env.io).1.pollBpf env).bpf = _ ∨ _)
      unfold Daemon.pollBpf
      cases hactive : d.bpfActive with
      | false =>
        have hread : (d.readMode env.io).1.bpfActive = false := hactive
        rw [hread]
        exact ⟨hactive, Or.inl rfl⟩
      | true =>
        have hread : (d.readMode env.io).1.bpfActive = true := hactive
        rw [hread]
        exact ⟨rfl, Or.inr ⟨rfl, hlock, hauto, rfl⟩⟩
    · rw [Daemon.pollingRun_suspended hlock hauto]
      exact ⟨(happly env.io _ (d.readMode env.io).1).2,
        Or.inl (happly env.io _ (d.readMode env.io).1).1⟩
  · rw [Daemon.pollingRun_locked hlock]
    set e : Daemon := { (d.readMode env.io).1 with target := copy32 (lit "cache") }
    exact ⟨(happly env.io _ e).2, Or.inl (happly env.io _ e).1⟩

/-- What a step does to the tracker. -/
inductive TrackerStep (i : Input) (d d' : Daemon) : Prop where
  | same (hrequest : ∀ env r on, i = .request env r → ebpfRequest r = some on → d.bpfActive = on)
    (h : SameTracker d d')
  | poll (env : PollEnv) (reload : Option ReloadEnv) (hi : i = .poll env reload)
    (hactive : d.bpfActive = true) (hactive' : d'.bpfActive = true)
    (h : d'.bpf = bpfPoll d.gl env.procs env.events d.bpf)
  | request (env : RequestEnv) (r : Bytes) (on : Bool) (hi : i = .request env r)
    (hr : ebpfRequest r = some on) (h : TrackerChange env on d d')

/-- Not a GameMode signal. -/
def Input.Quiet : Input → Prop
  | .gamemode _ => False
  | _ => True

/-- **Steps of the tracker.** -/
theorem trackerStep {B : Build} {i : Input} {s s' : Running} (hquiet : i.Quiet)
    (h : (daemonMachine B).step i s = some s') : TrackerStep i s.daemon s'.daemon := by
  cases stepped h with
  | request env r d =>
    rcases tracker_socketHandle B env r d with ⟨hnone, hsame⟩ | ⟨on, hon, hchange⟩
    · refine .same (fun env' r' on heq hon => ?_) hsame
      obtain ⟨-, rfl⟩ := Input.request.inj heq
      rw [hnone] at hon
      exact absurd hon (by simp)
    · exact .request env r on rfl hon hchange
  | poll env d =>
    obtain ⟨hactive, hsame | ⟨hon, -, -, hpoll⟩⟩ := tracker_pollingRun env d
    · exact .same (fun _ _ _ heq => by simp at heq) ⟨hsame, hactive⟩
    · exact .poll env none rfl hon (hactive.trans hon) hpoll
  | reload env r d =>
    -- a reload after the poll is none of the tracker's business
    obtain ⟨hactive, hsame | ⟨hon, -, -, hpoll⟩⟩ := tracker_pollingRun env d
    · exact .same (fun _ _ _ heq => by simp at heq) ⟨hsame, hactive⟩
    · exact .poll env (some r) rfl hon (hactive.trans hon) hpoll
  | gamemode g d p => exact absurd hquiet id
  | timeout | stop | external => exact .same (fun _ _ _ heq => by simp at heq) ⟨rfl, rfl⟩

/-! ### Runs -/

/-- An active tracker has its ring buffer and its links, and one that is not sees no game. -/
def TrackerOk (s : Running) : Prop :=
  (s.daemon.bpfActive = true → s.daemon.bpf.Up) ∧
    (s.daemon.bpfActive = false → bpfGame s.daemon.bpf = false)

/-- What the handles are worth. -/
structure HandlesOk (s : Running) : Prop where
  active (h : s.daemon.bpfActive = true) : s.daemon.bpf.obj = .live
  inactive (h : s.daemon.bpfActive = false) : s.daemon.bpf.rb ≠ .live
  empty (h : s.daemon.bpf.obj = .null) : s.daemon.bpf.Empty

/-- `bpf_cleanup` destroys none of its handles for the second time. -/
def Bpf.CleanupOk (b : Bpf) : Prop :=
  b.rb ≠ .released ∧ b.linkExec ≠ .released ∧ b.linkExit ≠ .released ∧ b.obj ≠ .released

/-- A step neither polls a ring buffer that has been freed nor destroys a handle again. -/
def HandlesUsed : Input → Running → Prop
  | .poll _ _, s => s.daemon.bpfActive = true → s.daemon.wrapperLock = 0 → s.daemon.Automated →
    s.daemon.bpf.rb ≠ .released
  | .request _ r, s => ebpfRequest r = some false → s.daemon.bpfActive = true →
    s.daemon.bpf.CleanupOk
  | _, _ => True

/-- **The life of the tracker.** It is as it should be after every step, no step touches a handle
that is gone, and neither does the shutdown, whenever it comes. -/
structure TrackerLife (B : Build) (is : List Input) (s : Running) : Prop where
  states : (daemonMachine B).Along TrackerOk is s
  handles : (daemonMachine B).Guarded HandlesUsed is s
  shutdown (t : Running) (hrun : (daemonMachine B).run is s = some t)
    (hactive : t.daemon.bpfActive = true) : t.daemon.bpf.CleanupOk

/-- A request to start the tracker finds no object, and one to stop it finds no game. -/
def OneLife : Input → Running → Prop
  | .request _ r, s =>
    (ebpfRequest r = some true → s.daemon.bpfActive = false → s.daemon.bpf.obj = .null) ∧
      (ebpfRequest r = some false → s.daemon.bpfActive = true → s.daemon.bpf.activeGames = 0)
  | _, _ => True

theorem bpfGame_eq_false_iff {b : Bpf} : bpfGame b = false ↔ b.activeGames = 0 := by
  simp [bpfGame]

theorem TrackerOk.of_same {s s' : Running} (hok : TrackerOk s) (hinv : HandlesOk s)
    (hsame : SameTracker s.daemon s'.daemon) : TrackerOk s' ∧ HandlesOk s' := by
  obtain ⟨hbpf, hactive⟩ := hsame
  refine ⟨?_, fun hon => ?_, fun hoff => ?_, fun hnull => ?_⟩
  · unfold TrackerOk
    rw [hbpf, hactive]
    exact hok
  · rw [hbpf]
    exact hinv.active (hactive.symm.trans hon)
  · rw [hbpf]
    exact hinv.inactive (hactive.symm.trans hoff)
  · rw [hbpf]
    exact hinv.empty (hbpf ▸ hnull)

/-! ### One step -/

section

variable {env : RequestEnv} {r : Bytes} {s s' : Running}

/-- A request for what is the case already meets the condition. -/
theorem oneLife_of_agreed {i : Input} (h : ∀ env r on, i = .request env r →
    ebpfRequest r = some on → s.daemon.bpfActive = on) : OneLife i s := by
  cases i with
  | request env r =>
    refine ⟨fun hon hoff => ?_, fun hoff hon => ?_⟩
    · exact absurd ((h env r true rfl hon).symm.trans hoff) (by simp)
    · exact absurd ((h env r false rfl hoff).symm.trans hon) (by simp)
  | timeout | poll | stop | gamemode | external => trivial

theorem oneLife_start_iff (hr : ebpfRequest r = some true) (hactive : s.daemon.bpfActive = false) :
    OneLife (.request env r) s ↔ s.daemon.bpf.obj = .null := by
  refine ⟨fun hlife => hlife.1 hr hactive, fun hnull => ⟨fun _ _ => hnull, fun hoff => ?_⟩⟩
  rw [hr] at hoff
  exact absurd hoff (by simp)

theorem oneLife_stop_iff (hr : ebpfRequest r = some false) (hactive : s.daemon.bpfActive = true) :
    OneLife (.request env r) s ↔ s.daemon.bpf.activeGames = 0 := by
  refine ⟨fun hlife => hlife.2 hr hactive, fun hzero => ⟨fun hon => ?_, fun _ _ => hzero⟩⟩
  rw [hr] at hon
  exact absurd hon (by simp)

/-- The events of a poll change the counter alone. -/
theorem TrackerOk.of_poll {gl : GameList} {procs : List Proc} {events : List ProcessEvent}
    (hok : TrackerOk s) (hinv : HandlesOk s) (hactive : s.daemon.bpfActive = true)
    (hactive' : s'.daemon.bpfActive = true)
    (hbpf : s'.daemon.bpf = bpfPoll gl procs events s.daemon.bpf) :
    TrackerOk s' ∧ HandlesOk s' := by
  have hup := hok.1 hactive
  have hfields : s'.daemon.bpf.obj = s.daemon.bpf.obj ∧ s'.daemon.bpf.Up := by
    rw [hbpf]
    unfold bpfPoll
    split
    · exact ⟨rfl, hup⟩
    · exact ⟨rfl, hup⟩
  have hobj : s'.daemon.bpf.obj = .live := hfields.1.trans (hinv.active hactive)
  have hnot : s'.daemon.bpfActive ≠ false := by
    rw [hactive']
    exact Bool.noConfusion
  refine ⟨⟨fun _ => hfields.2, fun hoff => absurd hoff hnot⟩, fun _ => hobj, fun hoff => ?_,
    fun hnull => ?_⟩
  · exact absurd hoff hnot
  · exact absurd (hobj.symm.trans hnull) (by decide)

/-- A tracker built from nothing is as it should be, whether it is active or not. -/
theorem trackerOk_of_bpfInit {b : Bpf} {benv : BpfEnv}
    (hinit : (s'.daemon.bpfActive, s'.daemon.bpf) = bpfInit benv b) (hobj : b.obj = .null)
    (hempty : b.Empty) (hzero : b.activeGames = 0) : TrackerOk s' ∧ HandlesOk s' := by
  have hactive : s'.daemon.bpfActive = (bpfInit benv b).1 := congrArg Prod.fst hinit
  have hbpf : s'.daemon.bpf = (bpfInit benv b).2 := congrArg Prod.snd hinit
  obtain ⟨hgames, hup, hdown⟩ := bpfInit_of_null hobj hempty benv
  rw [← hactive, ← hbpf] at hup hdown
  rw [← hbpf] at hgames
  refine ⟨⟨fun h => (hup h).1, fun _ => bpfGame_eq_false_iff.mpr (hgames.trans hzero)⟩,
    fun h => (hup h).2, fun h => ?_, fun hnull => ?_⟩
  · rw [(hdown h).1]
    decide
  · cases hs' : s'.daemon.bpfActive with
    | true => exact absurd ((hup hs').2.symm.trans hnull) (by decide)
    | false => exact (hdown hs').2 hnull

/-- A start is as it should be exactly if there was no object: with one, it is a success without a
ring buffer. -/
theorem trackerOk_start (hok : TrackerOk s) (hinv : HandlesOk s)
    (hactive : s.daemon.bpfActive = false)
    (hinit : (s'.daemon.bpfActive, s'.daemon.bpf) = bpfInit env.bpf s.daemon.bpf) :
    (TrackerOk s' ↔ s.daemon.bpf.obj = .null) ∧ (TrackerOk s' → HandlesOk s') := by
  by_cases hobj : s.daemon.bpf.obj = .null
  · obtain ⟨hok', hinv'⟩ := trackerOk_of_bpfInit hinit hobj (hinv.empty hobj)
      (bpfGame_eq_false_iff.mp (hok.2 hactive))
    exact ⟨iff_of_true hok' hobj, fun _ => hinv'⟩
  · rw [bpfInit_of_obj hobj] at hinit
    obtain ⟨hactive', hbpf⟩ := Prod.mk.inj hinit
    have hnot : ¬TrackerOk s' := by
      intro hok'
      have hrb := (hok'.1 hactive').1
      rw [hbpf] at hrb
      exact hinv.inactive hactive hrb
    exact ⟨iff_of_false hnot hobj, fun hok' => absurd hok' hnot⟩

/-- A stop is as it should be exactly if no game is counted: the counter stays. -/
theorem trackerOk_stop (hok : TrackerOk s) (hinv : HandlesOk s)
    (hactive : s.daemon.bpfActive = true) (hactive' : s'.daemon.bpfActive = false)
    (hclean : s'.daemon.bpf = bpfCleanup s.daemon.bpf) :
    (TrackerOk s' ↔ s.daemon.bpf.activeGames = 0) ∧ (TrackerOk s' → HandlesOk s') := by
  have hgames : s'.daemon.bpf.activeGames = s.daemon.bpf.activeGames := by
    rw [hclean]
    rfl
  have hreleased : s'.daemon.bpf.rb = .released ∧ s'.daemon.bpf.obj = .released := by
    rw [hclean]
    unfold bpfCleanup
    rw [(hok.1 hactive).1, hinv.active hactive]
    exact ⟨rfl, rfl⟩
  have hnot : s'.daemon.bpfActive ≠ true := by
    rw [hactive']
    exact Bool.noConfusion
  refine ⟨?_, fun _ => ⟨fun h => absurd h hnot, fun _ => ?_, fun hnull => ?_⟩⟩
  · rw [← hgames, ← bpfGame_eq_false_iff]
    exact ⟨fun hok' => hok'.2 hactive', fun hgame => ⟨fun h => absurd h hnot, fun _ => hgame⟩⟩
  · rw [hreleased.1]
    decide
  · exact absurd (hreleased.2.symm.trans hnull) (by decide)

/-- **Step lemma.** A step from a tracker as it should be leads to one exactly if a start finds no
object and a stop no game. -/
theorem trackerOk_step {B : Build} {i : Input} (hquiet : i.Quiet) (hok : TrackerOk s)
    (hinv : HandlesOk s) (h : (daemonMachine B).step i s = some s') :
    (TrackerOk s' ↔ OneLife i s) ∧ (TrackerOk s' → HandlesOk s') := by
  cases trackerStep hquiet h with
  | same hrequest hsame =>
    obtain ⟨hok', hinv'⟩ := hok.of_same hinv hsame
    exact ⟨iff_of_true hok' (oneLife_of_agreed hrequest), fun _ => hinv'⟩
  | poll env reload hi hactive hactive' hbpf =>
    obtain ⟨hok', hinv'⟩ := hok.of_poll hinv hactive hactive' hbpf
    refine ⟨iff_of_true hok' ?_, fun _ => hinv'⟩
    rw [hi]
    trivial
  | request env r on hi hr hchange =>
    subst hi
    cases hchange with
    | same hactive hsame =>
      obtain ⟨hok', hinv'⟩ := hok.of_same hinv hsame
      refine ⟨iff_of_true hok' (oneLife_of_agreed fun _ _ on' heq hon' => ?_), fun _ => hinv'⟩
      obtain ⟨-, rfl⟩ := Input.request.inj heq
      exact hactive.trans (Option.some.inj (hr.symm.trans hon'))
    | start hon hactive hinit =>
      rw [oneLife_start_iff (hon ▸ hr) hactive]
      exact trackerOk_start hok hinv hactive hinit
    | stop hon hactive hactive' hclean =>
      rw [oneLife_stop_iff (hon ▸ hr) hactive]
      exact trackerOk_stop hok hinv hactive hactive' hclean

end

/-- The daemon starts the tracker once, if the settings ask for it. -/
theorem boot_tracker (B : Build) (env : BootEnv) :
    ((boot B env).bpfActive, (boot B env).bpf) = bpfInit env.bpf Bpf.zero ∨
      ((boot B env).bpfActive, (boot B env).bpf) = (false, Bpf.zero) := by
  unfold boot
  dsimp only
  split
  · refine Or.inl ?_
    split <;> split <;> rfl
  · refine Or.inr ?_
    split <;> split <;> rfl

/-- The tracker after the start. -/
theorem trackerOk_boot (B : Build) (env : BootEnv) :
    TrackerOk ⟨boot B env, .select⟩ ∧ HandlesOk ⟨boot B env, .select⟩ := by
  rcases boot_tracker B env with hinit | hzero
  · exact trackerOk_of_bpfInit hinit rfl ⟨rfl, rfl, rfl⟩ rfl
  · -- the settings do not ask for a tracker
    obtain ⟨hactive, hbpf⟩ := Prod.mk.inj hzero
    refine ⟨⟨fun h => ?_, fun _ => ?_⟩, fun h => ?_, fun _ => ?_, fun _ => ?_⟩
    · exact absurd (hactive.symm.trans h) (by simp)
    · show bpfGame (boot B env).bpf = false
      rw [hbpf]
      rfl
    · exact absurd (hactive.symm.trans h) (by simp)
    · show (boot B env).bpf.rb ≠ .live
      rw [hbpf]
      decide
    · show (boot B env).bpf.Empty
      rw [hbpf]
      exact ⟨rfl, rfl, rfl⟩

/-- An active tracker can be cleaned up. -/
theorem cleanupOk_of_active {s : Running} (hok : TrackerOk s) (hinv : HandlesOk s)
    (hactive : s.daemon.bpfActive = true) : s.daemon.bpf.CleanupOk := by
  obtain ⟨hrb, hexec, hexit⟩ := hok.1 hactive
  unfold Bpf.CleanupOk
  rw [hrb, hexec, hexit, hinv.active hactive]
  decide

/-- **One life.** Without GameMode signals, the tracker is as it should be throughout a run and at
its end exactly if every request to start it finds no object from an earlier attempt, and every
request to stop it finds no game running. -/
theorem trackerLife_iff {is : List Input} (hquiet : ∀ i ∈ is, i.Quiet) (B : Build) (env : BootEnv) :
    TrackerLife B is ⟨boot B env, .select⟩ ↔
      (daemonMachine B).Guarded OneLife is ⟨boot B env, .select⟩ := by
  obtain ⟨hok, hinv⟩ := trackerOk_boot B env
  have hiff := Machine.along_iff_guarded_of_inv
    (fun i hi s s' hP hA hstep => trackerOk_step (B := B) (hquiet i hi) hP hA hstep) hok hinv
  constructor
  · exact fun hlife => hiff.mp hlife.states
  · intro hguarded
    have halong := hiff.mpr hguarded
    have hboth := halong.with_inv
      (fun i hi s s' hP hA hstep => (trackerOk_step (hquiet i hi) hP hA hstep).2) hinv
    refine ⟨halong, hboth.guarded fun i _ s hs => ?_, fun t hrun hactive => ?_⟩
    · cases i with
      | request env r => exact fun _ hactive => cleanupOk_of_active hs.1 hs.2 hactive
      | poll env reload =>
        intro hactive _ _
        rw [(hs.1.1 hactive).1]
        decide
      | timeout | stop | gamemode | external => trivial
    · have ht := hboth.of_run hrun
      exact cleanupOk_of_active ht.1 ht.2 hactive

/-- Stop the tracker and start it again. -/
def restartRun : List Input :=
  [.request .allOk (lit "SET_CONFIG EBPF_ENABLE 0"), .poll .allOk none,
   .request .allOk (lit "SET_CONFIG EBPF_ENABLE 1")]

theorem quiet_restartRun : ∀ i ∈ restartRun, i.Quiet := by
  intro i hi
  simp only [restartRun, List.mem_cons, List.not_mem_nil, or_false] at hi
  rcases hi with rfl | rfl | rfl <;> trivial

/-- The rule for that run. -/
theorem trackerLife_iff_restart :
    TrackerLife shippedBuild restartRun ⟨boot shippedBuild (.allOk none), .select⟩ ↔
      (daemonMachine shippedBuild).Guarded OneLife restartRun
        ⟨boot shippedBuild (.allOk none), .select⟩ :=
  trackerLife_iff quiet_restartRun _ _

/-- The restarted tracker is active, with the ring buffer that was freed when it stopped. -/
theorem restarted_tracker_stale :
    ¬∀ (B : Build) (env : BootEnv) (is : List Input), (∀ i ∈ is, i.Quiet) →
      TrackerLife B is ⟨boot B env, .select⟩ := by
  intro h
  have hlife := h shippedBuild (.allOk none) restartRun quiet_restartRun
  have hcheck : ((daemonMachine shippedBuild).run restartRun
      ⟨boot shippedBuild (.allOk none), .select⟩).any
      (fun t => t.daemon.bpfActive = true ∧ t.daemon.bpf.rb = .released) := by
    decide
  obtain ⟨t, hrun, ht⟩ := Option.any_eq_true .. |>.mp hcheck
  obtain ⟨hactive, hrb⟩ := of_decide_eq_true ht
  have hlive := ((hlife.states.of_run hrun).1 hactive).1
  exact absurd (hrb.symm.trans hlive) (by decide)

end X3D
