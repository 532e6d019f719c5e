import X3DToggle.Loop

/-!
# Game launcher sessions

`x3d-run` sends `SET_WRAPPER 1`, runs a game and sends `SET_WRAPPER 0` when the game has ended.
`launchMachine` runs any number of such sessions against one daemon: sessions and daemon take
their steps in any order, and the daemon's own steps are all those of its main loop except the
handling of other requests.

The lock is one variable that a session sets and clears without looking at the others. So it
holds for every running session exactly as long as no session ends before another
(`along_served_iff`); the first to end takes the lock from those that go on.
-/

namespace X3D

/-- Where a session is. -/
inductive SessionPhase where
  /-- Not started. -/
  | idle
  /-- `SET_WRAPPER 1` is on its way. -/
  | asking
  /-- The game runs. -/
  | playing
  /-- The game has ended and `SET_WRAPPER 0` is on its way. -/
  | leaving
  /-- Done. -/
  | gone
  deriving DecidableEq

/-- The request a session waits to have handled, and where it is then. -/
def SessionPhase.pending : SessionPhase → Option (Bytes × SessionPhase)
  | asking => some (lit "SET_WRAPPER 1", playing)
  | leaving => some (lit "SET_WRAPPER 0", gone)
  | _ => none

/-- A daemon and its sessions. -/
structure Launchers where
  /-- The daemon. -/
  running : Running
  /-- The sessions. -/
  phase : ℕ → SessionPhase

/-- What happens to a daemon and its sessions. -/
inductive LaunchInput where
  /-- A session starts and sends `SET_WRAPPER 1`. -/
  | start (i : ℕ)
  /-- The daemon handles a session's request. -/
  | serve (i : ℕ) (env : RequestEnv)
  /-- A session's game ends, and it sends `SET_WRAPPER 0`. -/
  | exit (i : ℕ)
  /-- The daemon goes on without a request. -/
  | daemon (i : Input)

/-- One step of a daemon and its sessions. -/
def launchStep (B : Build) : LaunchInput → Launchers → Option Launchers
  | .start i, s =>
    if s.phase i = .idle then some { s with phase := Function.update s.phase i .asking } else none
  | .serve i env, s =>
    match (s.phase i).pending with
    | none => none
    | some (r, next) =>
      ((daemonMachine B).step (.request env r) s.running).map fun running =>
        ⟨running, Function.update s.phase i next⟩
  | .exit i, s =>
    if s.phase i = .playing then some { s with phase := Function.update s.phase i .leaving }
    else none
  | .daemon i, s =>
    if i.request? = none then
      ((daemonMachine B).step i s.running).map fun running => { s with running := running }
    else none

/-- Sessions that start on a daemon in any state it can be in. -/
def launchMachine (B : Build) : Machine Launchers LaunchInput where
  init s := (daemonMachine B).Reachable s.running ∧ ∀ i, s.phase i = .idle
  step := launchStep B

/-- A session's first request was handled and its second was not. -/
def Launchers.Holds (s : Launchers) (i : ℕ) : Prop := s.phase i = .playing ∨ s.phase i = .leaving

instance (s : Launchers) (i : ℕ) : Decidable (s.Holds i) := inferInstanceAs (Decidable (_ ∨ _))

/-- **What a running session is promised.** The lock is held, and the next poll that can read
and write the mode node leaves it at `cache`. -/
def Launchers.Served (s : Launchers) : Prop :=
  (∃ i, s.Holds i) → s.running.daemon.wrapperLock ≠ 0 ∧
    ∀ env : PollEnv, env.io.Readable s.running.daemon.pathCache s.running.daemon.node →
      env.io.Writable → modeText 32 (s.running.daemon.pollingRun env).node.content = lit "cache"

/-- A session that ends is the only one. -/
def LaunchInput.LastOut : LaunchInput → Launchers → Prop
  | .serve i _, s => s.phase i = .leaving → ∀ j, j ≠ i → ¬s.Holds j
  | _, _ => True

/-! ### The lock -/

theorem isModeName_cache : IsModeName (lit "cache") :=
  ⟨by decide, by decide, by decide, by decide⟩

/-- A poll under the lock leaves the node at `cache`. -/
theorem Daemon.pollingRun_cache {d : Daemon} {env : PollEnv} (hlock : d.wrapperLock ≠ 0)
    (hread : env.io.Readable d.pathCache d.node) (hwrite : env.io.Writable) :
    modeText 32 (d.pollingRun env).node.content = lit "cache" := by
  have hcopy : (copy32 (lit "cache")).val = lit "cache" := by decide
  have hsys : (d.readMode env.io).2 = true := by
    rw [readMode, mode_of_readable hread]
    rfl
  have hcurrent : (d.readMode env.io).1.current.val = modeText 32 d.node.content := by
    rw [readMode, mode_of_readable hread]
  rw [pollingRun_locked hlock, forceApply, applyTarget]
  split
  next hne =>
    -- the node holds something else, and the poll writes `cache`
    have hpath : findPath env.io.access (d.readMode env.io).1.pathCache ≠ [] := by
      show findPath env.io.access (findPath env.io.access d.pathCache) ≠ []
      rw [findPath_idem _ _ _ hread.path]
      exact hread.path
    have hnode := cliSetMode_of_writable hwrite hpath isModeName_cache.ne_nil
      (d.readMode env.io).1.node
    show modeText 32 (cliSetMode env.io _ (copy32 (lit "cache")).val _).2.content = _
    rw [hcopy, hnode]
    exact modeText_of_isModeName isModeName_cache
  next heq =>
    rw [hsys, hcopy, hcurrent] at heq
    by_contra hne
    exact heq ⟨rfl, hne, isModeName_cache.ne_nil⟩

/-- The promise is about the lock. -/
theorem Launchers.served_iff (s : Launchers) :
    s.Served ↔ ((∃ i, s.Holds i) → s.running.daemon.wrapperLock ≠ 0) := by
  constructor
  · exact fun h hex => (h hex).1
  · exact fun h hex => ⟨h hex, fun env hread hwrite => Daemon.pollingRun_cache (h hex) hread hwrite⟩

theorem wrapperLock_setWrapper (B : Build) (env : RequestEnv) (d : Daemon) :
    (socketHandle B env (lit "SET_WRAPPER 1") d).2.wrapperLock = 1 ∧
      (socketHandle B env (lit "SET_WRAPPER 0") d).2.wrapperLock = 0 := by
  have hone : atoi ((received (lit "SET_WRAPPER 1")).drop 12) = 1 := by decide
  have hzero : atoi ((received (lit "SET_WRAPPER 0")).drop 12) = 0 := by decide
  constructor
  · rw [socketHandle_of_dispatch .setWrapper 12 (by decide)
      (by decide), Daemon.handle, Daemon.handleSetWrapper, hone, if_pos (by decide)]
    rfl
  · rw [socketHandle_of_dispatch .setWrapper 12 (by decide)
      (by decide), Daemon.handle, Daemon.handleSetWrapper, hzero, if_neg (by decide)]
    rfl

/-- **Frame.** Only requests change the lock. -/
theorem wrapperLock_step {B : Build} {s s' : Running} {i : Input} (hi : i.request? = none)
    (h : (daemonMachine B).step i s = some s') :
    s'.daemon.wrapperLock = s.daemon.wrapperLock := by
  rcases step_cases hi h with ⟨env, -, hpoll⟩ | ⟨env, r, -, hpoll⟩ | ⟨-, -, hlock⟩
  · rw [hpoll]
    exact Daemon.sameSettings_pollingRun.wrapperLock
  · rw [hpoll]
    exact (Daemon.sameSettings_pollingRun (d := s.daemon)).wrapperLock
  · exact hlock

/-! ### Steps and runs -/

section

variable {B : Build} {s s' : Launchers}

/-- Who holds after one session has moved on. -/
theorem holds_update (running : Running) (phase : ℕ → SessionPhase) (i j : ℕ) (p : SessionPhase) :
    Launchers.Holds ⟨running, Function.update phase i p⟩ j ↔
      if j = i then p = .playing ∨ p = .leaving else Launchers.Holds ⟨running, phase⟩ j := by
  show (Function.update phase i p j = .playing ∨ Function.update phase i p j = .leaving) ↔
    if j = i then _ else phase j = .playing ∨ phase j = .leaving
  by_cases h : j = i
  · subst h
    rw [Function.update_self, if_pos rfl]
  · rw [Function.update_of_ne h, if_neg h]

/-- A step that changes neither the lock nor who holds keeps the promise. -/
theorem served_of_same (h : s.Served)
    (hlock : s'.running.daemon.wrapperLock = s.running.daemon.wrapperLock)
    (hholds : ∀ j, s'.Holds j → s.Holds j) : s'.Served := by
  rw [Launchers.served_iff] at h ⊢
  rintro ⟨j, hj⟩
  rw [hlock]
  exact h ⟨j, hholds j hj⟩

/-- The step that handles a session's request. -/
theorem serve_cases {i : ℕ} {env : RequestEnv}
    (h : (launchMachine B).step (.serve i env) s = some s') :
    ∃ r next, (s.phase i).pending = some (r, next) ∧
      s'.running.daemon = (socketHandle B env r s.running.daemon).2 ∧
      s' = ⟨s'.running, Function.update s.phase i next⟩ := by
  obtain ⟨⟨d, p⟩, phase⟩ := s
  change (match (phase i).pending with
    | none => none
    | some (r, next) =>
      ((daemonMachine B).step (.request env r) ⟨d, p⟩).map fun running =>
        (⟨running, Function.update phase i next⟩ : Launchers)) = some s' at h
  split at h
  · exact absurd h (by simp)
  next r next hpending =>
    obtain ⟨running, hstep, rfl⟩ := Option.map_eq_some_iff.mp h
    cases stepped hstep with
    | request => exact ⟨r, next, hpending, rfl, rfl⟩

/-- **Step lemma.** A step keeps the promise exactly if it does not end one of several
sessions. -/
theorem served_step (i : LaunchInput) (s s' : Launchers) (h : s.Served)
    (hstep : (launchMachine B).step i s = some s') : s'.Served ↔ i.LastOut s := by
  cases i with
  | start i =>
    refine iff_of_true ?_ trivial
    change (if s.phase i = .idle then _ else none) = some s' at hstep
    split at hstep
    next hidle =>
      obtain rfl := Option.some.inj hstep
      refine served_of_same h rfl fun j hj => ?_
      rw [holds_update] at hj
      split at hj
      · exact absurd hj (by simp)
      · exact hj
    · exact absurd hstep (by simp)
  | exit i =>
    refine iff_of_true ?_ trivial
    change (if s.phase i = .playing then _ else none) = some s' at hstep
    split at hstep
    next hplaying =>
      obtain rfl := Option.some.inj hstep
      refine served_of_same h rfl fun j hj => ?_
      rw [holds_update] at hj
      split at hj
      next hji =>
        subst hji
        exact Or.inl hplaying
      · exact hj
    · exact absurd hstep (by simp)
  | daemon i =>
    refine iff_of_true ?_ trivial
    change (if i.request? = none then _ else none) = some s' at hstep
    split at hstep
    next hi =>
      obtain ⟨running, hrunning, rfl⟩ := Option.map_eq_some_iff.mp hstep
      exact served_of_same h (wrapperLock_step hi hrunning) fun j hj => hj
    · exact absurd hstep (by simp)
  | serve i env =>
    obtain ⟨r, next, hpending, hdaemon, hs'⟩ := serve_cases hstep
    have hone := (wrapperLock_setWrapper B env s.running.daemon).1
    have hzero := (wrapperLock_setWrapper B env s.running.daemon).2
    rw [Launchers.served_iff, hdaemon]
    cases hphase : s.phase i with
    | asking =>
      -- the lock is set, whoever holds it
      rw [hphase] at hpending
      obtain ⟨rfl, rfl⟩ := Prod.mk.inj (Option.some.inj hpending)
      refine iff_of_true (fun _ => ?_) fun hleaving => ?_
      · rw [hone]
        decide
      · exact absurd (hphase.symm.trans hleaving) (by simp)
    | leaving =>
      -- the lock is cleared, so nobody may be left
      rw [hphase] at hpending
      obtain ⟨rfl, rfl⟩ := Prod.mk.inj (Option.some.inj hpending)
      rw [hzero]
      have hholds (j : ℕ) : s'.Holds j ↔ j ≠ i ∧ s.Holds j := by
        rw [hs', holds_update]
        by_cases hji : j = i
        · simp [hji]
        · simp [hji, Launchers.Holds]
      constructor
      · exact fun hnone _ j hji hj => hnone ⟨j, (hholds j).mpr ⟨hji, hj⟩⟩ rfl
      · rintro hlast ⟨j, hj⟩
        obtain ⟨hji, hj⟩ := (hholds j).mp hj
        exact absurd hj (hlast hphase j hji)
    | idle =>
      rw [hphase] at hpending
      exact absurd hpending (by simp [SessionPhase.pending])
    | playing =>
      rw [hphase] at hpending
      exact absurd hpending (by simp [SessionPhase.pending])
    | gone =>
      rw [hphase] at hpending
      exact absurd hpending (by simp [SessionPhase.pending])

/-- **When sessions compose.** The promise holds all along a run exactly if every session that
ends is the last one to hold the lock at that moment. -/
theorem along_served_iff {is : List LaunchInput} (h : (launchMachine B).init s) :
    (launchMachine B).Along Launchers.Served is s ↔
      (launchMachine B).Guarded LaunchInput.LastOut is s := by
  refine Machine.along_iff_guarded served_step ?_
  rintro ⟨j, hj⟩
  exact absurd hj (by simp [Launchers.Holds, h.2 j])

end

/-! ### Two games -/

/-- Two games start, and the first one ends. -/
def overlapRun : List LaunchInput :=
  [.start 0, .serve 0 .allOk, .daemon (.poll .allOk none),
   .start 1, .serve 1 .allOk, .daemon (.poll .allOk none),
   .exit 0, .serve 0 .allOk, .daemon (.poll .allOk none)]

/-- A daemon right after its start, and no session yet. -/
def noSession : Launchers := ⟨⟨boot shippedBuild (.allOk none), .select⟩, fun _ => .idle⟩

theorem noSession_init : (launchMachine shippedBuild).init noSession :=
  ⟨Machine.Reachable.of_init ⟨.allOk none, rfl⟩, fun _ => rfl⟩

theorem overlapRun_enabled : ((launchMachine shippedBuild).run overlapRun noSession).isSome := by
  decide

/-- The second game runs on without the lock. -/
theorem overlapRun_unserved :
    ¬∀ (B : Build) (s : Launchers) (is : List LaunchInput), (launchMachine B).init s →
      (launchMachine B).Along Launchers.Served is s := by
  intro h
  have halong := h shippedBuild noSession overlapRun noSession_init
  have hserved := halong.of_run (Option.some_get overlapRun_enabled).symm
  have hholds : (((launchMachine shippedBuild).run overlapRun noSession).get
      overlapRun_enabled).Holds 1 := by
    decide
  have hfree : (((launchMachine shippedBuild).run overlapRun noSession).get
      overlapRun_enabled).running.daemon.wrapperLock = 0 := by
    decide
  exact (hserved ⟨1, hholds⟩).1 hfree

/-- The rule for that run. -/
theorem along_served_iff_overlapRun :
    (launchMachine shippedBuild).Along Launchers.Served overlapRun noSession ↔
      (launchMachine shippedBuild).Guarded LaunchInput.LastOut overlapRun noSession :=
  along_served_iff noSession_init

end X3D
