import X3DToggle.Sessions
import X3DToggle.Settings
import X3DToggle.Worker

/-!
# One game through the launcher

`run_game` takes the lock with `SET_WRAPPER 1`, forks, waits for the game and gives the lock back
with `SET_WRAPPER 0`. It does not look at the answers, and it returns where it stands when the fork
fails. The daemon keeps nothing of what was there before: it sets the override to 1 and then to 0.

`launcherMachine` runs one such session against the daemon, with everything else the daemon may be
asked in between except another session's requests. `noTrace_iff` says which sessions leave the
lock and the override as they were.
-/

namespace X3D

/-- How the wait for the game ends. -/
inductive GameEnd where
  -- `execvp` fails, and the child exits with 1
  | execFailed
  | exited (code : ℕ)
  | killed (signal : ℕ)
  -- `waitpid` itself fails
  | unknown

/-- Where `run_game` is. -/
inductive LauncherPhase where
  | called (argv : List Bytes)
  -- in front of the first `socket_send`
  | asking
  | forking
  | waiting
  -- in front of the second `socket_send`
  | leaving
  | returned (ret : ℤ)
  deriving DecidableEq

/-- The command in the arguments, with its own arguments. -/
def gameCommand : List Bytes → Option (List Bytes)
  | _ :: a :: argv =>
    if a ≠ lit "run" then some (a :: argv) else if argv = [] then none else some argv
  | _ => none

/-- The daemon and one launcher. -/
structure Launch where
  running : Running
  phase : LauncherPhase

inductive LaunchEvent where
  -- `run_game` looks at its arguments
  | begin
  -- it sends `SET_WRAPPER 1`
  | acquire (env : RequestEnv) (l : Link)
  | fork (ok : Bool)
  | ended (e : GameEnd)
  -- it sends `SET_WRAPPER 0`
  | release (env : RequestEnv) (l : Link)
  -- something else happens to the daemon
  | daemon (i : Input)

/-- It is not a request of a session. -/
def Input.Foreign (i : Input) : Prop :=
  (i.request?.bind fun r => (dispatch (received r)).map Prod.fst) ≠ some .setWrapper

instance (i : Input) : Decidable i.Foreign := inferInstanceAs (Decidable (_ ≠ _))

/-- `socket_send(r, NULL, 0)`, as far as the daemon is concerned. -/
def launcherSend (B : Build) (env : RequestEnv) (l : Link) (r : Bytes) (s : Running) :
    Option Running :=
  if l.Delivers then (daemonMachine B).step (.request env r) s else some s

/-- `run_game`, step by step, and the daemon. Nothing is followed after the return. -/
def launcherStep (B : Build) : LaunchEvent → Launch → Option Launch
  | .begin, ⟨s, .called argv⟩ =>
    some ⟨s, if gameCommand argv = none then .returned errSyntax else .asking⟩
  | .acquire env l, ⟨s, .asking⟩ =>
    (launcherSend B env l (lit "SET_WRAPPER 1") s).map (⟨·, .forking⟩)
  | .fork ok, ⟨s, .forking⟩ => some ⟨s, if ok then .waiting else .returned errIo⟩
  | .ended _, ⟨s, .waiting⟩ => some ⟨s, .leaving⟩
  | .release env l, ⟨s, .leaving⟩ =>
    (launcherSend B env l (lit "SET_WRAPPER 0") s).map (⟨·, .returned errSuccess⟩)
  | .daemon i, ⟨s, p⟩ =>
    match p with
    | .returned _ => none
    | _ => if i.Foreign then ((daemonMachine B).step i s).map (⟨·, p⟩) else none
  | _, _ => none

/-- A session on a daemon in any state it can be in. -/
def launcherMachine (B : Build) : Machine Launch LaunchEvent where
  init s := (daemonMachine B).Reachable s.running ∧ ∃ argv, s.phase = .called argv
  step := launcherStep B

/-- **The promise.** The lock is free and the override is what it was. -/
structure Launch.NoTrace (s s' : Launch) : Prop where
  lock : s'.running.daemon.wrapperLock = 0
  override : s'.running.daemon.activeOverride = s.running.daemon.activeOverride

/-! ### What a step can do -/

section

variable {B : Build} {s t : Launch} {e : LaunchEvent}

/-- **Steps of a session.** -/
theorem launcherStep_cases (h : (launcherMachine B).step e s = some t) :
    (∃ i, e = .daemon i ∧ i.Foreign ∧ t.phase = s.phase ∧
      (daemonMachine B).step i s.running = some t.running) ∨
    (∃ argv, e = .begin ∧ s.phase = .called argv ∧
      t = ⟨s.running, if gameCommand argv = none then .returned errSyntax else .asking⟩) ∨
    (∃ env l, e = .acquire env l ∧ s.phase = .asking ∧ t.phase = .forking ∧
      launcherSend B env l (lit "SET_WRAPPER 1") s.running = some t.running) ∨
    (∃ ok, e = .fork ok ∧ s.phase = .forking ∧
      t = ⟨s.running, if ok then .waiting else .returned errIo⟩) ∨
    (∃ how, e = .ended how ∧ s.phase = .waiting ∧ t = ⟨s.running, .leaving⟩) ∨
    (∃ env l, e = .release env l ∧ s.phase = .leaving ∧ t.phase = .returned errSuccess ∧
      launcherSend B env l (lit "SET_WRAPPER 0") s.running = some t.running) := by
  obtain ⟨s, p⟩ := s
  cases e with
  | begin =>
    cases p with
    | called argv => exact Or.inr (Or.inl ⟨argv, rfl, rfl, (Option.some.inj h).symm⟩)
    -- in any other phase the event is not possible
    | _ => exact absurd h (by simp [launcherMachine, launcherStep])
  | acquire env l =>
    cases p with
    | asking =>
      obtain ⟨s', hs', rfl⟩ := Option.map_eq_some_iff.mp h
      exact Or.inr (Or.inr (Or.inl ⟨env, l, rfl, rfl, rfl, hs'⟩))
    | _ => exact absurd h (by simp [launcherMachine, launcherStep])
  | fork ok =>
    cases p with
    | forking =>
      exact Or.inr (Or.inr (Or.inr (Or.inl ⟨ok, rfl, rfl, (Option.some.inj h).symm⟩)))
    | _ => exact absurd h (by simp [launcherMachine, launcherStep])
  | ended how =>
    cases p with
    | waiting =>
      exact Or.inr (Or.inr (Or.inr (Or.inr (Or.inl ⟨how, rfl, rfl, (Option.some.inj h).symm⟩))))
    | _ => exact absurd h (by simp [launcherMachine, launcherStep])
  | release env l =>
    cases p with
    | leaving =>
      obtain ⟨s', hs', rfl⟩ := Option.map_eq_some_iff.mp h
      exact Or.inr (Or.inr (Or.inr (Or.inr (Or.inr ⟨env, l, rfl, rfl, rfl, hs'⟩))))
    | _ => exact absurd h (by simp [launcherMachine, launcherStep])
  | daemon i =>
    -- the daemon goes on until the launcher has returned
    have hforeign : i.Foreign ∧ ((daemonMachine B).step i s).map (⟨·, p⟩) = some t := by
      cases p with
      | returned ret => exact absurd h (by simp [launcherMachine, launcherStep])
      | _ =>
        change (if i.Foreign then ((daemonMachine B).step i s).map _ else none) = some t at h
        by_cases hi : i.Foreign
        · exact ⟨hi, by rwa [if_pos hi] at h⟩
        · exact absurd h (by simp [hi])
    obtain ⟨s', hs', rfl⟩ := Option.map_eq_some_iff.mp hforeign.2
    exact Or.inl ⟨i, rfl, hforeign.1, rfl, hs'⟩

/-- Nothing follows the return. -/
theorem launcherStep_returned {ret : ℤ} (h : s.phase = .returned ret) :
    (launcherMachine B).step e s = none := by
  obtain ⟨s, p⟩ := s
  obtain rfl : p = .returned ret := h
  cases e <;> rfl

end

/-! ### The lock and the override -/

section

variable {B : Build} {env : RequestEnv} {d : Daemon}

theorem activeOverride_setWrapper (B : Build) (env : RequestEnv) (d : Daemon) :
    (socketHandle B env (lit "SET_WRAPPER 1") d).2.activeOverride = 1 ∧
      (socketHandle B env (lit "SET_WRAPPER 0") d).2.activeOverride = 0 := by
  have hone : atoi ((received (lit "SET_WRAPPER 1")).drop 12) = 1 := by decide
  have hzero : atoi ((received (lit "SET_WRAPPER 0")).drop 12) = 0 := by decide
  constructor
  · rw [socketHandle_of_dispatch .setWrapper 12 (by decide) (by decide), Daemon.handle,
      Daemon.handleSetWrapper, hone, if_pos (by decide)]
  · rw [socketHandle_of_dispatch .setWrapper 12 (by decide) (by decide), Daemon.handle,
      Daemon.handleSetWrapper, hzero, if_neg (by decide)]

theorem wrapperLock_handleSetDaemon (val : Bytes) :
    (d.handleSetDaemon env val).2.wrapperLock = d.wrapperLock := by
  unfold Daemon.handleSetDaemon
  dsimp only
  repeat' split
  all_goals rfl

theorem wrapperLock_followEbpf : (d.followEbpf env).wrapperLock = d.wrapperLock := by
  unfold Daemon.followEbpf
  dsimp only
  repeat' split
  all_goals rfl

theorem wrapperLock_handleSetConfig (val : Bytes) :
    (d.handleSetConfig env val).2.wrapperLock = d.wrapperLock := by
  unfold Daemon.handleSetConfig
  cases strchr val (chr ' ') with
  | none => rfl
  | some p =>
    dsimp only
    cases setConfigTable.lookup p.1 with
    | none => rfl
    | some st =>
      dsimp only
      by_cases hk : p.1 = lit "EBPF_ENABLE"
      · rw [if_pos hk, wrapperLock_followEbpf]
      · rw [if_neg hk]

theorem wrapperLock_handleAdvancedSet (arg : Bytes) :
    (d.handleAdvancedSet env arg).2.wrapperLock = d.wrapperLock := by
  unfold Daemon.handleAdvancedSet
  dsimp only
  repeat' split
  all_goals rfl

/-- **Frame.** No other branch touches the lock. -/
theorem wrapperLock_handle {verb : Verb} (h : verb ≠ .setWrapper) (arg : Bytes) :
    (d.handle B env verb arg).2.wrapperLock = d.wrapperLock := by
  cases verb with
  | setWrapper => exact absurd rfl h
  | setMode =>
    show (d.handleSetMode env arg).2.wrapperLock = _
    unfold Daemon.handleSetMode
    repeat' split
    all_goals rfl
  | setAffinityConfig =>
    show (d.handleSetAffinityConfig env arg).2.wrapperLock = _
    unfold Daemon.handleSetAffinityConfig
    split <;> rfl
  | setCppc => exact (untouched_handleSetCppc arg).wrapperLock
  | setPark => exact (untouched_handleSetPark arg).wrapperLock
  | setUnpark => exact (untouched_handleSetUnpark arg).wrapperLock
  | setTdp => exact (untouched_intRequest fun _ => rfl).wrapperLock
  | setEppCcd => exact (untouched_handleSetEppCcd arg).wrapperLock
  | setDaemon => exact wrapperLock_handleSetDaemon arg
  | setConfig => exact wrapperLock_handleSetConfig arg
  | advancedGet => exact (untouched_handleAdvancedGet arg).wrapperLock
  | advancedSet => exact wrapperLock_handleAdvancedSet arg
  | ping | mode | daemonInfo | getConfig | toggle | getTopology | setBoost | setEpp | setPstate
  | setGovernor | setPrefcore | daemonDisable | configSync | gamesList => rfl

/-- Nothing but a session's request changes the lock. -/
theorem wrapperLock_foreign {i : Input} {s s' : Running} (hi : i.Foreign)
    (h : (daemonMachine B).step i s = some s') :
    s'.daemon.wrapperLock = s.daemon.wrapperLock := by
  cases hr : i.request? with
  | none => exact wrapperLock_step hr h
  | some r =>
    obtain ⟨env, hs'⟩ := exists_request_step hr h
    rw [Input.Foreign, hr, Option.bind_some] at hi
    rw [hs', socketHandle]
    by_cases hnil : r = []
    · rw [if_pos hnil]
    · rw [if_neg hnil]
      cases hverb : dispatch (received r) with
      | none => rfl
      | some p =>
        rw [hverb] at hi
        exact wrapperLock_handle (fun h => hi (congrArg some h)) _

/-- What a delivered request leaves. -/
theorem launcherSend_of_delivers {l : Link} (hl : l.Delivers) {r : Bytes} {s s' : Running}
    (h : launcherSend B env l r s = some s') : s'.daemon = (socketHandle B env r s.daemon).2 := by
  rw [launcherSend, if_pos hl] at h
  cases stepped h with
  | request => rfl

theorem launcherSend_of_not_delivers {l : Link} (hl : ¬l.Delivers) {r : Bytes} {s s' : Running}
    (h : launcherSend B env l r s = some s') : s' = s := by
  rw [launcherSend, if_neg hl] at h
  exact (Option.some.inj h).symm

end

/-! ### Runs -/

section

variable {B : Build}

/-- The game was started, where that is still to come, and the lock was given back. -/
def GivesBack (p : LauncherPhase) (es : List LaunchEvent) : Prop :=
  (p = .forking → .fork true ∈ es) ∧ ∃ env l, l.Delivers ∧ .release env l ∈ es

/-- `run_game` has the lock. -/
def LauncherPhase.Inside (p : LauncherPhase) : Prop := p = .forking ∨ p = .waiting ∨ p = .leaving

/-- Nothing runs after the return. -/
theorem eq_nil_of_returned {es : List LaunchEvent} {s s' : Launch} {ret : ℤ}
    (h : s.phase = .returned ret) (hrun : (launcherMachine B).run es s = some s') :
    es = [] ∧ s' = s := by
  cases es with
  | nil => exact ⟨rfl, (Option.some.inj hrun).symm⟩
  | cons e es =>
    obtain ⟨t, ht, -⟩ := Machine.run_cons_eq_some.mp hrun
    exact absurd (ht.symm.trans (launcherStep_returned h)) (Option.some_ne_none t)

/-- An event that is neither a fork nor a release does not count. -/
theorem givesBack_cons {p : LauncherPhase} {e : LaunchEvent} (hfork : e ≠ .fork true)
    (hrelease : ∀ env l, e ≠ .release env l) (es : List LaunchEvent) :
    GivesBack p (e :: es) ↔ GivesBack p es := by
  simp [GivesBack, hfork.symm, fun env l => (hrelease env l).symm]

/-- **Run lemma.** From the moment the lock is held, a session ends with a free lock and the
override `b` exactly if `b` is zero and the session gives the lock back. -/
theorem noTrace_run (b : ℤ) {es : List LaunchEvent} {s s' : Launch} {ret : ℤ}
    (hin : s.phase.Inside) (hlock : s.running.daemon.wrapperLock ≠ 0)
    (hrun : (launcherMachine B).run es s = some s') (hret : s'.phase = .returned ret) :
    s'.running.daemon.wrapperLock = 0 ∧ s'.running.daemon.activeOverride = b ↔
      b = 0 ∧ GivesBack s.phase es := by
  induction es generalizing s with
  | nil =>
    obtain rfl := Option.some.inj hrun
    rw [LauncherPhase.Inside, hret] at hin
    exact absurd hin (by simp)
  | cons e es ih =>
    obtain ⟨t, ht, hrest⟩ := Machine.run_cons_eq_some.mp hrun
    rcases launcherStep_cases ht with ⟨i, rfl, hi, hphase, hdaemon⟩ | ⟨argv, rfl, hphase, -⟩ |
      ⟨env, l, rfl, hphase, -, -⟩ | ⟨ok, rfl, hphase, rfl⟩ | ⟨how, rfl, hphase, rfl⟩ |
      ⟨env, l, rfl, hphase, hreturned, hsend⟩
    · -- the daemon goes on
      have hlock' : t.running.daemon.wrapperLock ≠ 0 := by rwa [wrapperLock_foreign hi hdaemon]
      rw [ih (hphase ▸ hin) hlock' hrest, hphase,
        givesBack_cons (e := .daemon i) (by simp) (by simp)]
    · rw [LauncherPhase.Inside, hphase] at hin
      exact absurd hin (by simp)
    · rw [LauncherPhase.Inside, hphase] at hin
      exact absurd hin (by simp)
    · cases ok with
      | true =>
        have hwaiting := ih (s := ⟨s.running, .waiting⟩) (Or.inr (Or.inl rfl)) hlock hrest
        rw [hwaiting, hphase]
        simp [GivesBack]
      | false =>
        -- the fork failed, and the lock stays
        obtain ⟨rfl, rfl⟩ := eq_nil_of_returned rfl hrest
        refine iff_of_false (fun h => hlock h.1) fun h => ?_
        exact absurd (h.2.1 hphase) (by simp)
    · have hleaving := ih (s := ⟨s.running, .leaving⟩) (Or.inr (Or.inr rfl)) hlock hrest
      rw [hleaving, hphase, givesBack_cons (e := .ended how) (by simp) (by simp)]
      simp [GivesBack]
    · obtain ⟨rfl, rfl⟩ := eq_nil_of_returned hreturned hrest
      by_cases hl : l.Delivers
      · have hdaemon := launcherSend_of_delivers hl hsend
        rw [hdaemon, (wrapperLock_setWrapper B env s.running.daemon).2,
          (activeOverride_setWrapper B env s.running.daemon).2]
        refine ⟨fun h => ⟨h.2.symm, ?_, env, l, hl, List.mem_singleton_self _⟩, fun h => ?_⟩
        · rw [hphase]
          exact fun h => nomatch h
        · exact ⟨rfl, h.1.symm⟩
      · -- the second request was lost, and the lock stays
        rw [launcherSend_of_not_delivers hl hsend]
        refine iff_of_false (fun h => hlock h.1) ?_
        rintro ⟨-, -, env', l', hl', hmem⟩
        obtain ⟨-, rfl⟩ := LaunchEvent.release.inj (List.mem_singleton.mp hmem)
        exact hl hl'

/-- **When a session leaves no trace.** If there was no override before it, the game was started,
and the lock was given back. -/
theorem noTrace_iff {env : RequestEnv} {l : Link} {es : List LaunchEvent} {s s' : Launch} {ret : ℤ}
    (hl : l.Delivers) (hrun : (launcherMachine B).run (.acquire env l :: es) s = some s')
    (hret : s'.phase = .returned ret) :
    s.NoTrace s' ↔ s.running.daemon.activeOverride = 0 ∧ .fork true ∈ es ∧
      ∃ env l, l.Delivers ∧ .release env l ∈ es := by
  obtain ⟨t, ht, hrest⟩ := Machine.run_cons_eq_some.mp hrun
  rcases launcherStep_cases ht with ⟨i, h, -⟩ | ⟨argv, h, -⟩ | ⟨env', l', h, -, hphase, hsend⟩ |
    ⟨ok, h, -⟩ | ⟨how, h, -⟩ | ⟨env', l', h, -⟩
  · exact nomatch h
  · exact nomatch h
  · obtain ⟨rfl, rfl⟩ := LaunchEvent.acquire.inj h
    have hlock : t.running.daemon.wrapperLock ≠ 0 := by
      rw [launcherSend_of_delivers hl hsend,
        (wrapperLock_setWrapper B env s.running.daemon).1]
      decide
    have hall := noTrace_run s.running.daemon.activeOverride (Or.inl hphase) hlock hrest hret
    rw [GivesBack, hphase] at hall
    simp only [true_imp_iff] at hall
    exact ⟨fun h => hall.mp ⟨h.lock, h.override⟩, fun h => ⟨(hall.mpr h).1, (hall.mpr h).2⟩⟩
  · exact nomatch h
  · exact nomatch h
  · exact nomatch h

end

/-! ### A game that ends well -/

/-- A game is played and exits with 0. -/
def playedGame : List LaunchEvent :=
  [.daemon (.poll .allOk none), .fork true, .ended (.exited 0), .release .allOk .allOk]

/-- The user has chosen `frequency`. -/
def chosenRun : List Input := [.request .allOk (lit "SET_MODE frequency"), .poll .allOk none]

theorem chosenRun_enabled :
    ((daemonMachine shippedBuild).run chosenRun noSession.running).isSome := by
  decide

def chosenState : Running :=
  ((daemonMachine shippedBuild).run chosenRun noSession.running).get chosenRun_enabled

theorem playedGame_enabled : ((launcherMachine shippedBuild).run
      (.acquire .allOk .allOk :: playedGame) ⟨chosenState, .asking⟩).isSome ∧
    ((launcherMachine shippedBuild).run
      (.acquire .allOk .allOk :: playedGame) ⟨noSession.running, .asking⟩).isSome := by
  decide

/-- The choice is gone after the game. -/
theorem override_forgotten :
    ¬∀ (B : Build) (env : RequestEnv) (l : Link) (es : List LaunchEvent) (s s' : Launch) (ret : ℤ),
      (daemonMachine B).Reachable s.running → l.Delivers →
      (launcherMachine B).run (.acquire env l :: es) s = some s' → s'.phase = .returned ret →
      s.NoTrace s' := by
  intro h
  have hreachable : (daemonMachine shippedBuild).Reachable chosenState :=
    ⟨noSession.running, chosenRun, ⟨.allOk none, rfl⟩, (Option.some_get chosenRun_enabled).symm⟩
  have hsame := h shippedBuild .allOk .allOk playedGame ⟨chosenState, .asking⟩
    (((launcherMachine shippedBuild).run _ _).get playedGame_enabled.1) errSuccess hreachable
    (by decide) (Option.some_get playedGame_enabled.1).symm (by decide)
  have hbefore : chosenState.daemon.activeOverride = 2 := by decide
  have hafter : (((launcherMachine shippedBuild).run (.acquire .allOk .allOk :: playedGame)
      ⟨chosenState, .asking⟩).get playedGame_enabled.1).running.daemon.activeOverride = 0 := by
    decide
  exact absurd (hafter.symm.trans (hsame.override.trans hbefore)) (by decide)

/-- The rule for a game on a daemon right after its start. -/
theorem noTrace_iff_playedGame :
    Launch.NoTrace ⟨noSession.running, .asking⟩
        (((launcherMachine shippedBuild).run (.acquire .allOk .allOk :: playedGame)
          ⟨noSession.running, .asking⟩).get playedGame_enabled.2) ↔
      noSession.running.daemon.activeOverride = 0 ∧ .fork true ∈ playedGame ∧
        ∃ env l, l.Delivers ∧ .release env l ∈ playedGame :=
  noTrace_iff (show Link.allOk.Delivers by decide) (Option.some_get playedGame_enabled.2).symm
    (show _ = LauncherPhase.returned errSuccess by decide)

end X3D
