import X3DToggle.Handled

/-!
# The end of the daemon

The main loop is left if `active_keep` is cleared, by a signal or by `DAEMON_DISABLE`. No handler,
no poll and no reload sets it again (`activeKeep_step`), so in every run the flag says whether the
daemon has been told to stop.

What is left to show is that the daemon listens. Told while it waits, it leaves the wait and does
not poll; told while it polls, it does not wait again. So at most one round is still begun or
finished after it was told, and the loop is never left otherwise, unless the process dies
(`shutdown`).
-/

namespace X3D

/-- The daemon is told to stop: `SIGTERM`, `SIGINT` or `DAEMON_DISABLE`. -/
def Input.Stops : Input → Prop
  | .stop => True
  | .request _ r => r ≠ [] ∧ (dispatch (received r)).map Prod.fst = some .daemonDisable
  | _ => False

/-- A step of the loop itself: the end of the wait, or a poll. -/
def Input.isRound : Input → Bool
  | .request _ _ | .timeout | .poll _ _ => true
  | _ => false

variable {B : Build} {s s' : Running} {i : Input} {is : List Input}

/-! ### The flag -/

section

variable {env : RequestEnv} {d : Daemon} {arg : Bytes}

theorem activeKeep_handled {d' : Daemon} (h : Handled env d d') :
    d'.activeKeep = d.activeKeep := by
  induction h with
  | same h => exact h.activeKeep
  | find | setMode | reprobe => rfl
  | trans _ _ ih ih' => exact ih'.trans ih

/-- One branch of the handler clears the flag, and none sets it. -/
theorem activeKeep_handle (verb : Verb) :
    (d.handle B env verb arg).2.activeKeep = (d.activeKeep && verb ≠ .daemonDisable) := by
  by_cases hverb : verb = .daemonDisable
  · rw [hverb]
    exact (Bool.and_false d.activeKeep).symm
  · rw [activeKeep_handled (handled_handle hverb), decide_eq_true hverb, Bool.and_true]

theorem activeKeep_polled {env : PollEnv} {d' : Daemon} (h : Polled env d d') :
    d'.activeKeep = d.activeKeep := by
  induction h with
  | refl | read | bpf | select | write | settle => rfl
  | trans _ _ ih ih' => exact ih'.trans ih

theorem activeKeep_pollingRun (env : PollEnv) : (d.pollingRun env).activeKeep = d.activeKeep :=
  activeKeep_polled (polled_pollingRun env d)

theorem activeKeep_boot (env : BootEnv) : (boot B env).activeKeep = true := by
  unfold boot
  dsimp only
  repeat' split
  all_goals rfl

/-- A request clears the flag if it is `DAEMON_DISABLE`. -/
theorem activeKeep_socketHandle (r : Bytes) :
    (socketHandle B env r d).2.activeKeep = true ↔
      d.activeKeep = true ∧ ¬(Input.request env r).Stops := by
  have hstops : (Input.request env r).Stops ↔
      r ≠ [] ∧ (dispatch (received r)).map Prod.fst = some .daemonDisable := Iff.rfl
  rw [hstops]
  unfold socketHandle
  by_cases hr : r = []
  · rw [if_pos hr]
    exact (and_iff_left fun h => h.1 hr).symm
  · rw [if_neg hr]
    cases hdispatch : dispatch (received r) with
    | none =>
      rw [Option.map_none]
      exact (and_iff_left fun h => Option.some_ne_none _ h.2.symm).symm
    | some v =>
      dsimp only
      rw [activeKeep_handle, Bool.and_eq_true, decide_eq_true_iff, Option.map_some,
        Option.some_inj]
      exact and_congr_right fun _ => not_congr (and_iff_right hr).symm

end

/-- **The flag after a step.** -/
theorem activeKeep_step (hstep : (daemonMachine B).step i s = some s') :
    s'.daemon.activeKeep = true ↔ s.daemon.activeKeep = true ∧ ¬i.Stops := by
  have hquiet : s.daemon.activeKeep = true ↔ s.daemon.activeKeep = true ∧ ¬False :=
    (and_iff_left not_false).symm
  cases stepped hstep with
  | request env r d => exact activeKeep_socketHandle r
  | poll env d =>
    rw [activeKeep_pollingRun]
    exact hquiet
  | reload env r d =>
    show (d.pollingRun env).activeKeep = true ↔ _
    rw [activeKeep_pollingRun]
    exact hquiet
  | stop d p => exact iff_of_false Bool.false_ne_true fun h => h.2 trivial
  | timeout | gamemode | external => exact hquiet

/-- **The flag after a run.** -/
theorem activeKeep_run (hrun : (daemonMachine B).run is s = some s') :
    s'.daemon.activeKeep = true ↔ s.daemon.activeKeep = true ∧ ∀ i ∈ is, ¬i.Stops := by
  induction is generalizing s with
  | nil =>
    obtain rfl := Option.some.inj hrun
    exact (and_iff_left (List.forall_mem_nil _)).symm
  | cons i is ih =>
    obtain ⟨t, ht, hrest⟩ := Machine.run_cons_eq_some.mp hrun
    rw [ih hrest, activeKeep_step ht, List.forall_mem_cons, and_assoc]

/-! ### The loop -/

/-- Where the loop is after a round. -/
theorem phase_round (hstep : (daemonMachine B).step i s = some s') (hround : i.isRound = true) :
    s.phase ≠ .stopped ∧ (s.daemon.activeKeep = false → s'.phase = .stopped) := by
  have hselect : Phase.select ≠ .stopped := by decide
  have hpoll : Phase.poll ≠ .stopped := by decide
  have hkeep := activeKeep_step hstep
  cases stepped hstep with
  | request env r d =>
    refine ⟨hselect, fun hs => if_pos (Or.inr ?_)⟩
    have hoff : ¬(socketHandle B env r d).2.activeKeep = true := fun h =>
      Bool.false_ne_true (hs ▸ (hkeep.mp h).1)
    simpa using hoff
  | timeout d =>
    refine ⟨hselect, fun hs => ?_⟩
    exact if_neg (by simpa using hs)
  | poll env d =>
    refine ⟨hpoll, fun hs => if_neg ?_⟩
    rw [activeKeep_pollingRun]
    simpa using hs
  | reload env r d =>
    refine ⟨hpoll, fun hs => if_neg ?_⟩
    show ¬(d.pollingRun env).activeKeep = true
    rw [activeKeep_pollingRun]
    simpa using hs
  | stop | gamemode | external => exact absurd hround Bool.false_ne_true

/-- Other steps leave the loop where it is. -/
theorem phase_quiet (hstep : (daemonMachine B).step i s = some s') (hround : i.isRound = false) :
    s'.phase = s.phase := by
  cases stepped hstep with
  | request | timeout | poll | reload => exact absurd hround.symm Bool.false_ne_true
  | stop | gamemode | external => rfl

/-- A loop that has been left is not entered again. -/
theorem rounds_of_stopped (hrun : (daemonMachine B).run is s = some s')
    (hs : s.phase = .stopped) : is.filter Input.isRound = [] ∧ s'.phase = .stopped := by
  induction is generalizing s with
  | nil =>
    obtain rfl := Option.some.inj hrun
    exact ⟨rfl, hs⟩
  | cons i is ih =>
    obtain ⟨t, ht, hrest⟩ := Machine.run_cons_eq_some.mp hrun
    by_cases hround : i.isRound = true
    · exact absurd hs (phase_round ht hround).1
    · have hquiet := Bool.eq_false_of_not_eq_true hround
      rw [List.filter_cons_of_neg hround]
      exact ih hrest ((phase_quiet ht hquiet).trans hs)

/-- A daemon that was told to stop makes one round at most, and leaves the loop with it. -/
theorem rounds_of_told (hrun : (daemonMachine B).run is s = some s')
    (hs : s.daemon.activeKeep = false) : (is.filter Input.isRound).length ≤ 1 ∧
      (is.filter Input.isRound ≠ [] → s'.phase = .stopped) := by
  induction is generalizing s with
  | nil => exact ⟨Nat.zero_le _, fun h => absurd rfl h⟩
  | cons i is ih =>
    obtain ⟨t, ht, hrest⟩ := Machine.run_cons_eq_some.mp hrun
    have htold : t.daemon.activeKeep = false := by
      refine Bool.eq_false_of_not_eq_true fun h => ?_
      exact Bool.false_ne_true (hs ▸ ((activeKeep_step ht).mp h).1)
    by_cases hround : i.isRound = true
    · obtain ⟨hnone, hstopped⟩ := rounds_of_stopped hrest ((phase_round ht hround).2 hs)
      rw [List.filter_cons_of_pos hround, hnone]
      exact ⟨le_rfl, fun _ => hstopped⟩
    · rw [List.filter_cons_of_neg hround]
      exact ih hrest htold

/-- The loop is left for a reason. -/
def LeftWithReason (s : Running) : Prop :=
  s.phase = .stopped → s.daemon.crashed = true ∨ s.daemon.activeKeep = false

theorem leftWithReason_step (hstep : (daemonMachine B).step i s = some s')
    (hs : LeftWithReason s) : LeftWithReason s' := by
  intro hstopped
  have hselect : Phase.select ≠ .stopped := by decide
  have hpoll : Phase.poll ≠ .stopped := by decide
  cases stepped hstep with
  | request env r d =>
    by_cases h : (socketHandle B env r d).2.crashed = true ∨
        (!(socketHandle B env r d).2.activeKeep) = true
    · exact h.imp_right fun hoff => by simpa using hoff
    · rw [if_neg h] at hstopped
      exact absurd hstopped hpoll
  | timeout d =>
    by_cases h : d.activeKeep = true
    · rw [if_pos h] at hstopped
      exact absurd hstopped hpoll
    · exact Or.inr (Bool.eq_false_of_not_eq_true h)
  | poll env d =>
    by_cases h : (d.pollingRun env).activeKeep = true
    · rw [if_pos h] at hstopped
      exact absurd hstopped hselect
    · exact Or.inr (Bool.eq_false_of_not_eq_true h)
  | reload env r d =>
    by_cases h : ((d.pollingRun env).reload B r).activeKeep = true
    · rw [if_pos h] at hstopped
      exact absurd hstopped hselect
    · exact Or.inr (Bool.eq_false_of_not_eq_true h)
  | stop => exact Or.inr rfl
  | gamemode g d p => exact hs hstopped
  | external conf games content d p => exact hs hstopped

/-- **Shutdown.** In every run of the daemon the loop is left only if the process died or was told
to stop; and once it was told, at most one more round is made, and that is the last. -/
theorem shutdown {env : BootEnv} (hrun : (daemonMachine B).run is ⟨boot B env, .select⟩ = some s) :
    (s.phase = .stopped → s.daemon.crashed = true ∨ ∃ i ∈ is, i.Stops) ∧
      ∀ pre i post, is = pre ++ i :: post → i.Stops →
        (post.filter Input.isRound).length ≤ 1 ∧
          (post.filter Input.isRound ≠ [] → s.phase = .stopped) := by
  have hflag := activeKeep_run hrun
  constructor
  · intro hstopped
    have hreason : LeftWithReason s :=
      Machine.run_induction (fun i _ s s' hs hstep => leftWithReason_step hstep hs)
        (fun h => absurd h (show Phase.select ≠ .stopped by decide)) hrun
    refine (hreason hstopped).imp_right fun hoff => ?_
    by_contra hnever
    have hall : ∀ i ∈ is, ¬i.Stops := fun i hi hstops => hnever ⟨i, hi, hstops⟩
    rw [hflag.mpr ⟨activeKeep_boot env, hall⟩] at hoff
    exact Bool.noConfusion hoff
  · rintro pre i post rfl hi
    obtain ⟨t, -, hrest⟩ := Machine.run_append_eq_some.mp hrun
    obtain ⟨u, hu, hpost⟩ := Machine.run_cons_eq_some.mp hrest
    refine rounds_of_told hpost (Bool.eq_false_of_not_eq_true fun h => ?_)
    exact ((activeKeep_step hu).mp h).2 hi

theorem shutdown_stop :
    ∃ s, (daemonMachine shippedBuild).run [.stop, .timeout]
        ⟨boot shippedBuild (.allOk none), .select⟩ = some s ∧ s.phase = .stopped := by
  have hrun : (daemonMachine shippedBuild).run [.stop, .timeout]
      ⟨boot shippedBuild (.allOk none), .select⟩ = some _ := rfl
  obtain ⟨-, htold⟩ := shutdown hrun
  exact ⟨_, hrun, (htold [] .stop [.timeout] rfl trivial).2 (List.cons_ne_nil _ _)⟩

end X3D
