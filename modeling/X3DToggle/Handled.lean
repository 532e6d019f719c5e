import X3DToggle.Convergence

/-!
# What a request and a poll do to the loop

A branch of the handler may look for the mode node, write one of the four modes to it, or run the
reset script. Whatever else it does, it leaves the node, its name, the buffers of the loop and the
flag of the loop alone. `handled_handle` says so of all branches but the one that stops the loop.

A poll reads the node, serves the tracker, changes its target and writes it (`polled_pollingRun`).
Whichever way it takes, it does nothing else.

What is to hold of the daemon over every run is then shown for the few ways of `Handled` and
`Polled`, by induction.
-/

namespace X3D

/-- The modes that the handler writes. -/
def modeWords : List Bytes := [lit "cache", lit "frequency", lit "dual", lit "swap"]

/-- The loop does not see a difference. -/
structure SameLoop (d d' : Daemon) : Prop where
  node : d'.node = d.node
  pathCache : d'.pathCache = d.pathCache
  current : d'.current = d.current
  target : d'.target = d.target
  activeKeep : d'.activeKeep = d.activeKeep

theorem SameLoop.rfl {d : Daemon} : SameLoop d d := ⟨Eq.refl _, Eq.refl _, Eq.refl _, Eq.refl _,
  Eq.refl _⟩

/-- **What a branch may do.** -/
inductive Handled (env : RequestEnv) : Daemon → Daemon → Prop where
  | same {d d' : Daemon} (h : SameLoop d d') : Handled env d d'
  | find (d : Daemon) : Handled env d { d with pathCache := findPath env.io.access d.pathCache }
  | setMode {target : Bytes} (h : target ∈ modeWords) (d : Daemon) :
    Handled env d (d.setMode env.io target)
  | reprobe (d : Daemon) :
    Handled env d { d with node := { d.node with content := env.reprobe d.node.content } }
  | trans {d d' d'' : Daemon} (h : Handled env d d') (h' : Handled env d' d'') : Handled env d d''

variable {B : Build} {env : RequestEnv} {d d' : Daemon} {arg : Bytes}

theorem Handled.rfl : Handled env d d := .same SameLoop.rfl

/-- One of the modes is written, and the rest is no concern of the loop. -/
theorem Handled.setMode_same {target : Bytes} (h : target ∈ modeWords) (d₀ : Daemon)
    (h₀ : SameLoop d d₀) (h' : SameLoop (d₀.setMode env.io target) d') : Handled env d d' :=
  .trans (.same h₀) (.trans (.setMode h d₀) (.same h'))

theorem handled_intRequest (c : ℤ → HwCall) : Handled env d (d.intRequest env arg c).2 := by
  unfold Daemon.intRequest
  split
  · exact .same ⟨rfl, rfl, rfl, rfl, rfl⟩
  · exact .rfl
  · exact .same ⟨rfl, rfl, rfl, rfl, rfl⟩

theorem handled_parkCores (cores : List ℕ) (ret : ℤ) :
    Handled env d (Daemon.parkCores env cores ret d).2 := by
  induction cores generalizing ret d with
  | nil => exact .rfl
  | cons c cores ih =>
    have hcall : SameLoop d (d.call env (.setCore c false)).2 := ⟨rfl, rfl, rfl, rfl, rfl⟩
    exact .trans (.same hcall) (ih _)

theorem handled_toggle : Handled env d (d.handleToggle env).2 := by
  have hword (b : Prop) [Decidable b] :
      (if b then lit "frequency" else lit "cache") ∈ modeWords := by
    split
    · exact List.mem_cons_of_mem _ List.mem_cons_self
    · exact List.mem_cons_self
  exact .trans (.find d) (.setMode_same (hword _)
    { d with
      pathCache := findPath env.io.access d.pathCache
      activeOverride := (d.handleToggle env).2.activeOverride }
    ⟨rfl, rfl, rfl, rfl, rfl⟩ .rfl)

theorem handled_modeRequest (override : ℤ) {target : Bytes} (h : target ∈ modeWords)
    (partition : ℕ) : Handled env d (d.modeRequest env override target partition).2 :=
  .setMode_same h { d with activeOverride := override } ⟨rfl, rfl, rfl, rfl, rfl⟩
    ⟨rfl, rfl, rfl, rfl, rfl⟩

theorem handled_setMode : Handled env d (d.handleSetMode env arg).2 := by
  unfold Daemon.handleSetMode
  split
  · exact .same ⟨rfl, rfl, rfl, rfl, rfl⟩
  split
  · exact handled_modeRequest _ List.mem_cons_self _
  split
  · exact handled_modeRequest _ (List.mem_cons_of_mem _ List.mem_cons_self) _
  split
  · exact handled_modeRequest _ (by decide) _
  split
  · exact handled_modeRequest _ (by decide) _
  · exact .rfl

theorem handled_setDaemon : Handled env d (d.handleSetDaemon env arg).2 := by
  unfold Daemon.handleSetDaemon
  dsimp only
  split
  · split
    · exact .same ⟨rfl, rfl, rfl, rfl, rfl⟩
    · by_cases hauto : arg = lit "auto"
      · rw [if_pos hauto]
        refine .trans (.reprobe d) (.same ?_)
        split <;> exact ⟨rfl, rfl, rfl, rfl, rfl⟩
      · rw [if_neg hauto]
        refine .same ?_
        split <;> exact ⟨rfl, rfl, rfl, rfl, rfl⟩
  · exact .rfl

theorem handled_setWrapper : Handled env d (d.handleSetWrapper env arg).2 := by
  unfold Daemon.handleSetWrapper
  dsimp only
  split
  · exact .setMode_same List.mem_cons_self { d with wrapperLock := atoi arg }
      ⟨rfl, rfl, rfl, rfl, rfl⟩ ⟨rfl, rfl, rfl, rfl, rfl⟩
  · exact .setMode_same (List.mem_cons_of_mem _ List.mem_cons_self)
      { d with wrapperLock := atoi arg } ⟨rfl, rfl, rfl, rfl, rfl⟩
      ⟨rfl, rfl, rfl, rfl, rfl⟩

/-- **Every branch but one.** -/
theorem handled_handle {verb : Verb} (hverb : verb ≠ .daemonDisable) :
    Handled env d (d.handle B env verb arg).2 := by
  cases verb with
  | daemonDisable => exact absurd rfl hverb
  | mode => exact .find d
  | toggle => exact handled_toggle
  | setMode => exact handled_setMode
  | setAffinityConfig =>
    refine .same ?_
    show SameLoop d (d.handleSetAffinityConfig env arg).2
    unfold Daemon.handleSetAffinityConfig
    split <;> exact ⟨rfl, rfl, rfl, rfl, rfl⟩
  | setCppc =>
    refine .same ?_
    show SameLoop d (d.handleSetCppc env arg).2
    unfold Daemon.handleSetCppc
    dsimp only
    repeat' split
    all_goals exact ⟨rfl, rfl, rfl, rfl, rfl⟩
  | setPark =>
    show Handled env d (d.handleSetPark B env arg).2
    unfold Daemon.handleSetPark
    split
    · exact handled_parkCores _ _
    · exact handled_intRequest _
  | setUnpark =>
    show Handled env d (d.handleSetUnpark env arg).2
    unfold Daemon.handleSetUnpark
    split
    · exact .setMode (by decide) d
    · exact handled_intRequest _
  | setTdp => exact handled_intRequest _
  | setEppCcd =>
    show Handled env d (d.handleSetEppCcd env arg).2
    unfold Daemon.handleSetEppCcd
    split
    · exact .rfl
    · exact handled_intRequest _
  | setDaemon => exact handled_setDaemon
  | setConfig =>
    refine .same ?_
    show SameLoop d (d.handleSetConfig env arg).2
    unfold Daemon.handleSetConfig Daemon.followEbpf
    dsimp only
    repeat' split
    all_goals exact ⟨rfl, rfl, rfl, rfl, rfl⟩
  | setWrapper => exact handled_setWrapper
  | advancedGet =>
    refine .same ?_
    show SameLoop d (d.handleAdvancedGet env arg).2
    unfold Daemon.handleAdvancedGet
    repeat' split
    all_goals exact .rfl
  | advancedSet =>
    refine .same ?_
    show SameLoop d (d.handleAdvancedSet env arg).2
    unfold Daemon.handleAdvancedSet
    dsimp only
    repeat' split
    all_goals exact ⟨rfl, rfl, rfl, rfl, rfl⟩
  | ping | daemonInfo | getConfig | getTopology | setBoost | setEpp | setPstate | setGovernor
  | setPrefcore | configSync | gamesList => exact .same ⟨rfl, rfl, rfl, rfl, rfl⟩

/-- A request is handled by a branch, unless it stops the loop. -/
theorem handled_socketHandle (B : Build) (env : RequestEnv) (r : Bytes) (d : Daemon) :
    Handled env d (socketHandle B env r d).2 ∨
      (socketHandle B env r d).2 = { d with activeKeep := false } := by
  unfold socketHandle
  split
  · exact Or.inl .rfl
  · split
    · exact Or.inl .rfl
    · next verb arg _ =>
      by_cases hverb : verb = .daemonDisable
      · rw [hverb]
        exact Or.inr rfl
      · exact Or.inl (handled_handle hverb)

/-! ### Polls -/

/-- **What a poll may do.** -/
inductive Polled (env : PollEnv) : Daemon → Daemon → Prop where
  | refl (d : Daemon) : Polled env d d
  | read (d : Daemon) : Polled env d (d.readMode env.io).1
  | bpf (b : Bpf) (d : Daemon) : Polled env d { d with bpf := b }
  | select {target : Bytes} (h : target ∈ modeWords) (d : Daemon) :
    Polled env d { d with target := copy32 target }
  | write (d : Daemon) : Polled env d (d.setMode env.io d.target.val)
  | settle (d : Daemon) : Polled env d { d with target := copy32 d.current.val }
  | trans {d d' d'' : Daemon} (h : Polled env d d') (h' : Polled env d' d'') : Polled env d d''

section

variable {env : PollEnv}

theorem polled_applyTarget (sysfsOk : Bool) : Polled env d (d.applyTarget env.io sysfsOk) := by
  unfold Daemon.applyTarget
  split
  · exact .write d
  · exact .refl d

theorem polled_forceApply (sysfsOk : Bool) : Polled env d (d.forceApply env.io sysfsOk) :=
  .trans (polled_applyTarget sysfsOk) (.settle _)

theorem polled_pollBpf : Polled env d (d.pollBpf env) := by
  obtain ⟨b, hb⟩ := d.pollBpf_eq env
  rw [hb]
  exact .bpf b d

/-- The detection selects one of two modes. -/
theorem autoTarget_mem (d : Daemon) (env : PollEnv) : d.autoTarget env ∈ modeWords := by
  rcases d.autoTarget_cases env with htarget | htarget <;> rw [htarget]
  · exact List.mem_cons_self
  · exact List.mem_cons_of_mem _ List.mem_cons_self

/-- **Every poll.** -/
theorem polled_pollingRun (env : PollEnv) (d : Daemon) : Polled env d (d.pollingRun env) := by
  refine .trans (.read d) ?_
  by_cases hlock : d.wrapperLock = 0
  · by_cases hauto : d.Automated
    · rw [Daemon.pollingRun_automated hlock hauto]
      exact .trans polled_pollBpf (.trans (.select (autoTarget_mem d env) _) (polled_applyTarget _))
    · rw [Daemon.pollingRun_suspended hlock hauto]
      exact polled_forceApply _
  · rw [Daemon.pollingRun_locked hlock]
    exact .trans (.select List.mem_cons_self _) (polled_forceApply _)

end

end X3D
