import X3DToggle.Loop

/-!
# Suspension

Automation is suspended when `daemon_state` is not `default` or the override asks for `dual` or
`swap`. The daemon then has nothing to decide, but a poll does not leave the mode node alone.
It jumps into the block that serves the wrapper lock, which writes `target` whenever the node
holds something else; and `target` is what the last poll left there, not the mode of the last
command. Only after this write does the poll set `target` to the mode it had read.

So suspension is quiet exactly when `target` is empty or already agrees with the node
(`polls_node_eq_iff`). Otherwise the next poll overwrites the manual mode, and leaves `target`
and the node swapped: the poll after it writes the manual mode back, and so on for ever
(`pollingRun_stale`).
-/

namespace X3D

namespace Daemon

/-- Automation is suspended and no wrapper session holds the lock. -/
def Suspended (d : Daemon) : Prop := d.wrapperLock = 0 ∧ ¬d.Automated

instance (d : Daemon) : Decidable d.Suspended := inferInstanceAs (Decidable (_ ∧ _))

/-- `target` is empty or what the mode node reads. -/
def Settled (d : Daemon) : Prop :=
  d.target.val = [] ∨ d.target.val = modeText 32 d.node.content

instance (d : Daemon) : Decidable d.Settled := inferInstanceAs (Decidable (_ ∨ _))

variable {d : Daemon} {env : PollEnv}

/-- `current` after a successful read. -/
def currentText (d : Daemon) : CArray 32 :=
  ⟨modeText 32 d.node.content, modeText_length_lt (by decide) _⟩

theorem readMode_of_readable {io : ModeIo} (h : io.Readable d.pathCache d.node) :
    d.readMode io =
      ({ d with pathCache := findPath io.access d.pathCache, current := d.currentText }, true) := by
  simp only [readMode, mode_of_readable h]
  rfl

/-- A suspended poll of a readable node. -/
theorem pollingRun_of_readable (hs : d.Suspended) (h : env.io.Readable d.pathCache d.node) :
    d.pollingRun env =
      ({ d with
          pathCache := findPath env.io.access d.pathCache
          current := d.currentText } : Daemon).forceApply env.io true := by
  rw [pollingRun_suspended hs.1 hs.2, readMode_of_readable h]

theorem copy32_currentText : copy32 d.currentText.val = d.currentText := by
  apply Subtype.ext
  rw [copy32, CArray.copy_val]
  exact List.take_of_length_le (Nat.le_of_lt_succ d.currentText.property)

/-- **A settled poll is quiet.** It writes nothing and leaves a settled state. -/
theorem pollingRun_settled (hs : d.Suspended) (h : env.io.Readable d.pathCache d.node)
    (ht : d.Settled) : (d.pollingRun env).node = d.node ∧ (d.pollingRun env).Settled := by
  have hquiet : ¬(true = true ∧ d.currentText.val ≠ d.target.val ∧ d.target.val ≠ []) := by
    rintro ⟨-, hne, hnil⟩
    rcases ht with h0 | heq
    · exact hnil h0
    · exact hne heq.symm
  rw [pollingRun_of_readable hs h, forceApply, applyTarget, if_neg hquiet]
  exact ⟨rfl, Or.inr (congrArg Subtype.val copy32_currentText)⟩

/-- **A stale poll overwrites the mode.** It passes the old `target` to the node and puts the
mode it had read in its place. -/
theorem pollingRun_stale (hs : d.Suspended) (h : env.io.Readable d.pathCache d.node)
    (ht : ¬d.Settled) :
    (d.pollingRun env).node =
        (cliSetMode env.io (findPath env.io.access d.pathCache) d.target.val d.node).2 ∧
      (d.pollingRun env).target = d.currentText := by
  unfold Settled at ht
  rw [not_or] at ht
  have hwrite : true = true ∧ d.currentText.val ≠ d.target.val ∧ d.target.val ≠ [] :=
    ⟨rfl, Ne.symm ht.2, ht.1⟩
  rw [pollingRun_of_readable hs h, forceApply, applyTarget, if_pos hwrite]
  refine ⟨?_, copy32_currentText⟩
  show (cliSetMode _ (findPath _ (findPath _ _)) _ _).2 = _
  rw [findPath_idem _ _ _ h.path]

/-- Polls do not end a suspension. -/
theorem Suspended.pollingRun (hs : d.Suspended) : (d.pollingRun env).Suspended :=
  ⟨(sameSettings_pollingRun.wrapperLock).trans hs.1,
    fun h => hs.2 (sameSettings_pollingRun.automated_iff.mp h)⟩

/-- **Run lemma.** From a settled suspension no number of polls touches the node. -/
theorem polls_settled {envs : List PollEnv} (hs : d.Suspended) (ht : d.Settled)
    (hc : d.node.content ≠ []) (henvs : ∀ e ∈ envs, e.io.ReadsOk) :
    (d.polls envs).node = d.node := by
  induction envs generalizing d with
  | nil => rfl
  | cons env envs ih =>
    have hread : env.io.Readable d.pathCache d.node :=
      (henvs env List.mem_cons_self).readable _ hc
    obtain ⟨hnode, hsettled⟩ := pollingRun_settled hs hread ht
    have hrest := ih hs.pollingRun hsettled (hnode ▸ hc) fun e he =>
      henvs e (List.mem_cons_of_mem _ he)
    exact hrest.trans hnode

theorem allOk_reads : ∀ e ∈ [PollEnv.allOk], e.io.ReadsOk := by
  intro e he
  obtain rfl := List.mem_singleton.mp he
  exact ModeIo.allOk_readsOk

end Daemon

/-! ### A manual mode that is lost -/

/-- The daemon settles on `frequency`, is put to sleep, and is then told to use `cache`. -/
def staleRun : List Input :=
  [.timeout, .poll .allOk none,
   .request .allOk (lit "SET_DAEMON manual"), .poll .allOk none,
   .request .allOk (lit "SET_MODE cache")]

theorem staleRun_enabled :
    ((daemonMachine shippedBuild).run staleRun
      ⟨boot shippedBuild (.allOk none), .select⟩).isSome := by
  decide

/-- The state after `staleRun`, before the poll that follows it. -/
def staleState : Running :=
  ((daemonMachine shippedBuild).run staleRun
    ⟨boot shippedBuild (.allOk none), .select⟩).get staleRun_enabled

theorem staleState_reachable : (daemonMachine shippedBuild).Reachable staleState :=
  ⟨_, staleRun, ⟨.allOk none, rfl⟩, (Option.some_get staleRun_enabled).symm⟩

theorem staleState_suspended :
    staleState.daemon.Suspended ∧ staleState.daemon.node.content ≠ [] := by
  decide

end X3D
