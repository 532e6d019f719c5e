import X3DToggle.Irq

/-!
# What `irq-reset` undoes

`irq_teardown` walks over the lists of bound interrupts. Only `irq-bind` fills them, in another
process, so in `irq-reset` they are empty and no affinity is restored; the masks saved under
`/run/x3d-toggle` are not looked at. With `irqbalance` it is the other way round: the file says
whether it was active, and `irq-reset` starts it even if the file is older than the bind.

`Rebound s s' l text` says what any part of a bind does: it writes `text` to the interrupts in
`l` and leaves alone what a later bind depends on. A bind is the composition of such parts
(`binds_cli`), and what any number of binds have done is `Bound`.
-/

namespace X3D

/-- The interrupts in `l` were moved, and nothing a bind depends on has changed. -/
structure Rebound (s s' : IrqSystem) (l : List ℤ) (text : Bytes) : Prop where
  affinity : ∀ irq, s'.affinity irq = if irq ∈ l then text else s.affinity irq
  conf : s'.conf = s.conf
  interrupts : s'.interrupts = s.interrupts
  targetCore : s'.targetCore = s.targetCore
  irqbalance : s'.irqbalance = s.irqbalance
  balancerState : s'.balancerState = s.balancerState

namespace Rebound

variable {s s' s'' : IrqSystem} {l l' : List ℤ} {text : Bytes}

theorem refl (s : IrqSystem) (text : Bytes) : Rebound s s [] text :=
  ⟨fun _ => rfl, rfl, rfl, rfl, rfl, rfl⟩

theorem trans (h : Rebound s s' l text) (h' : Rebound s' s'' l' text) :
    Rebound s s'' (l ++ l') text := by
  refine ⟨fun irq => ?_, h'.conf.trans h.conf, h'.interrupts.trans h.interrupts,
    h'.targetCore.trans h.targetCore, h'.irqbalance.trans h.irqbalance,
    h'.balancerState.trans h.balancerState⟩
  rw [h'.affinity, h.affinity]
  by_cases hl' : irq ∈ l'
  · simp [hl']
  · by_cases hl : irq ∈ l <;> simp [hl, hl']

end Rebound

/-! ### Parts of a bind -/

theorem utoaLoop_ne_nil (base fuel n : ℕ) {s : Bytes} (h : s ≠ []) :
    utoaLoop base fuel n s ≠ [] := by
  induction fuel generalizing n s with
  | zero => exact h
  | succ fuel ih =>
    rw [utoaLoop]
    split
    · exact h
    · exact ih _ (List.cons_ne_nil _ _)

theorem coreText_ne_nil (core : ℤ) : coreText core ≠ [] := by
  have hpos {n : ℕ} (hn : n ≠ 0) : utoaLoop 10 64 n [] ≠ [] := by
    rw [utoaLoop, if_neg hn]
    exact utoaLoop_ne_nil _ _ _ (List.cons_ne_nil _ _)
  have hitoa : xuiItoa core ≠ [] := by
    unfold xuiItoa
    split
    · decide
    next hcore =>
      split
      · exact List.cons_ne_nil _ _
      · exact hpos (by omega)
  rw [coreText, printfSn_d, Ne, List.take_eq_nil_iff]
  exact not_or.mpr ⟨by decide, hitoa⟩

section

variable {s s' : IrqSystem} {p : IrqProc}

theorem rebound_saveOriginalMask (irq : ℤ) (text : Bytes) :
    Rebound s (saveOriginalMask .allOk irq s) [] text := by
  unfold saveOriginalMask
  split
  · exact .refl s text
  · exact ⟨fun _ => rfl, rfl, rfl, rfl, rfl, rfl⟩

theorem rebound_applyAffinity (core irq : ℤ) :
    Rebound s (applyAffinity .allOk core s irq) [irq] (coreText core) := by
  have hwrite : IrqEnv.allOk.affinityWr irq = true ∧ coreText core ≠ [] :=
    ⟨rfl, coreText_ne_nil core⟩
  have hset : Rebound (saveOriginalMask .allOk irq s) (applyAffinity .allOk core s irq) [irq]
      (coreText core) := by
    unfold applyAffinity
    rw [if_pos hwrite]
    refine ⟨fun i => ?_, rfl, rfl, rfl, rfl, rfl⟩
    by_cases hi : i = irq
    · subst hi
      simp
    · simp [hi]
  exact (rebound_saveOriginalMask irq _).trans hset

theorem rebound_foldl (core : ℤ) (l : List ℤ) (s : IrqSystem) :
    Rebound s (l.foldl (applyAffinity .allOk core) s) l (coreText core) := by
  induction l generalizing s with
  | nil => exact .refl s _
  | cons irq l ih => exact (rebound_applyAffinity core irq).trans (ih _)

/-- A process has bound the interrupts in `l` to its target core. -/
structure Binds (p p' : IrqProc) (l : List ℤ) : Prop where
  cfg : p'.glob.cfg = p.glob.cfg
  sys : Rebound p.sys p'.sys l (coreText p.glob.cfg.targetCore)

theorem Binds.refl (p : IrqProc) : Binds p p [] := ⟨rfl, .refl _ _⟩

theorem Binds.trans {p p' p'' : IrqProc} {l l' : List ℤ} (h : Binds p p' l)
    (h' : Binds p' p'' l') : Binds p p'' (l ++ l') :=
  ⟨h'.cfg.trans h.cfg, h.sys.trans (h.cfg ▸ h'.sys)⟩

/-- A list is applied once it is in its global. -/
theorem binds_applyList {g : IrqGlobals} (l : IrqList) (hg : g.cfg = p.glob.cfg) :
    Binds p (applyList .allOk l p.glob.cfg.targetCore { p with glob := g }) l.val :=
  ⟨hg, rebound_foldl _ _ _⟩

/-- The interrupts of a class, if it is enabled. -/
def classIrqs (flag : ℤ) (l : IrqList) : List ℤ := if flag = 0 then [] else l.val

theorem binds_nvme : Binds p (bindNvme .allOk p)
    (classIrqs p.glob.cfg.irqNvme (discoverIrqs .allOk p.sys.interrupts (lit "nvme"))) := by
  unfold bindNvme classIrqs
  split
  · exact .refl p
  · exact binds_applyList _ rfl

theorem binds_usb : Binds p (bindUsb .allOk p)
    (classIrqs p.glob.cfg.irqUsb (discoverIrqs .allOk p.sys.interrupts (lit "xhci_hcd"))) := by
  unfold bindUsb classIrqs
  split
  · exact .refl p
  · exact binds_applyList _ rfl

theorem binds_nic : Binds p (bindNic .allOk p)
    (classIrqs p.glob.cfg.irqNic
      (discoverEither .allOk p.sys.interrupts (lit "eth") (lit "enp"))) := by
  unfold bindNic classIrqs
  split
  · exact .refl p
  · have happly := binds_applyList (p := p)
      (g := { p.glob with
        nicIrqs := discoverEither .allOk p.sys.interrupts (lit "eth") (lit "enp") })
      (discoverEither .allOk p.sys.interrupts (lit "eth") (lit "enp")) rfl
    dsimp only
    split
    · -- coalescing calls `ethtool` and leaves the rest alone
      exact ⟨happly.cfg, ⟨happly.sys.affinity, happly.sys.conf, happly.sys.interrupts,
        happly.sys.targetCore, happly.sys.irqbalance, happly.sys.balancerState⟩⟩
    · exact happly

theorem binds_audio : Binds p (bindAudio .allOk p)
    (classIrqs p.glob.cfg.irqAudio
      (discoverEither .allOk p.sys.interrupts (lit "snd_hda") (lit "snd-hda"))) := by
  unfold bindAudio classIrqs
  split
  · exact .refl p
  · exact binds_applyList _ rfl

end

/-! ### A bind -/

/-- The interrupts a bind moves under a configuration, for the content of `/proc/interrupts`. -/
def boundIrqs (cfg : IrqConfig) (file : Option Bytes) : List ℤ :=
  if cfg.irqEnable = 0 ∨ cfg.irqPinning = 3 then []
  else
    classIrqs cfg.irqGpu (verifiedGpuIrqs .allOk file) ++
      (classIrqs cfg.irqNvme (discoverIrqs .allOk file (lit "nvme")) ++
        classIrqs cfg.irqUsb (discoverIrqs .allOk file (lit "xhci_hcd")) ++
        classIrqs cfg.irqNic (discoverEither .allOk file (lit "eth") (lit "enp")) ++
        classIrqs cfg.irqAudio (discoverEither .allOk file (lit "snd_hda") (lit "snd-hda")))

theorem binds_udev (p : IrqProc) : Binds p (irqGenUdev .allOk p).2 [] := by
  unfold irqGenUdev
  split
  · exact .refl p
  · exact ⟨rfl, ⟨fun _ => rfl, rfl, rfl, rfl, rfl, rfl⟩⟩

theorem binds_gpu {p : IrqProc} (hon : ¬(p.glob.cfg.irqEnable = 0 ∨ p.glob.cfg.irqPinning = 3)) :
    Binds p (irqBindGpu .allOk p).2
      (classIrqs p.glob.cfg.irqGpu (verifiedGpuIrqs .allOk p.sys.interrupts)) := by
  unfold irqBindGpu classIrqs
  rw [if_neg hon]
  split
  · exact .refl p
  · exact binds_applyList _ rfl

theorem binds_peripherals {p : IrqProc}
    (hon : ¬(p.glob.cfg.irqEnable = 0 ∨ p.glob.cfg.irqPinning = 3)) :
    Binds p (irqBindPeripherals .allOk p).2
      (classIrqs p.glob.cfg.irqNvme (discoverIrqs .allOk p.sys.interrupts (lit "nvme")) ++
        classIrqs p.glob.cfg.irqUsb (discoverIrqs .allOk p.sys.interrupts (lit "xhci_hcd")) ++
        classIrqs p.glob.cfg.irqNic
          (discoverEither .allOk p.sys.interrupts (lit "eth") (lit "enp")) ++
        classIrqs p.glob.cfg.irqAudio
          (discoverEither .allOk p.sys.interrupts (lit "snd_hda") (lit "snd-hda"))) := by
  unfold irqBindPeripherals
  rw [if_neg hon]
  -- each block reads the same configuration and the same `/proc/interrupts`
  have h₁ : Binds p (bindNvme .allOk p) _ := binds_nvme
  have husb : Binds (bindNvme .allOk p) (bindUsb .allOk (bindNvme .allOk p)) _ := binds_usb
  rw [h₁.cfg, h₁.sys.interrupts] at husb
  have h₂ := h₁.trans husb
  have hnic : Binds (bindUsb .allOk (bindNvme .allOk p))
      (bindNic .allOk (bindUsb .allOk (bindNvme .allOk p))) _ := binds_nic
  rw [h₂.cfg, h₂.sys.interrupts] at hnic
  have h₃ := h₂.trans hnic
  have haudio : Binds (bindNic .allOk (bindUsb .allOk (bindNvme .allOk p)))
      (bindAudio .allOk (bindNic .allOk (bindUsb .allOk (bindNvme .allOk p)))) _ := binds_audio
  rw [h₃.cfg, h₃.sys.interrupts] at haudio
  exact h₃.trans haudio

/-- What follows the initialisation of a bind. -/
theorem binds_cli (p : IrqProc) :
    Binds p (irqGenUdev .allOk (irqBindPeripherals .allOk (irqBindGpu .allOk p).2).2).2
      (boundIrqs p.glob.cfg p.sys.interrupts) := by
  by_cases hoff : p.glob.cfg.irqEnable = 0 ∨ p.glob.cfg.irqPinning = 3
  · have hgpu : (irqBindGpu .allOk p).2 = p := by rw [irqBindGpu, if_pos hoff]
    have hper : (irqBindPeripherals .allOk p).2 = p := by rw [irqBindPeripherals, if_pos hoff]
    rw [hgpu, hper, boundIrqs, if_pos hoff]
    exact binds_udev p
  · have hgpu := binds_gpu hoff
    have hper := binds_peripherals (p := (irqBindGpu .allOk p).2) (by rwa [hgpu.cfg])
    rw [hgpu.cfg, hgpu.sys.interrupts] at hper
    have hall := (hgpu.trans hper).trans (binds_udev _)
    rw [List.append_nil] at hall
    rw [boundIrqs, if_neg hoff]
    exact hall

/-- The configuration a bind works with. -/
def IrqSystem.settings (s : IrqSystem) : IrqConfig :=
  match readFile true s.conf 4095 with
  | none => IrqGlobals.zero.cfg
  | some buf =>
    let cfg := irqConfigOf (cstr buf)
    if cfg.irqEnable = 0 ∨ cfg.irqPinning = 3 then cfg
    else { cfg with targetCore := resolveTargetCore .allOk cfg s.targetCore }

/-- The initialisation loads the settings, and may stop `irqbalance`; without a configuration it
ends the process, and nothing is enabled. -/
theorem irqInit_spec (s : IrqSystem) :
    (irqInit .allOk ⟨.zero, s⟩).2.glob.cfg = s.settings ∧
      ((irqInit .allOk ⟨.zero, s⟩).2.sys = s ∨
        (irqInit .allOk ⟨.zero, s⟩).2.sys = disableIrqbalance .allOk s) ∧
      ((irqInit .allOk ⟨.zero, s⟩).1 = errSuccess ∨ s.settings.irqEnable = 0) := by
  cases hread : readFile true s.conf 4095 with
  | none =>
    -- there is no configuration, so the settings are those of a fresh process
    have hload : irqLoadConfig .allOk ⟨.zero, s⟩ = (errConf, ⟨.zero, s⟩) := by
      simp only [irqLoadConfig, IrqEnv.allOk, hread]
    have hset : s.settings = IrqGlobals.zero.cfg := by
      simp only [IrqSystem.settings, hread]
    have hinit : irqInit .allOk ⟨.zero, s⟩ = (errConf, ⟨.zero, s⟩) := by
      rw [irqInit, hload]
      exact if_pos (by decide)
    rw [hinit, hset]
    exact ⟨rfl, Or.inl rfl, Or.inr rfl⟩
  | some buf =>
    set cfg := irqConfigOf (cstr buf) with hcfg
    have hload : irqLoadConfig .allOk ⟨.zero, s⟩ =
        (errSuccess, ⟨{ IrqGlobals.zero with cfg := cfg }, s⟩) := by
      simp only [irqLoadConfig, IrqEnv.allOk, hread, hcfg]
    unfold irqInit
    rw [hload]
    dsimp only
    rw [if_neg (not_not.mpr rfl)]
    -- with pinning switched off the target core is not resolved
    by_cases hoff : cfg.irqEnable = 0 ∨ cfg.irqPinning = 3
    · have hset : s.settings = cfg := by
        simp only [IrqSystem.settings, hread, ← hcfg, if_pos hoff]
      rw [if_pos hoff, hset]
      exact ⟨rfl, Or.inl rfl, Or.inl rfl⟩
    · have hset : s.settings =
          { cfg with targetCore := resolveTargetCore .allOk cfg s.targetCore } := by
        simp only [IrqSystem.settings, hread, ← hcfg, if_neg hoff]
      rw [if_neg hoff, hset]
      split
      · exact ⟨rfl, Or.inl rfl, Or.inl rfl⟩
      · exact ⟨rfl, Or.inr rfl, Or.inl rfl⟩

/-! ### Any number of binds, and a reset -/

/-- What binds do to `irqbalance`: nothing, or they find it active and stop it, and leave the file
that says so. -/
def Balanced (s s' : IrqSystem) : Prop :=
  (s'.irqbalance = s.irqbalance ∧ s'.balancerState = s.balancerState) ∨
    (s.irqbalance = true ∧ s'.irqbalance = false ∧ s'.balancerState = some (lit "1"))

theorem Balanced.trans {s s' s'' : IrqSystem} (h : Balanced s s') (h' : Balanced s' s'') :
    Balanced s s'' := by
  rcases h with ⟨hrun, hfile⟩ | ⟨hactive, hstopped, hfile⟩
  · unfold Balanced
    rw [← hrun, ← hfile]
    exact h'
  · rcases h' with ⟨hrun', hfile'⟩ | ⟨hactive', -, -⟩
    · exact Or.inr ⟨hactive, hrun'.trans hstopped, hfile'.trans hfile⟩
    · rw [hstopped] at hactive'
      exact absurd hactive' Bool.false_ne_true

theorem balanced_disableIrqbalance (s : IrqSystem) :
    Balanced s (disableIrqbalance .allOk s) := by
  unfold disableIrqbalance
  split
  next hactive => exact Or.inr ⟨hactive, rfl, rfl⟩
  · exact Or.inl ⟨rfl, rfl⟩

/-- What one or more binds have done. -/
structure Bound (s s' : IrqSystem) : Prop where
  affinity : ∀ irq, s'.affinity irq =
    if irq ∈ boundIrqs s.settings s.interrupts then coreText s.settings.targetCore
    else s.affinity irq
  conf : s'.conf = s.conf
  interrupts : s'.interrupts = s.interrupts
  targetCore : s'.targetCore = s.targetCore
  balanced : Balanced s s'

/-- The second bind moves the interrupts of the first to the core they are on. -/
theorem Bound.trans {s s' s'' : IrqSystem} (h : Bound s s') (h' : Bound s' s'') :
    Bound s s'' := by
  have hsettings : s'.settings = s.settings := by
    unfold IrqSystem.settings
    rw [h.conf, h.targetCore]
  refine ⟨fun irq => ?_, h'.conf.trans h.conf, h'.interrupts.trans h.interrupts,
    h'.targetCore.trans h.targetCore, h.balanced.trans h'.balanced⟩
  rw [h'.affinity, h.affinity, hsettings, h.interrupts]
  split <;> rfl

theorem irqBindGpu_fst (env : IrqEnv) (p : IrqProc) : (irqBindGpu env p).1 = errSuccess := by
  unfold irqBindGpu
  split
  · rfl
  · split <;> rfl

theorem irqBindPeripherals_fst (env : IrqEnv) (p : IrqProc) :
    (irqBindPeripherals env p).1 = errSuccess := by
  unfold irqBindPeripherals
  split <;> rfl

/-- Only the initialisation and the udev rules can fail. -/
theorem cliIrqBind_eq (env : IrqEnv) (p : IrqProc) :
    cliIrqBind env p =
      if (irqInit env p).1 ≠ errSuccess then irqInit env p
      else irqGenUdev env
        (irqBindPeripherals env (irqBindGpu env (irqInit env p).2).2).2 := by
  have hgpu := irqBindGpu_fst env (irqInit env p).2
  have hper := irqBindPeripherals_fst env (irqBindGpu env (irqInit env p).2).2
  unfold cliIrqBind
  dsimp only
  rw [hgpu, hper]
  simp only [ne_eq, not_true_eq_false, if_false]

/-- Stopping `irqbalance` binds nothing. -/
theorem disableIrqbalance_fields (s : IrqSystem) :
    (disableIrqbalance .allOk s).affinity = s.affinity ∧
      (disableIrqbalance .allOk s).conf = s.conf ∧
      (disableIrqbalance .allOk s).interrupts = s.interrupts ∧
      (disableIrqbalance .allOk s).targetCore = s.targetCore := by
  unfold disableIrqbalance
  split <;> exact ⟨rfl, rfl, rfl, rfl⟩

/-- **Step lemma.** What one bind does. -/
theorem bound_irqBind (s : IrqSystem) : Bound s (irqBind .allOk s) := by
  obtain ⟨hcfg, hsys, hrc⟩ := irqInit_spec s
  have hbind : irqBind .allOk s = (cliIrqBind .allOk ⟨.zero, s⟩).2.sys := rfl
  rw [hbind, cliIrqBind_eq]
  generalize irqInit .allOk ⟨.zero, s⟩ = r at hcfg hsys hrc
  -- the initialisation changes nothing but `irqbalance`
  have hstart : (r.2.sys.affinity = s.affinity ∧ r.2.sys.conf = s.conf ∧
      r.2.sys.interrupts = s.interrupts ∧ r.2.sys.targetCore = s.targetCore) ∧
      Balanced s r.2.sys := by
    rcases hsys with h | h
    · rw [h]
      exact ⟨⟨rfl, rfl, rfl, rfl⟩, Or.inl ⟨rfl, rfl⟩⟩
    · rw [h]
      exact ⟨disableIrqbalance_fields s, balanced_disableIrqbalance s⟩
  obtain ⟨⟨haff, hconf, hint, hcore⟩, hbal⟩ := hstart
  by_cases hok : r.1 = errSuccess
  · rw [if_neg (not_not.mpr hok)]
    have hbinds := (binds_cli r.2).sys
    rw [hcfg, hint] at hbinds
    refine ⟨fun irq => ?_, hbinds.conf.trans hconf, hbinds.interrupts.trans hint,
      hbinds.targetCore.trans hcore, ?_⟩
    · rw [hbinds.affinity, haff]
    · exact hbal.trans (Or.inl ⟨hbinds.irqbalance, hbinds.balancerState⟩)
  · rw [if_pos hok]
    -- without a configuration nothing is enabled
    have hnone : boundIrqs s.settings s.interrupts = [] :=
      if_pos (Or.inl (hrc.resolve_left hok))
    refine ⟨fun irq => ?_, hconf, hint, hcore, hbal⟩
    rw [hnone, if_neg List.not_mem_nil, haff]

/-- **Run lemma.** Further binds add nothing to the first. -/
theorem bound_iterate (n : ℕ) (s : IrqSystem) : Bound s ((irqBind .allOk)^[n + 1] s) := by
  induction n with
  | zero => exact bound_irqBind s
  | succ n ih =>
    rw [Function.iterate_succ_apply']
    exact ih.trans (bound_irqBind _)

/-- A reset starts with empty lists: it restores no affinity, and `irqbalance` by the file. -/
theorem irqReset_eq (s : IrqSystem) :
    irqReset .allOk s = restoreIrqbalance .allOk { s with udevRules := none } := rfl

theorem affinity_irqReset (s : IrqSystem) : (irqReset .allOk s).affinity = s.affinity := by
  rw [irqReset_eq, restoreIrqbalance]
  split <;> rfl

theorem irqbalance_irqReset (s : IrqSystem) :
    (irqReset .allOk s).irqbalance = (s.irqbalance || s.balancerState.isSome) := by
  rw [irqReset_eq, restoreIrqbalance]
  dsimp only
  split
  next hfile => rw [hfile]; rfl
  next hfile =>
    rw [Bool.not_eq_true] at hfile
    rw [hfile, Bool.or_false]

/-- After binds and a reset `irqbalance` is active if it was, or if there was a file. -/
theorem irqbalance_undo {s s' : IrqSystem} (h : Balanced s s') :
    (irqReset .allOk s').irqbalance = (s.irqbalance || s.balancerState.isSome) := by
  rw [irqbalance_irqReset]
  rcases h with ⟨hrun, hfile⟩ | ⟨hactive, -, hfile⟩
  · rw [hrun, hfile]
  · rw [hactive, hfile, Option.isSome_some, Bool.or_true, Bool.true_or]

/-- **Binding is undone** when there is nothing to undo: every interrupt the binds move was on the
target core already, and `irqbalance` was active, or no file of an earlier bind says it was. -/
theorem undone_iff (n : ℕ) (hn : 0 < n) (s : IrqSystem) :
    ((∀ irq, (irqReset .allOk ((irqBind .allOk)^[n] s)).affinity irq = s.affinity irq) ∧
        ((irqReset .allOk ((irqBind .allOk)^[n] s)).irqbalance = true ↔ s.irqbalance = true)) ↔
      (∀ irq ∈ boundIrqs s.settings s.interrupts,
          s.affinity irq = coreText s.settings.targetCore) ∧
        (s.irqbalance = true ∨ s.balancerState = none) := by
  obtain ⟨n, rfl⟩ := Nat.exists_eq_succ_of_ne_zero hn.ne'
  have hbound := bound_iterate n s
  refine and_congr ?_ ?_
  · refine forall_congr' fun irq => ?_
    rw [affinity_irqReset, hbound.affinity]
    split
    next hmem => exact ⟨fun h _ => h.symm, fun h => (h hmem).symm⟩
    next hmem => exact ⟨fun _ h => absurd h hmem, fun _ => rfl⟩
  · rw [irqbalance_undo hbound.balanced, ← Option.not_isSome_iff_eq_none, Bool.or_eq_true]
    by_cases hactive : s.irqbalance = true <;> simp [hactive]

/-- The NVMe interrupt 40 is to be bound to core 0, and is free to move. -/
def nvmeSystem : IrqSystem where
  conf := some (lit "IRQ_ENABLE=1\nIRQ_NVME=1\n")
  interrupts := some (lit "           CPU0\n  40:  7  PCI-MSI  nvme0q0\n")
  affinity _ := lit "0-15"
  irqbalance := true
  balancerState := none
  origMask _ := none
  targetCore := none
  udevRules := none
  ethtool := []

/-- The same with every interrupt on core 0. -/
def pinnedSystem : IrqSystem := { nvmeSystem with affinity := fun _ => lit "0" }

theorem undone_iff_pinnedSystem :
    0 < 2 ∧ ((∀ irq, (irqReset .allOk ((irqBind .allOk)^[2] pinnedSystem)).affinity irq =
        pinnedSystem.affinity irq) ∧
      ((irqReset .allOk ((irqBind .allOk)^[2] pinnedSystem)).irqbalance = true ↔
        pinnedSystem.irqbalance = true)) :=
  ⟨by decide, (undone_iff 2 (by decide) pinnedSystem).mpr
    ⟨fun _ _ => show lit "0" = coreText pinnedSystem.settings.targetCore by decide,
      Or.inl rfl⟩⟩

theorem affinity_not_restored :
    ¬ ∀ (n : ℕ) (s : IrqSystem), 0 < n →
      (∀ irq, (irqReset .allOk ((irqBind .allOk)^[n] s)).affinity irq = s.affinity irq) ∧
        ((irqReset .allOk ((irqBind .allOk)^[n] s)).irqbalance = true ↔ s.irqbalance = true) := by
  intro h
  have hsame := (h 1 nvmeSystem Nat.one_pos).1 40
  have hmem : (40 : ℤ) ∈ boundIrqs nvmeSystem.settings nvmeSystem.interrupts := by decide
  rw [affinity_irqReset, Function.iterate_one, (bound_irqBind _).affinity, if_pos hmem] at hsame
  have hmoved : coreText nvmeSystem.settings.targetCore ≠ nvmeSystem.affinity 40 := by
    decide
  exact hmoved hsame

end X3D
