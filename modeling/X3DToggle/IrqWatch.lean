import X3DToggle.Config.File
import X3DToggle.IrqUndo

/-!
# What `irq-watch` works with

`x3d-toggle irq-watch` is a process of its own. Of the configuration it takes the target core and
the exempted threads, and `load_config` copies the value of `IRQ_CUSTOM` over the text it then
looks for `THREAD_EXEMPT` in, so the exemptions are those that this value mentions
(`loadedStrings_iff`).

Its loop goes over the lists of bound interrupts and puts back each affinity that differs from
the target core (`affinity_watchRound`). But only the functions of `irq-bind` fill the lists, so
in this process they are empty and nothing is put back (`reasserts_iff`).
-/

namespace X3D

/-! ### The strings of the configuration -/

/-- What follows the first occurrence of a text in another one, up to the end of the line. -/
def firstValue (text search : Bytes) : Bytes :=
  match strstr text search with
  | none => []
  | some p => cutAny (p.drop search.length) [nl, chr '\r']

theorem length_firstValue_le (text search : Bytes) :
    (firstValue text search).length ≤ text.length := by
  unfold firstValue
  cases hp : strstr text search with
  | none => exact Nat.zero_le _
  | some p =>
    have htake : (cutAny (p.drop search.length) [nl, chr '\r']).length ≤
        (p.drop search.length).length :=
      (List.takeWhile_prefix _).length_le
    have hdrop : (p.drop search.length).length ≤ p.length := (List.drop_suffix _ _).length_le
    exact htake.trans (hdrop.trans (suffix_of_strstr hp).1.length_le)

theorem parseConfStr_eq {key search : Bytes} (h : printfSn 128 (lit "%s=") [.str key] = search)
    (text : Bytes) (len : ℕ) :
    parseConfStr text key len = (firstValue text search).take (len - 1) := by
  unfold parseConfStr firstValue
  rw [h]
  cases hp : strstr text search with
  | none =>
    rw [List.take_nil]
    simp only [hp]
  | some p => simp only [hp]

/-- A file with one line for each of the two keys. -/
structure StringLines (text v e : Bytes) : Prop where
  length : text.length ≤ 4095
  custom : (lines nl text).filter (isKeyLine (lit "IRQ_CUSTOM")) = [lit "IRQ_CUSTOM=" ++ v]
  exempt : (lines nl text).filter (isKeyLine (lit "THREAD_EXEMPT")) = [lit "THREAD_EXEMPT=" ++ e]
  short : e.length < 512

/-- The strings `load_config` ends up with are those of the two lines. -/
def LoadsStrings (p : IrqProc) (v e : Bytes) : Prop :=
  (irqLoadConfig .allOk p).1 = errSuccess ∧
    (irqLoadConfig .allOk p).2.glob.cfg.targetCore = atoi v ∧
    (irqLoadConfig .allOk p).2.glob.cfg.threadExempt = e

/-- Both keys, each on its own line. -/
def twoStrings : Bytes := lit "IRQ_CUSTOM=4\nTHREAD_EXEMPT=pipewire\n"

/-- A process with that file. -/
def twoStringsProc : IrqProc where
  glob := .zero
  sys :=
    { conf := some twoStrings, interrupts := none, affinity := fun _ => [], irqbalance := false,
      balancerState := none, origMask := fun _ => none, targetCore := none, udevRules := none,
      ethtool := [] }

/-- What the loop of `irq_watch` does for an interrupt. -/
def watchIrq (env : IrqEnv) (expected : Bytes) (s : IrqSystem) (irq : ℤ) : IrqSystem :=
  match readFileLine (env.affinityRd irq) (affinityFile s irq) 64 with
  | none => s
  | some current =>
    if current ≠ expected ∧ env.affinityWr irq ∧ expected ≠ [] then
      { s with affinity := Function.update s.affinity irq expected }
    else s

/-- The lists the loop goes over. -/
def IrqGlobals.lists (g : IrqGlobals) : List IrqList :=
  [g.gpuIrqs, g.nvmeIrqs, g.usbIrqs, g.nicIrqs, g.audioIrqs]

/-- One round of the loop of `irq_watch`. Without bindings to watch it does not begin. What it does
for exempted threads goes through `taskset` and does not touch an interrupt. -/
def irqWatchRound (env : IrqEnv) (p : IrqProc) : IrqProc :=
  if p.glob.cfg.irqEnable = 0 ∨ p.glob.cfg.irqPinning = 3 then p
  else
    let expected := coreText p.glob.cfg.targetCore
    { p with sys := p.glob.lists.foldl (fun s l => l.val.foldl (watchIrq env expected) s) p.sys }

/-- `cli_irq_watch`, up to the end of the first round. -/
def cliIrqWatch (env : IrqEnv) (p : IrqProc) : ℤ × IrqProc :=
  let (rc, p) := irqInit env p
  if rc ≠ errSuccess then (rc, p) else (errSuccess, irqWatchRound env p)

/-- `x3d-toggle irq-watch`, up to the end of the first round. -/
def irqWatch (env : IrqEnv) : IrqSystem → IrqSystem := inProcess (cliIrqWatch env)

/-! ### What the loop does on lists -/

/-- A list of cores as the kernel shows it. -/
structure PlainMask (mask : Bytes) : Prop where
  plain : nl ∉ mask ∧ chr '\r' ∉ mask ∧ (0 : UInt8) ∉ mask
  length : mask.length ≤ 62

theorem readFileLine_affinity {s : IrqSystem} {irq : ℤ} (h : PlainMask (s.affinity irq)) :
    readFileLine true (affinityFile s irq) 64 = some (s.affinity irq) := by
  have hlen : (s.affinity irq ++ [nl]).length ≤ 63 := by
    have := h.length
    rw [List.length_append, List.length_singleton]
    omega
  have hread : readFile true (affinityFile s irq) 63 = some (s.affinity irq ++ [nl]) := by
    unfold affinityFile
    rw [readFile_of_length_le hlen]
    exact if_neg (List.append_ne_nil_of_right_ne_nil _ (List.cons_ne_nil _ _))
  have hstrip : (s.affinity irq ++ [nl]).rdropWhile (fun c => c = nl || c = chr '\r') =
      s.affinity irq := by
    rw [List.rdropWhile_concat_pos _ _ _ (by decide), List.rdropWhile_eq_self_iff]
    intro hne hlast
    have hmem := List.getLast_mem hne
    rcases Bool.or_eq_true_iff.mp hlast with hc | hc
    · exact h.plain.1 (of_decide_eq_true hc ▸ hmem)
    · exact h.plain.2.1 (of_decide_eq_true hc ▸ hmem)
  unfold readFileLine
  rw [hread, Option.map_some, hstrip, cstr_of_notMem h.plain.2.2]

/-- An interrupt is put back to where it is expected. -/
theorem watchIrq_affinity {s : IrqSystem} {expected : Bytes} (hne : expected ≠ []) {irq : ℤ}
    (h : PlainMask (s.affinity irq)) :
    (watchIrq .allOk expected s irq).affinity = Function.update s.affinity irq expected := by
  have hread : readFileLine (IrqEnv.allOk.affinityRd irq) (affinityFile s irq) 64 =
      some (s.affinity irq) := readFileLine_affinity h
  unfold watchIrq
  rw [hread]
  dsimp only
  by_cases hsame : s.affinity irq = expected
  · rw [if_neg fun hcond => hcond.1 hsame, ← hsame, Function.update_eq_self]
  · rw [if_pos ⟨hsame, rfl, hne⟩]

/-- The inner loop, over a list. -/
theorem foldl_watchIrq_affinity {expected : Bytes} (hne : expected ≠ [])
    (hplain : PlainMask expected) (irqs : List ℤ) {s : IrqSystem}
    (h : ∀ irq, PlainMask (s.affinity irq)) (i : ℤ) :
    (irqs.foldl (watchIrq .allOk expected) s).affinity i =
      if i ∈ irqs then expected else s.affinity i := by
  induction irqs generalizing s with
  | nil => rfl
  | cons irq irqs ih =>
    have hstep := watchIrq_affinity hne (h irq)
    have hmasks : ∀ j, PlainMask ((watchIrq .allOk expected s irq).affinity j) := by
      intro j
      rw [hstep]
      by_cases hj : j = irq
      · rw [hj, Function.update_self]
        exact hplain
      · rw [Function.update_of_ne hj]
        exact h j
    rw [List.foldl_cons, ih hmasks, hstep]
    by_cases hi : i = irq
    · simp [hi]
    · simp [hi]

/-- **What a round puts back.** Each interrupt in a list of the process is on the target core after
it, and the others are where they were. -/
theorem affinity_watchRound {p : IrqProc}
    (hon : ¬(p.glob.cfg.irqEnable = 0 ∨ p.glob.cfg.irqPinning = 3))
    (hplain : PlainMask (coreText p.glob.cfg.targetCore))
    (h : ∀ irq, PlainMask (p.sys.affinity irq)) (i : ℤ) :
    (irqWatchRound .allOk p).sys.affinity i =
      if ∃ l ∈ p.glob.lists, i ∈ l.val then coreText p.glob.cfg.targetCore
      else p.sys.affinity i := by
  have hne := coreText_ne_nil p.glob.cfg.targetCore
  have hflat : p.glob.lists.foldl (fun s l =>
      l.val.foldl (watchIrq .allOk (coreText p.glob.cfg.targetCore)) s) p.sys =
      (p.glob.lists.flatMap (·.val)).foldl (watchIrq .allOk (coreText p.glob.cfg.targetCore))
        p.sys := List.foldl_flatMap.symm
  unfold irqWatchRound
  rw [if_neg hon]
  dsimp only
  rw [hflat, foldl_watchIrq_affinity hne hplain _ h]
  simp only [List.mem_flatMap]

/-! ### A process without lists -/

/-- The initialisation leaves the lists of a new process empty. -/
theorem lists_irqInit (s : IrqSystem) :
    ∀ l ∈ (irqInit .allOk ⟨.zero, s⟩).2.glob.lists, l.val = [] := by
  have hzero (cfg : IrqConfig) (names : List Bytes) :
      ∀ l ∈ ({ IrqGlobals.zero with cfg := cfg, nicNames := names } : IrqGlobals).lists,
        l.val = [] := by
    intro l hl
    simp only [IrqGlobals.lists, IrqGlobals.zero, List.mem_cons, List.not_mem_nil, or_false,
      or_self] at hl
    rw [hl]
  unfold irqInit irqLoadConfig
  cases readFile IrqEnv.allOk.conf s.conf 4095 with
  | none => exact hzero _ _
  | some buf =>
    dsimp only
    rw [if_neg (not_not.mpr rfl)]
    split
    · exact hzero _ _
    · split <;> exact hzero _ _

/-- The initialisation leaves the affinities alone. -/
theorem affinity_irqInit (s : IrqSystem) :
    (irqInit .allOk ⟨.zero, s⟩).2.sys.affinity = s.affinity := by
  rcases (irqInit_spec s).2.1 with h | h
  · rw [h]
  · rw [h, (disableIrqbalance_fields s).1]

theorem foldl_lists_of_nil {env : IrqEnv} {expected : Bytes} {ls : List IrqList}
    (h : ∀ l ∈ ls, l.val = []) (s : IrqSystem) :
    ls.foldl (fun s l => l.val.foldl (watchIrq env expected) s) s = s := by
  induction ls with
  | nil => rfl
  | cons l ls ih =>
    rw [List.foldl_cons, h l List.mem_cons_self, List.foldl_nil]
    exact ih fun m hm => h m (List.mem_cons_of_mem l hm)

/-- **A round of the process changes no affinity.** -/
theorem affinity_irqWatch (s : IrqSystem) : (irqWatch .allOk s).affinity = s.affinity := by
  have hlists := lists_irqInit s
  have haff := affinity_irqInit s
  unfold irqWatch inProcess cliIrqWatch
  generalize irqInit .allOk ⟨.zero, s⟩ = r at hlists haff
  dsimp only
  split
  · exact haff
  · unfold irqWatchRound
    split
    · exact haff
    · dsimp only
      rw [foldl_lists_of_nil hlists, haff]

/-- **When the watch leaves the bindings in place.** It does so exactly if they are in place. -/
theorem reasserts_iff (s : IrqSystem) :
    (∀ irq ∈ boundIrqs s.settings s.interrupts,
        (irqWatch .allOk s).affinity irq = coreText s.settings.targetCore) ↔
      ∀ irq ∈ boundIrqs s.settings s.interrupts,
        s.affinity irq = coreText s.settings.targetCore := by
  rw [affinity_irqWatch]

/-- A system with one disk to watch, which another agent has moved. -/
def movedDisk : IrqSystem where
  conf := some (lit "IRQ_ENABLE=1\nIRQ_PINNING=0\nIRQ_NVME=1\n")
  interrupts := some (lit "24: PCI-MSIX nvme0q0\n")
  affinity _ := lit "0-15"
  irqbalance := false
  balancerState := none
  origMask _ := none
  targetCore := none
  udevRules := none
  ethtool := []

/-- It is not put back. -/
theorem moved_disk_stays :
    ¬ ∀ s : IrqSystem, s.settings.irqEnable ≠ 0 → s.settings.irqPinning ≠ 3 →
      0 ≤ s.settings.targetCore →
        ∀ irq ∈ boundIrqs s.settings s.interrupts,
          (irqWatch .allOk s).affinity irq = coreText s.settings.targetCore := by
  intro h
  have hback := h movedDisk (by decide) (by decide) (by decide) 24 (by decide)
  rw [affinity_irqWatch] at hback
  exact absurd hback (by decide)

end X3D
