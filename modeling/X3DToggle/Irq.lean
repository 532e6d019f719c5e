import X3DToggle.Xui

/-!
# IRQ binding

`x3d-toggle irq-bind` moves the interrupts of the GPU and of other devices to one core, and
`irq-reset` is to undo it. Both are processes of their own: what one of them keeps in its
globals is gone when it ends, and only files outlive it.

`IrqSystem` is what the processes share: the configuration, the kernel's files, the files under
`/run/x3d-toggle`, the udev rules, and whether `irqbalance` is active. `IrqProc` is a process,
which is its globals and the system. The interrupts of a device class are found by a token in
`/proc/interrupts`, of which 8191 bytes are read.
-/

namespace X3D

/-- `irq_list_t`: at most `IRQ_MAX_VECTORS` interrupts. -/
abbrev IrqList := { l : List ℤ // l.length ≤ 64 }

/-- `irq_config_t`. -/
structure IrqConfig where
  targetCore : ℤ
  irqEnable : ℤ
  irqPinning : ℤ
  irqGpu : ℤ
  irqNvme : ℤ
  irqUsb : ℤ
  irqNic : ℤ
  irqAudio : ℤ
  irqCoalesce : ℤ
  irqWatch : ℤ
  threadControl : ℤ
  threadCap : ℤ
  threadExempt : Bytes

/-- The globals of `irq.c`. -/
structure IrqGlobals where
  cfg : IrqConfig
  gpuIrqs : IrqList
  nvmeIrqs : IrqList
  usbIrqs : IrqList
  nicIrqs : IrqList
  audioIrqs : IrqList
  nicNames : List Bytes

/-- The globals of a process that has just started. -/
def IrqGlobals.zero : IrqGlobals where
  cfg := ⟨0, 0, 0, 0, 0, 0, 0, 0, 0, 0, 0, 0, []⟩
  gpuIrqs := ⟨[], Nat.zero_le _⟩
  nvmeIrqs := ⟨[], Nat.zero_le _⟩
  usbIrqs := ⟨[], Nat.zero_le _⟩
  nicIrqs := ⟨[], Nat.zero_le _⟩
  audioIrqs := ⟨[], Nat.zero_le _⟩
  nicNames := []

/-- What the processes share. -/
structure IrqSystem where
  -- `daemon.conf` and `/proc/interrupts`
  conf : Option Bytes
  interrupts : Option Bytes
  -- the lists `/proc/irq/<n>/smp_affinity_list` shows, without their line breaks
  affinity : ℤ → Bytes
  -- `irqbalance` is active, and the file that says it was
  irqbalance : Bool
  balancerState : Option Bytes
  -- `irq_orig_<n>` and `irq_target_core`
  origMask : ℤ → Option Bytes
  targetCore : Option Bytes
  udevRules : Option Bytes
  -- the interfaces `ethtool` was called for, with the value set
  ethtool : List (Bytes × ℕ)

/-- The outcomes of the calls of one process. -/
structure IrqEnv where
  -- these files can be opened and read
  conf : Bool
  interrupts : Bool
  affinityRd : ℤ → Bool
  -- these can be opened and written
  affinityWr : ℤ → Bool
  state : Bool
  udev : Bool
  -- `systemctl` starts and stops `irqbalance`
  systemctl : Bool

/-- Every call succeeds. -/
def IrqEnv.allOk : IrqEnv where
  conf := true
  interrupts := true
  affinityRd _ := true
  affinityWr _ := true
  state := true
  udev := true
  systemctl := true

/-- A process. -/
structure IrqProc where
  glob : IrqGlobals
  sys : IrqSystem

/-- `read_file_line`, with a buffer of `len` bytes. -/
def readFileLine (ok : Bool) (file : Option Bytes) (len : ℕ) : Option Bytes :=
  (readFile ok file (len - 1)).map fun buf =>
    cstr (buf.rdropWhile fun c => c = nl || c = chr '\r')

/-! ### The configuration -/

/-- `parse_conf_int`. -/
def parseConfInt (haystack key : Bytes) : ℤ :=
  let search := printfSn 128 (lit "%s=") [.str key]
  match strstr haystack search with
  | none => 0
  | some p => atoi (p.drop search.length)

/-- `parse_conf_str`, into a buffer of `len` bytes. -/
def parseConfStr (haystack key : Bytes) (len : ℕ) : Bytes :=
  let search := printfSn 128 (lit "%s=") [.str key]
  match strstr haystack search with
  | none => []
  | some p => (cutAny (p.drop search.length) [nl, chr '\r']).take (len - 1)

/-- The configuration in the buffer of `load_config`. The value of `IRQ_CUSTOM` is copied over
the buffer it is read from, so `THREAD_EXEMPT` is looked for in that value. -/
def irqConfigOf (buf : Bytes) : IrqConfig :=
  let custom := parseConfStr buf (lit "IRQ_CUSTOM") 4096
  { targetCore := atoi custom
    irqEnable := parseConfInt buf (lit "IRQ_ENABLE")
    irqPinning := parseConfInt buf (lit "IRQ_PINNING")
    irqGpu := parseConfInt buf (lit "IRQ_GPU")
    irqNvme := parseConfInt buf (lit "IRQ_NVME")
    irqUsb := parseConfInt buf (lit "IRQ_USB")
    irqNic := parseConfInt buf (lit "IRQ_NIC")
    irqAudio := parseConfInt buf (lit "IRQ_AUDIO")
    irqCoalesce := parseConfInt buf (lit "IRQ_COALESCE")
    irqWatch := parseConfInt buf (lit "IRQ_WATCH")
    threadControl := parseConfInt buf (lit "THREAD_CONTROL")
    threadCap := parseConfInt buf (lit "THREAD_CAP")
    threadExempt := parseConfStr custom (lit "THREAD_EXEMPT") 512 }

/-- `load_config`. -/
def irqLoadConfig (env : IrqEnv) (p : IrqProc) : ℤ × IrqProc :=
  match readFile env.conf p.sys.conf 4095 with
  | none => (errConf, p)
  | some buf => (errSuccess, { p with glob := { p.glob with cfg := irqConfigOf (cstr buf) } })

/-- `resolve_target_core`, with the content of `irq_target_core`. -/
def resolveTargetCore (env : IrqEnv) (cfg : IrqConfig) (file : Option Bytes) : ℤ :=
  if cfg.irqPinning = 1 then
    match readFileLine env.state file 16 with
    | some buf => atoi buf
    | none => 0
  else if cfg.irqPinning = 2 then cfg.targetCore
  else if cfg.irqPinning = 3 then -1
  else 0

/-! ### `irqbalance` -/

/-- `disable_irqbalance`. -/
def disableIrqbalance (env : IrqEnv) (s : IrqSystem) : IrqSystem :=
  if s.irqbalance then
    { s with
      balancerState := if env.state then some (lit "1") else s.balancerState
      irqbalance := !env.systemctl }
  else s

/-- `restore_irqbalance`. -/
def restoreIrqbalance (env : IrqEnv) (s : IrqSystem) : IrqSystem :=
  if s.balancerState.isSome then
    { s with irqbalance := s.irqbalance || env.systemctl, balancerState := none }
  else s

/-! ### Discovery -/

/-- The interrupt a line of `/proc/interrupts` gives for a token. -/
def irqOfLine (token line : Bytes) : Option ℤ :=
  if contains line token && 0 < atoi line then some (atoi line) else none

/-- `discover_irqs`, on the content of `/proc/interrupts`. -/
def discoverIrqs (env : IrqEnv) (file : Option Bytes) (token : Bytes) : IrqList :=
  match readFile env.interrupts file 8191 with
  | none => ⟨[], Nat.zero_le _⟩
  | some buf =>
    ⟨((lines nl (cstr buf)).filterMap (irqOfLine token)).take 64, List.length_take_le _ _⟩

/-- Discovery with a second token for when the first finds nothing. -/
def discoverEither (env : IrqEnv) (file : Option Bytes) (token token' : Bytes) : IrqList :=
  if (discoverIrqs env file token).val = [] then discoverIrqs env file token'
  else discoverIrqs env file token

/-- `verify_msi`. From the first occurrence of the number the search goes to the end of the
text. -/
def verifyMsi (env : IrqEnv) (file : Option Bytes) (irq : ℤ) : Bool :=
  match readFile env.interrupts file 8191 with
  | none => false
  | some buf =>
    match strstr (cstr buf) (printfSn 16 (lit "%d:") [.int irq]) with
    | none => false
    | some line => contains line (lit "PCI-MSI") || contains line (lit "PCI-MSIX")

/-- The loop of `count_msix_vectors` over the text from `p` on. The search for the marker begins
80 bytes before an occurrence of the driver and goes to the end of the text. -/
def msixLoop (buf : Bytes) : ℕ → Bytes → ℕ
  | 0, _ => 0
  | fuel + 1, p =>
    match strstr p (lit "amdgpu") with
    | none => 0
    | some q =>
      (if contains (buf.drop (buf.length - q.length - 80)) (lit "PCI-MSIX") then 1 else 0) +
        msixLoop buf fuel q.tail

/-- `count_msix_vectors`. -/
def countMsixVectors (env : IrqEnv) (file : Option Bytes) : ℕ :=
  match readFile env.interrupts file 8191 with
  | none => 0
  | some buf => msixLoop (cstr buf) ((cstr buf).length + 1) (cstr buf)

/-- The tokens `discover_nic_names` looks for in a line. -/
def nicTokens : List Bytes := [lit "eth", lit "enp", lit "eno", lit "wlan"]

/-- The name a line gives: from the first token that occurs, to a blank or a dash. -/
def nicName (line : Bytes) : Option Bytes :=
  (nicTokens.findSome? (strstr line)).map fun found => (cutAny found [chr ' ', nl, chr '-']).take 31

/-- `discover_nic_names`. -/
def discoverNicNames (env : IrqEnv) (file : Option Bytes) : List Bytes :=
  match readFile env.interrupts file 8191 with
  | none => []
  | some buf => ((lines nl (cstr buf)).filterMap nicName).take 8

/-- `apply_coalescing`. -/
def applyCoalescing (enable : Bool) (p : IrqProc) : IrqProc :=
  { p with sys := { p.sys with
      ethtool := p.sys.ethtool ++
        p.glob.nicNames.map fun name => (name, if enable then 0 else 50) } }

/-! ### Binding -/

/-- What `smp_affinity_list` reads. -/
def affinityFile (s : IrqSystem) (irq : ℤ) : Option Bytes := some (s.affinity irq ++ [nl])

/-- `save_original_mask`. -/
def saveOriginalMask (env : IrqEnv) (irq : ℤ) (s : IrqSystem) : IrqSystem :=
  match readFileLine (env.affinityRd irq) (affinityFile s irq) 64 with
  | none => s
  | some mask =>
    if env.state then { s with origMask := Function.update s.origMask irq (some mask) } else s

/-- The text `apply_affinity` writes. -/
def coreText (core : ℤ) : Bytes := printfSn 16 (lit "%d") [.int core]

/-- `apply_affinity`. -/
def applyAffinity (env : IrqEnv) (core : ℤ) (s : IrqSystem) (irq : ℤ) : IrqSystem :=
  let s := saveOriginalMask env irq s
  if env.affinityWr irq ∧ coreText core ≠ [] then
    { s with affinity := Function.update s.affinity irq (coreText core) }
  else s

/-- `restore_affinity`. -/
def restoreAffinity (env : IrqEnv) (s : IrqSystem) (irq : ℤ) : IrqSystem :=
  match readFileLine env.state (s.origMask irq) 64 with
  | none => s
  | some mask =>
    let s := if env.affinityWr irq ∧ mask ≠ [] then
      { s with affinity := Function.update s.affinity irq mask } else s
    { s with origMask := Function.update s.origMask irq none }

/-- `apply_list`. -/
def applyList (env : IrqEnv) (l : IrqList) (core : ℤ) (p : IrqProc) : IrqProc :=
  { p with sys := l.val.foldl (applyAffinity env core) p.sys }

/-- `irq_init`. -/
def irqInit (env : IrqEnv) (p : IrqProc) : ℤ × IrqProc :=
  let (rc, p) := irqLoadConfig env p
  if rc ≠ errSuccess then (rc, p)
  else if p.glob.cfg.irqEnable = 0 ∨ p.glob.cfg.irqPinning = 3 then (errSuccess, p)
  else
    let core := resolveTargetCore env p.glob.cfg p.sys.targetCore
    let p := { p with glob := { p.glob with cfg := { p.glob.cfg with targetCore := core } } }
    if core < 0 then (errSuccess, p)
    else (errSuccess,
      { p with
        sys := disableIrqbalance env p.sys
        glob := { IrqGlobals.zero with cfg := p.glob.cfg, nicNames := p.glob.nicNames } })

/-- The interrupts of the GPU that `verify_msi` passes. -/
def verifiedGpuIrqs (env : IrqEnv) (file : Option Bytes) : IrqList :=
  let found := discoverEither env file (lit "amdgpu") (lit "nouveau")
  ⟨found.val.filter (verifyMsi env file), (List.length_filter_le _ _).trans found.property⟩

/-- `irq_bind_gpu`. -/
def irqBindGpu (env : IrqEnv) (p : IrqProc) : ℤ × IrqProc :=
  if p.glob.cfg.irqEnable = 0 ∨ p.glob.cfg.irqPinning = 3 then (errSuccess, p)
  else if p.glob.cfg.irqGpu = 0 then (errSuccess, p)
  else
    let l := verifiedGpuIrqs env p.sys.interrupts
    (errSuccess, applyList env l p.glob.cfg.targetCore
      { p with glob := { p.glob with gpuIrqs := l } })

/-- The first block of `irq_bind_peripherals`. -/
def bindNvme (env : IrqEnv) (p : IrqProc) : IrqProc :=
  if p.glob.cfg.irqNvme = 0 then p
  else
    let l := discoverIrqs env p.sys.interrupts (lit "nvme")
    applyList env l p.glob.cfg.targetCore { p with glob := { p.glob with nvmeIrqs := l } }

/-- The second block. -/
def bindUsb (env : IrqEnv) (p : IrqProc) : IrqProc :=
  if p.glob.cfg.irqUsb = 0 then p
  else
    let l := discoverIrqs env p.sys.interrupts (lit "xhci_hcd")
    applyList env l p.glob.cfg.targetCore { p with glob := { p.glob with usbIrqs := l } }

/-- The third block, which also takes care of coalescing. -/
def bindNic (env : IrqEnv) (p : IrqProc) : IrqProc :=
  if p.glob.cfg.irqNic = 0 then p
  else
    let l := discoverEither env p.sys.interrupts (lit "eth") (lit "enp")
    let p := applyList env l p.glob.cfg.targetCore { p with glob := { p.glob with nicIrqs := l } }
    if l.val ≠ [] ∧ p.glob.cfg.irqCoalesce ≠ 0 then
      applyCoalescing true
        { p with glob := { p.glob with nicNames := discoverNicNames env p.sys.interrupts } }
    else p

/-- The fourth block. -/
def bindAudio (env : IrqEnv) (p : IrqProc) : IrqProc :=
  if p.glob.cfg.irqAudio = 0 then p
  else
    let l := discoverEither env p.sys.interrupts (lit "snd_hda") (lit "snd-hda")
    applyList env l p.glob.cfg.targetCore { p with glob := { p.glob with audioIrqs := l } }

/-- `irq_bind_peripherals`. -/
def irqBindPeripherals (env : IrqEnv) (p : IrqProc) : ℤ × IrqProc :=
  if p.glob.cfg.irqEnable = 0 ∨ p.glob.cfg.irqPinning = 3 then (errSuccess, p)
  else (errSuccess, bindAudio env (bindNic env (bindUsb env (bindNvme env p))))

/-- A line of the udev rules. -/
def udevRule (driver : Bytes) : Bytes :=
  lit "ACTION==\"add\", SUBSYSTEM==\"pci\", DRIVER==\"" ++ driver ++
    lit "\", RUN+=\"/usr/bin/x3d-toggle irq-bind\"\n"

/-- `irq_gen_udev`. -/
def irqGenUdev (env : IrqEnv) (p : IrqProc) : ℤ × IrqProc :=
  if p.glob.cfg.irqEnable = 0 ∨ p.glob.cfg.irqPinning = 3 then (errSuccess, p)
  else if !env.udev then (errIrqUdev, p)
  else
    let header := lit "# X3D Toggle IRQ Affinity Rules (auto-generated)\n" ++
      lit "# Re-asserts IRQ affinity on device add/reset events\n\n"
    let rules := header ++
      (if p.glob.cfg.irqGpu ≠ 0 then udevRule (lit "amdgpu|nouveau") else []) ++
      (if p.glob.cfg.irqNvme ≠ 0 then udevRule (lit "nvme") else []) ++
      (if p.glob.cfg.irqUsb ≠ 0 then udevRule (lit "xhci_hcd") else [])
    (errSuccess, { p with sys := { p.sys with udevRules := some rules } })

/-- `irq_teardown`. -/
def irqTeardown (env : IrqEnv) (p : IrqProc) : ℤ × IrqProc :=
  let lists : List IrqList :=
    [p.glob.gpuIrqs, p.glob.nvmeIrqs, p.glob.usbIrqs, p.glob.nicIrqs, p.glob.audioIrqs]
  let p : IrqProc := { p with
    sys := lists.foldl (fun s l => l.val.foldl (restoreAffinity env) s) p.sys }
  let p := if p.glob.cfg.irqCoalesce ≠ 0 ∧ p.glob.nicNames ≠ [] then applyCoalescing false p else p
  let p := { p with sys := { p.sys with udevRules := none } }
  (errSuccess, { p with sys := restoreIrqbalance env p.sys })

/-- `cli_irq_bind`. -/
def cliIrqBind (env : IrqEnv) (p : IrqProc) : ℤ × IrqProc :=
  let (rc, p) := irqInit env p
  if rc ≠ errSuccess then (rc, p)
  else
    let (rc, p) := irqBindGpu env p
    if rc ≠ errSuccess then (rc, p)
    else
      let (rc, p) := irqBindPeripherals env p
      if rc ≠ errSuccess then (rc, p) else irqGenUdev env p

/-- `cli_irq_reset`. -/
def cliIrqReset (env : IrqEnv) (p : IrqProc) : ℤ × IrqProc := irqTeardown env p

/-- A command in a process of its own. -/
def inProcess (cmd : IrqProc → ℤ × IrqProc) (s : IrqSystem) : IrqSystem :=
  (cmd ⟨.zero, s⟩).2.sys

/-- `x3d-toggle irq-bind`. -/
def irqBind (env : IrqEnv) : IrqSystem → IrqSystem := inProcess (cliIrqBind env)

/-- `x3d-toggle irq-reset`. -/
def irqReset (env : IrqEnv) : IrqSystem → IrqSystem := inProcess (cliIrqReset env)

end X3D
