import X3DToggle.Xui

/-!
# The structure `DaemonConfig`

The fields of `DaemonConfig` are three enumerations, one for each C type, and a configuration
gives each field a value. A character array is a `CArray`: a string together with the proof
that it fits the array with its terminator, so a configuration whose strings overrun their
fields cannot be built.

Every assignment the code makes to a field is a `Store`, and every assignment it makes from a
text is a `Setter`, which turns the text into a `Store`. A string `Setter` names the size it
passes to `printf_sn` and carries the proof that the array is not smaller. `get_store` says
what a store does to all fields at once, and is all the later proofs know about stores.
-/

namespace X3D

/-- The `int` fields. -/
inductive IntField where
  | pollingInterval | devEnable | affinityLevel | detectionLevel | ebpfEnable | debugEnable
  | serverEnabled | serverPort
  | schedBore | schedBitShift | schedBurstFork | schedSliceUs | vmMaxMap | splitLockDetect
  | nmiWatchdog
  | netFastopen | netRpFilter | netSourceRoute
  | irqEnable | irqGpu | irqNvme | irqUsb | irqNic | irqAudio | irqCoalesce | irqWatch
  | advancedConfigEnable | forceUnsupportedDisplay
  | journalKeep | journalMaxMb
  deriving DecidableEq

/-- The `double` fields. -/
inductive DblField where
  | refreshInterval | loadThreshold
  deriving DecidableEq

/-- The `char[]` fields. -/
inductive StrField where
  | affinityMask | affinityFreqMask | daemonState | fallbackProfile | serverAddress | serverSsh
  | thpMode | netQdisc
  | lintClangDiagnostic | lintClangBugprone | lintClangModernize | lintClangReadability
  | lintClangPerformance | lintClangPortability | lintClangAnalyzer
  | lintCppcheckAll | lintCppcheckWarning | lintCppcheckStyle | lintCppcheckPerformance
  | lintCppcheckPortability | lintCppcheckInformation | lintCppcheckUnused
  | lintValgrindMode | lintValgrindKinds | lintValgrindOrigins
  deriving DecidableEq

/-- `sizeof` of a `char[]` field. -/
def StrField.size : StrField → ℕ
  | affinityMask | affinityFreqMask | fallbackProfile => 64
  | serverAddress => 128
  | daemonState | serverSsh | netQdisc | lintValgrindKinds => 32
  | _ => 16

theorem StrField.size_pos (f : StrField) : 0 < f.size := by
  cases f <;> decide

/-- A copy may fill the array. -/
theorem StrField.size_bounds (f : StrField) : 0 < f.size ∧ f.size ≤ f.size :=
  ⟨f.size_pos, le_rfl⟩

/-- A copy may stop one byte short of the array. -/
theorem StrField.pred_size_bounds (f : StrField) : 0 < f.size - 1 ∧ f.size - 1 ≤ f.size := by
  cases f <;> decide

/-- A field. -/
inductive Field where
  | int (f : IntField)
  | dbl (f : DblField)
  | str (f : StrField)
  deriving DecidableEq

/-- A field's value. -/
inductive Value where
  | int (z : ℤ)
  | dbl (d : Double)
  | str (s : Bytes)
  deriving DecidableEq

/-- A string in a `char[n]`, with room for its terminator. -/
abbrev CArray (n : ℕ) := { s : Bytes // s.length < n }

/-- `printf_sn(a, n, "%s", s)` on an array of `size` bytes. -/
def CArray.copy {size : ℕ} (n : ℕ) (h : 0 < n ∧ n ≤ size) (s : Bytes) : CArray size :=
  ⟨printfSn n (lit "%s") [.str s], by
    rw [printfSn_s]
    exact (List.length_take_le _ _).trans_lt (by omega)⟩

@[simp] theorem CArray.copy_val {size n : ℕ} (h : 0 < n ∧ n ≤ size) (s : Bytes) :
    (CArray.copy n h s).val = s.take (n - 1) :=
  printfSn_s n s

/-- The configuration the daemon keeps in memory. -/
structure DaemonConfig where
  /-- The `int` fields. -/
  int : IntField → ℤ
  /-- The `double` fields. -/
  dbl : DblField → Double
  /-- The `char[]` fields. -/
  str : (f : StrField) → CArray f.size
  /-- The probed capabilities. -/
  capabilities : ℕ

namespace DaemonConfig

/-- A configuration in zeroed memory. -/
def zero : DaemonConfig where
  int _ := 0
  dbl _ := .fin 0
  str f := ⟨[], f.size_pos⟩
  capabilities := 0

/-- The value of a field. -/
def get (cfg : DaemonConfig) : Field → Value
  | .int f => .int (cfg.int f)
  | .dbl f => .dbl (cfg.dbl f)
  | .str f => .str (cfg.str f).val

end DaemonConfig

/-- An assignment to a field. -/
inductive Store where
  /-- `cfg->f = z`. -/
  | int (f : IntField) (z : ℤ)
  /-- `cfg->f = d`. -/
  | dbl (f : DblField) (d : Double)
  /-- `printf_sn(cfg->f, n, "%s", s)`. -/
  | str (f : StrField) (n : ℕ) (s : Bytes) (h : 0 < n ∧ n ≤ f.size)

namespace Store

/-- The field assigned to. -/
def field : Store → Field
  | int f _ => .int f
  | dbl f _ => .dbl f
  | str f _ _ _ => .str f

/-- The value the field gets. -/
def value : Store → Value
  | int _ z => .int z
  | dbl _ d => .dbl d
  | str _ n s _ => .str (s.take (n - 1))

end Store

/-- Run an assignment. -/
def DaemonConfig.store (cfg : DaemonConfig) : Store → DaemonConfig
  | .int f z => { cfg with int := Function.update cfg.int f z }
  | .dbl f d => { cfg with dbl := Function.update cfg.dbl f d }
  | .str f n s h => { cfg with str := Function.update cfg.str f (CArray.copy n h s) }

/-- **What a store does.** Its field gets its value and every other field keeps its own. -/
theorem DaemonConfig.get_store (cfg : DaemonConfig) (st : Store) (f : Field) :
    (cfg.store st).get f = if st.field = f then st.value else cfg.get f := by
  -- a store of one type does not touch fields of another
  cases st with
  | int g z =>
    cases f with
    | int f =>
      by_cases h : g = f
      · subst h
        simp [store, get, Store.field, Store.value]
      · simp [store, get, Store.field, h, Function.update_of_ne (Ne.symm h)]
    | dbl f => simp [store, get, Store.field]
    | str f => simp [store, get, Store.field]
  | dbl g d =>
    cases f with
    | int f => simp [store, get, Store.field]
    | dbl f =>
      by_cases h : g = f
      · subst h
        simp [store, get, Store.field, Store.value]
      · simp [store, get, Store.field, h, Function.update_of_ne (Ne.symm h)]
    | str f => simp [store, get, Store.field]
  | str g n s hn =>
    cases f with
    | int f => simp [store, get, Store.field]
    | dbl f => simp [store, get, Store.field]
    | str f =>
      by_cases h : g = f
      · subst h
        simp [store, get, Store.field, Store.value]
      · simp [store, get, Store.field, h, Function.update_of_ne (Ne.symm h)]

@[simp] theorem DaemonConfig.store_capabilities (cfg : DaemonConfig) (st : Store) :
    (cfg.store st).capabilities = cfg.capabilities := by
  cases st <;> rfl

/-- A configuration is its capabilities and the values of its fields. -/
theorem DaemonConfig.eq_of_get {cfg cfg' : DaemonConfig}
    (hcaps : cfg.capabilities = cfg'.capabilities) (hget : ∀ f, cfg.get f = cfg'.get f) :
    cfg = cfg' := by
  obtain ⟨int, dbl, str, caps⟩ := cfg
  obtain ⟨int', dbl', str', caps'⟩ := cfg'
  obtain rfl : caps = caps' := hcaps
  obtain rfl : int = int' := funext fun f => Value.int.inj (hget (.int f))
  obtain rfl : dbl = dbl' := funext fun f => Value.dbl.inj (hget (.dbl f))
  obtain rfl : str = str' := funext fun f => Subtype.ext (Value.str.inj (hget (.str f)))
  rfl

/-- A store changes nothing exactly if the field holds the value already. -/
theorem DaemonConfig.store_eq_self_iff {cfg : DaemonConfig} {st : Store} :
    cfg.store st = cfg ↔ cfg.get st.field = st.value := by
  constructor
  · intro h
    have hget := cfg.get_store st st.field
    rw [if_pos rfl] at hget
    rw [← hget, h]
  · intro h
    refine DaemonConfig.eq_of_get (cfg.store_capabilities st) fun f => ?_
    rw [DaemonConfig.get_store]
    split
    next hf => rw [← hf, h]
    next => rfl

/-- How an entry of a key table assigns a text to its field. -/
inductive Setter where
  /-- `cfg->f = atoi(val)`. -/
  | atoi (f : IntField)
  /-- `cfg->f = atof(val)`. -/
  | atof (f : DblField)
  /-- `printf_sn(cfg->f, n, "%s", val)`. -/
  | copy (f : StrField) (n : ℕ) (h : 0 < n ∧ n ≤ f.size)
  /-- `cfg->f = (strcmp(val, "true") == 0 || atoi(val) != 0)`. -/
  | flag (f : IntField)

namespace Setter

/-- The field assigned to. -/
def field : Setter → Field
  | atoi f => .int f
  | atof f => .dbl f
  | copy f _ _ => .str f
  | flag f => .int f

/-- The assignment made for a text. -/
def store : Setter → Bytes → Store
  | atoi f, val => .int f (X3D.atoi val)
  | atof f, val => .dbl f (X3D.atof val)
  | copy f n h, val => .str f n val h
  | flag f, val => .int f (if val = lit "true" ∨ X3D.atoi val ≠ 0 then 1 else 0)

/-- The value a text is parsed to. -/
def parse (st : Setter) (val : Bytes) : Value := (st.store val).value

@[simp] theorem field_store (st : Setter) (val : Bytes) : (st.store val).field = st.field := by
  cases st <;> rfl

end Setter

end X3D
