import X3DToggle.Config.Tables

/-!
# `daemon.conf`: loading, updating, querying

The file is its content, or `none` where it does not exist. A system call that may fail takes
its outcome from an environment record, so every path through the code is a value of that
record: `LoadEnv` for `config_load`, `UpdateEnv` for `config_update`, where the number of bytes
the final `write` puts into the truncated file is part of the outcome.

`configLoad_get` is the reading rule: a field gets what its setter parses out of the last line
`key=value` within the first 4095 bytes, else its default, else it keeps what it had.
The writing rule is with the laws of the update: the text written is the old lines with those of
the key replaced, or with one line appended, cut at 8191 bytes.
-/

namespace X3D

/-- The outcomes `config_load` depends on. -/
structure LoadEnv where
  /-- `open(DAEMON_CONF_PATH, O_RDONLY)` and `read` succeed. -/
  openRd : Bool
  /-- `access(path, F_OK) == 0`. -/
  access : Bytes → Bool

/-- The capability bits and the paths they are probed at. -/
def capabilityProbes : List (ℕ × Bytes) :=
  [(1 <<< 0, lit "/proc/sys/kernel/sched_bore"),
   (1 <<< 1, lit "/sys/kernel/mm/transparent_hugepage/enabled"),
   (1 <<< 2, lit "/proc/sys/kernel/split_lock_mitigate"),
   (1 <<< 3, lit "/proc/sys/kernel/nmi_watchdog"),
   (1 <<< 4, lit "/proc/sys/net/ipv4/tcp_fastopen"),
   (1 <<< 5, lit "/proc/sys/net/core/default_qdisc")]

/-- `config_probe_capabilities`. -/
def configProbeCapabilities (access : Bytes → Bool) : ℕ :=
  capabilityProbes.foldl (fun caps p => if access p.2 then caps ||| p.1 else caps) 0

/-- One line of the file in `config_load`. -/
def loadLine (cfg : DaemonConfig) (ln : Bytes) : DaemonConfig :=
  if ln = [] ∨ ln.head? = some (chr '#') then cfg
  else match strchr ln (chr '=') with
    | none => cfg
    | some (key, val) =>
      match configLoadTable.lookup key with
      | none => cfg
      | some st => cfg.store (st.store val)

/-- `config_load`. -/
def configLoad (B : Build) (env : LoadEnv) (file : Option Bytes) (cfg : DaemonConfig) :
    DaemonConfig :=
  let cfg := { cfg with capabilities := configProbeCapabilities env.access }
  let cfg := (configDefaults B).foldl DaemonConfig.store cfg
  match readFile env.openRd file 4095 with
  | none => cfg
  | some buf => (lines nl (cstr buf)).foldl loadLine cfg

/-- The outcomes `config_update` depends on. -/
structure UpdateEnv where
  /-- The file can be opened for reading and read. -/
  openRd : Bool
  /-- The file can be opened for writing; it is truncated then. -/
  openWr : Bool
  /-- The bytes `write` puts into the file. -/
  written : ℕ

/-- `strncmp(line, key, strlen(key)) == 0 && line[strlen(key)] == '='`. -/
def isKeyLine (key line : Bytes) : Bool :=
  strncmp line key key.length && (line.drop key.length).head? = some (chr '=')

/-- A series of `strlcat_local(out, s, 8192)`. -/
def appendAll (out : Bytes) (ss : List Bytes) : Bytes :=
  ss.foldl (fun out s => strlcatLocal out s 8192) out

/-- One round of the loop of `config_update`, on `out` and `found`. -/
def updateLine (key val : Bytes) (acc : Bytes × Bool) (line : Bytes) : Bytes × Bool :=
  if isKeyLine key line then (appendAll acc.1 [key, lit "=", val, [nl]], true)
  else (appendAll acc.1 [line, [nl]], acc.2)

/-- The text `config_update` assembles in `out`. -/
def configUpdateText (key val buf : Bytes) : Bytes :=
  let (out, found) := (lines nl (cstr buf)).foldl (updateLine key val) ([], false)
  if found then out else appendAll out [key, lit "=", val, [nl]]

/-- `config_update`: the content of the file afterwards. -/
def configUpdate (env : UpdateEnv) (key val : Bytes) (file : Option Bytes) : Option Bytes :=
  match readFile env.openRd file 8191 with
  | none => file
  | some buf =>
    if env.openWr then some ((configUpdateText key val buf).take env.written) else file

/-- `config_get`. -/
def configGet (cfg : DaemonConfig) (key : Bytes) : Bytes :=
  match configGetTable.lookup key with
  | none => lit "ERR"
  | some (.int f) => printfSn 128 (lit "%d") [.int (cfg.int f)]
  | some (.cast f) => printfSn 128 (lit "%d") [.int ((cfg.dbl f).toInt 32)]
  | some (.str f) => (cfg.str f).val
  | some (.dot2f f) => printfSn 128 (lit "%.2f") [.dbl (cfg.dbl f)]

/-! ### What a load leaves in a field -/

/-- The value a line assigns to a key. -/
def entryOf (key ln : Bytes) : Option Bytes :=
  match strchr ln (chr '=') with
  | none => none
  | some (k, val) => if k = key then some val else none

/-- The value the file holds for a key, as `config_load` sees it. -/
def fileValue (ok : Bool) (file : Option Bytes) (key : Bytes) : Option Bytes :=
  (readFile ok file 4095).bind fun buf => lastSome (entryOf key) (lines nl (cstr buf))

/-- The value `config_load` gives a field before it opens the file. -/
def defaultOf (B : Build) (f : Field) : Option Value :=
  lastSome (fun st : Store => if st.field = f then some st.value else none) (configDefaults B)

theorem entryOf_eq_some {key ln val : Bytes} (hkey : chr '=' ∉ key) :
    entryOf key ln = some val ↔ ln = key ++ chr '=' :: val := by
  unfold entryOf strchr
  constructor
  · intro h
    split at h
    · exact absurd h (by simp)
    · next k v hcut =>
      obtain ⟨-, rfl⟩ := cut_eq_some.mp hcut
      split at h
      · next hk => rw [← hk, Option.some.inj h]
      · exact absurd h (by simp)
  · rintro rfl
    rw [cut_append hkey]
    exact if_pos rfl

theorem lookup_mem {β : Type*} {table : List (Bytes × β)} {key : Bytes} {st : β}
    (h : table.lookup key = some st) : (key, st) ∈ table := by
  obtain ⟨l₁, l₂, rfl, -⟩ := List.lookup_eq_some_iff.mp h
  exact List.mem_append_right l₁ List.mem_cons_self

/-- **One line.** A line assigns to a field what it says for the field's key, or nothing. -/
theorem loadLine_get {key : Bytes} {st : Setter} (h : configLoadTable.lookup key = some st)
    (cfg : DaemonConfig) (ln : Bytes) :
    (loadLine cfg ln).get st.field = (entryOf key ln).elim (cfg.get st.field) st.parse := by
  have hmem := lookup_mem h
  obtain ⟨hne, hhash, heq, -, -⟩ := configLoadTable_keys _ hmem
  unfold loadLine
  by_cases hentry : ∃ val, entryOf key ln = some val
  · -- the line is `key=val`, so it is neither empty nor a comment
    obtain ⟨val, hval⟩ := hentry
    obtain rfl := (entryOf_eq_some heq).mp hval
    have hhead : (key ++ chr '=' :: val).head? = key.head? := List.head?_append_of_ne_nil _ hne
    rw [hval, hhead, if_neg (by simp [hhash]), strchr, cut_append heq]
    simp only [h, DaemonConfig.get_store, Setter.field_store, if_pos]
    rfl
  · have hnone : entryOf key ln = none := Option.not_isSome_iff_eq_none.mp fun hsome =>
      hentry (Option.isSome_iff_exists.mp hsome)
    rw [hnone]
    show DaemonConfig.get _ st.field = cfg.get st.field
    split
    · rfl
    · split
      · rfl
      · next k val hcut =>
        split
        · rfl
        · next st' hlookup =>
          -- another key writes another field
          have hk : k ≠ key := by
            rintro rfl
            rw [entryOf, hcut] at hnone
            simp at hnone
          have hfield : st'.field ≠ st.field := fun hf =>
            hk (configLoadTable_unique _ (lookup_mem hlookup) _ hmem hf)
          rw [DaemonConfig.get_store, Setter.field_store, if_neg hfield]

/-- Before the file is read a field has its default, or what it had. -/
theorem configDefaults_get (B : Build) (cfg : DaemonConfig) (f : Field) :
    ((configDefaults B).foldl DaemonConfig.store cfg).get f =
      (defaultOf B f).getD (cfg.get f) := by
  rw [foldl_get (fun c : DaemonConfig => c.get f)
    (fun st : Store => if st.field = f then some st.value else none) id]
  · rw [defaultOf]
    cases lastSome _ _ <;> rfl
  · intro cfg st
    rw [DaemonConfig.get_store]
    split <;> rfl

/-- **Reading rule.** After a load a field holds what the file says for its key, else its
default, else what it held before. -/
theorem configLoad_get {key : Bytes} {st : Setter} (h : configLoadTable.lookup key = some st)
    (B : Build) (env : LoadEnv) (file : Option Bytes) (cfg : DaemonConfig) :
    (configLoad B env file cfg).get st.field =
      (fileValue env.openRd file key).elim ((defaultOf B st.field).getD (cfg.get st.field))
        st.parse := by
  have hcaps : ({ cfg with capabilities := configProbeCapabilities env.access } :
      DaemonConfig).get st.field = cfg.get st.field := by
    cases st.field <;> rfl
  unfold configLoad fileValue
  split
  · next hread =>
    rw [hread, configDefaults_get, hcaps]
    rfl
  · next buf hread =>
    rw [hread, foldl_get (fun c : DaemonConfig => c.get st.field) _ _ (loadLine_get h),
      configDefaults_get, hcaps]
    rfl

/-- A field no key of the file reaches keeps its default, or what it held. -/
theorem configLoad_get_of_notMem {f : Field} (h : ∀ e ∈ configLoadTable, e.2.field ≠ f)
    (B : Build) (env : LoadEnv) (file : Option Bytes) (cfg : DaemonConfig) :
    (configLoad B env file cfg).get f = (defaultOf B f).getD (cfg.get f) := by
  have hcaps : ({ cfg with capabilities := configProbeCapabilities env.access } :
      DaemonConfig).get f = cfg.get f := by
    cases f <;> rfl
  have hline : ∀ (c : DaemonConfig) (ln : Bytes), (loadLine c ln).get f = c.get f := by
    intro c ln
    unfold loadLine
    split
    · rfl
    · split
      · rfl
      · split
        · rfl
        · next st hlookup =>
          rw [DaemonConfig.get_store, Setter.field_store, if_neg (h _ (lookup_mem hlookup))]
  unfold configLoad
  split
  · rw [configDefaults_get, hcaps]
  · rw [foldl_get (fun c : DaemonConfig => c.get f) (fun _ => none) id hline,
      lastSome_eq_none fun _ _ => rfl, Option.elim_none, configDefaults_get, hcaps]

end X3D
