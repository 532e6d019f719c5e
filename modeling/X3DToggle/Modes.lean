import X3DToggle.Config.Struct

/-!
# The mode node

The kernel driver exposes one sysfs node that holds the mode of the two CCDs. Its path depends
on the kernel, so `find_path` tries five and caches the first readable one for the life of the
process. `mode` reads the node and `cli_set_mode` writes it.

`Node` is the node as the driver keeps it: the text it reads back and, as a record of what the
programs did, the texts written to it in order. Which paths are readable and whether the calls
on the node succeed are the outcomes `ModeIo`. A write the driver accepts becomes the content;
a rejected one does not.
-/

namespace X3D

/-- The mode node. -/
structure Node where
  /-- The text a read delivers. -/
  content : Bytes
  /-- Every text passed to `write` on the node, in order. -/
  writes : List Bytes
  deriving DecidableEq

/-- The outcomes of system calls on the mode node. -/
structure ModeIo where
  /-- `access(path, R_OK) == 0`. -/
  access : Bytes → Bool
  /-- `open(path, O_RDONLY)` succeeds. -/
  openRd : Bool
  /-- `read` delivers the content. -/
  readOk : Bool
  /-- `open(path, O_WRONLY)` succeeds. -/
  openWr : Bool
  /-- The driver accepts what is written. -/
  accepts : Bool

/-- The paths `find_path` tries. -/
def modeTargets : List Bytes :=
  [lit "/sys/class/amd_x3d/vcache_mode",
   lit "/sys/bus/platform/devices/AMDI0101:00/amd_x3d_mode",
   lit "/sys/devices/platform/AMDI0101:00/amd_x3d_mode",
   lit "/sys/bus/pci/drivers/amd_x3d_vcache/vcache_mode",
   lit "/sys/bus/platform/drivers/amd_x3d_vcache/AMDI0101:00/amd_x3d_mode"]

/-- `find_path`: the content of `x3d_path_cache` afterwards. It is the path, or empty if there
is none. -/
def findPath (access : Bytes → Bool) (cache : Bytes) : Bytes :=
  if cache ≠ [] then cache
  else match modeTargets.find? access with
    | some path => printfSn 256 (lit "%s") [.str path]
    | none => cache

/-- What `mode` makes of the node's content in a buffer of `size` bytes: at most `size - 1`
bytes, cut at the first NUL and at the first line break. -/
def modeText (size : ℕ) (content : Bytes) : Bytes :=
  (cstr (content.take (size - 1))).takeWhile (· ≠ nl)

theorem modeText_length_lt {size : ℕ} (h : 0 < size) (content : Bytes) :
    (modeText size content).length < size := by
  have h1 : (modeText size content).length ≤ (cstr (content.take (size - 1))).length :=
    (List.takeWhile_sublist _).length_le
  have h2 : (cstr (content.take (size - 1))).length ≤ (content.take (size - 1)).length :=
    (List.takeWhile_sublist _).length_le
  have h3 := List.length_take_le (size - 1) content
  omega

/-- A `char [32]` has room for a terminator. -/
theorem modeSize_bounds : 0 < 32 ∧ 32 ≤ 32 := by decide

/-- `mode(current, sizeof(current))` on a `char current[32]`: the result and the buffer. The
path is the one `find_path` left. -/
def mode (io : ModeIo) (path : Bytes) (node : Node) (current : CArray 32) : ℤ × CArray 32 :=
  if path = [] then (errHw, CArray.copy 32 modeSize_bounds (lit "unknown"))
  else if !io.openRd then (errHw, current)
  else if !io.readOk || node.content.take 31 = [] then (errIo, current)
  else (errSuccess, ⟨modeText 32 node.content, modeText_length_lt (by decide) _⟩)

/-- `cli_set_mode(target)`: the result and the node. -/
def cliSetMode (io : ModeIo) (path target : Bytes) (node : Node) : ℤ × Node :=
  if path = [] then (errHw, node)
  else if !io.openWr then (errHw, node)
  else if io.accepts ∧ target ≠ [] then
    (errSuccess, { content := target, writes := node.writes ++ [target] })
  else (errIo, { node with writes := node.writes ++ [target] })

/-! ### Reading back -/

/-- The node can be read: there is a path, and `open` and `read` succeed. -/
structure ModeIo.Readable (io : ModeIo) (cache : Bytes) (node : Node) : Prop where
  path : findPath io.access cache ≠ []
  openRd : io.openRd = true
  readOk : io.readOk = true
  content : node.content ≠ []

/-- The calls that read the node succeed, whatever the process has cached. -/
structure ModeIo.ReadsOk (io : ModeIo) : Prop where
  path : ∃ path ∈ modeTargets, io.access path = true
  openRd : io.openRd = true
  readOk : io.readOk = true

/-- If the calls succeed, a node with any content can be read. -/
theorem ModeIo.ReadsOk.readable {io : ModeIo} (h : io.ReadsOk) (cache : Bytes) {node : Node}
    (hcontent : node.content ≠ []) : io.Readable cache node := by
  refine ⟨?_, h.openRd, h.readOk, hcontent⟩
  unfold findPath
  split
  · assumption
  · obtain ⟨path, hmem, haccess⟩ := h.path
    split
    · next found hfind =>
      have hne : ∀ p ∈ modeTargets, p.take 255 ≠ [] := by decide
      rw [printfSn_s]
      exact hne found (List.mem_of_find?_eq_some hfind)
    · next hnone => exact absurd haccess (by simpa using List.find?_eq_none.mp hnone path hmem)

/-- The node accepts what is written. -/
structure ModeIo.Writable (io : ModeIo) : Prop where
  openWr : io.openWr = true
  accepts : io.accepts = true

/-- A mode name as the programs use them: short, on one line, and not empty. -/
structure IsModeName (s : Bytes) : Prop where
  ne_nil : s ≠ []
  short : s.length < 32
  zero_notMem : (0 : UInt8) ∉ s
  nl_notMem : nl ∉ s

/-- A mode name reads back as it was written. -/
theorem modeText_of_isModeName {s : Bytes} (h : IsModeName s) : modeText 32 s = s := by
  unfold modeText
  rw [List.take_of_length_le (by have := h.short; omega), cstr_of_notMem h.zero_notMem,
    List.takeWhile_eq_self_iff]
  intro c hc
  have : c ≠ nl := fun hcnl => h.nl_notMem (hcnl ▸ hc)
  simpa using this

/-- A readable node is read. -/
theorem mode_of_readable {io : ModeIo} {cache : Bytes} {node : Node} (h : io.Readable cache node)
    (current : CArray 32) :
    mode io (findPath io.access cache) node current =
      (errSuccess, ⟨modeText 32 node.content, modeText_length_lt (by decide) _⟩) := by
  have hcontent : node.content.take 31 ≠ [] := by
    rw [Ne, List.take_eq_nil_iff]
    simpa using h.content
  unfold mode
  rw [if_neg h.path, h.openRd, h.readOk, if_neg (by simp), if_neg (by simpa using hcontent)]

/-- An accepted write is what the node holds from then on. -/
theorem cliSetMode_of_writable {io : ModeIo} {path target : Bytes} (h : io.Writable)
    (hpath : path ≠ []) (htarget : target ≠ []) (node : Node) :
    cliSetMode io path target node =
      (errSuccess, { content := target, writes := node.writes ++ [target] }) := by
  unfold cliSetMode
  rw [if_neg hpath, h.openWr, if_neg (by simp), if_pos ⟨h.accepts, htarget⟩]

/-- A cached path stays. -/
theorem findPath_idem (access access' : Bytes → Bool) (cache : Bytes)
    (h : findPath access cache ≠ []) : findPath access' (findPath access cache) =
      findPath access cache := by
  conv_lhs => unfold findPath
  exact if_pos h

end X3D
