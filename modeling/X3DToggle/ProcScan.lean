import X3DToggle.Formatter
import X3DToggle.Bpf

/-!
# Walking over `/proc`

`detect_game` and `dialog_open` read `/proc` with `getdents64` and walk over the records in the
buffer. The kernel decides how many of them a call delivers; a record has its length in its header,
a name that ends at a zero, and some bytes of padding. `walkProc` is this loop on the bytes.

`walkProc_records` says that the bytes play no part: whatever the calls deliver at a time and
whatever stands in the other fields, the loop tries the names that begin with a digit, in order,
and stops at the first that is a hit. With it the two searches are searches in a list of processes.

The status dialog looks for a command line with `x3d-toggle monitor` in it, to open no second
window. A window it has opened is found (`dialog_once`). But `x3d-toggle monitor` is also how a user
asks for the dialog, and then the command finds itself (`monitor_finds_itself`).
-/

namespace X3D

/-! ### The code -/

/-- `d->d_reclen`, at `buf + bpos`. -/
def reclenAt (buf : Bytes) (bpos : ℕ) : ℕ :=
  (buf.getD (bpos + 16) 0).toNat + 256 * (buf.getD (bpos + 17) 0).toNat

/-- `d->d_name`. -/
def nameAt (buf : Bytes) (bpos : ℕ) : Bytes := cstr (buf.drop (bpos + 19))

/-- `d->d_name[0] >= '0' && d->d_name[0] <= '9'`. -/
def isPidName (name : Bytes) : Bool := name.head?.any isDigit

/-- The loop over the records of a buffer. Every record is at least a byte long. -/
def walkRecords (hit : Bytes → Bool) (buf : Bytes) : ℕ → ℕ → Bool
  | 0, _ => false
  | fuel + 1, bpos =>
    if bpos < buf.length then
      if isPidName (nameAt buf bpos) && hit (nameAt buf bpos) then true
      else walkRecords hit buf fuel (bpos + reclenAt buf bpos)
    else false

/-- The loop over the buffers that `getdents64` fills. -/
def walkProc (hit : Bytes → Bool) (bufs : List Bytes) : Bool :=
  bufs.any fun buf => walkRecords hit buf buf.length 0

/-- `detect_game`, from what `getdents64` delivers and what is in the directories. -/
def detectGameIn (gl : GameList) (procOf : Bytes → Proc) (bufs : List Bytes) : Bool :=
  walkProc (fun name => scanPid gl (procOf name)) bufs

/-- What `dialog_open` looks for. -/
def monitorWords : Bytes := lit "x3d-toggle monitor"

/-- The command line as `dialog_open` sees it: a space for each zero but the last. -/
def shownCmdline (cmdline : Bytes) : Bytes :=
  cstr (cmdline.dropLast.map (fun c => if c = 0 then chr ' ' else c) ++ cmdline.getLast?.toList)

/-- The body of the loop of `dialog_open`. -/
def isMonitor (files : Bytes → Option Bytes) (name : Bytes) : Bool :=
  match readFile true (files (printfSn 256 (lit "/proc/%s/cmdline") [.str name])) 255 with
  | none => false
  | some cmdline => contains (shownCmdline cmdline) monitorWords

/-- `dialog_open`. -/
def dialogOpen (files : Bytes → Option Bytes) (bufs : List Bytes) : Bool :=
  walkProc (isMonitor files) bufs

/-- The terminals of `cli_status_dialog`, each with its arguments. -/
def terminals : List (Bytes × List Bytes) :=
  let monitor := [lit "x3d-toggle", lit "monitor", lit "--loop"]
  let titled (term : String) :=
    (lit term, [lit term, lit "-T", lit "X3D Status", lit "-e"] ++ monitor)
  [(lit "konsole", [lit "konsole", lit "--qwindowgeometry", lit "500x400", lit "--title",
      lit "X3D Status", lit "-e"] ++ monitor),
    (lit "gnome-terminal", [lit "gnome-terminal", lit "--title=X3D Status", lit "--geometry=50x15",
      lit "--"] ++ monitor),
    titled "xfce4-terminal", titled "alacritty", titled "kitty", titled "xterm"]

/-- What the dialog comes to. -/
inductive Dialog where
  -- `cli_status_monitor`
  | loop
  -- `STATE_ACTIVE`
  | already
  -- `cli_diag_status`
  | snapshot
  -- the program in the child, and its arguments
  | launch (path : Bytes) (args : List Bytes)
  deriving DecidableEq

/-- The terminal is in one of the directories. -/
def terminalFound (opens : Bytes → Bool) (term : Bytes) : Bool :=
  [lit "/usr/bin/", lit "/bin/", lit "/usr/local/bin/"].any fun dir =>
    opens (printfSn 128 (lit "%s%s") [.str dir, .str term])

/-- `cli_status_dialog`. Where the terminal was found, it is started from `/usr/bin`. -/
def cliStatusDialog (opens : Bytes → Bool) (files : Bytes → Option Bytes) (bufs : List Bytes)
    (argv : List Bytes) : Dialog :=
  if lit "--loop" ∈ argv then .loop
  else if dialogOpen files bufs then .already
  else match terminals.find? fun t => terminalFound opens t.1 with
    | none => .snapshot
    | some t => .launch (printfSn 128 (lit "/usr/bin/%s") [.str t.1]) t.2

/-! ### Records -/

/-- A record of `getdents64`. -/
structure Dirent where
  -- `d_ino`, `d_off`
  head : Bytes
  type : UInt8
  name : Bytes
  padding : Bytes
  length_head : head.length = 16
  zero_notMem : (0 : UInt8) ∉ name
  short : 20 + name.length + padding.length < 2 ^ 16

namespace Dirent

/-- Its length. -/
def reclen (e : Dirent) : ℕ := 20 + e.name.length + e.padding.length

/-- Its bytes. -/
def bytes (e : Dirent) : Bytes :=
  e.head ++ (UInt8.ofNat e.reclen :: UInt8.ofNat (e.reclen / 256) :: e.type ::
    (e.name ++ 0 :: e.padding))

theorem length_bytes (e : Dirent) : e.bytes.length = e.reclen := by
  simp only [bytes, reclen, List.length_append, List.length_cons, e.length_head]
  omega

variable (pre rest : Bytes) (e : Dirent)

theorem reclenAt_bytes : reclenAt (pre ++ (e.bytes ++ rest)) pre.length = e.reclen := by
  have hshort : e.reclen < 2 ^ 16 := e.short
  have hat (k : ℕ) (c : UInt8) (hk : (e.bytes ++ rest).getD (16 + k) 0 = c) :
      (pre ++ (e.bytes ++ rest)).getD (pre.length + (16 + k)) 0 = c := by
    rw [← hk, List.getD_append_right _ _ _ _ (by omega), Nat.add_sub_cancel_left]
  have hlow : (pre ++ (e.bytes ++ rest)).getD (pre.length + 16) 0 = UInt8.ofNat e.reclen := by
    refine hat 0 _ ?_
    rw [bytes, List.append_assoc, List.getD_append_right _ _ _ _ (by rw [e.length_head]),
      e.length_head]
    rfl
  have hhigh : (pre ++ (e.bytes ++ rest)).getD (pre.length + 17) 0 =
      UInt8.ofNat (e.reclen / 256) := by
    refine hat 1 _ ?_
    rw [bytes, List.append_assoc,
      List.getD_append_right _ _ _ _ (by rw [e.length_head]; omega), e.length_head]
    rfl
  rw [reclenAt, hlow, hhigh, UInt8.toNat_ofNat', UInt8.toNat_ofNat']
  omega

theorem nameAt_bytes : nameAt (pre ++ (e.bytes ++ rest)) pre.length = e.name := by
  have hdrop : (pre ++ (e.bytes ++ rest)).drop (pre.length + 19) =
      e.name ++ 0 :: (e.padding ++ rest) := by
    rw [← List.drop_drop, List.drop_left, bytes]
    have hhead : e.head ++ UInt8.ofNat e.reclen :: UInt8.ofNat (e.reclen / 256) :: e.type ::
        (e.name ++ 0 :: e.padding) =
        (e.head ++ [UInt8.ofNat e.reclen, UInt8.ofNat (e.reclen / 256), e.type]) ++
          (e.name ++ 0 :: e.padding) := by simp only [List.append_assoc, List.cons_append,
            List.nil_append]
    have hlen : (e.head ++ [UInt8.ofNat e.reclen, UInt8.ofNat (e.reclen / 256),
        e.type]).length = 19 := by
      rw [List.length_append, e.length_head]
      rfl
    rw [hhead, List.append_assoc, List.drop_left' hlen, List.append_assoc, List.cons_append]
  rw [nameAt, hdrop, cstr_append e.zero_notMem]
  exact List.append_nil _

end Dirent

/-! ### The loop -/

section

variable {hit : Bytes → Bool}

/-- **The loop over a buffer** tries the names that begin with a digit. -/
theorem walkRecords_eq (entries : List Dirent) {pre : Bytes} {fuel : ℕ}
    (hfuel : (entries.flatMap Dirent.bytes).length ≤ fuel) :
    walkRecords hit (pre ++ entries.flatMap Dirent.bytes) fuel pre.length =
      entries.any fun e => isPidName e.name && hit e.name := by
  induction entries generalizing pre fuel with
  | nil =>
    rw [List.flatMap_nil, List.append_nil]
    cases fuel with
    | zero => rfl
    | succ fuel => exact if_neg (lt_irrefl _)
  | cons e entries ih =>
    rw [List.flatMap_cons, List.length_append, e.length_bytes] at hfuel
    have hpos : 0 < e.reclen := by
      unfold Dirent.reclen
      omega
    obtain ⟨fuel, rfl⟩ := Nat.exists_eq_succ_of_ne_zero (show fuel ≠ 0 by omega)
    have hmore : pre.length < (pre ++ (e.bytes ++ entries.flatMap Dirent.bytes)).length := by
      simp only [List.length_append, e.length_bytes]
      omega
    have hnext : pre.length + e.reclen = (pre ++ e.bytes).length := by
      rw [List.length_append, e.length_bytes]
    rw [List.flatMap_cons, walkRecords, if_pos hmore, Dirent.nameAt_bytes, Dirent.reclenAt_bytes,
      hnext, ← List.append_assoc, ih (by omega), List.any_cons]
    cases isPidName e.name && hit e.name <;> rfl

/-- **The bytes play no part.** However the kernel hands out the records, the search is a search in
their list. -/
theorem walkProc_records (hit : Bytes → Bool) (chunks : List (List Dirent)) :
    walkProc hit (chunks.map (List.flatMap Dirent.bytes)) =
      chunks.flatten.any fun e => isPidName e.name && hit e.name := by
  unfold walkProc
  induction chunks with
  | nil => rfl
  | cons chunk chunks ih =>
    have hfirst : walkRecords hit (chunk.flatMap Dirent.bytes)
        (chunk.flatMap Dirent.bytes).length 0 =
        chunk.any fun e => isPidName e.name && hit e.name :=
      @walkRecords_eq hit chunk [] _ le_rfl
    rw [List.map_cons, List.any_cons, ih, hfirst, List.flatten_cons, List.any_append]

end

/-- The processes among the records. -/
def pidNames (chunks : List (List Dirent)) : List Bytes :=
  (chunks.flatten.map Dirent.name).filter isPidName

theorem walkProc_eq_any (hit : Bytes → Bool) (chunks : List (List Dirent)) :
    walkProc hit (chunks.map (List.flatMap Dirent.bytes)) = (pidNames chunks).any hit := by
  rw [walkProc_records, pidNames, List.any_filter, List.any_map]
  rfl

/-- **`detect_game`** searches the list of processes that the records name. -/
theorem detectGameIn_eq (gl : GameList) (procOf : Bytes → Proc) (chunks : List (List Dirent)) :
    detectGameIn gl procOf (chunks.map (List.flatMap Dirent.bytes)) =
      detectGame gl ((pidNames chunks).map procOf) := by
  rw [detectGameIn, walkProc_eq_any, detectGame, List.any_map]
  rfl

/-! ### The dialog -/

/-- `/proc/PID/cmdline` of a process with these arguments. -/
def cmdlineOf (args : List Bytes) : Bytes := args.flatMap (· ++ [0])

section

variable {files : Bytes → Option Bytes} {opens : Bytes → Bool} {chunks : List (List Dirent)}
  {argv args : List Bytes} {name path : Bytes}

/-- A process is found by what `dialog_open` reads of its command line. -/
theorem isMonitor_of_cmdline
    (hfile : files (printfSn 256 (lit "/proc/%s/cmdline") [.str name]) = some (cmdlineOf args))
    (hshown : contains (shownCmdline ((cmdlineOf args).take 255)) monitorWords = true) :
    isMonitor files name = true := by
  have hne : (cmdlineOf args).take 255 ≠ [] := by
    intro hnil
    rw [hnil] at hshown
    exact absurd hshown (by decide)
  rw [isMonitor, hfile, readFile, if_pos ⟨rfl, hne⟩]
  exact hshown

theorem cliStatusDialog_already (hname : name ∈ pidNames chunks)
    (hmonitor : isMonitor files name = true) (hloop : lit "--loop" ∉ argv) :
    cliStatusDialog opens files (chunks.map (List.flatMap Dirent.bytes)) argv = .already := by
  have hopen : dialogOpen files (chunks.map (List.flatMap Dirent.bytes)) = true := by
    rw [dialogOpen, walkProc_eq_any]
    exact List.any_eq_true.mpr ⟨name, hname, hmonitor⟩
  rw [cliStatusDialog, if_neg hloop, if_pos hopen]

/-- A window that was opened runs a terminal of the list. -/
theorem exists_terminal {bufs : List Bytes}
    (h : cliStatusDialog opens files bufs argv = .launch path args) :
    ∃ t ∈ terminals, t.2 = args := by
  unfold cliStatusDialog at h
  split at h
  · exact absurd h (by simp)
  split at h
  · exact absurd h (by simp)
  split at h
  · exact absurd h (by simp)
  · next t ht => exact ⟨t, List.mem_of_find?_eq_some ht, (Dialog.launch.inj h).2⟩

end

/-- **One window.** While the terminal of a status dialog runs, no other dialog opens a window. -/
theorem dialog_once {opens opens' : Bytes → Bool} {files files' : Bytes → Option Bytes}
    {bufs : List Bytes} {argv argv' args : List Bytes} {path name : Bytes}
    {chunks : List (List Dirent)}
    (hlaunch : cliStatusDialog opens files bufs argv = .launch path args)
    (hruns : name ∈ pidNames chunks)
    (hfile : files' (printfSn 256 (lit "/proc/%s/cmdline") [.str name]) = some (cmdlineOf args))
    (hloop : lit "--loop" ∉ argv') :
    cliStatusDialog opens' files' (chunks.map (List.flatMap Dirent.bytes)) argv' = .already := by
  have hall : ∀ t ∈ terminals,
      contains (shownCmdline ((cmdlineOf t.2).take 255)) monitorWords = true := by decide
  obtain ⟨t, ht, rfl⟩ := exists_terminal hlaunch
  exact cliStatusDialog_already hruns (isMonitor_of_cmdline hfile (hall t ht)) hloop

theorem zero_notMem_pid : (0 : UInt8) ∉ lit "42" := by decide

/-- The record of a process. -/
def direntOf42 : Dirent where
  head := List.replicate 16 0
  type := 4
  name := lit "42"
  padding := [0, 0]
  length_head := List.length_replicate
  zero_notMem := zero_notMem_pid
  short := Nat.lt_of_lt_of_le (Nat.lt_add_one 24) (Nat.le_of_ble_eq_true rfl)

theorem mem_pidNames_42 : lit "42" ∈ pidNames [[direntOf42]] := by decide

theorem dialog_once_konsole :
    ∃ args, cliStatusDialog (fun _ => true) (fun _ => none) [] [lit "x3d-toggle", lit "dialog"] =
        .launch (lit "/usr/bin/konsole") args ∧
      cliStatusDialog (fun _ => true) (fun _ => some (cmdlineOf args))
        ([[direntOf42]].map (List.flatMap Dirent.bytes)) [lit "x3d-toggle", lit "owl"] =
          .already := by
  have hlaunch : cliStatusDialog (fun _ => true) (fun _ => none) []
      [lit "x3d-toggle", lit "dialog"] =
        .launch (lit "/usr/bin/konsole") (terminals.headD ([], [])).2 := by decide
  exact ⟨_, hlaunch, dialog_once hlaunch mem_pidNames_42 rfl (by decide)⟩

/-- **The dialog under its other name finds itself.** The process that was called with `monitor` is
itself among the processes, so it opens no window, whether there is one or not. -/
theorem monitor_finds_itself {opens : Bytes → Bool} {files : Bytes → Option Bytes}
    {chunks : List (List Dirent)} {argv rest : List Bytes} {program name : Bytes}
    (hargv : argv = program :: lit "monitor" :: rest) (hprogram : lit "x3d-toggle" <:+ program)
    (hzero : (0 : UInt8) ∉ program) (hshort : program.length ≤ 246)
    (hruns : name ∈ pidNames chunks)
    (hfile : files (printfSn 256 (lit "/proc/%s/cmdline") [.str name]) = some (cmdlineOf argv))
    (hloop : lit "--loop" ∉ argv) :
    cliStatusDialog opens files (chunks.map (List.flatMap Dirent.bytes)) argv = .already := by
  -- the first two arguments are read whole, with the zero behind them
  set words := program ++ 0 :: lit "monitor" with hwords
  have hlen : words.length = program.length + 8 := by
    rw [hwords, List.length_append]
    rfl
  obtain ⟨more, hmore⟩ : ∃ more, (cmdlineOf argv).take 255 = words ++ 0 :: more := by
    have hcmd : cmdlineOf argv = words ++ 0 :: cmdlineOf rest := by
      rw [hargv, hwords]
      simp only [cmdlineOf, List.flatMap_cons, List.append_assoc, List.cons_append,
        List.nil_append]
    obtain ⟨k, hk⟩ := Nat.exists_eq_succ_of_ne_zero (show 255 - words.length ≠ 0 by omega)
    refine ⟨(cmdlineOf rest).take k, ?_⟩
    rw [hcmd, List.take_append, List.take_of_length_le (by omega), hk, List.take_succ_cons]
  -- without its zeros
  have hmap : words.map (fun c => if c = 0 then chr ' ' else c) =
      program ++ chr ' ' :: lit "monitor" := by
    have hprog : program.map (fun c => if c = 0 then chr ' ' else c) = program := by
      conv_rhs => rw [← List.map_id program]
      refine List.map_congr_left fun c hc => if_neg ?_
      rintro rfl
      exact hzero hc
    have hrest : (0 :: lit "monitor").map (fun c : UInt8 => if c = 0 then chr ' ' else c) =
        chr ' ' :: lit "monitor" := by decide
    rw [hwords, List.map_append, hprog, hrest]
  have hclean : (0 : UInt8) ∉ program ++ chr ' ' :: lit "monitor" := by
    have hwordszero : (0 : UInt8) ∉ chr ' ' :: lit "monitor" := by decide
    exact fun h => (List.mem_append.mp h).elim hzero hwordszero
  have hshown : contains (shownCmdline ((cmdlineOf argv).take 255)) monitorWords = true := by
    obtain ⟨pre, rfl⟩ := hprogram
    have hjoin : monitorWords = lit "x3d-toggle" ++ chr ' ' :: lit "monitor" := by decide
    rw [hmore, shownCmdline, List.dropLast_append_of_ne_nil (List.cons_ne_nil _ _),
      List.map_append, hmap, List.append_assoc, cstr_append hclean, contains_iff, hjoin,
      List.append_assoc, List.append_assoc]
    exact ⟨pre, _, (List.append_assoc _ _ _).trans rfl⟩
  exact cliStatusDialog_already hruns (isMonitor_of_cmdline hfile hshown) hloop

theorem monitor_finds_itself_42 :
    cliStatusDialog (fun _ => true)
      (fun _ => some (cmdlineOf [lit "/usr/bin/x3d-toggle", lit "monitor"]))
      ([[direntOf42]].map (List.flatMap Dirent.bytes)) [lit "/usr/bin/x3d-toggle", lit "monitor"] =
        .already :=
  monitor_finds_itself rfl (List.suffix_append (lit "/usr/bin/") _) (by decide) (by decide)
    mem_pidNames_42 rfl (by decide)

end X3D
