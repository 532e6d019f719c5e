import X3DToggle.Lib.Text
import X3DToggle.Libc
import X3DToggle.Launcher

/-!
# Where a command is looked for

The static `execvp` of the launcher looks for a command in the directories of `PATH`, one after the
other, and `execve` returns only if it fails. What runs is therefore the first file that can be
run, in the order of the entries of `PATH` (`execvp_eq`).

The entries are those between the colons, each up to the end of the path, with two differences from
a shell: an empty entry stands for the root directory, since the slash is put behind it all the
same, and an empty entry at the end is not there at all. An entry that would make the name too long
for the buffer is passed over.
-/

namespace X3D

/-- `getenv`. -/
def getenv (environ : List Bytes) (name : Bytes) : Option Bytes :=
  (environ.find? fun e => strncmp e name name.length && e[name.length]? == some (chr '=')).map
    (·.drop (name.length + 1))

/-- The loop of `execvp` over the path. `runs` says for which files `execve` succeeds. -/
def pathLoop (runs : Bytes → Bool) (file : Bytes) : Bytes → Option Bytes
  | [] => none
  | c :: s =>
    let dir := (c :: s).takeWhile (· ≠ chr ':')
    let rest := ((c :: s).dropWhile (· ≠ chr ':')).tail
    -- `buf` has 4096 bytes
    if dir.length + file.length + 2 > 4096 then pathLoop runs file rest
    else if runs (dir ++ chr '/' :: file) then some (dir ++ chr '/' :: file)
    else pathLoop runs file rest
termination_by p => p.length
decreasing_by
  all_goals
    have hle := (List.dropWhile_suffix (· ≠ chr ':') (l := c :: s)).length_le
    rw [List.length_tail, List.length_cons] at *
    omega

/-- `execvp`: the file that runs, unless it returns. -/
def execvp (runs : Bytes → Bool) (environ : List Bytes) (file : Bytes) : Option Bytes :=
  if chr '/' ∈ file then (if runs file then some file else none)
  else pathLoop runs file ((getenv environ (lit "PATH")).getD (lit "/bin:/usr/bin"))

/-- The directories a command is looked for in. -/
def searchPath (environ : List Bytes) : List Bytes :=
  lines (chr ':') ((getenv environ (lit "PATH")).getD (lit "/bin:/usr/bin"))

variable {runs : Bytes → Bool} {file : Bytes}

/-- A file is run if its name fits into the buffer and `execve` succeeds. -/
def fitsAndRuns (runs : Bytes → Bool) (f : Bytes) : Bool := f.length < 4096 && runs f

/-- **One entry.** The loop runs the file in the first directory, or goes on behind the colon. -/
theorem pathLoop_cons (c : UInt8) (s : Bytes) :
    pathLoop runs file (c :: s) =
      if fitsAndRuns runs ((c :: s).takeWhile (· ≠ chr ':') ++ chr '/' :: file) = true then
        some ((c :: s).takeWhile (· ≠ chr ':') ++ chr '/' :: file)
      else pathLoop runs file ((c :: s).dropWhile (· ≠ chr ':')).tail := by
  rw [pathLoop]
  generalize (c :: s).takeWhile (· ≠ chr ':') = dir
  have hlen : (dir ++ chr '/' :: file).length = dir.length + file.length + 1 := by
    rw [List.length_append, List.length_cons, Nat.add_assoc]
  unfold fitsAndRuns
  by_cases hlong : dir.length + file.length + 2 > 4096
  · rw [if_pos hlong, decide_eq_false (by omega), Bool.false_and, if_neg Bool.false_ne_true]
  · rw [if_neg hlong, decide_eq_true (by omega), Bool.true_and]

/-- **Run lemma.** The loop runs the first file that can be run, in the order of the entries. -/
theorem pathLoop_eq (p : Bytes) :
    pathLoop runs file p =
      ((lines (chr ':') p).map (· ++ chr '/' :: file)).find? (fitsAndRuns runs) := by
  induction hn : p.length using Nat.strong_induction_on generalizing p with
  | _ n ih =>
    cases p with
    | nil => rw [pathLoop, lines_nil, List.map_nil, List.find?_nil]
    | cons c s =>
      have hrest : ((c :: s).dropWhile (· ≠ chr ':')).tail.length < n := by
        have hle := (List.dropWhile_suffix (· ≠ chr ':') (l := c :: s)).length_le
        rw [List.length_tail]
        rw [List.length_cons] at hle hn
        omega
      rw [pathLoop_cons, ih _ hrest _ rfl, lines_cons, List.map_cons, List.find?_cons]
      split
      · next h => rw [h]
      · next h => rw [Bool.eq_false_of_not_eq_true h]

/-- **What a command runs.** A name with a slash is the file itself. Any other is looked for in the
entries of the path, and the first file that fits and can be run is run. -/
theorem execvp_eq (runs : Bytes → Bool) (environ : List Bytes) (file : Bytes) :
    execvp runs environ file =
      if chr '/' ∈ file then (if runs file then some file else none)
      else ((searchPath environ).map (· ++ chr '/' :: file)).find? (fitsAndRuns runs) := by
  unfold execvp searchPath
  rw [pathLoop_eq]

end X3D
