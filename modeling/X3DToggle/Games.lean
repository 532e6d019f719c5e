import X3DToggle.Config.Struct

/-!
# The game lists

A game list file has sections. A line that starts with `[` is a header; it opens a game
section if it contains `[GAMES_SYS]` or `[GAMES_USR]` and closes one otherwise. In a game
section each line names a game by a substring of its command line.

`games_load` reads the names of `games.conf` into a `GameList`, whose bounds on the number and
the length of names are part of the type; `games_match` tests a command line. `game_add` and
`game_remove` edit the `[GAMES_USR]` section of another file, `daemon.conf`.

The two editors keep the lines of the file in arrays of 256-byte slots, so a line longer than
254 bytes loses its end and its line break. `game_add` allocates 64 slots and grows them once,
after reading; a file with more lines is written past the allocation. The model gives the array
the 1024 slots the loop counts to.
-/

namespace X3D

/-- `GAMES_MAX`. -/
abbrev gamesMax : ℕ := 512

/-- `gamelist`: at most `GAMES_MAX` names of less than `GAME_NAME` bytes. -/
structure GameList where
  /-- The names. -/
  names : List (CArray 64)
  /-- They fit the array. -/
  count_le : names.length ≤ gamesMax

/-- The list of a process that has loaded none. -/
def GameList.empty : GameList := ⟨[], Nat.zero_le _⟩

/-- The blanks `games_load` strips off the end of a line. -/
def isTrailing (c : UInt8) : Bool := c = nl || c = chr '\r' || c = chr ' ' || c = chr '\t'

/-- The name a line of a game section gives, before it is cut to the array. -/
def gameName (line : Bytes) : Option Bytes :=
  let p := (line.rdropWhile isTrailing).dropWhile isBlank
  if p = [] ∨ p.head? = some (chr '#') ∨ p.length < 2 then none else some p

/-- The header of a game section. -/
def isGameHeader (line : Bytes) : Bool :=
  contains line (lit "[GAMES_SYS]") || contains line (lit "[GAMES_USR]")

/-- Append a name to the list unless it is there already or the list is full. -/
def GameList.push (gl : GameList) (p : Bytes) : GameList :=
  if h : gl.names.length < gamesMax then
    if gl.names.any (·.val = p) then gl
    else ⟨gl.names ++ [⟨p.take 63, (List.length_take_le _ _).trans_lt (by decide)⟩], by
      rw [List.length_append]
      exact h⟩
  else gl

/-- One round of the loop of `games_load`, on the section flag and the list. A full list ends
the loop. -/
def gamesLoadLine (acc : Bool × GameList) (line : Bytes) : Bool × GameList :=
  if gamesMax ≤ acc.2.names.length then acc
  else if line.head? = some (chr '[') then (isGameHeader line, acc.2)
  else if !acc.1 then acc
  else match gameName line with
    | none => acc
    | some p => (acc.1, acc.2.push p)

/-- `games_load`, on the content of `GAMES_SYS`. -/
def gamesLoad (ok : Bool) (file : Option Bytes) : GameList :=
  match readFile ok file 8191 with
  | none => GameList.empty
  | some buf => ((lines nl (cstr buf)).foldl gamesLoadLine (false, GameList.empty)).2

/-- `games_match`. -/
def gamesMatch (gl : GameList) (comm : Bytes) : Bool :=
  comm ≠ [] && gl.names.any fun name => name.val ≠ [] && contains comm name.val

/-! ### Editing the user list -/

/-- The sections the editors distinguish. -/
inductive GameSection where
  | none | sys | usr
  deriving DecidableEq

/-- The section a header opens. -/
def headerSection (line : Bytes) : GameSection :=
  if contains line (lit "[GAMES_SYS]") then .sys
  else if contains line (lit "[GAMES_USR]") then .usr
  else .none

/-- `trim_ws_inplace`. -/
def trimWs (s : Bytes) : Bytes := (s.dropWhile isspace).rdropWhile isspace

/-- What the editors find out while they read the file. -/
structure GameScan where
  /-- The array of lines, each with its line break, cut to 255 bytes. -/
  lines : List Bytes
  /-- The section of the line read last. -/
  current : GameSection
  /-- The index of the last `[GAMES_USR]` header. -/
  usrIdx : Option ℕ
  /-- The game is listed in a `[GAMES_SYS]` section. -/
  foundSys : Bool
  /-- The game is listed in a `[GAMES_USR]` section. -/
  foundUsr : Bool
  deriving DecidableEq

/-- One round of the reading loop of `game_add` and `game_remove`. They differ in `trim`, which
`game_remove` leaves out. -/
def scanLine (trim : Bytes → Bytes) (game : Bytes) (s : GameScan) (ln : Bytes) : GameScan :=
  let stored := printfSn 256 (lit "%s\n") [.str ln]
  if ln.head? = some (chr '[') then
    { s with
      lines := s.lines ++ [stored]
      current := headerSection ln
      usrIdx := if headerSection ln = .usr then some s.lines.length else s.usrIdx }
  else
    let clean := trim (printfSn 256 (lit "%s") [.str ln])
    { s with
      lines := s.lines ++ [stored]
      foundSys := s.foundSys || (s.current = .sys && clean = game)
      foundUsr := s.foundUsr || (s.current = .usr && clean = game) }

/-- The reading loop, over at most 1024 lines. -/
def scanGames (trim : Bytes → Bytes) (game : Bytes) (buf : Option Bytes) : GameScan :=
  let ls := match buf with
    | none => []
    | some buf => (lines nl (cstr buf)).take 1024
  ls.foldl (scanLine trim game) ⟨[], .none, none, false, false⟩

/-- The outcomes the editors depend on. -/
structure GameEnv where
  /-- The file can be opened and read. -/
  openRd : Bool
  /-- `malloc` succeeds. -/
  malloc : Bool
  /-- `realloc` succeeds. -/
  realloc : Bool
  /-- The file can be opened for writing; it is created or truncated then. -/
  openWr : Bool
  /-- The bytes the `write` calls put into the file. -/
  written : ℕ

/-- The last steps of both editors: write all lines. -/
def writeLines (env : GameEnv) (ls : List Bytes) (file : Option Bytes) : Option Bytes :=
  if env.openWr then some (ls.flatten.take env.written) else file

/-- The lines `game_add` writes for a game that is not listed: a new section at the end, or a
line right after the last header of the user section. -/
def addedLines (game : Bytes) (s : GameScan) : List Bytes :=
  match s.usrIdx with
  | none => s.lines ++ [printfSn 256 (lit "\n[GAMES_USR]\n%s\n") [.str game]]
  | some i => s.lines.insertIdx (i + 1) (printfSn 256 (lit "%s\n") [.str game])

/-- `game_add`: the result and the content of `CONFIG_PATH`. -/
def gameAdd (env : GameEnv) (game : Bytes) (file : Option Bytes) : ℤ × Option Bytes :=
  if !env.malloc then (errMem, file)
  else
    let s := scanGames trimWs game (readFile env.openRd file 16383)
    if s.foundSys || s.foundUsr then (errSuccess, file)
    else if 1024 ≤ s.lines.length then (errMem, file)
    else if 64 ≤ s.lines.length ∧ !env.realloc then (errMem, file)
    else (errSuccess, writeLines env (addedLines game s) file)

/-- One round of the writing loop of `game_remove`, on the lines kept and the section flag. -/
def keepLine (game : Bytes) (acc : List Bytes × Bool) (line : Bytes) : List Bytes × Bool :=
  let inUsr :=
    if contains line (lit "[GAMES_USR]") then true
    else if line.head? = some (chr '[') then false
    else acc.2
  let clean := (printfSn 256 (lit "%s") [.str line]).rdropWhile fun c => c = nl || c = chr '\r'
  if inUsr && clean = game then (acc.1, inUsr)
  else (acc.1 ++ [printfSn 256 (lit "%s") [.str line]], inUsr)

/-- `game_remove`: the result and the content of `CONFIG_PATH`. -/
def gameRemove (env : GameEnv) (game : Bytes) (file : Option Bytes) : ℤ × Option Bytes :=
  let s := scanGames id game (readFile env.openRd file 16383)
  if s.foundSys || !s.foundUsr then (errRemove, file)
  else (errSuccess, writeLines env (s.lines.foldl (keepLine game) ([], false)).1 file)

end X3D
