import X3DToggle.Games

/-!
# Game detection

A game is recognised in two ways. The eBPF programs report every `exec` and `exit`, and
`handle_event` keeps a bare counter of running games from them. `detect_game` scans `/proc` at
every poll. Both use the game list and the Steam heuristics of `steam.h`.

`Proc` is what `/proc/<pid>` shows of a process at one moment; a file that cannot be read is
`none`. `Bpf` is the tracker's process-wide state: the four library handles, the counter, and
the number of D-Bus listener threads started, each of which counts GameMode signals on its own.
-/

namespace X3D

/-- A process as `/proc/<pid>` shows it. -/
structure Proc where
  /-- The process id. -/
  pid : ℤ
  /-- The content of `cmdline`. -/
  cmdline : Option Bytes
  /-- The pieces successive reads of `maps` deliver. -/
  maps : List Bytes
  /-- The content of `comm`. -/
  comm : Option Bytes
  /-- The content of `environ`. -/
  environ : Option Bytes

/-! ### Steam -/

/-- `_steam_infra_names`. -/
def steamInfraNames : List Bytes :=
  [lit "steam", lit "steamwebhelper", lit "steamboot", lit "steam_osx", lit "reaper",
   lit "pressure-vessel", lit "SteamChildMonit"]

/-- `steam_is_infra_comm`. -/
def steamIsInfraComm (comm : Bytes) : Bool :=
  comm ≠ [] && steamInfraNames.any fun name => strncmp comm name 15

/-- `is_game_engine_comm`. -/
def isGameEngineComm (comm : Bytes) : Bool :=
  comm ≠ [] && strncmp comm (lit "GameThread") 10

/-- An entry of the environment names a Steam application other than `0`. -/
def isSteamEntry (entry : Bytes) : Bool :=
  strncmp entry (lit "SteamAppId=") 11 && entry.drop 11 ≠ [] && entry.drop 11 ≠ lit "0"

/-- `scan_pid_steam`. -/
def scanPidSteam (p : Proc) : Bool :=
  -- `comm` decides alone if it is an engine's or Steam's own
  let comm := (readFile true p.comm 31).map fun buf =>
    cstr (if buf.getLast? = some nl then buf.dropLast else buf)
  let environ := match readFile true p.environ 4095 with
    | none => false
    | some buf => (lines 0 buf).any isSteamEntry
  match comm with
  | none => environ
  | some comm =>
    if isGameEngineComm comm then true
    else if steamIsInfraComm comm then false
    else environ

/-- `scan_pid_steam_by_pid`, for the processes of a moment. -/
def scanPidSteamByPid (procs : List Proc) (pid : ℤ) : Bool :=
  0 < pid && match procs.find? (·.pid = pid) with
    | none => false
    | some p => scanPidSteam p

/-! ### The `/proc` scan -/

/-- `scan_pid`. -/
def scanPid (gl : GameList) (p : Proc) : Bool :=
  let cmdline := match readFile true p.cmdline 16383 with
    | none => false
    | some buf => gl.names ≠ [] && gamesMatch gl (buf.map fun c => if c = 0 then chr ' ' else c)
  let maps := p.maps.any fun piece => contains (cstr (piece.take 16383)) (lit "libgamemodeauto.so")
  cmdline || maps || scanPidSteam p

/-- `detect_game`. -/
def detectGame (gl : GameList) (procs : List Proc) : Bool := procs.any (scanPid gl)

/-! ### The event counter -/

/-- `struct process_event`. -/
structure ProcessEvent where
  /-- The process. -/
  pid : ℤ
  /-- Its `comm`. -/
  comm : Bytes
  /-- The event is an exit. -/
  isExit : Bool
  deriving DecidableEq

/-- `handle_event`: the counter `active_games` afterwards. -/
def handleEvent (gl : GameList) (procs : List Proc) (activeGames : ℕ) (e : ProcessEvent) : ℕ :=
  if gamesMatch gl e.comm then
    if e.isExit then (if 0 < activeGames then activeGames - 1 else activeGames)
    else activeGames + 1
  else if !e.isExit && (isGameEngineComm e.comm || scanPidSteamByPid procs e.pid) then
    activeGames + 1
  -- the conservative branch: any exit counts as the exit of a game
  else if e.isExit ∧ 0 < activeGames then activeGames - 1
  else activeGames

/-! ### Life cycle -/

/-- A library handle. `bpf_cleanup` releases handles and leaves the pointers. -/
inductive Handle where
  | null | live | released
  deriving DecidableEq

/-- The state of `bpf-user.c`. -/
structure Bpf where
  /-- `obj`. -/
  obj : Handle
  /-- `rb`. -/
  rb : Handle
  /-- `link_exec`. -/
  linkExec : Handle
  /-- `link_exit`. -/
  linkExit : Handle
  /-- `active_games`. -/
  activeGames : ℕ
  /-- Listener threads started. -/
  listeners : ℕ
  deriving DecidableEq

/-- The state at the start of a process. -/
def Bpf.zero : Bpf := ⟨.null, .null, .null, .null, 0, 0⟩

/-- The outcomes of the library calls in `bpf_init`. -/
structure BpfEnv where
  /-- `pthread_create` succeeds. -/
  thread : Bool
  /-- `bpf_object__open_file` succeeds. -/
  openFile : Bool
  /-- `bpf_object__load` succeeds. -/
  load : Bool
  /-- `handle_exec` is found. -/
  findExec : Bool
  /-- It is attached. -/
  attachExec : Bool
  /-- `handle_exit` is found. -/
  findExit : Bool
  /-- It is attached. -/
  attachExit : Bool
  /-- The map `events` is found. -/
  map : Bool
  /-- `ring_buffer__new` succeeds. -/
  ring : Bool

/-- `bpf_init`. -/
def bpfInit (env : BpfEnv) (b : Bpf) : Bool × Bpf :=
  if b.obj ≠ .null then (true, b)
  else
    let b := if env.thread then { b with listeners := b.listeners + 1 } else b
    if !env.openFile then (false, b)
    else if !env.load then (false, b)
    else
      let b := { b with obj := .live }
      let b := if env.findExec then
        { b with linkExec := if env.attachExec then .live else .null } else b
      let b := if env.findExit then
        { b with linkExit := if env.attachExit then .live else .null } else b
      if b.linkExec ≠ .null ∧ b.linkExit ≠ .null ∧ env.map then
        if env.ring then (true, { b with rb := .live })
        else (false, { b with rb := .null })
      else (false, b)

/-- Release a handle that is not null. -/
def Handle.release : Handle → Handle
  | null => null
  | _ => released

/-- `bpf_cleanup`. -/
def bpfCleanup (b : Bpf) : Bpf :=
  { b with
    rb := b.rb.release
    linkExec := b.linkExec.release
    linkExit := b.linkExit.release
    obj := b.obj.release }

/-- `bpf_poll`: the pending events go through `handle_event`. -/
def bpfPoll (gl : GameList) (procs : List Proc) (events : List ProcessEvent) (b : Bpf) : Bpf :=
  if b.rb = .null then b
  else { b with activeGames := events.foldl (handleEvent gl procs) b.activeGames }

/-- `bpf_game`. -/
def bpfGame (b : Bpf) : Bool := 0 < b.activeGames

/-- The GameMode signals. -/
inductive GameModeSignal where
  | registered | unregistered
  deriving DecidableEq

/-- `on_gamemode_signal`, in one listener thread. -/
def onGamemodeSignal (b : Bpf) : GameModeSignal → Bpf
  | .registered => { b with activeGames := b.activeGames + 1 }
  | .unregistered =>
    if 0 < b.activeGames then { b with activeGames := b.activeGames - 1 } else b

end X3D
