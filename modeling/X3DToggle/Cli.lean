import X3DToggle.Worker
import X3DToggle.GameFiles

/-!
# The commands of the client

Every handler of the command line that talks to the daemon builds its requests with
`printf_sn`, in a buffer of its own size, or sends a literal. A handler is a function here, from
`argv` to what it does on the socket, in order; none of it if it stops at a usage check. A later
request of a handler may depend on the outcome of an earlier one; the list has all it may send.

Handlers that change the configuration go through `config_write`, which sends the request and
writes the file itself if `socket_send` reports an error, whatever the error is, and reports
success in any case.
-/

namespace X3D

/-! ### Requests -/

/-- A request as a handler builds it. -/
structure CliRequest where
  -- the command word and the arguments it is about
  word : Bytes
  args : List Bytes
  -- the size of the buffer of `printf_sn`; none if the command is sent as it stands
  size : Option ℕ
  fmt : Bytes
  params : List Bytes

/-- The rendered payload. -/
def CliRequest.payload (q : CliRequest) : Bytes :=
  match q.size with
  | none => q.fmt
  | some _ => rendered q.fmt q.params

/-- What is handed to `socket_send`. -/
def CliRequest.text (q : CliRequest) : Bytes :=
  match q.size with
  | none => q.fmt
  | some n => printfSn n q.fmt (q.params.map .str)

/-- The rendered payload fits its buffer. -/
def CliRequest.Fits (q : CliRequest) : Prop :=
  match q.size with
  | none => True
  | some n => q.payload.length < n

/-- A command sent as it stands. -/
def CliRequest.literal (word : Bytes) (args : List Bytes) (cmd : Bytes) : CliRequest :=
  ⟨word, args, none, cmd, []⟩

/-- What a handler does on the socket. -/
inductive CliAction where
  | send (q : CliRequest)
  -- with the key and the value for the file, if there are any
  | configWrite (q : CliRequest) (entry : Option (Bytes × Bytes))

/-- The request sent. -/
def CliAction.request : CliAction → CliRequest
  | send q => q
  | configWrite q _ => q

/-! ### `config_write` -/

/-- What `config_write` meets: the connection, the daemon, and its own calls on the file. -/
structure ConfigWriteEnv where
  link : Link
  daemon : RequestEnv
  update : UpdateEnv
  games : GameEnv

/-- How `config_write` ends. -/
structure ConfigWritten where
  ret : ℤ
  -- it took the branch that writes a file
  direct : Bool
  daemon : Daemon

/-- `config_write`. All of its direct writes are to `CONFIG_PATH`. -/
def configWrite (B : Build) (e : ConfigWriteEnv) (q : CliRequest) (entry : Option (Bytes × Bytes))
    (d : Daemon) : ConfigWritten :=
  let (ipcRes, d) := socketSend B e.daemon e.link q.text d
  if ipcRes = 0 then ⟨0, false, d⟩
  else match entry with
    | some (key, val) => ⟨0, true, { d with conf := configUpdate e.update key val d.conf }⟩
    | none =>
      if strncmp q.text (lit "GAME_ADD ") 9 then
        ⟨0, true, { d with conf := (gameAdd e.games (q.text.drop 9) d.conf).2 }⟩
      else if strncmp q.text (lit "GAME_REMOVE ") 12 then
        ⟨0, true, { d with conf := (gameRemove e.games (q.text.drop 12) d.conf).2 }⟩
      else ⟨0, false, d⟩

/-! ### Configuration -/

/-- A handler that sets one key to its argument. -/
def setConfigArg (key fmt : Bytes) (argv : List Bytes) : List CliAction :=
  match argv[2]? with
  | none => []
  | some val =>
    [.configWrite ⟨lit "SET_CONFIG", [key, val], some 128, fmt, [val]⟩ (some (key, val))]

def cliConfigInterval : List Bytes → List CliAction :=
  setConfigArg (lit "POLLING_INTERVAL") (lit "SET_CONFIG POLLING_INTERVAL %s")

def cliConfigThreshold : List Bytes → List CliAction :=
  setConfigArg (lit "LOAD_THRESHOLD") (lit "SET_CONFIG LOAD_THRESHOLD %s")

def cliConfigFallback : List Bytes → List CliAction :=
  setConfigArg (lit "FALLBACK_PROFILE") (lit "SET_CONFIG FALLBACK_PROFILE %s")

def cliConfigDetection : List Bytes → List CliAction :=
  setConfigArg (lit "DETECTION_LEVEL") (lit "SET_CONFIG DETECTION_LEVEL %s")

/-- `config_write` with a constant value. -/
def setConfigConst (key val cmd : Bytes) : CliAction :=
  .configWrite (.literal (lit "SET_CONFIG") [key, val] cmd) (some (key, val))

def cliConfigPolling (_ : List Bytes) : List CliAction :=
  [setConfigConst (lit "DETECTION_LEVEL") (lit "0") (lit "SET_CONFIG DETECTION_LEVEL 0"),
   setConfigConst (lit "EBPF_ENABLE") (lit "0") (lit "SET_CONFIG EBPF_ENABLE 0")]

def cliConfigEbpf (_ : List Bytes) : List CliAction :=
  [setConfigConst (lit "DETECTION_LEVEL") (lit "1") (lit "SET_CONFIG DETECTION_LEVEL 1"),
   setConfigConst (lit "EBPF_ENABLE") (lit "1") (lit "SET_CONFIG EBPF_ENABLE 1")]

/-- Address and port of the argument of `server`, as the user gives them. -/
def serverArgs (arg : Bytes) (argv : List Bytes) : Bytes × Bytes :=
  match strchr arg (chr ':') with
  | some (ip, port) => (ip, port)
  | none => (arg, argv[3]?.getD [])

/-- A setting of `cli_config_server`. `copy` is the array the argument goes through. -/
def setServer (key fmt arg copy : Bytes) : CliAction :=
  .configWrite ⟨lit "SET_CONFIG", [key, arg], some 256, fmt, [copy]⟩ (some (key, copy))

/-- `cli_config_server`. The address is copied to `ip[128]` and the port to `port[32]`. -/
def cliConfigServer (argv : List Bytes) : List CliAction :=
  match argv[2]? with
  | none => []
  | some arg =>
    let (ip, port) := serverArgs arg argv
    setServer (lit "SERVER_ADDRESS") (lit "SET_CONFIG SERVER_ADDRESS %s") ip (ip.take 127) ::
      if port.take 31 = [] then []
      else [setServer (lit "SERVER_PORT") (lit "SET_CONFIG SERVER_PORT %s") port (port.take 31)]

/-- A handler of the game list. -/
def gameArg (word fmt : Bytes) (argv : List Bytes) : List CliAction :=
  match argv[2]? with
  | none => []
  | some name => [.configWrite ⟨word, [name], some 256, fmt, [name]⟩ none]

def cliConfigAdd : List Bytes → List CliAction := gameArg (lit "GAME_ADD") (lit "GAME_ADD %s")

def cliConfigRemove : List Bytes → List CliAction :=
  gameArg (lit "GAME_REMOVE") (lit "GAME_REMOVE %s")

def cliConfigList (_ : List Bytes) : List CliAction :=
  [.send (.literal (lit "GAMES_LIST") [] (lit "GAMES_LIST"))]

/-- The actions `cli_config_profile` knows. -/
def profileActions : List Bytes := [lit "add", lit "save", lit "load", lit "delete"]

def cliConfigProfile (argv : List Bytes) : List CliAction :=
  match argv[2]?, argv[3]? with
  | some action, some name =>
    if action ∈ profileActions then
      [.send ⟨lit "PROFILE", [action, name], some 256, lit "PROFILE %s %s", [action, name]⟩]
    else []
  | _, _ => []

/-- The request for a reload. -/
def configSync : CliAction := .send (.literal (lit "CONFIG_SYNC") [] (lit "CONFIG_SYNC"))

def cliConfigSync (_ : List Bytes) : List CliAction := [configSync]

def cliConfigUpdate (_ : List Bytes) : List CliAction := [configSync]

/-- `cli_advanced_config`. -/
def cliAdvancedConfig (argv : List Bytes) : List CliAction :=
  match argv[2]?, argv[3]? with
  | some op, some key =>
    if op = lit "get" then
      [.send ⟨lit "ADVANCED_GET", [key], some 256, lit "ADVANCED_GET %s", [key]⟩]
    else if op = lit "set" then
      match argv[4]? with
      | none => []
      | some val =>
        [.configWrite
          ⟨lit "ADVANCED_SET", [key, val], some 256, lit "ADVANCED_SET %s %s", [key, val]⟩
          (some (key, val))]
    else []
  | _, _ => []

/-! ### Hardware -/

/-- A handler that sends a constant energy preference. -/
def setEppConst (val cmd : Bytes) : CliAction := .send (.literal (lit "SET_EPP") [val] cmd)

def cliCppcPerf (_ : List Bytes) : List CliAction :=
  [setEppConst (lit "performance") (lit "SET_EPP performance")]

def cliCppcBal (_ : List Bytes) : List CliAction :=
  [setEppConst (lit "balance_performance") (lit "SET_EPP balance_performance")]

def cliCppcEco (_ : List Bytes) : List CliAction :=
  [setEppConst (lit "balance_power") (lit "SET_EPP balance_power")]

def cliCppcPower (_ : List Bytes) : List CliAction :=
  [setEppConst (lit "power") (lit "SET_EPP power")]

def cliCppcEpp (argv : List Bytes) : List CliAction :=
  match argv[2]?, argv[3]? with
  | some ccd, some val =>
    [.send ⟨lit "SET_EPP_CCD", [ccd, val], some 128, lit "SET_EPP_CCD %s %s", [ccd, val]⟩]
  | _, _ => []

def cliCppcRaw (argv : List Bytes) : List CliAction :=
  match argv[2]?, argv[3]? with
  | some val, some dev =>
    [.send ⟨lit "SET_RAW", [dev, val], some 128, lit "SET_RAW %s %s", [dev, val]⟩]
  | _, _ => []

/-- A handler that sends its argument. -/
def sendArg (word fmt : Bytes) (argv : List Bytes) : List CliAction :=
  match argv[2]? with
  | none => []
  | some val => [.send ⟨word, [val], some 128, fmt, [val]⟩]

def cliCppcMode : List Bytes → List CliAction := sendArg (lit "SET_PSTATE") (lit "SET_PSTATE %s")

def cliCppcTarget : List Bytes → List CliAction := sendArg (lit "SET_CPPC") (lit "SET_CPPC %s")

def cliCppcGovernor : List Bytes → List CliAction :=
  sendArg (lit "SET_GOVERNOR") (lit "SET_GOVERNOR %s")

def cliCppcPrefcore : List Bytes → List CliAction :=
  sendArg (lit "SET_PREFCORE") (lit "SET_PREFCORE %s")

/-! ### Modes and the daemon -/

/-- `SET_DAEMON` with a constant state. -/
def setDaemonConst (val cmd : Bytes) : CliAction := .send (.literal (lit "SET_DAEMON") [val] cmd)

/-- The requests of `ccd_change` for one of the four modes. -/
def ccdRequests (mode : Bytes) : List CliAction :=
  [setDaemonConst (lit "manual") (lit "SET_DAEMON manual"),
   .send ⟨lit "SET_MODE", [mode], some 64, lit "SET_MODE %s", [mode]⟩]

def cliModeCache (_ : List Bytes) : List CliAction := ccdRequests (lit "cache")

def cliModeFrequency (_ : List Bytes) : List CliAction := ccdRequests (lit "frequency")

def cliModeDual (_ : List Bytes) : List CliAction := ccdRequests (lit "dual")

def cliModeSwap (_ : List Bytes) : List CliAction := ccdRequests (lit "swap")

def cliModeAuto (_ : List Bytes) : List CliAction :=
  [.send (.literal (lit "DAEMON_DISABLE") [] (lit "DAEMON_DISABLE"))]

/-- `SET_MODE` with a constant mode. -/
def setModeConst (val cmd : Bytes) : CliAction := .send (.literal (lit "SET_MODE") [val] cmd)

/-- `cli_mode_reset`. If the request fails it goes on to `ccd_change("reset")`, which sends
nothing, since that is none of the four modes. -/
def cliModeReset (_ : List Bytes) : List CliAction :=
  [setModeConst (lit "reset") (lit "SET_MODE reset")]

/-- The three requests that bring the daemon back to its default. -/
def wakeRequests : List CliAction :=
  [configSync, setDaemonConst (lit "default") (lit "SET_DAEMON default"),
   setModeConst (lit "frequency") (lit "SET_MODE frequency")]

def cliModeDefault (_ : List Bytes) : List CliAction := wakeRequests

/-- `cli_daemon_enable`, which sends its request up to five times. -/
def cliDaemonEnable (_ : List Bytes) : List CliAction :=
  [setDaemonConst (lit "default") (lit "SET_DAEMON default")]

def cliDaemonStart (argv : List Bytes) : List CliAction := cliDaemonEnable argv

def cliDaemonWake (_ : List Bytes) : List CliAction := wakeRequests

def cliDaemonSleep (_ : List Bytes) : List CliAction :=
  [setDaemonConst (lit "manual") (lit "SET_DAEMON manual")]

/-- `run_game`: the wrapper around a game. The index of the game in `argv` depends on whether
it was started as `x3d-run` or as `x3d-toggle run`. -/
def runGame (argv : List Bytes) : List CliAction :=
  match argv[1]? with
  | none => []
  | some first =>
    match argv[if first = lit "run" then 2 else 1]? with
    | none => []
    | some _ =>
      [.send (.literal (lit "SET_WRAPPER") [lit "1"] (lit "SET_WRAPPER 1")),
       .send (.literal (lit "SET_WRAPPER") [lit "0"] (lit "SET_WRAPPER 0"))]

/-- `daemon_status`, with the probe of `daemon_active` before it. -/
def daemonStatus (_ : List Bytes) : List CliAction :=
  [.send (.literal (lit "PING") [] (lit "PING")),
   .send (.literal (lit "DAEMON_INFO") [] (lit "DAEMON_INFO"))]

/-- The handlers that send a request. -/
def cliHandlers : List (List Bytes → List CliAction) :=
  [cliConfigInterval, cliConfigThreshold, cliConfigFallback, cliConfigDetection, cliConfigPolling,
   cliConfigEbpf, cliConfigServer, cliConfigAdd, cliConfigRemove, cliConfigList, cliConfigProfile,
   cliConfigSync, cliConfigUpdate, cliAdvancedConfig, cliCppcPerf, cliCppcBal, cliCppcEco,
   cliCppcPower, cliCppcEpp, cliCppcRaw, cliCppcMode, cliCppcTarget, cliCppcGovernor,
   cliCppcPrefcore, cliModeCache, cliModeFrequency, cliModeDual, cliModeSwap, cliModeAuto,
   cliModeReset, cliModeDefault, cliDaemonEnable, cliDaemonStart, cliDaemonWake, cliDaemonSleep,
   runGame, daemonStatus]

end X3D
