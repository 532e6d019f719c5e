import X3DToggle.Xui

/-!
# `config.sh --update`

The script writes `daemon.conf` anew from the settings variables, the shipped list of games and
the user's games in the file there is. Every line but the user's goes through `printf_step`,
which lays out a text for the terminal: it expands escapes, puts an indent before each line, and
takes a number before a comma for the depth of the indent.

A shell string is its bytes without NUL. `printf %b` is modelled with the escapes POSIX names;
one it leaves open is copied.
-/

namespace X3D

/-! ### The shell -/

/-- Where `printf %b` stands in its argument. -/
inductive Escape where
  | text
  | backslash
  -- the digits still allowed, and the value so far
  | octal (left value : ℕ)

/-- The one-letter escapes. -/
def escapeTable : List (UInt8 × UInt8) :=
  [(92, 92), (chr 'a', 7), (chr 'b', 8), (chr 'f', 12), (chr 'n', 10), (chr 'r', 13),
   (chr 't', 9), (chr 'v', 11)]

/-- `printf "%b"`. -/
def percentB : Escape → Bytes → Bytes
  | .text, [] => []
  | .text, c :: s => if c = 92 then percentB .backslash s else c :: percentB .text s
  | .backslash, [] => [92]
  | .backslash, c :: s =>
    -- `\\c` ends the output
    if c = chr 'c' then []
    else if c = chr '0' then percentB (.octal 3 0) s
    else match escapeTable.lookup c with
      | some b => b :: percentB .text s
      | none => 92 :: c :: percentB .text s
  | .octal _ v, [] => [UInt8.ofNat v]
  | .octal left v, c :: s =>
    if 0 < left ∧ chr '0' ≤ c ∧ c ≤ chr '7' then
      percentB (.octal (left - 1) (v * 8 + (c.toNat - 48))) s
    else
      UInt8.ofNat v :: if c = 92 then percentB .backslash s else c :: percentB .text s

/-- `$(...)`: the output without NULs and without the line breaks at its end. -/
def commandSubst (out : Bytes) : Bytes := (out.filter (· ≠ 0)).rdropWhile (· = nl)

/-- The lines `while IFS= read -r` loops over. An unterminated rest is read, but `read` fails on
it and the body does not see it. -/
def readLoop (file : Bytes) : List Bytes :=
  let s := file.filter (· ≠ 0)
  if s.getLast? = some nl then lines nl s else (lines nl s).dropLast

/-- `${line%$(printf '\r')}`. -/
def stripCr (line : Bytes) : Bytes :=
  if line.getLast? = some (chr '\r') then line.dropLast else line

/-- The number of rounds of `while [ "$_l_idx" -lt "$level" ]`. The test fails on what is no
number, and that ends the loop. -/
def levelOf (level : Bytes) : ℕ :=
  let digits := level.takeWhile isDigit
  let n := digits.foldl (fun n c => n * 10 + (c.toNat - 48)) 0
  if (level.drop digits.length).all isspace ∧ n < 2 ^ 63 then n else 0

/-! ### `printf_step` -/

/-- The level and the content of an argument. -/
def stepParts (str : Bytes) : ℕ × Bytes :=
  match strchr str (chr ',') with
  | none => (1, str)
  | some (level, content) =>
    match level with
    | [] => (1, content)
    | c :: _ => if isDigit c then (levelOf level, content) else (1, str)

/-- The indent of an argument; a question is indented once more. -/
def stepIndent (level : ℕ) (content : Bytes) : Bytes :=
  let question := (lit "?").isPrefixOf content || (lit "❓").isPrefixOf content
  List.replicate (4 * level + if question then 4 else 0) (chr ' ')

/-- The lines `printf_step` prints for one argument. -/
def stepLines (str : Bytes) : List Bytes :=
  let (level, content) := stepParts str
  (lines nl (commandSubst (percentB .text content))).map (stepIndent level content ++ ·)

/-! ### The script -/

/-- What the settings variables hold when the script checks them. -/
abbrev ShellVars := Bytes → Bytes

/-- The variables written to the file. -/
def settingVars : List Bytes :=
  [lit "POLLING_INTERVAL", lit "REFRESH_INTERVAL", lit "LOAD_THRESHOLD", lit "DETECTION_LEVEL",
   lit "EBPF_ENABLE", lit "DEBUG_ENABLE", lit "DEV_ENABLE", lit "AFFINITY_LEVEL",
   lit "AFFINITY_MASK", lit "AFFINITY_FREQ_MASK", lit "FALLBACK_PROFILE", lit "DAEMON_STATE",
   lit "SERVER_ENABLED", lit "SERVER_ADDRESS", lit "SERVER_PORT", lit "SERVER_SSH",
   lit "JOURNAL_KEEP", lit "JOURNAL_MAX_MB", lit "SCHED_BORE", lit "SCHED_BIT_SHIFT",
   lit "SCHED_BURST_FORK", lit "SCHED_SLICE_US", lit "VM_MAX_MAP", lit "SPLIT_LOCK_DETECT",
   lit "NMI_WATCHDOG", lit "THP_MODE", lit "NET_QDISC", lit "NET_FASTOPEN",
   lit "NET_RP_FILTER", lit "NET_SOURCE_ROUTE", lit "LINT_CLANG_DIAGNOSTIC",
   lit "LINT_CLANG_BUGPRONE", lit "LINT_CLANG_MODERNIZE", lit "LINT_CLANG_READABILITY",
   lit "LINT_CLANG_PERFORMANCE", lit "LINT_CLANG_PORTABILITY", lit "LINT_CLANG_ANALYZER",
   lit "LINT_CPPCHECK_ALL", lit "LINT_CPPCHECK_WARNING", lit "LINT_CPPCHECK_STYLE",
   lit "LINT_CPPCHECK_PERFORMANCE", lit "LINT_CPPCHECK_PORTABILITY",
   lit "LINT_CPPCHECK_INFORMATION", lit "LINT_CPPCHECK_UNUSED", lit "LINT_VALGRIND_MODE",
   lit "LINT_VALGRIND_KINDS", lit "LINT_VALGRIND_ORIGINS"]

/-- The variables checked by `guard`. -/
def guardedVars : List Bytes :=
  [lit "DIR_BIN", lit "POLLING_INTERVAL", lit "REFRESH_INTERVAL", lit "LOAD_THRESHOLD",
   lit "DETECTION_LEVEL", lit "EBPF_ENABLE", lit "DEBUG_ENABLE", lit "DEV_ENABLE",
   lit "AFFINITY_LEVEL", lit "AFFINITY_MASK", lit "AFFINITY_FREQ_MASK", lit "FALLBACK_PROFILE",
   lit "DAEMON_STATE", lit "SERVER_ENABLED", lit "SERVER_ADDRESS", lit "SERVER_PORT",
   lit "SERVER_SSH", lit "JOURNAL_KEEP", lit "JOURNAL_MAX_MB", lit "IRQ_PINNING",
   lit "IRQ_CUSTOM", lit "IRQ_ENABLE", lit "IRQ_GPU", lit "IRQ_NVME", lit "IRQ_USB",
   lit "IRQ_NIC", lit "IRQ_AUDIO", lit "IRQ_COALESCE", lit "IRQ_WATCH", lit "SCHED_BORE",
   lit "SCHED_BIT_SHIFT", lit "SCHED_BURST_FORK", lit "SCHED_SLICE_US", lit "VM_MAX_MAP",
   lit "SPLIT_LOCK_DETECT", lit "NMI_WATCHDOG", lit "THP_MODE", lit "NET_QDISC",
   lit "NET_FASTOPEN", lit "NET_RP_FILTER", lit "NET_SOURCE_ROUTE",
   lit "LINT_CLANG_DIAGNOSTIC", lit "LINT_CLANG_BUGPRONE", lit "LINT_CLANG_MODERNIZE",
   lit "LINT_CLANG_READABILITY", lit "LINT_CLANG_PERFORMANCE", lit "LINT_CLANG_PORTABILITY",
   lit "LINT_CLANG_ANALYZER", lit "LINT_CPPCHECK_ALL", lit "LINT_CPPCHECK_WARNING",
   lit "LINT_CPPCHECK_STYLE", lit "LINT_CPPCHECK_PERFORMANCE", lit "LINT_CPPCHECK_PORTABILITY",
   lit "LINT_CPPCHECK_INFORMATION", lit "LINT_CPPCHECK_UNUSED", lit "LINT_VALGRIND_MODE",
   lit "LINT_VALGRIND_KINDS", lit "LINT_VALGRIND_ORIGINS"]

/-- `usr_content`: from a line `[GAMES_USR]` on, the lines are appended to one another. -/
def usrContentLoop : Bool → List Bytes → Bytes
  | _, [] => []
  | inUsr, line :: ls =>
    if stripCr line = lit "[GAMES_USR]" then usrContentLoop true ls
    -- `$(printf '\n')` is empty
    else (if inUsr then stripCr line ++ commandSubst [nl] else []) ++ usrContentLoop inUsr ls

/-- What the script keeps of the file there is. -/
def usrContent (file : Option Bytes) : Bytes :=
  match file with
  | none => []
  | some text => usrContentLoop false (readLoop text)

/-- The lines of `games.conf` that are skipped. -/
def isSkipped (line : Bytes) : Bool :=
  line = [] || (lit "#").isPrefixOf line || (lit "/*").isPrefixOf line || (lit "*/").isPrefixOf line

/-- What is printed for the lines of `games.conf`. -/
def gameLines (games : Bytes) : List Bytes :=
  (((readLoop games).map stripCr).filter (!isSkipped ·)).flatMap stepLines

/-- The lines of the settings. -/
def settingLines (vars : ShellVars) : List Bytes :=
  settingVars.flatMap fun key => stepLines (key ++ chr '=' :: vars key)

/-- The terminated lines of the new file. -/
def generatedLines (vars : ShellVars) (games : Bytes) : List Bytes :=
  settingLines vars ++ [[]] ++ stepLines (lit "[GAMES_SYS]") ++ gameLines games ++ [[]] ++
    stepLines (lit "[GAMES_USR]")

/-- The new file. -/
def generated (vars : ShellVars) (games : Bytes) (file : Option Bytes) : Bytes :=
  unlines nl (generatedLines vars games) ++ usrContent file

/-- `config.sh --update`, on the content of `daemon.conf`. A variable that is empty ends the
script in `guard`. -/
def configShUpdate (vars : ShellVars) (games : Bytes) (file : Option Bytes) : Option Bytes :=
  if ∃ key ∈ guardedVars, vars key = [] then file else some (generated vars games file)

theorem configShUpdate_of_set {vars : ShellVars} (hset : ∀ key ∈ guardedVars, vars key ≠ [])
    (games : Bytes) (file : Option Bytes) :
    configShUpdate vars games file = some (generated vars games file) := by
  refine if_neg ?_
  rintro ⟨key, hkey, hnil⟩
  exact hset key hkey hnil

/-- Every variable holds `1`. -/
def onesVars : ShellVars := fun _ => lit "1"

theorem onesVars_ne_nil : ∀ key ∈ guardedVars, onesVars key ≠ [] :=
  fun _ _ => (by decide : lit "1" ≠ [])

/-- The shipped `games.conf`. -/
def gamesConf : Bytes := unlines nl
  [lit "## Curated Game Detection List for the X3D Toggle Project", lit "## `x3d-games.conf`",
   lit "## Each line is a substring matched against /proc/<pid>/comm.",
   lit "## Blank lines and lines starting with '#' are ignored.",
   lit "## System list:  /usr/share/x3d-toggle/games.conf (shipped, updated via " ++
     lit "package)   // this needs to be updated since we packaged it into a single " ++
     lit "file, x3d-toggle.d instead",
   lit "## NOTE: gamemoded is intentionally excluded — it's a persistent daemon.",
   lit "## GameMode detection is handled separately via a runtime status query.", lit "",
   lit "# ── Emulators ───────────────────────────────────────────────", lit "yuzu",
   lit "ryujinx", lit "retroarch", lit "citra", lit "cemu", lit "rpcs3", lit "dolphin-emu",
   lit "xemu", lit "pcsx2", lit "ppsspp", lit "desmume", lit "melonDS", lit "mGBA", lit "",
   lit "# ── Game Engines (process names) ────────────────────────────", lit "Unreal",
   lit "Unity", lit "Godot", lit "CryEngine", lit "Source2", lit "",
   lit "# ── Popular Native Linux Games ──────────────────────────────", lit "hl2_linux",
   lit "csgo_linux64", lit "dota2", lit "minecraft", lit "0ad", lit "supertuxkart", lit "xonotic",
   lit "openarena", lit "wesnoth", lit "factorio", lit "RocketLeague", lit "valheim",
   lit "terraria", lit "hollowknight", lit "celeste", lit "deadcells", lit "hades",
   lit "slay_the_spire", lit "rimworld", lit "stardew", lit "balatro", lit "",
   lit "/*/ end of X3D_GAMES.CONF /*/"]

/-! ### What the lines look like -/

/-- An argument that begins with neither a digit nor a comma has the level 1. -/
theorem stepParts_of_head {str : Bytes} {c : UInt8} (hhead : str.head? = some c)
    (hcomma : c ≠ chr ',') (hdigit : isDigit c = false) : stepParts str = (1, str) := by
  unfold stepParts
  split
  · rfl
  next level content hcut =>
    obtain ⟨-, rfl⟩ := cut_eq_some.mp hcut
    cases level with
    | nil => exact absurd (Option.some.inj hhead).symm hcomma
    | cons d level =>
      obtain rfl : d = c := Option.some.inj hhead
      dsimp only
      rw [hdigit, if_neg Bool.false_ne_true]

theorem head_of_mem_stepLines {str l : Bytes} {c : UInt8} (hhead : str.head? = some c)
    (hcomma : c ≠ chr ',') (hdigit : isDigit c = false) (hl : l ∈ stepLines str) :
    l.head? = some (chr ' ') := by
  unfold stepLines at hl
  rw [stepParts_of_head hhead hcomma hdigit] at hl
  obtain ⟨m, -, rfl⟩ := List.mem_map.mp hl
  dsimp only [stepIndent]
  split <;> rfl

/-- The names of the settings begin with a letter. -/
theorem settingVars_head : ∀ key ∈ settingVars, ∃ c, key.head? = some c ∧ c ≠ chr ',' ∧
    isDigit c = false := by
  decide

/-- **Layout.** Every line of the settings is indented. -/
theorem head_of_mem_settingLines {vars : ShellVars} {l : Bytes} (hl : l ∈ settingLines vars) :
    l.head? = some (chr ' ') := by
  obtain ⟨key, hkey, hl⟩ := List.mem_flatMap.mp hl
  obtain ⟨c, hhead, hcomma, hdigit⟩ := settingVars_head key hkey
  refine head_of_mem_stepLines ?_ hcomma hdigit hl
  rw [List.head?_append, hhead]
  rfl

/-- The shipped games need no layout. -/
theorem head_of_mem_gameLines_gamesConf : ∀ l ∈ gameLines gamesConf, l.head? = some (chr ' ') := by
  decide +kernel

/-- A printed line has no byte its argument could not give it. -/
theorem notMem_of_mem_stepLines {str l : Bytes} (hl : l ∈ stepLines str) :
    nl ∉ l ∧ (0 : UInt8) ∉ l := by
  unfold stepLines at hl
  obtain ⟨m, hm, rfl⟩ := List.mem_map.mp hl
  have hindent : ∀ c ∈ stepIndent (stepParts str).1 (stepParts str).2, c = chr ' ' :=
    fun c hc => List.eq_of_mem_replicate hc
  refine ⟨fun hc => ?_, fun hc => ?_⟩
  · rcases List.mem_append.mp hc with hc | hc
    · exact absurd (hindent _ hc) (by decide)
    · exact notMem_of_mem_lines hm hc
  · rcases List.mem_append.mp hc with hc | hc
    · exact absurd (hindent _ hc) (by decide)
    · have hout := List.IsPrefix.mem (mem_of_mem_lines hm hc) (List.rdropWhile_prefix _ _)
      exact absurd rfl (of_decide_eq_true (List.mem_filter.mp hout).2)

theorem notMem_of_mem_generatedLines {vars : ShellVars} {games l : Bytes}
    (hl : l ∈ generatedLines vars games) : nl ∉ l ∧ (0 : UInt8) ∉ l := by
  simp only [generatedLines, settingLines, gameLines, List.mem_append, List.mem_singleton,
    List.mem_flatMap] at hl
  rcases hl with ((((⟨_, -, hl⟩ | rfl) | hl) | ⟨_, -, hl⟩) | rfl) | hl
  any_goals exact notMem_of_mem_stepLines hl
  all_goals exact ⟨List.not_mem_nil, List.not_mem_nil⟩

theorem notMem_of_mem_readLoop {file l : Bytes} (hl : l ∈ readLoop file) :
    nl ∉ l ∧ (0 : UInt8) ∉ l := by
  have hmem : l ∈ lines nl (file.filter (· ≠ 0)) := by
    unfold readLoop at hl
    dsimp only at hl
    split at hl
    · exact hl
    · exact List.mem_of_mem_dropLast hl
  refine ⟨notMem_of_mem_lines hmem, fun hc => ?_⟩
  exact absurd rfl (of_decide_eq_true (List.mem_filter.mp (mem_of_mem_lines hmem hc)).2)

theorem mem_of_mem_stripCr {l : Bytes} {c : UInt8} (hc : c ∈ stripCr l) : c ∈ l := by
  unfold stripCr at hc
  split at hc
  · exact List.mem_of_mem_dropLast hc
  · exact hc

/-- What is kept comes from the lines read. -/
theorem exists_mem_of_mem_usrContentLoop {inUsr : Bool} {ls : List Bytes} {c : UInt8}
    (hc : c ∈ usrContentLoop inUsr ls) : ∃ l ∈ ls, c ∈ l := by
  induction ls generalizing inUsr with
  | nil => exact absurd hc List.not_mem_nil
  | cons line ls ih =>
    rw [usrContentLoop] at hc
    split at hc
    · obtain ⟨l, hl, hcl⟩ := ih hc
      exact ⟨l, List.mem_cons_of_mem line hl, hcl⟩
    · rcases List.mem_append.mp hc with hc | hc
      · cases inUsr with
        | false => exact absurd hc List.not_mem_nil
        | true =>
          have hsep : commandSubst [nl] = [] := by decide
          rw [if_pos rfl, hsep, List.append_nil] at hc
          exact ⟨line, List.mem_cons_self, mem_of_mem_stripCr hc⟩
      · obtain ⟨l, hl, hcl⟩ := ih hc
        exact ⟨l, List.mem_cons_of_mem line hl, hcl⟩

/-- The user's part is one unterminated line. -/
theorem notMem_usrContent (file : Option Bytes) :
    nl ∉ usrContent file ∧ (0 : UInt8) ∉ usrContent file := by
  cases file with
  | none => exact ⟨List.not_mem_nil, List.not_mem_nil⟩
  | some text =>
    refine ⟨fun hc => ?_, fun hc => ?_⟩ <;>
    · obtain ⟨l, hl, hcl⟩ := exists_mem_of_mem_usrContentLoop hc
      first
      | exact (notMem_of_mem_readLoop hl).1 hcl
      | exact (notMem_of_mem_readLoop hl).2 hcl

theorem zero_notMem_generated (vars : ShellVars) (games : Bytes) (file : Option Bytes) :
    (0 : UInt8) ∉ generated vars games file := by
  intro hc
  rcases List.mem_append.mp hc with hc | hc
  · obtain ⟨l, hl, hc⟩ := List.mem_flatMap.mp hc
    rcases List.mem_append.mp hc with hc | hc
    · exact (notMem_of_mem_generatedLines hl).2 hc
    · exact absurd (List.mem_singleton.mp hc) (by decide)
  · exact (notMem_usrContent file).2 hc

/-- The lines of the new file. -/
theorem lines_generated (vars : ShellVars) (games : Bytes) (file : Option Bytes) :
    lines nl (generated vars games file) =
      generatedLines vars games ++ lines nl (usrContent file) :=
  lines_unlines_append (fun _ hl => (notMem_of_mem_generatedLines hl).1) _

end X3D
