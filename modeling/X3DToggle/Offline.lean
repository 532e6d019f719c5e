import X3DToggle.Fallback

/-!
# Online and offline

A configuration command changes `daemon.conf` in one of two ways: the daemon updates the file
with the key and the value it received, or the client updates it with those the user typed. The
two agree on a `SET_CONFIG` whose payload arrives as it was rendered; then the files are the
same. If the payload is cut, by its buffer or at a line break, the offline file is longer, and
some file shows the difference: `config_load` reads 4095 bytes, so a setting near the end is
seen in one file and not in the other (`exists_load_ne_of_shift`).

`ADVANCED_SET` never agrees. The daemon writes the key of `daemon.conf` that belongs to the
tunable, and the client the name of the tunable itself, which no load looks for.
-/

namespace X3D

/-- The configuration commands with a key. -/
def keyedHandlers : List (List Bytes → List CliAction) :=
  [cliConfigInterval, cliConfigThreshold, cliConfigFallback, cliConfigDetection, cliConfigPolling,
   cliConfigEbpf, cliConfigServer, cliAdvancedConfig]

/-- A command with the daemon online: the daemon after it, if it says `OK` to every request. -/
def onlineRun (B : Build) (env : RequestEnv) : List CliAction → Daemon → Option Daemon
  | [], d => some d
  | .send _ :: acts, d => onlineRun B env acts d
  | .configWrite q _ :: acts, d =>
    match socketHandle B env q.text d with
    | (some reply, d) => if strncmp reply ok 2 then onlineRun B env acts d else none
    | (none, _) => none

/-- A command with the daemon offline: the file after it. -/
def offlineRun (env : UpdateEnv) : List CliAction → Option Bytes → Option Bytes
  | [], file => file
  | .configWrite _ (some (key, val)) :: acts, file =>
    offlineRun env acts (configUpdate env key val file)
  | _ :: acts, file => offlineRun env acts file

/-- **Agreement.** Whatever is in the file, a load gives every setting the same value after the
command with the daemon online as after the command with the daemon offline. -/
def PathsAgree (B : Build) (acts : List CliAction) : Prop :=
  ∀ (env : RequestEnv) (d d' : Daemon), onlineRun B env acts d = some d' →
    ∀ (load : LoadEnv) (prior : DaemonConfig),
      configLoad B load d'.conf prior =
        configLoad B load (offlineRun env.update acts d.conf) prior

/-- **A command that agrees.** A payload for `SET_CONFIG` fits its buffer and has no line break;
an `ADVANCED_SET` is for a key the daemon does not know. -/
def Unharmed : CliAction → Prop
  | .send _ => True
  | .configWrite q _ =>
    match dispatch (received q.text) with
    | some (.advancedSet, n) => ∀ key val,
      strchr ((received q.text).drop n) (chr ' ') = some (key, val) →
        Daemon.advancedTable.lookup key = none
    | _ => q.Fits ∧ chr '\r' ∉ q.payload ∧ nl ∉ q.payload

/-! ### What a load sees -/

/-- A load reads 4095 bytes. -/
theorem configLoad_congr {s s' : Bytes} (h : s.take 4095 = s'.take 4095) (B : Build)
    (load : LoadEnv) (prior : DaemonConfig) :
    configLoad B load (some s) prior = configLoad B load (some s') prior := by
  have hread : readFile load.openRd (some s) 4095 = readFile load.openRd (some s') 4095 := by
    show (if _ then some (s.take 4095) else none) = if _ then some (s'.take 4095) else none
    rw [h]
  unfold configLoad
  rw [hread]

/-- The key that tells the files apart; no command sets it. -/
def tailKey : Bytes := lit "SERVER_SSH"

/-- A line of padding. -/
def padding (n : ℕ) : Bytes := List.replicate n (chr '#')

/-- The end of a file: a comment, and a line that assigns one character. -/
def tailLines (n : ℕ) (u : UInt8) : List Bytes := [padding n, assignment tailKey [u]]

theorem lookup_tailKey : configLoadTable.lookup tailKey = some (.copy .serverSsh 31 (by decide)) :=
  rfl

theorem tailKey_clean : tailKey.length = 10 ∧ chr '=' ∉ tailKey ∧ nl ∉ tailKey ∧
    (0 : UInt8) ∉ tailKey := by
  decide

theorem notMem_padding {c : UInt8} (hc : c ≠ chr '#') (n : ℕ) : c ∉ padding n :=
  fun h => hc (List.eq_of_mem_replicate h)

/-- The comment is no assignment. -/
theorem entryOf_padding {key : Bytes} (hkey : chr '=' ∉ key) (n : ℕ) :
    entryOf key (padding n) = none := by
  by_contra hsome
  obtain ⟨val, hval⟩ := Option.ne_none_iff_exists'.mp hsome
  have hline := (entryOf_eq_some hkey).mp hval
  have hmem : chr '=' ∈ padding n := by
    rw [hline]
    simp
  exact notMem_padding (by decide) n hmem

theorem isKeyLine_padding (key : Bytes) (n : ℕ) : isKeyLine key (padding n) = false := by
  refine Bool.eq_false_of_not_eq_true fun h => ?_
  obtain ⟨v, hv⟩ := isKeyLine_iff.mp h
  have hmem : chr '=' ∈ padding n := by
    rw [hv]
    simp [assignment]
  exact notMem_padding (by decide) n hmem

/-- A file of the lines `X` with the end behind them, up to the last character. -/
def beforeTail (X : List Bytes) (n : ℕ) : Bytes :=
  unlines nl X ++ (padding n ++ nl :: (tailKey ++ [chr '=']))

/-- The whole file. -/
def tailed (X : List Bytes) (n : ℕ) (u : UInt8) : Bytes := unlines nl (X ++ tailLines n u)

theorem tailed_eq (X : List Bytes) (n : ℕ) (u : UInt8) :
    tailed X n u = beforeTail X n ++ [u, nl] := by
  simp [tailed, beforeTail, unlines, tailLines, assignment]

theorem length_beforeTail (X : List Bytes) (n : ℕ) :
    (beforeTail X n).length = (unlines nl X).length + n + 12 := by
  simp only [beforeTail, List.length_append, List.length_cons, List.length_nil, padding,
    List.length_replicate, tailKey_clean.1]
  omega

/-- If the lines are too long, a load sees nothing of the last character. -/
theorem take_tailed_of_le {X : List Bytes} {n : ℕ} (h : 4095 ≤ (unlines nl X).length + n + 12)
    (u u' : UInt8) : (tailed X n u).take 4095 = (tailed X n u').take 4095 := by
  have hle : 4095 ≤ (beforeTail X n).length := (length_beforeTail X n).symm ▸ h
  rw [tailed_eq, tailed_eq, List.take_append_of_le_length hle, List.take_append_of_le_length hle]

/-- If they are just as long as they may be, a load sees it. -/
theorem fileValue_tailed {X : List Bytes} {n : ℕ} (hX : ∀ l ∈ X, nl ∉ l ∧ (0 : UInt8) ∉ l)
    (hlen : (unlines nl X).length + n + 13 = 4095) {u : UInt8} (hz : u ≠ 0) (hnl : u ≠ nl) :
    fileValue true (some (tailed X n u)) tailKey = some [u] := by
  obtain ⟨-, heq, hknl, hkz⟩ := tailKey_clean
  set full := X ++ [padding n] with hfull
  have hlines : ∀ l ∈ full, nl ∉ l ∧ (0 : UInt8) ∉ l := by
    intro l hl
    rcases List.mem_append.mp hl with hl | hl
    · exact hX l hl
    · rw [List.mem_singleton.mp hl]
      exact ⟨notMem_padding (by decide) n, notMem_padding (by decide) n⟩
  have hlast : nl ∉ assignment tailKey [u] ∧ (0 : UInt8) ∉ assignment tailKey [u] :=
    ⟨notMem_assignment hknl (by decide) (by simpa using hnl.symm),
      notMem_assignment hkz (by decide) (by simpa using hz.symm)⟩
  -- a load reads up to the last character, and not the break behind it
  have htake : (tailed X n u).take 4095 = unlines nl full ++ assignment tailKey [u] := by
    have hcut : (beforeTail X n ++ [u]).length = 4095 := by
      rw [List.length_append, length_beforeTail, List.length_singleton]
      exact hlen
    have hsplit : tailed X n u = (beforeTail X n ++ [u]) ++ [nl] := by
      rw [tailed_eq]
      simp
    rw [hsplit, ← hcut, List.take_left]
    simp [hfull, beforeTail, unlines, assignment]
  have hclean : (0 : UInt8) ∉ unlines nl full ++ assignment tailKey [u] := by
    intro h
    rcases List.mem_append.mp h with h | h
    · obtain ⟨l, hl, hcl⟩ := List.mem_flatMap.mp h
      rcases List.mem_append.mp hcl with hcl | hcl
      · exact (hlines l hl).2 hcl
      · exact absurd (List.mem_singleton.mp hcl) (by decide)
    · exact hlast.2 h
  rw [fileValue_some, htake, cstr_of_notMem hclean,
    lines_unlines_append fun l hl => (hlines l hl).1, lines_of_notMem hlast.1,
    if_neg (by simp [assignment]), lastSome_append, lastSome_cons, lastSome_nil, Option.none_or,
    entryOf_assignment heq]
  rfl

/-- **Shifted files.** If one command leaves lines behind which a load still sees a setting, and
another leaves longer ones, then for one of two values of that setting the loads differ. -/
theorem exists_load_ne_of_shift {X X' : List Bytes} {n : ℕ}
    (hX : ∀ l ∈ X, nl ∉ l ∧ (0 : UInt8) ∉ l) (hlen : (unlines nl X).length + n + 13 = 4095)
    (hlonger : (unlines nl X).length < (unlines nl X').length) (B : Build) :
    ∃ u ∈ [chr 'a', chr 'b'],
      configLoad B ⟨true, fun _ => true⟩ (some (tailed X n u)) DaemonConfig.zero ≠
        configLoad B ⟨true, fun _ => true⟩ (some (tailed X' n u)) DaemonConfig.zero := by
  by_contra hsame
  push Not at hsame
  -- the first load sees the value
  have hget {u : UInt8} (hu : u ∈ [chr 'a', chr 'b']) :
      (configLoad B ⟨true, fun _ => true⟩ (some (tailed X n u)) DaemonConfig.zero).get
        (.str .serverSsh) = .str [u] := by
    have hclean : u ≠ 0 ∧ u ≠ nl := by
      have hall : ∀ u ∈ [chr 'a', chr 'b'], u ≠ 0 ∧ u ≠ nl := by
        decide +kernel
      exact hall u hu
    have hload := configLoad_get lookup_tailKey B ⟨true, fun _ => true⟩
      (some (tailed X n u)) DaemonConfig.zero
    rw [fileValue_tailed hX hlen hclean.1 hclean.2] at hload
    exact hload
  -- the second one does not
  have hlong : 4095 ≤ (unlines nl X').length + n + 12 := by omega
  have hblind := configLoad_congr (take_tailed_of_le hlong (chr 'a') (chr 'b')) B
    ⟨true, fun _ => true⟩ DaemonConfig.zero
  have ha := hget (u := chr 'a') (by simp)
  have hb := hget (u := chr 'b') (by simp)
  rw [hsame _ (by simp), hblind, ← hsame _ (by simp), hb] at ha
  exact absurd ha (by decide)

/-! ### What an update leaves of such a file -/

/-- A line after an update that finds its key. -/
def replaced (key val l : Bytes) : Bytes := if isKeyLine key l then assignment key val else l

theorem tailLines_not_keyLine {key : Bytes} (hkey : chr '=' ∉ key) (hne : key ≠ tailKey) (n : ℕ)
    (u : UInt8) : ∀ l ∈ tailLines n u, isKeyLine key l = false := by
  intro l hl
  rcases List.mem_cons.mp hl with rfl | hl
  · exact isKeyLine_padding key n
  · rw [List.mem_singleton.mp hl]
    exact isKeyLine_assignment_of_ne hne.symm hkey tailKey_clean.2.1 _

theorem notMem_tailed {X : List Bytes} {n : ℕ} {u : UInt8}
    (hX : ∀ l ∈ X, nl ∉ l ∧ (0 : UInt8) ∉ l) (hz : u ≠ 0) (hnl : u ≠ nl) :
    ∀ l ∈ X ++ tailLines n u, nl ∉ l ∧ (0 : UInt8) ∉ l := by
  obtain ⟨-, -, hknl, hkz⟩ := tailKey_clean
  intro l hl
  rcases List.mem_append.mp hl with hl | hl
  · exact hX l hl
  · rcases List.mem_cons.mp hl with rfl | hl
    · exact ⟨notMem_padding (by decide) n, notMem_padding (by decide) n⟩
    · rw [List.mem_singleton.mp hl]
      exact ⟨notMem_assignment hknl (by decide) (by simpa using hnl.symm),
        notMem_assignment hkz (by decide) (by simpa using hz.symm)⟩

/-- An update of a file of clean lines on which every call succeeds. -/
theorem configUpdate_unlines {key val : Bytes} {X : List Bytes}
    (hX : ∀ l ∈ X, nl ∉ l ∧ (0 : UInt8) ∉ l) (hne : X ≠ []) (hlen : (unlines nl X).length ≤ 8191) :
    configUpdate (RequestEnv.allOk).update key val (some (unlines nl X)) =
      some ((unlines nl (placed key val X)).take 8191) := by
  have hnil : unlines nl X ≠ [] := by
    obtain ⟨l, ls, rfl⟩ := List.exists_cons_of_ne_nil hne
    rw [unlines_cons]
    exact List.append_ne_nil_of_right_ne_nil _ (List.cons_ne_nil _ _)
  refine (configUpdate_allOk hnil (zero_notMem_unlines fun l hl => (hX l hl).2) hlen).trans ?_
  rw [lines_unlines fun l hl => (hX l hl).1]

/-- An update of a key that is among the lines. -/
theorem configUpdate_tailed {key val : Bytes} {X : List Bytes} {n : ℕ} {u : UInt8}
    (hkey : key ∈ configKeys) (hX : ∀ l ∈ X, nl ∉ l ∧ (0 : UInt8) ∉ l)
    (hany : ∃ l ∈ X, isKeyLine key l = true) (hz : u ≠ 0) (hnl : u ≠ nl)
    (hlen : (tailed X n u).length ≤ 8191) :
    configUpdate (RequestEnv.allOk).update key val (some (tailed X n u)) =
      some ((tailed (X.map (replaced key val)) n u).take 8191) := by
  obtain ⟨-, -, -, -, heq, -⟩ := configKeys_clean key hkey
  have hne : key ≠ tailKey := by
    have hall : tailKey ∉ configKeys := by decide
    rintro rfl
    exact hall hkey
  have hplaced : placed key val (X ++ tailLines n u) =
      X.map (replaced key val) ++ tailLines n u := by
    obtain ⟨l, hl, hkl⟩ := hany
    have htail : (tailLines n u).map (replaced key val) = tailLines n u := by
      refine (List.map_congr_left fun l hl => ?_).trans (List.map_id _)
      exact if_neg (by simp [tailLines_not_keyLine heq hne n u l hl])
    unfold placed
    rw [if_pos (List.any_eq_true.mpr ⟨l, List.mem_append_left _ hl, hkl⟩), List.map_append]
    exact congrArg _ htail
  unfold tailed at hlen ⊢
  rw [configUpdate_unlines (notMem_tailed hX hz hnl) (by simp [tailLines]) hlen, hplaced]

/-! ### The commands -/

/-- What a command with a key asks for. -/
inductive Invocation : List CliAction → Prop where
  | nothing : Invocation []
  | get (q : CliRequest) : Invocation [.send q]
  | one {q : CliRequest} {key val : Bytes} {cap : ℕ} (h : SetCommand q key val cap)
    (hz : (0 : UInt8) ∉ val) : Invocation [.configWrite q (some (key, val))]
  | two {q q' : CliRequest} {key val key' val' : Bytes} {cap cap' : ℕ}
    (h : SetCommand q key val cap) (h' : SetCommand q' key' val' cap')
    (hz : (0 : UInt8) ∉ val) (hz' : (0 : UInt8) ∉ val') (hne : key ≠ key')
    (hlen : val.length ≤ 127) (hlen' : val'.length ≤ 127) :
    Invocation [.configWrite q (some (key, val)), .configWrite q' (some (key', val'))]
  | advanced {q : CliRequest} {key val : Bytes}
    (htext : q.text = (lit "ADVANCED_SET " ++ (key ++ chr ' ' :: val)).take 255) :
    Invocation [.configWrite q (some (key, val))]

theorem invocation_setConfigArg {key fmt : Bytes} {argv : List Bytes} (hkey : key ∈ configKeys)
    (hfmt : fmt = lit "SET_CONFIG " ++ (key ++ lit " %s"))
    (hargv : ∀ a ∈ argv, (0 : UInt8) ∉ a) : Invocation (setConfigArg key fmt argv) := by
  unfold setConfigArg
  cases hval : argv[2]? with
  | none => exact .nothing
  | some val =>
    exact .one (setCommand_setConfig hkey hfmt (by omega) (by omega))
      (hargv val (List.mem_of_getElem? hval))

theorem invocation_cliConfigServer {argv : List Bytes} (hargv : ∀ a ∈ argv, (0 : UInt8) ∉ a) :
    Invocation (cliConfigServer argv) := by
  unfold cliConfigServer
  cases harg : argv[2]? with
  | none => exact .nothing
  | some arg =>
    obtain ⟨hip, hport⟩ := zero_notMem_serverArgs hargv (List.mem_of_getElem? harg)
    have haddress : SetCommand ⟨lit "SET_CONFIG", [lit "SERVER_ADDRESS", (serverArgs arg argv).1],
        some 256, lit "SET_CONFIG SERVER_ADDRESS %s", [(serverArgs arg argv).1.take 127]⟩
        (lit "SERVER_ADDRESS") ((serverArgs arg argv).1.take 127) 255 :=
      setCommand_setConfig (by decide) (by decide) (by omega) (by omega)
    have hserverPort : SetCommand ⟨lit "SET_CONFIG", [lit "SERVER_PORT", (serverArgs arg argv).2],
        some 256, lit "SET_CONFIG SERVER_PORT %s", [(serverArgs arg argv).2.take 31]⟩
        (lit "SERVER_PORT") ((serverArgs arg argv).2.take 31) 255 :=
      setCommand_setConfig (by decide) (by decide) (by omega) (by omega)
    have hz : (0 : UInt8) ∉ (serverArgs arg argv).1.take 127 :=
      fun h => hip (List.mem_of_mem_take h)
    have hz' : (0 : UInt8) ∉ (serverArgs arg argv).2.take 31 :=
      fun h => hport (List.mem_of_mem_take h)
    dsimp only
    split
    · exact .one haddress hz
    · refine .two haddress hserverPort hz hz' (by decide) (List.length_take_le _ _) ?_
      exact (List.length_take_le _ _).trans (by omega)

theorem invocation_cliAdvancedConfig (argv : List Bytes) : Invocation (cliAdvancedConfig argv) := by
  unfold cliAdvancedConfig
  cases argv[2]? with
  | none => exact .nothing
  | some op =>
    cases argv[3]? with
    | none => exact .nothing
    | some key =>
      dsimp only
      split
      · exact .get _
      · split
        · cases argv[4]? with
          | none => exact .nothing
          | some val => exact .advanced (text_advancedSet key val)
        · exact .nothing

/-- **The invocations.** -/
theorem invocation_of_mem {handler : List Bytes → List CliAction} {argv : List Bytes}
    (hhandler : handler ∈ keyedHandlers) (hargv : ∀ a ∈ argv, (0 : UInt8) ∉ a) :
    Invocation (handler argv) := by
  have hall : ∀ handler ∈ keyedHandlers, Invocation (handler argv) := by
    simp only [keyedHandlers, List.forall_mem_cons]
    refine ⟨invocation_setConfigArg (by decide) (by decide) hargv,
      invocation_setConfigArg (by decide) (by decide) hargv,
      invocation_setConfigArg (by decide) (by decide) hargv,
      invocation_setConfigArg (by decide) (by decide) hargv, ?_, ?_,
      invocation_cliConfigServer hargv, invocation_cliAdvancedConfig argv,
      fun _ h => absurd h List.not_mem_nil⟩
    · exact .two (setCommand_const (by decide) (by decide) (by decide))
        (setCommand_const (by decide) (by decide) (by decide))
        (by decide) (by decide) (by decide) (by decide)
        (by decide)
    · exact .two (setCommand_const (by decide) (by decide) (by decide))
        (setCommand_const (by decide) (by decide) (by decide))
        (by decide) (by decide) (by decide) (by decide)
        (by decide)
  exact hall handler hhandler

/-! ### What arrives of a value -/

section

variable {q : CliRequest} {key val : Bytes} {cap : ℕ} {B : Build}

theorem arrivedValue_isPrefixOf (key val : Bytes) (cap : ℕ) : arrivedValue key val cap <+: val :=
  (List.takeWhile_prefix _).trans ((List.takeWhile_prefix _).trans (List.take_prefix _ _))

theorem notMem_arrivedValue (key val : Bytes) (cap : ℕ) :
    (0 : UInt8) ∉ arrivedValue key val cap ∧ chr '\r' ∉ arrivedValue key val cap ∧
      nl ∉ arrivedValue key val cap := by
  unfold arrivedValue cutAny
  refine ⟨fun h => ?_, fun h => ?_, fun h => ?_⟩
  · exact zero_notMem_cstr _ ((List.takeWhile_sublist _).subset h)
  · simpa using List.mem_takeWhile_imp h
  · simpa using List.mem_takeWhile_imp h

theorem length_arrivedValue_le (key val : Bytes) (cap : ℕ) :
    (arrivedValue key val cap).length ≤ cap - (key.length + 12) :=
  calc (arrivedValue key val cap).length
    _ ≤ (cstr (val.take (cap - (key.length + 12)))).length := (List.takeWhile_sublist _).length_le
    _ ≤ (val.take (cap - (key.length + 12))).length := (List.takeWhile_sublist _).length_le
    _ ≤ cap - (key.length + 12) := List.length_take_le _ _

/-- A `SET_CONFIG` is unharmed if its value arrives. -/
theorem SetCommand.unharmed_iff {entry : Option (Bytes × Bytes)} (h : SetCommand q key val cap)
    (hz : (0 : UInt8) ∉ val) :
    Unharmed (.configWrite q entry) ↔ arrivedValue key val cap = val := by
  obtain ⟨-, -, hkz, -, -, hkcr, hknl, hklen⟩ := configKeys_clean key h.key_mem
  have hhead : (lit "SET_CONFIG ").length = 11 ∧ chr '\r' ∉ lit "SET_CONFIG " ∧
      nl ∉ lit "SET_CONFIG " := by
    decide
  have hdispatch : dispatch (received q.text) = some (.setConfig, 11) := by
    rw [h.received_eq, dispatch_append (by decide)]
    decide
  have hclean {c : UInt8} (hc : c ∉ lit "SET_CONFIG " ∧ c ∉ key ∧ c ≠ chr ' ') :
      c ∉ q.payload ↔ c ∉ val := by
    rw [h.payload]
    simp [hc]
  -- what the client may render is what a datagram holds
  have hfits : q.Fits ↔ val.length ≤ cap - (key.length + 12) := by
    have hlow := h.low
    rw [h.fits, h.payload, List.length_append, List.length_append, List.length_cons, hhead.1]
    omega
  show (match dispatch (received q.text) with
    | some (.advancedSet, n) => _
    | _ => q.Fits ∧ chr '\r' ∉ q.payload ∧ nl ∉ q.payload) ↔ _
  rw [hdispatch]
  show q.Fits ∧ chr '\r' ∉ q.payload ∧ nl ∉ q.payload ↔ _
  rw [hfits, hclean ⟨hhead.2.1, hkcr, by decide⟩, hclean ⟨hhead.2.2, hknl, by decide⟩]
  constructor
  · -- the daemon cuts at a break, and there is none
    rintro ⟨hlen, hcr, hnl⟩
    unfold arrivedValue cutAny
    rw [List.take_of_length_le hlen, cstr_of_notMem hz, List.takeWhile_eq_self_iff]
    intro c hc
    rw [decide_eq_true_iff, List.mem_cons, List.mem_singleton, not_or]
    exact ⟨fun heq => hcr (heq ▸ hc), fun heq => hnl (heq ▸ hc)⟩
  · intro heq
    obtain ⟨-, hcr, hnl⟩ := notMem_arrivedValue key val cap
    rw [heq] at hcr hnl
    refine ⟨?_, hcr, hnl⟩
    calc val.length = (arrivedValue key val cap).length := by rw [heq]
      _ ≤ cap - (key.length + 12) := length_arrivedValue_le key val cap

/-- The daemon answers `OK` to a `SET_CONFIG` and updates the file with what arrived. -/
theorem SetCommand.onlineRun_cons (h : SetCommand q key val cap) (env : RequestEnv)
    (entry : Option (Bytes × Bytes)) (acts : List CliAction) (d : Daemon) :
    ∃ d', d'.conf = configUpdate env.update key (arrivedValue key val cap) d.conf ∧
      onlineRun B env (.configWrite q entry :: acts) d = onlineRun B env acts d' := by
  obtain ⟨-, -, -, hspace, -⟩ := configKeys_clean key h.key_mem
  obtain ⟨d', hd', hconf, -⟩ := socketHandle_setConfig hspace h.received_eq B env d
  refine ⟨d', hconf, ?_⟩
  have hok : strncmp ok ok 2 = true := by decide
  rw [onlineRun, hd']
  simp only [hok, if_true]

end

/-! ### Commands that agree -/

section

variable {B : Build} {acts : List CliAction}

/-- The daemon does not answer `OK` to an `ADVANCED_SET` of a key it does not know. -/
theorem onlineRun_advanced_none {q : CliRequest} {key val : Bytes}
    (htext : q.text = (lit "ADVANCED_SET " ++ (key ++ chr ' ' :: val)).take 255)
    (hunknown : Unharmed (.configWrite q (some (key, val)))) (env : RequestEnv) (d : Daemon) :
    onlineRun B env [.configWrite q (some (key, val))] d = none := by
  obtain ⟨arg, harg, -, hdispatch, hdrop⟩ := received_advancedSet htext
  have hnot : ¬((d.handleAdvancedSet env arg).1.take 2 = ok) := by
    rw [reply_advancedSet]
    rintro ⟨k, v, t, hcut, ht, -⟩
    have hnone : ∀ key val, strchr ((received q.text).drop 13) (chr ' ') = some (key, val) →
        Daemon.advancedTable.lookup key = none := by
      simpa only [Unharmed, hdispatch] using hunknown
    have hk := hnone k v (by rw [hdrop, hcut])
    exact absurd (ht.symm.trans hk) (by simp)
  have hok : ok.take 2 = ok := by decide
  rw [onlineRun, socketHandle_of_verb .advancedSet harg (by decide) (by decide)
    (by decide)]
  have hreply : strncmp (d.handleAdvancedSet env arg).1 ok 2 = false := by
    unfold strncmp
    rw [hok]
    exact beq_eq_false_iff_ne.mpr hnot
  show (if strncmp (d.handleAdvancedSet env arg).1 ok 2 then _ else none) = none
  rw [hreply, if_neg Bool.false_ne_true]

/-- **Unharmed commands agree.** -/
theorem pathsAgree_of_unharmed (h : Invocation acts) (hunharmed : ∀ act ∈ acts, Unharmed act) :
    PathsAgree B acts := by
  intro env d d' hrun load prior
  -- the settings agree because the files do
  suffices d'.conf = offlineRun env.update acts d.conf by rw [this]
  cases h with
  | nothing =>
    obtain rfl := Option.some.inj hrun
    rfl
  | get q =>
    obtain rfl := Option.some.inj hrun
    rfl
  | one h hz =>
    have hval := (h.unharmed_iff hz).mp (hunharmed _ List.mem_cons_self)
    obtain ⟨d₁, hconf, hrun₁⟩ := h.onlineRun_cons env _ [] d
    rw [hrun₁] at hrun
    obtain rfl := Option.some.inj hrun
    rw [hconf, hval]
    rfl
  | two h h' hz hz' =>
    have hval := (h.unharmed_iff hz).mp (hunharmed _ List.mem_cons_self)
    have hval' := (h'.unharmed_iff hz').mp
      (hunharmed _ (List.mem_cons_of_mem _ List.mem_cons_self))
    obtain ⟨d₁, hconf, hrun₁⟩ := h.onlineRun_cons env _ _ d
    obtain ⟨d₂, hconf', hrun₂⟩ := h'.onlineRun_cons env _ [] d₁
    rw [hrun₁, hrun₂] at hrun
    obtain rfl := Option.some.inj hrun
    rw [hconf', hconf, hval, hval']
    rfl
  | advanced htext =>
    -- a tunable the daemon does not know has no online run
    rw [onlineRun_advanced_none htext (hunharmed _ List.mem_cons_self)] at hrun
    exact absurd hrun (by simp)

/-! ### Commands that do not -/

theorem length_tailed (X : List Bytes) (n : ℕ) (u : UInt8) :
    (tailed X n u).length = (unlines nl X).length + n + 14 := by
  rw [tailed_eq, List.length_append, length_beforeTail]
  rfl

/-- The buffer of an update cuts behind what a load reads. -/
theorem configLoad_take (B : Build) (load : LoadEnv) (prior : DaemonConfig) (s : Bytes) :
    configLoad B load (some (s.take 8191)) prior = configLoad B load (some s) prior :=
  configLoad_congr (by rw [List.take_take, min_eq_left (by omega)]) B load prior

theorem replaced_assignment (key val val' : Bytes) :
    replaced key val (assignment key val') = assignment key val :=
  if_pos (isKeyLine_assignment key val')

theorem length_unlines_cons (l : Bytes) (ls : List Bytes) :
    (unlines nl (l :: ls)).length = l.length + 1 + (unlines nl ls).length := by
  rw [unlines_cons, List.length_append, List.length_cons]
  omega

theorem length_assignment (key val : Bytes) :
    (assignment key val).length = key.length + 1 + val.length := by
  rw [assignment, List.length_append, List.length_cons]
  omega

/-- Two different answers to the load contradict agreement. -/
theorem not_pathsAgree_of_shift (X₀ X X' : List Bytes) (n : ℕ)
    (hX : ∀ l ∈ X, nl ∉ l ∧ (0 : UInt8) ∉ l) (hlen : (unlines nl X).length + n + 13 = 4095)
    (hlonger : (unlines nl X).length < (unlines nl X').length)
    (honline : ∀ u ∈ [chr 'a', chr 'b'], ∀ d : Daemon, d.conf = some (tailed X₀ n u) →
      ∃ d', onlineRun B .allOk acts d = some d' ∧ d'.conf = some ((tailed X n u).take 8191))
    (hoffline : ∀ u ∈ [chr 'a', chr 'b'],
      offlineRun (RequestEnv.allOk).update acts (some (tailed X₀ n u)) =
        some ((tailed X' n u).take 8191)) :
    ¬PathsAgree B acts := by
  intro hagree
  obtain ⟨u, hu, hne⟩ := exists_load_ne_of_shift hX hlen hlonger B
  obtain ⟨d', hrun, hconf⟩ := honline u hu (boot B (.allOk (some (tailed X₀ n u))))
    (boot_conf _ _)
  have hload := hagree .allOk _ d' hrun ⟨true, fun _ => true⟩ DaemonConfig.zero
  rw [hconf, configLoad_take, boot_conf] at hload
  refine hne (hload.trans ?_)
  show configLoad B _ (offlineRun _ acts (some (tailed X₀ n u))) _ = _
  rw [hoffline u hu, configLoad_take]

/-- The characters used are proper. -/
theorem tailChars_clean : ∀ u ∈ [chr 'a', chr 'b'], u ≠ 0 ∧ u ≠ nl := by
  decide +kernel

theorem notMem_assignment_pair {key val : Bytes} (hkey : key ∈ configKeys)
    (hval : nl ∉ val ∧ (0 : UInt8) ∉ val) :
    nl ∉ assignment key val ∧ (0 : UInt8) ∉ assignment key val := by
  obtain ⟨-, -, hkz, -, -, -, hknl, -⟩ := configKeys_clean key hkey
  exact ⟨notMem_assignment hknl (by decide) hval.1, notMem_assignment hkz (by decide) hval.2⟩

/-- A value that arrives harmed is shorter. -/
theorem length_arrivedValue_lt {key val : Bytes} {cap : ℕ} (h : arrivedValue key val cap ≠ val) :
    (arrivedValue key val cap).length < val.length :=
  lt_of_le_of_ne (arrivedValue_isPrefixOf key val cap).length_le fun hlen =>
    h ((arrivedValue_isPrefixOf key val cap).eq_of_length hlen)

/-- **One value.** -/
theorem not_pathsAgree_one {q : CliRequest} {key val : Bytes} {cap : ℕ}
    (h : SetCommand q key val cap) (hharmed : arrivedValue key val cap ≠ val) :
    ¬PathsAgree B [.configWrite q (some (key, val))] := by
  obtain ⟨hz, -, hnl⟩ := notMem_arrivedValue key val cap
  obtain ⟨-, -, -, -, -, -, -, hklen⟩ := configKeys_clean key h.key_mem
  have halen : (arrivedValue key val cap).length ≤ 511 :=
    (length_arrivedValue_le key val cap).trans (by have := h.high; omega)
  have hfirst : ∀ l ∈ [assignment key []], nl ∉ l ∧ (0 : UInt8) ∉ l := by
    intro l hl
    rw [List.mem_singleton.mp hl]
    exact notMem_assignment_pair h.key_mem ⟨List.not_mem_nil, List.not_mem_nil⟩
  have hone (v : Bytes) : (unlines nl [assignment key v]).length = key.length + v.length + 2 := by
    rw [length_unlines_cons, length_assignment, unlines, List.flatMap_nil, List.length_nil]
    omega
  -- the value that arrives is shorter, so the file it leaves is too
  have hshort := length_arrivedValue_lt hharmed
  have hupdate (v : Bytes) (u : UInt8) (hu : u ∈ [chr 'a', chr 'b']) :
      configUpdate (RequestEnv.allOk).update key v
        (some (tailed [assignment key []]
          (4080 - (key.length + (arrivedValue key val cap).length)) u)) =
      some ((tailed [assignment key v]
        (4080 - (key.length + (arrivedValue key val cap).length)) u).take 8191) := by
    obtain ⟨huz, hunl⟩ := tailChars_clean u hu
    rw [configUpdate_tailed h.key_mem hfirst ⟨_, List.mem_singleton_self _,
      isKeyLine_assignment _ _⟩ huz hunl (by rw [length_tailed, hone]; simp; omega),
      List.map_singleton, replaced_assignment]
  refine not_pathsAgree_of_shift [assignment key []] [assignment key (arrivedValue key val cap)]
    [assignment key val] (4080 - (key.length + (arrivedValue key val cap).length)) ?_ ?_ ?_ ?_ ?_
  · intro l hl
    rw [List.mem_singleton.mp hl]
    exact notMem_assignment_pair h.key_mem ⟨hnl, hz⟩
  · rw [hone]
    omega
  · rw [hone, hone]
    omega
  · -- what each way makes of the file
    intro u hu d hd
    obtain ⟨d', hconf, hrun⟩ := h.onlineRun_cons .allOk _ [] d
    exact ⟨d', hrun, by rw [hconf, hd, hupdate _ u hu]⟩
  · exact fun u hu => hupdate val u hu

/-- A line break in the first value makes it several lines, and any harm makes the lines longer. -/
theorem length_lt_of_harmed {key key' val val' a a' : Bytes} (hkey : key ∈ configKeys)
    (hkey' : key' ∈ configKeys) (hne : key ≠ key') (ha : a <+: val) (hanl : nl ∉ a)
    (ha' : a' <+: val') (hharmed : a ≠ val ∨ a' ≠ val') :
    (unlines nl [assignment key a, assignment key' a']).length <
      (unlines nl ((lines nl (unlines nl [assignment key val, assignment key' []])).map
        (replaced key' val'))).length := by
  obtain ⟨-, -, -, -, heq, -, hknl, -⟩ := configKeys_clean key hkey
  obtain ⟨-, -, -, -, heq', -, hknl', -⟩ := configKeys_clean key' hkey'
  have hother (v : Bytes) : replaced key' val' (assignment key v) = assignment key v :=
    if_neg (by simp [isKeyLine_assignment_of_ne hne heq' heq])
  have hlast : nl ∉ assignment key' [] := notMem_assignment hknl' (by decide) List.not_mem_nil
  have hlen' := ha'.length_le
  by_cases hnl : nl ∈ val
  · -- the part before the break holds what arrives, and a line comes behind it
    obtain ⟨⟨b, c⟩, hcut⟩ := Option.ne_none_iff_exists'.mp (mt cut_eq_none.mp (not_not.mpr hnl))
    obtain ⟨hb, rfl⟩ := cut_eq_some.mp hcut
    have hab : a.length ≤ b.length := by
      by_contra hlt
      have hpre := List.prefix_of_prefix_length_le (List.prefix_append (b ++ [nl]) c)
        (by simpa using ha) (by simp; omega)
      exact hanl (hpre.subset (by simp))
    have hlines : lines nl (unlines nl [assignment key (b ++ nl :: c), assignment key' []]) =
        assignment key b :: (lines nl (c ++ [nl]) ++ [assignment key' []]) := by
      have htext : unlines nl [assignment key (b ++ nl :: c), assignment key' []] =
          assignment key b ++ nl :: (c ++ nl :: unlines nl [assignment key' []]) := by
        simp [unlines, assignment]
      rw [htext, lines_append_break (notMem_assignment hknl (by decide) hb), lines_append,
        lines_unlines (by simpa using hlast)]
    obtain ⟨l, ls, hls⟩ := List.exists_cons_of_ne_nil (lines_append_ne_nil (c := nl) c)
    rw [hlines, hls]
    simp only [List.cons_append, List.map_cons, List.map_append, List.map_nil, hother,
      replaced_assignment, length_unlines_cons, unlines_append, List.length_append,
      length_assignment]
    omega
  · have hlines : lines nl (unlines nl [assignment key val, assignment key' []]) =
        [assignment key val, assignment key' []] := by
      refine lines_unlines fun l hl => ?_
      rcases List.mem_cons.mp hl with rfl | hl
      · exact notMem_assignment hknl (by decide) hnl
      · exact List.mem_singleton.mp hl ▸ hlast
    have hlen := ha.length_le
    have hstrict : a.length < val.length ∨ a'.length < val'.length :=
      hharmed.imp (fun h => lt_of_le_of_ne hlen fun heq => h (ha.eq_of_length heq))
        fun h => lt_of_le_of_ne hlen' fun heq => h (ha'.eq_of_length heq)
    rw [hlines]
    simp only [List.map_cons, List.map_nil, hother, replaced_assignment, length_unlines_cons,
      length_assignment]
    omega

/-- The file between the two updates, as lines: the value it has already may be several of them. -/
theorem lines_two_assignments {key val key' : Bytes} (hkey : key ∈ configKeys)
    (hkey' : key' ∈ configKeys) (hz : (0 : UInt8) ∉ val) :
    let text := unlines nl [assignment key val, assignment key' []]
    unlines nl (lines nl text) = text ∧ (∀ l ∈ lines nl text, nl ∉ l ∧ (0 : UInt8) ∉ l) ∧
      assignment key' [] ∈ lines nl text := by
  intro text
  obtain ⟨-, -, hkz, -⟩ := configKeys_clean key hkey
  obtain ⟨-, -, hkz', -, -, -, hknl', -⟩ := configKeys_clean key' hkey'
  refine ⟨?_, fun l hl => ⟨notMem_of_mem_lines hl, fun hmem => ?_⟩, ?_⟩
  · have hend : text = (assignment key val ++ nl :: assignment key' []) ++ [nl] := by
      simp [text, unlines]
    rw [hend, unlines_lines]
  · refine zero_notMem_unlines (fun m hm => ?_) (mem_of_mem_lines hl hmem)
    rcases List.mem_cons.mp hm with rfl | hm
    · exact notMem_assignment hkz (by decide) hz
    · exact List.mem_singleton.mp hm ▸ notMem_assignment hkz' (by decide) List.not_mem_nil
  · have hlast : nl ∉ assignment key' [] := notMem_assignment hknl' (by decide) List.not_mem_nil
    have hend : text = assignment key val ++ nl :: unlines nl [assignment key' []] := by
      simp [text, unlines]
    rw [hend, lines_append, lines_unlines (by simpa using hlast)]
    exact List.mem_append_right _ List.mem_cons_self

/-- The length of a file of two assignments. -/
theorem length_two_assignments (key v key' v' : Bytes) :
    (unlines nl [assignment key v, assignment key' v']).length =
      key.length + v.length + key'.length + v'.length + 4 := by
  rw [length_unlines_cons, length_unlines_cons, length_assignment, length_assignment, unlines,
    List.flatMap_nil, List.length_nil]
  omega

/-- **Two values.** -/
theorem not_pathsAgree_two {q q' : CliRequest} {key val key' val' : Bytes} {cap cap' : ℕ}
    (h : SetCommand q key val cap) (h' : SetCommand q' key' val' cap')
    (hz : (0 : UInt8) ∉ val) (hne : key ≠ key') (hlen : val.length ≤ 127)
    (hlen' : val'.length ≤ 127)
    (hharmed : arrivedValue key val cap ≠ val ∨ arrivedValue key' val' cap' ≠ val') :
    ¬PathsAgree B [.configWrite q (some (key, val)), .configWrite q' (some (key', val'))] := by
  obtain ⟨haz, -, hanl⟩ := notMem_arrivedValue key val cap
  obtain ⟨haz', -, hanl'⟩ := notMem_arrivedValue key' val' cap'
  obtain ⟨-, -, -, -, heq, -, -, hklen⟩ := configKeys_clean key h.key_mem
  obtain ⟨-, -, -, -, heq', -, -, hklen'⟩ := configKeys_clean key' h'.key_mem
  have hpre := arrivedValue_isPrefixOf key val cap
  have hpre' := arrivedValue_isPrefixOf key' val' cap'
  have hlonger := length_lt_of_harmed h.key_mem h'.key_mem hne hpre hanl hpre' hharmed
  set a := arrivedValue key val cap
  set a' := arrivedValue key' val' cap'
  have halen : a.length ≤ 127 := hpre.length_le.trans hlen
  have halen' : a'.length ≤ 127 := hpre'.length_le.trans hlen'
  have hempty : nl ∉ ([] : Bytes) ∧ (0 : UInt8) ∉ ([] : Bytes) :=
    ⟨List.not_mem_nil, List.not_mem_nil⟩
  have hpair {v v' : Bytes} (hv : nl ∉ v ∧ (0 : UInt8) ∉ v) (hv' : nl ∉ v' ∧ (0 : UInt8) ∉ v') :
      ∀ l ∈ [assignment key v, assignment key' v'], nl ∉ l ∧ (0 : UInt8) ∉ l := by
    intro l hl
    rcases List.mem_cons.mp hl with rfl | hl
    · exact notMem_assignment_pair h.key_mem hv
    · rw [List.mem_singleton.mp hl]
      exact notMem_assignment_pair h'.key_mem hv'
  have htwo (v v' : Bytes) := length_two_assignments key v key' v'
  -- the first update finds both keys empty, and the second one the first line as it was left
  set n := 4078 - (key.length + a.length + key'.length + a'.length) with hn
  have hfirst {v : Bytes} (hv : v.length ≤ 127) (u : UInt8) (hu : u ∈ [chr 'a', chr 'b']) :
      configUpdate (RequestEnv.allOk).update key v
        (some (tailed [assignment key [], assignment key' []] n u)) =
      some (tailed [assignment key v, assignment key' []] n u) := by
    obtain ⟨huz, hunl⟩ := tailChars_clean u hu
    rw [configUpdate_tailed h.key_mem (hpair hempty hempty)
      ⟨_, List.mem_cons_self, isKeyLine_assignment _ _⟩ huz hunl
      (by rw [length_tailed, htwo]; simp; omega), List.map_cons, List.map_singleton,
      replaced_assignment, replaced, isKeyLine_assignment_of_ne hne.symm heq heq',
      if_neg Bool.false_ne_true, List.take_of_length_le (by rw [length_tailed, htwo]; simp; omega)]
  have hsecond {X : List Bytes} {v : Bytes} (hX : ∀ l ∈ X, nl ∉ l ∧ (0 : UInt8) ∉ l)
      (hany : ∃ l ∈ X, isKeyLine key' l = true) (hshort : (unlines nl X).length ≤ 4000) (u : UInt8)
      (hu : u ∈ [chr 'a', chr 'b']) :
      configUpdate (RequestEnv.allOk).update key' v (some (tailed X n u)) =
        some ((tailed (X.map (replaced key' v)) n u).take 8191) := by
    obtain ⟨huz, hunl⟩ := tailChars_clean u hu
    exact configUpdate_tailed h'.key_mem hX hany huz hunl (by rw [length_tailed]; omega)
  refine not_pathsAgree_of_shift [assignment key [], assignment key' []]
    [assignment key a, assignment key' a'] _ n (hpair ⟨hanl, haz⟩ ⟨hanl', haz'⟩) ?_ hlonger ?_ ?_
  · rw [htwo]
    omega
  · intro u hu d hd
    obtain ⟨d₁, hconf₁, hrun₁⟩ := h.onlineRun_cons .allOk _ _ d
    obtain ⟨d₂, hconf₂, hrun₂⟩ := h'.onlineRun_cons .allOk _ [] d₁
    refine ⟨d₂, by rw [hrun₁, hrun₂]; rfl, ?_⟩
    rw [hconf₂, hconf₁, hd, hfirst halen u hu, hsecond (hpair ⟨hanl, haz⟩ hempty)
      ⟨_, List.mem_cons_of_mem _ List.mem_cons_self, isKeyLine_assignment _ _⟩
      (by rw [htwo]; simp; omega) u hu, List.map_cons, List.map_singleton, replaced_assignment,
      replaced, isKeyLine_assignment_of_ne hne heq' heq, if_neg Bool.false_ne_true]
  · intro u hu
    -- the value left in the file may be several lines
    obtain ⟨hround, hclean, hkeyLine⟩ := lines_two_assignments h.key_mem h'.key_mem hz
    set text := unlines nl [assignment key val, assignment key' []] with htext
    have hsame : tailed [assignment key val, assignment key' []] n u =
        tailed (lines nl text) n u := by
      rw [tailed, tailed, unlines_append, unlines_append, hround]
    show configUpdate _ key' val' (configUpdate _ key val _) = _
    rw [hfirst hlen u hu, hsame, hsecond hclean ⟨_, hkeyLine, isKeyLine_assignment _ _⟩
      (by rw [hround, htext, htwo]; simp; omega) u hu]

/-! ### Tunables -/

/-- Facts about the tunables: their names begin otherwise than the keys of `daemon.conf`, which a
load knows, and it can tell two values of each apart. -/
theorem advancedTable_loads : ∀ e ∈ Daemon.advancedTable,
    e.1 ≠ [] ∧ e.1.head? ≠ e.2.ckey.head? ∧ e.2.ckey ≠ [] ∧ e.2.ckey.length ≤ 17 ∧
      ∃ ld, configLoadTable.lookup e.2.ckey = some ld ∧
        ld.parse (lit "0") ≠ ld.parse (lit "1") := by
  have hall : ∀ e ∈ Daemon.advancedTable,
      e.1 ≠ [] ∧ e.1.head? ≠ e.2.ckey.head? ∧ e.2.ckey ≠ [] ∧ e.2.ckey.length ≤ 17 ∧
        (configLoadTable.lookup e.2.ckey).any
          fun ld => ld.parse (lit "0") ≠ ld.parse (lit "1") := by
    decide
  intro e he
  obtain ⟨h1, h2, h3, h4, h5⟩ := hall e he
  obtain ⟨ld, hld, hne⟩ := Option.any_eq_true .. |>.mp h5
  exact ⟨h1, h2, h3, h4, ld, hld, by simpa using hne⟩

/-- A file with one assignment and more behind it than a load reads. -/
def headed (key val : Bytes) : List Bytes := [assignment key val, padding 4095]

theorem fileValue_headed {key val : Bytes} (heq : chr '=' ∉ key)
    (hclean : nl ∉ assignment key val ∧ (0 : UInt8) ∉ assignment key val)
    (hlen : key.length + val.length + 2 ≤ 4095) :
    fileValue true (some (unlines nl (headed key val))) key = some val := by
  -- a load reads the assignment and a part of the comment
  have hcut : (unlines nl (headed key val)).take 4095 =
      assignment key val ++ nl :: padding (4095 - (key.length + val.length + 2)) := by
    have hsplit : unlines nl (headed key val) =
        (assignment key val ++ [nl]) ++ (padding 4095 ++ [nl]) := by
      simp [unlines, headed]
    rw [hsplit, List.take_append, List.take_of_length_le (by simp [length_assignment]; omega),
      List.take_append_of_le_length (by rw [padding, List.length_replicate]; exact Nat.sub_le _ _)]
    simp only [padding, List.take_replicate, List.length_append, length_assignment,
      List.length_singleton, List.append_assoc, List.singleton_append]
    congr 3
    omega
  have hz : (0 : UInt8) ∉
      assignment key val ++ nl :: padding (4095 - (key.length + val.length + 2)) := by
    simp only [List.mem_append, List.mem_cons, not_or]
    exact ⟨hclean.2, by decide, notMem_padding (by decide) _⟩
  have hlast : lastSome (entryOf key)
      (lines nl (padding (4095 - (key.length + val.length + 2)))) = none := by
    rw [lines_of_notMem (notMem_padding (by decide) _)]
    refine lastSome_eq_none fun l hl => ?_
    split at hl
    · exact absurd hl List.not_mem_nil
    · rw [List.mem_singleton.mp hl, entryOf_padding heq]
  rw [fileValue_some, hcut, cstr_of_notMem hz, lines_append_break hclean.1, lastSome_cons, hlast,
    Option.none_or, entryOf_assignment heq]

theorem headed_clean {key val : Bytes}
    (h : nl ∉ assignment key val ∧ (0 : UInt8) ∉ assignment key val) :
    ∀ l ∈ headed key val, nl ∉ l ∧ (0 : UInt8) ∉ l := by
  intro l hl
  rcases List.mem_cons.mp hl with rfl | hl
  · exact h
  · rw [List.mem_singleton.mp hl]
    exact ⟨notMem_padding (by decide) _, notMem_padding (by decide) _⟩

theorem length_headed (key val : Bytes) :
    (unlines nl (headed key val)).length = key.length + val.length + 4098 := by
  have hpad : (padding 4095).length = 4095 := List.length_replicate
  rw [headed, length_unlines_cons, length_unlines_cons, length_assignment, hpad, unlines,
    List.flatMap_nil, List.length_nil]
  omega

/-- What is appended is behind all a load reads. -/
theorem take_headed_append (key val : Bytes) (ls : List Bytes) :
    (unlines nl (headed key val ++ ls)).take 4095 = (unlines nl (headed key val)).take 4095 := by
  rw [unlines_append, List.take_append_of_le_length]
  rw [length_headed]
  omega

/-- An update of the key rewrites the assignment. -/
theorem placed_headed (key val v : Bytes) : placed key v (headed key val) = headed key v := by
  unfold placed headed
  rw [if_pos (List.any_eq_true.mpr ⟨_, List.mem_cons_self, isKeyLine_assignment _ _⟩),
    List.map_cons, List.map_singleton, if_pos (isKeyLine_assignment _ _),
    isKeyLine_padding, if_neg Bool.false_ne_true]

/-- An update of a key that begins otherwise appends. -/
theorem placed_headed_of_head_ne {key k : Bytes} (hkey : key ≠ []) (hk : k ≠ [])
    (hhead : k.head? ≠ key.head?) (val v : Bytes) :
    placed k v (headed key val) = headed key val ++ [assignment k v] := by
  have hno : isKeyLine k (assignment key val) = false := by
    refine Bool.eq_false_of_not_eq_true fun h => ?_
    obtain ⟨x, hx⟩ := isKeyLine_iff.mp h
    have hheads := congrArg List.head? hx
    rw [assignment, assignment, List.head?_append_of_ne_nil _ hkey,
      List.head?_append_of_ne_nil _ hk] at hheads
    exact hhead hheads.symm
  unfold placed
  rw [if_neg]
  simp [headed, hno, isKeyLine_padding]

/-- A value that arrives has no breaks, and is short. -/
theorem value_clean_of_received {text k v : Bytes}
    (h : received text = lit "ADVANCED_SET " ++ (k ++ chr ' ' :: v)) :
    nl ∉ v ∧ (0 : UInt8) ∉ v ∧ v.length ≤ 511 := by
  obtain ⟨hz, -, hnl⟩ := notMem_received text
  have hlen : (received text).length ≤ 511 :=
    (List.takeWhile_sublist _).length_le.trans
      ((List.takeWhile_sublist _).length_le.trans (List.length_take_le _ _))
  rw [h] at hz hnl hlen
  simp only [List.mem_append, List.mem_cons, not_or] at hz hnl
  simp only [List.length_append, List.length_cons] at hlen
  exact ⟨hnl.2.2.2, hz.2.2.2, by omega⟩

/-- The name typed begins as the one that arrives. -/
theorem head?_eq_of_arrived {key val k v : Bytes} (hspace : chr ' ' ∉ k) (hk : k ≠ [])
    (hpre : k ++ chr ' ' :: v <+: key ++ chr ' ' :: val) : key.head? = k.head? := by
  have hkspace : k <+: key ++ chr ' ' :: val := (List.prefix_append k _).trans hpre
  obtain ⟨rest, rfl⟩ := prefix_of_prefix_append hspace hkspace
  exact List.head?_append_of_ne_nil _ hk

/-- `ADVANCED_SET` of a known key, if the write goes through. -/
theorem onlineRun_advanced {q : CliRequest} {key val arg k v : Bytes} {t : Daemon.Tunable}
    (harg : received q.text = lit "ADVANCED_SET " ++ arg)
    (hcut : strchr arg (chr ' ') = some (k, v)) (ht : Daemon.advancedTable.lookup k = some t)
    (d : Daemon) :
    ∃ d', onlineRun B .allOk [.configWrite q (some (key, val))] d = some d' ∧
      d'.conf = configUpdate (RequestEnv.allOk).update t.ckey v d.conf := by
  have hok : strncmp ok ok 2 = true := by decide
  have hhandle : d.handleAdvancedSet .allOk arg =
      (ok, { d with
        cfg := d.cfg.store (t.setter.store v)
        calls := d.calls ++ [.sysctlWrite t.path v]
        conf := configUpdate (RequestEnv.allOk).update t.ckey v d.conf }) := by
    unfold Daemon.handleAdvancedSet
    rw [hcut]
    simp only [ht]
    rfl
  rw [onlineRun, socketHandle_of_verb .advancedSet harg (by decide) (by decide)
    (by decide)]
  refine ⟨(d.handleAdvancedSet .allOk arg).2, ?_, by rw [hhandle]⟩
  show (if strncmp (d.handleAdvancedSet .allOk arg).1 ok 2 then
    some (d.handleAdvancedSet .allOk arg).2 else none) = _
  rw [hhandle]
  exact if_pos hok

/-- **A tunable.** The daemon updates the key of `daemon.conf`, and the client appends the name of
the tunable behind all a load reads. -/
theorem not_pathsAgree_advanced {q : CliRequest} {key val : Bytes}
    (htext : q.text = (lit "ADVANCED_SET " ++ (key ++ chr ' ' :: val)).take 255)
    (hharmed : ¬Unharmed (.configWrite q (some (key, val)))) :
    ¬PathsAgree B [.configWrite q (some (key, val))] := by
  intro hagree
  obtain ⟨arg, harg, hpre, hdispatch, hdrop⟩ := received_advancedSet htext
  obtain ⟨k, v, hcut, hknown⟩ : ∃ k v, strchr arg (chr ' ') = some (k, v) ∧
      Daemon.advancedTable.lookup k ≠ none := by
    simp only [Unharmed, hdispatch, hdrop] at hharmed
    push Not at hharmed
    exact hharmed
  obtain ⟨t, ht⟩ := Option.ne_none_iff_exists'.mp hknown
  obtain ⟨hkne, hhead, -, hclen, ld, hld, hparse⟩ := advancedTable_loads _ (lookup_mem ht)
  obtain ⟨hcne, -, heq, hcnl, hcz⟩ := configLoadTable_keys _ (lookup_mem hld)
  dsimp only at hkne hhead hclen heq hcne hcnl hcz
  obtain ⟨hspace, rfl⟩ := cut_eq_some.mp hcut
  obtain ⟨hvnl, hvz, hvlen⟩ := value_clean_of_received harg
  have hkeyhead : key.head? = k.head? := head?_eq_of_arrived hspace hkne hpre
  have hkne' : key ≠ [] := by
    rintro rfl
    exact hkne (List.head?_eq_none_iff.mp hkeyhead.symm)
  -- a value in the file that a load tells apart from the one that arrived
  obtain ⟨w, hw, hne⟩ : ∃ w ∈ [lit "0", lit "1"], ld.parse w ≠ ld.parse v := by
    by_cases h0 : ld.parse (lit "0") = ld.parse v
    · exact ⟨lit "1", by simp, fun h1 => hparse (h0.trans h1.symm)⟩
    · exact ⟨lit "0", by simp, h0⟩
  obtain ⟨hwnl, hwz, hwlen⟩ : nl ∉ w ∧ (0 : UInt8) ∉ w ∧ w.length ≤ 511 := by
    have hall : ∀ w ∈ [lit "0", lit "1"], nl ∉ w ∧ (0 : UInt8) ∉ w ∧ w.length ≤ 511 := by
      decide
    exact hall w hw
  have hclean {x : Bytes} (hnl : nl ∉ x) (hz : (0 : UInt8) ∉ x) :
      nl ∉ assignment t.ckey x ∧ (0 : UInt8) ∉ assignment t.ckey x :=
    ⟨notMem_assignment hcnl (by decide) hnl, notMem_assignment hcz (by decide) hz⟩
  have hget {x : Bytes} (hnl : nl ∉ x) (hz : (0 : UInt8) ∉ x) (hlen : x.length ≤ 511) :
      (configLoad B ⟨true, fun _ => true⟩ (some (unlines nl (headed t.ckey x)))
        DaemonConfig.zero).get ld.field = ld.parse x := by
    rw [configLoad_get hld, fileValue_headed heq (hclean hnl hz) (by omega)]
    rfl
  have hfits : (unlines nl (headed t.ckey w)).length ≤ 8191 := by
    rw [length_headed]
    omega
  have hupdate (k' v' : Bytes) : configUpdate (RequestEnv.allOk).update k' v'
      (some (unlines nl (headed t.ckey w))) =
        some ((unlines nl (placed k' v' (headed t.ckey w))).take 8191) :=
    configUpdate_unlines (headed_clean (hclean hwnl hwz)) (List.cons_ne_nil _ _) hfits
  -- the daemon's file
  obtain ⟨d', hrun, hconf⟩ := onlineRun_advanced (B := B) (q := q) harg hcut ht
    (boot B (.allOk (some (unlines nl (headed t.ckey w)))))
  rw [boot_conf] at hconf
  have honline : d'.conf = some ((unlines nl (headed t.ckey v)).take 8191) := by
    rw [hconf]
    show configUpdate _ t.ckey v (some (unlines nl (headed t.ckey w))) = _
    rw [hupdate, placed_headed]
  -- the client's file
  have hoffline : offlineRun (RequestEnv.allOk).update [.configWrite q (some (key, val))]
      (some (unlines nl (headed t.ckey w))) =
        some ((unlines nl (headed t.ckey w ++ [assignment key val])).take 8191) := by
    show configUpdate _ key val _ = _
    rw [hupdate, placed_headed_of_head_ne hcne hkne' (hkeyhead ▸ hhead)]
  have hload := hagree .allOk _ d' hrun ⟨true, fun _ => true⟩ DaemonConfig.zero
  rw [boot_conf, honline] at hload
  rw [show (BootEnv.allOk (some (unlines nl (headed t.ckey w)))).conf =
    some (unlines nl (headed t.ckey w)) from rfl, hoffline, configLoad_take, configLoad_take,
    configLoad_congr (take_headed_append _ _ _)] at hload
  have hvalue := hget hvnl hvz hvlen
  rw [hload, hget hwnl hwz hwlen] at hvalue
  exact hne hvalue

/-- **When the two ways agree.** The settings after a command with the daemon online are those after
the command offline, for every file, exactly if each of its payloads arrives as it was rendered and
none is an `ADVANCED_SET` the daemon accepts. -/
theorem pathsAgree_iff {handler : List Bytes → List CliAction} {argv : List Bytes}
    (hhandler : handler ∈ keyedHandlers) (hargv : ∀ a ∈ argv, (0 : UInt8) ∉ a) (B : Build) :
    PathsAgree B (handler argv) ↔ ∀ act ∈ handler argv, Unharmed act := by
  have hinv := invocation_of_mem hhandler hargv
  refine ⟨fun hagree => ?_, pathsAgree_of_unharmed hinv⟩
  generalize handler argv = acts at hinv hagree
  by_contra hharmed
  cases hinv with
  | nothing => exact hharmed fun act hact => absurd hact List.not_mem_nil
  | get q =>
    refine hharmed fun act hact => ?_
    rw [List.mem_singleton.mp hact]
    trivial
  | one h hz =>
    refine not_pathsAgree_one h (fun hval => hharmed fun act hact => ?_) hagree
    rw [List.mem_singleton.mp hact]
    exact (h.unharmed_iff hz).mpr hval
  | two h h' hz hz' hne hlen hlen' =>
    refine not_pathsAgree_two h h' hz hne hlen hlen' ?_ hagree
    by_contra hboth
    push Not at hboth
    refine hharmed fun act hact => ?_
    rcases List.mem_cons.mp hact with rfl | hact
    · exact (h.unharmed_iff hz).mpr hboth.1
    · rw [List.mem_singleton.mp hact]
      exact (h'.unharmed_iff hz').mpr hboth.2
  | advanced htext =>
    refine not_pathsAgree_advanced htext (fun hun => hharmed fun act hact => ?_) hagree
    rw [List.mem_singleton.mp hact]
    exact hun

end

/-- The rule for `interval 5`. -/
theorem pathsAgree_iff_interval :
    PathsAgree shippedBuild (cliConfigInterval [lit "x3d-toggle", lit "interval", lit "5"]) ↔
      ∀ act ∈ cliConfigInterval [lit "x3d-toggle", lit "interval", lit "5"], Unharmed act :=
  pathsAgree_iff List.mem_cons_self (by decide) _

/-- The request of `advanced set kernel.sched_bore 1`. -/
def boreRequest : CliRequest :=
  ⟨lit "ADVANCED_SET", [lit "kernel.sched_bore", lit "1"], some 256, lit "ADVANCED_SET %s %s",
    [lit "kernel.sched_bore", lit "1"]⟩

/-- A tunable set offline is set under a name that no load looks for. -/
theorem tunable_set_offline_unseen :
    ¬∀ (B : Build) (handler : List Bytes → List CliAction) (argv : List Bytes),
      handler ∈ keyedHandlers → (∀ a ∈ argv, (0 : UInt8) ∉ a) → PathsAgree B (handler argv) := by
  intro h
  have hagree := h shippedBuild cliAdvancedConfig
    [lit "x3d-toggle", lit "advanced", lit "set", lit "kernel.sched_bore", lit "1"]
    (by simp [keyedHandlers]) (by decide)
  have hset : lit "set" ≠ lit "get" := by decide
  have hacts : cliAdvancedConfig
      [lit "x3d-toggle", lit "advanced", lit "set", lit "kernel.sched_bore", lit "1"] =
      [.configWrite boreRequest (some (lit "kernel.sched_bore", lit "1"))] := by
    simp [cliAdvancedConfig, hset, boreRequest]
  rw [hacts] at hagree
  set d := boot shippedBuild (.allOk (some (lit "#\n"))) with hd
  have hreply : (socketHandle shippedBuild .allOk boreRequest.text d).1 = some ok := by
    rw [hd]
    decide
  have hrun : onlineRun shippedBuild .allOk
      [.configWrite boreRequest (some (lit "kernel.sched_bore", lit "1"))] d =
      some (socketHandle shippedBuild .allOk boreRequest.text d).2 := by
    have hpair : socketHandle shippedBuild .allOk boreRequest.text d =
        (some ok, (socketHandle shippedBuild .allOk boreRequest.text d).2) := Prod.ext hreply rfl
    have hok : strncmp ok ok 2 = true := by decide
    rw [onlineRun, hpair]
    simp only [hok, if_true]
    rfl
  have hload := congrArg (fun cfg => cfg.get (.int .schedBore))
    (hagree .allOk d _ hrun ⟨true, fun _ => true⟩ DaemonConfig.zero)
  -- online the setting is stored under the key a load looks for, offline under the name typed
  have hdiffer : (configLoad shippedBuild ⟨true, fun _ => true⟩
      (socketHandle shippedBuild .allOk boreRequest.text
        (boot shippedBuild (.allOk (some (lit "#\n"))))).2.conf DaemonConfig.zero).get
        (.int .schedBore) ≠
      (configLoad shippedBuild ⟨true, fun _ => true⟩
        (offlineRun (RequestEnv.allOk).update
          [.configWrite boreRequest (some (lit "kernel.sched_bore", lit "1"))]
          (some (lit "#\n"))) DaemonConfig.zero).get (.int .schedBore) := by
    decide
  refine hdiffer ?_
  rw [hd, boot_conf] at hload
  exact hload

end X3D
