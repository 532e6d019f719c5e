import X3DToggle.Protocol
import X3DToggle.Durable

/-!
# Writing behind the daemon's back

`config_write` sends its command and, if that fails, writes the file itself. The branch is meant
for a daemon that is offline, and its message says so. But `socket_send` reports every failure
alike, so the branch is also taken when the daemon has answered `ERR`, or when its answer is
lost: `respectsDaemon_iff`.

`configCommand_of_mem` lists what `config_write` is called with: the text sent and the entry for
the file. The text depends on the arguments only behind the first word and, for `SET_CONFIG`,
behind the key, so the daemon's branch is known whatever the user types.
-/

namespace X3D

/-! ### The commands -/

/-- The keys the handlers set. -/
def configKeys : List Bytes :=
  [lit "POLLING_INTERVAL", lit "LOAD_THRESHOLD", lit "FALLBACK_PROFILE", lit "DETECTION_LEVEL",
   lit "EBPF_ENABLE", lit "SERVER_ADDRESS", lit "SERVER_PORT"]

/-- A `SET_CONFIG` with its entry. `cap` is what the buffer of the payload holds. -/
structure SetCommand (q : CliRequest) (key val : Bytes) (cap : ℕ) : Prop where
  key_mem : key ∈ configKeys
  low : 127 ≤ cap
  high : cap ≤ 511
  payload : q.payload = lit "SET_CONFIG " ++ (key ++ chr ' ' :: val)
  fits : q.Fits ↔ q.payload.length ≤ cap
  text : q.text = q.payload.take cap

/-- What `config_write` is called with. -/
inductive ConfigCommand (q : CliRequest) : Option (Bytes × Bytes) → Prop where
  | set (key val : Bytes) (cap : ℕ) (h : SetCommand q key val cap) :
    ConfigCommand q (some (key, val))
  | advanced (key val : Bytes)
    (htext : q.text = (lit "ADVANCED_SET " ++ (key ++ chr ' ' :: val)).take 255) :
    ConfigCommand q (some (key, val))
  | add (name : Bytes) (htext : q.text = (lit "GAME_ADD " ++ name).take 255) : ConfigCommand q none
  | remove (name : Bytes) (htext : q.text = (lit "GAME_REMOVE " ++ name).take 255) :
    ConfigCommand q none

/-- Facts about the keys. -/
theorem configKeys_clean : ∀ key ∈ configKeys, chr '%' ∉ key ∧ chr '$' ∉ key ∧ (0 : UInt8) ∉ key ∧
    chr ' ' ∉ key ∧ chr '=' ∉ key ∧ chr '\r' ∉ key ∧ nl ∉ key ∧ key.length ≤ 16 := by
  decide

/-- A payload built from a key and a value. -/
theorem setCommand_setConfig {key fmt val copy : Bytes} {n : ℕ} (hkey : key ∈ configKeys)
    (hfmt : fmt = lit "SET_CONFIG " ++ (key ++ lit " %s")) (hlow : 128 ≤ n) (hn : n ≤ 512) :
    SetCommand ⟨lit "SET_CONFIG", [key, val], some n, fmt, [copy]⟩ key copy (n - 1) := by
  obtain ⟨hpercent, hdollar, -⟩ := configKeys_clean key hkey
  have hhead : chr '%' ∉ lit "SET_CONFIG " ∧ chr '$' ∉ lit "SET_CONFIG " := by decide
  have hs : lit " %s" = chr ' ' :: [chr '%', chr 's'] := by decide
  have hplain : plainFormat fmt [copy].length = true := by
    rw [hfmt, plainFormat_append hhead.1 hhead.2, plainFormat_append hpercent hdollar, hs]
    rfl
  refine ⟨hkey, by omega, by omega, ?_, ?_, ?_⟩
  · show rendered fmt [copy] = _
    rw [hfmt, rendered_append hhead.1, rendered_append hpercent, hs, rendered_char (by decide),
      rendered_s]
    simp [rendered]
  · show (rendered fmt [copy]).length < n ↔ (rendered fmt [copy]).length ≤ n - 1
    omega
  · exact printfSn_plain hplain

theorem configCommand_setConfigArg {key fmt : Bytes} {argv : List Bytes} {q : CliRequest}
    {entry : Option (Bytes × Bytes)} (hkey : key ∈ configKeys)
    (hfmt : fmt = lit "SET_CONFIG " ++ (key ++ lit " %s"))
    (h : .configWrite q entry ∈ setConfigArg key fmt argv) : ConfigCommand q entry := by
  unfold setConfigArg at h
  cases hval : argv[2]? with
  | none => simp [hval] at h
  | some val =>
    simp only [hval, List.mem_singleton, CliAction.configWrite.injEq] at h
    obtain ⟨rfl, rfl⟩ := h
    exact .set _ _ _ (setCommand_setConfig hkey hfmt (by omega) (by omega))

/-- A command with a constant value. -/
theorem setCommand_const {key val cmd : Bytes} (hkey : key ∈ configKeys)
    (hcmd : cmd = lit "SET_CONFIG " ++ (key ++ chr ' ' :: val)) (hlen : cmd.length ≤ 511) :
    SetCommand (.literal (lit "SET_CONFIG") [key, val] cmd) key val 511 :=
  ⟨hkey, by omega, le_rfl, hcmd, iff_of_true trivial hlen, (List.take_of_length_le hlen).symm⟩

theorem configCommand_cliConfigServer {argv : List Bytes} {q : CliRequest}
    {entry : Option (Bytes × Bytes)} (h : .configWrite q entry ∈ cliConfigServer argv) :
    ConfigCommand q entry := by
  unfold cliConfigServer at h
  cases harg : argv[2]? with
  | none => simp [harg] at h
  | some arg =>
    simp only [harg] at h
    rcases List.mem_cons.mp h with h | h
    · obtain ⟨rfl, rfl⟩ := CliAction.configWrite.inj h
      exact .set _ _ _
        (setCommand_setConfig (by decide) (by decide) (by omega) (by omega))
    · split at h
      · exact absurd h List.not_mem_nil
      · obtain ⟨rfl, rfl⟩ := CliAction.configWrite.inj (List.mem_singleton.mp h)
        exact .set _ _ _
          (setCommand_setConfig (by decide) (by decide) (by omega) (by omega))

/-- The text of an `ADVANCED_SET`. -/
theorem text_advancedSet (key val : Bytes) :
    (CliRequest.mk (lit "ADVANCED_SET") [key, val] (some 256) (lit "ADVANCED_SET %s %s")
      [key, val]).text = (lit "ADVANCED_SET " ++ (key ++ chr ' ' :: val)).take 255 := by
  have hfmt : lit "ADVANCED_SET %s %s" = lit "ADVANCED_SET" ++ [chr ' '] ++
      [chr '%', chr 's', chr ' ', chr '%', chr 's'] := by
    decide
  have hword : lit "ADVANCED_SET " = lit "ADVANCED_SET" ++ [chr ' '] := by decide
  show printfSn 256 (lit "ADVANCED_SET %s %s") ([key, val].map .str) = _
  rw [printfSn_plain (plainFormat_two (by decide) hfmt),
    rendered_two (by decide) hfmt, hword]

theorem configCommand_cliAdvancedConfig {argv : List Bytes} {q : CliRequest}
    {entry : Option (Bytes × Bytes)} (h : .configWrite q entry ∈ cliAdvancedConfig argv) :
    ConfigCommand q entry := by
  unfold cliAdvancedConfig at h
  cases hop : argv[2]? with
  | none => simp [hop] at h
  | some op =>
    cases hkey : argv[3]? with
    | none => simp [hop, hkey] at h
    | some key =>
      simp only [hop, hkey] at h
      split at h
      · simp at h
      · split at h
        · cases hval : argv[4]? with
          | none => simp [hval] at h
          | some val =>
            simp only [hval, List.mem_singleton, CliAction.configWrite.injEq] at h
            obtain ⟨rfl, rfl⟩ := h
            exact .advanced key val (text_advancedSet key val)
        · exact absurd h List.not_mem_nil

theorem configCommand_gameArg {word fmt : Bytes} {argv : List Bytes} {q : CliRequest}
    {entry : Option (Bytes × Bytes)}
    (hplain : chr '%' ∉ word ++ [chr ' '] ∧ chr '$' ∉ word ++ [chr ' '])
    (hfmt : fmt = word ++ [chr ' '] ++ [chr '%', chr 's'])
    (h : .configWrite q entry ∈ gameArg word fmt argv) :
    entry = none ∧ ∃ name, q.text = (word ++ [chr ' '] ++ name).take 255 := by
  unfold gameArg at h
  cases hval : argv[2]? with
  | none => simp [hval] at h
  | some name =>
    simp only [hval, List.mem_singleton, CliAction.configWrite.injEq] at h
    obtain ⟨rfl, rfl⟩ := h
    refine ⟨rfl, name, ?_⟩
    have hformat : plainFormat fmt [name].length = true := by
      rw [hfmt, plainFormat_append hplain.1 hplain.2]
      rfl
    show printfSn 256 fmt ([name].map .str) = _
    rw [printfSn_plain hformat, hfmt, rendered_append hplain.1, rendered_s]
    simp [rendered]

/-- A handler that does not go through `config_write`. -/
def NoConfigWrite (handler : List Bytes → List CliAction) : Prop :=
  ∀ argv q entry, .configWrite q entry ∉ handler argv

theorem noConfigWrite_sendArg (word fmt : Bytes) : NoConfigWrite (sendArg word fmt) := by
  intro argv q entry h
  unfold sendArg at h
  cases hval : argv[2]? <;> simp [hval] at h

theorem noConfigWrite_pair {handler : List Bytes → List CliAction}
    (h : ∀ argv, ∃ acts, handler argv = acts ∧ ∀ act ∈ acts, ∃ q, act = .send q) :
    NoConfigWrite handler := by
  intro argv q entry hmem
  obtain ⟨acts, hacts, hsend⟩ := h argv
  obtain ⟨q', hq'⟩ := hsend _ (hacts ▸ hmem)
  exact CliAction.noConfusion hq'

/-- **The commands of `config_write`.** -/
theorem configCommand_of_mem {handler : List Bytes → List CliAction} {argv : List Bytes}
    {q : CliRequest} {entry : Option (Bytes × Bytes)} (hhandler : handler ∈ cliHandlers)
    (h : .configWrite q entry ∈ handler argv) : ConfigCommand q entry := by
  have hconst {acts : List CliAction} (hno : ∀ act ∈ acts, ∃ q, act = .send q) :
      NoConfigWrite fun _ => acts :=
    noConfigWrite_pair fun _ => ⟨acts, rfl, hno⟩
  have hall : ∀ handler ∈ cliHandlers, NoConfigWrite handler ∨
      ∀ argv q entry, .configWrite q entry ∈ handler argv → ConfigCommand q entry := by
    simp only [cliHandlers, List.forall_mem_cons]
    refine ⟨.inr fun _ _ _ => configCommand_setConfigArg (by decide) (by decide),
      .inr fun _ _ _ => configCommand_setConfigArg (by decide) (by decide),
      .inr fun _ _ _ => configCommand_setConfigArg (by decide) (by decide),
      .inr fun _ _ _ => configCommand_setConfigArg (by decide) (by decide),
      .inr ?_, .inr ?_, .inr fun _ _ _ => configCommand_cliConfigServer, .inr ?_, .inr ?_,
      .inl (hconst (by simp)), .inl ?_, .inl (hconst (by simp [configSync])),
      .inl (hconst (by simp [configSync])), .inr fun _ _ _ => configCommand_cliAdvancedConfig,
      .inl (hconst (by simp [setEppConst])), .inl (hconst (by simp [setEppConst])),
      .inl (hconst (by simp [setEppConst])), .inl (hconst (by simp [setEppConst])), .inl ?_,
      .inl ?_, .inl (noConfigWrite_sendArg _ _), .inl (noConfigWrite_sendArg _ _),
      .inl (noConfigWrite_sendArg _ _), .inl (noConfigWrite_sendArg _ _),
      .inl (hconst (by simp [setDaemonConst])),
      .inl (hconst (by simp [setDaemonConst])),
      .inl (hconst (by simp [setDaemonConst])),
      .inl (hconst (by simp [setDaemonConst])), .inl (hconst (by simp)),
      .inl (hconst (by simp [setModeConst])),
      .inl (hconst (by simp [configSync, setDaemonConst, setModeConst])),
      .inl (hconst (by simp [setDaemonConst])), .inl (hconst (by simp [setDaemonConst])),
      .inl (hconst (by simp [configSync, setDaemonConst, setModeConst])),
      .inl (hconst (by simp [setDaemonConst])), .inl ?_, .inl (hconst (by simp)),
      fun _ h => absurd h List.not_mem_nil⟩
    -- `polling` and `ebpf`
    · intro argv q entry h
      simp only [cliConfigPolling, setConfigConst, List.mem_cons, CliAction.configWrite.injEq,
        List.not_mem_nil, or_false] at h
      rcases h with ⟨rfl, rfl⟩ | ⟨rfl, rfl⟩ <;>
        exact .set _ _ _
          (setCommand_const (by decide) (by decide) (by decide))
    · intro argv q entry h
      simp only [cliConfigEbpf, setConfigConst, List.mem_cons, CliAction.configWrite.injEq,
        List.not_mem_nil, or_false] at h
      rcases h with ⟨rfl, rfl⟩ | ⟨rfl, rfl⟩ <;>
        exact .set _ _ _
          (setCommand_const (by decide) (by decide) (by decide))
    -- the game list
    · intro argv q entry h
      obtain ⟨rfl, name, htext⟩ :=
        configCommand_gameArg (by decide) (by decide) h
      exact .add name (htext.trans (by rw [show lit "GAME_ADD" ++ [chr ' '] = lit "GAME_ADD " by
        decide]))
    · intro argv q entry h
      obtain ⟨rfl, name, htext⟩ :=
        configCommand_gameArg (by decide) (by decide) h
      exact .remove name (htext.trans (by
        rw [show lit "GAME_REMOVE" ++ [chr ' '] = lit "GAME_REMOVE " by decide]))
    -- `profile`, `epp`, `cppc-raw` and the wrapper
    · intro argv q entry h
      unfold cliConfigProfile at h
      cases h2 : argv[2]? <;> cases h3 : argv[3]? <;> simp [h2, h3] at h
    · intro argv q entry h
      unfold cliCppcEpp at h
      cases h2 : argv[2]? <;> cases h3 : argv[3]? <;> simp [h2, h3] at h
    · intro argv q entry h
      unfold cliCppcRaw at h
      cases h2 : argv[2]? <;> cases h3 : argv[3]? <;> simp [h2, h3] at h
    · intro argv q entry h
      unfold runGame at h
      cases h1 : argv[1]? with
      | none => simp [h1] at h
      | some first =>
        simp only [h1] at h
        split at h <;> simp at h
  exact (hall handler hhandler).elim (fun hno => absurd h (hno argv q entry))
    fun hcommand => hcommand argv q entry h

/-! ### The daemon's answer -/

/-- The daemon says `OK` to a command of `config_write`: to every `SET_CONFIG`, and to an
`ADVANCED_SET` of a key it knows, if the sysctl write goes through. -/
def Accepts (env : RequestEnv) (cmd : Bytes) : Prop :=
  match dispatch (received cmd) with
  | some (.setConfig, _) => True
  | some (.advancedSet, n) =>
    ∃ key val t, strchr ((received cmd).drop n) (chr ' ') = some (key, val) ∧
      Daemon.advancedTable.lookup key = some t ∧ env.hw (.sysctlWrite t.path val) = 0
  | _ => False

/-- A text cut behind a beginning still begins with it. -/
theorem take_append_eq {a : Bytes} {cap : ℕ} (h : a.length ≤ cap) (s : Bytes) :
    (a ++ s).take cap = a ++ s.take (cap - a.length) := by
  rw [List.take_append, List.take_of_length_le h]

section

variable {q : CliRequest} {entry : Option (Bytes × Bytes)} {B : Build} {env : RequestEnv}
  {d : Daemon}

/-- What arrives of a value behind its key. -/
def arrivedValue (key val : Bytes) (cap : ℕ) : Bytes :=
  cutAny (cstr (val.take (cap - (key.length + 12)))) [chr '\r', nl]

/-- What arrives of a `SET_CONFIG`. -/
theorem SetCommand.received_eq {key val : Bytes} {cap : ℕ} (h : SetCommand q key val cap) :
    received q.text = lit "SET_CONFIG " ++ (key ++ chr ' ' :: arrivedValue key val cap) := by
  obtain ⟨hkey, hlow, hcap, hpay, -, htext⟩ := h
  rw [hpay] at htext
  obtain ⟨-, -, hz, -, -, hcr, hnl, hlen⟩ := configKeys_clean key hkey
  have hhead : (lit "SET_CONFIG ").length = 11 ∧ (0 : UInt8) ∉ lit "SET_CONFIG " ∧
      chr '\r' ∉ lit "SET_CONFIG " ∧ nl ∉ lit "SET_CONFIG " := by
    decide
  have hspace : (0 : UInt8) ≠ chr ' ' ∧ chr '\r' ≠ chr ' ' ∧ nl ≠ chr ' ' := by decide
  set a := lit "SET_CONFIG " ++ (key ++ [chr ' ']) with ha
  have halen : a.length = key.length + 12 := by
    simp only [ha, List.length_append, hhead.1, List.length_singleton]
    omega
  have hsplit (v : Bytes) : lit "SET_CONFIG " ++ (key ++ chr ' ' :: v) = a ++ v := by
    rw [ha]
    simp
  rw [hsplit] at htext
  rw [hsplit, htext, take_append_eq (by omega), received_append (by omega), halen, List.take_take,
    min_eq_right (by omega)]
  · rfl
  · simp [ha, hz, hhead, hspace]
  · simp [ha, hcr, hhead, hspace]
  · simp [ha, hnl, hhead, hspace]

/-- What arrives of an `ADVANCED_SET`. -/
theorem received_advancedSet {key val : Bytes}
    (htext : q.text = (lit "ADVANCED_SET " ++ (key ++ chr ' ' :: val)).take 255) :
    ∃ arg, received q.text = lit "ADVANCED_SET " ++ arg ∧ arg <+: key ++ chr ' ' :: val ∧
      dispatch (received q.text) = some (.advancedSet, 13) ∧ (received q.text).drop 13 = arg := by
  have hhead : (0 : UInt8) ∉ lit "ADVANCED_SET " ∧ chr '\r' ∉ lit "ADVANCED_SET " ∧
      nl ∉ lit "ADVANCED_SET " ∧ (lit "ADVANCED_SET ").length = 13 := by
    decide
  obtain ⟨hz, hcr, hnl, hlen⟩ := hhead
  obtain ⟨arg, harg, hpre⟩ : ∃ arg, received q.text = lit "ADVANCED_SET " ++ arg ∧
      arg <+: key ++ chr ' ' :: val := by
    rw [htext, take_append_eq (by omega), received_append (by omega) hz hcr hnl]
    refine ⟨_, rfl, (List.takeWhile_prefix _).trans ((List.takeWhile_prefix _).trans ?_)⟩
    exact (List.take_prefix _ _).trans (List.take_prefix _ _)
  refine ⟨arg, harg, hpre, ?_, ?_⟩
  · rw [harg, dispatch_append (by decide)]
    decide
  · rw [harg, ← hlen, List.drop_left]

/-- `ADVANCED_SET` is answered `OK` if the key is known and the write goes through. -/
theorem reply_advancedSet (arg : Bytes) :
    (d.handleAdvancedSet env arg).1.take 2 = ok ↔
      ∃ key val t, strchr arg (chr ' ') = some (key, val) ∧
        Daemon.advancedTable.lookup key = some t ∧ env.hw (.sysctlWrite t.path val) = 0 := by
  have hok : ok.take 2 = ok := by decide
  have herr : err.take 2 ≠ ok := by decide
  unfold Daemon.handleAdvancedSet
  cases hcut : strchr arg (chr ' ') with
  | none => simp [herr]
  | some p =>
    obtain ⟨key, val⟩ := p
    simp only [Option.some.injEq, Prod.mk.injEq]
    cases hlookup : Daemon.advancedTable.lookup key with
    | none =>
      -- the key is not known
      refine iff_of_false herr ?_
      rintro ⟨_, _, t, ⟨rfl, rfl⟩, ht, -⟩
      exact absurd (hlookup.symm.trans ht) (by simp)
    | some t =>
      simp only [Daemon.call]
      -- a known key is answered with the outcome of the write
      by_cases hret : env.hw (.sysctlWrite t.path val) = 0
      · simp only [hret, if_true]
        exact iff_of_true hok ⟨key, val, t, ⟨rfl, rfl⟩, hlookup, hret⟩
      · simp only [hret, if_false]
        refine iff_of_false herr ?_
        rintro ⟨_, _, t', ⟨rfl, rfl⟩, ht, hzero⟩
        obtain rfl := Option.some.inj (hlookup.symm.trans ht)
        exact hret hzero

/-- **The answer to a command of `config_write`.** -/
theorem reply_configCommand (h : ConfigCommand q entry) :
    (∃ reply, (socketHandle B env q.text d).1 = some reply ∧ reply.take 2 = ok) ↔
      Accepts env q.text := by
  have hok : ok.take 2 = ok := by decide
  have herr : err.take 2 ≠ ok := by decide
  -- a word of no test is answered `ERR`
  have hunknown {a s : Bytes} (hdecides : Decides a) (hdispatch : dispatch a = none)
      (hclean : (0 : UInt8) ∉ a ∧ chr '\r' ∉ a ∧ nl ∉ a) (hlen : a.length ≤ 255)
      (htext : q.text = (a ++ s).take 255) :
      (∃ reply, (socketHandle B env q.text d).1 = some reply ∧ reply.take 2 = ok) ↔
        Accepts env q.text := by
    have hnone : dispatch (received q.text) = none := by
      rw [htext, take_append_eq hlen, received_append (by omega) hclean.1 hclean.2.1 hclean.2.2,
        dispatch_append hdecides, hdispatch]
    refine iff_of_false ?_ (by simp [Accepts, hnone])
    rintro ⟨reply, hreply, htake⟩
    unfold socketHandle at hreply
    split at hreply
    · exact absurd hreply (by simp)
    · rw [hnone] at hreply
      exact herr ((Option.some.inj hreply) ▸ htake)
  cases h with
  | set key val cap h =>
    obtain ⟨-, -, -, hspace, -⟩ := configKeys_clean key h.key_mem
    have hreceived := h.received_eq
    obtain ⟨d', hd', -⟩ := socketHandle_setConfig hspace hreceived B env d
    have hdispatch : dispatch (received q.text) = some (.setConfig, 11) := by
      rw [hreceived, dispatch_append (by decide)]
      decide
    refine iff_of_true ⟨ok, by rw [hd'], hok⟩ ?_
    simp [Accepts, hdispatch]
  | advanced key val htext =>
    obtain ⟨arg, harg, -, hdispatch, hdrop⟩ := received_advancedSet htext
    rw [socketHandle_of_verb .advancedSet harg (by decide) (by decide)
      (by decide)]
    simp only [Option.some.injEq, exists_eq_left', Accepts, hdispatch, hdrop]
    exact reply_advancedSet arg
  | add name htext =>
    exact hunknown (by decide) (by decide) (by decide) (by decide)
      htext
  | remove name htext =>
    exact hunknown (by decide) (by decide) (by decide) (by decide)
      htext

/-! ### The fallback -/

variable {e : ConfigWriteEnv}

/-- A command cut to its buffer still begins with its word. -/
theorem strncmp_take {a : Bytes} {n : ℕ} (hn : a.length = n) (hle : n ≤ 255) (s : Bytes) :
    strncmp ((a ++ s).take 255) a n = true := by
  subst hn
  unfold strncmp
  rw [List.take_take, min_eq_left hle, List.take_left, List.take_length]
  exact beq_self_eq_true a

/-- **The branch.** Every command of `config_write` has something to write, so the branch is taken
whenever `socket_send` fails. -/
theorem direct_configWrite (h : ConfigCommand q entry) :
    (configWrite B e q entry d).direct = true ↔
      (socketSend B e.daemon e.link q.text d).1 ≠ errSuccess := by
  unfold configWrite
  dsimp only
  by_cases hsend : (socketSend B e.daemon e.link q.text d).1 = 0
  · rw [if_pos hsend]
    exact iff_of_false Bool.false_ne_true (not_not.mpr hsend)
  · rw [if_neg hsend]
    refine iff_of_true ?_ hsend
    cases h with
    | set => rfl
    | advanced => rfl
    | add name htext =>
      have hadd := strncmp_take (a := lit "GAME_ADD ") (n := 9) (by decide) (by omega) name
      rw [← htext] at hadd
      simp only [hadd, if_true]
    | remove name htext =>
      have hremove := strncmp_take (a := lit "GAME_REMOVE ") (n := 12) (by decide) (by omega) name
      rw [← htext] at hremove
      simp only [hremove, if_true]
      split <;> rfl

/-- **A rejection is respected.** When the daemon answers anything but `OK`, the client writes
nothing and does not report success; and it writes the file itself only if it could not
connect. -/
structure RespectsDaemon (B : Build) (e : ConfigWriteEnv) (q : CliRequest)
    (entry : Option (Bytes × Bytes)) (d : Daemon) : Prop where
  rejected (buf : Bytes) (hdelivers : e.link.Delivers)
    (hanswer : e.link.receive 16 (socketHandle B e.daemon q.text d).1 = some buf)
    (hbuf : buf.take 2 ≠ ok) :
    (configWrite B e q entry d).direct = false ∧ (configWrite B e q entry d).ret ≠ 0 ∧
      (configWrite B e q entry d).daemon.conf = (socketSend B e.daemon e.link q.text d).2.conf
  offline (hdirect : (configWrite B e q entry d).direct = true) : e.link.connects = false

/-- A success means that what was read begins with `OK`. -/
theorem take_of_socketSend_ok {l : Link} {cmd buf : Bytes}
    (h : (socketSend B env l cmd d).1 = errSuccess)
    (hanswer : l.receive 16 (socketHandle B env cmd d).1 = some buf) : buf.take 2 = ok := by
  have htwo : ok.take 2 = ok := by decide
  unfold socketSend at h
  split at h
  · simp only [hanswer, strncmp, htwo, beq_iff_eq] at h
    by_contra hne
    rw [if_neg hne] at h
    exact absurd h (by decide : errIpc ≠ errSuccess)
  · exact absurd h (by decide : errIpc ≠ errSuccess)

/-- **When the daemon's answer is respected.** If a connection was made, the request must get
there, the answer must get back, and it must be `OK`. -/
theorem respectsDaemon_iff {handler : List Bytes → List CliAction} {argv : List Bytes}
    (hhandler : handler ∈ cliHandlers) (hact : .configWrite q entry ∈ handler argv) (B : Build)
    (e : ConfigWriteEnv) (d : Daemon) :
    RespectsDaemon B e q entry d ↔
      (e.link.connects = true → e.link.Delivers ∧ e.link.Hears ∧ Accepts e.daemon q.text) := by
  have hcommand := configCommand_of_mem hhandler hact
  have hsuccess : (socketSend B e.daemon e.link q.text d).1 = errSuccess ↔
      e.link.Delivers ∧ e.link.Hears ∧ Accepts e.daemon q.text := by
    rw [socketSend_ok_iff, reply_configCommand hcommand]
  rw [← hsuccess]
  constructor
  · intro h hconnects
    by_contra hfail
    have hoffline := h.offline ((direct_configWrite hcommand).mpr hfail)
    rw [hconnects] at hoffline
    exact Bool.noConfusion hoffline
  · intro h
    refine ⟨fun buf hdelivers hanswer hbuf => ?_, fun hdirect => ?_⟩
    · exact absurd (take_of_socketSend_ok (h hdelivers.1) hanswer) hbuf
    · have hfail := (direct_configWrite hcommand).mp hdirect
      exact Bool.eq_false_of_not_eq_true fun hconnects => hfail (h hconnects)

end

/-- A client on a machine on which every call succeeds. -/
def ConfigWriteEnv.allOk : ConfigWriteEnv where
  link := .allOk
  daemon := .allOk
  update := (RequestEnv.allOk).update
  games := .allOk

/-- The rule for `detection 2`. -/
theorem respectsDaemon_iff_detection :
    RespectsDaemon shippedBuild .allOk
        ⟨lit "SET_CONFIG", [lit "DETECTION_LEVEL", lit "2"], some 128,
          lit "SET_CONFIG DETECTION_LEVEL %s", [lit "2"]⟩
        (some (lit "DETECTION_LEVEL", lit "2")) (boot shippedBuild (.allOk none)) ↔
      (Link.allOk.connects = true → Link.allOk.Delivers ∧ Link.allOk.Hears ∧
        Accepts .allOk (CliRequest.mk (lit "SET_CONFIG") [lit "DETECTION_LEVEL", lit "2"] (some 128)
          (lit "SET_CONFIG DETECTION_LEVEL %s") [lit "2"]).text) :=
  respectsDaemon_iff (show cliConfigDetection ∈ cliHandlers by simp [cliHandlers])
    (show _ ∈ cliConfigDetection [lit "x3d-toggle", lit "detection", lit "2"] by
      simp [cliConfigDetection, setConfigArg]) _ _ _

/-- The daemon answers `ERR` to `GAME_ADD`, and the client writes the file. -/
theorem rejected_command_applied :
    ¬∀ (B : Build) (s : Running) (e : ConfigWriteEnv) (handler : List Bytes → List CliAction)
      (argv : List Bytes) (q : CliRequest) (entry : Option (Bytes × Bytes)),
      (daemonMachine B).Reachable s → handler ∈ cliHandlers →
      .configWrite q entry ∈ handler argv → RespectsDaemon B e q entry s.daemon := by
  intro h
  have hrespects := h shippedBuild ⟨boot shippedBuild (.allOk none), .select⟩ .allOk cliConfigAdd
    [lit "x3d-toggle", lit "add", lit "game"]
    ⟨lit "GAME_ADD", [lit "game"], some 256, lit "GAME_ADD %s", [lit "game"]⟩ none
    (Machine.Reachable.of_init ⟨_, rfl⟩) (by simp [cliHandlers]) (by simp [cliConfigAdd, gameArg])
  have hanswer : Link.allOk.receive 16 (socketHandle shippedBuild .allOk
      (CliRequest.mk (lit "GAME_ADD") [lit "game"] (some 256) (lit "GAME_ADD %s") [lit "game"]).text
      (boot shippedBuild (.allOk none))).1 = some err := by
    decide
  have hret := (hrespects.rejected err ⟨rfl, rfl, rfl⟩ hanswer (by decide)).2.1
  refine hret ?_
  decide

end X3D
