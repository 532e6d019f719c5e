import X3DToggle.Worker

/-!
# Setting a mode

`SET_MODE` sets the override, writes the mode node, applies the partition, and says `OK`; it
does not look at the result of the write. `SET_UNPARK`, which writes the same node, reports it.
`setMode_honest_iff` says that the reply can be relied on exactly if the write goes through.

`ccd_change` is the client: it first puts the daemon in manual mode, whatever comes of that,
and then sends the mode. If the daemon does not say `OK` it writes the node itself, and there
it does check the result. Between the two requests the daemon goes its rounds.
-/

namespace X3D

/-- The modes a client asks for by name. -/
inductive CcdMode where
  | cache | frequency | dual | swap
  deriving DecidableEq

namespace CcdMode

/-- What is written to the node. -/
def text : CcdMode → Bytes
  | cache => lit "cache"
  | frequency => lit "frequency"
  | dual => lit "dual"
  | swap => lit "swap"

/-- The override that names the mode. -/
def override : CcdMode → ℤ
  | cache => 1
  | frequency => 2
  | dual => 3
  | swap => 4

/-- The partition of `cli_mode_apply`. -/
def partition : CcdMode → ℕ
  | cache => 1
  | frequency => 2
  | dual | swap => 0

/-- The mode the chain of `strstr` tests finds in an argument. -/
def named (val : Bytes) : Option CcdMode :=
  if contains val (lit "auto") || contains val (lit "default") || contains val (lit "reset") then
    none
  else if contains val (lit "cache") then some cache
  else if contains val (lit "frequency") then some frequency
  else if contains val (lit "dual") then some dual
  else if contains val (lit "swap") then some swap
  else none

end CcdMode

/-- The write of a mode: `cli_set_mode` with the path the process finds. -/
def writeMode (io : ModeIo) (cache target : Bytes) (node : Node) : ℤ × Node :=
  cliSetMode io (findPath io.access cache) target node

/-- There is a node, it can be opened, and the driver accepts the mode. -/
structure ModeIo.Settable (io : ModeIo) (cache : Bytes) : Prop where
  path : findPath io.access cache ≠ []
  writable : io.Writable

/-- What the client of `ccd_change` meets. -/
structure CcdEnv where
  -- the daemon and the connection on `SET_DAEMON manual`
  env1 : RequestEnv
  link1 : Link
  -- the rounds of the daemon between the requests
  rounds : Daemon → Daemon
  -- the connection on `SET_MODE`
  link2 : Link
  -- the calls of the client on the node, and the path it has cached
  io : ModeIo
  cache : Bytes

/-- The state in which the daemon gets `SET_MODE`. -/
def CcdEnv.between (B : Build) (e : CcdEnv) (d : Daemon) : Daemon :=
  e.rounds (socketSend B e.env1 e.link1 (lit "SET_DAEMON manual") d).2

/-- `ccd_change`: the result and the node; `env` is what the daemon meets on `SET_MODE`. -/
def ccdChange (B : Build) (e : CcdEnv) (env : RequestEnv) (t : CcdMode) (d : Daemon) : ℤ × Node :=
  let (ipcRes, d) := socketSend B env e.link2 (printfSn 64 (lit "SET_MODE %s") [.str t.text])
    (e.between B d)
  if ipcRes = errSuccess then (errSuccess, d.node)
  else
    let (hwRes, node) := writeMode e.io e.cache t.text d.node
    (if hwRes = errSuccess then errSuccess else errHw, node)

/-- **An honest reply.** `OK` means that the node accepted the mode and that the override names
it; a failed write is not answered `OK` and leaves the override alone; and `ccd_change` reports
success only if the node holds the mode. -/
structure HonestSetMode (B : Build) (env : RequestEnv) (t : CcdMode) (r : Bytes) (d : Daemon) :
    Prop where
  ok (h : (socketHandle B env r d).1 = some X3D.ok) :
    (writeMode env.io d.pathCache t.text d.node).1 = errSuccess ∧
      (socketHandle B env r d).2.node = (writeMode env.io d.pathCache t.text d.node).2 ∧
      (socketHandle B env r d).2.activeOverride = t.override
  failed (h : (writeMode env.io d.pathCache t.text d.node).1 ≠ errSuccess) :
    (socketHandle B env r d).1 ≠ some X3D.ok ∧
      (socketHandle B env r d).2.activeOverride = d.activeOverride
  ccd (e : CcdEnv) (d₀ : Daemon) (hd₀ : e.between B d₀ = d)
    (h : (ccdChange B e env t d₀).1 = errSuccess) : (ccdChange B e env t d₀).2.content = t.text

section

variable {B : Build} {env : RequestEnv} {t : CcdMode} {d : Daemon} {r val : Bytes}

theorem CcdMode.text_ne_nil : ∀ t : CcdMode, t.text ≠ [] := by
  intro t
  cases t <;> decide

/-- A write succeeds if the node is there and takes the mode. -/
theorem writeMode_ok_iff {io : ModeIo} {cache : Bytes} {node : Node} :
    (writeMode io cache t.text node).1 = errSuccess ↔ io.Settable cache := by
  have htext := t.text_ne_nil
  constructor
  · intro h
    unfold writeMode cliSetMode at h
    by_cases hpath : findPath io.access cache = []
    · rw [if_pos hpath] at h
      exact absurd h (by decide : errHw ≠ errSuccess)
    · rw [if_neg hpath] at h
      by_cases hopen : io.openWr = true
      · by_cases haccepts : io.accepts = true
        · exact ⟨hpath, hopen, haccepts⟩
        · simp [hopen, haccepts] at h
      · simp [hopen] at h
  · intro h
    unfold writeMode
    rw [cliSetMode_of_writable h.writable h.path htext]

theorem content_writeMode {io : ModeIo} {cache : Bytes} {node : Node} (h : io.Settable cache) :
    (writeMode io cache t.text node).2.content = t.text := by
  unfold writeMode
  rw [cliSetMode_of_writable h.writable h.path t.text_ne_nil]

/-- **`SET_MODE`.** It sets the override, writes the node, and says `OK`. -/
theorem handleSetMode_of_named (h : CcdMode.named val = some t) (env : RequestEnv) (d : Daemon) :
    (d.handleSetMode env val).1 = ok ∧
      (d.handleSetMode env val).2.activeOverride = t.override ∧
      (d.handleSetMode env val).2.node = (writeMode env.io d.pathCache t.text d.node).2 := by
  unfold CcdMode.named at h
  unfold Daemon.handleSetMode
  -- the chain of names is the same in both
  split at h
  · exact absurd h (by simp)
  next hauto =>
    rw [if_neg hauto]
    split at h
    next hname =>
      obtain rfl := Option.some.inj h
      rw [if_pos hname]
      exact ⟨rfl, rfl, rfl⟩
    next hcache =>
      rw [if_neg hcache]
      split at h
      next hname =>
        obtain rfl := Option.some.inj h
        rw [if_pos hname]
        exact ⟨rfl, rfl, rfl⟩
      next hfreq =>
        rw [if_neg hfreq]
        split at h
        next hname =>
          obtain rfl := Option.some.inj h
          rw [if_pos hname]
          exact ⟨rfl, rfl, rfl⟩
        next hdual =>
          rw [if_neg hdual]
          split at h
          next hname =>
            obtain rfl := Option.some.inj h
            rw [if_pos hname]
            exact ⟨rfl, rfl, rfl⟩
          · exact absurd h (by simp)

theorem socketHandle_setMode (h : CcdMode.named val = some t)
    (hr : received r = lit "SET_MODE " ++ val) (B : Build) (env : RequestEnv) (d : Daemon) :
    (socketHandle B env r d).1 = some ok ∧
      (socketHandle B env r d).2.activeOverride = t.override ∧
      (socketHandle B env r d).2.node = (writeMode env.io d.pathCache t.text d.node).2 := by
  have hhandle := socketHandle_of_verb .setMode hr (by decide)
    (by decide) (by decide) B env d
  obtain ⟨hreply, hoverride, hnode⟩ := handleSetMode_of_named h env d
  rw [hhandle]
  exact ⟨congrArg some hreply, hoverride, hnode⟩

/-- The command of `ccd_change` names its mode. -/
theorem received_ccdCommand (t : CcdMode) :
    received (printfSn 64 (lit "SET_MODE %s") [.str t.text]) = lit "SET_MODE " ++ t.text ∧
      CcdMode.named t.text = some t := by
  cases t <;> constructor <;> decide

/-- What `ccd_change` reports when the daemon's write goes through, or its own. -/
theorem ccdChange_content (e : CcdEnv) (hset : env.io.Settable (e.between B d).pathCache)
    (h : (ccdChange B e env t d).1 = errSuccess) : (ccdChange B e env t d).2.content = t.text := by
  obtain ⟨hreceived, hnamed⟩ := received_ccdCommand t
  unfold ccdChange at h ⊢
  dsimp only at h ⊢
  split
  next hok =>
    -- the daemon has answered, so it has handled the request
    obtain ⟨hdelivers, -⟩ := socketSend_ok_iff.mp hok
    rw [socketSend_daemon, if_pos hdelivers, (socketHandle_setMode hnamed hreceived _ _ _).2.2]
    exact content_writeMode hset
  next hfail =>
    rw [if_neg hfail] at h
    dsimp only at h ⊢
    split at h
    next hwrite => exact content_writeMode (writeMode_ok_iff.mp hwrite)
    · exact absurd h (by decide)

/-- **When `OK` can be relied on.** Exactly if there is a node and it takes the mode. -/
theorem setMode_honest_iff (hname : CcdMode.named val = some t)
    (hr : received r = lit "SET_MODE " ++ val) :
    HonestSetMode B env t r d ↔ env.io.Settable d.pathCache := by
  obtain ⟨hreply, hoverride, hnode⟩ := socketHandle_setMode hname hr B env d
  constructor
  · intro h
    by_contra hset
    exact (h.failed (mt writeMode_ok_iff.mp hset)).1 hreply
  · intro hset
    have hwrite : (writeMode env.io d.pathCache t.text d.node).1 = errSuccess :=
      writeMode_ok_iff.mpr hset
    refine ⟨fun _ => ⟨hwrite, hnode, hoverride⟩, fun hfail => absurd hwrite hfail, ?_⟩
    rintro e d₀ rfl h
    exact ccdChange_content e hset h

end

/-- The rule for a machine on which every call succeeds. -/
theorem setMode_honest_iff_cache :
    HonestSetMode shippedBuild .allOk .cache (lit "SET_MODE cache")
      (boot shippedBuild (.allOk none)) ↔
      ModeIo.allOk.Settable (boot shippedBuild (.allOk none)).pathCache :=
  setMode_honest_iff (by decide : CcdMode.named (lit "cache") = some .cache)
    (by decide)

/-- A driver that rejects what is written. -/
def ModeIo.rejects : ModeIo := { ModeIo.allOk with accepts := false }

/-- The driver rejects the mode, and the daemon says `OK`. -/
theorem rejected_mode_ok :
    ¬∀ (B : Build) (s : Running) (env : RequestEnv) (t : CcdMode) (r val : Bytes),
      (daemonMachine B).Reachable s → CcdMode.named val = some t →
      received r = lit "SET_MODE " ++ val → HonestSetMode B env t r s.daemon := by
  intro h
  have hhonest := h shippedBuild ⟨boot shippedBuild (.allOk none), .select⟩
    { RequestEnv.allOk with io := .rejects } .cache (lit "SET_MODE cache") (lit "cache")
    (Machine.Reachable.of_init ⟨_, rfl⟩) (by decide) (by decide)
  have hreply : (socketHandle shippedBuild { RequestEnv.allOk with io := .rejects }
      (lit "SET_MODE cache") (boot shippedBuild (.allOk none))).1 = some ok := by
    decide
  have haccepts := (writeMode_ok_iff.mp (hhonest.ok hreply).1).writable.accepts
  exact Bool.noConfusion haccepts

end X3D
