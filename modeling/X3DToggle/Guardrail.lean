import X3DToggle.Info
import X3DToggle.Worker

/-!
# The dashboard's guardrail

The GUI asks the daemon for `DAEMON_INFO` once a second. Where that fails it has the service
started, and then lets ten failing polls pass before it does so again. The reply is never empty, so
a poll fails only if the daemon is not there or its reply gets lost (`retCode_eq_iff`), and a poll
that succeeds sets the counter back. What counts is therefore how long the daemon has been out of
reach without a break: the service is started at the first, the 12th, the 23rd poll of such a
stretch, whatever came before it (`starts_iff`).
-/

namespace X3D

/-! ### A poll -/

/-- `socket_send(cmd, response, size)`: its result, with what it leaves in `response`, and the
daemon after it. -/
def socketSendInto (B : Build) (env : RequestEnv) (l : Link) (size : ℕ) (cmd : Bytes) (d : Daemon) :
    ℤ × Option Bytes × Daemon :=
  if l.Delivers then
    let (reply, d) := socketHandle B env cmd d
    match l.receive size reply with
    | none => (errIpc, none, d)
    | some buf => (errSuccess, some buf, d)
  else (errIpc, none, d)

theorem socketSendInto_eq_iff {B : Build} {env : RequestEnv} {l : Link} {size : ℕ} {cmd : Bytes}
    {d : Daemon} : (socketSendInto B env l size cmd d).1 = errSuccess ↔
      l.Delivers ∧ (l.receive size (socketHandle B env cmd d).1).isSome = true := by
  have hipc : errIpc ≠ errSuccess := by decide
  unfold socketSendInto
  by_cases hl : l.Delivers
  · rw [if_pos hl, and_iff_right hl]
    dsimp only
    cases l.receive size (socketHandle B env cmd d).1 with
    | none => exact iff_of_false hipc Bool.false_ne_true
    | some buf => exact iff_of_true rfl rfl
  · rw [if_neg hl]
    exact iff_of_false hipc fun h => hl h.1

/-- Of a reply that is not empty something arrives if `read` delivers anything. -/
theorem Link.receive_isSome_iff {l : Link} {size : ℕ} (hsize : 1 < size) (c : UInt8) (s : Bytes) :
    (l.receive size (some (c :: s))).isSome = true ↔ l.reads.any (0 < ·) = true := by
  unfold Link.receive
  cases l.reads with
  | none => exact Iff.rfl
  | some n =>
    dsimp only
    by_cases hn : n = 0
    · rw [hn, Nat.zero_min, List.take_zero, if_pos rfl]
      exact Iff.rfl
    · obtain ⟨k, hk⟩ : ∃ k, min n (size - 1) = k + 1 := ⟨min n (size - 1) - 1, by omega⟩
      rw [hk, List.take_succ_cons, if_neg (List.cons_ne_nil _ _)]
      exact iff_of_true rfl (decide_eq_true (Nat.pos_of_ne_zero hn))

/-- What a poll of the dashboard meets. -/
structure DashboardPoll where
  env : RequestEnv
  link : Link
  daemon : Daemon

namespace DashboardPoll

/-- What the `socket_send` of the poll returns. -/
def retCode (B : Build) (p : DashboardPoll) : ℤ :=
  (socketSendInto B p.env p.link 128 (lit "DAEMON_INFO") p.daemon).1

/-- The daemon sees the request, and the GUI reads some of its reply. -/
def Reached (p : DashboardPoll) : Prop :=
  p.link.Delivers ∧ p.link.reads.any (0 < ·) = true

instance (p : DashboardPoll) : Decidable p.Reached := inferInstanceAs (Decidable (_ ∧ _))

/-- **A poll fails only on the way.** -/
theorem retCode_eq_iff {B : Build} {p : DashboardPoll} :
    p.retCode B = errSuccess ↔ p.Reached := by
  unfold retCode Reached
  rw [socketSendInto_eq_iff, reply_daemonInfo]
  -- the reply begins with the name of its first field
  exact and_congr_right fun _ => Link.receive_isSome_iff (by decide) (chr 'S')
    ((infoText (p.daemon.cfg.str .daemonState).val (xuiItoa p.daemon.activeOverride)
      (xuiItoa (if p.daemon.bpfActive then 1 else 0))
      (fixed1Text (p.daemon.cfg.dbl .refreshInterval))
      ((p.daemon.cfg.str .affinityMask).val ++ lit "|CAPS=llx")).tail.take 510)

end DashboardPoll

/-! ### The counter -/

/-- What `update_dashboard_cb` does about the service after a `socket_send` that returned `rc`:
whether it has it started, and `daemon_retry_cooldown`. -/
def guardrail (rc : ℤ) (cooldown : ℤ) : Bool × ℤ :=
  if rc = errSuccess then (false, 0)
  else if cooldown ≤ 0 then (true, 10)
  else (false, cooldown - 1)

/-- The counter behind some polls. It is static, and starts at zero. -/
def retryCooldown (B : Build) (polls : List DashboardPoll) : ℤ :=
  polls.foldl (fun c p => (guardrail (p.retCode B) c).2) 0

/-- The poll `p`, behind `polls`, has the service started. -/
def StartsService (B : Build) (polls : List DashboardPoll) (p : DashboardPoll) : Prop :=
  (guardrail (p.retCode B) (retryCooldown B polls)).1 = true

/-- For how many polls the daemon has been out of reach. -/
def silence (polls : List DashboardPoll) : ℕ :=
  (polls.rtakeWhile fun p => ¬p.Reached).length

theorem retryCooldown_concat (B : Build) (polls : List DashboardPoll) (p : DashboardPoll) :
    retryCooldown B (polls ++ [p]) = (guardrail (p.retCode B) (retryCooldown B polls)).2 := by
  unfold retryCooldown
  rw [List.foldl_append, List.foldl_cons, List.foldl_nil]

theorem silence_concat (polls : List DashboardPoll) (p : DashboardPoll) :
    silence (polls ++ [p]) = if p.Reached then 0 else silence polls + 1 := by
  unfold silence
  by_cases h : p.Reached
  · rw [if_pos h, List.rtakeWhile_concat_neg _ _ _ (by simpa using h)]
    rfl
  · rw [if_neg h, List.rtakeWhile_concat_pos _ _ _ (by simpa using h), List.length_append,
      List.length_singleton]

/-- The counter goes round with the stretch of silence, in eleven polls. -/
theorem retryCooldown_eq (B : Build) (polls : List DashboardPoll) :
    retryCooldown B polls = (10 * silence polls : ℕ) % 11 := by
  induction polls using List.reverseRecOn with
  | nil => rfl
  | append_singleton polls p ih =>
    rw [retryCooldown_concat, silence_concat]
    unfold guardrail
    by_cases h : p.Reached
    · rw [if_pos (DashboardPoll.retCode_eq_iff.mpr h), if_pos h]
      rfl
    · rw [if_neg fun hrc => h (DashboardPoll.retCode_eq_iff.mp hrc), if_neg h, ih]
      -- at zero the counter is set to ten, otherwise it is one less
      split
      · dsimp only
        omega
      · dsimp only
        omega

/-- **When the service is started.** Whatever the polls so far have met, the next one has the
service started exactly if it does not reach the daemon and the silence in front of it is a
multiple of eleven polls. -/
theorem starts_iff (B : Build) (polls : List DashboardPoll) (p : DashboardPoll) :
    StartsService B polls p ↔ ¬p.Reached ∧ 11 ∣ silence polls := by
  unfold StartsService guardrail
  rw [retryCooldown_eq]
  by_cases h : p.Reached
  · rw [if_pos (DashboardPoll.retCode_eq_iff.mpr h)]
    exact iff_of_false Bool.false_ne_true fun hrc => hrc.1 h
  · rw [if_neg fun hrc => h (DashboardPoll.retCode_eq_iff.mp hrc), and_iff_right h]
    split
    · exact iff_of_true rfl (by omega)
    · exact iff_of_false Bool.false_ne_true (by omega)

end X3D
