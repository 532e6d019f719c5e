import X3DToggle.Loop

/-!
# The client's side of a request

`socket_send` connects, sends one command and reads one reply. It has a single error code, so
its caller cannot tell a daemon that is not there from one that answers `ERR`, or from a reply
that is lost on the way.
-/

namespace X3D

/-- The outcomes of the calls of one `socket_send`. -/
structure Link where
  -- `socket` and `connect` succeed
  connects : Bool
  -- `send` succeeds
  sends : Bool
  -- the daemon takes the request before it stops
  served : Bool
  -- how many bytes `read` delivers at most, unless it fails
  reads : Option ℕ

/-- What `read` delivers of a reply into a buffer of `size` bytes, if it delivers anything. -/
def Link.receive (l : Link) (size : ℕ) (reply : Option Bytes) : Option Bytes :=
  match l.reads, reply with
  | some n, some s =>
    if s.take (min n (size - 1)) = [] then none else some (s.take (min n (size - 1)))
  | _, _ => none

/-- The daemon gets to see the request. -/
def Link.Delivers (l : Link) : Prop := l.connects = true ∧ l.sends = true ∧ l.served = true

instance (l : Link) : Decidable l.Delivers := inferInstanceAs (Decidable (_ ∧ _))

/-- `socket_send(cmd, NULL, 0)`: its result, and the daemon after it. -/
def socketSend (B : Build) (env : RequestEnv) (l : Link) (cmd : Bytes) (d : Daemon) :
    ℤ × Daemon :=
  if l.Delivers then
    let (reply, d) := socketHandle B env cmd d
    match l.receive 16 reply with
    | none => (errIpc, d)
    | some buf => (if strncmp buf ok 2 then errSuccess else errIpc, d)
  else (errIpc, d)

section

variable {B : Build} {env : RequestEnv} {l : Link} {cmd : Bytes} {d : Daemon}

/-- At least two bytes of a reply come through. -/
def Link.Hears (l : Link) : Prop := ∃ n, l.reads = some n ∧ 2 ≤ n

/-- **A positive reply.** `socket_send` succeeds if the daemon sees the request, its reply
begins with `OK`, and the client gets to read that much. -/
theorem socketSend_ok_iff :
    (socketSend B env l cmd d).1 = errSuccess ↔
      l.Delivers ∧ l.Hears ∧ ∃ reply, (socketHandle B env cmd d).1 = some reply ∧
        reply.take 2 = ok := by
  have hok : ok.length = 2 := by decide
  have htwo : ok.take 2 = ok := List.take_of_length_le hok.le
  unfold socketSend
  by_cases hl : l.Delivers
  · rw [if_pos hl]
    simp only [hl, true_and]
    cases hreply : (socketHandle B env cmd d).1 with
    | none =>
      refine iff_of_false ?_ (by simp)
      unfold Link.receive
      cases l.reads <;> simp
    | some reply =>
      cases hreads : l.reads with
      | none =>
        refine iff_of_false ?_ (by simp [Link.Hears, hreads])
        simp [Link.receive, hreads]
      | some n =>
        have hhears : l.Hears ↔ 2 ≤ n := by simp [Link.Hears, hreads]
        -- what is compared are the first two bytes that were read
        have hcut : (reply.take (min n 15)).take 2 = ok ↔ 2 ≤ n ∧ reply.take 2 = ok := by
          rw [List.take_take]
          by_cases hn : 2 ≤ n
          · rw [show min 2 (min n 15) = 2 by omega]
            simp [hn]
          · refine iff_of_false (fun h => ?_) fun h => hn h.1
            have hlen := congrArg List.length h
            rw [List.length_take, hok] at hlen
            omega
        simp only [Link.receive, hreads, hhears, Option.some.injEq, exists_eq_left', ← hcut]
        by_cases hnil : reply.take (min n (16 - 1)) = []
        · rw [if_pos hnil]
          have hne : ([] : Bytes) ≠ ok := by decide
          rw [show 16 - 1 = 15 from rfl] at hnil
          simp [hnil, hne]
        · rw [if_neg hnil]
          simp only [strncmp, htwo, beq_iff_eq]
          split
          next h => exact iff_of_true rfl h
          next h => exact iff_of_false (by decide) h
  · rw [if_neg hl]
    simp [hl]

/-- A daemon that sees the request has handled it, whatever becomes of its reply. -/
theorem socketSend_daemon :
    (socketSend B env l cmd d).2 = if l.Delivers then (socketHandle B env cmd d).2 else d := by
  unfold socketSend
  split
  · dsimp only
    split <;> rfl
  · rfl

end

/-- A link on which everything arrives. -/
def Link.allOk : Link where
  connects := true
  sends := true
  served := true
  reads := some 15

end X3D
