import X3DToggle.Lib.Memory
import X3DToggle.Games

/-!
# Trimming in place

`trim_ws_inplace` works on the buffer itself: it looks for the first character that is no space,
for the last one, terminates the string there and moves it to the front of the buffer. The string
and the place it is moved to overlap. `memmove` chooses its direction by the two addresses, so it
moves a block whatever the overlap (`memmove_eq_moved`); `memcpy` always goes upwards and does so
only where the target does not begin inside the source (`memcpy_eq_moved_iff`).

`trimWsInplace_refines` is the connection with the editors of the game list, which know the result
as `trimWs`: the buffer holds the trimmed string, and no byte outside the old string is written.
-/

namespace X3D

/-- What the bytes at the addresses are. -/
abbrev Memory := ℕ → UInt8

/-! ### The code -/

/-- The `else` branch of `memmove`: `while (n--) *--d = *--s`. -/
def memmoveDown : ℕ → ℕ → ℕ → Memory → Memory
  | _, _, 0, m => m
  | d, s, n + 1, m => memmoveDown (d - 1) (s - 1) n (Function.update m (d - 1) (m (s - 1)))

/-- `memmove(d, s, n)`. -/
def memmove (d s n : ℕ) (m : Memory) : Memory :=
  if d < s then copyUp d s n m else memmoveDown (d + n) (s + n) n m

/-- `memcpy(d, s, n)` on blocks of one memory. -/
def memcpyWithin (d s n : ℕ) (m : Memory) : Memory := copyUp d s n m

/-- `while (*start && isspace((unsigned char)*start)) start++`. -/
def skipSpaces (m : Memory) : ℕ → ℕ → ℕ
  | 0, p => p
  | fuel + 1, p => if m p ≠ 0 ∧ isspace (m p) then skipSpaces m fuel (p + 1) else p

/-- `start + strlen(start)`. -/
def terminatorFrom (m : Memory) : ℕ → ℕ → ℕ
  | 0, p => p
  | fuel + 1, p => if m p = 0 then p else terminatorFrom m fuel (p + 1)

/-- `while (end > start && isspace((unsigned char)*(end - 1))) end--`. -/
def trimEnd (m : Memory) (start : ℕ) : ℕ → ℕ
  | 0 => 0
  | stop + 1 => if start < stop + 1 ∧ isspace (m stop) then trimEnd m start stop else stop + 1

/-- `trim_ws_inplace(s)`. The fuel bounds the loops that look for the end of the string. -/
def trimWsInplace (fuel : ℕ) (m : Memory) (s : ℕ) : Memory :=
  let start := skipSpaces m fuel s
  let stop := trimEnd m start (terminatorFrom m fuel start)
  let m := Function.update m stop 0
  if start ≠ s then memmove s start (stop - start + 1) m else m

/-! ### Blocks of memory -/

theorem memmoveDown_eq (d s n : ℕ) (m : Memory) :
    memmoveDown (d + n) (s + n) n m = copyDown d s n m := by
  induction n generalizing m with
  | zero => rfl
  | succ n ih => exact ih _

instance nontrivial_uint8 : Nontrivial UInt8 := ⟨0, 1, by decide⟩

/-- **`memmove` moves.** However the blocks overlap, every byte arrives as it was. -/
theorem memmove_eq_moved (d s n : ℕ) (m : Memory) : memmove d s n m = moved d s n m := by
  unfold memmove
  by_cases h : d < s
  · rw [if_pos h]
    exact copyUp_eq_moved_iff.mpr (Or.inl h.le) m
  · rw [if_neg h, memmoveDown_eq]
    exact copyDown_eq_moved (not_lt.mp h) n m

/-- **When `memcpy` moves.** -/
theorem memcpy_eq_moved_iff (d s n : ℕ) :
    (∀ m, memcpyWithin d s n m = moved d s n m) ↔ d ≤ s ∨ s + n ≤ d :=
  copyUp_eq_moved_iff

/-- The bytes `u` are at address `p`. -/
def BytesAt (m : Memory) : ℕ → Bytes → Prop
  | _, [] => True
  | p, c :: u => m p = c ∧ BytesAt m (p + 1) u

/-- The string `t` is at address `p`. -/
def StringAt (m : Memory) (p : ℕ) (t : Bytes) : Prop := BytesAt m p (t ++ [0]) ∧ (0 : UInt8) ∉ t

section

variable {m m' : Memory} {p fuel : ℕ} {u v t : Bytes}

theorem bytesAt_append :
    BytesAt m p (u ++ v) ↔ BytesAt m p u ∧ BytesAt m (p + u.length) v := by
  induction u generalizing p with
  | nil => exact (and_iff_right trivial).symm
  | cons c u ih =>
    rw [List.cons_append, BytesAt, BytesAt, ih, and_assoc, List.length_cons,
      show p + 1 + u.length = p + (u.length + 1) by omega]

/-- Bytes are found again at another address, in another memory, if the cells agree. -/
theorem BytesAt.of_agree (q : ℕ) (h : BytesAt m p u)
    (hcell : ∀ k < u.length, m' (q + k) = m (p + k)) : BytesAt m' q u := by
  induction u generalizing p q with
  | nil => trivial
  | cons c u ih =>
    refine ⟨(hcell 0 (Nat.zero_lt_succ _)).trans h.1, ih (q + 1) h.2 fun k hk => ?_⟩
    have hnext := hcell (k + 1) (Nat.succ_lt_succ hk)
    rwa [show q + (k + 1) = q + 1 + k by omega, show p + (k + 1) = p + 1 + k by omega] at hnext

/-! ### The loops on a string -/

theorem skipSpaces_eq (h : BytesAt m p (t ++ [0])) (hz : (0 : UInt8) ∉ t)
    (hfuel : t.length ≤ fuel) :
    skipSpaces m fuel p = p + (t.takeWhile isspace).length := by
  induction t generalizing p fuel with
  | nil =>
    cases fuel with
    | zero => rfl
    | succ fuel => exact if_neg fun hne => hne.1 h.1
  | cons c t ih =>
    obtain ⟨fuel, rfl⟩ := Nat.exists_eq_succ_of_ne_zero (Nat.ne_of_gt (Nat.lt_of_lt_of_le
      (Nat.zero_lt_succ _) hfuel))
    have hc : m p = c := h.1
    rw [List.mem_cons, not_or] at hz
    rw [skipSpaces, hc]
    by_cases hspace : isspace c = true
    · rw [if_pos ⟨Ne.symm hz.1, hspace⟩, List.takeWhile_cons_of_pos hspace,
        ih h.2 hz.2 (Nat.le_of_succ_le_succ hfuel), List.length_cons]
      omega
    · rw [if_neg fun hboth => hspace hboth.2, List.takeWhile_cons_of_neg hspace]
      rfl

theorem terminatorFrom_eq (h : BytesAt m p (t ++ [0])) (hz : (0 : UInt8) ∉ t)
    (hfuel : t.length ≤ fuel) : terminatorFrom m fuel p = p + t.length := by
  induction t generalizing p fuel with
  | nil =>
    cases fuel with
    | zero => rfl
    | succ fuel => exact if_pos h.1
  | cons c t ih =>
    obtain ⟨fuel, rfl⟩ := Nat.exists_eq_succ_of_ne_zero (Nat.ne_of_gt (Nat.lt_of_lt_of_le
      (Nat.zero_lt_succ _) hfuel))
    have hc : m p = c := h.1
    rw [List.mem_cons, not_or] at hz
    rw [terminatorFrom, hc, if_neg (Ne.symm hz.1), ih h.2 hz.2 (Nat.le_of_succ_le_succ hfuel),
      List.length_cons]
    omega

theorem trimEnd_eq (h : BytesAt m p u) :
    trimEnd m p (p + u.length) = p + (u.rdropWhile isspace).length := by
  induction u using List.reverseRecOn with
  | nil =>
    cases p with
    | zero => rfl
    | succ p => exact if_neg fun hlt => absurd hlt.1 (lt_irrefl _)
  | append_singleton u c ih =>
    obtain ⟨hu, hc, -⟩ := bytesAt_append.mp h
    rw [List.length_append, List.length_singleton, ← Nat.add_assoc, trimEnd, hc]
    by_cases hspace : isspace c = true
    · rw [if_pos ⟨by omega, hspace⟩, ih hu, List.rdropWhile_concat_pos isspace u c hspace]
    · rw [if_neg fun hboth => hspace hboth.2, List.rdropWhile_concat_neg isspace u c hspace,
        List.length_append, List.length_singleton]
      omega

/-! ### The refinement -/

/-- **Trimming in place trims.** What is at the address afterwards is the string the editors of the
game list compare, and the memory around the old string is as it was. -/
theorem trimWsInplace_refines (h : StringAt m p t) (hfuel : t.length ≤ fuel) :
    StringAt (trimWsInplace fuel m p) p (trimWs t) ∧
      ∀ a, a < p ∨ p + t.length < a → trimWsInplace fuel m p a = m a := by
  obtain ⟨hbytes, hz⟩ := h
  -- the blanks in front, the rest, and the rest without the blanks behind it
  set lead := t.takeWhile isspace with hlead
  set rest := t.dropWhile isspace with hrest
  have hsplit : t = lead ++ rest := List.takeWhile_append_dropWhile.symm
  have htrim : trimWs t = rest.rdropWhile isspace := rfl
  have hlen : t.length = lead.length + rest.length := by
    conv_lhs => rw [hsplit, List.length_append]
  obtain ⟨tail, htail⟩ : ∃ tail, rest = trimWs t ++ tail := by
    obtain ⟨tail, htail⟩ := List.rdropWhile_prefix isspace (l := rest)
    exact ⟨tail, htail.symm⟩
  have hrestlen : rest.length = (trimWs t).length + tail.length := by
    conv_lhs => rw [htail, List.length_append]
  have hzrest : (0 : UInt8) ∉ rest := fun hmem => hz (hsplit ▸ List.mem_append_right _ hmem)
  have hrestAt : BytesAt m (p + lead.length) (rest ++ [0]) := by
    rw [hsplit, List.append_assoc] at hbytes
    exact (bytesAt_append.mp hbytes).2
  have hstart : skipSpaces m fuel p = p + lead.length := skipSpaces_eq hbytes hz hfuel
  have hend : terminatorFrom m fuel (p + lead.length) = p + lead.length + rest.length :=
    terminatorFrom_eq hrestAt hzrest (by omega)
  have hstop : trimEnd m (p + lead.length) (p + lead.length + rest.length) =
      p + lead.length + (trimWs t).length :=
    trimEnd_eq (bytesAt_append.mp hrestAt).1
  -- the memory with the new terminator
  set stop := p + lead.length + (trimWs t).length with hstopdef
  have hcut : BytesAt (Function.update m stop 0) (p + lead.length) (trimWs t ++ [0]) := by
    refine bytesAt_append.mpr ⟨?_, Function.update_self _ _ _, trivial⟩
    rw [htail, List.append_assoc] at hrestAt
    refine (bytesAt_append.mp hrestAt).1.of_agree _ fun k hk => ?_
    exact Function.update_of_ne (by omega) _ _
  have hcutframe : ∀ a, a < p ∨ p + t.length < a → Function.update m stop 0 a = m a := fun a ha =>
    Function.update_of_ne (by omega) _ _
  have hztrim : (0 : UInt8) ∉ trimWs t := fun hmem => hzrest (htail ▸ List.mem_append_left _ hmem)
  have hunfold : trimWsInplace fuel m p =
      if p + lead.length ≠ p then
        memmove p (p + lead.length) ((trimWs t).length + 1) (Function.update m stop 0)
      else Function.update m stop 0 := by
    unfold trimWsInplace
    dsimp only
    rw [hstart, hend, hstop, show stop - (p + lead.length) = (trimWs t).length by omega]
  rw [hunfold]
  by_cases hmove : p + lead.length ≠ p
  · rw [if_pos hmove, memmove_eq_moved]
    refine ⟨⟨hcut.of_agree p fun k hk => moved_add ?_ _, hztrim⟩, fun a ha => ?_⟩
    · rwa [List.length_append, List.length_singleton] at hk
    · rw [moved_of_lt_or_le (by omega), hcutframe a ha]
  · rw [if_neg hmove]
    rw [not_not] at hmove
    exact ⟨⟨hmove ▸ hcut, hztrim⟩, hcutframe⟩

/-- Blanks on both sides of a name. -/
theorem trimWsInplace_blanks :
    let m : Memory := fun a => (lit "x  Quake ").getD a 0
    StringAt (trimWsInplace 8 m 1) 1 (lit "Quake") ∧
      ∀ a, a < 1 ∨ 1 + 8 < a → trimWsInplace 8 m 1 a = m a := by
  intro m
  have hname : trimWs (lit "  Quake ") = lit "Quake" := by decide
  have hat : StringAt m 1 (lit "  Quake ") :=
    ⟨⟨rfl, rfl, rfl, rfl, rfl, rfl, rfl, rfl, rfl, trivial⟩, by decide⟩
  have hrefines := trimWsInplace_refines hat (show (lit "  Quake ").length ≤ 8 by decide)
  rwa [hname] at hrefines

end

end X3D
