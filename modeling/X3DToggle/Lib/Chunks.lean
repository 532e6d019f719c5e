import Mathlib.Data.List.Infix
import Mathlib.Tactic.Common

/-!
# Searching a stream chunk by chunk

A text arrives in chunks, and each chunk is searched on its own. What is found is what lies whole
in a chunk. In terms of the text alone: an occurrence is found exactly if no boundary between
chunks cuts it (`exists_mem_chunk_iff`). A search may also give up in a chunk once it has passed
an element it stops at; then such an element may stand in front of the occurrence only if a
boundary separates them.
-/

namespace X3D

variable {α : Type*}

/-- The positions in the text at which a chunk begins, and its end. -/
def cuts : List (List α) → List ℕ
  | [] => [0]
  | c :: cs => 0 :: (cuts cs).map (c.length + ·)

/-- No boundary lies inside the `len` elements from position `k` on. -/
def Uncut (cs : List (List α)) (k len : ℕ) : Prop := ∀ b ∈ cuts cs, b ≤ k ∨ k + len ≤ b

/-- A boundary separates every element to stop at from the position `k` behind it. -/
def Unstopped (stop : α → Prop) (cs : List (List α)) (k : ℕ) : Prop :=
  ∀ z x, z < k → cs.flatten[z]? = some x → stop x → ∃ b ∈ cuts cs, z < b ∧ b ≤ k

theorem forall_mem_cuts_cons {p : ℕ → Prop} (c : List α) (cs : List (List α)) :
    (∀ b ∈ cuts (c :: cs), p b) ↔ p 0 ∧ ∀ b ∈ cuts cs, p (c.length + b) := by
  rw [cuts, List.forall_mem_cons, List.forall_mem_map]

theorem zero_mem_cuts (cs : List (List α)) : 0 ∈ cuts cs := by
  cases cs with
  | nil => exact List.mem_singleton.mpr rfl
  | cons c cs => exact List.mem_cons_self

theorem add_mem_cuts {c : List α} {cs : List (List α)} {b : ℕ} (h : b ∈ cuts cs) :
    c.length + b ∈ cuts (c :: cs) :=
  List.mem_cons_of_mem 0 (List.mem_map_of_mem h)

/-- A boundary behind the first chunk is one of the rest. -/
theorem exists_of_mem_cuts_cons {c : List α} {cs : List (List α)} {b : ℕ}
    (h : b ∈ cuts (c :: cs)) : b = 0 ∨ ∃ b' ∈ cuts cs, b = c.length + b' := by
  rcases List.mem_cons.mp h with rfl | h
  · exact Or.inl rfl
  · obtain ⟨b', hb', rfl⟩ := List.mem_map.mp h
    exact Or.inr ⟨b', hb', rfl⟩

/-! ### Behind the first chunk -/

variable {c : List α} {cs : List (List α)} {stop : α → Prop}

/-- Behind the first chunk the text is that of the others. -/
theorem drop_flatten_cons (c : List α) (cs : List (List α)) (k : ℕ) :
    (c :: cs).flatten.drop (c.length + k) = cs.flatten.drop k := by
  rw [List.flatten_cons, List.drop_append, List.drop_of_length_le (Nat.le_add_right _ _),
    List.nil_append, Nat.add_sub_cancel_left]

theorem uncut_cons_iff {k len : ℕ} : Uncut (c :: cs) (c.length + k) len ↔ Uncut cs k len := by
  unfold Uncut
  rw [forall_mem_cuts_cons]
  constructor
  · rintro ⟨-, hrest⟩ b hb
    have := hrest b hb
    omega
  · intro huncut
    refine ⟨Or.inl (Nat.zero_le _), fun b hb => ?_⟩
    have := huncut b hb
    omega

/-- What is in the first chunk is separated from all behind it. -/
theorem unstopped_cons_iff {k : ℕ} :
    Unstopped stop (c :: cs) (c.length + k) ↔ Unstopped stop cs k := by
  constructor
  · intro hstop z x hz hx hstopx
    have hget : (c :: cs).flatten[c.length + z]? = some x := by
      rw [List.flatten_cons, List.getElem?_append_right (Nat.le_add_right _ _),
        Nat.add_sub_cancel_left, hx]
    obtain ⟨b, hb, hzb, hbk⟩ := hstop (c.length + z) x (by omega) hget hstopx
    rcases exists_of_mem_cuts_cons hb with rfl | ⟨b', hb', rfl⟩
    · omega
    · exact ⟨b', hb', by omega, by omega⟩
  · intro hstop z x hz hx hstopx
    rcases Nat.lt_or_ge z c.length with hlt | hge
    · exact ⟨c.length + 0, add_mem_cuts (zero_mem_cuts cs), by omega, by omega⟩
    · rw [List.flatten_cons, List.getElem?_append_right hge] at hx
      obtain ⟨b, hb, hzb, hbk⟩ := hstop (z - c.length) x (by omega) hx hstopx
      exact ⟨c.length + b, add_mem_cuts hb, by omega, by omega⟩

/-! ### In the first chunk -/

/-- What the search of the first chunk finds. -/
theorem exists_first_chunk_iff (stop : α → Prop) {n : List α} (hn : n ≠ []) (c : List α)
    (cs : List (List α)) :
    (∃ s t, c = s ++ n ++ t ∧ ∀ x ∈ s, ¬stop x) ↔
      ∃ k < c.length, n <+: (c :: cs).flatten.drop k ∧ Uncut (c :: cs) k n.length ∧
        Unstopped stop (c :: cs) k := by
  have hpos : 0 < n.length := List.length_pos_iff.mpr hn
  constructor
  · rintro ⟨s, t, rfl, hs⟩
    have hlen : (s ++ n ++ t).length = s.length + n.length + t.length := by
      rw [List.length_append, List.length_append]
    refine ⟨s.length, by omega, ?_, ?_, ?_⟩
    · rw [List.flatten_cons, List.append_assoc, List.append_assoc, List.drop_left]
      exact List.prefix_append n _
    · refine (forall_mem_cuts_cons _ cs).mpr ⟨Or.inl (Nat.zero_le _), fun b _ => Or.inr ?_⟩
      omega
    · intro z x hz hx hstop
      rw [List.flatten_cons, List.append_assoc, List.append_assoc,
        List.getElem?_append_left hz] at hx
      exact absurd hstop (hs x (List.mem_of_getElem? hx))
  · rintro ⟨k, hlt, hpre, huncut, hstop⟩
    -- the boundary behind the first chunk does not cut the occurrence
    have hend : k + n.length ≤ c.length := by
      have := huncut (c.length + 0) (add_mem_cuts (zero_mem_cuts cs))
      omega
    have hin : n <+: c.drop k := by
      rw [List.flatten_cons, List.drop_append_of_le_length hlt.le] at hpre
      refine List.prefix_of_prefix_length_le hpre (List.prefix_append _ _) ?_
      rw [List.length_drop]
      omega
    refine ⟨c.take k, (c.drop k).drop n.length, ?_, fun x hx hstopx => ?_⟩
    · rw [List.append_assoc, List.prefix_iff_eq_append.mp hin, List.take_append_drop]
    · obtain ⟨z, hz, hget⟩ := List.getElem_of_mem hx
      rw [List.length_take] at hz
      rw [List.getElem_take] at hget
      have hgetc : (c :: cs).flatten[z]? = some x := by
        rw [List.flatten_cons, List.getElem?_append_left (by omega), ← hget]
        exact List.getElem?_eq_getElem _
      obtain ⟨b, hb, hzb, hbk⟩ := hstop z x (by omega) hgetc hstopx
      rcases exists_of_mem_cuts_cons hb with rfl | ⟨b', -, rfl⟩ <;> omega

/-- **Found in a chunk.** A chunk has the needle, with nothing to stop at in front of it, exactly
if it occurs in the text where no boundary cuts it and every element to stop at is in an earlier
chunk. -/
theorem exists_mem_chunk_iff (stop : α → Prop) {n : List α} (hn : n ≠ []) (cs : List (List α)) :
    (∃ c ∈ cs, ∃ s t, c = s ++ n ++ t ∧ ∀ x ∈ s, ¬stop x) ↔
      ∃ k, n <+: cs.flatten.drop k ∧ Uncut cs k n.length ∧ Unstopped stop cs k := by
  induction cs with
  | nil =>
    refine iff_of_false (fun ⟨c, hc, _⟩ => absurd hc List.not_mem_nil) ?_
    rintro ⟨k, hpre, -⟩
    rw [List.flatten_nil, List.drop_nil] at hpre
    exact hn (List.prefix_nil.mp hpre)
  | cons c cs ih =>
    rw [List.exists_mem_cons_iff, ih, exists_first_chunk_iff stop hn c cs]
    constructor
    · rintro (⟨k, -, hfound⟩ | ⟨k, hpre, huncut, hstop⟩)
      · exact ⟨k, hfound⟩
      · refine ⟨c.length + k, ?_, uncut_cons_iff.mpr huncut, unstopped_cons_iff.mpr hstop⟩
        rwa [drop_flatten_cons]
    · rintro ⟨k, hfound⟩
      rcases Nat.lt_or_ge k c.length with hlt | hge
      · exact Or.inl ⟨k, hlt, hfound⟩
      · obtain ⟨k, rfl⟩ := Nat.exists_eq_add_of_le hge
        obtain ⟨hpre, huncut, hstop⟩ := hfound
        rw [drop_flatten_cons] at hpre
        exact Or.inr ⟨k, hpre, uncut_cons_iff.mp huncut, unstopped_cons_iff.mp hstop⟩

end X3D
