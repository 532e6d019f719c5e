import Mathlib

/-!
# Reading tokens into a short buffer

A text is read token by token into a buffer for `n` elements. A token ends in front of a separator,
which is then skipped, or where the buffer is full, and the next one goes on from there. Each field
of the text is thus cut into blocks (`filter_tokens`).
-/

namespace X3D

variable {α : Type*}

/-- A list in pieces of `n` elements, the last one of which may be shorter. -/
def blocks (n : ℕ) (l : List α) : List (List α) :=
  (List.range ((l.length + n - 1) / n)).map fun i => (l.drop (n * i)).take n

/-- What is read before the next separator, as far as the buffer goes. -/
def token (sep : α → Bool) (n : ℕ) (l : List α) : List α := (l.takeWhile (!sep ·)).take n

/-- What is left behind it, without the separator. -/
def afterToken (sep : α → Bool) (n : ℕ) (l : List α) : List α :=
  let rest := l.drop (token sep n l).length
  if rest.head?.any sep then rest.tail else rest

section

variable {n : ℕ} [NeZero n] {l : List α}

@[simp] theorem blocks_nil : blocks n ([] : List α) = [] := by
  have hzero : (([] : List α).length + n - 1) / n = 0 := by
    have hn := Nat.pos_of_neZero n
    rw [List.length_nil, Nat.zero_add]
    exact Nat.div_eq_of_lt (by omega)
  rw [blocks, hzero, List.range_zero, List.map_nil]

theorem blocks_of_ne_nil (h : l ≠ []) : blocks n l = l.take n :: blocks n (l.drop n) := by
  have hn := Nat.pos_of_neZero n
  have hpos := List.length_pos_iff.mpr h
  -- one block more than those of the rest
  have hcount : (l.length + n - 1) / n = ((l.drop n).length + n - 1) / n + 1 := by
    rw [List.length_drop]
    rcases Nat.lt_or_ge l.length n with hlt | hge
    · rw [Nat.div_eq_of_lt (show l.length - n + n - 1 < n by omega),
        show l.length + n - 1 = (l.length - 1) + n by omega, Nat.add_div_right _ hn,
        Nat.div_eq_of_lt (by omega)]
    · rw [show l.length + n - 1 = (l.length - n + n - 1) + n by omega, Nat.add_div_right _ hn]
  unfold blocks
  rw [hcount, List.range_succ_eq_map, List.map_cons, List.map_map, Nat.mul_zero, List.drop_zero]
  refine congrArg _ (List.map_congr_left fun i _ => ?_)
  rw [Function.comp_apply, List.drop_drop, Nat.mul_succ, Nat.add_comm]

theorem blocks_of_length_le (h : l ≠ []) (hle : l.length ≤ n) : blocks n l = [l] := by
  rw [blocks_of_ne_nil h, List.take_of_length_le hle, List.drop_of_length_le hle, blocks_nil]

omit [NeZero n] in
theorem length_le_of_mem_blocks {b : List α} (h : b ∈ blocks n l) : b.length ≤ n := by
  obtain ⟨i, -, rfl⟩ := List.mem_map.mp h
  exact List.length_take_le n _

end

/-! ### The reader -/

section

variable {sep : α → Bool} {n : ℕ} [NeZero n]

/-- Every token gets on. -/
theorem length_afterToken_lt (c : α) (s : List α) :
    (afterToken sep n (c :: s)).length < (c :: s).length := by
  have hn := Nat.pos_of_neZero n
  unfold afterToken
  dsimp only
  by_cases hc : sep c = true
  · -- at a separator nothing is read, and it is skipped
    have htoken : token sep n (c :: s) = [] := by
      rw [token, List.takeWhile_cons_of_neg (by simp [hc]), List.take_nil]
    rw [htoken, List.length_nil, List.drop_zero, List.head?_cons, Option.any_some, if_pos hc,
      List.tail_cons]
    exact Nat.lt_succ_self _
  · have htoken : 0 < (token sep n (c :: s)).length := by
      rw [token, List.takeWhile_cons_of_pos (by simp [hc]), List.length_take, List.length_cons]
      omega
    have hdrop : ((c :: s).drop (token sep n (c :: s)).length).length < (c :: s).length := by
      rw [List.length_drop, List.length_cons]
      omega
    split
    · rw [List.length_tail]
      omega
    · exact hdrop

/-- All tokens of a text. -/
def tokens (sep : α → Bool) (n : ℕ) [NeZero n] : List α → List (List α)
  | [] => []
  | c :: s => token sep n (c :: s) :: tokens sep n (afterToken sep n (c :: s))
termination_by l => l.length
decreasing_by exact length_afterToken_lt c s

@[simp] theorem tokens_nil : tokens sep n [] = [] := by
  rw [tokens]

theorem tokens_of_ne_nil {l : List α} (h : l ≠ []) :
    tokens sep n l = token sep n l :: tokens sep n (afterToken sep n l) := by
  obtain ⟨c, s, rfl⟩ := List.exists_cons_of_ne_nil h
  rw [tokens]

/-- A field with what follows it: nothing, or a separator and the other fields. -/
structure FirstField (sep : α → Bool) (a b : List α) : Prop where
  field : ∀ x ∈ a, sep x = false
  rest : ∀ d ∈ b.head?, sep d = true

theorem FirstField.takeWhile {a b : List α} (h : FirstField sep a b) :
    (a ++ b).takeWhile (!sep ·) = a := by
  have ha : a.takeWhile (!sep ·) = a :=
    List.takeWhile_eq_self_iff.mpr fun x hx => by rw [h.field x hx]; rfl
  cases b with
  | nil => rw [List.append_nil, ha]
  | cons d b =>
    rw [List.takeWhile_append_of_pos fun x hx => by rw [h.field x hx]; rfl,
      List.takeWhile_cons_of_neg (by simp [h.rest d rfl]), List.append_nil]

/-- Every text begins with a field. -/
theorem exists_field (sep : α → Bool) (l : List α) : ∃ a b, l = a ++ b ∧ FirstField sep a b := by
  refine ⟨l.takeWhile (!sep ·), l.dropWhile (!sep ·), List.takeWhile_append_dropWhile.symm, ?_, ?_⟩
  · intro x hx
    have hsep : (!sep x) = true := List.mem_takeWhile_imp (p := (!sep ·)) hx
    rwa [Bool.not_eq_true'] at hsep
  · intro d hd
    have hhead := List.head?_dropWhile_not (!sep ·) l
    rw [Option.mem_def.mp hd] at hhead
    simpa using hhead

/-- The fields behind the first one. -/
theorem FirstField.splitOnP {a b : List α} (h : FirstField sep a b) :
    (a ++ b).splitOnP sep = a :: (if b = [] then [] else b.tail.splitOnP sep) := by
  cases b with
  | nil => rw [List.append_nil, if_pos rfl, List.splitOnP_eq_singleton h.field]
  | cons d b =>
    rw [if_neg (List.cons_ne_nil d b), List.tail_cons,
      List.splitOnP_append_cons_of_forall_mem h.field d (h.rest d rfl)]

omit [NeZero n] in
/-- A field that fits is read at once. -/
theorem FirstField.token_of_length_le {a b : List α} (h : FirstField sep a b) (hle : a.length ≤ n) :
    token sep n (a ++ b) = a ∧ afterToken sep n (a ++ b) = b.tail := by
  have htoken : token sep n (a ++ b) = a := by
    rw [token, h.takeWhile, List.take_of_length_le hle]
  refine ⟨htoken, ?_⟩
  unfold afterToken
  rw [htoken, List.drop_left]
  cases b with
  | nil => rfl
  | cons d b => exact if_pos (h.rest d rfl)

omit [NeZero n] in
/-- Of a longer one the buffer is filled. -/
theorem FirstField.token_of_lt_length {a b : List α} (h : FirstField sep a b) (hlt : n < a.length) :
    token sep n (a ++ b) = a.take n ∧ afterToken sep n (a ++ b) = a.drop n ++ b ∧
      FirstField sep (a.drop n) b := by
  have htoken : token sep n (a ++ b) = a.take n := by rw [token, h.takeWhile]
  refine ⟨htoken, ?_, fun x hx => h.field x (List.mem_of_mem_drop hx), h.rest⟩
  unfold afterToken
  rw [htoken, List.length_take, min_eq_left hlt.le, List.drop_append_of_le_length hlt.le]
  -- what comes next belongs to the field
  cases hrest : a.drop n with
  | nil =>
    have hlen := congrArg List.length hrest
    rw [List.length_drop, List.length_nil] at hlen
    omega
  | cons x t =>
    have hx : sep x = false := h.field x (List.mem_of_mem_drop (hrest ▸ List.mem_cons_self))
    rw [List.cons_append]
    exact if_neg (by simp [hx])

/-- **What is read.** The tokens with something in them are the blocks of the fields. -/
theorem filter_tokens (l : List α) :
    (tokens sep n l).filter (!·.isEmpty) = (l.splitOnP sep).flatMap (blocks n) := by
  have hn := Nat.pos_of_neZero n
  induction hk : l.length using Nat.strong_induction_on generalizing l with
  | _ k ih =>
    by_cases hl : l = []
    · rw [hl, tokens_nil, List.splitOnP_nil, List.flatMap_singleton, blocks_nil, List.filter_nil]
    · obtain ⟨c, s, hcons⟩ := List.exists_cons_of_ne_nil hl
      have hlt : (afterToken sep n l).length < k := by
        rw [← hk, hcons]
        exact length_afterToken_lt c s
      have hrest := ih _ hlt _ rfl
      rw [tokens_of_ne_nil hl]
      obtain ⟨a, b, rfl, hfield⟩ := exists_field sep l
      rcases Nat.lt_or_ge n a.length with hlong | hshort
      · -- the rest of a long field is read from the next token on
        obtain ⟨htoken, hafter, hfield'⟩ := hfield.token_of_lt_length hlong
        have hne : a ≠ [] := List.ne_nil_of_length_pos (hn.trans hlong)
        have htake : a.take n ≠ [] := by
          rw [Ne, List.take_eq_nil_iff, not_or]
          exact ⟨hn.ne', hne⟩
        rw [hafter, hfield'.splitOnP, List.flatMap_cons] at hrest
        rw [htoken, hafter, List.filter_cons_of_pos (by simpa using htake), hrest,
          hfield.splitOnP, List.flatMap_cons, blocks_of_ne_nil hne, List.cons_append]
      · obtain ⟨htoken, hafter⟩ := hfield.token_of_length_le hshort
        have hothers : (tokens sep n b.tail).filter (!·.isEmpty) =
            (if b = [] then [] else b.tail.splitOnP sep).flatMap (blocks n) := by
          rw [hafter] at hrest
          cases b with
          | nil => rw [if_pos rfl, List.tail_nil, tokens_nil]; rfl
          | cons d b => rw [if_neg (List.cons_ne_nil d b), hrest]
        rw [htoken, hafter, hfield.splitOnP, List.flatMap_cons]
        by_cases ha : a = []
        · rw [ha, blocks_nil, List.nil_append, List.filter_cons_of_neg (by simp), hothers]
        · rw [blocks_of_length_le ha hshort, List.filter_cons_of_pos (by simpa using ha), hothers,
            List.singleton_append]

end

end X3D
