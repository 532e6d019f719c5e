import X3DToggle.Lib.Lists

/-!
# Lines and entries

A text is a list of symbols; a line break is one chosen symbol. `lines` is what a loop visits
that repeatedly looks for the next break and stops at the end of the text: a break closes a
line, and an unterminated rest is a line of its own if it is not empty. `unlines` terminates
every line. They are inverse on lines without breaks (`lines_unlines`), and cutting a text short
keeps the lines that fit and the `visible` part of the next one (`lines_take`). What a search over
the lines finds in the short text depends on how much it shows of each line that counts
(`take_filterMap_visible_iff`).

`cut` splits at the first occurrence of a separator. Where each line stands for an assignment
and a later line overrides an earlier one, the value that counts is `lastSome`, the last value
some line selects; `foldl_get` is the rule that a fold over the lines computes it.
-/

namespace X3D

section

variable {α : Type*} [DecidableEq α]

/-- The text before and after the first `c`. -/
def cut (c : α) : List α → Option (List α × List α)
  | [] => none
  | x :: s => if x = c then some ([], s) else (cut c s).map fun p => (x :: p.1, p.2)

theorem cut_append {c : α} {a : List α} (h : c ∉ a) (b : List α) :
    cut c (a ++ c :: b) = some (a, b) := by
  induction a with
  | nil => simp [cut]
  | cons x a ih =>
    rw [List.mem_cons, not_or] at h
    rw [List.cons_append, cut, if_neg (Ne.symm h.1), ih h.2]
    rfl

theorem cut_eq_none {c : α} {s : List α} : cut c s = none ↔ c ∉ s := by
  induction s with
  | nil => simp [cut]
  | cons x s ih =>
    rw [cut, List.mem_cons, not_or]
    split
    · next h => simp [h]
    · next h => simp [ih, Ne.symm h]

theorem cut_eq_some {c : α} {s a b : List α} :
    cut c s = some (a, b) ↔ c ∉ a ∧ s = a ++ c :: b := by
  constructor
  · induction s generalizing a with
    | nil => simp [cut]
    | cons x s ih =>
      rw [cut]
      split
      · next h =>
        rintro ⟨⟩
        exact ⟨List.not_mem_nil, by rw [h]; rfl⟩
      · next h =>
        intro hs
        obtain ⟨⟨a', b'⟩, hcut, heq⟩ := Option.map_eq_some_iff.mp hs
        obtain ⟨rfl, rfl⟩ := Prod.mk.injEq .. ▸ heq
        obtain ⟨hc, rfl⟩ := ih hcut
        exact ⟨by rw [List.mem_cons, not_or]; exact ⟨Ne.symm h, hc⟩, rfl⟩
  · rintro ⟨hc, rfl⟩
    exact cut_append hc b

omit [DecidableEq α] in
/-- A text without the separator is a beginning of another one only up to where that one has its
first. -/
theorem prefix_of_prefix_append {c : α} {a s t : List α} (h : c ∉ a) (hpre : a <+: s ++ c :: t) :
    a <+: s := by
  rcases le_or_gt a.length s.length with hle | hlt
  · exact List.prefix_of_prefix_length_le hpre (List.prefix_append s _) hle
  · -- otherwise the separator behind `s` is in `a`
    have hs : s ++ [c] <+: a := by
      have hwhole : s ++ [c] <+: s ++ c :: t := ⟨t, by simp⟩
      refine List.prefix_of_prefix_length_le hwhole hpre ?_
      rw [List.length_append, List.length_singleton]
      exact hlt
    exact absurd (hs.subset (by simp)) h

/-- The lines of a text. -/
def lines (c : α) : List α → List (List α)
  | [] => []
  | x :: s =>
    if x = c then [] :: lines c s
    else match lines c s with
      | [] => [[x]]
      | l :: ls => (x :: l) :: ls

/-- The text that terminates each line. -/
def unlines (c : α) (ls : List (List α)) : List α := ls.flatMap (· ++ [c])

variable {c : α}

@[simp] theorem lines_nil : lines c [] = [] := rfl

omit [DecidableEq α] in
theorem unlines_cons (l : List α) (ls : List (List α)) :
    unlines c (l :: ls) = l ++ c :: unlines c ls := by
  rw [unlines, List.flatMap_cons, List.append_assoc]
  rfl

omit [DecidableEq α] in
theorem unlines_append (xs ys : List (List α)) :
    unlines c (xs ++ ys) = unlines c xs ++ unlines c ys :=
  List.flatMap_append

omit [DecidableEq α] in
theorem notMem_unlines {x : α} (hx : x ≠ c) {ls : List (List α)} (h : ∀ l ∈ ls, x ∉ l) :
    x ∉ unlines c ls := by
  intro hmem
  obtain ⟨l, hl, hxl⟩ := List.mem_flatMap.mp hmem
  rcases List.mem_append.mp hxl with hxl | hxl
  · exact h l hl hxl
  · exact hx (List.mem_singleton.mp hxl)

theorem lines_append_break {l : List α} (h : c ∉ l) (s : List α) :
    lines c (l ++ c :: s) = l :: lines c s := by
  induction l with
  | nil => simp [lines]
  | cons x l ih =>
    rw [List.mem_cons, not_or] at h
    rw [List.cons_append, lines, if_neg (Ne.symm h.1), ih h.2]

/-- A text without a break is one line, unless it is empty. -/
theorem lines_of_notMem {s : List α} (h : c ∉ s) : lines c s = if s = [] then [] else [s] := by
  induction s with
  | nil => rfl
  | cons x s ih =>
    rw [List.mem_cons, not_or] at h
    rw [lines, if_neg (Ne.symm h.1), ih h.2, if_neg (List.cons_ne_nil x s)]
    cases s <;> rfl

theorem notMem_of_mem_lines {s l : List α} (h : l ∈ lines c s) : c ∉ l := by
  induction s generalizing l with
  | nil => simp at h
  | cons x s ih =>
    rw [lines] at h
    split at h
    · rcases List.mem_cons.mp h with rfl | h
      · exact List.not_mem_nil
      · exact ih h
    · next hx =>
      split at h
      · obtain rfl := List.mem_singleton.mp h
        simpa using Ne.symm hx
      · next l' ls heq =>
        rcases List.mem_cons.mp h with rfl | h
        · rw [List.mem_cons, not_or]
          exact ⟨Ne.symm hx, ih (heq ▸ List.mem_cons_self)⟩
        · exact ih (heq ▸ List.mem_cons_of_mem l' h)

/-- What a line holds the text holds. -/
theorem mem_of_mem_lines {s l : List α} {x : α} (h : l ∈ lines c s) (hx : x ∈ l) : x ∈ s := by
  induction s generalizing l with
  | nil => exact absurd h List.not_mem_nil
  | cons y s ih =>
    rw [lines] at h
    split at h
    · rcases List.mem_cons.mp h with rfl | h
      · exact absurd hx List.not_mem_nil
      · exact List.mem_cons_of_mem y (ih h hx)
    · split at h
      · obtain rfl := List.mem_singleton.mp h
        exact List.mem_cons.mpr (Or.inl (List.mem_singleton.mp hx))
      · next l' ls heq =>
        rcases List.mem_cons.mp h with rfl | h
        · rcases List.mem_cons.mp hx with rfl | hx
          · exact List.mem_cons_self
          · exact List.mem_cons_of_mem y (ih (heq ▸ List.mem_cons_self) hx)
        · exact List.mem_cons_of_mem y (ih (heq ▸ List.mem_cons_of_mem l' h) hx)

theorem lines_unlines_append {ls : List (List α)} (h : ∀ l ∈ ls, c ∉ l) (s : List α) :
    lines c (unlines c ls ++ s) = ls ++ lines c s := by
  induction ls with
  | nil => rfl
  | cons l ls ih =>
    rw [unlines_cons, List.append_assoc, List.cons_append,
      lines_append_break (h l List.mem_cons_self), ih fun l hl => h l (List.mem_cons_of_mem _ hl)]
    rfl

/-- **Round trip.** Lines without breaks are the lines of the text that terminates them. -/
theorem lines_unlines {ls : List (List α)} (h : ∀ l ∈ ls, c ∉ l) :
    lines c (unlines c ls) = ls := by
  have := lines_unlines_append h []
  rwa [List.append_nil, lines_nil, List.append_nil] at this

/-- Lines without breaks make up different texts. -/
theorem unlines_inj {ls ms : List (List α)} (hl : ∀ l ∈ ls, c ∉ l) (hm : ∀ m ∈ ms, c ∉ m) :
    unlines c ls = unlines c ms ↔ ls = ms := by
  refine ⟨fun h => ?_, congrArg (unlines c)⟩
  rw [← lines_unlines hl, h, lines_unlines hm]

/-- A beginning without a break begins the first line. -/
theorem exists_lines_append {a : List α} (hne : a ≠ []) (h : c ∉ a) (s : List α) :
    ∃ m ms, lines c (a ++ s) = (a ++ m) :: ms := by
  induction a with
  | nil => exact absurd rfl hne
  | cons x a ih =>
    rw [List.mem_cons, not_or] at h
    rw [List.cons_append, lines, if_neg (Ne.symm h.1)]
    by_cases ha : a = []
    · subst ha
      rw [List.nil_append]
      cases lines c s with
      | nil => exact ⟨[], [], rfl⟩
      | cons l ls => exact ⟨l, ls, rfl⟩
    · obtain ⟨m, ms, hm⟩ := ih ha h.2
      rw [hm]
      exact ⟨m, ms, rfl⟩

/-- **Round trip of a text.** A text that ends with a break is the one its lines make up. -/
theorem unlines_lines (s : List α) : unlines c (lines c (s ++ [c])) = s ++ [c] := by
  induction s with
  | nil => simp [lines, unlines]
  | cons x s ih =>
    rw [List.cons_append, lines]
    split
    next hx => rw [unlines_cons, ih, hx, List.nil_append]
    next =>
      cases hls : lines c (s ++ [c]) with
      | nil =>
        rw [hls] at ih
        exact absurd ih.symm (by simp [unlines])
      | cons l ls =>
        rw [hls, unlines_cons] at ih
        show unlines c ((x :: l) :: ls) = _
        rw [unlines_cons, List.cons_append, ih]

theorem lines_append_ne_nil (s : List α) : lines c (s ++ [c]) ≠ [] := by
  intro h
  have hround := unlines_lines (c := c) s
  rw [h] at hround
  exact absurd hround.symm (by simp [unlines])

/-- A break ends a line, whatever comes before it. -/
theorem lines_append (s t : List α) : lines c (s ++ c :: t) = lines c (s ++ [c]) ++ lines c t := by
  induction s with
  | nil => simp [lines]
  | cons x s ih =>
    rw [List.cons_append, List.cons_append, lines, lines, ih]
    split
    · rfl
    · -- the part up to the break has a line, which takes `x`
      obtain ⟨l, ls, hls⟩ := List.exists_cons_of_ne_nil (lines_append_ne_nil (c := c) s)
      rw [hls]
      rfl

/-- **Round trip of a separated text.** The items between the breaks are the lines, unless one is
empty. -/
theorem lines_intercalate {ls : List (List α)} (h : ∀ l ∈ ls, c ∉ l ∧ l ≠ []) :
    lines c (List.intercalate [c] ls) = ls := by
  induction ls with
  | nil => rfl
  | cons l ls ih =>
    obtain ⟨hc, hne⟩ := h l List.mem_cons_self
    have ih := ih fun l hl => h l (List.mem_cons_of_mem _ hl)
    cases ls with
    | nil => rw [List.intercalate_singleton, lines_of_notMem hc, if_neg hne]
    | cons l' ls =>
      rw [List.intercalate_cons_cons, List.append_assoc, List.singleton_append,
        lines_append_break hc, ih]

omit [DecidableEq α] in
/-- The separated text and the terminated one differ in the last break. -/
theorem unlines_eq_intercalate {ls : List (List α)} (h : ls ≠ []) :
    unlines c ls = List.intercalate [c] ls ++ [c] := by
  induction ls with
  | nil => exact absurd rfl h
  | cons l ls ih =>
    cases ls with
    | nil => rw [List.intercalate_singleton, unlines_cons, unlines, List.flatMap_nil]
    | cons l' ls =>
      rw [List.intercalate_cons_cons, unlines_cons, ih (List.cons_ne_nil _ _)]
      simp only [List.append_assoc, List.cons_append, List.nil_append]

/-- The lines of a text that begins with pieces that may have breaks in them. -/
theorem lines_unlines_flatMap (ls : List (List α)) (s : List α) :
    lines c (unlines c ls ++ s) = ls.flatMap (fun l => lines c (l ++ [c])) ++ lines c s := by
  induction ls with
  | nil => rfl
  | cons l ls ih =>
    rw [unlines_cons, List.append_assoc, List.cons_append, lines_append, ih, List.flatMap_cons,
      List.append_assoc]

/-- **A text cut short.** The first line survives whole, and the rest is cut in turn, when the
budget covers its break; otherwise what is visible of it is the only line left. -/
theorem lines_take_unlines {l : List α} (h : c ∉ l) (ls : List (List α)) (n : ℕ) :
    lines c ((unlines c (l :: ls)).take n) =
      if l.length < n then l :: lines c ((unlines c ls).take (n - (l.length + 1)))
      else if l.take n = [] then [] else [l.take n] := by
  rw [unlines_cons, List.take_append]
  split
  · next hn =>
    rw [List.take_of_length_le hn.le,
      show n - l.length = n - (l.length + 1) + 1 by omega, List.take_succ_cons,
      lines_append_break h]
  · next hn =>
    rw [show n - l.length = 0 by omega, List.take_zero, List.append_nil]
    exact lines_of_notMem fun hc => h (List.mem_of_mem_take hc)

/-- Every symbol but the break is in a line. -/
theorem exists_mem_lines {s : List α} {x : α} (hc : x ≠ c) (hx : x ∈ s) :
    ∃ l ∈ lines c s, x ∈ l := by
  induction s with
  | nil => exact absurd hx List.not_mem_nil
  | cons y s ih =>
    rw [lines]
    rcases List.mem_cons.mp hx with rfl | hx
    · rw [if_neg hc]
      split
      · exact ⟨_, List.mem_cons_self, List.mem_cons_self⟩
      · exact ⟨_, List.mem_cons_self, List.mem_cons_self⟩
    · obtain ⟨l, hl, hxl⟩ := ih hx
      split
      · exact ⟨l, List.mem_cons_of_mem _ hl, hxl⟩
      · split
        next hnil => exact absurd (hnil ▸ hl) List.not_mem_nil
        next m ms hms =>
          rcases List.mem_cons.mp (hms ▸ hl) with rfl | hl
          · exact ⟨_, List.mem_cons_self, List.mem_cons_of_mem y hxl⟩
          · exact ⟨l, List.mem_cons_of_mem _ hl, hxl⟩

/-- Terminating the lines of a text adds at most a break. -/
theorem length_unlines_lines_le (s : List α) : (unlines c (lines c s)).length ≤ s.length + 1 := by
  induction s with
  | nil => exact Nat.zero_le _
  | cons x s ih =>
    rw [lines]
    split
    · rw [unlines_cons, List.nil_append, List.length_cons, List.length_cons]
      omega
    · split
      · simp [unlines]
      next l ls heq =>
        rw [heq, unlines_cons, List.length_append, List.length_cons] at ih
        rw [unlines_cons, List.length_append, List.length_cons, List.length_cons, List.length_cons]
        omega

/-- The first line of a text, and the others. -/
theorem lines_cons (x : α) (s : List α) :
    lines c (x :: s) =
      (x :: s).takeWhile (· ≠ c) :: lines c ((x :: s).dropWhile (· ≠ c)).tail := by
  have hline : c ∉ (x :: s).takeWhile (· ≠ c) := by
    intro hmem
    have hne := List.mem_takeWhile_imp (p := (· ≠ c)) hmem
    exact of_decide_eq_true hne rfl
  have hsplit := List.takeWhile_append_dropWhile (p := (· ≠ c)) (l := x :: s)
  generalize (x :: s).takeWhile (· ≠ c) = a at hline hsplit ⊢
  cases hrest : (x :: s).dropWhile (· ≠ c) with
  | nil =>
    rw [hrest, List.append_nil] at hsplit
    rw [← hsplit, lines_of_notMem hline, if_neg (hsplit ▸ List.cons_ne_nil x s)]
    rfl
  | cons d b =>
    -- what the loop stops at is the break
    have hd : d = c := by
      have hne : (x :: s).dropWhile (· ≠ c) ≠ [] := hrest ▸ List.cons_ne_nil d b
      have hhead : decide (((x :: s).dropWhile (· ≠ c)).head hne ≠ c) = false :=
        List.head_dropWhile_not (· ≠ c) hne
      simp only [hrest, List.head_cons] at hhead
      exact not_not.mp (of_decide_eq_false hhead)
    rw [hrest, hd] at hsplit
    rw [← hsplit, lines_append_break hline]
    rfl

/-! ### A text cut short -/

omit [DecidableEq α] in
/-- What the first `n` symbols of a text show of its lines. -/
def visible : ℕ → List (List α) → List (List α)
  | _, [] => []
  | n, l :: ls =>
    if l.length < n then l :: visible (n - (l.length + 1)) ls
    else if l.take n = [] then [] else [l.take n]

omit [DecidableEq α] in
@[simp] theorem visible_zero (ls : List (List α)) : visible 0 ls = [] := by
  cases ls with
  | nil => rfl
  | cons l ls => rw [visible, if_neg (Nat.not_lt_zero _), List.take_zero, if_pos rfl]

/-- **Cut rule.** The lines of a text cut short are what is visible of the lines of the text. -/
theorem lines_take (s : List α) (n : ℕ) : lines c (s.take n) = visible n (lines c s) := by
  induction s generalizing n with
  | nil =>
    rw [List.take_nil]
    rfl
  | cons x s ih =>
    cases n with
    | zero => rw [List.take_zero, visible_zero, lines_nil]
    | succ n =>
      rw [List.take_succ_cons, lines, lines, ih]
      -- a separator closes a line, any other element goes to the front of the first one
      by_cases hx : x = c
      · rw [if_pos hx, if_pos hx, visible,
          if_pos (show ([] : List α).length < n + 1 from n.succ_pos)]
        rfl
      · rw [if_neg hx, if_neg hx]
        cases lines c s with
        | nil =>
          rw [visible]
          dsimp only
          rw [visible, visible, List.take_of_length_le (by simp), if_neg (List.cons_ne_nil x [])]
          split <;> rfl
        | cons l ls =>
          dsimp only
          rw [visible, visible, List.length_cons, List.take_succ_cons,
            if_neg (List.cons_ne_nil x _)]
          by_cases hl : l.length < n
          · rw [if_pos hl, if_pos (Nat.succ_lt_succ hl)]
            simp only [Nat.add_sub_add_right]
          · rw [if_neg hl, if_neg (fun h => hl (Nat.lt_of_succ_lt_succ h))]
            by_cases hnil : l.take n = []
            · rw [if_pos hnil, hnil]
            · rw [if_neg hnil]

omit [DecidableEq α] in
/-- What a cut shows of a text whose first lines it leaves whole. -/
theorem visible_append {xs : List (List α)} {n : ℕ} (h : (unlines c xs).length ≤ n)
    (ys : List (List α)) :
    visible n (xs ++ ys) = xs ++ visible (n - (unlines c xs).length) ys := by
  induction xs generalizing n with
  | nil => rfl
  | cons x xs ih =>
    rw [unlines_cons, List.length_append, List.length_cons] at h ⊢
    rw [List.cons_append, visible, if_pos (by omega), ih (by omega), List.cons_append,
      show n - (x.length + 1) - (unlines c xs).length =
        n - (x.length + ((unlines c xs).length + 1)) by omega]

omit [DecidableEq α] in
/-- The same where the first lines are seen to be there. -/
theorem visible_append_of_prefix {xs ys : List (List α)} {n : ℕ} (h : xs <+: visible n (xs ++ ys)) :
    visible n (xs ++ ys) = xs ++ visible (n - (unlines c xs).length) ys := by
  induction xs generalizing n with
  | nil => rfl
  | cons x xs ih =>
    rw [List.cons_append, visible] at h ⊢
    rw [unlines_cons, List.length_append, List.length_cons]
    by_cases hx : x.length < n
    · rw [if_pos hx] at h ⊢
      rw [ih (List.prefix_cons_inj x |>.mp h), List.cons_append,
        show n - (x.length + 1) - (unlines c xs).length =
          n - (x.length + ((unlines c xs).length + 1)) by omega]
    · -- the cut is right behind the last of them
      rw [if_neg hx] at h ⊢
      by_cases hnil : x.take n = []
      · rw [if_pos hnil] at h
        exact absurd (List.prefix_nil.mp h) (List.cons_ne_nil _ _)
      · rw [if_neg hnil] at h ⊢
        obtain ⟨hwhole, hrest⟩ := List.cons_prefix_cons.mp h
        obtain rfl := List.prefix_nil.mp hrest
        rw [show n - (x.length + ((unlines c []).length + 1)) = 0 by omega, visible_zero,
          List.append_nil, ← hwhole]

omit [DecidableEq α] in
theorem length_visible_le (n : ℕ) (ls : List (List α)) : (visible n ls).length ≤ ls.length := by
  induction ls generalizing n with
  | nil => exact le_refl _
  | cons l ls ih =>
    rw [visible]
    split
    · exact Nat.succ_le_succ (ih _)
    · split <;> simp

omit [DecidableEq α] in
/-- What is visible of a line begins it. -/
theorem exists_of_mem_visible {n : ℕ} {ls : List (List α)} {v : List α} (h : v ∈ visible n ls) :
    ∃ l ∈ ls, v <+: l := by
  induction ls generalizing n with
  | nil => exact absurd h List.not_mem_nil
  | cons l ls ih =>
    rw [visible] at h
    split at h
    · rcases List.mem_cons.mp h with rfl | h
      · exact ⟨_, List.mem_cons_self, List.prefix_refl _⟩
      · obtain ⟨m, hm, hv⟩ := ih h
        exact ⟨m, List.mem_cons_of_mem _ hm, hv⟩
    · split at h
      · exact absurd h List.not_mem_nil
      · rw [List.mem_singleton.mp h]
        exact ⟨l, List.mem_cons_self, List.take_prefix _ _⟩

end

/-! ### What a search finds in a short text -/

section
variable {α : Type*} (c : α)

/-- A test that no empty line passes finds a visible line where it finds what is visible of one. -/
theorem any_visible_iff {q : List α → Prop} (hnil : ¬ q []) {ls : List (List α)} {n : ℕ} :
    (∃ v ∈ visible n ls, q v) ↔
      ∃ xs l ys, ls = xs ++ l :: ys ∧ q (l.take (n - (unlines c xs).length)) := by
  induction ls generalizing n with
  | nil => simp [visible]
  | cons l ls ih =>
    have hrest (xs : List (List α)) :
        n - (unlines c (l :: xs)).length = n - (l.length + 1) - (unlines c xs).length := by
      rw [unlines_cons, List.length_append, List.length_cons]
      omega
    rw [exists_split_cons (P := fun (xs : List (List α)) (m : List α) =>
      q (m.take (n - (unlines c xs).length)))]
    simp only [hrest]
    rw [← ih, visible]
    by_cases hl : l.length < n
    · rw [if_pos hl, List.exists_mem_cons_iff]
      have htake : l.take (n - (unlines c ([] : List (List α))).length) = l :=
        List.take_of_length_le hl.le
      rw [htake]
    · -- the line is the last one visible
      rw [if_neg hl, show n - (l.length + 1) = 0 by omega, visible_zero]
      have htake : l.take (n - (unlines c ([] : List (List α))).length) = l.take n := rfl
      rw [htake]
      split
      next h =>
        rw [h]
        simp [hnil]
      next h => simp

/-- What a search that skips empty lines finds first. -/
theorem take_filterMap_eq_nil_iff {β γ : Type*} {f : β → Option γ} {l : List β} {k : ℕ} :
    (l.filterMap f).take k = [] ↔
      ∀ xs x ys, l = xs ++ x :: ys → f x ≠ none → ¬ (xs.filterMap f).length < k := by
  induction l generalizing k with
  | nil => simp
  | cons x l ih =>
    rw [forall_split_cons (P := fun xs y => f y ≠ none → ¬ (xs.filterMap f).length < k)]
    cases hf : f x with
    | none =>
      rw [List.filterMap_cons_none hf, ih]
      simp [List.filterMap_cons_none hf]
    | some a =>
      rw [List.filterMap_cons_some hf]
      cases k with
      | zero => simp
      | succ k => simp

/-- **Search rule.** A search that skips empty lines finds the same up to the `k`-th find in a
text cut short exactly if enough is visible of each line that counts. -/
theorem take_filterMap_visible_iff {β : Type*} {f : List α → Option β} (hnil : f [] = none)
    {ls : List (List α)} (hmono : ∀ l ∈ ls, ∀ m, f l = none → f (l.take m) = none) (n k : ℕ) :
    ((visible n ls).filterMap f).take k = (ls.filterMap f).take k ↔
      ∀ xs l ys, ls = xs ++ l :: ys → f l ≠ none → (xs.filterMap f).length < k →
        f (l.take (n - (unlines c xs).length)) = f l := by
  induction ls generalizing n k with
  | nil => simp [visible]
  | cons l ls ih =>
    have hrest (xs : List (List α)) :
        n - (unlines c (l :: xs)).length = n - (l.length + 1) - (unlines c xs).length := by
      rw [unlines_cons, List.length_append, List.length_cons]
      omega
    have ih' := ih fun m hm => hmono m (List.mem_cons_of_mem _ hm)
    rw [forall_split_cons (P := fun (xs : List (List α)) (m : List α) =>
      f m ≠ none → (xs.filterMap f).length < k → f (m.take (n - (unlines c xs).length)) = f m),
      visible]
    simp only [hrest]
    have hfirst : l.take (n - (unlines c ([] : List (List α))).length) = l.take n := rfl
    rw [hfirst]
    by_cases hl : l.length < n
    · rw [if_pos hl, List.take_of_length_le hl.le]
      cases hf : f l with
      | none =>
        rw [List.filterMap_cons_none hf, List.filterMap_cons_none hf, ih']
        simp only [List.filterMap_cons_none hf, ne_eq, not_true_eq_false, false_imp_iff, true_and]
      | some a =>
        rw [List.filterMap_cons_some hf, List.filterMap_cons_some hf]
        cases k with
        | zero => simp
        | succ k =>
          rw [List.take_succ_cons, List.take_succ_cons, List.cons_inj_right, ih']
          simp only [List.filterMap_cons_some hf, List.length_cons, Nat.succ_lt_succ_iff]
          exact (and_iff_right fun _ _ => trivial).symm
    · -- of the lines below nothing is visible
      rw [if_neg hl, show n - (l.length + 1) = 0 by omega]
      simp only [Nat.zero_sub, List.take_zero, hnil]
      have hlater {k : ℕ} : (ls.filterMap f).take k = [] ↔ ∀ xs m ys, ls = xs ++ m :: ys →
          f m ≠ none → (xs.filterMap f).length < k → none = f m := by
        rw [take_filterMap_eq_nil_iff]
        refine forall₃_congr fun xs m ys => imp_congr_right fun _ => imp_congr_right fun hm => ?_
        exact imp_congr_right fun _ => iff_of_false not_false hm.symm
      have hshown : (if l.take n = [] then [] else [l.take n]).filterMap f =
          (f (l.take n)).toList := by
        split
        next h =>
          rw [h, hnil]
          rfl
        next h => cases hv : f (l.take n) <;> simp [hv]
      rw [hshown]
      cases hf : f l with
      | none =>
        rw [hmono l List.mem_cons_self n hf, List.filterMap_cons_none hf]
        simp only [List.filterMap_cons_none hf, ne_eq, not_true_eq_false, false_imp_iff, true_and]
        rw [Option.toList_none, List.take_nil, eq_comm, hlater]
      | some a =>
        rw [List.filterMap_cons_some hf]
        simp only [List.filterMap_cons_some hf, List.length_cons]
        cases k with
        | zero => simp
        | succ k =>
          rw [List.take_succ_cons]
          simp only [Nat.succ_lt_succ_iff]
          rw [← hlater]
          cases hv : f (l.take n) with
          | none => simp
          | some b =>
            rw [Option.toList_some, List.take_succ_cons, List.take_nil, List.cons.injEq,
              Option.some.injEq, eq_comm (a := []) (b := List.take k _)]
            exact and_congr_left fun _ =>
              ⟨fun h _ _ => h, fun h => h (Option.some_ne_none a) k.succ_pos⟩
end

/-! ### The value that counts -/

section

variable {σ β γ δ : Type*}

/-- The last value that `sel` selects. -/
def lastSome (sel : β → Option γ) (ls : List β) : Option γ := (ls.filterMap sel).getLast?

variable {sel : β → Option γ}

@[simp] theorem lastSome_nil : lastSome sel [] = none := rfl

theorem lastSome_append (xs ys : List β) :
    lastSome sel (xs ++ ys) = (lastSome sel ys).or (lastSome sel xs) := by
  rw [lastSome, List.filterMap_append, List.getLast?_append]
  rfl

theorem lastSome_cons (x : β) (xs : List β) :
    lastSome sel (x :: xs) = (lastSome sel xs).or (sel x) := by
  rw [← List.singleton_append, lastSome_append]
  congr 1
  rw [lastSome, List.filterMap_cons, List.filterMap_nil]
  cases sel x <;> rfl

theorem lastSome_eq_none {xs : List β} (h : ∀ x ∈ xs, sel x = none) : lastSome sel xs = none := by
  rw [lastSome, List.filterMap_eq_nil_iff.mpr h, List.getLast?_nil]

/-- **Fold rule.** If each step of a fold sets an observation to what it parses out of the
selected value, and leaves it alone where nothing is selected, then the fold leaves what the
last selected value parses to. -/
theorem foldl_get {step : σ → β → σ} (get : σ → δ) (sel : β → Option γ) (parse : γ → δ)
    (h : ∀ s x, get (step s x) = (sel x).elim (get s) parse) (xs : List β) (s : σ) :
    get (xs.foldl step s) = (lastSome sel xs).elim (get s) parse := by
  induction xs generalizing s with
  | nil => rfl
  | cons x xs ih =>
    rw [List.foldl_cons, ih, lastSome_cons, h]
    cases lastSome sel xs <;> rfl

end

/-! ### The line that counts -/

section

variable {β γ : Type*}

/-- The value a numbered line selects, with the number of the line. -/
def numbered (sel : β → Option γ) (p : β × ℕ) : Option (ℕ × γ) := (sel p.1).map (p.2, ·)

variable {sel sel' : β → Option γ} {xs : List β} {n i : ℕ} {v : γ}

theorem bounds_of_numbered {p : β × ℕ} (hp : p ∈ xs.zipIdx n) (h : numbered sel p = some (i, v)) :
    n ≤ i ∧ i < n + xs.length := by
  obtain ⟨w, -, hw⟩ := Option.map_eq_some_iff.mp h
  obtain ⟨rfl, -⟩ := Prod.mk.injEq .. ▸ hw
  obtain ⟨hle, hlt, -⟩ := List.mem_zipIdx hp
  exact ⟨hle, hlt⟩

theorem bounds_of_findSome (h : (xs.zipIdx n).findSome? (numbered sel) = some (i, v)) :
    n ≤ i ∧ i < n + xs.length := by
  obtain ⟨p, hp, hsel⟩ := List.exists_of_findSome?_eq_some h
  exact bounds_of_numbered hp hsel

theorem bounds_of_lastSome (h : lastSome (numbered sel) (xs.zipIdx n) = some (i, v)) :
    n ≤ i ∧ i < n + xs.length := by
  obtain ⟨p, hp, hsel⟩ := List.mem_filterMap.mp (List.mem_of_getLast? h)
  exact bounds_of_numbered hp hsel

theorem findSome_numbered_cons (x : β) (xs : List β) (n : ℕ) :
    ((x :: xs).zipIdx n).findSome? (numbered sel) =
      (numbered sel (x, n)).or ((xs.zipIdx (n + 1)).findSome? (numbered sel)) := by
  rw [List.zipIdx_cons, List.findSome?_cons]
  cases numbered sel (x, n) <;> rfl

theorem lastSome_numbered_cons (x : β) (xs : List β) (n : ℕ) :
    lastSome (numbered sel) ((x :: xs).zipIdx n) =
      (lastSome (numbered sel) (xs.zipIdx (n + 1))).or (numbered sel (x, n)) := by
  rw [List.zipIdx_cons, lastSome_cons]

theorem map_snd_lastSome_numbered (sel : β → Option γ) (xs : List β) (n : ℕ) :
    (lastSome (numbered sel) (xs.zipIdx n)).map Prod.snd = lastSome sel xs := by
  induction xs generalizing n with
  | nil => rfl
  | cons x xs ih =>
    rw [lastSome_numbered_cons, lastSome_cons, ← ih (n + 1)]
    cases lastSome (numbered sel) (xs.zipIdx (n + 1)) with
    | none =>
      rw [Option.none_or, Option.map_none, Option.none_or, numbered, Option.map_map]
      exact Option.map_id' (x := sel x)
    | some p => rfl

theorem findSome_numbered_eq_none_iff (n : ℕ) :
    (xs.zipIdx n).findSome? (numbered sel) = none ↔ ∀ x ∈ xs, sel x = none := by
  induction xs generalizing n with
  | nil => simp
  | cons x xs ih =>
    rw [findSome_numbered_cons, Option.or_eq_none_iff, ih, numbered, Option.map_eq_none_iff,
      List.forall_mem_cons]

theorem lastSome_numbered_eq_none_iff (n : ℕ) :
    lastSome (numbered sel) (xs.zipIdx n) = none ↔ ∀ x ∈ xs, sel x = none := by
  induction xs generalizing n with
  | nil => simp
  | cons x xs ih =>
    rw [lastSome_numbered_cons, Option.or_eq_none_iff, ih, numbered, Option.map_eq_none_iff,
      List.forall_mem_cons, and_comm]

/-- **First and last.** They are the same line if only one line selects something. -/
theorem findSome_eq_lastSome_iff (sel : β → Option γ) (xs : List β) (n : ℕ) :
    (xs.zipIdx n).findSome? (numbered sel) = lastSome (numbered sel) (xs.zipIdx n) ↔
      (xs.filter fun x => (sel x).isSome).length ≤ 1 := by
  induction xs generalizing n with
  | nil => simp
  | cons x xs ih =>
    rw [findSome_numbered_cons, lastSome_numbered_cons, List.filter_cons]
    cases hx : sel x with
    | none => simp only [numbered, hx, Option.map_none, Option.none_or, Option.or_none, ih,
        Option.isSome_none, Bool.false_eq_true, if_false]
    | some v =>
      have hnil : lastSome (numbered sel) (xs.zipIdx (n + 1)) = none ↔
          (xs.filter fun x => (sel x).isSome) = [] := by
        rw [lastSome_numbered_eq_none_iff, List.filter_eq_nil_iff]
        exact forall₂_congr fun y _ => by simp
      have hone (m : ℕ) : m + 1 ≤ 1 ↔ m = 0 := by omega
      rw [Option.isSome_some, if_pos rfl, List.length_cons, hone, List.length_eq_zero_iff, ← hnil]
      have hhere : numbered sel (x, n) = some (n, v) := by
        rw [numbered, hx]
        rfl
      rw [hhere, Option.some_or]
      cases hlast : lastSome (numbered sel) (xs.zipIdx (n + 1)) with
      | none => simp
      | some p =>
        -- a later line has a greater number
        have hlt := (bounds_of_lastSome (i := p.1) (v := p.2) hlast).1
        rw [Option.some_or, Option.some.injEq]
        refine ⟨fun heq => ?_, fun h => absurd h (Option.some_ne_none p)⟩
        rw [← heq] at hlt
        exact absurd hlt (Nat.not_succ_le_self n)

/-- **A weaker test.** A test that lets more lines through finds the same line first if the first
line it lets through passes the stronger one. -/
theorem findSome_eq_findSome_iff (h : ∀ x v, sel x = some v → sel' x = some v) (xs : List β)
    (n : ℕ) :
    (xs.zipIdx n).findSome? (numbered sel') = (xs.zipIdx n).findSome? (numbered sel) ↔
      ∀ x, xs.find? (fun x => (sel' x).isSome) = some x → (sel x).isSome = true := by
  induction xs generalizing n with
  | nil => simp
  | cons x xs ih =>
    rw [findSome_numbered_cons, findSome_numbered_cons, List.find?_cons]
    cases hx' : sel' x with
    | none =>
      have hx : sel x = none := by
        cases hx : sel x with
        | none => rfl
        | some v => exact absurd ((h x v hx).symm.trans hx') (Option.some_ne_none v)
      simp only [numbered, hx, hx', Option.map_none, Option.none_or, Option.isSome_none]
      exact ih (n + 1)
    | some w =>
      simp only [Option.isSome_some, Option.some.injEq, forall_eq']
      cases hx : sel x with
      | none =>
        simp only [numbered, hx, hx', Option.map_some, Option.some_or, Option.map_none,
          Option.none_or, Option.isSome_none, Bool.false_eq_true, iff_false]
        -- the other test goes on, to a line with a greater number
        intro heq
        exact absurd (bounds_of_findSome heq.symm).1 (Nat.not_succ_le_self n)
      | some v =>
        have hw : v = w := Option.some.inj ((h x v hx).symm.trans hx')
        simp [numbered, hx, hx', hw]

end

end X3D
