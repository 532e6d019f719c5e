import Mathlib

/-!
# Places in a list, and what is there for the first time

A condition on every place of a list speaks of the elements before it and of the element there:
`∀ xs y ys, l = xs ++ y :: ys → P xs y`. The `forall_split` rules take such a condition apart along
the ways a list is built.

`List.eraseDups` keeps the first of each element. `eraseDups_concat` is its rule for one more
element at the end, which is how a loop that collects distinct elements sees it.
-/

namespace X3D

/-! ### Every place in a list -/

theorem forall_split_cons {β : Type*} {P : List β → β → Prop} {x : β} {l : List β} :
    (∀ xs y ys, x :: l = xs ++ y :: ys → P xs y) ↔
      P [] x ∧ ∀ xs y ys, l = xs ++ y :: ys → P (x :: xs) y := by
  constructor
  · intro h
    refine ⟨h [] x l rfl, fun xs y ys hl => h (x :: xs) y ys ?_⟩
    rw [hl, List.cons_append]
  · rintro ⟨hx, hl⟩ xs y ys heq
    cases xs with
    | nil =>
      obtain ⟨rfl, -⟩ := List.cons.inj heq
      exact hx
    | cons z xs =>
      obtain ⟨rfl, h⟩ := List.cons.inj heq
      exact hl xs y ys h

theorem exists_split_cons {β : Type*} {P : List β → β → Prop} {x : β} {l : List β} :
    (∃ xs y ys, x :: l = xs ++ y :: ys ∧ P xs y) ↔
      P [] x ∨ ∃ xs y ys, l = xs ++ y :: ys ∧ P (x :: xs) y := by
  have h := forall_split_cons (P := fun xs y => ¬ P xs y) (x := x) (l := l)
  constructor
  · intro hex
    by_contra hno
    rw [not_or] at hno
    obtain ⟨xs, y, ys, heq, hP⟩ := hex
    exact h.mpr ⟨hno.1, fun xs y ys hl hP => hno.2 ⟨xs, y, ys, hl, hP⟩⟩ xs y ys heq hP
  · rintro (hP | ⟨xs, y, ys, hl, hP⟩)
    · exact ⟨[], x, l, rfl, hP⟩
    · refine ⟨x :: xs, y, ys, ?_, hP⟩
      rw [hl, List.cons_append]

theorem forall_split_concat {β : Type*} {P : List β → β → Prop} {x : β} {l : List β} :
    (∀ xs y ys, l ++ [x] = xs ++ y :: ys → P xs y) ↔
      (∀ xs y ys, l = xs ++ y :: ys → P xs y) ∧ P l x := by
  constructor
  · intro h
    refine ⟨fun xs y ys hl => h xs y (ys ++ [x]) ?_, h l x [] rfl⟩
    rw [hl, List.append_assoc, List.cons_append]
  · rintro ⟨hl, hx⟩ xs y ys heq
    rcases List.eq_nil_or_concat ys with rfl | ⟨zs, z, rfl⟩
    · obtain ⟨rfl, hy⟩ := List.append_inj' heq rfl
      rw [← (List.cons.inj hy).1]
      exact hx
    · have hassoc : xs ++ y :: (zs ++ [z]) = (xs ++ y :: zs) ++ [z] := by
        rw [List.append_assoc, List.cons_append]
      rw [List.concat_eq_append, hassoc] at heq
      exact hl xs y zs (List.append_inj' heq rfl).1

theorem forall_split_map {β γ : Type*} {g : β → γ} {P : List γ → γ → Prop} {l : List β} :
    (∀ xs y ys, l.map g = xs ++ y :: ys → P xs y) ↔
      ∀ xs x ys, l = xs ++ x :: ys → P (xs.map g) (g x) := by
  constructor
  · rintro h xs x ys rfl
    exact h (xs.map g) (g x) (ys.map g) (by rw [List.map_append, List.map_cons])
  · intro h xs y ys heq
    obtain ⟨as, bs, rfl, rfl, hbs⟩ := List.map_eq_append_iff.mp heq
    obtain ⟨b, cs, rfl, rfl, -⟩ := List.map_eq_cons_iff.mp hbs
    exact h as b cs rfl

/-! ### The first of each element -/

section

variable {β : Type*} [BEq β] [LawfulBEq β]

theorem eraseDups_concat (l : List β) (x : β) :
    (l ++ [x]).eraseDups = if x ∈ l then l.eraseDups else l.eraseDups ++ [x] := by
  rw [List.eraseDups_append]
  by_cases hx : x ∈ l
  · have hnil : [x].removeAll l = [] := by simp [List.removeAll, hx]
    rw [if_pos hx, hnil, List.eraseDups_nil, List.append_nil]
  · have hself : [x].removeAll l = [x] := by simp [List.removeAll, hx]
    rw [if_neg hx, hself]
    rfl

end

/-! ### Two results of one loop -/

/-- A loop that sorts elements into two results computes each of them from its own elements. -/
theorem foldl_split {β σ : Type*} (step : σ → β → σ) (q : β → Bool) (xs : List β) (s t : σ) :
    xs.foldl (fun (m : σ × σ) x => if q x then (step m.1 x, m.2) else (m.1, step m.2 x)) (s, t) =
      ((xs.filter q).foldl step s, (xs.filter (!q ·)).foldl step t) := by
  induction xs generalizing s t with
  | nil => rfl
  | cons x xs ih =>
    rw [List.foldl_cons]
    by_cases hx : q x = true
    · rw [if_pos hx, ih, List.filter_cons_of_pos hx, List.filter_cons_of_neg (by simpa using hx),
        List.foldl_cons]
    · rw [if_neg hx, ih, List.filter_cons_of_neg hx, List.filter_cons_of_pos (by simpa using hx),
        List.foldl_cons]

/-! ### Parts of a list -/

/-- Of a list whose keys are distinct, taking away the keys of its beginning leaves the rest. -/
theorem filter_notMem_take {α β : Type*} [DecidableEq β] {f : α → β} {l : List α}
    (h : (l.map f).Nodup) (k : ℕ) : l.filter (fun x => f x ∉ (l.take k).map f) = l.drop k := by
  rw [← List.take_append_drop k l, List.map_append, List.nodup_append] at h
  obtain ⟨-, -, hdisjoint⟩ := h
  have htake : (l.take k).filter (fun x => f x ∉ (l.take k).map f) = [] := by
    rw [List.filter_eq_nil_iff]
    intro x hx
    rw [decide_eq_true_iff, not_not]
    exact List.mem_map_of_mem hx
  have hdrop : (l.drop k).filter (fun x => f x ∉ (l.take k).map f) = l.drop k := by
    rw [List.filter_eq_self]
    intro x hx
    refine decide_eq_true fun hmem => ?_
    exact hdisjoint _ hmem _ (List.mem_map_of_mem hx) rfl
  calc l.filter (fun x => f x ∉ (l.take k).map f)
      = (l.take k ++ l.drop k).filter (fun x => f x ∉ (l.take k).map f) := by
        rw [List.take_append_drop]
    _ = l.drop k := by rw [List.filter_append, htake, hdrop, List.nil_append]

theorem insertIdx_append {α : Type*} (as bs : List α) (x : α) :
    (as ++ bs).insertIdx as.length x = as ++ x :: bs := by
  induction as with
  | nil => rfl
  | cons a as ih =>
    rw [List.cons_append, List.length_cons, List.insertIdx_succ_cons, ih]
    rfl

theorem mem_dropWhile {α : Type*} {p : α → Bool} {x : α} {l : List α} (hx : x ∈ l)
    (h : p x = false) : x ∈ l.dropWhile p := by
  rw [← List.takeWhile_append_dropWhile (p := p) (l := l)] at hx
  refine (List.mem_append.mp hx).resolve_left fun htake => ?_
  exact Bool.false_ne_true (h.symm.trans (List.mem_takeWhile_imp htake))

/-- Filtering takes no text away only if what goes is empty. -/
theorem flatMap_filter_eq_iff {α β : Type*} {p : α → Bool} {f : α → List β} {l : List α} :
    (l.filter p).flatMap f = l.flatMap f ↔ ∀ a ∈ l, p a = false → f a = [] := by
  induction l with
  | nil => exact iff_of_true rfl (List.forall_mem_nil _)
  | cons a l ih =>
    have hshort : ((l.filter p).flatMap f).length ≤ (l.flatMap f).length :=
      (List.Sublist.flatMap List.filter_sublist f).length_le
    rw [List.forall_mem_cons, ← ih, List.flatMap_cons]
    by_cases hp : p a = true
    · rw [List.filter_cons_of_pos hp, List.flatMap_cons, List.append_cancel_left_eq]
      exact (and_iff_right fun hnot => absurd hp (by simp [hnot])).symm
    · rw [List.filter_cons_of_neg hp]
      have hfalse := Bool.eq_false_of_not_eq_true hp
      constructor
      · intro h
        have hnil : f a = [] := by
          have hlen := congrArg List.length h
          rw [List.length_append] at hlen
          exact List.length_eq_zero_iff.mp (by omega)
        rw [hnil, List.nil_append] at h
        exact ⟨fun _ => hnil, h⟩
      · rintro ⟨hnil, h⟩
        rw [h, hnil hfalse, List.nil_append]

end X3D
