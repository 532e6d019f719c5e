import Mathlib

/-!
# Elements with the state after them

A loop over a list often carries a state from element to element: the section a line is in, the
depth of a bracket. `withState step s l` pairs each element with the state after it, so that what
the loop does at an element depends on the pair alone. Two loops with different states are compared
on the pairs of the product (`withState_fst`, `withState_snd`).

Where a loop drops elements, `map_filter_not_eq_iff` compares what two such loops leave: they leave
the same exactly if they drop the same places, as long as equal elements that both might drop are
not told apart by one of them.
-/

namespace X3D

section

variable {α β σ τ : Type*} {step : σ → α → σ} {step' : τ → α → τ}

/-- Each element with the state after it. -/
def withState (step : σ → α → σ) : σ → List α → List (α × σ)
  | _, [] => []
  | s, x :: l => (x, step s x) :: withState step (step s x) l

/-- Two states side by side. -/
def both (step : σ → α → σ) (step' : τ → α → τ) (s : σ × τ) (x : α) : σ × τ :=
  (step s.1 x, step' s.2 x)

theorem withState_append (s : σ) (l m : List α) :
    withState step s (l ++ m) = withState step s l ++ withState step (l.foldl step s) m := by
  induction l generalizing s with
  | nil => rfl
  | cons x l ih =>
    rw [List.cons_append, withState, ih, List.foldl_cons, withState, List.cons_append]

theorem map_fst_withState (step : σ → α → σ) (s : σ) (l : List α) :
    (withState step s l).map Prod.fst = l := by
  induction l generalizing s with
  | nil => rfl
  | cons x l ih => rw [withState, List.map_cons, ih]

/-- A change of the elements that the state does not depend on. -/
theorem withState_map {g : α → α}
    (h : ∀ s x, step s (g x) = step s x) (s : σ) (l : List α) :
    withState step s (l.map g) = (withState step s l).map fun p => (g p.1, p.2) := by
  induction l generalizing s with
  | nil => rfl
  | cons x l ih => rw [List.map_cons, withState, withState, List.map_cons, h, ih]

theorem withState_fst (step : σ → α → σ) (step' : τ → α → τ) (s : σ) (t : τ) (l : List α) :
    (withState (both step step') (s, t) l).map (fun p => (p.1, p.2.1)) = withState step s l := by
  induction l generalizing s t with
  | nil => rfl
  | cons x l ih =>
    rw [withState, List.map_cons, withState]
    exact congrArg _ (ih _ _)

theorem withState_snd (step : σ → α → σ) (step' : τ → α → τ) (s : σ) (t : τ) (l : List α) :
    (withState (both step step') (s, t) l).map (fun p => (p.1, p.2.2)) = withState step' t l := by
  induction l generalizing s t with
  | nil => rfl
  | cons x l ih =>
    rw [withState, List.map_cons, withState]
    exact congrArg _ (ih _ _)

theorem mem_of_mem_withState {s : σ} {l : List α} {p : α × σ} (h : p ∈ withState step s l) :
    p.1 ∈ l := by
  rw [← map_fst_withState step s l]
  exact List.mem_map_of_mem h

/-- What a relation between the states and its step preserve, the pairs have. -/
theorem forall_mem_withState {P : σ → Prop} (hstep : ∀ s x, P s → P (step s x)) {s : σ}
    (hs : P s) {l : List α} : ∀ p ∈ withState step s l, P p.2 := by
  induction l generalizing s with
  | nil => exact fun p hp => absurd hp List.not_mem_nil
  | cons x l ih =>
    intro p hp
    rcases List.mem_cons.mp hp with rfl | hp
    · exact hstep s x hs
    · exact ih (hstep s x hs) p hp

/-- **A loop that drops elements.** It collects `f x` of each element that `drop` does not pick
out in the state after it. -/
theorem foldl_keep (step : σ → α → σ) (f : α → β) (drop : α × σ → Bool) (out : List β) (s : σ)
    (l : List α) :
    l.foldl (fun acc x => if drop (x, step acc.2 x) then (acc.1, step acc.2 x)
        else (acc.1 ++ [f x], step acc.2 x)) (out, s) =
      (out ++ ((withState step s l).filter fun p => !drop p).map fun p => f p.1,
        l.foldl step s) := by
  induction l generalizing out s with
  | nil => simp [withState]
  | cons x l ih =>
    rw [List.foldl_cons, List.foldl_cons, withState, List.filter_cons]
    by_cases hdrop : drop (x, step s x) = true
    · rw [if_pos hdrop, ih, hdrop]
      rfl
    · rw [if_neg hdrop, ih, Bool.eq_false_of_not_eq_true hdrop, List.append_assoc]
      rfl

/-- What is left of a list after a larger choice is left out, if it is left after a smaller one,
has lost nothing more. -/
theorem filter_not_eq_of_imp {p q : α → Bool} {l : List α} {f : α → β}
    (hqp : ∀ x ∈ l, q x = true → p x = true)
    (h : (l.filter fun x => !p x).map f = (l.filter fun x => !q x).map f) :
    ∀ x ∈ l, p x = true → q x = true := by
  have hsub : (l.filter fun x => !p x).Sublist (l.filter fun x => !q x) := by
    have hnested : (l.filter fun x => !q x).filter (fun x => !p x) = l.filter fun x => !p x := by
      rw [List.filter_filter]
      refine List.filter_congr fun x hx => ?_
      cases hp : p x with
      | true => rfl
      | false =>
        have hq : q x = false := Bool.eq_false_of_not_eq_true fun hq =>
          Bool.false_ne_true (hp.symm.trans (hqp x hx hq))
        rw [hq]
        rfl
    rw [← hnested]
    exact List.filter_sublist
  -- what is left out more would show in the length
  have hlen := congrArg List.length h
  rw [List.length_map, List.length_map] at hlen
  have heq := hsub.eq_of_length hlen
  intro x hx hp
  by_contra hq
  have hmem : x ∈ l.filter fun x => !q x := List.mem_filter.mpr ⟨hx, by simp [hq]⟩
  rw [← heq] at hmem
  have hnot := (List.mem_filter.mp hmem).2
  rw [hp] at hnot
  exact Bool.false_ne_true hnot

/-- **What two loops leave.** They leave the same exactly if they drop the same places, if the one
drops an element wherever the other does and it drops an equal one. -/
theorem map_filter_not_eq_iff [DecidableEq β] {p q : α → Bool} {l : List α} {f : α → β}
    (h : ∀ x ∈ l, ∀ y ∈ l, p x = true → q y = true → f x = f y → p y = true) :
    (l.filter fun x => !p x).map f = (l.filter fun x => !q x).map f ↔
      ∀ x ∈ l, p x = true ↔ q x = true := by
  constructor
  · intro heq
    have hqp : ∀ y ∈ l, q y = true → p y = true := by
      intro y hy hq
      by_contra hp
      -- no element equal to `y` is dropped by the one, and `y` is by the other
      have hkept : ((l.filter fun x => !p x).filter fun x => f x = f y) =
          l.filter fun x => f x = f y := by
        rw [List.filter_filter]
        refine List.filter_congr fun x hx => ?_
        by_cases hxy : f x = f y
        · have hpx : ¬p x = true := fun hpx => hp (h x hx y hy hpx hq hxy)
          rw [Bool.eq_false_of_not_eq_true hpx]
          simp
        · simp [hxy]
      have hcount : ((l.filter fun x => !p x).filter fun x => f x = f y).length =
          ((l.filter fun x => !q x).filter fun x => f x = f y).length := by
        have hmap := congrArg (fun m => (m.filter fun b => b = f y).length) heq
        simpa only [List.filter_map, List.length_map, Function.comp_def] using hmap
      have hsub : ((l.filter fun x => !q x).filter fun x => f x = f y).Sublist
          (l.filter fun x => f x = f y) := by
        rw [List.filter_comm]
        exact List.filter_sublist
      rw [hkept] at hcount
      have hall := hsub.eq_of_length hcount.symm
      have hmem : y ∈ l.filter fun x => f x = f y := List.mem_filter.mpr ⟨hy, by simp⟩
      rw [← hall] at hmem
      have hnot := (List.mem_filter.mp (List.mem_filter.mp hmem).1).2
      rw [hq] at hnot
      exact Bool.false_ne_true hnot
    intro x hx
    exact ⟨filter_not_eq_of_imp hqp heq x hx, hqp x hx⟩
  · intro hiff
    have hfilter : (l.filter fun x => !p x) = l.filter fun x => !q x := by
      refine List.filter_congr fun x hx => ?_
      rw [Bool.eq_iff_iff.mpr (hiff x hx)]
    rw [hfilter]

end

end X3D
