import Mathlib.Logic.Function.Basic
import Mathlib.Order.Nat
import Mathlib.Tactic.Common

/-!
# Copying within one memory

A memory is a function on addresses. A loop that copies a block cell by cell reads the memory it
writes to, so where the two blocks overlap the direction decides what it leaves: `copyUp` begins
with the lowest cell, `copyDown` with the highest. `moved` is what a copy is for: every cell is
read before any is written.

Downwards a block can be moved to any higher address (`copyDown_eq_moved`). Upwards the loop comes
to the cells it has written itself if the target lies within the source, and repeats the beginning
of the source from there on (`copyUp_apply_of_lt`). Anywhere else it moves the block
(`copyUp_eq_moved_iff`).
-/

namespace X3D

variable {α : Type*}

/-- Copy `n` cells from `s` on to `d`, the lowest first. -/
def copyUp : ℕ → ℕ → ℕ → (ℕ → α) → ℕ → α
  | _, _, 0, m => m
  | d, s, n + 1, m => copyUp (d + 1) (s + 1) n (Function.update m d (m s))

/-- Copy `n` cells from `s` on to `d`, the highest first. -/
def copyDown (d s : ℕ) : ℕ → (ℕ → α) → ℕ → α
  | 0, m => m
  | n + 1, m => copyDown d s n (Function.update m (d + n) (m (s + n)))

/-- The `n` cells from `s` on moved to `d`. -/
def moved (d s n : ℕ) (m : ℕ → α) : ℕ → α :=
  fun a => if d ≤ a ∧ a < d + n then m (s + (a - d)) else m a

theorem moved_add {d s n k : ℕ} (h : k < n) (m : ℕ → α) : moved d s n m (d + k) = m (s + k) := by
  unfold moved
  rw [if_pos ⟨Nat.le_add_right d k, by omega⟩, Nat.add_sub_cancel_left]

theorem moved_of_lt_or_le {d s n a : ℕ} (h : a < d ∨ d + n ≤ a) (m : ℕ → α) :
    moved d s n m a = m a :=
  if_neg (by omega)

/-- A memory is the moved one if it agrees with it in the block and outside. -/
theorem eq_moved {d s n : ℕ} {m m' : ℕ → α} (hblock : ∀ k < n, m' (d + k) = m (s + k))
    (hframe : ∀ a, a < d ∨ d + n ≤ a → m' a = m a) : m' = moved d s n m := by
  funext a
  by_cases h : d ≤ a ∧ a < d + n
  · obtain ⟨k, rfl⟩ := Nat.exists_eq_add_of_le h.1
    rw [hblock k (by omega), moved_add (by omega)]
  · rw [hframe a (by omega), moved_of_lt_or_le (by omega)]

/-! ### Upwards -/

theorem copyUp_frame {d s n a : ℕ} (h : a < d ∨ d + n ≤ a) (m : ℕ → α) :
    copyUp d s n m a = m a := by
  induction n generalizing d s m with
  | zero => rfl
  | succ n ih =>
    rw [copyUp, ih (by omega)]
    exact Function.update_of_ne (by omega) _ _

/-- To a lower address the loop reads no cell it has written. -/
theorem copyUp_apply_of_le {d s n k : ℕ} (h : d ≤ s) (hk : k < n) (m : ℕ → α) :
    copyUp d s n m (d + k) = m (s + k) := by
  induction n generalizing d s k m with
  | zero => omega
  | succ n ih =>
    rw [copyUp]
    cases k with
    | zero =>
      rw [copyUp_frame (Or.inl (by omega))]
      exact Function.update_self _ _ _
    | succ k =>
      rw [show d + (k + 1) = d + 1 + k by omega, ih (by omega) (by omega),
        Function.update_of_ne (by omega)]
      congr 1
      omega

/-- To a higher address the cells between the two repeat. -/
theorem copyUp_apply_of_lt {d s n k : ℕ} (h : s < d) (hk : k < n) (m : ℕ → α) :
    copyUp d s n m (d + k) = m (s + k % (d - s)) := by
  induction n generalizing d s k m with
  | zero => omega
  | succ n ih =>
    rw [copyUp]
    cases k with
    | zero =>
      rw [copyUp_frame (Or.inl (by omega)), Nat.zero_mod]
      exact Function.update_self _ _ _
    | succ k =>
      rw [show d + (k + 1) = d + 1 + k by omega, ih (by omega) (by omega),
        Nat.add_sub_add_right]
      have hlt : k % (d - s) < d - s := Nat.mod_lt k (by omega)
      -- one cell further, or back at the first
      by_cases hlast : k % (d - s) + 1 = d - s
      · have hmod : (k + 1) % (d - s) = 0 := by
          rw [← Nat.mod_add_mod, hlast, Nat.mod_self]
        rw [hmod, show s + 1 + k % (d - s) = d by omega]
        exact Function.update_self _ _ _
      · have hmod : (k + 1) % (d - s) = k % (d - s) + 1 := by
          rw [← Nat.mod_add_mod]
          exact Nat.mod_eq_of_lt (by omega)
        rw [hmod, Function.update_of_ne (by omega)]
        congr 1
        omega

/-- **What a copy upwards moves.** -/
theorem copyUp_eq_moved_iff [Nontrivial α] {d s n : ℕ} :
    (∀ m : ℕ → α, copyUp d s n m = moved d s n m) ↔ d ≤ s ∨ s + n ≤ d := by
  constructor
  · intro h
    by_contra hover
    obtain ⟨x, y, hxy⟩ := exists_pair_ne α
    -- the first cell comes back where the target meets the source
    have hd : copyUp d s n (Function.update (fun _ => x) s y) (d + (d - s)) = y := by
      rw [copyUp_apply_of_lt (by omega) (by omega), Nat.mod_self]
      exact Function.update_self _ _ _
    rw [h, moved_add (by omega), Function.update_of_ne (by omega)] at hd
    exact hxy hd
  · rintro (hle | hle) m
    · exact eq_moved (fun k hk => copyUp_apply_of_le hle hk m) fun a ha => copyUp_frame ha m
    · refine eq_moved (fun k hk => ?_) fun a ha => copyUp_frame ha m
      rw [copyUp_apply_of_lt (by omega) hk, Nat.mod_eq_of_lt (by omega)]

/-! ### Downwards -/

theorem copyDown_frame {d s n a : ℕ} (h : a < d ∨ d + n ≤ a) (m : ℕ → α) :
    copyDown d s n m a = m a := by
  induction n generalizing m with
  | zero => rfl
  | succ n ih =>
    rw [copyDown, ih (by omega)]
    exact Function.update_of_ne (by omega) _ _

/-- **What a copy downwards moves.** -/
theorem copyDown_eq_moved {d s : ℕ} (h : s ≤ d) (n : ℕ) (m : ℕ → α) :
    copyDown d s n m = moved d s n m := by
  refine eq_moved (fun k hk => ?_) fun a ha => copyDown_frame ha m
  induction n generalizing m with
  | zero => omega
  | succ n ih =>
    rw [copyDown]
    rcases Nat.lt_succ_iff_lt_or_eq.mp hk with hlt | rfl
    · rw [ih _ hlt]
      exact Function.update_of_ne (by omega) _ _
    · rw [copyDown_frame (Or.inr le_rfl)]
      exact Function.update_self _ _ _

end X3D
