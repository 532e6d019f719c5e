import Mathlib

/-!
# Counters that do not go below zero

`satCount zs` adds the integers `zs` one after the other to a counter that starts at zero and
stays at zero where a subtraction would take it below. The counter forgets every subtraction
made at zero, so its value is not the sum of `zs`: it is the largest sum of a suffix of `zs`
(`le_satCount_iff`).
-/

namespace X3D

/-- One addition to a counter that does not go below zero. -/
def satAdd (n : ℕ) (z : ℤ) : ℕ := (n + z).toNat

/-- The counter after all additions, from zero. -/
def satCount (zs : List ℤ) : ℕ := zs.foldl satAdd 0

@[simp] theorem satCount_nil : satCount [] = 0 := rfl

theorem satCount_concat (zs : List ℤ) (z : ℤ) :
    satCount (zs ++ [z]) = satAdd (satCount zs) z := by
  unfold satCount
  rw [List.foldl_append, List.foldl_cons, List.foldl_nil]

/-- **The counter is the largest suffix sum.** -/
theorem le_satCount_iff (zs : List ℤ) :
    ∀ m : ℤ, m ≤ satCount zs ↔ ∃ t, t <:+ zs ∧ m ≤ t.sum := by
  induction zs using List.reverseRecOn with
  | nil =>
    intro m
    constructor
    · exact fun h => ⟨[], List.suffix_refl _, h⟩
    · rintro ⟨t, ht, hm⟩
      obtain rfl := List.suffix_nil.mp ht
      exact hm
  | append_singleton zs z ih =>
    intro m
    -- the counter is at least `m` if `m` is not positive, or if it was at least `m - z`
    have hadd : m ≤ (satCount (zs ++ [z]) : ℤ) ↔ m ≤ 0 ∨ m - z ≤ satCount zs := by
      rw [satCount_concat, satAdd]
      omega
    rw [hadd, ih]
    constructor
    · -- the suffixes of the longer list are the empty one and the old ones with the last element
      rintro (h | ⟨t, ht, hm⟩)
      · exact ⟨[], List.nil_suffix, h⟩
      · refine ⟨t ++ [z], (List.suffix_append_inj_of_length_eq rfl).mpr ⟨ht, rfl⟩, ?_⟩
        rw [List.sum_append, List.sum_singleton]
        omega
    · rintro ⟨t, ht, hm⟩
      rcases List.suffix_concat_iff.mp ht with rfl | ⟨t', rfl, ht'⟩
      · exact Or.inl hm
      · refine Or.inr ⟨t', ht', ?_⟩
        rw [List.sum_append, List.sum_singleton] at hm
        omega

/-- The counter is positive exactly when some suffix has a positive sum. -/
theorem satCount_pos_iff (zs : List ℤ) :
    0 < satCount zs ↔ ∃ t, t <:+ zs ∧ 0 < t.sum := by
  have h := le_satCount_iff zs 1
  rw [show (1 : ℤ) ≤ satCount zs ↔ 0 < satCount zs by omega] at h
  exact h

end X3D
