import Mathlib.Data.List.Basic
import Mathlib.Logic.Function.Basic

/-!
# Overlays

A store is a function from keys to values, and a list of assignments is written over it from the
first to the last. What a key holds then is decided by the last assignment to it (`overlay_apply`),
so a key that is not assigned keeps its value (`overlay_of_notMem`), and lists of assignments to
different keys commute (`overlay_comm`).

A store seen through an injective renaming of its keys is overlaid by the renamed assignments
(`overlay_map`). This is how a store of settings is found in a store of files.
-/

namespace X3D

variable {κ ι β : Type*} [DecidableEq κ] [DecidableEq ι]

/-- A store after some assignments, the first one first. -/
def overlay (ws : List (κ × β)) (m : κ → β) : κ → β :=
  ws.foldl (fun m w => Function.update m w.1 w.2) m

/-- The values assigned to a key, in order. -/
def assigned (k : κ) (ws : List (κ × β)) : List β :=
  ws.filterMap fun w => if w.1 = k then some w.2 else none

@[simp] theorem overlay_nil (m : κ → β) : overlay [] m = m := rfl

theorem overlay_cons (w : κ × β) (ws : List (κ × β)) (m : κ → β) :
    overlay (w :: ws) m = overlay ws (Function.update m w.1 w.2) := rfl

theorem overlay_append (ws vs : List (κ × β)) (m : κ → β) :
    overlay (ws ++ vs) m = overlay vs (overlay ws m) :=
  List.foldl_append

theorem assigned_append (k : κ) (ws vs : List (κ × β)) :
    assigned k (ws ++ vs) = assigned k ws ++ assigned k vs :=
  List.filterMap_append

theorem assigned_eq_nil {k : κ} {ws : List (κ × β)} (h : ∀ w ∈ ws, w.1 ≠ k) :
    assigned k ws = [] :=
  List.filterMap_eq_nil_iff.mpr fun w hw => if_neg (h w hw)

/-- **The last assignment counts.** -/
theorem overlay_apply (ws : List (κ × β)) (m : κ → β) (k : κ) :
    overlay ws m k = (assigned k ws).getLast?.getD (m k) := by
  induction ws generalizing m with
  | nil => rfl
  | cons w ws ih =>
    rw [overlay_cons, ih]
    by_cases h : w.1 = k
    · have hcons : assigned k (w :: ws) = w.2 :: assigned k ws := by
        rw [assigned, List.filterMap_cons, if_pos h]
        rfl
      rw [hcons, ← h, Function.update_self, List.getLast?_cons]
      cases (assigned w.1 ws).getLast? with
      | none => rfl
      | some v => rfl
    · have hcons : assigned k (w :: ws) = assigned k ws := by
        rw [assigned, List.filterMap_cons, if_neg h]
        rfl
      rw [hcons, Function.update_of_ne (Ne.symm h)]

/-- A key that is not assigned keeps its value. -/
theorem overlay_of_notMem {ws : List (κ × β)} {k : κ} (h : ∀ w ∈ ws, w.1 ≠ k) (m : κ → β) :
    overlay ws m k = m k := by
  rw [overlay_apply, assigned_eq_nil h]
  rfl

/-- Assignments to different keys commute. -/
theorem overlay_comm {ws vs : List (κ × β)} (h : ∀ w ∈ ws, ∀ v ∈ vs, w.1 ≠ v.1) (m : κ → β) :
    overlay ws (overlay vs m) = overlay vs (overlay ws m) := by
  ext k
  by_cases hk : ∃ v ∈ vs, v.1 = k
  · obtain ⟨v, hv, rfl⟩ := hk
    have hws : ∀ w ∈ ws, w.1 ≠ v.1 := fun w hw => h w hw v hv
    rw [overlay_of_notMem hws, overlay_apply, overlay_apply, overlay_of_notMem hws]
  · have hvs : ∀ v ∈ vs, v.1 ≠ k := fun v hv hvk => hk ⟨v, hv, hvk⟩
    rw [overlay_of_notMem hvs, overlay_apply ws, overlay_apply ws, overlay_of_notMem hvs]

/-- **Renaming.** -/
theorem overlay_map {f : ι → κ} (hf : Function.Injective f) (ws : List (ι × β)) (m : κ → β) :
    overlay (ws.map fun w => (f w.1, w.2)) m ∘ f = overlay ws (m ∘ f) := by
  induction ws generalizing m with
  | nil => rfl
  | cons w ws ih =>
    rw [List.map_cons, overlay_cons, overlay_cons, ih, Function.update_comp_eq_of_injective m hf]

end X3D
