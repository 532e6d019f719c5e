import Mathlib

/-!
# Placing an element in a list

A list of records is a store: the records of a key are those a predicate `p` picks out, and
storing a record `a` of the key puts it in the place of each of them, or at the end if there is
none. `place p a` is that operation. Its laws are the ones of a store: what was stored is there
(`any_place`), a second record of the key overrides the first (`place_place`), and records of two
keys can be stored in either order, if both have a place already (`place_comm`).
-/

namespace X3D

section

variable {α : Type*} {p q : α → Bool} {a b : α} {l : List α}

/-- Put `a` in the place of an element that `p` picks out. -/
def swapIn (p : α → Bool) (a x : α) : α := if p x then a else x

/-- Put `a` in the place of every element that `p` picks out, or at the end. -/
def place (p : α → Bool) (a : α) (l : List α) : List α :=
  if l.any p then l.map (swapIn p a) else l ++ [a]

theorem swapIn_swapIn (ha : p a = true) (x : α) : swapIn p b (swapIn p a x) = swapIn p b x := by
  unfold swapIn
  by_cases hx : p x = true
  · rw [if_pos hx, if_pos ha, if_pos hx]
  · rw [if_neg hx]

theorem swapIn_comm (hpq : ∀ x, p x = true → q x = false) (hb : p b = false) (ha : q a = false)
    (x : α) : swapIn p a (swapIn q b x) = swapIn q b (swapIn p a x) := by
  unfold swapIn
  by_cases hx : p x = true
  · have hqx : ¬q x = true := Bool.eq_false_iff.mp (hpq x hx)
    rw [if_neg hqx, if_pos hx, if_neg (Bool.eq_false_iff.mp ha)]
  · rw [if_neg hx]
    by_cases hqx : q x = true
    · rw [if_pos hqx, if_neg (Bool.eq_false_iff.mp hb)]
    · rw [if_neg hqx, if_neg hx]

theorem any_map_swapIn (h : ∀ x, q (swapIn p a x) = q x) (l : List α) :
    (l.map (swapIn p a)).any q = l.any q := by
  rw [List.any_map]
  exact congrArg (List.any l) (funext h)

theorem any_place (ha : p a = true) : (place p a l).any p = true := by
  unfold place
  split
  next h =>
    obtain ⟨x, hx, hpx⟩ := List.any_eq_true.mp h
    refine List.any_eq_true.mpr ⟨a, List.mem_map.mpr ⟨x, hx, if_pos hpx⟩, ha⟩
  next => exact List.any_eq_true.mpr ⟨a, List.mem_append_right l List.mem_cons_self, ha⟩

/-- Storing a record again changes nothing, and storing another one of the key overrides it. -/
theorem place_place (ha : p a = true) : place p b (place p a l) = place p b l := by
  have hany := any_place ha (l := l)
  rw [place, if_pos hany]
  unfold place
  by_cases h : l.any p = true
  · rw [if_pos h, if_pos h, List.map_map]
    exact List.map_congr_left fun x _ => swapIn_swapIn ha x
  · -- none of the old elements is picked out
    have hself : l.map (swapIn p b) = l := by
      refine (List.map_congr_left fun x hx => ?_).trans (List.map_id l)
      exact if_neg fun hpx => h (List.any_eq_true.mpr ⟨x, hx, hpx⟩)
    rw [if_neg h, if_neg h, List.map_append, hself, List.map_singleton, swapIn, if_pos ha]

/-- Records of two keys that are present can be stored in either order. -/
theorem place_comm (hpq : ∀ x, p x = true → q x = false) (hb : p b = false) (ha : q a = false)
    (hp : l.any p = true) (hq : l.any q = true) :
    place p a (place q b l) = place q b (place p a l) := by
  -- both keys are still present after the other one is stored
  have hp' : (l.map (swapIn q b)).any p = true := by
    rw [any_map_swapIn, hp]
    intro x
    unfold swapIn
    by_cases hqx : q x = true
    · have hpx : p x = false := Bool.eq_false_of_not_eq_true fun h =>
        Bool.false_ne_true ((hpq x h).symm.trans hqx)
      rw [if_pos hqx, hb, hpx]
    · rw [if_neg hqx]
  have hq' : (l.map (swapIn p a)).any q = true := by
    rw [any_map_swapIn, hq]
    intro x
    unfold swapIn
    by_cases hpx : p x = true
    · rw [if_pos hpx, ha, hpq x hpx]
    · rw [if_neg hpx]
  calc place p a (place q b l) = (l.map (swapIn q b)).map (swapIn p a) := by
        rw [place, place, if_pos hq, if_pos hp']
    _ = (l.map (swapIn p a)).map (swapIn q b) := by
        rw [List.map_map, List.map_map]
        exact List.map_congr_left fun x _ => swapIn_comm hpq hb ha x
    _ = place q b (place p a l) := by
        rw [place, place, if_pos hp, if_pos hq']

end

end X3D
