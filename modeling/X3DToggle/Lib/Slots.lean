import Mathlib.Data.List.InsertIdx
import Mathlib.Order.Nat
import Mathlib.Logic.Function.Basic
import Mathlib.Tactic.Common

/-!
# Arrays that log their accesses

Slots of a growing allocation, as a program in a language without bounds checks sees them: an
access goes through whatever its index, so the cells are a function on all indices, and what
the language leaves to the program is a property of the log. `InBounds` says that every index
was below the capacity of its time. A run stays in bounds as long as each access does
(`inBounds_touch`), and a slot access changes the content as the list operation it stands for
(`content_write_self`, `content_write_insertIdx`). A loop that writes slot after slot is one
`writeList`, whatever it does between the writes.
-/

namespace X3D

universe u

/-- An access, with the capacity of its time. -/
structure Access where
  index : ℕ
  cap : ℕ
  deriving DecidableEq

/-- An array of slots. -/
structure Slots (α : Type u) where
  cell : ℕ → α
  cap : ℕ
  -- the accesses so far, the first one first
  log : List Access

namespace Slots

variable {α : Type u}

/-- An access to slot `i`. -/
def touch (a : Slots α) (i : ℕ) : Slots α := { a with log := a.log ++ [⟨i, a.cap⟩] }

/-- Write `x` to slot `i`. -/
def write (a : Slots α) (i : ℕ) (x : α) : Slots α :=
  { a.touch i with cell := Function.update a.cell i x }

/-- Write `f` of slot `j` to slot `i`. -/
def copy (f : α → α) (a : Slots α) (i j : ℕ) : Slots α := (a.touch j).write i (f (a.cell j))

/-- Access the first `n` slots in order. -/
def touchFirst (a : Slots α) : ℕ → Slots α
  | 0 => a
  | n + 1 => (a.touchFirst n).touch n

/-- Every access so far was to a slot of the allocation. -/
def InBounds (a : Slots α) : Prop := ∀ x ∈ a.log, x.index < x.cap

@[simp] theorem touch_cell (a : Slots α) (i : ℕ) : (a.touch i).cell = a.cell := rfl
@[simp] theorem touch_cap (a : Slots α) (i : ℕ) : (a.touch i).cap = a.cap := rfl
@[simp] theorem write_cap (a : Slots α) (i : ℕ) (x : α) : (a.write i x).cap = a.cap := rfl
@[simp] theorem copy_cap (f : α → α) (a : Slots α) (i j : ℕ) : (a.copy f i j).cap = a.cap := rfl

@[simp] theorem write_cell (a : Slots α) (i : ℕ) (x : α) :
    (a.write i x).cell = Function.update a.cell i x := rfl

@[simp] theorem copy_cell (f : α → α) (a : Slots α) (i j : ℕ) :
    (a.copy f i j).cell = Function.update a.cell i (f (a.cell j)) := rfl

@[simp] theorem touchFirst_cell (a : Slots α) (n : ℕ) : (a.touchFirst n).cell = a.cell := by
  induction n with
  | zero => rfl
  | succ n ih => exact ih

@[simp] theorem touchFirst_cap (a : Slots α) (n : ℕ) : (a.touchFirst n).cap = a.cap := by
  induction n with
  | zero => rfl
  | succ n ih => exact ih

/-! ### Bounds -/

@[simp] theorem inBounds_touch (a : Slots α) (i : ℕ) :
    (a.touch i).InBounds ↔ a.InBounds ∧ i < a.cap := by
  unfold InBounds touch
  rw [List.forall_mem_append, List.forall_mem_singleton]

@[simp] theorem inBounds_write (a : Slots α) (i : ℕ) (x : α) :
    (a.write i x).InBounds ↔ a.InBounds ∧ i < a.cap := inBounds_touch a i

@[simp] theorem inBounds_copy (f : α → α) (a : Slots α) (i j : ℕ) :
    (a.copy f i j).InBounds ↔ (a.InBounds ∧ j < a.cap) ∧ i < a.cap := by
  unfold copy
  rw [inBounds_write, inBounds_touch, touch_cap]

theorem inBounds_touchFirst (a : Slots α) (n : ℕ) :
    (a.touchFirst n).InBounds ↔ a.InBounds ∧ n ≤ a.cap := by
  induction n with
  | zero => exact (and_iff_left (Nat.zero_le _)).symm
  | succ n ih =>
    rw [touchFirst, inBounds_touch, ih, touchFirst_cap, and_assoc]
    refine and_congr_right fun _ => ?_
    omega

/-! ### Content -/

/-- The first `n` slots, as a list. -/
def content (a : Slots α) (n : ℕ) : List α := (List.range n).map a.cell

@[simp] theorem length_content (a : Slots α) (n : ℕ) : (a.content n).length = n := by
  rw [content, List.length_map, List.length_range]

theorem getElem_content (a : Slots α) {n k : ℕ} (h : k < (a.content n).length) :
    (a.content n)[k] = a.cell k := by
  simp only [content, List.getElem_map, List.getElem_range]

/-- A write behind the last slot of a list appends to the list. -/
theorem content_write_self (a : Slots α) (n : ℕ) (x : α) :
    (a.write n x).content (n + 1) = a.content n ++ [x] := by
  unfold content
  rw [List.range_succ, List.map_append, List.map_singleton, write_cell, Function.update_self]
  congr 1
  refine List.map_congr_left fun i hi => ?_
  exact Function.update_of_ne (List.mem_range.mp hi).ne _ _

/-- A write to the slot that the ones behind it have left by moving one further inserts into
the list. -/
theorem content_write_insertIdx {a b : Slots α} {n i : ℕ} (hi : i ≤ n)
    (hlow : ∀ k < i, b.cell k = a.cell k) (hhigh : ∀ k, i ≤ k → k < n → b.cell (k + 1) = a.cell k)
    (x : α) : (b.write i x).content (n + 1) = (a.content n).insertIdx i x := by
  apply List.ext_getElem
  · rw [length_content, List.length_insertIdx_of_le_length (by rwa [length_content]),
      length_content]
  intro k hk hk'
  rw [length_content] at hk
  rw [getElem_content, write_cell]
  rcases Nat.lt_trichotomy k i with hlt | rfl | hgt
  · rw [Function.update_of_ne hlt.ne, hlow k hlt, List.getElem_insertIdx_of_lt hlt, getElem_content]
  · rw [Function.update_self, List.getElem_insertIdx_self]
  · obtain ⟨m, rfl⟩ : ∃ m, k = m + 1 := ⟨k - 1, by omega⟩
    rw [Function.update_of_ne hgt.ne', hhigh m (by omega) (by omega),
      List.getElem_insertIdx_of_gt hgt]
    exact (getElem_content _ _).symm

/-! ### Writes in a row -/

/-- Write the elements of a list to the slots from `i` on. -/
def writeList (a : Slots α) (i : ℕ) : List α → Slots α
  | [] => a
  | x :: xs => (a.write i x).writeList (i + 1) xs

/-- The indices accessed so far. -/
def accessed (a : Slots α) : List ℕ := a.log.map Access.index

@[simp] theorem writeList_nil (a : Slots α) (i : ℕ) : a.writeList i [] = a := rfl

@[simp] theorem writeList_cons (a : Slots α) (i : ℕ) (x : α) (xs : List α) :
    a.writeList i (x :: xs) = (a.write i x).writeList (i + 1) xs := rfl

@[simp] theorem writeList_cap (a : Slots α) (i : ℕ) (xs : List α) :
    (a.writeList i xs).cap = a.cap := by
  induction xs generalizing a i with
  | nil => rfl
  | cons x xs ih => exact ih _ _

theorem writeList_append (a : Slots α) (i : ℕ) (xs ys : List α) :
    a.writeList i (xs ++ ys) = (a.writeList i xs).writeList (i + xs.length) ys := by
  induction xs generalizing a i with
  | nil => rfl
  | cons x xs ih =>
    rw [List.cons_append, writeList_cons, ih, writeList_cons, List.length_cons, Nat.add_assoc,
      Nat.add_comm 1]

theorem accessed_writeList (a : Slots α) (i : ℕ) (xs : List α) :
    (a.writeList i xs).accessed = a.accessed ++ List.range' i xs.length := by
  induction xs generalizing a i with
  | nil => exact (List.append_nil _).symm
  | cons x xs ih =>
    have hwrite : (a.write i x).accessed = a.accessed ++ [i] := List.map_append
    rw [writeList_cons, ih, hwrite, List.length_cons, List.range'_succ, List.append_assoc,
      List.singleton_append]

theorem InBounds.writeList {a : Slots α} (h : a.InBounds) {i : ℕ} {xs : List α}
    (hcap : i + xs.length ≤ a.cap) : (a.writeList i xs).InBounds := by
  induction xs generalizing a i with
  | nil => exact h
  | cons x xs ih =>
    rw [List.length_cons] at hcap
    refine ih ((inBounds_write a i x).mpr ⟨h, by omega⟩) ?_
    rw [write_cap]
    omega

/-- Slots in front of the first one and behind the last one keep what they hold. -/
theorem writeList_cell_of_lt (a : Slots α) {i k : ℕ} (h : k < i) (xs : List α) :
    (a.writeList i xs).cell k = a.cell k := by
  induction xs generalizing a i with
  | nil => rfl
  | cons x xs ih =>
    rw [writeList_cons, ih _ (by omega), write_cell, Function.update_of_ne h.ne]

/-- The slots in front of the writes keep their content. -/
theorem content_writeList_of_le (a : Slots α) {n i : ℕ} (h : n ≤ i) (xs : List α) :
    (a.writeList i xs).content n = a.content n :=
  List.map_congr_left fun _ hk =>
    writeList_cell_of_lt a ((List.mem_range.mp hk).trans_le h) xs

/-- **Writes in a row** behind the last slot of a list append to the list. -/
theorem content_writeList (a : Slots α) (n : ℕ) (xs : List α) :
    (a.writeList n xs).content (n + xs.length) = a.content n ++ xs := by
  induction xs generalizing a n with
  | nil => exact (List.append_nil _).symm
  | cons x xs ih =>
    rw [writeList_cons, List.length_cons, Nat.add_comm xs.length, ← Nat.add_assoc, ih,
      content_write_self, List.append_assoc, List.singleton_append]

end Slots
end X3D
