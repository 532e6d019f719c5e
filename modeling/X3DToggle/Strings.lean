import X3DToggle.Lib.Slots
import X3DToggle.Libc

/-!
# Strings in memory

A pointer into a string is an offset, and what is read there is `byteAt`: a byte of the string,
or its terminator. Behind the terminator the string says nothing, so a function that keeps to
its strings reads at offsets up to their lengths.

A buffer that is written to is an array of slots with the log of its stores; `Slots.Holds` says
that it begins with a string.
-/

namespace X3D

/-- A C string: bytes without a NUL among them. -/
abbrev CString := { s : Bytes // (0 : UInt8) ∉ s }

/-- `s[k]`. -/
def byteAt (s : Bytes) (k : ℕ) : UInt8 := s.getD k 0

theorem byteAt_of_lt {s : Bytes} {k : ℕ} (h : k < s.length) : byteAt s k = s[k] :=
  List.getD_eq_getElem s 0 h

/-- The terminator. -/
theorem byteAt_length (s : Bytes) : byteAt s s.length = 0 :=
  List.getD_eq_default s 0 le_rfl

/-- Up to its terminator a string has no other NUL. -/
theorem byteAt_eq_zero_iff (s : CString) {k : ℕ} (h : k ≤ s.val.length) :
    byteAt s.val k = 0 ↔ k = s.val.length := by
  refine ⟨fun hzero => ?_, fun hk => ?_⟩
  swap
  · rw [hk, byteAt_length]
  by_contra hne
  have hlt : k < s.val.length := by omega
  have hmem : s.val[k] ∈ s.val := List.getElem_mem hlt
  rw [byteAt_of_lt hlt] at hzero
  rw [hzero] at hmem
  exact s.prop hmem

/-- A block of memory that nothing was written to. -/
def Slots.block (mem : ℕ → UInt8) (cap : ℕ) : Slots UInt8 := ⟨mem, cap, []⟩

theorem Slots.inBounds_block (mem : ℕ → UInt8) (cap : ℕ) : (Slots.block mem cap).InBounds :=
  List.forall_mem_nil _

/-- The buffer holds the string `s`. -/
def Slots.Holds (a : Slots UInt8) (s : Bytes) : Prop :=
  a.content s.length = s ∧ a.cell s.length = 0

/-- A string and its terminator written in a row. -/
theorem Slots.holds_writeList (a : Slots UInt8) (s : Bytes) :
    (a.writeList 0 (s ++ [0])).Holds s := by
  have hcontent := a.content_writeList 0 s
  rw [Nat.zero_add] at hcontent
  rw [Slots.writeList_append, Nat.zero_add]
  refine ⟨?_, Function.update_self _ _ _⟩
  rw [Slots.content_writeList_of_le _ le_rfl, hcontent]
  rfl

end X3D
