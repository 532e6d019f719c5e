import X3DToggle.Strings

/-!
# Bounded copies

`strncpy`, `strncat` and `strlcat_local` at their stores. The first two test the counter and copy
a byte in one condition, and they write the terminator as the byte that ends the loop. What comes
after the loop does not know whether it was written: `strncpy` still fills up as many bytes as the
counter says, and `strncat` writes a terminator of its own. So both write one byte too many
exactly if the source ends before the counter does (`strncpy_bounded_iff`,
`strncat_bounded_iff`). `strlcat_local` works with lengths and keeps to its size
(`strlcatLocal_bounded`).

The log of a buffer holds the stores.
-/

namespace X3D

/-- A buffer with a string at its beginning. -/
structure StringBuffer (d : CString) where
  buf : Slots UInt8
  holds : buf.Holds d.val
  lt_cap : d.val.length < buf.cap
  log_eq : buf.log = []

/-! ### The code -/

/-- `while (n && (*d++ = *s++)) n--`, with `d` at offset `i`: the rest of `n`, the offset of `d`
and the buffer. -/
def strncpyCopy : Bytes → ℕ → ℕ → Slots UInt8 → ℕ × ℕ × Slots UInt8
  | _, 0, i, a => (0, i, a)
  | [], n + 1, i, a => (n + 1, i + 1, a.write i 0)
  | c :: s, n + 1, i, a => strncpyCopy s n (i + 1) (a.write i c)

/-- `while (n--) *d++ = 0`. -/
def zeroLoop : ℕ → ℕ → Slots UInt8 → Slots UInt8
  | 0, _, a => a
  | n + 1, i, a => zeroLoop n (i + 1) (a.write i 0)

/-- `strncpy(d, s, n)`. -/
def strncpy (a : Slots UInt8) (s : Bytes) (n : ℕ) : Slots UInt8 :=
  if n = 0 then a
  else
    let (n, i, a) := strncpyCopy s n 0 a
    zeroLoop n i a

/-- `while (*d) d++`, from offset `k` on. -/
def strEnd (a : Slots UInt8) : ℕ → ℕ → ℕ
  | 0, k => k
  | fuel + 1, k => if a.cell k = 0 then k else strEnd a fuel (k + 1)

/-- `while (n-- && (*d++ = *s++)) {}`. -/
def strncatCopy : Bytes → ℕ → ℕ → Slots UInt8 → ℕ × Slots UInt8
  | _, 0, i, a => (i, a)
  | [], _ + 1, i, a => (i + 1, a.write i 0)
  | c :: s, n + 1, i, a => strncatCopy s n (i + 1) (a.write i c)

/-- `strncat(d, s, n)`. -/
def strncat (a : Slots UInt8) (s : Bytes) (n : ℕ) : Slots UInt8 :=
  let (i, a) := strncatCopy s n (strEnd a a.cap 0) a
  a.write i 0

/-- `memcpy(d, s, n)`, with `d` at offset `i` and `s` at offset `k`. -/
def memcpy (s : Bytes) : ℕ → ℕ → ℕ → Slots UInt8 → Slots UInt8
  | 0, _, _, a => a
  | n + 1, k, i, a => memcpy s n (k + 1) (i + 1) (a.write i (byteAt s k))

/-- `strlcat_local(dst, src, size)`. -/
def strlcatLocalAt (a : Slots UInt8) (src : Bytes) (size : ℕ) : Slots UInt8 :=
  let dlen := strEnd a a.cap 0
  let slen := src.length
  if size ≤ dlen then a
  else
    let copy := if size ≤ dlen + slen then size - dlen - 1 else slen
    (memcpy src copy 0 dlen a).write (dlen + copy) 0

/-! ### The loops as writes in a row -/

theorem zeroLoop_eq (n i : ℕ) (a : Slots UInt8) :
    zeroLoop n i a = a.writeList i (List.replicate n 0) := by
  induction n generalizing i a with
  | zero => rfl
  | succ n ih => exact ih _ _

/-- The first loop of `strncpy` copies the source, or as much of it as the counter allows. If the
source ends first, the terminator is copied, too, and not counted. -/
theorem strncpyCopy_eq (s : Bytes) (n i : ℕ) (a : Slots UInt8) :
    strncpyCopy s n i a =
      if n ≤ s.length then (0, i + n, a.writeList i (s.take n))
      else (n - s.length, i + s.length + 1, a.writeList i (s ++ [0])) := by
  induction s generalizing n i a with
  | nil =>
    cases n with
    | zero => rfl
    | succ n => exact (if_neg (Nat.not_succ_le_zero n)).symm
  | cons c s ih =>
    cases n with
    | zero => rfl
    | succ n =>
      rw [strncpyCopy, ih]
      simp only [List.length_cons, Nat.add_le_add_iff_right, List.take_succ_cons, List.cons_append,
        Slots.writeList_cons, Nat.reduceSubDiff]
      split <;> congr 2 <;> omega

/-- `strncpy` writes the bytes asked for, and one more if the source is too short. -/
theorem strncpy_eq (a : Slots UInt8) (s : Bytes) (n : ℕ) :
    strncpy a s n = a.writeList 0
      (if n ≤ s.length then s.take n else s ++ List.replicate (n - s.length + 1) 0) := by
  unfold strncpy
  by_cases hn : n = 0
  · rw [if_pos hn, if_pos (by omega), hn]
    rfl
  rw [if_neg hn, strncpyCopy_eq]
  by_cases hlen : n ≤ s.length
  · rw [if_pos hlen, if_pos hlen]
    rfl
  · rw [if_neg hlen, if_neg hlen, List.replicate_succ,
      List.append_cons s 0 (List.replicate (n - s.length) 0), Slots.writeList_append a 0 (s ++ [0]),
      ← zeroLoop_eq, List.length_append, List.length_singleton, Nat.zero_add, Nat.zero_add]

/-- The loop of `strncat` stops behind the bytes copied, and behind the terminator if it was
copied. -/
theorem strncatCopy_eq (s : Bytes) (n i : ℕ) (a : Slots UInt8) :
    strncatCopy s n i a =
      if n ≤ s.length then (i + n, a.writeList i (s.take n))
      else (i + s.length + 1, a.writeList i (s ++ [0])) := by
  induction s generalizing n i a with
  | nil =>
    cases n with
    | zero => rfl
    | succ n => exact (if_neg (Nat.not_succ_le_zero n)).symm
  | cons c s ih =>
    cases n with
    | zero => rfl
    | succ n =>
      rw [strncatCopy, ih]
      simp only [List.length_cons, Nat.add_le_add_iff_right, List.take_succ_cons, List.cons_append,
        Slots.writeList_cons]
      split <;> congr 1 <;> omega

theorem memcpy_eq {s : Bytes} {n k : ℕ} (h : k + n ≤ s.length) (i : ℕ) (a : Slots UInt8) :
    memcpy s n k i a = a.writeList i ((s.drop k).take n) := by
  induction n generalizing k i a with
  | zero => rfl
  | succ n ih =>
    rw [memcpy, ih (by omega), List.drop_eq_getElem_cons (by omega : k < s.length),
      List.take_succ_cons, Slots.writeList_cons, byteAt_of_lt]

/-- The old terminator. -/
theorem strEnd_eq {d : CString} (b : StringBuffer d) :
    strEnd b.buf b.buf.cap 0 = d.val.length := by
  have hloop : ∀ fuel k, k ≤ d.val.length → d.val.length < k + fuel →
      strEnd b.buf fuel k = d.val.length := by
    intro fuel
    induction fuel with
    | zero => omega
    | succ fuel ih =>
      intro k hk hfuel
      have hcell : b.buf.cell k = byteAt d.val k := by
        rcases hk.eq_or_lt with rfl | hlt
        · rw [b.holds.2, byteAt_length]
        · have hget := b.buf.getElem_content (n := d.val.length) (k := k)
            (by rwa [Slots.length_content])
          rw [byteAt_of_lt hlt, ← hget]
          simp only [b.holds.1]
      rw [strEnd, hcell]
      by_cases hend : k = d.val.length
      · rw [if_pos ((byteAt_eq_zero_iff d hk).mpr hend), hend]
      · rw [if_neg (mt (byteAt_eq_zero_iff d hk).mp hend)]
        exact ih (k + 1) (by omega) (by omega)
  exact hloop b.buf.cap 0 (Nat.zero_le _) (by have := b.lt_cap; omega)

/-! ### Bounds -/

/-- The claim on `strncpy`: it writes the first `n` bytes, no other, with the bytes of the source
and zeros behind them. -/
def StrncpyBounded (s : CString) (n : ℕ) : Prop :=
  ∀ mem cap, let r := strncpy (.block mem cap) s.val n
    (∀ k, k ∈ r.accessed ↔ k < n) ∧ r.content n = (s.val ++ List.replicate n 0).take n

/-- The claim on `strncat`: it writes at most the bytes it appends and a terminator, from the old
terminator on, and leaves the concatenation. -/
def StrncatBounded (d s : CString) (n : ℕ) : Prop :=
  ∀ b : StringBuffer d, let r := strncat b.buf s.val n
    (∀ k ∈ r.accessed, d.val.length ≤ k ∧ k < d.val.length + (min n s.val.length + 1)) ∧
      r.Holds (d.val ++ s.val.take n)

/-- The claim on `strlcat_local`: it writes within the size and leaves the concatenation, cut to
the size. -/
def StrlcatBounded (d s : CString) (size : ℕ) : Prop :=
  ∀ b : StringBuffer d, let r := strlcatLocalAt b.buf s.val size
    (∀ k ∈ r.accessed, k < size) ∧ r.Holds ((d.val ++ s.val).take (size - 1))

theorem StringBuffer.accessed_eq {d : CString} (b : StringBuffer d) : b.buf.accessed = [] := by
  rw [Slots.accessed, b.log_eq]
  rfl

/-- Any string is at the beginning of some buffer. -/
def StringBuffer.of (d : CString) : StringBuffer d where
  buf := .block (byteAt d.val) (d.val.length + 1)
  holds := by
    refine ⟨List.ext_getElem (Slots.length_content _ _) fun k hk hk' => ?_, byteAt_length d.val⟩
    rw [Slots.getElem_content]
    exact byteAt_of_lt hk'
  lt_cap := Nat.lt_succ_self _
  log_eq := rfl

/-- What is appended to a string in a row, with a terminator. -/
theorem Slots.Holds.append {a : Slots UInt8} {d : Bytes} (h : a.Holds d) (t : Bytes) :
    (a.writeList d.length (t ++ [0])).Holds (d ++ t) := by
  have hcontent := a.content_writeList d.length t
  rw [h.1] at hcontent
  rw [Slots.writeList_append]
  refine ⟨?_, ?_⟩
  · rw [Slots.content_writeList_of_le _ (by rw [List.length_append]), List.length_append, hcontent]
  · rw [List.length_append]
    exact Function.update_self _ _ _

/-- **`strncpy`** keeps to its bound exactly if the source has that many bytes. -/
theorem strncpy_bounded_iff (s : CString) (n : ℕ) : StrncpyBounded s n ↔ n ≤ s.val.length := by
  constructor
  · intro h
    by_contra hshort
    -- the byte behind the last one is written, too
    have hlast := ((h (fun _ => 0) 0).1 n).mp (by
      rw [strncpy_eq, if_neg hshort, Slots.accessed_writeList]
      refine List.mem_append_right _ (List.mem_range'_1.mpr ⟨Nat.zero_le n, ?_⟩)
      rw [List.length_append, List.length_replicate]
      omega)
    exact lt_irrefl n hlast
  · intro h mem cap
    dsimp only
    rw [strncpy_eq, if_pos h, Slots.accessed_writeList, List.length_take_of_le h,
      List.take_append_of_le_length h]
    refine ⟨fun k => ?_, ?_⟩
    · show k ∈ [] ++ List.range' 0 n ↔ _
      rw [List.nil_append, List.mem_range'_1, Nat.zero_add]
      exact and_iff_right (Nat.zero_le k)
    · have hcontent := (Slots.block mem cap).content_writeList 0 (s.val.take n)
      rw [List.length_take_of_le h, Nat.zero_add] at hcontent
      exact hcontent

/-- **`strncat`** keeps to its bound exactly if the source has that many bytes. -/
theorem strncat_bounded_iff (d s : CString) (n : ℕ) :
    StrncatBounded d s n ↔ n ≤ s.val.length := by
  constructor
  · intro h
    by_contra hshort
    -- the second terminator
    have hlast := ((h (.of d)).1 (d.val.length + s.val.length + 1) (by
      unfold strncat
      rw [strEnd_eq, strncatCopy_eq, if_neg hshort]
      exact List.mem_map.mpr ⟨_, List.mem_append_right _ (List.mem_singleton.mpr rfl), rfl⟩)).2
    omega
  · intro h b
    have hr : strncat b.buf s.val n =
        b.buf.writeList d.val.length (s.val.take n ++ [0]) := by
      unfold strncat
      rw [strEnd_eq, strncatCopy_eq, if_pos h, Slots.writeList_append, List.length_take_of_le h]
      rfl
    dsimp only
    rw [hr, Slots.accessed_writeList, b.accessed_eq, List.nil_append, List.length_append,
      List.length_take_of_le h, List.length_singleton]
    refine ⟨fun k hk => ?_, b.holds.append _⟩
    obtain ⟨hlow, hhigh⟩ := List.mem_range'_1.mp hk
    exact ⟨hlow, by omega⟩

/-- **`strlcat_local`** keeps to its size. -/
theorem strlcatLocal_bounded (d s : CString) {size : ℕ} (h : d.val.length < size) :
    StrlcatBounded d s size := by
  intro b
  set copy := if size ≤ d.val.length + s.val.length then size - d.val.length - 1
    else s.val.length with hcopy
  have hle : copy ≤ s.val.length ∧ d.val.length + copy < size := by
    rw [hcopy]
    split <;> omega
  -- the copy and its NUL are written in a row behind the old string
  have hr : strlcatLocalAt b.buf s.val size =
      b.buf.writeList d.val.length (s.val.take copy ++ [0]) := by
    unfold strlcatLocalAt
    rw [strEnd_eq, if_neg (Nat.not_le.mpr h)]
    dsimp only
    rw [← hcopy, memcpy_eq (by omega), List.drop_zero, Slots.writeList_append,
      List.length_take_of_le hle.1]
    rfl
  -- which is the concatenation, cut
  have hlist : (d.val ++ s.val).take (size - 1) = d.val ++ s.val.take copy := by
    have hd : d.val.take (size - 1) = d.val := List.take_of_length_le (by omega)
    rw [List.take_append, hd, hcopy]
    split
    · rw [Nat.sub_right_comm]
    · rw [List.take_of_length_le (by omega), List.take_length]
  dsimp only
  rw [hr, hlist, Slots.accessed_writeList, b.accessed_eq, List.nil_append, List.length_append,
    List.length_take_of_le hle.1, List.length_singleton]
  refine ⟨fun k hk => ?_, b.holds.append _⟩
  have hhigh := (List.mem_range'_1.mp hk).2
  omega

/-- On lists, the concatenation is cut in the same way. -/
theorem strlcatLocal_eq_take {d s : Bytes} {size : ℕ} (h : d.length < size) :
    strlcatLocal d s size = (d ++ s).take (size - 1) := by
  have hd : d.take (size - 1) = d := List.take_of_length_le (by omega)
  unfold strlcatLocal
  rw [if_neg (Nat.not_le.mpr h), List.take_append, hd]
  split
  · rw [Nat.sub_right_comm]
  · rw [List.take_of_length_le (by omega)]

/-- **Bounded copies.** The three functions keep to their bounds exactly if the source of the
first two has as many bytes as they were asked for. -/
theorem copies_bounded_iff (d s : CString) (n : ℕ) {size : ℕ} (h : d.val.length < size) :
    StrncpyBounded s n ∧ StrncatBounded d s n ∧ StrlcatBounded d s size ↔ n ≤ s.val.length := by
  rw [strncpy_bounded_iff, strncat_bounded_iff]
  exact ⟨fun hall => hall.1, fun hn => ⟨hn, hn, strlcatLocal_bounded d s h⟩⟩

theorem copies_bounded_iff_ab :
    StrncpyBounded ⟨lit "ab", by decide⟩ 2 ∧
      StrncatBounded ⟨lit "xy", by decide⟩ ⟨lit "ab", by decide⟩ 2 ∧
      StrlcatBounded ⟨lit "xy", by decide⟩ ⟨lit "ab", by decide⟩ 4 ↔ 2 ≤ (lit "ab").length :=
  copies_bounded_iff ⟨lit "xy", by decide⟩ ⟨lit "ab", by decide⟩ 2 (by decide)

/-- A source of one byte copied with the bound 2: three bytes are written. -/
theorem short_source_overruns :
    ¬∀ (d s : CString) (n size : ℕ), d.val.length < size →
      StrncpyBounded s n ∧ StrncatBounded d s n ∧ StrlcatBounded d s size := by
  intro h
  have hcopy := (h ⟨[], by decide⟩ ⟨lit "a", by decide⟩ 2 1 (by decide)).1
  exact absurd ((strncpy_bounded_iff _ _).mp hcopy) (by decide)

example : (strncpy (.block (fun _ => 7) 2) (lit "a") 2).accessed = [0, 1, 2] := by decide

end X3D
