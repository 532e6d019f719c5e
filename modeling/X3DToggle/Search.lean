import X3DToggle.Games
import X3DToggle.Strings

/-!
# `strstr` at its bytes

Everything the programs find in a text they find with `strstr`. `strstrAt` is its nested loop on
offsets, with the list of the bytes it reads. The inner loop compares at one offset, for as long
as the bytes agree and neither string has ended (`strstrMatch_spec`); the outer loop tries the
offsets in order and leaves the first one at which the whole needle was passed
(`strstrLoop_spec`). Neither reads behind a terminator, since each goes on only from a byte that
is not one.

`strstr` of the other modules is the same search on lists (`strstrAt_eq`), so `games_match` tests
for occurrence.
-/

namespace X3D

/-! ### The loops -/

/-- The offsets read so far, in the haystack and in the needle. -/
structure Reads where
  hay : List ℕ
  needle : List ℕ
  deriving DecidableEq

/-- Read at offset `i` of the haystack. -/
def Reads.atHay (rd : Reads) (i : ℕ) : Reads := { rd with hay := rd.hay ++ [i] }

/-- Read at offset `j` of the needle. -/
def Reads.atNeedle (rd : Reads) (j : ℕ) : Reads := { rd with needle := rd.needle ++ [j] }

/-- `while (*h1 && *n1 && *h1 == *n1)`, with `h1` at offset `i` and `n1` at offset `j`. -/
def strstrMatch (h n : Bytes) : ℕ → ℕ → ℕ → Reads → ℕ × Reads
  | 0, _, j, rd => (j, rd)
  | fuel + 1, i, j, rd =>
    let rd := rd.atHay i
    if byteAt h i = 0 then (j, rd)
    else
      let rd := rd.atNeedle j
      if byteAt n j = 0 then (j, rd)
      else if byteAt h i = byteAt n j then strstrMatch h n fuel (i + 1) (j + 1) rd
      else (j, rd)

/-- `for (; *h; h++)`, with `h` at offset `i`. -/
def strstrLoop (h n : Bytes) : ℕ → ℕ → Reads → Option ℕ × Reads
  | 0, _, rd => (none, rd)
  | fuel + 1, i, rd =>
    let rd := rd.atHay i
    if byteAt h i = 0 then (none, rd)
    else
      let rd := rd.atNeedle 0
      if byteAt h i = byteAt n 0 then
        let (j, rd) := strstrMatch h n (h.length + 1) i 0 rd
        let rd := rd.atNeedle j
        if byteAt n j = 0 then (some i, rd) else strstrLoop h n fuel (i + 1) rd
      else strstrLoop h n fuel (i + 1) rd

/-- `strstr(h, n)`: the offset of what it returns, and the bytes read. -/
def strstrAt (h n : Bytes) : Option ℕ × Reads :=
  let rd := Reads.atNeedle ⟨[], []⟩ 0
  if byteAt n 0 = 0 then (some 0, rd) else strstrLoop h n (h.length + 1) 0 rd

/-- No read was behind a terminator. -/
def Reads.Within (rd : Reads) (h n : Bytes) : Prop :=
  (∀ i ∈ rd.hay, i ≤ h.length) ∧ ∀ j ∈ rd.needle, j ≤ n.length

/-- The needle occurs at offset `k`. -/
def OccursAt (h n : Bytes) (k : ℕ) : Prop := k ≤ h.length ∧ n <+: h.drop k

/-- `r` is the first occurrence from offset `i` on, if there is one. -/
def FirstFrom (h n : Bytes) (i : ℕ) (r : Option ℕ) : Prop :=
  match r with
  | some k => i ≤ k ∧ OccursAt h n k ∧ ∀ m, i ≤ m → m < k → ¬OccursAt h n m
  | none => ∀ m, i ≤ m → ¬OccursAt h n m

/-- The search goes on behind an offset at which the needle does not occur. -/
theorem FirstFrom.skip {h n : Bytes} {i : ℕ} {r : Option ℕ} (hr : FirstFrom h n (i + 1) r)
    (hno : ¬OccursAt h n i) : FirstFrom h n i r := by
  have hstep {m : ℕ} (hm : i ≤ m) (hbehind : i + 1 ≤ m → ¬OccursAt h n m) : ¬OccursAt h n m := by
    rcases hm.eq_or_lt with rfl | hlt
    · exact hno
    · exact hbehind hlt
  cases r with
  | some k =>
    refine ⟨(Nat.le_succ i).trans hr.1, hr.2.1, fun m hm hmk => hstep hm fun hlt => ?_⟩
    exact hr.2.2 m hlt hmk
  | none => exact fun m hm => hstep hm (hr m)

theorem Reads.Within.atHay {rd : Reads} {h n : Bytes} {i : ℕ} (hrd : rd.Within h n)
    (hi : i ≤ h.length) : (rd.atHay i).Within h n :=
  ⟨List.forall_mem_append.mpr ⟨hrd.1, List.forall_mem_singleton.mpr hi⟩, hrd.2⟩

theorem Reads.Within.atNeedle {rd : Reads} {h n : Bytes} {j : ℕ} (hrd : rd.Within h n)
    (hj : j ≤ n.length) : (rd.atNeedle j).Within h n :=
  ⟨hrd.1, List.forall_mem_append.mpr ⟨hrd.2, List.forall_mem_singleton.mpr hj⟩⟩

/-! ### The inner loop -/

/-- A needle occurs where its first byte is and the rest occurs behind. -/
theorem prefix_drop_iff {h n : Bytes} {i j : ℕ} (hi : i < h.length) (hj : j < n.length) :
    n.drop j <+: h.drop i ↔
      byteAt h i = byteAt n j ∧ n.drop (j + 1) <+: h.drop (i + 1) := by
  rw [List.drop_eq_getElem_cons hi, List.drop_eq_getElem_cons hj, List.cons_prefix_cons,
    byteAt_of_lt hi, byteAt_of_lt hj, eq_comm]

/-- **The inner loop** stays within the strings and passes the whole needle exactly if what is
left of it is there. -/
theorem strstrMatch_spec (h n : CString) {fuel i j : ℕ} {rd : Reads} (hi : i ≤ h.val.length)
    (hj : j ≤ n.val.length) (hfuel : h.val.length < i + fuel) (hrd : rd.Within h.val n.val) :
    let r := strstrMatch h.val n.val fuel i j rd
    r.1 ≤ n.val.length ∧ r.2.Within h.val n.val ∧
      (r.1 = n.val.length ↔ n.val.drop j <+: h.val.drop i) := by
  induction fuel generalizing i j rd with
  | zero => omega
  | succ fuel ih =>
    rw [strstrMatch]
    by_cases hend : i = h.val.length
    · -- the haystack is used up, so the needle must be, too
      subst hend
      rw [if_pos (byteAt_length _)]
      refine ⟨hj, hrd.atHay hi, ?_⟩
      rw [List.drop_length, List.prefix_nil, List.drop_eq_nil_iff]
      exact ⟨fun hlen => hlen.ge, fun hlen => hj.antisymm hlen⟩
    rw [if_neg (mt (byteAt_eq_zero_iff h hi).mp hend)]
    have hrd' := (hrd.atHay hi).atNeedle hj
    by_cases hpassed : j = n.val.length
    · -- the needle has been passed
      subst hpassed
      rw [if_pos (byteAt_length _), List.drop_length]
      exact ⟨le_rfl, hrd', iff_of_true rfl List.nil_prefix⟩
    rw [if_neg (mt (byteAt_eq_zero_iff n hj).mp hpassed),
      prefix_drop_iff (by omega : i < h.val.length) (by omega : j < n.val.length)]
    split
    next heq =>
      have hnext := ih (i := i + 1) (j := j + 1) (by omega) (by omega) (by omega) hrd'
      rwa [and_iff_right heq]
    next hne => exact ⟨hj, hrd', iff_of_false hpassed fun hpre => hne hpre.1⟩

/-! ### The outer loop -/

/-- A needle that is not empty occurs at an offset only with its first byte there. -/
theorem prefix_head {h n : Bytes} (hn : n ≠ []) {i : ℕ} (hi : i < h.length)
    (hpre : n <+: h.drop i) : byteAt h i = byteAt n 0 := by
  have hfirst := prefix_drop_iff (j := 0) hi (List.length_pos_iff.mpr hn)
  rw [List.drop_zero] at hfirst
  exact (hfirst.mp hpre).1

/-- **The outer loop** finds the first occurrence from its offset on. -/
theorem strstrLoop_spec (h n : CString) (hn : n.val ≠ []) {fuel i : ℕ} {rd : Reads}
    (hi : i ≤ h.val.length) (hfuel : h.val.length < i + fuel) (hrd : rd.Within h.val n.val) :
    let r := strstrLoop h.val n.val fuel i rd
    r.2.Within h.val n.val ∧ FirstFrom h.val n.val i r.1 := by
  induction fuel generalizing i rd with
  | zero => omega
  | succ fuel ih =>
    rw [strstrLoop]
    by_cases hend : i = h.val.length
    · rw [if_pos (hend ▸ byteAt_length _)]
      refine ⟨hrd.atHay hi, fun m hm hocc => ?_⟩
      -- a needle is not empty, so it does not occur at the end
      have hnil : h.val.drop m = [] := List.drop_eq_nil_of_le (by omega)
      exact hn (List.prefix_nil.mp (hnil ▸ hocc.2))
    rw [if_neg (mt (byteAt_eq_zero_iff h hi).mp hend)]
    have hlt : i < h.val.length := by omega
    have hrd' := (hrd.atHay hi).atNeedle (Nat.zero_le n.val.length)
    by_cases hhead : byteAt h.val i = byteAt n.val 0
    · rw [if_pos hhead]
      obtain ⟨hle, hin, hmatch⟩ := strstrMatch_spec h n hi (Nat.zero_le _)
        (by omega : h.val.length < i + (h.val.length + 1)) hrd'
      rw [List.drop_zero] at hmatch
      dsimp only at hle hin hmatch ⊢
      by_cases hfound : byteAt n.val (strstrMatch h.val n.val (h.val.length + 1) i 0
          ((rd.atHay i).atNeedle 0)).1 = 0
      · rw [if_pos hfound]
        have hocc := hmatch.mp ((byteAt_eq_zero_iff n hle).mp hfound)
        exact ⟨hin.atNeedle hle, le_rfl, ⟨hi, hocc⟩, fun m hm hmi => by omega⟩
      · rw [if_neg hfound]
        obtain ⟨hin', hrest⟩ := ih hlt (by omega) (hin.atNeedle hle)
        refine ⟨hin', hrest.skip fun hocc => hfound ?_⟩
        exact (byteAt_eq_zero_iff n hle).mpr (hmatch.mpr hocc.2)
    · -- the first bytes differ
      rw [if_neg hhead]
      obtain ⟨hin, hrest⟩ := ih hlt (by omega) hrd'
      exact ⟨hin, hrest.skip fun hocc => hhead (prefix_head hn hlt hocc.2)⟩

/-! ### `strstr` -/

/-- An occurrence is an occurrence at some offset. -/
theorem exists_occursAt_iff (h n : Bytes) : (∃ k, OccursAt h n k) ↔ n <:+: h := by
  constructor
  · rintro ⟨k, -, hpre⟩
    exact hpre.isInfix.trans (List.drop_suffix k h).isInfix
  · rintro ⟨s, t, rfl⟩
    refine ⟨s.length, ?_, ?_⟩
    · rw [List.append_assoc, List.length_append]
      exact Nat.le_add_right _ _
    · rw [List.append_assoc, List.drop_left]
      exact List.prefix_append n t

/-- **`strstr` is correct.** It keeps to its strings, and it returns the first occurrence if
there is one. -/
theorem strstrAt_spec (h n : CString) :
    (strstrAt h.val n.val).2.Within h.val n.val ∧
      FirstFrom h.val n.val 0 (strstrAt h.val n.val).1 := by
  have hrd : (Reads.atNeedle ⟨[], []⟩ 0).Within h.val n.val :=
    Reads.Within.atNeedle ⟨by simp, by simp⟩ (Nat.zero_le _)
  have hempty : byteAt n.val 0 = 0 ↔ n.val = [] := by
    rw [byteAt_eq_zero_iff n (Nat.zero_le _), eq_comm, List.length_eq_zero_iff]
  unfold strstrAt
  by_cases hn : n.val = []
  · rw [if_pos (hempty.mpr hn)]
    refine ⟨hrd, le_rfl, ⟨Nat.zero_le _, ?_⟩, fun m _ hm => absurd hm (Nat.not_lt_zero m)⟩
    rw [hn]
    exact List.nil_prefix
  · rw [if_neg (mt hempty.mp hn)]
    exact strstrLoop_spec h n hn (Nat.zero_le _) (by omega) hrd

/-- The search on lists stops at the first occurrence, too. -/
theorem strstr_of_first {h n : Bytes} {k : ℕ} (hocc : OccursAt h n k)
    (hfirst : ∀ m < k, ¬OccursAt h n m) : strstr h n = some (h.drop k) := by
  induction h generalizing k with
  | nil =>
    obtain rfl : k = 0 := Nat.le_zero.mp hocc.1
    exact if_pos (List.prefix_nil.mp hocc.2)
  | cons c h ih =>
    cases k with
    | zero => exact if_pos (List.isPrefixOf_iff_prefix.mpr hocc.2)
    | succ k =>
      have hno : ¬n.isPrefixOf (c :: h) = true := fun hpre =>
        hfirst 0 (Nat.succ_pos k) ⟨Nat.zero_le _, List.isPrefixOf_iff_prefix.mp hpre⟩
      rw [strstr, if_neg hno]
      refine ih ⟨Nat.le_of_succ_le_succ hocc.1, hocc.2⟩ fun m hm hbefore => ?_
      exact hfirst (m + 1) (Nat.succ_lt_succ hm) ⟨Nat.succ_le_succ hbefore.1, hbefore.2⟩

/-- **The two searches agree.** -/
theorem strstrAt_eq (h n : CString) :
    (strstrAt h.val n.val).1.map h.val.drop = strstr h.val n.val := by
  have hspec := (strstrAt_spec h n).2
  cases hr : (strstrAt h.val n.val).1 with
  | some k =>
    rw [hr] at hspec
    rw [Option.map_some, strstr_of_first hspec.2.1 fun m => hspec.2.2 m (Nat.zero_le m)]
  | none =>
    rw [hr] at hspec
    have hcontains : ¬contains h.val n.val = true := by
      rw [contains_iff, ← exists_occursAt_iff]
      exact fun ⟨k, hk⟩ => hspec k (Nat.zero_le k) hk
    rw [Option.map_none, eq_comm, ← Option.not_isSome_iff_eq_none]
    exact hcontains

/-- `games_match` finds a listed name that occurs. -/
theorem gamesMatch_iff (gl : GameList) (comm : Bytes) :
    gamesMatch gl comm = true ↔
      comm ≠ [] ∧ ∃ name ∈ gl.names, name.val ≠ [] ∧ name.val <:+: comm := by
  unfold gamesMatch
  rw [Bool.and_eq_true, decide_eq_true_iff, List.any_eq_true]
  refine and_congr_right fun _ => exists_congr fun name => and_congr_right fun _ => ?_
  rw [Bool.and_eq_true, decide_eq_true_iff, contains_iff]

/-- **Searching.** `strstr` returns the first offset at which the needle occurs, null exactly if
it does not occur, and reads nothing behind the terminators; so `games_match` answers whether a
name of the list occurs in the command line. -/
theorem search_correct :
    (∀ h n : CString,
      (∀ k, (strstrAt h.val n.val).1 = some k ↔
        OccursAt h.val n.val k ∧ ∀ m < k, ¬OccursAt h.val n.val m) ∧
      ((strstrAt h.val n.val).1 = none ↔ ¬n.val <:+: h.val) ∧
      (strstrAt h.val n.val).2.Within h.val n.val) ∧
    ∀ (gl : GameList) (comm : CString), gamesMatch gl comm.val = true ↔
      comm.val ≠ [] ∧ ∃ name ∈ gl.names, name.val ≠ [] ∧ name.val <:+: comm.val := by
  refine ⟨fun h n => ?_, fun gl comm => gamesMatch_iff gl comm.val⟩
  obtain ⟨hwithin, hspec⟩ := strstrAt_spec h n
  rw [← exists_occursAt_iff, not_exists]
  refine ⟨fun k => ?_, ?_, hwithin⟩
  · cases hr : (strstrAt h.val n.val).1 with
    | some k' =>
      rw [hr] at hspec
      obtain ⟨-, hocc, hfirst⟩ := hspec
      rw [Option.some_inj]
      refine ⟨fun hk => hk ▸ ⟨hocc, fun m => hfirst m (Nat.zero_le m)⟩, fun hk => ?_⟩
      -- there is only one first occurrence
      rcases Nat.lt_trichotomy k' k with hlt | heq | hgt
      · exact absurd hocc (hk.2 k' hlt)
      · exact heq
      · exact absurd hk.1 (hfirst k (Nat.zero_le k) hgt)
    | none =>
      rw [hr] at hspec
      exact iff_of_false (Option.some_ne_none k).symm fun hk => hspec k (Nat.zero_le k) hk.1
  · cases hr : (strstrAt h.val n.val).1 with
    | some k =>
      rw [hr] at hspec
      exact iff_of_false (Option.some_ne_none k) fun hno => hno k hspec.2.1
    | none =>
      rw [hr] at hspec
      exact iff_of_true rfl fun k => hspec k (Nat.zero_le k)

-- a needle that overlaps itself, and one that runs into the end of the haystack
example : (strstrAt (lit "aaab") (lit "aab")).1 = some 1 := by decide
example : strstrAt (lit "ab") (lit "bc") = (none, ⟨[0, 1, 1, 2, 2], [0, 0, 0, 0, 1]⟩) := by
  decide

end X3D
