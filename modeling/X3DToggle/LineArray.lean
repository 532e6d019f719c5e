import X3DToggle.GameFiles
import X3DToggle.Lib.Slots

/-!
# The line array of `game_add`

`game_add` keeps the lines of the file in an allocation of 64 slots. The reading loop counts to
1024 whatever the allocation holds; only when all lines are in it does `lines_expand` double the
allocation, once, to make room for the line to be added. `gameAddArray` is `game_add` on that
array, with the log of its accesses.

On an array that has room, or on a machine that forgives, this is `gameAdd`
(`gameAddArray_fst`): the shifting loop inserts into the list. The accesses stay inside the
allocation exactly for a file of at most 64 lines (`lineArray_inBounds_iff`).
-/

namespace X3D

/-! ### `game_add` on its array -/

/-- What `game_add` finds out while it reads the file into `lines`. -/
structure ArrayScan where
  arr : Slots Bytes
  count : ℕ
  current : GameSection
  usrIdx : Option ℕ
  foundSys : Bool
  foundUsr : Bool

/-- One round of the reading loop. -/
def ArrayScan.line (game : Bytes) (s : ArrayScan) (ln : Bytes) : ArrayScan :=
  let arr := s.arr.write s.count (printfSn 256 (lit "%s\n") [.str ln])
  if ln.head? = some (chr '[') then
    { s with
      arr := arr
      count := s.count + 1
      current := headerSection ln
      usrIdx := if headerSection ln = .usr then some s.count else s.usrIdx }
  else
    let clean := trimWs (printfSn 256 (lit "%s") [.str ln])
    { s with
      arr := arr
      count := s.count + 1
      foundSys := s.foundSys || (s.current = .sys && clean = game)
      foundUsr := s.foundUsr || (s.current = .usr && clean = game) }

/-- The lines the reading loop goes through. -/
def linesRead (env : GameEnv) (file : Option Bytes) : List Bytes :=
  match readFile env.openRd file 16383 with
  | none => []
  | some buf => (lines nl (cstr buf)).take 1024

/-- The reading loop, on a new block `mem` of 64 slots. -/
def scanArray (mem : ℕ → Bytes) (env : GameEnv) (game : Bytes) (file : Option Bytes) : ArrayScan :=
  (linesRead env file).foldl (ArrayScan.line game) ⟨⟨mem, 64, []⟩, 0, .none, none, false, false⟩

/-- `lines_expand`; `ok` if `realloc` succeeds. -/
def linesExpand (ok : Bool) (a : Slots Bytes) : Option (Slots Bytes) :=
  let newCap := min (a.cap * 2) 1024
  if newCap ≤ a.cap then none
  else if ok then some { a with cap := newCap } else none

/-- The check for room before the `n`-th line is added. -/
def makeRoom (ok : Bool) (n : ℕ) (a : Slots Bytes) : Option (Slots Bytes) :=
  if a.cap ≤ n then linesExpand ok a else some a

/-- The loop that moves the lines from `lo` to `j` one down, the last one first. -/
def shiftLines (lo : ℕ) : ℕ → Slots Bytes → Slots Bytes
  | 0, a => a
  | j + 1, a =>
    if lo < j + 1 then
      shiftLines lo j
        (if j + 1 < 1024 then a.copy (fun l => printfSn 256 (lit "%s") [.str l]) (j + 1) j else a)
    else a

/-- The array with the line added. -/
def placeLine (game : Bytes) (s : ArrayScan) (a : Slots Bytes) : Slots Bytes :=
  match s.usrIdx with
  | none => a.write s.count (printfSn 256 (lit "\n[GAMES_USR]\n%s\n") [.str game])
  | some i => (shiftLines (i + 1) s.count a).write (i + 1) (printfSn 256 (lit "%s\n") [.str game])

/-- `game_add`, with the accesses to the array, on a block `mem`. -/
def gameAddArray (mem : ℕ → Bytes) (env : GameEnv) (game : Bytes) (file : Option Bytes) :
    (ℤ × Option Bytes) × List Access :=
  if !env.malloc then ((errMem, file), [])
  else
    let s := scanArray mem env game file
    if s.foundSys || s.foundUsr then ((errSuccess, file), s.arr.log)
    else if 1024 ≤ s.count then ((errMem, file), s.arr.log)
    else
      match makeRoom env.realloc s.count s.arr with
      | none => ((errMem, file), s.arr.log)
      | some a =>
        let a := placeLine game s a
        let text := (a.content (s.count + 1)).flatten
        if env.openWr then
          ((errSuccess, some (text.take env.written)), (a.touchFirst (s.count + 1)).log)
        else ((errSuccess, file), a.log)

/-! ### The array is the list -/

/-- The scan of the list the array stands for. -/
def ArrayScan.toScan (s : ArrayScan) : GameScan :=
  ⟨s.arr.content s.count, s.current, s.usrIdx, s.foundSys, s.foundUsr⟩

/-- One round reads the line into the list. -/
theorem toScan_line (game : Bytes) (s : ArrayScan) (ln : Bytes) :
    (s.line game ln).toScan = scanLine trimWs game s.toScan ln := by
  unfold ArrayScan.line scanLine
  by_cases h : ln.head? = some (chr '[')
  · rw [if_pos h, if_pos h]
    simp only [ArrayScan.toScan, Slots.content_write_self, Slots.length_content]
  · rw [if_neg h, if_neg h]
    simp only [ArrayScan.toScan, Slots.content_write_self]
    rfl

theorem toScan_foldl (game : Bytes) (ls : List Bytes) (s : ArrayScan) :
    (ls.foldl (ArrayScan.line game) s).toScan = ls.foldl (scanLine trimWs game) s.toScan := by
  induction ls generalizing s with
  | nil => rfl
  | cons l ls ih => rw [List.foldl_cons, ih, toScan_line, List.foldl_cons]

theorem toScan_scanArray (mem : ℕ → Bytes) (env : GameEnv) (game : Bytes) (file : Option Bytes) :
    (scanArray mem env game file).toScan =
      scanGames trimWs game (readFile env.openRd file 16383) := by
  unfold scanArray
  rw [toScan_foldl]
  rfl

/-- A line of the array is not cut again when it is copied. -/
theorem copyLine_of_length_le {l : Bytes} (h : l.length ≤ 255) :
    printfSn 256 (lit "%s") [.str l] = l := by
  rw [printfSn_s, List.take_of_length_le h]

/-- What the shifting loop leaves in slot `k`. -/
theorem shiftLines_cell {lo n : ℕ} (hn : n < 1024) (a : Slots Bytes) (k : ℕ) :
    (shiftLines lo n a).cell k =
      if lo < k ∧ k ≤ n then printfSn 256 (lit "%s") [.str (a.cell (k - 1))] else a.cell k := by
  induction n generalizing a with
  | zero => rw [shiftLines, if_neg (by omega)]
  | succ n ih =>
    rw [shiftLines]
    by_cases hlo : lo < n + 1
    · rw [if_pos hlo, if_pos hn, ih (by omega), Slots.copy_cell]
      rcases Nat.lt_trichotomy k (n + 1) with hlt | rfl | hgt
      · -- below the slot written now the rest of the loop decides
        rw [Function.update_of_ne (by omega), Function.update_of_ne hlt.ne]
        exact if_congr (by omega) rfl rfl
      · rw [if_neg (by omega), Function.update_self, if_pos ⟨hlo, le_refl _⟩, Nat.add_sub_cancel]
      · rw [if_neg (by omega), Function.update_of_ne hgt.ne', if_neg (by omega)]
    · rw [if_neg hlo, if_neg (by omega)]

/-- The lines of a scan fit their slots. -/
theorem length_le_of_mem_scan {trim : Bytes → Bytes} {game : Bytes} {ls : List Bytes} {s : GameScan}
    (hs : ∀ l ∈ s.lines, l.length ≤ 255) :
    ∀ l ∈ (ls.foldl (scanLine trim game) s).lines, l.length ≤ 255 := by
  induction ls generalizing s with
  | nil => exact hs
  | cons ln ls ih =>
    refine ih fun l hl => ?_
    have hlines : (scanLine trim game s ln).lines =
        s.lines ++ [printfSn 256 (lit "%s\n") [.str ln]] := by
      unfold scanLine
      split <;> rfl
    rw [hlines, List.mem_append, List.mem_singleton] at hl
    rcases hl with hl | rfl
    · exact hs l hl
    · rw [printfSn_line]
      exact List.length_take_le _ _

/-- The header a scan has found is one of its lines. -/
theorem usrIdx_lt_of_scan {trim : Bytes → Bytes} {game : Bytes} {ls : List Bytes} {s : GameScan}
    (hs : ∀ i ∈ s.usrIdx, i < s.lines.length) :
    ∀ i ∈ (ls.foldl (scanLine trim game) s).usrIdx,
      i < (ls.foldl (scanLine trim game) s).lines.length := by
  induction ls generalizing s with
  | nil => exact hs
  | cons ln ls ih =>
    refine ih fun i hi => ?_
    unfold scanLine at hi ⊢
    split at hi
    next hheader =>
      rw [if_pos hheader]
      simp only [List.length_append, List.length_singleton] at hi ⊢
      split at hi
      · have := Option.mem_some_iff.mp hi
        omega
      · have := hs i hi
        omega
    next hheader =>
      rw [if_neg hheader]
      simp only [List.length_append, List.length_singleton] at hi ⊢
      have := hs i hi
      omega

/-- The added line is inserted into the list. -/
theorem content_placeLine {game : Bytes} {s : ArrayScan} {a : Slots Bytes}
    (hcell : a.cell = s.arr.cell) (hcount : s.count < 1024) (hidx : ∀ i ∈ s.usrIdx, i < s.count)
    (hshort : ∀ l ∈ s.arr.content s.count, l.length ≤ 255) :
    (placeLine game s a).content (s.count + 1) = addedLines game s.toScan := by
  have hcontent (n : ℕ) : a.content n = s.arr.content n := by
    unfold Slots.content
    rw [hcell]
  unfold placeLine addedLines
  cases hu : s.usrIdx with
  | none =>
    simp only [ArrayScan.toScan, hu]
    rw [Slots.content_write_self, hcontent]
  | some i =>
    simp only [ArrayScan.toScan, hu]
    have hi : i < s.count := hidx i hu
    -- the slots behind the header have moved up by one, and short lines move whole
    rw [Slots.content_write_insertIdx (a := a) (n := s.count) (i := i + 1) hi, hcontent]
    · intro k hk
      rw [shiftLines_cell hcount, if_neg (by omega)]
    · intro k hlo hk
      rw [shiftLines_cell hcount, if_pos (by omega), Nat.add_sub_cancel]
      apply copyLine_of_length_le
      have hmem : a.cell k ∈ s.arr.content s.count := by
        rw [hcell]
        exact List.mem_map_of_mem (List.mem_range.mpr hk)
      exact hshort _ hmem

/-- `lines_expand` at its only call doubles the first allocation. -/
theorem makeRoom_eq {a : Slots Bytes} (hcap : a.cap = 64) (ok : Bool) (n : ℕ) :
    makeRoom ok n a =
      if 64 ≤ n ∧ !ok then none else some { a with cap := if 64 ≤ n then 128 else 64 } := by
  unfold makeRoom linesExpand
  rw [hcap]
  by_cases hn : 64 ≤ n
  · rw [if_pos hn, if_pos hn]
    cases ok <;> simp [hn]
  · rw [if_neg hn, if_neg hn, if_neg fun h => hn h.1, ← hcap]

/-! ### The reading loop -/

@[simp] theorem line_count (game : Bytes) (s : ArrayScan) (ln : Bytes) :
    (s.line game ln).count = s.count + 1 := by
  unfold ArrayScan.line
  split <;> rfl

@[simp] theorem line_cap (game : Bytes) (s : ArrayScan) (ln : Bytes) :
    (s.line game ln).arr.cap = s.arr.cap := by
  unfold ArrayScan.line
  split <;> rfl

theorem inBounds_line (game : Bytes) (s : ArrayScan) (ln : Bytes) :
    (s.line game ln).arr.InBounds ↔ s.arr.InBounds ∧ s.count < s.arr.cap := by
  unfold ArrayScan.line
  split <;> exact Slots.inBounds_write _ _ _

theorem foldl_count (game : Bytes) (ls : List Bytes) (s : ArrayScan) :
    (ls.foldl (ArrayScan.line game) s).count = s.count + ls.length := by
  induction ls generalizing s with
  | nil => rfl
  | cons ln ls ih =>
    rw [List.foldl_cons, ih, line_count, List.length_cons]
    omega

theorem foldl_cap (game : Bytes) (ls : List Bytes) (s : ArrayScan) :
    (ls.foldl (ArrayScan.line game) s).arr.cap = s.arr.cap := by
  induction ls generalizing s with
  | nil => rfl
  | cons ln ls ih => rw [List.foldl_cons, ih, line_cap]

/-- The loop fills slot after slot, and stays inside the allocation if all lines fit in. -/
theorem inBounds_foldl (game : Bytes) (ls : List Bytes) {s : ArrayScan} (h : s.count ≤ s.arr.cap) :
    (ls.foldl (ArrayScan.line game) s).arr.InBounds ↔
      s.arr.InBounds ∧ s.count + ls.length ≤ s.arr.cap := by
  induction ls using List.reverseRecOn with
  | nil => exact (and_iff_left h).symm
  | append_singleton ls ln ih =>
    rw [List.foldl_append, List.foldl_cons, List.foldl_nil, inBounds_line, ih, foldl_count,
      foldl_cap, and_assoc, List.length_append, List.length_singleton]
    refine and_congr_right fun _ => ?_
    omega

theorem scanArray_count (mem : ℕ → Bytes) (env : GameEnv) (game : Bytes) (file : Option Bytes) :
    (scanArray mem env game file).count = (linesRead env file).length :=
  (foldl_count _ _ _).trans (Nat.zero_add _)

theorem scanArray_cap (mem : ℕ → Bytes) (env : GameEnv) (game : Bytes) (file : Option Bytes) :
    (scanArray mem env game file).arr.cap = 64 :=
  foldl_cap _ _ _

theorem inBounds_scanArray (mem : ℕ → Bytes) (env : GameEnv) (game : Bytes) (file : Option Bytes) :
    (scanArray mem env game file).arr.InBounds ↔ (linesRead env file).length ≤ 64 := by
  unfold scanArray
  rw [inBounds_foldl game _ (Nat.zero_le _), Nat.zero_add]
  exact and_iff_right fun x hx => absurd hx List.not_mem_nil

theorem usrIdx_scanArray (mem : ℕ → Bytes) (env : GameEnv) (game : Bytes) (file : Option Bytes) :
    ∀ i ∈ (scanArray mem env game file).usrIdx, i < (scanArray mem env game file).count := by
  have hlt : ∀ i ∈ (scanArray mem env game file).toScan.usrIdx,
      i < (scanArray mem env game file).toScan.lines.length := by
    rw [toScan_scanArray]
    exact usrIdx_lt_of_scan fun i hi => absurd hi (Option.not_mem_none i)
  intro i hi
  exact (hlt i hi).trans_eq (Slots.length_content _ _)

/-- **The array computes the list.** -/
theorem gameAddArray_fst (mem : ℕ → Bytes) (env : GameEnv) (game : Bytes) (file : Option Bytes) :
    (gameAddArray mem env game file).1 = gameAdd env game file := by
  have hscan := toScan_scanArray mem env game file
  have hcap := scanArray_cap mem env game file
  have hidx := usrIdx_scanArray mem env game file
  have hshort : ∀ l ∈ (scanArray mem env game file).toScan.lines, l.length ≤ 255 := by
    rw [hscan]
    exact length_le_of_mem_scan fun l hl => absurd hl List.not_mem_nil
  unfold gameAddArray gameAdd
  rw [← hscan]
  generalize scanArray mem env game file = s at hcap hidx hshort
  by_cases hmalloc : (!env.malloc) = true
  · rw [if_pos hmalloc, if_pos hmalloc]
  rw [if_neg hmalloc, if_neg hmalloc]
  dsimp only
  have hlen : s.toScan.lines.length = s.count := Slots.length_content _ _
  have hsys : s.toScan.foundSys = s.foundSys := rfl
  have husr : s.toScan.foundUsr = s.foundUsr := rfl
  rw [hlen, hsys, husr]
  -- the two functions make the same tests in the same order
  by_cases hfound : (s.foundSys || s.foundUsr) = true
  · rw [if_pos hfound, if_pos hfound]
  rw [if_neg hfound, if_neg hfound]
  by_cases hfull : 1024 ≤ s.count
  · rw [if_pos hfull, if_pos hfull]
  rw [if_neg hfull, if_neg hfull, makeRoom_eq hcap]
  by_cases hroom : 64 ≤ s.count ∧ (!env.realloc) = true
  · rw [if_pos hroom, if_pos hroom]
  rw [if_neg hroom, if_neg hroom]
  dsimp only
  -- where the line is placed the two texts are the same
  have htext : (placeLine game s { s.arr with cap := if 64 ≤ s.count then 128 else 64 }).content
      (s.count + 1) = addedLines game s.toScan :=
    content_placeLine rfl (by omega) hidx hshort
  rw [htext]
  unfold writeLines
  split <;> rfl

/-! ### The bounds -/

/-- The shifting loop stays inside an allocation with room for one line more. -/
theorem inBounds_shiftLines {lo n : ℕ} {a : Slots Bytes} (h : n < a.cap) :
    (shiftLines lo n a).InBounds ↔ a.InBounds := by
  induction n generalizing a with
  | zero => rfl
  | succ n ih =>
    rw [shiftLines]
    split
    · split
      · refine (ih (a := a.copy _ (n + 1) n) (Nat.lt_of_succ_lt h)).trans ?_
        rw [Slots.inBounds_copy, and_assoc]
        exact and_iff_left ⟨Nat.lt_of_succ_lt h, h⟩
      · exact ih (Nat.lt_of_succ_lt h)
    · rfl

theorem shiftLines_cap (lo n : ℕ) (a : Slots Bytes) : (shiftLines lo n a).cap = a.cap := by
  induction n generalizing a with
  | zero => rfl
  | succ n ih =>
    rw [shiftLines]
    split
    · rw [ih]
      split <;> rfl
    · rfl

theorem placeLine_cap (game : Bytes) (s : ArrayScan) (a : Slots Bytes) :
    (placeLine game s a).cap = a.cap := by
  unfold placeLine
  split
  · rfl
  · exact shiftLines_cap _ _ _

theorem inBounds_placeLine {game : Bytes} {s : ArrayScan} {a : Slots Bytes} (h : s.count < a.cap)
    (hidx : ∀ i ∈ s.usrIdx, i < s.count) : (placeLine game s a).InBounds ↔ a.InBounds := by
  unfold placeLine
  cases hu : s.usrIdx with
  | none => exact (Slots.inBounds_write _ _ _).trans (and_iff_left h)
  | some i =>
    have hi : i < s.count := hidx i hu
    dsimp only
    rw [Slots.inBounds_write, inBounds_shiftLines h, shiftLines_cap]
    exact and_iff_left (by omega)

/-- No step takes back an access out of bounds. -/
theorem inBounds_of_shiftLines {lo n : ℕ} {a : Slots Bytes} (h : (shiftLines lo n a).InBounds) :
    a.InBounds := by
  induction n generalizing a with
  | zero => exact h
  | succ n ih =>
    rw [shiftLines] at h
    split at h
    · have hb := ih h
      split at hb
      · exact ((Slots.inBounds_copy _ _ _ _).mp hb).1.1
      · exact hb
    · exact h

theorem inBounds_of_placeLine {game : Bytes} {s : ArrayScan} {a : Slots Bytes}
    (h : (placeLine game s a).InBounds) : a.InBounds := by
  unfold placeLine at h
  split at h
  · exact ((Slots.inBounds_write _ _ _).mp h).1
  · exact inBounds_of_shiftLines ((Slots.inBounds_write _ _ _).mp h).1

/-- What follows the reading loop adds no access out of bounds to a log without one. -/
theorem inBounds_gameAddArray (mem : ℕ → Bytes) {env : GameEnv} (game : Bytes) (file : Option Bytes)
    (hmalloc : env.malloc = true) :
    (∀ x ∈ (gameAddArray mem env game file).2, x.index < x.cap) ↔
      (scanArray mem env game file).arr.InBounds := by
  have hread := inBounds_scanArray mem env game file
  rw [← scanArray_count mem env game file] at hread
  have hidx := usrIdx_scanArray mem env game file
  have hcap := scanArray_cap mem env game file
  unfold gameAddArray
  generalize scanArray mem env game file = s at hread hidx hcap
  rw [hmalloc, if_neg (by decide)]
  dsimp only
  -- the calls that end early add nothing
  by_cases hfound : (s.foundSys || s.foundUsr) = true
  · rw [if_pos hfound]
    rfl
  rw [if_neg hfound]
  by_cases hfull : 1024 ≤ s.count
  · rw [if_pos hfull]
    rfl
  rw [if_neg hfull, makeRoom_eq hcap]
  by_cases hroom : 64 ≤ s.count ∧ (!env.realloc) = true
  · rw [if_pos hroom]
    rfl
  rw [if_neg hroom]
  dsimp only
  have hmore : s.count ≤ 64 → s.count < if 64 ≤ s.count then 128 else 64 := by
    intro hcount
    split <;> omega
  generalize hb : ({ s.arr with cap := if 64 ≤ s.count then 128 else 64 } : Slots Bytes) = b
  have hbcap : b.cap = if 64 ≤ s.count then 128 else 64 := by rw [← hb]
  have hbin : b.InBounds ↔ s.arr.InBounds := by
    rw [← hb]
    rfl
  rw [← hbcap] at hmore
  have hplace : (placeLine game s b).InBounds ↔ s.arr.InBounds := by
    constructor
    · exact fun h => hbin.mp (inBounds_of_placeLine h)
    · exact fun h => (inBounds_placeLine (hmore (hread.mp h)) hidx).mpr (hbin.mpr h)
  split
  · -- the lines are written, the new one with them
    refine (Slots.inBounds_touchFirst _ _).trans ?_
    rw [hplace, placeLine_cap]
    exact and_iff_left_of_imp fun h => hmore (hread.mp h)
  · exact hplace

/-- **When the array holds.** Every access of `game_add` to `lines` is to a slot of the
allocation exactly if there is no allocation, or the lines read are at most the 64 that it is
made for. -/
theorem lineArray_inBounds_iff (mem : ℕ → Bytes) (env : GameEnv) (game : Bytes)
    (file : Option Bytes) :
    (∀ x ∈ (gameAddArray mem env game file).2, x.index < x.cap) ↔
      env.malloc = false ∨ (linesRead env file).length ≤ 64 := by
  cases hmalloc : env.malloc with
  | false =>
    unfold gameAddArray
    rw [hmalloc, if_pos (by decide)]
    exact iff_of_true (fun x hx => absurd hx List.not_mem_nil) (Or.inl rfl)
  | true =>
    rw [inBounds_gameAddArray mem game file hmalloc, inBounds_scanArray]
    exact (or_iff_right (by decide)).symm

/-- With 65 empty lines the last one is written behind the allocation. -/
theorem line_past_allocation :
    ¬ ∀ (mem : ℕ → Bytes) (env : GameEnv) (game : Bytes) (file : Option Bytes),
      ∀ x ∈ (gameAddArray mem env game file).2, x.index < x.cap := by
  intro h
  have hread : ¬ (linesRead .allOk (some (List.replicate 65 nl))).length ≤ 64 := by decide
  have hin := (inBounds_gameAddArray (fun _ => []) (lit "doom") _ rfl).mp
    (h _ .allOk _ (some (List.replicate 65 nl)))
  exact hread ((inBounds_scanArray _ _ _ _).mp hin)

end X3D
