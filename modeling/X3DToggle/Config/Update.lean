import X3DToggle.Config.File

/-!
# What an update leaves to read

`config_update` goes through the lines of the file, puts `key=value` in the place of every line
of the key, or at the end if there is none, and writes the result back. Two cuts come after it:
the write may stop short, and `config_load` reads 4095 bytes. Since every line of the key is
the same, what a load sees is decided by where these lines begin. The last one whose separator
is within the cut counts, with as much of the value as is left (`seenValue`).
-/

namespace X3D

/-! ### The text written -/

/-- The line an update places. -/
def assignment (key val : Bytes) : Bytes := key ++ chr '=' :: val

/-- The lines after an update. -/
def placed (key val : Bytes) (ls : List Bytes) : List Bytes :=
  if ls.any (isKeyLine key) then ls.map fun l => if isKeyLine key l then assignment key val else l
  else ls ++ [assignment key val]

/-- A bounded append to a text cut to the buffer is a cut of the append. -/
theorem strlcatLocal_take (out s : Bytes) :
    strlcatLocal (out.take 8191) s 8192 = (out ++ s).take 8191 := by
  have hlen : (out.take 8191).length = min 8191 out.length := List.length_take
  unfold strlcatLocal
  rw [if_neg (by omega), List.take_append, hlen]
  split
  next hfull =>
    by_cases hout : out.length ≤ 8191
    · rw [min_eq_right hout, show 8192 - out.length - 1 = 8191 - out.length by omega]
    · rw [min_eq_left (by omega), Nat.sub_self, Nat.sub_eq_zero_of_le (by omega)]
  next hfits =>
    have hs : s.length ≤ 8191 - out.length := by omega
    rw [List.take_of_length_le hs]

theorem appendAll_take (out : Bytes) (ss : List Bytes) :
    appendAll (out.take 8191) ss = (out ++ ss.flatten).take 8191 := by
  unfold appendAll
  induction ss generalizing out with
  | nil => rw [List.foldl_nil, List.flatten_nil, List.append_nil]
  | cons s ss ih =>
    rw [List.foldl_cons, strlcatLocal_take, ih, List.flatten_cons, List.append_assoc]

theorem flatten_assignment (key val : Bytes) :
    [key, lit "=", val, [nl]].flatten = unlines nl [assignment key val] := by
  have heq : lit "=" = [chr '='] := by decide
  simp [heq, assignment, unlines]

/-- One round of the loop. -/
theorem updateLine_take (key val out : Bytes) (found : Bool) (l : Bytes) :
    updateLine key val (out.take 8191, found) l =
      ((out ++ unlines nl [if isKeyLine key l then assignment key val else l]).take 8191,
        found || isKeyLine key l) := by
  unfold updateLine
  by_cases h : isKeyLine key l = true
  · rw [if_pos h, if_pos h, appendAll_take, flatten_assignment, h, Bool.or_true]
  · rw [if_neg h, if_neg h, appendAll_take, Bool.eq_false_of_not_eq_true h, Bool.or_false]
    simp [unlines]

/-- The loop, from any text already assembled. -/
theorem foldl_updateLine (key val : Bytes) (ls : List Bytes) (out : Bytes) (found : Bool) :
    ls.foldl (updateLine key val) (out.take 8191, found) =
      ((out ++ unlines nl
          (ls.map fun l => if isKeyLine key l then assignment key val else l)).take 8191,
        found || ls.any (isKeyLine key)) := by
  induction ls generalizing out found with
  | nil => simp [unlines]
  | cons l ls ih =>
    rw [List.foldl_cons, updateLine_take, ih, List.append_assoc, ← unlines_append,
      List.any_cons, Bool.or_assoc]
    rfl

/-- **Writing rule.** An update writes the lines with the key's replaced, or with one line more,
up to the size of its buffer. -/
theorem configUpdateText_eq (key val buf : Bytes) :
    configUpdateText key val buf =
      (unlines nl (placed key val (lines nl (cstr buf)))).take 8191 := by
  have hloop := foldl_updateLine key val (lines nl (cstr buf)) [] false
  rw [List.take_nil, List.nil_append, Bool.false_or] at hloop
  unfold configUpdateText placed
  rw [hloop]
  by_cases h : (lines nl (cstr buf)).any (isKeyLine key) = true
  · simp only [h, if_true]
  · -- without a line of the key the loop has copied the text
    have hcopy : (lines nl (cstr buf)).map (fun l =>
        if isKeyLine key l then assignment key val else l) = lines nl (cstr buf) := by
      refine (List.map_congr_left fun l hl => ?_).trans (List.map_id _)
      exact if_neg fun hkey => h (List.any_eq_true.mpr ⟨l, hl, hkey⟩)
    rw [hcopy, Bool.eq_false_of_not_eq_true h, if_neg Bool.false_ne_true]
    show appendAll _ _ = _
    rw [appendAll_take, flatten_assignment, unlines_append]

/-! ### Lines of a key -/

theorem isKeyLine_iff {key l : Bytes} :
    isKeyLine key l = true ↔ ∃ val, l = assignment key val := by
  unfold isKeyLine strncmp assignment
  rw [List.take_length, Bool.and_eq_true, beq_iff_eq, decide_eq_true_iff]
  constructor
  · rintro ⟨htake, hhead⟩
    obtain ⟨val, hval⟩ := List.head?_eq_some_iff.mp hhead
    refine ⟨val, ?_⟩
    calc l = l.take key.length ++ l.drop key.length := (List.take_append_drop _ l).symm
      _ = key ++ chr '=' :: val := by rw [htake, hval]
  · rintro ⟨val, rfl⟩
    rw [List.take_left, List.drop_left]
    exact ⟨rfl, rfl⟩

/-- A line of the key is one `config_load` takes for the key. -/
theorem entryOf_assignment {key : Bytes} (hkey : chr '=' ∉ key) (val : Bytes) :
    entryOf key (assignment key val) = some val :=
  (entryOf_eq_some hkey).mpr rfl

/-- What is left of a line that is none of the key's is none of the key's. -/
theorem entryOf_take_eq_none {key l : Bytes} (hkey : chr '=' ∉ key) (h : isKeyLine key l = false)
    (n : ℕ) : entryOf key (l.take n) = none := by
  by_contra hsome
  obtain ⟨val, hval⟩ := Option.ne_none_iff_exists'.mp hsome
  have hl : l = assignment key (val ++ l.drop n) := by
    rw [assignment, ← List.cons_append, ← List.append_assoc, ← (entryOf_eq_some hkey).mp hval,
      List.take_append_drop]
  rw [isKeyLine_iff.mpr ⟨_, hl⟩] at h
  exact Bool.noConfusion h

/-- What is left of a line of the key. -/
theorem entryOf_take_assignment {key : Bytes} (hkey : chr '=' ∉ key) (val : Bytes) (n : ℕ) :
    entryOf key ((assignment key val).take n) =
      if key.length < n then some (val.take (n - (key.length + 1))) else none := by
  unfold assignment
  rw [List.take_append]
  split
  next h =>
    -- the separator survives
    rw [List.take_of_length_le h.le, show n - key.length = n - (key.length + 1) + 1 by omega,
      List.take_succ_cons]
    exact entryOf_assignment hkey _
  next h =>
    rw [show n - key.length = 0 by omega, List.take_zero, List.append_nil, entryOf, strchr,
      cut_eq_none.mpr fun hmem => hkey (List.mem_of_mem_take hmem)]

/-- Where the values of a key begin in a text of lines that starts at `n`. -/
def valueOffsets (key : Bytes) : ℕ → List Bytes → List ℕ
  | _, [] => []
  | n, l :: ls =>
    (if isKeyLine key l then [n + key.length + 1] else []) ++
      valueOffsets key (n + l.length + 1) ls

theorem lt_of_mem_valueOffsets {key : Bytes} {ls : List Bytes} {n o : ℕ}
    (h : o ∈ valueOffsets key n ls) : n < o := by
  induction ls generalizing n with
  | nil => exact absurd h List.not_mem_nil
  | cons l ls ih =>
    rcases List.mem_append.mp h with hl | hls
    · split at hl
      · rw [List.mem_singleton.mp hl]
        omega
      · exact absurd hl List.not_mem_nil
    · have := ih hls
      omega

/-- What a load sees of the value in the first `N` bytes of a file whose lines of the key all
say `key=val`. -/
def seenValue (key val : Bytes) (N : ℕ) (ls : List Bytes) : Option Bytes :=
  ((valueOffsets key 0 ls).filter (· ≤ N)).getLast?.map fun o => val.take (N - o)

/-- **Cut rule.** The last line of the key within the cut counts, with what is left of it. -/
theorem lastSome_take_unlines {key val : Bytes} (hkey : chr '=' ∉ key) {ls : List Bytes}
    (hnl : ∀ l ∈ ls, nl ∉ l) (hval : ∀ l ∈ ls, isKeyLine key l = true → l = assignment key val)
    (n N : ℕ) :
    lastSome (entryOf key) (lines nl ((unlines nl ls).take N)) =
      ((valueOffsets key n ls).filter (· ≤ n + N)).getLast?.map fun o => val.take (n + N - o) := by
  induction ls generalizing n N with
  | nil => simp [unlines, valueOffsets]
  | cons l ls ih =>
    have ih' := ih (fun m hm => hnl m (List.mem_cons_of_mem l hm))
      (fun m hm => hval m (List.mem_cons_of_mem l hm))
    rw [lines_take_unlines (hnl l List.mem_cons_self), valueOffsets, List.filter_append]
    by_cases hlong : l.length < N
    · -- the line survives with its break, and the rest is cut
      have hrest := ih' (n + l.length + 1) (N - (l.length + 1))
      rw [show n + l.length + 1 + (N - (l.length + 1)) = n + N by omega] at hrest
      rw [if_pos hlong, lastSome_cons, hrest, List.getLast?_append]
      by_cases hl : isKeyLine key l = true
      · have hlen : l.length = key.length + val.length + 1 := by
          rw [hval l List.mem_cons_self hl, assignment, List.length_append, List.length_cons]
          omega
        have hvis : n + key.length + 1 ≤ n + N := by omega
        have hentry : entryOf key l = some (val.take (n + N - (n + key.length + 1))) := by
          rw [List.take_of_length_le (by omega), hval l List.mem_cons_self hl,
            entryOf_assignment hkey]
        rw [if_pos hl, hentry]
        cases ((valueOffsets key (n + l.length + 1) ls).filter (· ≤ n + N)).getLast? with
        | none => simp [hvis]
        | some o => rfl
      · have hentry : entryOf key l = none := by
          have := entryOf_take_eq_none hkey (Bool.eq_false_of_not_eq_true hl) l.length
          rwa [List.take_length] at this
        rw [if_neg hl, hentry, Option.or_none, List.filter_nil, List.getLast?_nil, Option.or_none]
    · -- the cut falls into the line
      have hnone : (valueOffsets key (n + l.length + 1) ls).filter (· ≤ n + N) = [] := by
        rw [List.filter_eq_nil_iff]
        intro o ho
        have := lt_of_mem_valueOffsets ho
        rw [decide_eq_true_iff]
        omega
      have hlast : lastSome (entryOf key) (if l.take N = [] then [] else [l.take N]) =
          entryOf key (l.take N) := by
        split
        next hnil =>
          rw [hnil]
          rfl
        · rw [lastSome_cons, lastSome_nil, Option.none_or]
      rw [if_neg hlong, hlast, hnone, List.append_nil]
      by_cases hl : isKeyLine key l = true
      · rw [if_pos hl, hval l List.mem_cons_self hl, entryOf_take_assignment hkey]
        by_cases hsep : key.length < N
        · have hvis : n + key.length + 1 ≤ n + N := by omega
          rw [if_pos hsep, List.filter_singleton, decide_eq_true hvis]
          show _ = some (val.take (n + N - (n + key.length + 1)))
          congr 2
          omega
        · have hvis : ¬n + key.length + 1 ≤ n + N := by omega
          rw [if_neg hsep, List.filter_singleton, decide_eq_false hvis]
          rfl
      · rw [if_neg hl, entryOf_take_eq_none hkey (Bool.eq_false_of_not_eq_true hl)]
        rfl

/-! ### The value a load sees after an update -/

/-- Every line of the key among the placed lines is the new one. -/
theorem eq_assignment_of_mem_placed {key val l : Bytes} {ls : List Bytes}
    (h : l ∈ placed key val ls) (hl : isKeyLine key l = true) : l = assignment key val := by
  unfold placed at h
  split at h
  · obtain ⟨m, -, hm⟩ := List.mem_map.mp h
    split at hm
    · exact hm.symm
    next hkey => exact absurd (hm ▸ hl) hkey
  next hany =>
    rcases List.mem_append.mp h with hmem | hmem
    · exact absurd (List.any_eq_true.mpr ⟨l, hmem, hl⟩) hany
    · exact List.mem_singleton.mp hmem

/-- A byte in a placed line comes from the file or from the assignment. -/
theorem mem_of_mem_placed {key val l : Bytes} {ls : List Bytes} {c : UInt8}
    (h : l ∈ placed key val ls) (hc : c ∈ l) : c ∈ assignment key val ∨ ∃ m ∈ ls, c ∈ m := by
  unfold placed at h
  split at h
  · obtain ⟨m, hm, rfl⟩ := List.mem_map.mp h
    split at hc
    · exact Or.inl hc
    · exact Or.inr ⟨m, hm, hc⟩
  · rcases List.mem_append.mp h with hmem | hmem
    · exact Or.inr ⟨l, hmem, hc⟩
    · exact Or.inl (List.mem_singleton.mp hmem ▸ hc)

theorem notMem_assignment {key val : Bytes} {c : UInt8} (hkey : c ∉ key) (heq : c ≠ chr '=')
    (hval : c ∉ val) : c ∉ assignment key val := by
  unfold assignment
  rw [List.mem_append, List.mem_cons]
  tauto

/-- A load of an existing file. -/
theorem fileValue_some (s key : Bytes) :
    fileValue true (some s) key = lastSome (entryOf key) (lines nl (cstr (s.take 4095))) := by
  unfold fileValue
  rw [readFile_eq]
  split
  next h =>
    rw [h]
    rfl
  next => rfl

/-- What a load sees of a key in the file an update leaves. -/
def reloadedValue (env : UpdateEnv) (key val : Bytes) (file : Option Bytes) : Option Bytes :=
  match readFile env.openRd file 8191 with
  | none => fileValue true file key
  | some buf =>
    if env.openWr then
      seenValue key val (min 4095 env.written) (placed key val (lines nl (cstr buf)))
    else fileValue true file key

/-- **Update, then load.** -/
theorem fileValue_configUpdate {key val : Bytes} (hkey : chr '=' ∉ key) (hkeynl : nl ∉ key)
    (hkeyz : (0 : UInt8) ∉ key) (hvalnl : nl ∉ val) (hvalz : (0 : UInt8) ∉ val) (env : UpdateEnv)
    (file : Option Bytes) :
    fileValue true (configUpdate env key val file) key = reloadedValue env key val file := by
  unfold configUpdate reloadedValue
  cases readFile env.openRd file 8191 with
  | none => rfl
  | some buf =>
    by_cases hwr : env.openWr = true
    · set ls := lines nl (cstr buf)
      -- a written line is an old one or the new assignment, so it has no break
      have hnl : ∀ l ∈ placed key val ls, nl ∉ l := by
        intro l hl hc
        rcases mem_of_mem_placed hl hc with hassign | ⟨m, hm, hcm⟩
        · exact notMem_assignment hkeynl (by decide) hvalnl hassign
        · exact notMem_of_mem_lines hm hcm
      have hz : (0 : UInt8) ∉ unlines nl (placed key val ls) := by
        intro hc
        obtain ⟨l, hl, hcl⟩ := List.mem_flatMap.mp hc
        rcases List.mem_append.mp hcl with hcl | hcl
        · rcases mem_of_mem_placed hl hcl with hassign | ⟨m, hm, hcm⟩
          · exact notMem_assignment hkeyz (by decide) hvalz hassign
          · exact zero_notMem_cstr buf (mem_of_mem_lines hm hcm)
        · exact absurd (List.mem_singleton.mp hcl) (by decide)
      -- the text is cut by the `write` and again by the load
      have hcut : (((configUpdateText key val buf).take env.written).take 4095) =
          (unlines nl (placed key val ls)).take (min 4095 env.written) := by
        rw [configUpdateText_eq, List.take_take, List.take_take]
        congr 1
        omega
      show fileValue true (if env.openWr then _ else file) key = if env.openWr then _ else _
      rw [if_pos hwr, if_pos hwr, fileValue_some, hcut,
        cstr_of_notMem fun hmem => hz (List.mem_of_mem_take hmem),
        lastSome_take_unlines hkey hnl (fun l hl => eq_assignment_of_mem_placed hl) 0]
      simp only [Nat.zero_add, seenValue]
      rfl
    · show fileValue true (if env.openWr then _ else file) key = if env.openWr then _ else _
      rw [if_neg hwr, if_neg hwr]

theorem exists_mem_placed (key val : Bytes) (ls : List Bytes) :
    ∃ l ∈ placed key val ls, isKeyLine key l = true := by
  have hnew : isKeyLine key (assignment key val) = true := isKeyLine_iff.mpr ⟨val, rfl⟩
  unfold placed
  split
  next h =>
    obtain ⟨l, hl, hkl⟩ := List.any_eq_true.mp h
    exact ⟨assignment key val, List.mem_map.mpr ⟨l, hl, if_pos hkl⟩, hnew⟩
  · exact ⟨_, List.mem_append_right _ List.mem_cons_self, hnew⟩

theorem zero_notMem_unlines {ls : List Bytes} (h : ∀ l ∈ ls, (0 : UInt8) ∉ l) :
    (0 : UInt8) ∉ unlines nl ls :=
  notMem_unlines (by decide) h

theorem isKeyLine_assignment (key val : Bytes) : isKeyLine key (assignment key val) = true :=
  isKeyLine_iff.mpr ⟨val, rfl⟩

/-- A line of the one key is no line of the other. -/
theorem isKeyLine_assignment_of_ne {key key' : Bytes} (hne : key' ≠ key) (hkey : chr '=' ∉ key)
    (hkey' : chr '=' ∉ key') (val : Bytes) : isKeyLine key (assignment key' val) = false := by
  refine Bool.eq_false_of_not_eq_true fun h => hne ?_
  obtain ⟨v, hv⟩ := isKeyLine_iff.mp h
  have hcut := cut_append hkey' val
  rw [show key' ++ chr '=' :: val = key ++ chr '=' :: v from hv, cut_append hkey] at hcut
  exact (Prod.mk.inj (Option.some.inj hcut)).1.symm

/-- **Other lines.** An update leaves the lines alone that have a property no line of its key
has. -/
theorem filter_placed {key val : Bytes} {p : Bytes → Bool}
    (hp : ∀ l, isKeyLine key l = true → p l = false) (ls : List Bytes) :
    (placed key val ls).filter p = ls.filter p := by
  have hnew : p (assignment key val) = false := hp _ (isKeyLine_assignment key val)
  have hmap : ∀ ls : List Bytes,
      (ls.map fun l => if isKeyLine key l then assignment key val else l).filter p =
        ls.filter p := by
    intro ls
    induction ls with
    | nil => rfl
    | cons l ls ih =>
      rw [List.map_cons, List.filter_cons, List.filter_cons, ih]
      by_cases hl : isKeyLine key l = true
      · rw [if_pos hl, hnew, hp l hl]
        rfl
      · rw [if_neg hl]
  unfold placed
  split
  · exact hmap ls
  · rw [List.filter_append, List.filter_singleton, hnew]
    exact List.append_nil _

/-! ### An update that goes through -/

/-- Every call of an update succeeds. -/
def UpdateEnv.allOk : UpdateEnv where
  openRd := true
  openWr := true
  written := 8191

/-- What an update leaves whose calls succeed. -/
theorem configUpdate_of_calls {env : UpdateEnv} {key val s : Bytes} (hread : env.openRd = true)
    (hwrite : env.openWr = true) (hne : s ≠ []) (hz : (0 : UInt8) ∉ s) :
    configUpdate env key val (some s) =
      some ((unlines nl (placed key val (lines nl (s.take 8191)))).take
        (min env.written 8191)) := by
  have htake : s.take 8191 ≠ [] := by
    rw [ne_eq, List.take_eq_nil_iff, not_or]
    exact ⟨by decide, hne⟩
  unfold configUpdate
  rw [hread, readFile_eq, if_neg htake]
  dsimp only
  rw [if_pos hwrite, configUpdateText_eq, cstr_of_notMem fun h => hz (List.mem_of_mem_take h),
    List.take_take]

theorem configUpdate_allOk {key val s : Bytes} (hne : s ≠ []) (hz : (0 : UInt8) ∉ s)
    (hlen : s.length ≤ 8191) :
    configUpdate .allOk key val (some s) =
      some ((unlines nl (placed key val (lines nl s))).take 8191) := by
  rw [configUpdate_of_calls rfl rfl hne hz, List.take_of_length_le hlen]
  rfl

end X3D
