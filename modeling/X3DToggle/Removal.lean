import X3DToggle.Sections

/-!
# Removing a game

`game_remove` reads the file twice. The first pass takes a line for a header if it starts with `[`
and compares the entries as they are; it decides whether there is something to remove. The second
one removes it, and it has tests of its own: any line with `[GAMES_USR]` in it opens the section
(`inUsr`), and line breaks of either kind are stripped off an entry before it is compared.

`gameRemove_of_removable` is what the second pass leaves, on the lines with its flag after each.
`kept_eq_iff` compares that with the file without the entries; `removesEntry_iff` says for which
contents and games the two agree.
-/

namespace X3D

/-- A line without the line breaks at its end. -/
def stripBreaks (l : Bytes) : Bytes := l.rdropWhile fun c => c = nl || c = chr '\r'

/-- Whether the second pass is in a section of the user after a line. -/
def inUsr (b : Bool) (l : Bytes) : Bool :=
  if contains l usrHeader then true
  else if l.head? = some (chr '[') then false
  else b

/-- The lines the second pass keeps. -/
def kept (game : Bytes) (ls : List Bytes) : List Bytes :=
  ((withState inUsr false ls).filter fun p => !(p.2 && stripBreaks p.1 = game)).map Prod.fst

/-- The lines without the entries of the user's sections that name the game. -/
def withoutEntries (names : Bytes → Bool) (ls : List Bytes) : List Bytes :=
  ((withState (inSection usrHeader) false ls).filter fun p => !(isEntry p && names p.1)).map
    Prod.fst

/-- There is nothing to remove: the game comes with the program, or is no game of the user. -/
def Unremovable (game : Bytes) (ls : List Bytes) : Prop :=
  EntryOf sysHeader ls game ∨ ¬EntryOf usrHeader ls game

/-- `game_remove` refuses what it cannot remove, and removes the entries that equal the game and
nothing else. -/
def RemovesEntry (game text : Bytes) : Prop :=
  (Unremovable game (lines nl text) →
    gameRemove .allOk game (some text) = (errRemove, some text)) ∧
  (¬Unremovable game (lines nl text) →
    gameRemove .allOk game (some text) =
      (errSuccess, some (unlines nl (withoutEntries (· = game) (lines nl text)))))

/-- The lines, each with whether it is in a section of the user and whether the second pass takes
it for one. -/
def marks (ls : List Bytes) : List (Bytes × Bool × Bool) :=
  withState (both (inSection usrHeader) inUsr) (false, false) ls

/-- What the second pass takes for an entry of the game is one. -/
def OnlyEntries (names : Bytes → Bool) (game : Bytes) (ls : List Bytes) : Prop :=
  ∀ p ∈ marks ls, p.2.2 = true → stripBreaks p.1 = game →
    isEntry (p.1, p.2.1) = true ∧ names p.1 = true

section

variable {game l : Bytes} {ls : List Bytes} {names : Bytes → Bool}

/-! ### The second pass -/

theorem contains_append_nl {n : Bytes} (hne : n ≠ []) (hn : nl ∉ n) (l : Bytes) :
    contains (l ++ [nl]) n = contains l n := by
  have hnil : strstr [] n = none := if_neg hne
  unfold contains
  rw [strstr_append_cons hne hn, hnil, Option.or_none, Option.isSome_map]

theorem head_append_nl (l : Bytes) :
    (l ++ [nl]).head? = some (chr '[') ↔ l.head? = some (chr '[') := by
  cases l with
  | nil => decide
  | cons c l => rfl

theorem stripBreaks_append_nl (l : Bytes) : stripBreaks (l ++ [nl]) = stripBreaks l :=
  List.rdropWhile_concat_pos _ _ _ (by decide)

/-- One round of the second pass, on a line that fits its slot. -/
theorem keepLine_eq (hl : l.length < 255) (acc : List Bytes × Bool) :
    keepLine game acc (l ++ [nl]) =
      if (fun p : Bytes × Bool => p.2 && stripBreaks p.1 = game) (l, inUsr acc.2 l)
      then (acc.1, inUsr acc.2 l) else (acc.1 ++ [l ++ [nl]], inUsr acc.2 l) := by
  have hline : printfSn 256 (lit "%s") [.str (l ++ [nl])] = l ++ [nl] := by
    rw [printfSn_s, List.take_of_length_le]
    rw [List.length_append, List.length_singleton]
    exact hl
  have hcontains : contains (l ++ [nl]) (lit "[GAMES_USR]") = contains l usrHeader :=
    contains_append_nl (by decide) (by decide) l
  have hstrip : (l ++ [nl]).rdropWhile (fun c => c = nl || c = chr '\r') = stripBreaks l :=
    stripBreaks_append_nl l
  unfold keepLine
  rw [hline, hcontains, hstrip]
  simp only [head_append_nl]
  rfl

theorem foldl_keepLine (hshort : ∀ l ∈ ls, l.length < 255) :
    ((ls.map (· ++ [nl])).foldl (keepLine game) ([], false)).1 =
      (kept game ls).map (· ++ [nl]) := by
  have hfold : ∀ (ms : List Bytes) (acc : List Bytes × Bool), (∀ l ∈ ms, l.length < 255) →
      (ms.map (· ++ [nl])).foldl (keepLine game) acc =
        ms.foldl (fun acc l => if (fun p : Bytes × Bool => p.2 && stripBreaks p.1 = game)
            (l, inUsr acc.2 l)
          then (acc.1, inUsr acc.2 l) else (acc.1 ++ [l ++ [nl]], inUsr acc.2 l)) acc := by
    intro ms
    induction ms with
    | nil => exact fun _ _ => rfl
    | cons m ms ih =>
      intro acc h
      rw [List.map_cons, List.foldl_cons, List.foldl_cons, keepLine_eq (h m List.mem_cons_self)]
      exact ih _ fun l hl => h l (List.mem_cons_of_mem m hl)
  rw [hfold ls _ hshort, foldl_keep inUsr (· ++ [nl])
    (fun p : Bytes × Bool => p.2 && stripBreaks p.1 = game), kept, List.map_map]
  rfl

theorem kept_sublist (game : Bytes) (ls : List Bytes) : (kept game ls).Sublist ls := by
  have hmap := (List.filter_sublist (p := fun p : Bytes × Bool => !(p.2 && stripBreaks p.1 = game))
    (l := withState inUsr false ls)).map Prod.fst
  rwa [map_fst_withState] at hmap

theorem mem_withoutEntries (hl : l ∈ ls) (h : names l = false) : l ∈ withoutEntries names ls := by
  rw [← map_fst_withState (inSection usrHeader) false ls] at hl
  obtain ⟨p, hp, rfl⟩ := List.mem_map.mp hl
  refine List.mem_map_of_mem (List.mem_filter.mpr ⟨hp, ?_⟩)
  rw [h, Bool.and_false]
  rfl

theorem withoutEntries_sublist (names : Bytes → Bool) (ls : List Bytes) :
    (withoutEntries names ls).Sublist ls := by
  have hmap := (List.filter_sublist (p := fun p : Bytes × Bool => !(isEntry p && names p.1))
    (l := withState (inSection usrHeader) false ls)).map Prod.fst
  rwa [map_fst_withState] at hmap

theorem mem_of_mem_withoutEntries (h : l ∈ withoutEntries names ls) : l ∈ ls :=
  (withoutEntries_sublist names ls).subset h

/-! ### The two passes together -/

theorem gameRemove_of_unremovable (game : Bytes) {text : Bytes} (h : WithinLimits (cstr text))
    (hlen : text.length ≤ 16383) (hno : Unremovable game (lines nl (cstr text))) :
    gameRemove .allOk game (some text) = (errRemove, some text) := by
  obtain ⟨-, hsys, husr⟩ := found_scanGames id game h hlen
  unfold gameRemove
  refine if_pos ?_
  rw [Bool.or_eq_true, Bool.not_eq_true']
  by_cases hs : HasEntry sysHeader (id · = game) false (lines nl (cstr text))
  · exact Or.inl (hsys.mpr hs)
  · refine Or.inr (Bool.eq_false_of_not_eq_true fun hu => ?_)
    exact (husr.mp (Or.inr hu)).elim hs (hno.resolve_left hs)

/-- **What is removed.** Otherwise the second pass leaves the lines it keeps. -/
theorem gameRemove_of_removable (game : Bytes) {text : Bytes} (h : WithinLimits (cstr text))
    (hlen : text.length ≤ 16383) (hyes : ¬Unremovable game (lines nl (cstr text))) :
    gameRemove .allOk game (some text) =
      (errSuccess, some (unlines nl (kept game (lines nl (cstr text))))) := by
  obtain ⟨hlines, hsys, husr⟩ := found_scanGames id game h hlen
  obtain ⟨hs, hu⟩ := not_or.mp hyes
  -- the first pass has found the game where it may be removed
  have hfound : ¬((scanGames id game (readFile true (some text) 16383)).foundSys ||
      !(scanGames id game (readFile true (some text) 16383)).foundUsr) = true := by
    rw [Bool.or_eq_true, Bool.not_eq_true', not_or, Bool.not_eq_false]
    exact ⟨fun hf => hs (hsys.mp hf),
      (husr.mpr (Or.inr (not_not.mp hu))).resolve_left fun hf => hs (hsys.mp hf)⟩
  -- what is kept is not longer than the file
  have hwritten : (unlines nl (kept game (lines nl (cstr text)))).length ≤ 2 ^ 20 := by
    have hsub : (unlines nl (kept game (lines nl (cstr text)))).length ≤
        (unlines nl (lines nl (cstr text))).length :=
      ((kept_sublist game (lines nl (cstr text))).flatMap _).length_le
    have hle := length_unlines_lines_le (c := nl) (cstr text)
    have hcut : (cstr text).length ≤ text.length := (List.takeWhile_prefix _).length_le
    omega
  unfold gameRemove
  rw [show GameEnv.allOk.openRd = true from rfl]
  dsimp only
  rw [if_neg hfound, hlines, foldl_keepLine h.short]
  refine congrArg (Prod.mk errSuccess) ?_
  show some (((kept game (lines nl (cstr text))).map (· ++ [nl])).flatten.take (2 ^ 20)) = _
  rw [← List.flatMap_def]
  exact congrArg some (List.take_of_length_le hwritten)

/-! ### The two notions of a section -/

/-- Where a section of the user is open, the second pass takes it for one. -/
theorem marked_of_mem_marks {p : Bytes × Bool × Bool} (hp : p ∈ marks ls) (h : p.2.1 = true) :
    p.2.2 = true := by
  have hstep : ∀ (s : Bool × Bool) (l : Bytes), (s.1 = true → s.2 = true) →
      (both (inSection usrHeader) inUsr s l).1 = true →
      (both (inSection usrHeader) inUsr s l).2 = true := by
    intro s l hs hsec
    have hsec' : inSection usrHeader s.1 l = true := hsec
    show inUsr s.2 l = true
    unfold inSection at hsec'
    unfold inUsr
    by_cases hcontains : contains l usrHeader = true
    · rw [if_pos hcontains]
    · rw [if_neg hcontains]
      by_cases hheader : l.head? = some (chr '[')
      · rw [if_pos hheader] at hsec'
        exact absurd hsec' hcontains
      · rw [if_neg hheader] at hsec'
        rw [if_neg hheader]
        exact hs hsec'
  exact forall_mem_withState (P := fun s : Bool × Bool => s.1 = true → s.2 = true) hstep
    (fun hb => absurd hb Bool.false_ne_true) p hp h

theorem kept_eq_marks (game : Bytes) (ls : List Bytes) :
    kept game ls =
      ((marks ls).filter fun p => !(p.2.2 && stripBreaks p.1 = game)).map Prod.fst := by
  rw [kept, ← withState_snd (inSection usrHeader) inUsr false false ls, List.filter_map,
    List.map_map]
  rfl

theorem withoutEntries_eq_marks (names : Bytes → Bool) (ls : List Bytes) :
    withoutEntries names ls =
      ((marks ls).filter fun p => !(isEntry (p.1, p.2.1) && names p.1)).map Prod.fst := by
  rw [withoutEntries, ← withState_fst (inSection usrHeader) inUsr false false ls, List.filter_map,
    List.map_map]
  rfl

theorem exists_mem_marks {b : Bool} (h : (l, b) ∈ withState (inSection usrHeader) false ls) :
    ∃ p ∈ marks ls, p.1 = l ∧ p.2.1 = b := by
  rw [← withState_fst (inSection usrHeader) inUsr false false ls] at h
  obtain ⟨p, hp, heq⟩ := List.mem_map.mp h
  obtain ⟨hl, hb⟩ := Prod.mk.inj heq
  exact ⟨p, hp, hl, hb⟩

/-- **What is left.** The second pass leaves the lines without the entries that name the game
exactly if what it takes for an entry of the game is one, and every entry that names the game is
the game up to line breaks at its end. -/
theorem kept_eq_iff (names : Bytes → Bool) (game : Bytes) (ls : List Bytes) :
    kept game ls = withoutEntries names ls ↔
      OnlyEntries names game ls ∧
        ¬HasEntry usrHeader (fun l => names l = true ∧ stripBreaks l ≠ game) false ls := by
  have hcode (p : Bytes × Bool × Bool) :
      (p.2.2 && decide (stripBreaks p.1 = game)) = true ↔
        p.2.2 = true ∧ stripBreaks p.1 = game := by
    rw [Bool.and_eq_true, decide_eq_true_iff]
  have hmarked : ∀ p ∈ marks ls, isEntry (p.1, p.2.1) = true → p.2.2 = true := fun p hp h =>
    marked_of_mem_marks hp (Bool.and_eq_true_iff.mp h).1
  rw [kept_eq_marks, withoutEntries_eq_marks, map_filter_not_eq_iff]
  · constructor
    · intro h
      constructor
      · intro p hp hmark hstrip
        exact Bool.and_eq_true_iff.mp ((h p hp).mp ((hcode p).mpr ⟨hmark, hstrip⟩))
      · rintro ⟨⟨l, b⟩, hl, hentry, hnames, hne⟩
        obtain ⟨p, hp, rfl, rfl⟩ := exists_mem_marks hl
        exact hne ((hcode p).mp ((h p hp).mpr (Bool.and_eq_true_iff.mpr ⟨hentry, hnames⟩))).2
    · rintro ⟨honly, hno⟩ p hp
      rw [hcode, Bool.and_eq_true]
      constructor
      · rintro ⟨hmark, hstrip⟩
        exact honly p hp hmark hstrip
      · rintro ⟨hentry, hnames⟩
        refine ⟨hmarked p hp hentry, ?_⟩
        by_contra hne
        refine hno ⟨(p.1, p.2.1), ?_, hentry, hnames, hne⟩
        rw [← withState_fst (inSection usrHeader) inUsr false false ls]
        exact List.mem_map_of_mem hp
  · -- an entry is marked, so an equal line that the second pass drops is no different from it
    intro x hx y hy hpx hqy hxy
    rw [hcode] at hpx ⊢
    exact ⟨hmarked y hy (Bool.and_eq_true_iff.mp hqy).1, hxy ▸ hpx.2⟩

theorem notMem_of_mem_kept {text : Bytes} : ∀ l ∈ kept game (lines nl text), nl ∉ l := fun _ hl =>
  notMem_of_mem_lines ((kept_sublist game _).subset hl)

theorem notMem_of_mem_withoutEntries {text : Bytes} :
    ∀ l ∈ withoutEntries names (lines nl text), nl ∉ l := fun _ hl =>
  notMem_of_mem_lines (mem_of_mem_withoutEntries hl)

/-- A content with a NUL is not written back whole. -/
theorem unlines_kept_ne {text : Bytes} (hz : (0 : UInt8) ∈ text)
    (hnames : ∀ l, (0 : UInt8) ∈ l → names l = false) (game t : Bytes) :
    unlines nl (kept game (lines nl (cstr t))) ≠
      unlines nl (withoutEntries names (lines nl text)) := by
  intro h
  obtain ⟨l, hl, hzl⟩ := exists_mem_lines (c := nl) (by decide) hz
  have hmem : (0 : UInt8) ∈ unlines nl (withoutEntries names (lines nl text)) :=
    List.mem_flatMap.mpr ⟨l, mem_withoutEntries hl (hnames l hzl), List.mem_append_left _ hzl⟩
  rw [← h] at hmem
  refine notMem_unlines (by decide) (fun m hm hzm => ?_) hmem
  exact zero_notMem_cstr t (mem_of_mem_lines ((kept_sublist game _).subset hm) hzm)

theorem stripBreaks_eq_self_iff {g : Bytes} (hnl : nl ∉ g) :
    stripBreaks g = g ↔ g.getLast? ≠ some (chr '\r') := by
  rcases List.eq_nil_or_concat g with rfl | ⟨s, c, rfl⟩
  · exact iff_of_true rfl (by decide)
  · rw [List.concat_eq_append, List.mem_append, List.mem_singleton, not_or] at hnl
    rw [List.concat_eq_append, List.getLast?_concat, stripBreaks, List.rdropWhile_concat, Ne,
      Option.some.injEq]
    by_cases hc : c = chr '\r'
    · have hlen : (s.rdropWhile fun c => c = nl || c = chr '\r').length < (s ++ [c]).length := by
        have hle := (List.rdropWhile_prefix (fun c => c = nl || c = chr '\r') s).length_le
        rw [List.length_append, List.length_singleton]
        omega
      rw [if_pos (by simp [hc])]
      exact iff_of_false (fun h => absurd (congrArg List.length h) hlen.ne) (not_not.mpr hc)
    · rw [if_neg (by simp [hc, Ne.symm hnl.2])]
      exact iff_of_true rfl hc

end

/-- **When a game is removed.** For a content within the limits `game_remove` does what it should
exactly if it rightly refuses, on the whole content and on what it reads of it, or the content has
no NUL, the game does not end in a carriage return, and what the second pass takes for an entry of
the game is one. -/
theorem removesEntry_iff {game text : Bytes} (hgame : (0 : UInt8) ∉ game) (h : WithinLimits text) :
    RemovesEntry game text ↔
      (Unremovable game (lines nl text) ∧ Unremovable game (lines nl (cstr text))) ∨
      ((0 : UInt8) ∉ text ∧ game.getLast? ≠ some (chr '\r') ∧
        OnlyEntries (· = game) game (lines nl text)) := by
  have hrefused := gameRemove_of_unremovable game h.cstr h.length
  have hremoved := gameRemove_of_removable game h.cstr h.length
  have hret (s : Option Bytes) (s' : Option Bytes) : (errRemove, s) ≠ (errSuccess, s') := fun heq =>
    absurd (Prod.mk.inj heq).1 (by decide)
  by_cases hu : Unremovable game (lines nl text)
  · by_cases hu' : Unremovable game (lines nl (cstr text))
    · exact iff_of_true ⟨fun _ => hrefused hu', fun hno => absurd hu hno⟩ (Or.inl ⟨hu, hu'⟩)
    · refine iff_of_false (fun hprop => ?_) ?_
      · exact hret _ _ ((hprop.1 hu).symm.trans (hremoved hu'))
      · rintro (⟨-, hno⟩ | ⟨hz, -⟩)
        · exact hu' hno
        · rw [cstr_of_notMem hz] at hu'
          exact hu' hu
  · rw [or_iff_right fun hno => hu hno.1]
    by_cases hz : (0 : UInt8) ∈ text
    · -- a line with a NUL is none of the game's, and it is lost or the file is left as it was
      refine iff_of_false (fun hprop => ?_) fun hno => hno.1 hz
      have heq := hprop.2 hu
      by_cases hu' : Unremovable game (lines nl (cstr text))
      · exact hret _ _ ((hrefused hu').symm.trans heq)
      · rw [hremoved hu'] at heq
        refine unlines_kept_ne hz (fun l hl => ?_) game text (Option.some.inj (Prod.mk.inj heq).2)
        refine decide_eq_false fun hlg => hgame ?_
        rwa [← hlg]
    · have hself := cstr_of_notMem hz
      rw [hself] at hremoved
      -- the game is a line of the file
      obtain ⟨-, husr⟩ := not_or.mp hu
      obtain ⟨p, hp, hentry, hpg⟩ := not_not.mp husr
      have hmem : game ∈ lines nl text := hpg ▸ mem_of_mem_withState hp
      have hbreaks := stripBreaks_eq_self_iff (notMem_of_mem_lines hmem)
      have hprop : RemovesEntry game text ↔
          kept game (lines nl text) = withoutEntries (· = game) (lines nl text) := by
        rw [← unlines_inj notMem_of_mem_kept notMem_of_mem_withoutEntries]
        constructor
        · intro hprop
          exact Option.some.inj (Prod.mk.inj ((hremoved hu).symm.trans (hprop.2 hu))).2
        · intro heq
          refine ⟨fun hno => absurd hno hu, fun _ => ?_⟩
          rw [hremoved hu, heq]
      rw [hprop, kept_eq_iff, and_iff_right hz, ← hbreaks, and_comm]
      refine and_congr_left fun _ => ?_
      constructor
      · intro hno
        by_contra hne
        exact hno ⟨p, hp, hentry, decide_eq_true hpg, hpg ▸ hne⟩
      · rintro hstrip ⟨q, -, -, hq, hne⟩
        rw [of_decide_eq_true hq] at hne
        exact hne hstrip

/-- A comment that names the header, above a line that is no entry. -/
def commentedHeader : Bytes := lit "# [GAMES_USR]\nfoo\n[GAMES_USR]\nfoo\n"

/-- The line below the comment is removed too. -/
theorem comment_opens_section :
    ¬∀ game text : Bytes, (0 : UInt8) ∉ game → WithinLimits text → RemovesEntry game text := by
  intro h
  have hprop := h (lit "foo") commentedHeader (by decide) ⟨by decide, by decide, by decide⟩
  have hentry : ¬Unremovable (lit "foo") (lines nl commentedHeader) := by
    unfold Unremovable EntryOf HasEntry
    decide +kernel
  exact absurd (hprop.2 hentry) (by decide +kernel)

/-- The rule for a file with one game of each kind. -/
theorem removesEntry_iff_twoGames :
    RemovesEntry (lit "doom") (lit "[GAMES_SYS]\nquake\n[GAMES_USR]\ndoom\n") ↔
      (Unremovable (lit "doom") (lines nl (lit "[GAMES_SYS]\nquake\n[GAMES_USR]\ndoom\n")) ∧
        Unremovable (lit "doom")
          (lines nl (cstr (lit "[GAMES_SYS]\nquake\n[GAMES_USR]\ndoom\n")))) ∨
      ((0 : UInt8) ∉ lit "[GAMES_SYS]\nquake\n[GAMES_USR]\ndoom\n" ∧
        (lit "doom").getLast? ≠ some (chr '\r') ∧
        OnlyEntries (· = lit "doom") (lit "doom")
          (lines nl (lit "[GAMES_SYS]\nquake\n[GAMES_USR]\ndoom\n"))) :=
  removesEntry_iff (by decide) ⟨by decide, by decide, by decide⟩

end X3D
