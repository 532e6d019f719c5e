import X3DToggle.Removal

/-!
# Adding a game and removing it again

`game_add` puts a game into the list of the user unless it finds it there, and `game_remove` takes
it out. To undo each other they would have to agree on what it is for an entry to name a game:
`game_add` strips the blanks on both sides of an entry, `game_remove` takes it as it is, and its
second pass strips line breaks.

`gameAdd_of_listed` and `gameAdd_of_header` say what `game_add` leaves. The line it adds stands
right below a header of the user's, so the second pass takes it for an entry and nothing else
changes (`kept_insert`). `undone_by_removal_iff` says when removing a game leaves the file without
its entries.
-/

namespace X3D

/-- An entry names a game if it is the game, or the game with blanks around. -/
def namesGame (game l : Bytes) : Bool := l = game || trimWs l = game

/-- A header that the editors take for one of the user's. -/
def IsUsrHeader (l : Bytes) : Prop := l.head? = some (chr '[') ∧ headerSection l = .usr

instance (l : Bytes) : Decidable (IsUsrHeader l) := inferInstanceAs (Decidable (_ ∧ _))

/-- If the game can be added, removing it succeeds and leaves the file without the entries of the
user that name it. -/
def UndoneByRemoval (game text : Bytes) : Prop :=
  (gameAdd .allOk game (some text)).1 = errSuccess →
    gameRemove .allOk game (gameAdd .allOk game (some text)).2 =
      (errSuccess, some (unlines nl (withoutEntries (namesGame game) (lines nl text))))

/-- What `game_add` and `game_remove` make of a file and a game agrees: the game looks like an
entry; a header of the user's is none of the program's; the second pass takes no other line for an
entry of the game; and what names the game is the game, up to line breaks at its end. -/
structure Agreed (game text : Bytes) : Prop where
  zero : (0 : UInt8) ∉ text
  head : game.head? ≠ some (chr '[')
  last : game.getLast? ≠ some (chr '\r')
  header : ∃ l ∈ lines nl text, IsUsrHeader l
  only : OnlyEntries (namesGame game) game (lines nl text)
  entries : ¬HasEntry usrHeader (fun l => namesGame game l = true ∧ stripBreaks l ≠ game) false
    (lines nl text)
  listed : HasEntry usrHeader (trimWs · = game) false (lines nl text) →
    EntryOf usrHeader (lines nl text) game

section

variable {game text : Bytes} {name : Bytes} {P : Bytes → Prop} {trim : Bytes → Bytes}

/-! ### The scan of `game_add` -/

/-- **The header.** A scan remembers a header of the user's, if there is one. -/
theorem usrIdx_foldl (trim : Bytes → Bytes) (game : Bytes) (ls : List Bytes) (s : GameScan) :
    (∀ i, (ls.foldl (scanLine trim game) s).usrIdx = some i → s.usrIdx = some i ∨
      ∃ as h bs, ls = as ++ h :: bs ∧ IsUsrHeader h ∧ i = s.lines.length + as.length) ∧
    ((ls.foldl (scanLine trim game) s).usrIdx = none ↔
      s.usrIdx = none ∧ ∀ l ∈ ls, ¬IsUsrHeader l) := by
  induction ls generalizing s with
  | nil => exact ⟨fun i hi => Or.inl hi, (and_iff_left (by simp)).symm⟩
  | cons l ls ih =>
    have hlen : (scanLine trim game s l).lines.length = s.lines.length + 1 := by
      unfold scanLine
      split <;> simp
    -- a header of the user's overwrites the index, any other line keeps it
    have hidx : (scanLine trim game s l).usrIdx =
        if IsUsrHeader l then some s.lines.length else s.usrIdx := by
      unfold scanLine
      by_cases hl : IsUsrHeader l
      · rw [if_pos hl, if_pos hl.1]
        exact if_pos hl.2
      · rw [if_neg hl]
        by_cases hheader : l.head? = some (chr '[')
        · rw [if_pos hheader]
          exact if_neg fun husr => hl ⟨hheader, husr⟩
        · rw [if_neg hheader]
    obtain ⟨hsome, hnone⟩ := ih (scanLine trim game s l)
    rw [List.foldl_cons]
    constructor
    · -- the header is this line, or one of the rest
      intro i hi
      rcases hsome i hi with hs | ⟨as, h, bs, rfl, hh, rfl⟩
      · rw [hidx] at hs
        by_cases hl : IsUsrHeader l
        · rw [if_pos hl] at hs
          exact Or.inr ⟨[], l, ls, rfl, hl, (Option.some.inj hs).symm⟩
        · rw [if_neg hl] at hs
          exact Or.inl hs
      · refine Or.inr ⟨l :: as, h, bs, rfl, hh, ?_⟩
        rw [hlen, List.length_cons]
        omega
    · rw [hnone, hidx]
      by_cases hl : IsUsrHeader l
      · rw [if_pos hl]
        exact iff_of_false (fun h => Option.some_ne_none _ h.1)
          fun h => h.2 l List.mem_cons_self hl
      · rw [if_neg hl, List.forall_mem_cons, and_iff_right hl]

/-- The line `game_add` adds below a header. -/
def addedLine (game : Bytes) : Bytes := (game ++ [nl]).take 255

/-- What `game_add` adds to a file without a header of the user's. -/
def addedSection (game : Bytes) : Bytes := nl :: usrHeader ++ nl :: (game ++ [nl]).take 242

theorem printfSn_addedSection (game : Bytes) :
    printfSn 256 (lit "\n[GAMES_USR]\n%s\n") [.str game] = addedSection game := by
  have hplain : printfSn 256 (lit "\n[GAMES_USR]\n%s\n") ([game].map .str) =
      (rendered (lit "\n[GAMES_USR]\n%s\n") [game]).take 255 :=
    printfSn_plain (show plainFormat (lit "\n[GAMES_USR]\n%s\n") 1 = true by decide)
  have hformat : lit "\n[GAMES_USR]\n%s\n" =
      (nl :: usrHeader ++ [nl]) ++ chr '%' :: chr 's' :: [nl] := by decide
  have htext : rendered (lit "\n[GAMES_USR]\n%s\n") [game] =
      (nl :: usrHeader ++ [nl]) ++ (game ++ [nl]) := by
    rw [hformat, rendered_append (by decide), rendered_s]
    rfl
  have hlen : (nl :: usrHeader ++ [nl]).length = 13 := by decide
  refine hplain.trans ?_
  rw [htext, List.take_append, List.take_of_length_le (by omega), hlen]
  simp [addedSection]

/-! ### What `game_add` leaves -/

/-- A game that is listed is left where it is. -/
theorem gameAdd_of_listed (h : WithinLimits (cstr text)) (hlen : text.length ≤ 16383)
    (hlisted : HasEntry sysHeader (trimWs · = game) false (lines nl (cstr text)) ∨
      HasEntry usrHeader (trimWs · = game) false (lines nl (cstr text))) :
    gameAdd .allOk game (some text) = (errSuccess, some text) := by
  obtain ⟨-, -, hfound⟩ := found_scanGames trimWs game h hlen
  unfold gameAdd
  rw [if_neg (by decide)]
  exact if_pos (Bool.or_eq_true_iff.mpr (hfound.mpr hlisted))

/-- What `game_add` writes if it gets that far. -/
theorem gameAdd_writes {env : GameEnv} {file : Option Bytes} {s : GameScan}
    (hs : scanGames trimWs game (readFile env.openRd file 16383) = s) (hmalloc : env.malloc = true)
    (hsys : s.foundSys = false) (husr : s.foundUsr = false) (hcount : s.lines.length < 1024)
    (hgrow : 64 ≤ s.lines.length → env.realloc = true) :
    gameAdd env game file = (errSuccess, writeLines env (addedLines game s) file) := by
  unfold gameAdd
  rw [hs, hmalloc, if_neg (by decide)]
  dsimp only
  rw [hsys, husr, if_neg (by decide), if_neg (Nat.not_le.mpr hcount), if_neg fun hr => ?_]
  rw [hgrow hr.1] at hr
  exact Bool.false_ne_true hr.2

/-- A game that is not listed is added. -/
theorem gameAdd_of_not_listed (h : WithinLimits (cstr text)) (hlen : text.length ≤ 16383)
    (hroom : (lines nl (cstr text)).length < 1024)
    (hsys : ¬HasEntry sysHeader (trimWs · = game) false (lines nl (cstr text)))
    (husr : ¬HasEntry usrHeader (trimWs · = game) false (lines nl (cstr text))) :
    gameAdd .allOk game (some text) =
      (errSuccess, some ((addedLines game
        (scanGames trimWs game (readFile true (some text) 16383))).flatten.take (2 ^ 20))) := by
  obtain ⟨hlines, -, hfound⟩ := found_scanGames trimWs game h hlen
  have hcount : (scanGames trimWs game (readFile true (some text) 16383)).lines.length < 1024 := by
    rw [hlines, List.length_map]
    exact hroom
  have hno : ¬((scanGames trimWs game (readFile true (some text) 16383)).foundSys = true ∨
      (scanGames trimWs game (readFile true (some text) 16383)).foundUsr = true) := fun hf =>
    (hfound.mp hf).elim hsys husr
  obtain ⟨hnosys, hnousr⟩ := not_or.mp hno
  exact gameAdd_writes rfl rfl (Bool.eq_false_of_not_eq_true hnosys)
    (Bool.eq_false_of_not_eq_true hnousr) hcount fun _ => rfl

theorem exists_gameAdd (h : WithinLimits (cstr text)) (hlen : text.length ≤ 16383)
    (hroom : (lines nl (cstr text)).length < 1024) (game : Bytes) :
    ∃ t, gameAdd .allOk game (some text) = (errSuccess, some t) := by
  by_cases hlisted : HasEntry sysHeader (trimWs · = game) false (lines nl (cstr text)) ∨
      HasEntry usrHeader (trimWs · = game) false (lines nl (cstr text))
  · exact ⟨_, gameAdd_of_listed h hlen hlisted⟩
  · obtain ⟨hsys, husr⟩ := not_or.mp hlisted
    exact ⟨_, gameAdd_of_not_listed h hlen hroom hsys husr⟩

theorem flatten_stored (ls : List Bytes) : (ls.map (· ++ [nl])).flatten = unlines nl ls :=
  (List.flatMap_def).symm

/-- **A line is added** below a header of the user's, or a section at the end. -/
theorem gameAdd_of_new (hz : (0 : UInt8) ∉ text) (h : WithinLimits text)
    (hroom : (lines nl text).length < 1024)
    (hsys : ¬HasEntry sysHeader (trimWs · = game) false (lines nl text))
    (husr : ¬HasEntry usrHeader (trimWs · = game) false (lines nl text)) :
    (∃ as hd bs, lines nl text = as ++ hd :: bs ∧ IsUsrHeader hd ∧
      gameAdd .allOk game (some text) =
        (errSuccess, some (unlines nl (as ++ [hd]) ++ (addedLine game ++ unlines nl bs)))) ∨
    ((∀ l ∈ lines nl text, ¬IsUsrHeader l) ∧
      gameAdd .allOk game (some text) =
        (errSuccess, some (unlines nl (lines nl text) ++ addedSection game))) := by
  have hself := cstr_of_notMem hz
  have hlimits : WithinLimits (cstr text) := hself.symm ▸ h
  have hadd := gameAdd_of_not_listed hlimits h.length (by rwa [hself]) (by rwa [hself])
    (by rwa [hself])
  obtain ⟨hlines, -, -⟩ := found_scanGames trimWs game hlimits h.length
  rw [hself] at hlines
  have hidx := usrIdx_foldl trimWs game (lines nl (cstr text)) ⟨[], .none, none, false, false⟩
  rw [← scanGames_eq h.length hlimits.count, hself] at hidx
  obtain ⟨hsome, hnone⟩ := hidx
  have htotal := length_unlines_lines_le (c := nl) text
  have hlen := h.length
  -- what is written is far below what the calls put into the file
  have hcut : ∀ t : Bytes, t.length ≤ (unlines nl (lines nl text)).length + 300 →
      t.take (2 ^ 20) = t := fun t ht => List.take_of_length_le (by omega)
  cases hi : (scanGames trimWs game (readFile true (some text) 16383)).usrIdx with
  | none =>
    refine Or.inr ⟨(hnone.mp hi).2, ?_⟩
    rw [hadd, addedLines, hi]
    dsimp only
    rw [hlines, printfSn_addedSection, List.flatten_append, flatten_stored, List.flatten_singleton,
      hcut]
    have hsection : (addedSection game).length ≤ 13 + 242 := by
      have hle : ((game ++ [nl]).take 242).length ≤ 242 := List.length_take_le _ _
      have hheader : usrHeader.length = 11 := by decide
      unfold addedSection
      rw [List.length_append, List.length_cons, List.length_cons, hheader]
      omega
    rw [List.length_append]
    omega
  | some i =>
    obtain hi' | ⟨as, hd, bs, hsplit, hhd, hi'⟩ := hsome i hi
    · exact absurd hi'.symm (Option.some_ne_none i)
    · refine Or.inl ⟨as, hd, bs, hsplit, hhd, ?_⟩
      have hpos : i + 1 = ((as ++ [hd]).map (· ++ [nl])).length := by
        rw [hi', List.length_map, List.length_append, List.length_singleton]
        exact congrArg (· + 1) (Nat.zero_add _)
      have hwhole : lines nl text = (as ++ [hd]) ++ bs := by
        rw [hsplit, List.append_assoc]
        rfl
      rw [hadd, addedLines, hi]
      dsimp only
      rw [hlines, printfSn_line, hwhole, List.map_append, hpos, insertIdx_append,
        List.flatten_append, List.flatten_cons, flatten_stored, flatten_stored]
      rw [show (game ++ [nl]).take (256 - 1) = addedLine game from rfl, hcut]
      have hline : (addedLine game).length ≤ 255 := List.length_take_le _ _
      have hsum : (unlines nl (lines nl text)).length =
          (unlines nl (as ++ [hd])).length + (unlines nl bs).length := by
        rw [hwhole, unlines_append, List.length_append]
      rw [hsum, List.length_append, List.length_append]
      omega

/-! ### The line that was added -/

/-- An entry put below a header is one of the header's section, and the others stay. -/
theorem hasEntry_insert {hd l : Bytes} (hhd : hd.head? = some (chr '['))
    (hl : l.head? ≠ some (chr '[')) (as bs : List Bytes) (b : Bool) :
    HasEntry name P b (as ++ hd :: l :: bs) ↔
      (contains hd name = true ∧ P l) ∨ HasEntry name P b (as ++ hd :: bs) := by
  induction as generalizing b with
  | nil =>
    have hopen : inSection name b hd = contains hd name := if_pos hhd
    have hstay : inSection name (contains hd name) l = contains hd name := if_neg hl
    rw [List.nil_append, List.nil_append, hasEntry_cons, hasEntry_cons, hasEntry_cons, hopen, hstay]
    have hnot : ¬(hd.head? ≠ some (chr '[') ∧ b = true ∧ P hd) := fun h => h.1 hhd
    rw [or_iff_right hnot, or_iff_right hnot, and_iff_right hl]
  | cons a as ih =>
    rw [List.cons_append, List.cons_append, hasEntry_cons, hasEntry_cons, ih]
    exact or_left_comm

/-- No line that looks like a header is an entry. -/
theorem not_entryOf_of_head {l : Bytes} (hl : l.head? = some (chr '[')) (ls : List Bytes) :
    ¬EntryOf name ls l := by
  rintro ⟨p, -, hentry, rfl⟩
  exact of_decide_eq_true (Bool.and_eq_true_iff.mp hentry).2 hl

theorem stripBreaks_stripBreaks (l : Bytes) : stripBreaks (stripBreaks l) = stripBreaks l :=
  List.rdropWhile_idempotent _ l

/-- **What happens to the line.** The second pass takes out a game put below a header of the
user's, and the line changes nothing for the others. -/
theorem kept_insert {hd : Bytes} (hhd : contains hd usrHeader = true)
    (hl : game.head? ≠ some (chr '[')) (hstrip : stripBreaks game = game) (as bs : List Bytes) :
    kept game (as ++ hd :: game :: bs) = kept game (as ++ hd :: bs) := by
  have hopen : (as ++ [hd]).foldl inUsr false = true := by
    rw [List.foldl_append, List.foldl_cons, List.foldl_nil, inUsr, if_pos hhd]
  have hstay : inUsr true game = true := by
    unfold inUsr
    rw [if_neg hl]
    split <;> rfl
  have hsplit (ms : List Bytes) : kept game (as ++ hd :: ms) =
      ((withState inUsr false (as ++ [hd])).filter fun p =>
          !(p.2 && stripBreaks p.1 = game)).map Prod.fst ++
        ((withState inUsr true ms).filter fun p =>
          !(p.2 && stripBreaks p.1 = game)).map Prod.fst := by
    rw [← List.singleton_append, ← List.append_assoc, kept, withState_append, hopen,
      List.filter_append, List.map_append]
  rw [hsplit, hsplit, withState, hstay, List.filter_cons, decide_eq_true hstrip]
  rfl

/-- A game that ends in a line break is not found by the second pass. -/
theorem kept_of_breaks {game : Bytes} (h : stripBreaks game ≠ game) (ls : List Bytes) :
    kept game ls = ls := by
  have hall : ((withState inUsr false ls).filter fun p => !(p.2 && stripBreaks p.1 = game)) =
      withState inUsr false ls := by
    rw [List.filter_eq_self]
    intro p _
    have hne : stripBreaks p.1 ≠ game := by
      rintro rfl
      exact h (stripBreaks_stripBreaks p.1)
    rw [decide_eq_false hne, Bool.and_false]
    rfl
  rw [kept, hall, map_fst_withState]

theorem mem_kept {l : Bytes} {ls : List Bytes} (hl : l ∈ ls) (h : stripBreaks l ≠ game) :
    l ∈ kept game ls := by
  rw [← map_fst_withState inUsr false ls] at hl
  obtain ⟨p, hp, rfl⟩ := List.mem_map.mp hl
  refine List.mem_map_of_mem (List.mem_filter.mpr ⟨hp, ?_⟩)
  rw [decide_eq_false h, Bool.and_false]
  rfl

/-! ### Entries and names -/

theorem HasEntry.imp {Q : Bytes → Prop} {b : Bool} {ls : List Bytes} (h : HasEntry name P b ls)
    (hPQ : ∀ l, P l → Q l) : HasEntry name Q b ls := by
  obtain ⟨p, hp, hentry, hP⟩ := h
  exact ⟨p, hp, hentry, hPQ _ hP⟩

/-- Above an entry of the user's that is none of the program's stands a header of the user's. -/
theorem exists_usrHeader {ls : List Bytes} {b b' : Bool} (h : HasEntry usrHeader P b ls)
    (hno : ¬HasEntry sysHeader P b' ls) :
    (b = true ∧ b' = false) ∨ ∃ l ∈ ls, IsUsrHeader l := by
  induction ls generalizing b b' with
  | nil => exact absurd h (hasEntry_nil b)
  | cons l ls ih =>
    rw [hasEntry_cons] at h hno
    obtain ⟨hhere, hrest⟩ := not_or.mp hno
    rcases h with ⟨hl, hb, hP⟩ | h
    · exact Or.inl ⟨hb, Bool.eq_false_of_not_eq_true fun hb' => hhere ⟨hl, hb', hP⟩⟩
    · rcases ih h hrest with ⟨hb, hb'⟩ | ⟨m, hm, hhd⟩
      · unfold inSection at hb hb'
        by_cases hl : l.head? = some (chr '[')
        · rw [if_pos hl] at hb hb'
          exact Or.inr ⟨l, List.mem_cons_self, hl, (headerSection_usr_iff l).mpr ⟨hb, hb'⟩⟩
        · rw [if_neg hl] at hb hb'
          exact Or.inl ⟨hb, hb'⟩
      · exact Or.inr ⟨m, List.mem_cons_of_mem l hm, hhd⟩

/-- Only blanks are trimmed. -/
theorem mem_trimWs {c : UInt8} {l : Bytes} (hc : c ∈ l) (h : isspace c = false) : c ∈ trimWs l := by
  unfold trimWs List.rdropWhile
  rw [List.mem_reverse]
  exact mem_dropWhile (List.mem_reverse.mpr (mem_dropWhile hc h)) h

theorem namesGame_of_mem_zero (hz : (0 : UInt8) ∉ game) {l : Bytes} (hl : (0 : UInt8) ∈ l) :
    namesGame game l = false := by
  refine Bool.eq_false_of_not_eq_true fun h => ?_
  rcases Bool.or_eq_true_iff.mp h with heq | htrim
  · exact hz (of_decide_eq_true heq ▸ hl)
  · exact hz (of_decide_eq_true htrim ▸ mem_trimWs hl (by decide))

theorem namesGame_self (game : Bytes) : namesGame game game = true :=
  Bool.or_eq_true_iff.mpr (Or.inl (decide_eq_true rfl))

/-- A game whose file takes it in within the limits of a line is added whole. -/
theorem length_lt_of_withinLimits (hnl : nl ∉ game) {ls : List Bytes} (hls : ∀ l ∈ ls, nl ∉ l)
    {s : Bytes} (h : WithinLimits (unlines nl ls ++ (addedLine game ++ s))) :
    game.length < 255 := by
  by_contra hlong
  have hline : addedLine game = game.take 255 :=
    List.take_append_of_le_length (Nat.not_lt.mp hlong)
  have hlen : (addedLine game).length = 255 := by
    rw [hline, List.length_take]
    omega
  have hne : addedLine game ≠ [] := List.ne_nil_of_length_pos (by omega)
  have hno : nl ∉ addedLine game := by
    rw [hline]
    exact fun hmem => hnl (List.mem_of_mem_take hmem)
  obtain ⟨m, ms, hm⟩ := exists_lines_append hne hno s
  have hshort := h.short (addedLine game ++ m) (by
    rw [lines_unlines_append hls, hm]
    exact List.mem_append_right ls List.mem_cons_self)
  rw [List.length_append] at hshort
  omega

/-! ### The three ways through both -/

/-- Removing the game from a content `t` leaves the lines of `ls` without the entries that name
it. -/
def RemovedFrom (game t : Bytes) (ls : List Bytes) : Prop :=
  gameRemove .allOk game (some t) =
    (errSuccess, some (unlines nl (withoutEntries (namesGame game) ls)))

theorem not_removedFrom_of_unremovable {t : Bytes} {ls : List Bytes} (ht : WithinLimits t)
    (h : Unremovable game (lines nl (cstr t))) : ¬RemovedFrom game t ls := by
  intro heq
  have hrefused := gameRemove_of_unremovable game ht.cstr ht.length h
  exact absurd (Prod.mk.inj (hrefused.symm.trans heq)).1 (by decide)

theorem removedFrom_iff {t : Bytes} (ht : WithinLimits t) (hz : (0 : UInt8) ∉ t)
    (h : ¬Unremovable game (lines nl t)) :
    RemovedFrom game t (lines nl text) ↔
      kept game (lines nl t) = withoutEntries (namesGame game) (lines nl text) := by
  have hself := cstr_of_notMem hz
  have hremoved := gameRemove_of_removable game ht.cstr ht.length (by rwa [hself])
  rw [hself] at hremoved
  rw [← unlines_inj notMem_of_mem_kept notMem_of_mem_withoutEntries, RemovedFrom, hremoved]
  exact ⟨fun heq => Option.some.inj (Prod.mk.inj heq).2, fun heq => by rw [heq]⟩

/-- **A game that is listed.** -/
theorem agreed_of_listed (hnl : nl ∉ game) (hz : (0 : UInt8) ∉ text) (htext : WithinLimits text)
    (hsys : ¬HasEntry sysHeader (fun l => namesGame game l = true) false (lines nl text))
    (hlisted : HasEntry usrHeader (trimWs · = game) false (lines nl text)) :
    RemovedFrom game text (lines nl text) ↔ Agreed game text := by
  have hnotsys : ¬EntryOf sysHeader (lines nl text) game := fun h =>
    hsys (h.imp fun l hl => hl ▸ namesGame_self game)
  by_cases hentry : EntryOf usrHeader (lines nl text) game
  · rw [removedFrom_iff htext hz (not_or.mpr ⟨hnotsys, not_not.mpr hentry⟩), kept_eq_iff]
    refine ⟨fun ⟨honly, hentries⟩ => ?_, fun h => ⟨h.only, h.entries⟩⟩
    have hhead : game.head? ≠ some (chr '[') := fun h => not_entryOf_of_head h _ hentry
    have hstrip : stripBreaks game = game := by
      by_contra hne
      refine hentries (hentry.imp fun l hl => ?_)
      rw [hl]
      exact ⟨namesGame_self game, hne⟩
    have hheader := exists_usrHeader hentry hnotsys
    exact ⟨hz, hhead, (stripBreaks_eq_self_iff hnl).mp hstrip,
      hheader.resolve_left fun h => Bool.false_ne_true h.1, honly, hentries, fun _ => hentry⟩
  · -- `game_add` finds it, and `game_remove` does not
    refine iff_of_false (not_removedFrom_of_unremovable htext ?_) fun h => hentry (h.listed hlisted)
    rw [cstr_of_notMem hz]
    exact Or.inr hentry

/-- **A game that is added below a header.** -/
theorem agreed_of_header (hnl : nl ∉ game) (hgame : (0 : UInt8) ∉ game) (hz : (0 : UInt8) ∉ text)
    (hsys : ¬HasEntry sysHeader (fun l => namesGame game l = true) false (lines nl text))
    (hnew : ¬HasEntry usrHeader (trimWs · = game) false (lines nl text))
    {as bs : List Bytes} {hd : Bytes} (hsplit : lines nl text = as ++ hd :: bs)
    (hhd : IsUsrHeader hd)
    (hfit : WithinLimits (unlines nl (as ++ [hd]) ++ (addedLine game ++ unlines nl bs))) :
    RemovedFrom game (unlines nl (as ++ [hd]) ++ (addedLine game ++ unlines nl bs))
      (lines nl text) ↔ Agreed game text := by
  have hlines : ∀ l ∈ lines nl text, nl ∉ l ∧ (0 : UInt8) ∉ l := fun l hl =>
    ⟨notMem_of_mem_lines hl, fun h => hz (mem_of_mem_lines hl h)⟩
  rw [hsplit] at hlines
  have hshort : game.length < 255 := by
    refine length_lt_of_withinLimits hnl (fun l hl => ?_) hfit
    refine (hlines l ?_).1
    rw [List.append_cons]
    exact List.mem_append_left bs hl
  -- the added line is whole, so the new content is the old lines and the game
  have hcontent : unlines nl (as ++ [hd]) ++ (addedLine game ++ unlines nl bs) =
      unlines nl (as ++ hd :: game :: bs) := by
    have hline : addedLine game = game ++ [nl] := by
      refine List.take_of_length_le ?_
      rw [List.length_append, List.length_singleton]
      exact hshort
    rw [hline, List.append_assoc, List.singleton_append, ← unlines_cons, ← unlines_append,
      List.append_assoc, List.singleton_append]
  have hmem : ∀ l ∈ as ++ hd :: game :: bs, nl ∉ l ∧ (0 : UInt8) ∉ l := by
    intro l hl
    rw [List.append_cons, List.mem_append, List.mem_cons] at hl
    rcases hl with hl | rfl | hl
    · exact hlines l (by rw [List.append_cons]; exact List.mem_append_left bs hl)
    · exact ⟨hnl, hgame⟩
    · exact hlines l (by rw [List.append_cons]; exact List.mem_append_right _ hl)
  rw [hcontent] at hfit ⊢
  have hnew' : lines nl (unlines nl (as ++ hd :: game :: bs)) = as ++ hd :: game :: bs :=
    lines_unlines fun l hl => (hmem l hl).1
  have hz' : (0 : UInt8) ∉ unlines nl (as ++ hd :: game :: bs) :=
    notMem_unlines (by decide) fun l hl => (hmem l hl).2
  obtain ⟨hcontains, hnosys⟩ := (headerSection_usr_iff hd).mp hhd.2
  by_cases hhead : game.head? = some (chr '[')
  · refine iff_of_false (not_removedFrom_of_unremovable hfit ?_) fun h => h.head hhead
    exact Or.inr (not_entryOf_of_head hhead _)
  · have hyes : ¬Unremovable game (as ++ hd :: game :: bs) := by
      rw [Unremovable, EntryOf, EntryOf, hasEntry_insert hhd.1 hhead, hasEntry_insert hhd.1 hhead,
        ← hsplit, not_or, not_not]
      refine ⟨?_, Or.inl ⟨hcontains, rfl⟩⟩
      rintro (⟨h, -⟩ | h)
      · exact Bool.false_ne_true (hnosys.symm.trans h)
      · exact hsys (h.imp fun l hl => hl ▸ namesGame_self game)
    rw [removedFrom_iff hfit hz' (by rwa [hnew']), hnew']
    by_cases hstrip : stripBreaks game = game
    · rw [kept_insert hcontains hhead hstrip, ← hsplit, kept_eq_iff]
      refine ⟨fun ⟨honly, hentries⟩ => ?_, fun h => ⟨h.only, h.entries⟩⟩
      exact ⟨hz, hhead, (stripBreaks_eq_self_iff hnl).mp hstrip,
        ⟨hd, hsplit ▸ List.mem_append_right as List.mem_cons_self, hhd⟩, honly, hentries,
        fun h => absurd h hnew⟩
    · refine iff_of_false (fun heq => ?_) fun h => hstrip ((stripBreaks_eq_self_iff hnl).mpr h.last)
      have hle := (withoutEntries_sublist (namesGame game) (lines nl text)).length_le
      rw [← heq, kept_of_breaks hstrip, hsplit] at hle
      simp only [List.length_append, List.length_cons] at hle
      omega

/-- **A game that is added in a new section.** The section stays. -/
theorem not_removedFrom_of_section (hgame : (0 : UInt8) ∉ game) (hz : (0 : UInt8) ∉ text)
    (hno : ∀ l ∈ lines nl text, ¬IsUsrHeader l)
    (hfit : WithinLimits (unlines nl (lines nl text) ++ addedSection game)) :
    ¬RemovedFrom game (unlines nl (lines nl text) ++ addedSection game) (lines nl text) := by
  intro hprop
  have hz' : (0 : UInt8) ∉ unlines nl (lines nl text) ++ addedSection game := by
    have hold : (0 : UInt8) ∉ unlines nl (lines nl text) :=
      notMem_unlines (by decide) fun l hl h => hz (mem_of_mem_lines hl h)
    have hheader : (0 : UInt8) ∉ nl :: usrHeader ++ [nl] := by decide
    have hline : (0 : UInt8) ∉ (game ++ [nl]).take 242 := by
      intro h
      rcases List.mem_append.mp (List.mem_of_mem_take h) with h | h
      · exact hgame h
      · exact absurd (List.mem_singleton.mp h) (by decide)
    have hadded : addedSection game = (nl :: usrHeader ++ [nl]) ++ (game ++ [nl]).take 242 := by
      unfold addedSection
      rw [List.append_assoc]
      rfl
    rw [hadded, List.mem_append, List.mem_append, not_or, not_or]
    exact ⟨hold, hheader, hline⟩
  -- a game that cannot be removed is no case of its own
  by_cases hyes : Unremovable game (lines nl (unlines nl (lines nl text) ++ addedSection game))
  · refine not_removedFrom_of_unremovable hfit ?_ hprop
    rwa [cstr_of_notMem hz']
  · have hheader : usrHeader ∈ lines nl (unlines nl (lines nl text) ++ addedSection game) := by
      have hnl : ∀ l ∈ lines nl text, nl ∉ l := fun l hl => notMem_of_mem_lines hl
      have hblank : lines nl (addedSection game) =
          [] :: usrHeader :: lines nl ((game ++ [nl]).take 242) := by
        unfold addedSection
        rw [List.cons_append]
        have hfirst := lines_append_break (c := nl) List.not_mem_nil
          (usrHeader ++ nl :: (game ++ [nl]).take 242)
        rw [List.nil_append] at hfirst
        rw [hfirst, lines_append_break (by decide)]
      rw [lines_unlines_append hnl, hblank]
      exact List.mem_append_right _ (List.mem_cons_of_mem _ List.mem_cons_self)
    -- the header that was added stays behind, and it was not there before
    have hne : stripBreaks usrHeader ≠ game := by
      rintro rfl
      exact hyes (Or.inr (not_entryOf_of_head (by decide) _))
    have hkept := mem_kept hheader hne
    rw [(removedFrom_iff hfit hz' hyes).mp hprop] at hkept
    exact hno _ (mem_of_mem_withoutEntries hkept) ⟨by decide, by decide⟩

end

/-- A user's section with an indented game. -/
def indentedGame : Bytes := lit "[GAMES_USR]\n  foo  \n"

/-- The content after `doom` is added to a section with one game. -/
theorem gameAdd_doom :
    gameAdd .allOk (lit "doom") (some (lit "[GAMES_USR]\nquake\n")) =
      (errSuccess, some (lit "[GAMES_USR]\ndoom\nquake\n")) := by
  decide +kernel

end X3D
