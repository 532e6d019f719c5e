import X3DToggle.GameFiles
import X3DToggle.Lib.Machine
import X3DToggle.Shell

/-!
# The user's games across a regeneration

`usrGames` is the list of the `[GAMES_USR]` sections, as the programs that read them see it: a
header begins in the first column, and each line below names a game (`foundUsr_scanGames`). The
script keeps the lines of the section, but it joins them to one, and puts four blanks before the
header it writes. What it leaves has no section, whatever it started from
(`usrGames_generated`).
-/

namespace X3D

/-- The games the lines of a file name for the user, from inside a section. -/
def usrNames : GameSection → List Bytes → List Bytes
  | _, [] => []
  | current, l :: ls =>
    if l.head? = some (chr '[') then usrNames (headerSection l) ls
    else
      (if current = .usr ∧ trimWs l ≠ [] ∧ (trimWs l).head? ≠ some (chr '#') then [trimWs l]
        else []) ++ usrNames current ls

/-- The games of the user in `daemon.conf`. -/
def usrGames (file : Option Bytes) : List Bytes :=
  match file with
  | none => []
  | some text => usrNames .none (lines nl text)

/-! ### What a scan finds -/

section

variable {game : Bytes}

/-- **Scanning rule.** A scan has found a game if it had, or if the lines name it. -/
theorem foundUsr_foldl (hgame : game ≠ []) (hhash : game.head? ≠ some (chr '#')) {ls : List Bytes}
    (hshort : ∀ l ∈ ls, l.length ≤ 255) (s : GameScan) :
    (ls.foldl (scanLine trimWs game) s).foundUsr = true ↔
      s.foundUsr = true ∨ game ∈ usrNames s.current ls := by
  induction ls generalizing s with
  | nil => simp [usrNames]
  | cons l ls ih =>
    rw [List.foldl_cons, ih fun m hm => hshort m (List.mem_cons_of_mem l hm), usrNames]
    by_cases hheader : l.head? = some (chr '[')
    · -- a header changes the section and finds nothing
      rw [if_pos hheader, scanLine, if_pos hheader]
    · have hclean : printfSn 256 (lit "%s") [.str l] = l := by
        rw [printfSn_s, List.take_of_length_le (hshort l List.mem_cons_self)]
      rw [if_neg hheader, scanLine, if_neg hheader, hclean, List.mem_append]
      have hname : (decide (s.current = .usr) && decide (trimWs l = game)) = true ↔
          game ∈ if s.current = .usr ∧ trimWs l ≠ [] ∧ (trimWs l).head? ≠ some (chr '#')
            then [trimWs l] else [] := by
        rw [Bool.and_eq_true, decide_eq_true_iff, decide_eq_true_iff]
        constructor
        · rintro ⟨hcur, rfl⟩
          rw [if_pos ⟨hcur, hgame, hhash⟩]
          exact List.mem_singleton_self _
        · intro hmem
          split at hmem
          next hlisted => exact ⟨hlisted.1, (List.mem_singleton.mp hmem).symm⟩
          next => exact absurd hmem List.not_mem_nil
      dsimp only
      rw [Bool.or_eq_true, hname, or_assoc]

/-- `game_add` takes a game for listed exactly if the list has it, in a file it can take in. -/
theorem foundUsr_scanGames (hgame : game ≠ []) (hhash : game.head? ≠ some (chr '#')) {text : Bytes}
    (hz : (0 : UInt8) ∉ text) (hcount : (lines nl text).length ≤ 1024)
    (hshort : ∀ l ∈ lines nl text, l.length ≤ 255) :
    (scanGames trimWs game (some text)).foundUsr = true ↔ game ∈ usrGames (some text) := by
  have htake : (lines nl (cstr text)).take 1024 = lines nl text := by
    rw [cstr_of_notMem hz, List.take_of_length_le hcount]
  unfold scanGames usrGames
  dsimp only
  rw [htake, foundUsr_foldl hgame hhash hshort]
  exact or_iff_right Bool.false_ne_true

end

/-! ### What a regeneration leaves -/

/-- Outside a section lines without a header name nothing. -/
theorem usrNames_append {ls : List Bytes} (h : ∀ l ∈ ls, l.head? ≠ some (chr '['))
    (ms : List Bytes) : usrNames .none (ls ++ ms) = usrNames .none ms := by
  induction ls with
  | nil => rfl
  | cons l ls ih =>
    rw [List.cons_append, usrNames, if_neg (h l List.mem_cons_self), if_neg, List.nil_append,
      ih fun m hm => h m (List.mem_cons_of_mem l hm)]
    exact fun hsec => absurd hsec.1 (by decide)

/-- No line above the user's begins a section, if those of `games.conf` do not. -/
theorem head_of_mem_generatedLines {vars : ShellVars} {games l : Bytes}
    (hgames : ∀ m ∈ gameLines games, m.head? ≠ some (chr '['))
    (hl : l ∈ generatedLines vars games) : l.head? ≠ some (chr '[') := by
  have hblank : l.head? = some (chr ' ') → l.head? ≠ some (chr '[') := by
    intro h
    rw [h]
    decide
  have hheader (name : Bytes) (hname : name.head? = some (chr '[')) (hmem : l ∈ stepLines name) :
      l.head? ≠ some (chr '[') :=
    hblank (head_of_mem_stepLines hname (by decide) (by decide) hmem)
  simp only [generatedLines, List.mem_append, List.mem_singleton] at hl
  rcases hl with ((((hl | rfl) | hl) | hl) | rfl) | hl
  · exact hblank (head_of_mem_settingLines hl)
  · exact Option.some_ne_none _ ∘ Eq.symm
  · exact hheader _ (by decide) hl
  · exact hgames l hl
  · exact Option.some_ne_none _ ∘ Eq.symm
  · exact hheader _ (by decide) hl

/-- **A generated file lists no games of the user.** -/
theorem usrGames_generated {games : Bytes}
    (hgames : ∀ l ∈ gameLines games, l.head? ≠ some (chr '[')) (vars : ShellVars)
    (file : Option Bytes) : usrGames (some (generated vars games file)) = [] := by
  unfold usrGames
  dsimp only
  rw [lines_generated, usrNames_append fun l hl => head_of_mem_generatedLines hgames hl,
    lines_of_notMem (notMem_usrContent file).1]
  -- the user's part is one line, which may look like a header but has none below it
  split
  · rfl
  · rw [usrNames]
    split <;> rfl

theorem gamesConf_noHeader : ∀ l ∈ gameLines gamesConf, l.head? ≠ some (chr '[') := by
  intro l hl h
  rw [head_of_mem_gameLines_gamesConf l hl] at h
  exact absurd h (by decide)

/-- One regeneration keeps the list if it is empty, or if `guard` ends the script. -/
theorem usrGames_configShUpdate_eq_iff (vars : ShellVars) (file : Option Bytes) :
    usrGames (configShUpdate vars gamesConf file) = usrGames file ↔
      (∃ key ∈ guardedVars, vars key = []) ∨ usrGames file = [] := by
  unfold configShUpdate
  split
  next hunset => exact ⟨fun _ => Or.inl hunset, fun _ => rfl⟩
  next hset =>
    rw [usrGames_generated gamesConf_noHeader, or_iff_right hset]
    exact eq_comm

/-! ### Any history -/

/-- What rewrites `daemon.conf`. -/
inductive GameOp where
  | update (vars : ShellVars)
  | add (env : GameEnv) (game : Bytes)
  | remove (env : GameEnv) (game : Bytes)

/-- The content of `daemon.conf` under regenerations and edits of the list. -/
def gameMachine : Machine (Option Bytes) GameOp where
  init _ := True
  step op file := match op with
    | .update vars => some (configShUpdate vars gamesConf file)
    | .add env game => some (gameAdd env game file).2
    | .remove env game => some (gameRemove env game file).2

/-- A regeneration keeps the list. -/
def KeepsGames (op : GameOp) (file : Option Bytes) : Prop :=
  ∀ vars, op = .update vars → usrGames (configShUpdate vars gamesConf file) = usrGames file

/-- A regeneration has no list to keep, or does nothing. -/
def NothingToKeep (op : GameOp) (file : Option Bytes) : Prop :=
  ∀ vars, op = .update vars → (∃ key ∈ guardedVars, vars key = []) ∨ usrGames file = []

/-- **The user's games survive** a history exactly if every regeneration in it finds none. -/
theorem guarded_keepsGames_iff (ops : List GameOp) (file : Option Bytes) :
    gameMachine.Guarded KeepsGames ops file ↔ gameMachine.Guarded NothingToKeep ops file := by
  apply Machine.guarded_congr
  intro op file
  refine forall_congr' fun vars => imp_congr_right fun _ => ?_
  exact usrGames_configShUpdate_eq_iff vars file

/-- The file after `game_add` has put a game into a new one. -/
def addedFile : Option Bytes := some (lit "\n[GAMES_USR]\nfoo\n")

theorem user_game_lost :
    ¬ ∀ (ops : List GameOp) (file file' : Option Bytes) (vars : ShellVars),
      gameMachine.run ops file = some file' →
        usrGames (configShUpdate vars gamesConf file') = usrGames file' := by
  intro h
  have hrun : gameMachine.run [.add .allOk (lit "foo")] none = some addedFile := by
    decide
  have hkept := h _ none addedFile onesVars hrun
  have hset : ¬∃ key ∈ guardedVars, onesVars key = [] := by
    rintro ⟨key, hkey, hnil⟩
    exact onesVars_ne_nil key hkey hnil
  have hempty := ((usrGames_configShUpdate_eq_iff _ _).mp hkept).resolve_left hset
  exact absurd hempty (by decide)

end X3D
