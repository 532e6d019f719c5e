import X3DToggle.Games

/-!
# Where games are listed

The game list has two files. `games_load` reads `GAMES_SYS`, which is `games.conf`; `game_add`
writes to `CONFIG_PATH`, which is `daemon.conf`. Nothing carries a name from one to the other,
so what `game_add` does is of no consequence for what is detected.

`listedNames` is what the lines of a file list, without the bounds of the array:
`exists_name_iff` says that a list that is not full holds these names, cut to the array.
-/

namespace X3D

/-- The files of a machine. -/
abbrev Fs := Bytes → Option Bytes

/-- `GAMES_SYS`. -/
def gamesSys : Bytes := lit "/etc/x3d-toggle.d/games.conf"

/-- `CONFIG_PATH`, for the `DIR_BIN` of a build. -/
def configPath (dirBin : Bytes) : Bytes := dirBin ++ lit "/daemon.conf"

/-- `games_load`, on the files of a machine. -/
def gamesLoadFs (ok : Bool) (fs : Fs) : GameList := gamesLoad ok (fs gamesSys)

/-- `game_add`, on the files of a machine. -/
def gameAddFs (dirBin : Bytes) (env : GameEnv) (game : Bytes) (fs : Fs) : ℤ × Fs :=
  let (ret, file) := gameAdd env game (fs (configPath dirBin))
  (ret, Function.update fs (configPath dirBin) file)

theorem gamesSys_ne_configPath (dirBin : Bytes) : gamesSys ≠ configPath dirBin := by
  intro h
  -- the two names differ in the last component
  have hdrop : (lit "/daemon.conf") <:+ gamesSys := ⟨dirBin, h.symm⟩
  exact absurd hdrop (by decide)

/-- **`game_add` leaves the list alone.** -/
theorem gamesLoadFs_gameAddFs (ok : Bool) (dirBin : Bytes) (env : GameEnv) (game : Bytes)
    (fs : Fs) : gamesLoadFs ok (gameAddFs dirBin env game fs).2 = gamesLoadFs ok fs := by
  unfold gamesLoadFs gameAddFs
  exact congrArg (gamesLoad ok) (Function.update_of_ne (gamesSys_ne_configPath dirBin) _ _)

/-! ### What a file lists -/

/-- The names the lines of a file list, from inside a game section or from outside. -/
def listedNames : Bool → List Bytes → List Bytes
  | _, [] => []
  | inGames, l :: ls =>
    if l.head? = some (chr '[') then listedNames (isGameHeader l) ls
    else (if inGames then (gameName l).toList else []) ++ listedNames inGames ls

/-- The names `GAMES_SYS` lists in what `games_load` reads of it. -/
def listedGames (ok : Bool) (fs : Fs) : List Bytes :=
  match readFile ok (fs gamesSys) 8191 with
  | none => []
  | some buf => listedNames false (lines nl (cstr buf))

section

variable {gl : GameList} {P : Bytes → Prop}

theorem length_le_push (gl : GameList) (p : Bytes) :
    gl.names.length ≤ (gl.push p).names.length := by
  unfold GameList.push
  split
  · split
    · exact le_rfl
    · rw [List.length_append]
      exact Nat.le_add_right _ _
  · exact le_rfl

/-- A list with room gets the name, or has it. -/
theorem exists_name_push (hroom : gl.names.length < gamesMax) (p : Bytes) :
    (∃ n ∈ (gl.push p).names, P n.val) ↔ (∃ n ∈ gl.names, P n.val) ∨ P (p.take 63) := by
  unfold GameList.push
  rw [dif_pos hroom]
  split
  next hdup =>
    obtain ⟨n, hn, heq⟩ := List.any_eq_true.mp hdup
    have hp : n.val = p := of_decide_eq_true heq
    have hlen : p.length < 64 := hp ▸ n.property
    constructor
    · exact Or.inl
    · rintro (h | h)
      · exact h
      · rw [List.take_of_length_le (by omega), ← hp] at h
        exact ⟨n, hn, h⟩
  next =>
    simp only [List.mem_append, List.mem_singleton]
    constructor
    · rintro ⟨n, hn | rfl, h⟩
      · exact Or.inl ⟨n, hn, h⟩
      · exact Or.inr h
    · rintro (⟨n, hn, h⟩ | h)
      · exact ⟨n, Or.inl hn, h⟩
      · exact ⟨_, Or.inr rfl, h⟩

theorem length_le_gamesLoadLine (acc : Bool × GameList) (l : Bytes) :
    acc.2.names.length ≤ (gamesLoadLine acc l).2.names.length := by
  unfold gamesLoadLine
  split
  · exact le_rfl
  · split
    · exact le_rfl
    · split
      · exact le_rfl
      · split
        · exact le_rfl
        · exact length_le_push _ _

theorem length_le_foldl (acc : Bool × GameList) (ls : List Bytes) :
    acc.2.names.length ≤ (ls.foldl gamesLoadLine acc).2.names.length := by
  induction ls generalizing acc with
  | nil => exact le_rfl
  | cons l ls ih => exact (length_le_gamesLoadLine acc l).trans (ih _)

/-- **Loading rule.** A list that does not fill up holds what it held and what the lines list,
cut to the array. -/
theorem exists_name_foldl (ls : List Bytes) (inGames : Bool) (gl : GameList)
    (hroom : (ls.foldl gamesLoadLine (inGames, gl)).2.names.length < gamesMax) :
    (∃ n ∈ (ls.foldl gamesLoadLine (inGames, gl)).2.names, P n.val) ↔
      (∃ n ∈ gl.names, P n.val) ∨ ∃ p ∈ listedNames inGames ls, P (p.take 63) := by
  induction ls generalizing inGames gl with
  | nil => simp [listedNames]
  | cons l ls ih =>
    rw [List.foldl_cons] at hroom ⊢
    -- the list did not fill up, so there was room at this line
    have hgl : gl.names.length < gamesMax :=
      (length_le_gamesLoadLine (inGames, gl) l).trans_lt ((length_le_foldl _ ls).trans_lt hroom)
    rw [listedNames]
    -- a header moves between sections; only a line of a game section adds a name
    by_cases hheader : l.head? = some (chr '[')
    · have hstep : gamesLoadLine (inGames, gl) l = (isGameHeader l, gl) := by
        rw [gamesLoadLine, if_neg (Nat.not_le.mpr hgl), if_pos hheader]
      rw [hstep] at hroom ⊢
      rw [if_pos hheader]
      exact ih _ _ hroom
    · rw [if_neg hheader]
      cases inGames with
      | false =>
        have hstep : gamesLoadLine (false, gl) l = (false, gl) := by
          rw [gamesLoadLine, if_neg (Nat.not_le.mpr hgl), if_neg hheader]
          rfl
        rw [hstep] at hroom ⊢
        exact ih _ _ hroom
      | true =>
        cases hname : gameName l with
        | none =>
          have hstep : gamesLoadLine (true, gl) l = (true, gl) := by
            rw [gamesLoadLine, if_neg (Nat.not_le.mpr hgl), if_neg hheader, hname]
            rfl
          rw [hstep] at hroom ⊢
          exact ih _ _ hroom
        | some p =>
          have hstep : gamesLoadLine (true, gl) l = (true, gl.push p) := by
            rw [gamesLoadLine, if_neg (Nat.not_le.mpr hgl), if_neg hheader, hname]
            rfl
          rw [hstep] at hroom ⊢
          rw [ih _ _ hroom, exists_name_push hgl, or_assoc]
          simp

theorem exists_name_iff {ok : Bool} {fs : Fs}
    (hroom : (gamesLoadFs ok fs).names.length < gamesMax) :
    (∃ n ∈ (gamesLoadFs ok fs).names, P n.val) ↔ ∃ p ∈ listedGames ok fs, P (p.take 63) := by
  unfold gamesLoadFs gamesLoad listedGames at *
  cases hread : readFile ok (fs gamesSys) 8191 with
  | none => simp [GameList.empty]
  | some buf =>
    simp only [hread] at hroom ⊢
    have hfold := exists_name_foldl (P := P) (lines nl (cstr buf)) false GameList.empty hroom
    simpa [GameList.empty] using hfold

end

/-! ### Detection -/

/-- The names of game lines are not empty. -/
theorem gameName_ne_nil {l p : Bytes} (h : gameName l = some p) : 2 ≤ p.length := by
  simp only [gameName] at h
  split at h
  · exact absurd h (by simp)
  next hp =>
    rw [not_or, not_or] at hp
    rw [← Option.some.inj h]
    omega

theorem length_of_mem_listedNames {ls : List Bytes} {inGames : Bool} {p : Bytes}
    (h : p ∈ listedNames inGames ls) : 2 ≤ p.length := by
  induction ls generalizing inGames with
  | nil => exact absurd h List.not_mem_nil
  | cons l ls ih =>
    rw [listedNames] at h
    split at h
    · exact ih h
    · rcases List.mem_append.mp h with hl | hls
      · split at hl
        · exact gameName_ne_nil (Option.mem_toList.mp hl)
        · exact absurd hl List.not_mem_nil
      · exact ih hls

/-- A list matches all command lines with a text exactly if one of its names occurs in the
text. -/
theorem forall_gamesMatch_iff {gl : GameList} {game : Bytes} (hgame : game ≠ []) :
    (∀ comm, game <:+: comm → gamesMatch gl comm = true) ↔
      ∃ n ∈ gl.names, n.val ≠ [] ∧ n.val <:+: game := by
  have hmatch (comm : Bytes) : gamesMatch gl comm = true ↔
      comm ≠ [] ∧ ∃ n ∈ gl.names, n.val ≠ [] ∧ n.val <:+: comm := by
    simp [gamesMatch, contains_iff]
  simp only [hmatch]
  constructor
  · exact fun h => (h game (List.infix_refl game)).2
  · rintro ⟨n, hn, hne, hocc⟩ comm hcomm
    refine ⟨?_, n, hn, hne, hocc.trans hcomm⟩
    rintro rfl
    exact hgame (List.infix_nil.mp hcomm)

/-- **When an added game is detected.** After `game_add` of a game, whatever came of it, the list
loaded next matches every command line with the game in it exactly if `games.conf` lists a name
already that occurs in the game. -/
theorem gameAdd_detected_iff (dirBin : Bytes) (env : GameEnv) (ok : Bool) (fs : Fs) {game : Bytes}
    (hgame : game ≠ [])
    (hroom : (gamesLoadFs ok (gameAddFs dirBin env game fs).2).names.length < gamesMax) :
    (∀ comm, game <:+: comm →
        gamesMatch (gamesLoadFs ok (gameAddFs dirBin env game fs).2) comm = true) ↔
      ∃ p ∈ listedGames ok fs, p.take 63 <:+: game := by
  rw [gamesLoadFs_gameAddFs] at hroom ⊢
  rw [forall_gamesMatch_iff hgame, exists_name_iff (P := fun n => n ≠ [] ∧ n <:+: game) hroom]
  constructor
  · rintro ⟨p, hp, -, hocc⟩
    exact ⟨p, hp, hocc⟩
  · rintro ⟨p, hp, hocc⟩
    refine ⟨p, hp, ?_, hocc⟩
    unfold listedGames at hp
    split at hp
    · exact absurd hp List.not_mem_nil
    · have hlen := length_of_mem_listedNames hp
      rw [Ne, List.take_eq_nil_iff]
      rintro (h | rfl)
      · omega
      · exact absurd hlen (by simp)

/-! ### A game that is not detected -/

/-- A name as `game_add` is given it. -/
structure IsGame (game : Bytes) : Prop where
  length : 2 ≤ game.length ∧ game.length ≤ 63
  line : nl ∉ game ∧ (0 : UInt8) ∉ game
  head : ∀ c ∈ game.head?, isspace c = false ∧ c ≠ chr '#' ∧ c ≠ chr '['
  last : ∀ c ∈ game.getLast?, isspace c = false

instance (game : Bytes) : Decidable (IsGame game) :=
  decidable_of_iff (((2 ≤ game.length ∧ game.length ≤ 63) ∧ (nl ∉ game ∧ (0 : UInt8) ∉ game)) ∧
      (∀ c ∈ game.head?, isspace c = false ∧ c ≠ chr '#' ∧ c ≠ chr '[') ∧
      ∀ c ∈ game.getLast?, isspace c = false)
    ⟨fun h => ⟨h.1.1, h.1.2, h.2.1, h.2.2⟩, fun h => ⟨⟨h.length, h.line⟩, h.head, h.last⟩⟩

/-- The text `game_add` sets out to write. -/
def addedText (env : GameEnv) (game : Bytes) (file : Option Bytes) : Bytes :=
  (addedLines game (scanGames trimWs game (readFile env.openRd file 16383))).flatten

/-- Every call of the editors succeeds. -/
def GameEnv.allOk : GameEnv where
  openRd := true
  malloc := true
  realloc := true
  openWr := true
  written := 2 ^ 20

/-- A machine with an empty user section in `daemon.conf` and one game in `games.conf`. -/
def twoFiles : Fs := fun path =>
  if path = configPath (lit "/etc/x3d-toggle.d") then some (lit "[GAMES_USR]\n")
  else if path = gamesSys then some (lit "[GAMES_SYS]\nquake\n")
  else none

/-- `doom` is added and not detected. -/
theorem added_game_undetected :
    ¬∀ (dirBin : Bytes) (env : GameEnv) (ok : Bool) (fs : Fs) (game : Bytes), IsGame game →
      (gameAddFs dirBin env game fs).1 = errSuccess →
      (gameAddFs dirBin env game fs).2 (configPath dirBin) =
        some (addedText env game (fs (configPath dirBin))) →
      (gamesLoadFs ok (gameAddFs dirBin env game fs).2).names.length < gamesMax →
      ∀ comm, game <:+: comm →
        gamesMatch (gamesLoadFs ok (gameAddFs dirBin env game fs).2) comm = true := by
  intro h
  have hmatch := h (lit "/etc/x3d-toggle.d") .allOk true twoFiles (lit "doom") (by decide +kernel)
    (by decide) (by decide) (by decide) (lit "doom") (List.infix_refl _)
  have hnot : gamesMatch (gamesLoadFs true
      (gameAddFs (lit "/etc/x3d-toggle.d") .allOk (lit "doom") twoFiles).2) (lit "doom") =
      false := by
    decide
  exact Bool.noConfusion (hnot.symm.trans hmatch)

/-- The rule for that game. -/
theorem gameAdd_detected_iff_twoFiles :
    (∀ comm, lit "doom" <:+: comm → gamesMatch (gamesLoadFs true
        (gameAddFs (lit "/etc/x3d-toggle.d") .allOk (lit "doom") twoFiles).2) comm = true) ↔
      ∃ p ∈ listedGames true twoFiles, p.take 63 <:+: lit "doom" :=
  gameAdd_detected_iff (lit "/etc/x3d-toggle.d") .allOk true twoFiles (by decide)
    (by decide)

end X3D
