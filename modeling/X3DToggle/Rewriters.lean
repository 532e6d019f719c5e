import X3DToggle.AddRemove
import X3DToggle.Config.Laws
import X3DToggle.LineArray

/-!
# The rewriters of `daemon.conf`

`config_update`, `game_add` and `game_remove` read the file into a buffer, put it together again
with one change, and write it back over the old one. Whatever the buffers do not hold is lost with
the rewrite: `config_update` has room for 8191 bytes on either side, the editors for 16383 bytes,
in slots of 255, and `game_add` for 64 lines. A file that cannot be read is empty for `game_add`.

`Fits` collects these limits, and the lines `game_remove` takes out by mistake. Within them every
line but the one in question is in the new file, whole and in its place (`keepsLines_of_fits`).
-/

namespace X3D

/-- The calls that rewrite the file. -/
inductive Rewriter where
  | update (key val : Bytes)
  | add (game : Bytes)
  | remove (game : Bytes)

/-- The outcomes of the other calls of a rewriter whose writes succeed. -/
structure RewriteEnv where
  -- the file can be opened for reading and read
  openRd : Bool
  malloc : Bool
  realloc : Bool

namespace RewriteEnv

/-- As `config_update` sees them. -/
def update (env : RewriteEnv) : UpdateEnv := { UpdateEnv.allOk with openRd := env.openRd }

/-- As the editors of the list of games see them. -/
def game (env : RewriteEnv) : GameEnv :=
  { GameEnv.allOk with openRd := env.openRd, malloc := env.malloc, realloc := env.realloc }

end RewriteEnv

namespace Rewriter

/-- The file after the call. -/
def rewrite (env : RewriteEnv) (t : Bytes) : Rewriter → Option Bytes
  | update key val => configUpdate env.update key val (some t)
  | add game => (gameAdd env.game game (some t)).2
  | remove game => (gameRemove env.game game (some t)).2

/-- The lines the call was not asked to change. -/
def untouched (ls : List Bytes) : Rewriter → List Bytes
  | update key _ => ls.filter (!isKeyLine key ·)
  | add _ => ls
  | remove game => withoutEntries (· = game) ls

/-- The call gets as far as to write the file. -/
def Rewrites (env : RewriteEnv) (t : Bytes) : Rewriter → Prop
  | update _ _ => env.openRd = true ∧ t ≠ []
  | add game =>
    let s := scanGames trimWs game (readFile env.openRd (some t) 16383)
    env.malloc = true ∧ s.foundSys = false ∧ s.foundUsr = false ∧ s.lines.length < 1024 ∧
      (64 ≤ s.lines.length → env.realloc = true)
  | remove game =>
    let s := scanGames id game (readFile env.openRd (some t) 16383)
    s.foundSys = false ∧ s.foundUsr = true

/-- It keeps to its memory. -/
def InBounds (env : RewriteEnv) (t : Bytes) : Rewriter → Prop
  | add game => ∀ mem, ∀ x ∈ (gameAddArray mem env.game game (some t)).2, x.index < x.cap
  | _ => True

/-- **The property.** After a rewrite the lines are in the new file, whole and in the same order. -/
def KeepsLines (env : RewriteEnv) (t : Bytes) (r : Rewriter) : Prop :=
  r.Rewrites env t → r.InBounds env t ∧ ∃ t', r.rewrite env t = some t' ∧
    (r.untouched (lines nl t)).Sublist (lines nl t')

/-- What the call has to carry over fits its buffers. -/
def Fits (env : RewriteEnv) (t : Bytes) : Rewriter → Prop
  | update key val =>
    -- the first lines are read and written whole, and below them are lines of the key only
    ∃ xs ys vs, lines nl t = xs ++ ys ∧ lines nl (t.take 8191) = xs ++ vs ∧
      (∀ l ∈ ys, isKeyLine key l = true) ∧
      (unlines nl (xs.map fun l => if isKeyLine key l then assignment key val else l)).length ≤ 8191
  | add game =>
    env.openRd = true ∧ lines nl (t.take 16383) = lines nl t ∧ (lines nl t).length ≤ 64 ∧
      (∀ l ∈ lines nl t, l.length < 255) ∧
      -- the line that is added must not run into the next one
      (game.length < 255 ∨ ∀ l ∈ lines nl t, ¬IsUsrHeader l)
  | remove game =>
    lines nl (t.take 16383) = lines nl t ∧ (lines nl t).length ≤ 1024 ∧
      (∀ l ∈ lines nl t, l.length < 255) ∧ OnlyEntries (· = game) game (lines nl t)

end Rewriter

/-! ### What `config_update` keeps -/

section

variable {key val t : Bytes}

/-- Replacing the lines of a key keeps the others. -/
theorem filter_sublist_replaced (key val : Bytes) {ls : List Bytes} (hls : ∀ l ∈ ls, nl ∉ l) :
    (ls.filter (!isKeyLine key ·)).Sublist
      ((ls.map fun l => if isKeyLine key l then assignment key val else l).flatMap
        fun l => lines nl (l ++ [nl])) := by
  induction ls with
  | nil => exact List.Sublist.refl _
  | cons l ls ih =>
    have ih := ih fun m hm => hls m (List.mem_cons_of_mem l hm)
    rw [List.map_cons, List.flatMap_cons]
    by_cases hl : isKeyLine key l = true
    · rw [List.filter_cons_of_neg (by simpa using hl)]
      exact ih.trans (List.sublist_append_right _ _)
    · have hself : lines nl (l ++ [nl]) = [l] := lines_append_break (hls l List.mem_cons_self) []
      rw [List.filter_cons_of_pos (by simpa using hl), if_neg hl, hself]
      exact ih.cons_cons l

/-- The placed lines begin with what the first lines become, and below are the other lines and the
new one. -/
theorem placed_append (key val : Bytes) (xs ys : List Bytes) :
    ∃ ws, placed key val (xs ++ ys) =
        (xs.map fun l => if isKeyLine key l then assignment key val else l) ++ ws ∧
      ∀ l ∈ ws, l ∈ ys ∨ l = assignment key val := by
  unfold placed
  by_cases hany : (xs ++ ys).any (isKeyLine key) = true
  · rw [if_pos hany, List.map_append]
    refine ⟨_, rfl, fun l hl => ?_⟩
    obtain ⟨m, hm, rfl⟩ := List.mem_map.mp hl
    split
    · exact Or.inr rfl
    · exact Or.inl hm
  · have hcopy : (xs.map fun l => if isKeyLine key l then assignment key val else l) = xs := by
      refine (List.map_congr_left fun l hl => ?_).trans (List.map_id _)
      exact if_neg fun hkey =>
        hany (List.any_eq_true.mpr ⟨l, List.mem_append_left _ hl, hkey⟩)
    rw [if_neg hany, hcopy, List.append_assoc]
    refine ⟨_, rfl, fun l hl => ?_⟩
    rwa [List.mem_append, List.mem_singleton] at hl

/-- The text `config_update` writes. -/
theorem configUpdate_update {env : RewriteEnv} (hz : (0 : UInt8) ∉ t)
    (h : (Rewriter.update key val).Rewrites env t) :
    configUpdate env.update key val (some t) =
      some ((unlines nl (placed key val (lines nl (t.take 8191)))).take 8191) :=
  configUpdate_of_calls h.1 rfl h.2 hz

end

/-! ### What the editors keep -/

section

variable {game t : Bytes}

/-- The second pass of `game_remove` keeps what it does not take for an entry of the game. -/
theorem withoutEntries_sublist_kept {ls : List Bytes} (h : OnlyEntries (· = game) game ls) :
    (withoutEntries (· = game) ls).Sublist (kept game ls) := by
  rw [kept_eq_marks, withoutEntries_eq_marks]
  refine List.Sublist.map _ ?_
  have himp : ∀ p ∈ marks ls, (p.2.2 && decide (stripBreaks p.1 = game)) = true →
      (isEntry (p.1, p.2.1) && decide (p.1 = game)) = true := by
    intro p hp hdrop
    obtain ⟨hmark, hstrip⟩ := Bool.and_eq_true_iff.mp hdrop
    exact Bool.and_eq_true_iff.mpr (h p hp hmark (of_decide_eq_true hstrip))
  have hfilter : ((marks ls).filter fun p => !(isEntry (p.1, p.2.1) && decide (p.1 = game))) =
      ((marks ls).filter fun p => !(p.2.2 && decide (stripBreaks p.1 = game))).filter
        fun p => !(isEntry (p.1, p.2.1) && decide (p.1 = game)) := by
    rw [List.filter_filter]
    refine List.filter_congr fun p hp => ?_
    cases hdrop : p.2.2 && decide (stripBreaks p.1 = game) with
    | false => rw [Bool.not_false, Bool.and_true]
    | true => rw [himp p hp hdrop, Bool.not_true, Bool.false_and]
  rw [hfilter]
  exact List.filter_sublist

/-- `game_add` keeps the lines around the one it adds. -/
theorem sublist_lines_gameAdd (hz : (0 : UInt8) ∉ t) (h : WithinLimits t)
    (hroom : (lines nl t).length < 1024)
    (hadded : game.length < 255 ∨ ∀ l ∈ lines nl t, ¬IsUsrHeader l) :
    ∃ t', (gameAdd .allOk game (some t)).2 = some t' ∧ (lines nl t).Sublist (lines nl t') := by
  have hself := cstr_of_notMem hz
  have hlines : ∀ l ∈ lines nl t, nl ∉ l := fun l hl => notMem_of_mem_lines hl
  by_cases hlisted : HasEntry sysHeader (trimWs · = game) false (lines nl t) ∨
      HasEntry usrHeader (trimWs · = game) false (lines nl t)
  · rw [← hself] at hlisted
    refine ⟨t, ?_, List.Sublist.refl _⟩
    rw [gameAdd_of_listed (hself.symm ▸ h) h.length hlisted]
  · obtain ⟨hsys, husr⟩ := not_or.mp hlisted
    rcases gameAdd_of_new hz h hroom hsys husr with ⟨as, hd, bs, hsplit, hhd, hadd⟩ | ⟨-, hadd⟩
    · refine ⟨_, congrArg Prod.snd hadd, ?_⟩
      -- the line is put below a header, so it must not swallow the one behind it
      have hshort : game.length < 255 := hadded.resolve_right fun hno =>
        hno hd (hsplit ▸ List.mem_append_right _ List.mem_cons_self) hhd
      have hline : addedLine game = game ++ [nl] := by
        rw [addedLine, List.take_of_length_le]
        rw [List.length_append, List.length_singleton]
        exact hshort
      rw [hsplit] at hlines ⊢
      have habove : ∀ l ∈ as ++ [hd], nl ∉ l := by
        intro l hl
        refine hlines l ?_
        rw [List.append_cons]
        exact List.mem_append_left _ hl
      have hbelow : ∀ l ∈ bs, nl ∉ l := fun l hl =>
        hlines l (List.mem_append_right _ (List.mem_cons_of_mem _ hl))
      have hrest : lines nl (addedLine game ++ unlines nl bs) = lines nl (game ++ [nl]) ++ bs := by
        rw [hline, List.append_assoc, List.singleton_append, lines_append, lines_unlines hbelow]
      rw [lines_unlines_append habove, hrest, List.append_cons]
      exact (List.sublist_append_right _ _).append_left _
    · refine ⟨_, congrArg Prod.snd hadd, ?_⟩
      rw [lines_unlines_append hlines]
      exact List.sublist_append_left _ _

end

/-! ### The three together -/

section

variable {env : RewriteEnv} {t : Bytes}

/-- A rewrite by `game_add` sees the part of the file that it reads. -/
theorem rewrite_add (hread : env.openRd = true) {game : Bytes}
    (h : (Rewriter.add game).Rewrites env t) :
    (gameAdd env.game game (some t)).2 = (gameAdd .allOk game (some (t.take 16383))).2 := by
  obtain ⟨hmalloc, hsys, husr, hcount, hgrow⟩ := h
  have hscan : scanGames trimWs game (readFile GameEnv.allOk.openRd (some (t.take 16383)) 16383) =
      scanGames trimWs game (readFile env.openRd (some t) 16383) := by
    rw [hread, show GameEnv.allOk.openRd = true from rfl, readFile_take]
  have hmachine : env.game.malloc = true := hmalloc
  rw [gameAdd_writes hscan rfl hsys husr hcount fun _ => rfl,
    gameAdd_writes rfl hmachine hsys husr hcount hgrow]
  rfl

/-- And so does one by `game_remove`, which does nothing on a file it cannot read. -/
theorem rewrite_remove {game : Bytes} (h : (Rewriter.remove game).Rewrites env t) :
    (gameRemove env.game game (some t)).2 = (gameRemove .allOk game (some (t.take 16383))).2 := by
  obtain ⟨hsys, husr⟩ := h
  have hread : env.openRd = true := by
    by_contra hno
    rw [Bool.eq_false_of_not_eq_true hno] at husr
    exact Bool.false_ne_true husr
  rw [hread, ← readFile_take] at hsys husr
  unfold gameRemove
  rw [show env.game.openRd = env.openRd from rfl, hread, show GameEnv.allOk.openRd = true from rfl,
    ← readFile_take t]
  dsimp only
  rw [hsys, husr]
  rfl

/-- Nor does `game_add` leave its allocation then. -/
theorem inBounds_add (hz : (0 : UInt8) ∉ t) (h : (lines nl t).length ≤ 64) (game : Bytes) :
    (Rewriter.add game).InBounds env t := by
  intro mem
  have hread : (linesRead env.game (some t)).length ≤ 64 := by
    unfold linesRead readFile
    dsimp only
    split
    · exact Nat.zero_le _
    · next buf hbuf =>
      split at hbuf
      · rw [← Option.some.inj hbuf, cstr_of_notMem fun hmem => hz (List.mem_of_mem_take hmem),
          lines_take]
        have hvisible := length_visible_le 16383 (lines nl t)
        rw [List.length_take]
        omega
      · exact absurd hbuf.symm (Option.some_ne_none _)
  cases hmalloc : env.game.malloc with
  | false =>
    unfold gameAddArray
    rw [hmalloc, if_pos (by decide)]
    exact fun x hx => absurd hx List.not_mem_nil
  | true =>
    rw [inBounds_gameAddArray mem game (some t) hmalloc, inBounds_scanArray]
    exact hread

/-- **Within the limits nothing is dropped.** -/
theorem keepsLines_of_fits {r : Rewriter} (hz : (0 : UInt8) ∉ t)
    (h : r.Rewrites env t → r.Fits env t) : r.KeepsLines env t := by
  intro hrw
  have hz' : (0 : UInt8) ∉ t.take 16383 := fun hmem => hz (List.mem_of_mem_take hmem)
  have hself := cstr_of_notMem hz'
  have hlines : ∀ l ∈ lines nl t, nl ∉ l := fun l hl => notMem_of_mem_lines hl
  have hlen : (t.take 16383).length ≤ 16383 := List.length_take_le _ _
  cases r with
  | update key val =>
    -- the lines behind the cut hold nothing but the key
    obtain ⟨xs, ys, vs, hsplit, hread, hbelow, hroom⟩ := h hrw
    refine ⟨trivial, _, configUpdate_update hz hrw, ?_⟩
    obtain ⟨ws, hplaced, -⟩ := placed_append key val xs vs
    have hnone : ys.filter (!isKeyLine key ·) = [] := by
      rw [List.filter_eq_nil_iff]
      intro l hl
      rw [hbelow l hl]
      exact Bool.false_ne_true
    rw [hread, hplaced, unlines_append, List.take_append, List.take_of_length_le hroom,
      lines_unlines_flatMap, Rewriter.untouched, hsplit, List.filter_append, hnone, List.append_nil]
    rw [hsplit] at hlines
    exact (filter_sublist_replaced key val fun l hl =>
      hlines l (List.mem_append_left _ hl)).trans (List.sublist_append_left _ _)
  | add game =>
    -- the array has a slot for each line, and each line has room in its own
    obtain ⟨hread, hvisible, hcount, hshort, hadded⟩ := h hrw
    refine ⟨inBounds_add hz hcount game, ?_⟩
    rw [← hvisible] at hcount hshort hadded
    rw [Rewriter.rewrite, rewrite_add hread hrw, Rewriter.untouched, ← hvisible]
    exact sublist_lines_gameAdd hz' ⟨by omega, hshort, hlen⟩ (by omega) hadded
  | remove game =>
    obtain ⟨hvisible, hcount, hshort, honly⟩ := h hrw
    refine ⟨trivial, ?_⟩
    rw [← hvisible] at hcount hshort honly
    have hlimits : WithinLimits (t.take 16383) := ⟨hcount, hshort, hlen⟩
    rw [Rewriter.rewrite, rewrite_remove hrw, Rewriter.untouched, ← hvisible]
    by_cases hno : Unremovable game (lines nl (t.take 16383))
    · rw [gameRemove_of_unremovable game hlimits.cstr hlen (hself.symm ▸ hno)]
      exact ⟨_, rfl, withoutEntries_sublist _ _⟩
    · rw [gameRemove_of_removable game hlimits.cstr hlen (hself.symm ▸ hno), hself]
      refine ⟨_, rfl, ?_⟩
      rw [lines_unlines notMem_of_mem_kept]
      exact withoutEntries_sublist_kept honly

end

/-- A line that is longer than the buffers. -/
def longLine : Bytes := List.replicate 8192 (chr 'a')

/-- `config_update` cuts it. -/
theorem long_line_cut :
    ¬∀ (env : RewriteEnv) (t : Bytes) (r : Rewriter), (0 : UInt8) ∉ t → r.KeepsLines env t := by
  intro h
  have hplain (c : UInt8) (hc : c ≠ chr 'a') : c ∉ longLine := fun hmem =>
    hc (List.eq_of_mem_replicate hmem)
  have hlen : longLine.length = 8192 := List.length_replicate
  have hrw : (Rewriter.update (lit "K") (lit "1")).Rewrites ⟨true, true, true⟩ longLine :=
    ⟨rfl, List.ne_nil_of_length_pos (by omega)⟩
  obtain ⟨-, t', ht', hsub⟩ := h ⟨true, true, true⟩ longLine (.update (lit "K") (lit "1"))
    (hplain 0 (by decide)) hrw
  have hlines : lines nl longLine = [longLine] := by
    rw [lines_of_notMem (hplain nl (by decide)), if_neg (List.ne_nil_of_length_pos (by omega))]
  have hkey : isKeyLine (lit "K") longLine = false := by
    rw [Bool.eq_false_iff]
    intro hkey
    obtain ⟨val, hval⟩ := isKeyLine_iff.mp hkey
    exact hplain (chr '=') (by decide) (hval ▸ List.mem_append_right _ List.mem_cons_self)
  have hmem : longLine ∈ lines nl t' := by
    refine hsub.subset ?_
    rw [Rewriter.untouched, hlines, List.filter_singleton, hkey]
    exact List.mem_singleton_self _
  -- what is written has no line of that length
  have hshort : t'.length ≤ 8191 := by
    rw [← Option.some.inj ((configUpdate_update (hplain 0 (by decide)) hrw).symm.trans ht')]
    exact List.length_take_le _ _
  have hle : longLine.length + 1 ≤ t'.length + 1 := by
    have hpiece : (longLine ++ [nl]).Sublist (unlines nl (lines nl t')) :=
      List.sublist_flatten_of_mem (List.mem_map_of_mem hmem)
    have htotal := hpiece.length_le.trans (length_unlines_lines_le t')
    rwa [List.length_append, List.length_singleton] at htotal
  omega

/-- The rule for a game added to a section with one. -/
theorem keepsLines_of_fits_oneGame :
    (Rewriter.add (lit "quake")).KeepsLines ⟨true, true, true⟩ (lit "[GAMES_USR]\ndoom\n") :=
  keepsLines_of_fits (by decide) fun _ =>
    ⟨rfl, by decide, by decide, by decide, Or.inl (by decide)⟩

end X3D
