import X3DToggle.GameFiles

/-!
# The list `games_load` builds

`games_load` is meant to store each name the file lists once, cut to the array, in the order of
the file, until the array is full: `LoadsDistinct`. It looks for a name among the stored ones
before it cuts it, so a name that does not fit the array is never found there, and a second name
with the same first 63 bytes is stored as a second copy.

`names_gamesLoad` removes the bounds from the loop: the names stored are a fold of `pushName` over
the names listed. `nodup_foldl_pushName` follows the fold name by name, and `gamesLoad_iff` says
for which files the list is as intended.
-/

namespace X3D

/-- A name as the array holds it. -/
abbrev stored (p : Bytes) : Bytes := p.take 63

/-- One name that is listed, on the names stored. -/
def pushName (ns : List Bytes) (p : Bytes) : List Bytes :=
  if ns.length < gamesMax then
    if p ∈ ns then ns else ns ++ [stored p]
  else ns

/-- The list holds the names the lines list, cut to the array, each once and in their order, up to
the first 512. -/
structure LoadsDistinct (gl : GameList) (ls : List Bytes) : Prop where
  distinct : (gl.names.map (·.val)).Nodup
  count : gl.names.length ≤ gamesMax
  names : gl.names.map (·.val) =
    (((listedNames false ls).map stored).eraseDups).take gamesMax

/-- No name too long for the array is met while there is room and a name with the same beginning
has been listed. -/
def CutsDiffer (names : List Bytes) : Prop :=
  ∀ xs p ys, names = xs ++ p :: ys → 63 < p.length →
    (xs.map stored).eraseDups.length < gamesMax → stored p ∉ xs.map stored

/-! ### The loop without its bounds -/

section

variable {ns ns' : List Bytes} {p : Bytes}

theorem names_push (gl : GameList) (p : Bytes) :
    (gl.push p).names.map (·.val) = pushName (gl.names.map (·.val)) p := by
  have hany : gl.names.any (·.val = p) = true ↔ p ∈ gl.names.map (·.val) := by
    simp [List.any_eq_true]
  unfold GameList.push pushName
  rw [List.length_map]
  by_cases hroom : gl.names.length < gamesMax
  · rw [dif_pos hroom, if_pos hroom]
    by_cases hdup : p ∈ gl.names.map (·.val)
    · rw [if_pos (hany.mpr hdup), if_pos hdup]
    · rw [if_neg fun h => hdup (hany.mp h), if_neg hdup, List.map_append]
      rfl
  · rw [dif_neg hroom, if_neg hroom]

theorem pushName_of_full (h : gamesMax ≤ ns.length) (p : Bytes) : pushName ns p = ns :=
  if_neg (Nat.not_lt.mpr h)

theorem foldl_pushName_of_full (h : gamesMax ≤ ns.length) (ps : List Bytes) :
    ps.foldl pushName ns = ns := by
  induction ps with
  | nil => rfl
  | cons p ps ih => rw [List.foldl_cons, pushName_of_full h, ih]

theorem foldl_gamesLoadLine_of_full {acc : Bool × GameList} (h : gamesMax ≤ acc.2.names.length)
    (ls : List Bytes) : ls.foldl gamesLoadLine acc = acc := by
  induction ls with
  | nil => rfl
  | cons l ls ih => rw [List.foldl_cons, gamesLoadLine, if_pos h, ih]

/-- **The loop.** The lines push the names they list. -/
theorem names_foldl_gamesLoadLine (ls : List Bytes) (inGames : Bool) (gl : GameList) :
    (ls.foldl gamesLoadLine (inGames, gl)).2.names.map (·.val) =
      (listedNames inGames ls).foldl pushName (gl.names.map (·.val)) := by
  induction ls generalizing inGames gl with
  | nil => rfl
  | cons l ls ih =>
    by_cases hfull : gamesMax ≤ gl.names.length
    · rw [foldl_gamesLoadLine_of_full hfull, foldl_pushName_of_full (by rwa [List.length_map])]
    · rw [List.foldl_cons, listedNames, gamesLoadLine, if_neg hfull]
      by_cases hheader : l.head? = some (chr '[')
      · rw [if_pos hheader, if_pos hheader]
        exact ih _ _
      · rw [if_neg hheader, if_neg hheader]
        cases inGames with
        | false => exact ih _ _
        | true =>
          cases hname : gameName l with
          | none => exact ih _ _
          | some p =>
            show (ls.foldl gamesLoadLine (true, gl.push p)).2.names.map (·.val) =
              (p :: listedNames true ls).foldl pushName (gl.names.map (·.val))
            rw [ih, names_push, List.foldl_cons]

theorem names_gamesLoad {s : Bytes} (hlen : s.length ≤ 8191) (hz : (0 : UInt8) ∉ s) :
    (gamesLoad true (some s)).names.map (·.val) =
      (listedNames false (lines nl s)).foldl pushName [] := by
  unfold gamesLoad
  rw [readFile_of_length_le hlen]
  by_cases hs : s = []
  · rw [if_pos hs, hs]
    rfl
  · rw [if_neg hs]
    dsimp only
    rw [cstr_of_notMem hz]
    exact names_foldl_gamesLoadLine (lines nl s) false GameList.empty

/-! ### Names that are stored twice -/

theorem length_of_mem_foldl_pushName {ps : List Bytes} {n : Bytes}
    (h : n ∈ ps.foldl pushName []) : n.length < 64 := by
  induction ps using List.reverseRecOn with
  | nil => exact absurd h List.not_mem_nil
  | append_singleton ps p ih =>
    rw [List.foldl_append, List.foldl_cons, List.foldl_nil, pushName] at h
    split at h
    · split at h
      · exact ih h
      · rcases List.mem_append.mp h with h | h
        · exact ih h
        · rw [List.mem_singleton.mp h]
          exact (List.length_take_le _ _).trans_lt (by decide)
    · exact ih h

/-- **One name.** It keeps the stored names distinct unless it is too long for the array and its
beginning is stored; and then it does what it should. -/
theorem pushName_spec (hns : ns.Nodup) (hlen : ∀ n ∈ ns, n.length < 64) :
    ((pushName ns p).Nodup ↔ (63 < p.length → ns.length < gamesMax → stored p ∉ ns)) ∧
    ((pushName ns p).Nodup → pushName ns p =
      if ns.length < gamesMax ∧ stored p ∉ ns then ns ++ [stored p] else ns) := by
  unfold pushName
  by_cases hroom : ns.length < gamesMax
  · rw [if_pos hroom]
    by_cases hlong : 63 < p.length
    · -- a name of this length is not among the stored ones
      have hp : p ∉ ns := fun h => absurd (hlen p h) (by omega)
      have hnodup : (ns ++ [stored p]).Nodup ↔ stored p ∉ ns := by
        rw [← List.concat_eq_append, List.nodup_concat]
        exact and_iff_left hns
      rw [if_neg hp, hnodup]
      exact ⟨⟨fun h _ _ => h, fun h => h hlong hroom⟩, fun h => (if_pos ⟨hroom, h⟩).symm⟩
    · have hself : stored p = p := List.take_of_length_le (by omega)
      rw [hself]
      by_cases hp : p ∈ ns
      · rw [if_pos hp, if_neg fun h => h.2 hp]
        exact ⟨iff_of_true hns fun h => absurd h hlong, fun _ => rfl⟩
      · have hnodup : (ns ++ [p]).Nodup := by
          rw [← List.concat_eq_append, List.nodup_concat]
          exact ⟨hp, hns⟩
        rw [if_neg hp, if_pos ⟨hroom, hp⟩]
        exact ⟨iff_of_true hnodup fun h => absurd h hlong, fun _ => rfl⟩
  · rw [if_neg hroom, if_neg fun h => hroom h.1]
    exact ⟨iff_of_true hns fun _ h => absurd h hroom, fun _ => rfl⟩

/-- What the loop is meant to store, with one more name listed. -/
theorem take_eraseDups_concat (ps : List Bytes) (p : Bytes) :
    (((ps ++ [p]).map stored).eraseDups).take gamesMax =
      if (((ps.map stored).eraseDups).take gamesMax).length < gamesMax ∧
        stored p ∉ ((ps.map stored).eraseDups).take gamesMax
      then ((ps.map stored).eraseDups).take gamesMax ++ [stored p]
      else ((ps.map stored).eraseDups).take gamesMax := by
  rw [List.map_append, List.map_singleton, eraseDups_concat, List.length_take]
  by_cases hroom : (ps.map stored).eraseDups.length < gamesMax
  · rw [List.take_of_length_le hroom.le]
    by_cases hmem : stored p ∈ ps.map stored
    · rw [if_pos hmem, if_neg fun h => h.2 (List.mem_eraseDups.mpr hmem),
        List.take_of_length_le hroom.le]
    · rw [if_neg hmem, if_pos ⟨by omega, fun h => hmem (List.mem_eraseDups.mp h)⟩,
        List.take_of_length_le]
      rw [List.length_append, List.length_singleton]
      omega
  · have hfull : ¬(min gamesMax (ps.map stored).eraseDups.length < gamesMax ∧
        stored p ∉ ((ps.map stored).eraseDups).take gamesMax) := fun h => absurd h.1 (by omega)
    rw [if_neg hfull]
    split
    · rfl
    · exact List.take_append_of_le_length (Nat.not_lt.mp hroom)

/-- **The loop.** As long as the stored names are distinct they are the ones that should be
stored; and they are distinct as long as no two names that are cut meet. -/
theorem nodup_foldl_pushName (ps : List Bytes) :
    ((ps.foldl pushName []).Nodup ↔ CutsDiffer ps) ∧
    ((ps.foldl pushName []).Nodup →
      ps.foldl pushName [] = ((ps.map stored).eraseDups).take gamesMax) := by
  induction ps using List.reverseRecOn with
  | nil =>
    refine ⟨iff_of_true List.nodup_nil fun xs p ys h => ?_, fun _ => rfl⟩
    exact absurd h.symm (by simp)
  | append_singleton ps p ih =>
    obtain ⟨hiff, heq⟩ := ih
    have hstep : (ps ++ [p]).foldl pushName [] = pushName (ps.foldl pushName []) p := by
      rw [List.foldl_append, List.foldl_cons, List.foldl_nil]
    -- the list only grows, so names that repeat stay repeated
    have hprefix : (ps.foldl pushName []).Sublist (pushName (ps.foldl pushName []) p) := by
      unfold pushName
      split
      · split
        · exact List.Sublist.refl _
        · exact List.sublist_append_left _ _
      · exact List.Sublist.refl _
    have hsplit : CutsDiffer (ps ++ [p]) ↔ CutsDiffer ps ∧ (63 < p.length →
        (ps.map stored).eraseDups.length < gamesMax → stored p ∉ ps.map stored) :=
      forall_split_concat (P := fun (xs : List Bytes) (p : Bytes) => 63 < p.length →
        (xs.map stored).eraseDups.length < gamesMax → stored p ∉ xs.map stored)
    rw [hstep, hsplit, ← hiff]
    -- while they are distinct, the stored names are known, and so is what the next one meets
    by_cases hnodup : (ps.foldl pushName []).Nodup
    · obtain ⟨hspec, hval⟩ := pushName_spec (p := p) hnodup fun n => length_of_mem_foldl_pushName
      have hself := heq hnodup
      rw [hself] at hspec hval hnodup ⊢
      constructor
      · rw [hspec, and_iff_right hnodup, List.length_take]
        refine imp_congr_right fun _ => ?_
        constructor
        · intro h hroom hmem
          refine h (by omega) ?_
          rw [List.take_of_length_le hroom.le, List.mem_eraseDups]
          exact hmem
        · intro h hroom hmem
          exact h (by omega) (List.mem_eraseDups.mp (List.mem_of_mem_take hmem))
      · intro h
        rw [hval h, take_eraseDups_concat]
    · have hnot : ¬(pushName (ps.foldl pushName []) p).Nodup := fun h => hnodup (h.sublist hprefix)
      exact ⟨iff_of_false hnot fun h => hnodup h.1, fun h => absurd h hnot⟩

end

/-- **When the list is as intended.** For a file that fits the buffer, the names stored are
distinct and the ones the file lists, cut to the array, each once, up to the first 512, exactly
when no name that does not fit the array meets its own beginning. -/
theorem gamesLoad_iff {s : Bytes} (hlen : s.length ≤ 8191) (hz : (0 : UInt8) ∉ s) :
    LoadsDistinct (gamesLoad true (some s)) (lines nl s) ↔
      CutsDiffer (listedNames false (lines nl s)) := by
  obtain ⟨hiff, heq⟩ := nodup_foldl_pushName (listedNames false (lines nl s))
  have hnames := names_gamesLoad hlen hz
  constructor
  · intro h
    have hdistinct := h.distinct
    rw [hnames] at hdistinct
    exact hiff.mp hdistinct
  · intro h
    have hnodup := hiff.mpr h
    refine ⟨?_, (gamesLoad true (some s)).count_le, ?_⟩
    · rwa [hnames]
    · rw [hnames, heq hnodup]

/-- A line of `n` letters. -/
def longName (n : ℕ) : Bytes := List.replicate n (chr 'a')

/-- One long name, listed twice. -/
def twiceListed : Bytes := lit "[GAMES_SYS]\n" ++ longName 64 ++ [nl] ++ longName 64 ++ [nl]

/-- A name of 64 bytes is stored twice. -/
theorem cut_name_repeated :
    ¬∀ s : Bytes, s.length ≤ 8191 → (0 : UInt8) ∉ s →
      LoadsDistinct (gamesLoad true (some s)) (lines nl s) := by
  intro h
  have hdistinct := (h twiceListed (by decide +kernel) (by decide +kernel)).distinct
  exact absurd hdistinct (by decide +kernel)

/-- The rule for a file with two names. -/
theorem gamesLoad_iff_twoNames :
    LoadsDistinct (gamesLoad true (some (lit "[GAMES_SYS]\nquake\ndoom\nquake\n")))
        (lines nl (lit "[GAMES_SYS]\nquake\ndoom\nquake\n")) ↔
      CutsDiffer (listedNames false (lines nl (lit "[GAMES_SYS]\nquake\ndoom\nquake\n"))) :=
  gamesLoad_iff (by decide) (by decide)

end X3D
