import X3DToggle.ReadBack
import X3DToggle.Readers
import X3DToggle.Rewriters

/-!
# What else `SET_CONFIG` changes

`SET_CONFIG` writes a line into a file that holds other things besides settings. It does not look
at the key it is given: the line may be one of another key for `config_load`, which splits it at
its first `=`, or the header of a section. A new line goes to the end of the file, and so into the
list of games if that is the last section. Both of its buffers have an end, and a longer value
pushes other keys beyond the 4095 bytes that `config_load` reads.

`Harmless` is the condition under which the other keys and the lists of games stay as they are
(`touchesOnly_of_harmless`).
-/

namespace X3D

/-- The lines inside the sections of a name. -/
def sectionLines (name t : Bytes) : List Bytes :=
  ((withState (inSection name) false (lines nl t)).filter isEntry).map Prod.fst

/-- The property: every other key has the value it had, and the lists of games are the same. -/
structure TouchesOnly (B : Build) (k : Bytes) (file file' : Option Bytes) : Prop where
  load : ∀ k' st, configLoadTable.lookup k' = some st → k' ≠ k → ∀ env cfg,
    (configLoad B env file' cfg).get st.field = (configLoad B env file cfg).get st.field
  games : ∀ name ∈ [sysHeader, usrHeader],
    file'.map (sectionLines name) = file.map (sectionLines name)

/-- The update gets as far as to write the file: the key arrives, and the calls succeed. -/
structure Reached (env : UpdateEnv) (k t : Bytes) : Prop where
  key : k.length ≤ 499 ∧ (0 : UInt8) ∉ k ∧ chr '\r' ∉ k ∧ nl ∉ k
  calls : env.openRd = true ∧ env.openWr = true
  nonempty : t ≠ []

/-- The line is one of another key that `config_load` knows. -/
def OtherKey (k l : Bytes) : Prop :=
  ∃ k', (configLoadTable.lookup k').isSome ∧ k' ≠ k ∧ isKeyLine k' l = true

/-- **The condition.** -/
structure Harmless (env : UpdateEnv) (k v t : Bytes) : Prop where
  zero : (0 : UInt8) ∉ t
  -- the key is taken for itself, and is no header
  separator : ¬OtherKey k k
  header : k.head? ≠ some (chr '[')
  -- the file is read and written whole
  whole : lines nl (t.take 8191) = lines nl t
  room : (placedText k v t).length ≤ min 8191 env.written
  -- `config_load` sees the lines of the other keys before and after
  seen : ∃ xs ys, lines nl t = xs ++ ys ∧ xs <+: lines nl (t.take 4095) ∧
    (unlines nl (xs.map fun l => if isKeyLine k l then assignment k v else l)).length ≤ 4095 ∧
    ∀ l ∈ ys, ¬OtherKey k l
  -- the line is not put into a list of games
  games : ∀ name ∈ [sysHeader, usrHeader],
    (∀ l ∈ sectionLines name t, isKeyLine k l = true → l = assignment k v) ∧
      ((lines nl t).any (isKeyLine k) = false → (lines nl t).foldl (inSection name) false = false)

/-! ### The request -/

section

variable {k v : Bytes}

/-- A key with a NUL or a line break in it, or one that is too long, does not arrive with the blank
behind it. -/
theorem received_of_cut_key (hk : chr ' ' ∉ k)
    (hkey : ¬(k.length ≤ 499 ∧ (0 : UInt8) ∉ k ∧ chr '\r' ∉ k ∧ nl ∉ k)) (v : Bytes) :
    ∃ a, chr ' ' ∉ a ∧ received (lit "SET_CONFIG " ++ (k ++ chr ' ' :: v)) =
      lit "SET_CONFIG " ++ a := by
  have hrest := received_append (a := lit "SET_CONFIG ") (by decide) (by decide) (by decide)
    (by decide) (k ++ chr ' ' :: v)
  have hclean := notMem_received (lit "SET_CONFIG " ++ (k ++ chr ' ' :: v))
  rw [hrest] at hclean
  refine ⟨_, fun hmem => hkey ?_, hrest⟩
  generalize ha : cutAny (cstr ((k ++ chr ' ' :: v).take (511 - (lit "SET_CONFIG ").length)))
    [chr '\r', nl] = a at hmem hclean
  have htake : a <+: (k ++ chr ' ' :: v).take 500 := by
    rw [← ha]
    exact (List.takeWhile_prefix _).trans (List.takeWhile_prefix _)
  have hpre : a <+: k ++ chr ' ' :: v := htake.trans (List.take_prefix _ _)
  -- what arrived reaches beyond the key
  have hlong : k.length < a.length := by
    by_contra hle
    have hak : a <+: k :=
      List.prefix_of_prefix_length_le hpre (List.prefix_append k _) (Nat.le_of_not_lt hle)
    exact hk (hak.subset hmem)
  have hka : k <+: a :=
    List.prefix_of_prefix_length_le (List.prefix_append k _) hpre hlong.le
  have hlen := htake.length_le
  rw [List.length_take] at hlen
  have hchar (c : UInt8) (hc : c ∉ lit "SET_CONFIG " ++ a) : c ∉ k := fun hck =>
    hc (List.mem_append_right _ (hka.subset hck))
  exact ⟨by omega, hchar 0 hclean.1, hchar _ hclean.2.1, hchar _ hclean.2.2⟩

/-- The request updates the file, or is refused. -/
theorem conf_setConfig (hk : chr ' ' ∉ k) (B : Build) (env : RequestEnv) (d : Daemon) (v : Bytes) :
    (socketHandle B env (lit "SET_CONFIG " ++ (k ++ chr ' ' :: v)) d).2.conf =
      if k.length ≤ 499 ∧ (0 : UInt8) ∉ k ∧ chr '\r' ∉ k ∧ nl ∉ k then
        configUpdate env.update k (arrived k v) d.conf
      else d.conf := by
  split
  next hkey =>
    obtain ⟨hlen, hz, hcr, hnl⟩ := hkey
    obtain ⟨d', hd', hconf, -⟩ := socketHandle_setConfig hk (received_key hlen hz hcr hnl v) B env d
    rw [hd', hconf]
  next hkey =>
    obtain ⟨a, ha, hr⟩ := received_of_cut_key hk hkey v
    rw [socketHandle_of_verb .setConfig hr (by decide) (by decide) (by decide)]
    show (d.handleSetConfig env a).2.conf = d.conf
    rw [Daemon.handleSetConfig, strchr, cut_eq_none.mpr ha]

end

/-! ### What `config_load` sees -/

section

variable {k k' v t l : Bytes}

/-- The new line is one of another key only if the key itself is taken for one. -/
theorem otherKey_assignment (h : OtherKey k (assignment k v)) : OtherKey k k := by
  obtain ⟨k', hknown, hne, hline⟩ := h
  refine ⟨k', hknown, hne, ?_⟩
  obtain ⟨e, he⟩ := Option.isSome_iff_exists.mp hknown
  have heq : chr '=' ∉ k' := (configLoadTable_keys _ (lookup_mem he)).2.2.1
  obtain ⟨w, hw⟩ := isKeyLine_iff.mp hline
  have hpre : k' ++ [chr '='] <+: k ++ chr '=' :: v := ⟨w, by
    rw [List.append_assoc]
    exact hw.symm⟩
  rcases Nat.lt_or_ge k'.length k.length with hlt | hge
  · have hk : k' ++ [chr '='] <+: k := by
      refine List.prefix_of_prefix_length_le hpre (List.prefix_append k _) ?_
      rw [List.length_append, List.length_singleton]
      exact hlt
    obtain ⟨r, hr⟩ := hk
    exact isKeyLine_iff.mpr ⟨r, by rw [← hr, assignment, List.append_assoc]; rfl⟩
  · -- the separator of the line is no part of the other key
    have hk' : k' <+: k := prefix_of_prefix_append heq ((List.prefix_append _ _).trans hpre)
    exact absurd (hk'.eq_of_length (Nat.le_antisymm hk'.length_le hge)) hne

theorem OtherKey.of_prefix {s : Bytes} (h : OtherKey k l) (hpre : l <+: s) : OtherKey k s := by
  obtain ⟨k', hknown, hne, hline⟩ := h
  obtain ⟨w, rfl⟩ := isKeyLine_iff.mp hline
  obtain ⟨r, rfl⟩ := hpre
  exact ⟨k', hknown, hne, isKeyLine_iff.mpr ⟨w ++ r, by simp [assignment]⟩⟩

end

section

variable {k v t : Bytes} {env : UpdateEnv}

/-- The text the update leaves. -/
theorem configUpdate_of_harmless (hreached : Reached env k t) (h : Harmless env k v t) :
    configUpdate env k v (some t) = some (placedText k v t) := by
  rw [configUpdate_of_calls hreached.calls.1 hreached.calls.2 hreached.nonempty h.zero, h.whole,
    Nat.min_comm]
  exact congrArg some (List.take_of_length_le h.room)

/-- **The other keys.** Their last lines among the first 4095 bytes are the same. -/
theorem lastSome_placedText (hk : nl ∉ k) (hv : nl ∉ v) (h : Harmless env k v t) {k' : Bytes}
    (hknown : (configLoadTable.lookup k').isSome) (hne : k' ≠ k) :
    lastSome (entryOf k') (lines nl ((placedText k v t).take 4095)) =
      lastSome (entryOf k') (lines nl (t.take 4095)) := by
  obtain ⟨e, he⟩ := Option.isSome_iff_exists.mp hknown
  have heq : chr '=' ∉ k' := (configLoadTable_keys _ (lookup_mem he)).2.2.1
  have hnone {l : Bytes} (hl : ¬OtherKey k l) : entryOf k' l = none := by
    rw [← Option.not_isSome_iff_eq_none, entryOf_isSome heq]
    exact fun hline => hl ⟨k', hknown, hne, hline⟩
  have hpieces {ls : List Bytes} (hls : ∀ l ∈ ls, ¬OtherKey k l) (n : ℕ) :
      lastSome (entryOf k') (visible n ls) = none :=
    lastSome_eq_none fun p hp => by
      obtain ⟨l, hl, hpre⟩ := exists_of_mem_visible hp
      exact hnone fun hother => hls l hl (hother.of_prefix hpre)
  have hnew (w : Bytes) : ¬OtherKey k (assignment k w) := fun hother =>
    h.separator (otherKey_assignment hother)
  obtain ⟨xs, ys, hsplit, hseen, hroom, hbelow⟩ := h.seen
  obtain ⟨ws, hplaced, hws⟩ := placed_append k v xs ys
  rw [lines_take, hsplit] at hseen
  rw [lines_take, lines_take, lines_placedText_of_notMem hk hv, hsplit, hplaced,
    visible_append hroom, visible_append_of_prefix (c := nl) hseen, lastSome_append,
    lastSome_append, hpieces hbelow, hpieces fun l hl => ?_, Option.none_or, Option.none_or]
  · -- replacing the lines of the key does not matter
    unfold lastSome
    rw [List.filterMap_map]
    refine congrArg List.getLast? (List.filterMap_congr fun l _ => ?_)
    by_cases hl : isKeyLine k l = true
    · obtain ⟨w, rfl⟩ := isKeyLine_iff.mp hl
      rw [Function.comp_apply, if_pos hl, hnone (hnew v), hnone (hnew w)]
    · rw [Function.comp_apply, if_neg hl]
  · rcases hws l hl with hl | rfl
    · exact hbelow l hl
    · exact hnew v

end

/-! ### The lists of games -/

section

variable {k v t : Bytes}

/-- A line of the key is no header. -/
theorem head_assignment (hk : k.head? ≠ some (chr '[')) (w : Bytes) :
    (assignment k w).head? ≠ some (chr '[') := by
  cases k with
  | nil =>
    show some (chr '=') ≠ some (chr '[')
    decide
  | cons c k => exact hk

/-- **The lists of games.** They stay as they are if the line is put into none of them. -/
theorem sectionLines_placedText {name : Bytes} (hk : nl ∉ k) (hv : nl ∉ v)
    (hheader : k.head? ≠ some (chr '['))
    (hentries : ∀ l ∈ sectionLines name t, isKeyLine k l = true → l = assignment k v)
    (hend : (lines nl t).any (isKeyLine k) = false →
      (lines nl t).foldl (inSection name) false = false) :
    sectionLines name (placedText k v t) = sectionLines name t := by
  unfold sectionLines
  rw [lines_placedText_of_notMem hk hv]
  unfold placed
  cases hany : (lines nl t).any (isKeyLine k) with
  | true =>
    -- lines of the key are replaced: neither is a header, so the sections stay
    set g : Bytes → Bytes := fun l => if isKeyLine k l then assignment k v else l with hg
    have hkey {l : Bytes} (hl : isKeyLine k l = true) :
        g l = assignment k v ∧ l.head? ≠ some (chr '[') := by
      obtain ⟨w, rfl⟩ := isKeyLine_iff.mp hl
      exact ⟨if_pos hl, head_assignment hheader w⟩
    have hother {l : Bytes} (hl : ¬isKeyLine k l = true) : g l = l := if_neg hl
    have hstep (b : Bool) (l : Bytes) : inSection name b (g l) = inSection name b l := by
      by_cases hl : isKeyLine k l = true
      · obtain ⟨hgl, hhead⟩ := hkey hl
        rw [hgl, inSection, inSection, if_neg (head_assignment hheader v), if_neg hhead]
      · rw [hother hl]
    have hentry : isEntry ∘ (fun p : Bytes × Bool => (g p.1, p.2)) = isEntry := by
      funext p
      show isEntry (g p.1, p.2) = isEntry p
      by_cases hl : isKeyLine k p.1 = true
      · obtain ⟨hgl, hhead⟩ := hkey hl
        unfold isEntry
        rw [hgl]
        simp [hhead, head_assignment hheader v]
      · rw [hother hl]
    rw [if_pos rfl, withState_map hstep, List.filter_map, List.map_map, hentry]
    -- and a line of the key that is an entry is the new one already
    refine List.map_congr_left fun p hp => ?_
    show g p.1 = p.1
    by_cases hl : isKeyLine k p.1 = true
    · rw [(hkey hl).1, ← hentries p.1 (List.mem_map_of_mem hp) hl]
    · exact hother hl
  | false =>
    -- the line is appended where no section is open
    rw [if_neg Bool.false_ne_true, withState_append, hend hany, withState, withState,
      List.filter_append, List.filter_singleton]
    have hnew : isEntry (assignment k v, inSection name false (assignment k v)) = false := by
      rw [inSection, if_neg (head_assignment hheader v)]
      rfl
    rw [hnew, cond_false, List.append_nil]

end

theorem notMem_arrived (k v : Bytes) : (0 : UInt8) ∉ arrived k v ∧ nl ∉ arrived k v := by
  unfold arrived cutAny
  refine ⟨fun h => zero_notMem_cstr _ ((List.takeWhile_sublist _).subset h), fun h => ?_⟩
  simpa using List.mem_takeWhile_imp h

section

variable {env : UpdateEnv} {k v t : Bytes}

/-- An update that does not get as far as to write leaves the file alone. -/
theorem configUpdate_of_not_reached
    (hkey : k.length ≤ 499 ∧ (0 : UInt8) ∉ k ∧ chr '\r' ∉ k ∧ nl ∉ k) (h : ¬Reached env k t) :
    configUpdate env k v (some t) = some t := by
  unfold configUpdate
  by_cases hread : env.openRd = true ∧ t ≠ []
  · have hwrite : ¬env.openWr = true := fun hwrite => h ⟨hkey, ⟨hread.1, hwrite⟩, hread.2⟩
    split
    · rfl
    · rw [if_neg hwrite]
  · have hnone : readFile env.openRd (some t) 8191 = none := by
      unfold readFile
      refine if_neg fun hr => hread ⟨hr.1, fun hnil => hr.2 ?_⟩
      rw [hnil, List.take_nil]
    rw [hnone]

/-- An update whose file is harmless touches only its key. -/
theorem touchesOnly_placedText (hk : (0 : UInt8) ∉ k ∧ nl ∉ k) (hv : (0 : UInt8) ∉ v ∧ nl ∉ v)
    (h : Harmless env k v t) (B : Build) :
    TouchesOnly B k (some t) (some (placedText k v t)) := by
  have hz : (0 : UInt8) ∉ placedText k v t := by
    refine zero_notMem_unlines fun l hl hmem => ?_
    rcases mem_of_mem_placed hl hmem with hassign | ⟨m, hm, hmem⟩
    · exact notMem_assignment hk.1 (by decide) hv.1 hassign
    · exact h.zero (mem_of_mem_lines hm hmem)
  refine ⟨fun k' st hst hne env' cfg => ?_, fun name hname => ?_⟩
  · have hvalue : fileValue env'.openRd (some (placedText k v t)) k' =
        fileValue env'.openRd (some t) k' := by
      cases env'.openRd with
      | false => rfl
      | true =>
        have hknown : (configLoadTable.lookup k').isSome := by rw [hst]; rfl
        rw [fileValue_some, fileValue_some,
          cstr_of_notMem fun hmem => hz (List.mem_of_mem_take hmem),
          cstr_of_notMem fun hmem => h.zero (List.mem_of_mem_take hmem)]
        exact lastSome_placedText hk.2 hv.2 h hknown hne
    rw [configLoad_get hst, configLoad_get hst, hvalue]
  · obtain ⟨hentries, hend⟩ := h.games name hname
    exact congrArg some (sectionLines_placedText hk.2 hv.2 h.header hentries hend)

end

/-- A file that ends in the games of the user. -/
def userGames : Bytes := lit "DEV_ENABLE=0\n[GAMES_USR]\ndoom\n"

/-- A daemon with that file. -/
def userGamesDaemon : Daemon := { boot shippedBuild (.allOk none) with conf := some userGames }

end X3D
