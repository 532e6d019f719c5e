import X3DToggle.Bpf

/-!
# Steam's mark in the environment

Steam starts a game with `SteamAppId` in its environment. `scan_pid_steam` walks over the entries
of `/proc/<pid>/environ`, of which it reads 4095 bytes, so an entry counts for as much of it as
is among these. What it finds there is in the environment; a game is missed exactly if the read
ends before it shows of any such entry a value other than `0` (`scanPidSteam_iff`).
-/

namespace X3D

/-- An entry that sets the application to something else than `0`. -/
def NamesApp (entry : Bytes) : Prop :=
  ∃ v, entry = lit "SteamAppId=" ++ v ∧ v ≠ [] ∧ v ≠ lit "0"

/-- A name the kernel can give a process, and neither Steam's own nor an engine's. -/
structure PlainComm (name : Bytes) : Prop where
  zero : (0 : UInt8) ∉ name
  length : name.length ≤ 15
  infra : name ∉ steamInfraNames
  engine : ¬ lit "GameThread" <+: name

theorem isSteamEntry_iff (entry : Bytes) : isSteamEntry entry = true ↔ NamesApp entry := by
  have hlen : (lit "SteamAppId=").length = 11 := by decide
  unfold isSteamEntry strncmp NamesApp
  rw [Bool.and_eq_true, Bool.and_eq_true, beq_iff_eq, decide_eq_true_iff, decide_eq_true_iff,
    List.take_of_length_le hlen.le]
  constructor
  · rintro ⟨⟨htake, hne⟩, hzero⟩
    refine ⟨entry.drop 11, ?_, hne, hzero⟩
    rw [← htake, List.take_append_drop]
  · rintro ⟨v, rfl, hne, hzero⟩
    rw [← hlen, List.take_left, List.drop_left]
    exact ⟨⟨rfl, hne⟩, hzero⟩

/-- What is left of an entry names an application only if the entry does. -/
theorem NamesApp.of_take {entry : Bytes} {n : ℕ} (h : NamesApp (entry.take n)) :
    NamesApp entry := by
  obtain ⟨v, hv, hne, hzero⟩ := h
  refine ⟨v ++ entry.drop n, ?_, ?_, ?_⟩
  · rw [← List.append_assoc, ← hv, List.take_append_drop]
  · exact List.append_ne_nil_of_left_ne_nil hne _
  · intro hall
    -- a part of `0` that is not empty is `0`
    obtain ⟨c, w, rfl⟩ := List.exists_cons_of_ne_nil hne
    have hone : lit "0" = [chr '0'] := by decide
    rw [hone, List.cons_append, List.cons.injEq, List.append_eq_nil_iff] at hall
    obtain ⟨rfl, rfl, -⟩ := hall
    exact hzero hone.symm

theorem not_namesApp_nil : ¬ NamesApp [] := by
  rintro ⟨v, hv, -, -⟩
  exact absurd hv.symm (List.append_ne_nil_of_left_ne_nil (by decide) v)

/-- Such a name decides nothing. -/
theorem PlainComm.decides {name : Bytes} (h : PlainComm name) :
    isGameEngineComm name = false ∧ steamIsInfraComm name = false := by
  have hname : name.take 15 = name := List.take_of_length_le h.length
  constructor
  · refine Bool.eq_false_of_not_eq_true fun hengine => h.engine ?_
    unfold isGameEngineComm strncmp at hengine
    rw [Bool.and_eq_true, beq_iff_eq] at hengine
    have hten : (lit "GameThread").take 10 = lit "GameThread" := by decide
    rw [← hten, ← hengine.2]
    exact List.take_prefix 10 name
  · refine Bool.eq_false_of_not_eq_true fun hinfra => h.infra ?_
    unfold steamIsInfraComm strncmp at hinfra
    rw [Bool.and_eq_true, List.any_eq_true] at hinfra
    obtain ⟨-, infra, hmem, heq⟩ := hinfra
    rw [beq_iff_eq, hname] at heq
    have hshort : ∀ n ∈ steamInfraNames, n.take 15 = n := by decide
    rw [heq, hshort infra hmem]
    exact hmem

/-- The entries the scan of the environment sees. -/
theorem environ_iff {p : Proc} {block : Bytes} (henv : p.environ = some block) :
    (match readFile true p.environ 4095 with
      | none => false
      | some buf => (lines 0 buf).any isSteamEntry) = true ↔
        ∃ v ∈ visible 4095 (lines 0 block), NamesApp v := by
  simp only [← isSteamEntry_iff]
  rw [← List.any_eq_true, ← lines_take, henv, readFile_eq]
  by_cases hnil : block.take 4095 = []
  · rw [if_pos hnil, hnil]
    rfl
  · rw [if_neg hnil]

/-- The scan of such a process is one of its environment. -/
theorem scanPidSteam_eq {p : Proc} {name block : Bytes} (hcomm : p.comm = some (name ++ [nl]))
    (hname : PlainComm name) (henv : p.environ = some block) :
    scanPidSteam p = true ↔ ∃ v ∈ visible 4095 (lines 0 block), NamesApp v := by
  -- the name is not taken for an engine or for Steam itself, so it does not decide
  have hread : (readFile true p.comm 31).map (fun buf =>
      cstr (if buf.getLast? = some nl then buf.dropLast else buf)) = some name := by
    have hlen : (name ++ [nl]).length ≤ 31 := by
      have := hname.length
      rw [List.length_append, List.length_singleton]
      omega
    have hbuf : readFile true p.comm 31 = some (name ++ [nl]) := by
      rw [hcomm, readFile_of_length_le hlen]
      exact if_neg (List.append_ne_nil_of_right_ne_nil _ (List.cons_ne_nil _ _))
    rw [hbuf, Option.map_some, List.getLast?_concat, if_pos rfl, List.dropLast_concat,
      cstr_of_notMem hname.zero]
  unfold scanPidSteam
  simp only [hread, hname.decides.1, hname.decides.2, Bool.false_eq_true, if_false]
  exact environ_iff henv

/-- **When Steam is detected exactly.** No entry names an application, or of one that does the
first 4095 bytes show enough to name one. -/
theorem scanPidSteam_iff {p : Proc} {name block : Bytes} (hcomm : p.comm = some (name ++ [nl]))
    (hname : PlainComm name) (henv : p.environ = some block) :
    (scanPidSteam p = true ↔ ∃ entry ∈ lines 0 block, NamesApp entry) ↔
      (∀ entry ∈ lines 0 block, ¬ NamesApp entry) ∨
        ∃ xs entry ys, lines 0 block = xs ++ entry :: ys ∧
          NamesApp (entry.take (4095 - (unlines 0 xs).length)) := by
  rw [scanPidSteam_eq hcomm hname henv, any_visible_iff 0 not_namesApp_nil]
  have hsound : (∃ xs entry ys, lines 0 block = xs ++ entry :: ys ∧
      NamesApp (entry.take (4095 - (unlines 0 xs).length))) →
        ∃ entry ∈ lines 0 block, NamesApp entry := by
    rintro ⟨xs, entry, ys, hlines, happ⟩
    refine ⟨entry, ?_, happ.of_take⟩
    rw [hlines]
    exact List.mem_append_right _ List.mem_cons_self
  constructor
  · intro hiff
    by_cases hany : ∃ entry ∈ lines 0 block, NamesApp entry
    · exact Or.inr (hiff.mpr hany)
    · exact Or.inl fun entry hentry happ => hany ⟨entry, hentry, happ⟩
  · rintro (hnone | hshown)
    · refine ⟨hsound, ?_⟩
      rintro ⟨entry, hentry, happ⟩
      exact absurd happ (hnone entry hentry)
    · exact iff_of_true hshown (hsound hshown)

/-- A game whose environment begins with a long entry. -/
def crowdedGame : Proc where
  pid := 4242
  cmdline := none
  maps := []
  comm := some (lit "hl2_linux" ++ [nl])
  environ := some (unlines 0 [List.replicate 4095 (chr 'x'), lit "SteamAppId=220"])

theorem plainComm_hl2 : PlainComm (lit "hl2_linux") := by
  refine ⟨?_, ?_, ?_, ?_⟩ <;> decide

theorem scanPidSteam_iff_crowdedGame :
    (scanPidSteam crowdedGame = true ↔
        ∃ entry ∈ lines 0 (unlines 0 [List.replicate 4095 (chr 'x'), lit "SteamAppId=220"]),
          NamesApp entry) ↔
      (∀ entry ∈ lines 0 (unlines 0 [List.replicate 4095 (chr 'x'), lit "SteamAppId=220"]),
          ¬ NamesApp entry) ∨
        ∃ xs entry ys, lines 0 (unlines 0 [List.replicate 4095 (chr 'x'), lit "SteamAppId=220"]) =
          xs ++ entry :: ys ∧ NamesApp (entry.take (4095 - (unlines 0 xs).length)) :=
  scanPidSteam_iff rfl plainComm_hl2 rfl

/-- That game is missed. -/
theorem steam_mark_past_buffer :
    ¬ ∀ (p : Proc) (name block : Bytes), p.comm = some (name ++ [nl]) → PlainComm name →
      p.environ = some block →
        (scanPidSteam p = true ↔ ∃ entry ∈ lines 0 block, NamesApp entry) := by
  intro h
  set filler := List.replicate 4095 (chr 'x') with hfiller
  have hlen : filler.length = 4095 := List.length_replicate
  have hx : (0 : UInt8) ∉ filler := fun hmem => absurd (List.eq_of_mem_replicate hmem) (by decide)
  have hlines : lines 0 (unlines 0 [filler, lit "SteamAppId=220"]) =
      [filler, lit "SteamAppId=220"] := by
    apply lines_unlines
    intro l hl
    rcases List.mem_cons.mp hl with rfl | hl
    · exact hx
    · rw [List.mem_singleton.mp hl]
      decide
  have hfound := (h crowdedGame (lit "hl2_linux") (unlines 0 [filler, lit "SteamAppId=220"]) rfl
    plainComm_hl2 rfl).mpr
  rw [scanPidSteam_eq rfl plainComm_hl2 rfl, hlines] at hfound
  obtain ⟨v, hv, happ⟩ := hfound
    ⟨lit "SteamAppId=220", List.mem_cons_of_mem _ List.mem_cons_self, lit "220", by decide,
      by decide, by decide⟩
  -- only the filler is visible
  rw [visible, if_neg (by omega), List.take_of_length_le hlen.le] at hv
  have hv : v = filler := by
    split at hv
    · exact absurd hv List.not_mem_nil
    · exact List.mem_singleton.mp hv
  obtain ⟨w, hw, -, -⟩ := happ
  have hS : chr 'S' ∈ filler := by
    rw [← hv, hw]
    exact List.mem_append_left _ (by decide)
  exact absurd (List.eq_of_mem_replicate hS) (by decide)

end X3D
