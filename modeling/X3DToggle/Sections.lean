import X3DToggle.GameFiles
import X3DToggle.Lib.WithState

/-!
# Sections and their entries

A section of `daemon.conf` runs from a line that starts with `[` and contains its header to the
next line that starts with `[`; the lines below its first one are its entries. `inSection` carries
along whether a line is in a section of a given name, and `EntryOf` is what the two editors of the
list of games mean to look for.

The editors read the file with `scanGames`. On a content within their limits the scan keeps every
line whole (`lines_scanGames`) and finds the entries it is asked for (`found_scanGames`).
-/

namespace X3D

/-- The header of the games that come with the program. -/
def sysHeader : Bytes := lit "[GAMES_SYS]"

/-- The header of the user's games. -/
def usrHeader : Bytes := lit "[GAMES_USR]"

/-- Whether a section `name` is open after a line. -/
def inSection (name : Bytes) (b : Bool) (l : Bytes) : Bool :=
  if l.head? = some (chr '[') then contains l name else b

/-- A line of a section that is not its header. -/
def isEntry (p : Bytes × Bool) : Bool := p.2 && p.1.head? ≠ some (chr '[')

/-- Some entry of a section `name` has the property, from inside one or from outside. -/
def HasEntry (name : Bytes) (P : Bytes → Prop) (b : Bool) (ls : List Bytes) : Prop :=
  ∃ p ∈ withState (inSection name) b ls, isEntry p = true ∧ P p.1

/-- The line is an entry of a section `name`. -/
def EntryOf (name : Bytes) (ls : List Bytes) (l : Bytes) : Prop := HasEntry name (· = l) false ls

/-- The limits of the editors: at most 1024 lines of fewer than 255 bytes, in at most 16383
bytes. -/
structure WithinLimits (text : Bytes) : Prop where
  count : (lines nl text).length ≤ 1024
  short : ∀ l ∈ lines nl text, l.length < 255
  length : text.length ≤ 16383

section

variable {name : Bytes} {P : Bytes → Prop} {trim : Bytes → Bytes} {game : Bytes}

theorem hasEntry_nil (b : Bool) : ¬HasEntry name P b [] := by
  rintro ⟨p, hp, -⟩
  exact List.not_mem_nil hp

theorem hasEntry_cons (b : Bool) (l : Bytes) (ls : List Bytes) :
    HasEntry name P b (l :: ls) ↔
      (l.head? ≠ some (chr '[') ∧ b = true ∧ P l) ∨ HasEntry name P (inSection name b l) ls := by
  have hhere : isEntry (l, inSection name b l) = true ↔ l.head? ≠ some (chr '[') ∧ b = true := by
    unfold isEntry inSection
    by_cases hl : l.head? = some (chr '[')
    · simp [hl]
    · simp [hl]
  unfold HasEntry
  rw [withState]
  constructor
  · rintro ⟨p, hp, hentry, hP⟩
    rcases List.mem_cons.mp hp with rfl | hp
    · exact Or.inl ⟨(hhere.mp hentry).1, (hhere.mp hentry).2, hP⟩
    · exact Or.inr ⟨p, hp, hentry, hP⟩
  · rintro (⟨hl, hb, hP⟩ | ⟨p, hp, hentry, hP⟩)
    · exact ⟨_, List.mem_cons_self, hhere.mpr ⟨hl, hb⟩, hP⟩
    · exact ⟨p, List.mem_cons_of_mem _ hp, hentry, hP⟩

/-! ### What the editors find -/

theorem headerSection_sys_iff (l : Bytes) :
    headerSection l = .sys ↔ contains l sysHeader = true := by
  unfold headerSection sysHeader
  by_cases hsys : contains l (lit "[GAMES_SYS]") = true
  · rw [if_pos hsys]
    exact iff_of_true rfl hsys
  · rw [if_neg hsys]
    refine iff_of_false ?_ hsys
    split <;> decide

theorem headerSection_usr_iff (l : Bytes) :
    headerSection l = .usr ↔ contains l usrHeader = true ∧ contains l sysHeader = false := by
  unfold headerSection usrHeader sysHeader
  by_cases hsys : contains l (lit "[GAMES_SYS]") = true
  · rw [if_pos hsys]
    refine iff_of_false (by decide) fun h => ?_
    exact Bool.false_ne_true (h.2.symm.trans hsys)
  · rw [if_neg hsys, and_iff_left (Bool.eq_false_of_not_eq_true hsys)]
    by_cases husr : contains l (lit "[GAMES_USR]") = true
    · rw [if_pos husr]
      exact iff_of_true rfl husr
    · rw [if_neg husr]
      exact iff_of_false (by decide) husr

/-- **Scanning rule.** A scan has found the game in a section of the program's games if it had, or
if an entry gives it; and in the one list or the other, likewise. -/
theorem found_foldl (trim : Bytes → Bytes) (game : Bytes) {ls : List Bytes}
    (hshort : ∀ l ∈ ls, l.length < 255) (s : GameScan) {bsys busr : Bool}
    (hsys : s.current = .sys ↔ bsys = true) (husr : s.current = .usr ↔ busr = true ∧ bsys = false) :
    ((ls.foldl (scanLine trim game) s).foundSys = true ↔
      s.foundSys = true ∨ HasEntry sysHeader (trim · = game) bsys ls) ∧
    ((ls.foldl (scanLine trim game) s).foundSys = true ∨
        (ls.foldl (scanLine trim game) s).foundUsr = true ↔
      (s.foundSys = true ∨ s.foundUsr = true) ∨ HasEntry sysHeader (trim · = game) bsys ls ∨
        HasEntry usrHeader (trim · = game) busr ls) := by
  induction ls generalizing s bsys busr with
  | nil =>
    simp only [List.foldl_nil]
    exact ⟨(or_iff_left (hasEntry_nil bsys)).symm,
      (or_iff_left (not_or.mpr ⟨hasEntry_nil bsys, hasEntry_nil busr⟩)).symm⟩
  | cons l ls ih =>
    have hclean : printfSn 256 (lit "%s") [.str l] = l := by
      rw [printfSn_s, List.take_of_length_le (hshort l List.mem_cons_self).le]
    have hrest := ih fun m hm => hshort m (List.mem_cons_of_mem l hm)
    rw [List.foldl_cons, hasEntry_cons, hasEntry_cons]
    by_cases hheader : l.head? = some (chr '[')
    · -- a header changes the section and finds nothing
      have hstate : (scanLine trim game s l).current = headerSection l ∧
          (scanLine trim game s l).foundSys = s.foundSys ∧
          (scanLine trim game s l).foundUsr = s.foundUsr := by
        rw [scanLine, if_pos hheader]
        exact ⟨rfl, rfl, rfl⟩
      obtain ⟨hcur, hfsys, hfusr⟩ := hstate
      have hsys' : (scanLine trim game s l).current = .sys ↔ inSection sysHeader bsys l = true := by
        rw [hcur, headerSection_sys_iff, inSection, if_pos hheader]
      have husr' : (scanLine trim game s l).current = .usr ↔
          inSection usrHeader busr l = true ∧ inSection sysHeader bsys l = false := by
        rw [hcur, headerSection_usr_iff, inSection, inSection, if_pos hheader, if_pos hheader]
      obtain ⟨h₁, h₂⟩ := hrest (scanLine trim game s l) hsys' husr'
      rw [hfsys] at h₁
      rw [hfsys, hfusr] at h₂
      rw [h₂, h₁]
      simp [hheader]
    · have hstate : (scanLine trim game s l).current = s.current ∧
          (scanLine trim game s l).foundSys =
            (s.foundSys || (s.current = .sys && trim l = game)) ∧
          (scanLine trim game s l).foundUsr =
            (s.foundUsr || (s.current = .usr && trim l = game)) := by
        rw [scanLine, if_neg hheader, hclean]
        exact ⟨rfl, rfl, rfl⟩
      obtain ⟨hcur, hfsys, hfusr⟩ := hstate
      have hstay (name : Bytes) (b : Bool) : inSection name b l = b := by
        rw [inSection, if_neg hheader]
      rw [hstay, hstay]
      obtain ⟨h₁, h₂⟩ := hrest (scanLine trim game s l) (by rw [hcur, hsys]) (by rw [hcur, husr])
      rw [h₂, h₁, hfsys, hfusr]
      simp only [Bool.or_eq_true, Bool.and_eq_true, decide_eq_true_iff, hsys, husr]
      -- an entry of both kinds of section is found among the program's
      generalize (trim l = game) = here
      generalize HasEntry sysHeader (trim · = game) bsys ls = insys
      generalize HasEntry usrHeader (trim · = game) busr ls = inusr
      generalize (s.foundSys = true) = wassys
      generalize (s.foundUsr = true) = wasusr
      clear h₁ h₂ hrest ih hcur hfsys hfusr hclean hstay hsys husr hshort
      cases bsys <;> cases busr <;> simp [hheader] <;> tauto

theorem lines_foldl {ls : List Bytes} (hshort : ∀ l ∈ ls, l.length < 255) (s : GameScan) :
    (ls.foldl (scanLine trim game) s).lines = s.lines ++ ls.map (· ++ [nl]) := by
  induction ls generalizing s with
  | nil => exact (List.append_nil _).symm
  | cons l ls ih =>
    have hstored : printfSn 256 (lit "%s\n") [.str l] = l ++ [nl] := by
      rw [printfSn_line, List.take_of_length_le]
      rw [List.length_append, List.length_singleton]
      exact hshort l List.mem_cons_self
    have hline : (scanLine trim game s l).lines = s.lines ++ [l ++ [nl]] := by
      rw [scanLine, hstored]
      split <;> rfl
    rw [List.foldl_cons, ih (fun m hm => hshort m (List.mem_cons_of_mem l hm)), hline,
      List.append_assoc]
    rfl

/-- What the editors read of a content within their limits. -/
theorem scanGames_eq {text : Bytes} (hlen : text.length ≤ 16383)
    (hcount : (lines nl (cstr text)).length ≤ 1024) :
    scanGames trim game (readFile true (some text) 16383) =
      (lines nl (cstr text)).foldl (scanLine trim game) ⟨[], .none, none, false, false⟩ := by
  rw [readFile_of_length_le hlen]
  by_cases hnil : text = []
  · rw [if_pos hnil, hnil]
    rfl
  · rw [if_neg hnil, scanGames]
    show List.foldl _ _ ((lines nl (cstr text)).take 1024) = _
    rw [List.take_of_length_le hcount]

/-- Up to its first NUL a content shows some of its lines. -/
theorem lines_cstr (text : Bytes) :
    lines nl (cstr text) = visible (cstr text).length (lines nl text) := by
  rw [← lines_take]
  exact congrArg (lines nl) (List.prefix_iff_eq_take.mp (List.takeWhile_prefix _))

/-- Up to its first NUL a content is within the limits if the whole of it is. -/
theorem WithinLimits.cstr {text : Bytes} (h : WithinLimits text) : WithinLimits (cstr text) := by
  have hlines := lines_cstr text
  refine ⟨?_, fun l hl => ?_, (List.takeWhile_prefix _).length_le.trans h.length⟩
  · rw [hlines]
    exact (length_visible_le _ _).trans h.count
  · rw [hlines] at hl
    obtain ⟨m, hm, hpre⟩ := exists_of_mem_visible hl
    exact hpre.length_le.trans_lt (h.short m hm)

/-- **What the editors find.** On a content within their limits they keep the lines whole, and
find the game where an entry gives it. -/
theorem found_scanGames (trim : Bytes → Bytes) (game : Bytes) {text : Bytes}
    (h : WithinLimits (cstr text)) (hlen : text.length ≤ 16383) :
    (scanGames trim game (readFile true (some text) 16383)).lines =
      (lines nl (cstr text)).map (· ++ [nl]) ∧
    ((scanGames trim game (readFile true (some text) 16383)).foundSys = true ↔
      HasEntry sysHeader (trim · = game) false (lines nl (cstr text))) ∧
    ((scanGames trim game (readFile true (some text) 16383)).foundSys = true ∨
        (scanGames trim game (readFile true (some text) 16383)).foundUsr = true ↔
      HasEntry sysHeader (trim · = game) false (lines nl (cstr text)) ∨
        HasEntry usrHeader (trim · = game) false (lines nl (cstr text))) := by
  rw [scanGames_eq hlen h.count]
  have hnosys : GameSection.none = .sys ↔ false = true := by decide
  have hnousr : GameSection.none = .usr ↔ false = true ∧ false = false := by decide
  obtain ⟨hsys, husr⟩ := found_foldl trim game h.short ⟨[], .none, none, false, false⟩ hnosys hnousr
  refine ⟨lines_foldl h.short _, ?_, ?_⟩
  · rw [hsys]
    exact or_iff_right Bool.false_ne_true
  · rw [husr]
    exact or_iff_right (not_or.mpr ⟨Bool.false_ne_true, Bool.false_ne_true⟩)

end
end X3D
