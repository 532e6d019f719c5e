import X3DToggle.Config.Update
import X3DToggle.Lib.Place

/-!
# The file as a store

On contents that fit its buffer `config_update` is a key-value store. The text it writes is the
old lines with the new one placed (`placed_eq_place`), so the laws are those of `place`: every line
of the key becomes the new one, the others stay; updating again changes nothing; a second value
overrides the first; and updates of two keys the file has commute.
-/

namespace X3D

/-- A content that fits the buffer. -/
structure IsContent (s : Bytes) : Prop where
  nonempty : s ≠ []
  zero : (0 : UInt8) ∉ s
  length : s.length ≤ 8191

/-- A key and a value, as strings without line breaks. -/
structure IsEntry (key val : Bytes) : Prop where
  separator : chr '=' ∉ key
  break_key : nl ∉ key
  zero_key : (0 : UInt8) ∉ key
  break_val : nl ∉ val
  zero_val : (0 : UInt8) ∉ val

/-- The content with the line placed. -/
def placedText (key val s : Bytes) : Bytes := unlines nl (placed key val (lines nl s))

/-- The new content fits the buffer too. -/
def UpdateFits (key val s : Bytes) : Prop := (placedText key val s).length ≤ 8191

/-- What makes an update of a content `s` to a content `s'` one of a store. -/
structure StoreLaws (k v s s' : Bytes) : Prop where
  update : configUpdate .allOk k v (some s) = some s'
  -- the new content consists of whole lines, and these are the old ones with the key's replaced
  whole : s' = unlines nl (lines nl s')
  content : lines nl s' = if (lines nl s).any (isKeyLine k)
    then (lines nl s).map fun l => if isKeyLine k l then assignment k v else l
    else lines nl s ++ [assignment k v]
  again : configUpdate .allOk k v (some s') = some s'
  second : ∀ v₂, IsEntry k v₂ → UpdateFits k v₂ s →
    configUpdate .allOk k v₂ (some s') = configUpdate .allOk k v₂ (some s)
  commute : ∀ k' v', IsEntry k' v' → k' ≠ k → (lines nl s).any (isKeyLine k) = true →
    (lines nl s).any (isKeyLine k') = true → UpdateFits k' v' s → UpdateFits k' v' s' →
    configUpdate .allOk k' v' (configUpdate .allOk k v (some s)) =
      configUpdate .allOk k v (configUpdate .allOk k' v' (some s))

section

variable {k k' v v' s : Bytes}

theorem placed_eq_place (key val : Bytes) (ls : List Bytes) :
    placed key val ls = place (isKeyLine key) (assignment key val) ls :=
  rfl

theorem IsEntry.notMem_assignment (h : IsEntry k v) :
    nl ∉ assignment k v ∧ (0 : UInt8) ∉ assignment k v :=
  ⟨X3D.notMem_assignment h.break_key (by decide) h.break_val,
    X3D.notMem_assignment h.zero_key (by decide) h.zero_val⟩

/-- The new content is the placed lines. -/
theorem lines_placedText_of_notMem (hk : nl ∉ k) (hv : nl ∉ v) (s : Bytes) :
    lines nl (placedText k v s) = placed k v (lines nl s) := by
  refine lines_unlines fun l hl hmem => ?_
  rcases mem_of_mem_placed hl hmem with hassign | ⟨m, hm, hmem⟩
  · exact notMem_assignment hk (by decide) hv hassign
  · exact notMem_of_mem_lines hm hmem

theorem lines_placedText (h : IsEntry k v) (s : Bytes) :
    lines nl (placedText k v s) = placed k v (lines nl s) :=
  lines_placedText_of_notMem h.break_key h.break_val s

theorem IsContent.placedText (hs : IsContent s) (h : IsEntry k v) (hfit : UpdateFits k v s) :
    IsContent (placedText k v s) := by
  refine ⟨fun hnil => ?_, zero_notMem_unlines fun l hl hmem => ?_, hfit⟩
  · obtain ⟨l, hl, -⟩ := exists_mem_placed k v (lines nl s)
    rw [← lines_placedText h, hnil] at hl
    exact List.not_mem_nil hl
  · rcases mem_of_mem_placed hl hmem with hassign | ⟨m, hm, hmem⟩
    · exact h.notMem_assignment.2 hassign
    · exact hs.zero (mem_of_mem_lines hm hmem)

/-- **One update.** -/
theorem configUpdate_eq (hs : IsContent s) (hfit : UpdateFits k v s) :
    configUpdate .allOk k v (some s) = some (placedText k v s) := by
  rw [configUpdate_allOk hs.nonempty hs.zero hs.length]
  exact congrArg some (List.take_of_length_le hfit)

/-- A second update of the key overrides the first. -/
theorem placedText_placedText (h : IsEntry k v) (v' : Bytes) :
    placedText k v' (placedText k v s) = placedText k v' s := by
  have hplace : placed k v' (placed k v (lines nl s)) = placed k v' (lines nl s) :=
    place_place (isKeyLine_assignment k v)
  rw [placedText, lines_placedText h, hplace]
  rfl

/-- Updates of two keys the file has commute. -/
theorem placedText_comm (h : IsEntry k v) (h' : IsEntry k' v') (hne : k' ≠ k)
    (hk : (lines nl s).any (isKeyLine k) = true) (hk' : (lines nl s).any (isKeyLine k') = true) :
    placedText k' v' (placedText k v s) = placedText k v (placedText k' v' s) := by
  -- no line is one of both keys
  have hdisjoint : ∀ l, isKeyLine k' l = true → isKeyLine k l = false := by
    intro l hl
    obtain ⟨val, rfl⟩ := isKeyLine_iff.mp hl
    exact isKeyLine_assignment_of_ne hne h.separator h'.separator val
  have hcomm := place_comm hdisjoint
    (isKeyLine_assignment_of_ne (Ne.symm hne) h'.separator h.separator v)
    (isKeyLine_assignment_of_ne hne h.separator h'.separator v') hk' hk
  rw [placedText, lines_placedText h, placedText, lines_placedText h']
  exact congrArg (unlines nl) hcomm

end

/-- **`config_update` is a lawful store.** On contents that fit the buffer before and after, it
replaces the lines of the key, or appends one, and keeps the others; it is idempotent; a second
value overrides the first; and updates of two keys the file has commute. -/
theorem configUpdate_lawful {k v s : Bytes} (hs : IsContent s) (hkv : IsEntry k v)
    (hfit : UpdateFits k v s) : StoreLaws k v s (placedText k v s) := by
  have hs' := hs.placedText hkv hfit
  have hagain : ∀ v₂, UpdateFits k v₂ s → UpdateFits k v₂ (placedText k v s) := by
    intro v₂ h
    unfold UpdateFits
    rw [placedText_placedText hkv]
    exact h
  refine ⟨configUpdate_eq hs hfit, ?_, lines_placedText hkv s, ?_, ?_, ?_⟩
  · rw [lines_placedText hkv]
    rfl
  · rw [configUpdate_eq hs' (hagain v hfit), placedText_placedText hkv]
  · intro v₂ _ hfit₂
    rw [configUpdate_eq hs' (hagain v₂ hfit₂), placedText_placedText hkv, configUpdate_eq hs hfit₂]
  · intro k' v' hkv' hne hk hk' hfit' hboth
    have hcomm := placedText_comm hkv hkv' hne hk hk'
    have hother : UpdateFits k v (placedText k' v' s) := by
      unfold UpdateFits
      rw [← hcomm]
      exact hboth
    rw [configUpdate_eq hs hfit, configUpdate_eq hs hfit', configUpdate_eq hs' hboth,
      configUpdate_eq (hs.placedText hkv' hfit') hother, hcomm]

/-- The laws for a file with a comment and a key, and no break at its end. -/
theorem configUpdate_lawful_twoLines :
    StoreLaws (lit "DEV_ENABLE") (lit "1") (lit "# x\nDEV_ENABLE=0")
      (placedText (lit "DEV_ENABLE") (lit "1") (lit "# x\nDEV_ENABLE=0")) :=
  configUpdate_lawful ⟨by decide, by decide, by decide⟩
    ⟨by decide, by decide, by decide, by decide, by decide⟩
    (by unfold UpdateFits; decide +kernel)

end X3D
