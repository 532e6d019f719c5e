import X3DToggle.Arguments
import X3DToggle.Strings

/-!
# The indent of a message

`printf_string`, `printf_step` and `printf_step_no_nl` format a message and print it behind an
indent. How deep is read off the message itself: a digit at its beginning and a comma among its
first five bytes make the number in front of the comma the level, and four blanks go with each
level. The blanks are kept in an array of 64 bytes. The loop that fills it stops at the end of
the array; the `write` that prints it does not, it takes the computed length.

So a message of level 17 prints bytes from behind the array (`indent_inArray_iff`), and one more
level is enough where a question adds to the indent.
-/

namespace X3D

/-! ### The code -/

/-- A `write(1, ...)`: so many bytes of the indent array, or a text. -/
inductive Output where
  | indent (array : Bytes) (count : ℕ)
  | text (s : Bytes)
  deriving DecidableEq

/-- `level` and `content`. -/
def levelContent (buf : Bytes) : ℤ × Bytes :=
  if buf.head?.any isDigit then
    match strchr buf (chr ',') with
    | some (level, content) => if level.length < 5 then (atoi buf, content) else (1, buf)
    | none => (1, buf)
  else if buf.head? = some (chr ',') then (1, buf.tail)
  else (1, buf)

/-- `content[0] == '?' || !strncmp(content, "❓", 3)`. -/
def isQuestion (content : Bytes) : Bool :=
  content.head? = some (chr '?') || strncmp content (lit "❓") 3

/-- `char prefix[64] = {0}` with its first bytes filled with blanks. -/
def indentArray (spaces : ℤ) : Bytes :=
  let filled := min spaces.toNat 63
  List.replicate filled (chr ' ') ++ List.replicate (64 - filled) 0

/-- `write(1, prefix, spaces)`; the length is converted to `size_t`. -/
def writeIndent (spaces : ℤ) : Output := .indent (indentArray spaces) (spaces % 2 ^ 64).toNat

/-- `COLOR_RESET`. -/
def colorReset : Bytes := 27 :: lit "[0m"

/-- `printf_string`, on the formatted message. -/
def printfString (buf : Bytes) : List Output :=
  let (level, content) := levelContent buf
  let spaces := level * 4
  [writeIndent spaces, .text content, .text [nl], .text (colorReset.take 4)]

/-- The length of the indent in `printf_step` and `printf_step_no_nl`. -/
def stepSpaces (level : ℤ) (content : Bytes) : ℤ :=
  level * 4 + if isQuestion content then 4 else 0

/-- `printf_step`, on the formatted message. An empty rest behind the last break is not printed. -/
def printfStep (buf : Bytes) : List Output :=
  let (level, content) := levelContent buf
  let spaces := stepSpaces level content
  ((lines nl content).flatMap fun line => [writeIndent spaces, .text line, .text [nl]]) ++
    [.text (colorReset.take 4)]

/-- `printf_step_no_nl`, on the formatted message. -/
def printfStepNoNl (buf : Bytes) : List Output :=
  let (level, content) := levelContent buf
  [writeIndent (stepSpaces level content), .text content]

/-! ### The level -/

/-- The array, whatever the length. -/
theorem length_indentArray (spaces : ℤ) : (indentArray spaces).length = 64 := by
  unfold indentArray
  rw [List.length_append, List.length_replicate, List.length_replicate]
  omega

/-- `atoi` reads up to nine digits without an overflow. -/
theorem atoiLoop_eq_foldl {p : Bytes} {n : ℤ} {k : ℕ} (hlow : 0 ≤ n) (hhigh : n < 10 ^ k)
    (hlen : k + (p.takeWhile isDigit).length ≤ 9) :
    atoiLoop p n = (p.takeWhile isDigit).foldl (fun a c => a * 10 + digit c) n := by
  induction p generalizing n k with
  | nil => rfl
  | cons c p ih =>
    rw [atoiLoop]
    by_cases hc : isDigit c = true
    · rw [List.takeWhile_cons_of_pos hc, List.length_cons] at hlen
      have hd := digit_bounds hc
      have hnext : n * 10 + digit c < 10 ^ (k + 1) := by
        rw [pow_succ]
        omega
      have hmax : (10 : ℤ) ^ (k + 1) ≤ 10 ^ 9 := pow_le_pow_right₀ (by norm_num) (by omega)
      have hfit : IsInt32 (n * 10 + digit c) := ⟨by omega, by omega⟩
      rw [if_pos hc, wrap32_of_isInt32 hfit, List.takeWhile_cons_of_pos hc, List.foldl_cons]
      exact ih (by omega) hnext (by omega)
    · rw [if_neg hc, List.takeWhile_cons_of_neg hc]
      rfl

/-- The number at the beginning of a message. -/
def leadingNumber (buf : Bytes) : ℤ := natValue (buf.takeWhile isDigit)

/-- In front of an early comma there is room for four digits. -/
theorem length_takeWhile_isDigit_le {buf level content : Bytes}
    (hcomma : strchr buf (chr ',') = some (level, content)) (hshort : level.length < 5) :
    (buf.takeWhile isDigit).length ≤ 4 := by
  obtain ⟨-, hbuf⟩ := cut_eq_some.mp hcomma
  have hnotMem : chr ',' ∉ buf.takeWhile isDigit := fun hmem =>
    absurd (List.mem_takeWhile_imp hmem) (by decide)
  have hpre : buf.takeWhile isDigit <+: level ++ chr ',' :: content :=
    hbuf ▸ List.takeWhile_prefix (l := buf) isDigit
  have := (prefix_of_prefix_append hnotMem hpre).length_le
  omega

/-- The number in front of an early comma is the level. -/
theorem atoi_eq_leadingNumber {buf : Bytes} (hdigit : buf.head?.any isDigit = true)
    (hlen : (buf.takeWhile isDigit).length ≤ 4) : atoi buf = leadingNumber buf := by
  cases buf with
  | nil => exact Bool.noConfusion hdigit
  | cons c p =>
    have hc : isDigit c = true := hdigit
    rw [atoi, List.dropWhile_cons_of_neg (not_isBlank_of_isDigit hc ▸ Bool.false_ne_true)]
    dsimp only
    rw [if_neg (ne_sign_of_isDigit hc).1]
    exact atoiLoop_eq_foldl (k := 0) le_rfl (by norm_num) (by omega)

theorem leadingNumber_bounds {buf : Bytes} (hlen : (buf.takeWhile isDigit).length ≤ 4) :
    0 ≤ leadingNumber buf ∧ leadingNumber buf < 10 ^ 4 := by
  have hdigits : ∀ c ∈ buf.takeWhile isDigit, isDigit c = true :=
    fun c hc => List.mem_takeWhile_imp hc
  obtain ⟨hlow, hhigh⟩ := foldl_digit_bounds hdigits (le_refl 0) (by norm_num : (0 : ℤ) < 10 ^ 0)
  refine ⟨hlow, hhigh.trans_le ?_⟩
  exact pow_le_pow_right₀ (by norm_num) (by omega)

/-! ### Inside the array -/

/-- Only bytes of the array are printed for the indent. -/
def InArray (outs : List Output) : Prop :=
  ∀ array count, Output.indent array count ∈ outs → count ≤ array.length

/-- The three functions keep to the array. -/
def IndentInArray (buf : Bytes) : Prop :=
  InArray (printfString buf) ∧ InArray (printfStep buf) ∧ InArray (printfStepNoNl buf)

/-- The message begins with a number above 16, or with 16 and a question, and has its first comma
among its first five bytes. -/
def TooDeep (buf : Bytes) : Prop :=
  buf.head?.any isDigit = true ∧
    ∃ level content, strchr buf (chr ',') = some (level, content) ∧ level.length < 5 ∧
      (16 < leadingNumber buf ∨ leadingNumber buf = 16 ∧ isQuestion content = true)

theorem inArray_cons_indent (spaces : ℤ) (outs : List Output) :
    InArray (writeIndent spaces :: outs) ↔ (spaces % 2 ^ 64).toNat ≤ 64 ∧ InArray outs := by
  unfold InArray writeIndent
  constructor
  · intro h
    refine ⟨?_, fun array count hmem => h array count (List.mem_cons_of_mem _ hmem)⟩
    have hself := h _ _ List.mem_cons_self
    rwa [length_indentArray] at hself
  · rintro ⟨hcount, hrest⟩ array count hmem
    rcases List.mem_cons.mp hmem with heq | hmem
    · obtain ⟨rfl, rfl⟩ := Output.indent.inj heq
      rwa [length_indentArray]
    · exact hrest array count hmem

theorem inArray_cons_text (s : Bytes) (outs : List Output) :
    InArray (.text s :: outs) ↔ InArray outs := by
  unfold InArray
  simp

theorem inArray_nil : InArray [] := fun _ _ hmem => absurd hmem List.not_mem_nil

/-- The lines of a step all have its indent. -/
theorem inArray_printfStep {buf : Bytes}
    (h : (stepSpaces (levelContent buf).1 (levelContent buf).2 % 2 ^ 64).toNat ≤ 64) :
    InArray (printfStep buf) := by
  intro array count hmem
  rcases List.mem_append.mp hmem with hmem | hmem
  · obtain ⟨line, -, hmem⟩ := List.mem_flatMap.mp hmem
    have hline : InArray [writeIndent (stepSpaces (levelContent buf).1 (levelContent buf).2),
        .text line, .text [nl]] := by
      rw [inArray_cons_indent, inArray_cons_text, inArray_cons_text]
      exact ⟨h, inArray_nil⟩
    exact hline array count hmem
  · exact absurd (List.mem_singleton.mp hmem) Output.noConfusion

/-- The longest of the three indents decides. -/
theorem indentInArray_iff_stepSpaces {buf : Bytes} (hlow : 0 ≤ (levelContent buf).1)
    (hhigh : (levelContent buf).1 < 10 ^ 4) :
    IndentInArray buf ↔ stepSpaces (levelContent buf).1 (levelContent buf).2 ≤ 64 := by
  have hspaces : 0 ≤ stepSpaces (levelContent buf).1 (levelContent buf).2 ∧
      (levelContent buf).1 * 4 ≤ stepSpaces (levelContent buf).1 (levelContent buf).2 ∧
      stepSpaces (levelContent buf).1 (levelContent buf).2 < 2 ^ 64 := by
    unfold stepSpaces
    split <;> omega
  constructor
  · rintro ⟨-, -, hnoNl⟩
    have hcount : (stepSpaces (levelContent buf).1 (levelContent buf).2 % 2 ^ 64).toNat ≤ 64 :=
      ((inArray_cons_indent _ _).mp hnoNl).1
    omega
  · intro hle
    have hcount : (stepSpaces (levelContent buf).1 (levelContent buf).2 % 2 ^ 64).toNat ≤ 64 := by
      omega
    have hcount' : ((levelContent buf).1 * 4 % 2 ^ 64).toNat ≤ 64 := by omega
    refine ⟨?_, inArray_printfStep hcount, ?_⟩
    · refine (inArray_cons_indent _ _).mpr ⟨hcount', ?_⟩
      rw [inArray_cons_text, inArray_cons_text, inArray_cons_text]
      exact inArray_nil
    · refine (inArray_cons_indent _ _).mpr ⟨hcount, ?_⟩
      rw [inArray_cons_text]
      exact inArray_nil

/-- A message that names no level has the level 1. -/
theorem indentInArray_of_one {buf content : Bytes} (h : levelContent buf = (1, content)) :
    IndentInArray buf := by
  have hlevel : (levelContent buf).1 = 1 := by rw [h]
  rw [indentInArray_iff_stepSpaces (by omega) (by omega), hlevel]
  unfold stepSpaces
  split <;> decide

/-- A message that names its level is at that level. -/
theorem levelContent_of_comma {buf level content : Bytes} (hdigit : buf.head?.any isDigit = true)
    (hcomma : strchr buf (chr ',') = some (level, content)) (hshort : level.length < 5) :
    levelContent buf = (leadingNumber buf, content) := by
  rw [levelContent, if_pos hdigit, hcomma]
  dsimp only
  rw [if_pos hshort, atoi_eq_leadingNumber hdigit (length_takeWhile_isDigit_le hcomma hshort)]

theorem tooDeep_iff_of_comma {buf level content : Bytes} (hdigit : buf.head?.any isDigit = true)
    (hcomma : strchr buf (chr ',') = some (level, content)) (hshort : level.length < 5) :
    TooDeep buf ↔
      16 < leadingNumber buf ∨ leadingNumber buf = 16 ∧ isQuestion content = true := by
  refine ⟨?_, fun h => ⟨hdigit, level, content, hcomma, hshort, h⟩⟩
  rintro ⟨-, level', content', hsome, -, h⟩
  cases hcomma.symm.trans hsome
  exact h

/-- The level a message names decides. -/
theorem indentInArray_iff_of_comma {buf level content : Bytes}
    (hdigit : buf.head?.any isDigit = true)
    (hcomma : strchr buf (chr ',') = some (level, content)) (hshort : level.length < 5) :
    IndentInArray buf ↔ ¬TooDeep buf := by
  have hparts := levelContent_of_comma hdigit hcomma hshort
  obtain ⟨hlow, hhigh⟩ := leadingNumber_bounds (length_takeWhile_isDigit_le hcomma hshort)
  rw [indentInArray_iff_stepSpaces (by rwa [hparts]) (by rwa [hparts]), hparts,
    tooDeep_iff_of_comma hdigit hcomma hshort]
  unfold stepSpaces
  cases isQuestion content <;> simp <;> omega

/-- **The indent** stays inside its array exactly if the message does not ask for too much. -/
theorem indent_inArray_iff (buf : CString) : IndentInArray buf.val ↔ ¬TooDeep buf.val := by
  by_cases hdigit : buf.val.head?.any isDigit = true
  · cases hcomma : strchr buf.val (chr ',') with
    | none =>
      have hone : levelContent buf.val = (1, buf.val) := by
        rw [levelContent, if_pos hdigit, hcomma]
      refine iff_of_true (indentInArray_of_one hone) ?_
      rintro ⟨-, level, content, hsome, -⟩
      cases hcomma.symm.trans hsome
    | some parts =>
      obtain ⟨level, content⟩ := parts
      by_cases hshort : level.length < 5
      · exact indentInArray_iff_of_comma hdigit hcomma hshort
      · -- the comma comes too late
        have hone : levelContent buf.val = (1, buf.val) := by
          rw [levelContent, if_pos hdigit, hcomma]
          exact if_neg hshort
        refine iff_of_true (indentInArray_of_one hone) ?_
        rintro ⟨-, level', content', hsome, hshort', -⟩
        cases hcomma.symm.trans hsome
        exact hshort hshort'
  · have hone : ∃ content, levelContent buf.val = (1, content) := by
      rw [levelContent, if_neg hdigit]
      split
      · exact ⟨_, rfl⟩
      · exact ⟨_, rfl⟩
    obtain ⟨content, hone⟩ := hone
    exact iff_of_true (indentInArray_of_one hone) fun h => hdigit h.1

/-- Level 17: 68 bytes of an array of 64. -/
theorem deep_message_overreads : ¬∀ buf : CString, IndentInArray buf.val := by
  intro h
  have hstring := (h ⟨lit "17,x", by decide⟩).1
  have hcount := hstring (indentArray 68) 68 (by decide)
  exact absurd hcount (by decide)

end X3D
