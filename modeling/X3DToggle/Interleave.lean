import X3DToggle.Config.Update
import X3DToggle.Lib.Rewrite

/-!
# Two updates at once

`config_update` reads the file whole, opens it with `O_TRUNC`, and writes its text through its own
descriptor. Between these steps another process, the daemon or a second client, may make steps of
its own; there is no lock, and the file is not replaced by a rename. A read that falls between the
truncation and the write of the other call finds the file empty, and its call returns without a
word.

The calls are updaters of the file (`whole_confUpdater`), so calls that do not overlap compose.
`keepsBoth_iff` says that these are the only complete interleavings which keep both settings,
whatever is in the file.
-/

namespace X3D

/-! ### The steps of `config_update` -/

/-- A `write` at the beginning of a file, which leaves what is behind the text. -/
def overwrite (out : Bytes) (file : Option Bytes) : Option Bytes :=
  file.map fun s => out ++ s.drop out.length

/-- `config_update` by its steps. -/
def confUpdater (env : UpdateEnv) (key val : Bytes) : Updater (Option Bytes) Bytes where
  prepare file := (readFile env.openRd file 8191).map (configUpdateText key val)
  -- without `O_CREAT` a missing file stays missing
  clear file := if env.openWr then file.map fun _ => some [] else none
  store out file := overwrite (out.take env.written) file

/-- **The steps are the function.** -/
theorem whole_confUpdater (env : UpdateEnv) (key val : Bytes) (file : Option Bytes) :
    (confUpdater env key val).whole file = configUpdate env key val file := by
  unfold Updater.whole configUpdate
  cases file with
  | none => rfl
  | some s =>
    cases hread : readFile env.openRd (some s) 8191 with
    | none => simp [confUpdater, hread]
    | some buf =>
      by_cases hwr : env.openWr = true
      · simp [confUpdater, overwrite, hread, hwr]
      · simp [confUpdater, hread, hwr]

/-! ### Two calls -/

/-- A setting that makes up one line. -/
structure Setting where
  key : Bytes
  val : Bytes
  key_clean : chr '=' ∉ key ∧ nl ∉ key ∧ (0 : UInt8) ∉ key
  val_clean : nl ∉ val ∧ (0 : UInt8) ∉ val

namespace Setting

/-- The line of a setting. -/
def line (a : Setting) : Bytes := assignment a.key a.val

/-- The lines after an update with the setting. -/
def place (a : Setting) (ls : List Bytes) : List Bytes := placed a.key a.val ls

theorem line_clean (a : Setting) : nl ∉ a.line ∧ (0 : UInt8) ∉ a.line :=
  ⟨notMem_assignment a.key_clean.2.1 (by decide) a.val_clean.1,
    notMem_assignment a.key_clean.2.2 (by decide) a.val_clean.2⟩

/-- Clean lines stay clean. -/
theorem place_clean (a : Setting) {ls : List Bytes} (h : ∀ l ∈ ls, nl ∉ l ∧ (0 : UInt8) ∉ l) :
    ∀ l ∈ a.place ls, nl ∉ l ∧ (0 : UInt8) ∉ l := by
  refine fun l hl => ⟨fun hc => ?_, fun hc => ?_⟩
  · rcases mem_of_mem_placed hl hc with hline | ⟨m, hm, hcm⟩
    · exact a.line_clean.1 hline
    · exact (h m hm).1 hcm
  · rcases mem_of_mem_placed hl hc with hline | ⟨m, hm, hcm⟩
    · exact a.line_clean.2 hline
    · exact (h m hm).2 hcm

theorem place_ne_nil (a : Setting) (ls : List Bytes) : a.place ls ≠ [] := by
  obtain ⟨l, hl, -⟩ := exists_mem_placed a.key a.val ls
  exact List.ne_nil_of_mem hl

end Setting

/-- The lines of the file. -/
def confLines (file : Option Bytes) : List Bytes := file.elim [] (lines nl)

/-- The two calls, on whose systems every call succeeds. -/
def bothCalls (a : Bool → Setting) (i : Bool) : Updater (Option Bytes) Bytes :=
  confUpdater .allOk (a i).key (a i).val

/-- A file both updates can deal with, in either order: it is not empty, has no NUL and stays within
the buffers. -/
structure Fits (a : Bool → Setting) (file : Bytes) : Prop where
  ne : file ≠ []
  zero : (0 : UInt8) ∉ file
  length : file.length ≤ 8191
  once (i : Bool) : (unlines nl ((a i).place (lines nl file))).length ≤ 8191
  twice (i : Bool) : (unlines nl ((a !i).place ((a i).place (lines nl file)))).length ≤ 8191

/-- **No update is lost.** The file assigns each key its new value and nothing else, and has every
other line of the original. -/
structure Kept (a : Bool → Setting) (file : Bytes) (final : Option Bytes) : Prop where
  new (i : Bool) : (∃ l ∈ confLines final, isKeyLine (a i).key l = true) ∧
    ∀ l ∈ confLines final, isKeyLine (a i).key l = true → l = (a i).line
  others : (confLines final).filter (fun l => ∀ i, isKeyLine (a i).key l = false) =
    (lines nl file).filter (fun l => ∀ i, isKeyLine (a i).key l = false)

/-- Calls on different keys keep each other's settings if their steps come in this order. -/
def KeepsBoth (sched : List Bool) : Prop :=
  ∀ (a : Bool → Setting) (file : Bytes), (a false).key ≠ (a true).key → Fits a file →
    ∀ t, (rewriting (bothCalls a) (some file)).run sched (.fresh (some file)) = some t →
      t.Finished → Kept a file t.cell

/-- An order of steps in which both calls come to their end. -/
def Complete (sched : List Bool) : Prop :=
  ∀ (a : Bool → Setting) (file : Bytes), (a false).key ≠ (a true).key → Fits a file →
    ∃ t, (rewriting (bothCalls a) (some file)).run sched (.fresh (some file)) = some t ∧ t.Finished

/-- One call has made its last step before the other one makes its first. -/
def Serial (sched : List Bool) : Prop :=
  ∃ i m n, sched = List.replicate m i ++ List.replicate n !i

/-! ### Calls that do not overlap -/

section

variable {a : Bool → Setting} {file : Bytes}

theorem lines_clean (hz : (0 : UInt8) ∉ file) :
    ∀ l ∈ lines nl file, nl ∉ l ∧ (0 : UInt8) ∉ l := fun _ hl =>
  ⟨notMem_of_mem_lines hl, fun hc => hz (mem_of_mem_lines hl hc)⟩

/-- One update after the other. -/
theorem Fits.configUpdate_twice (h : Fits a file) (i : Bool) :
    configUpdate .allOk (a !i).key (a !i).val
        (configUpdate .allOk (a i).key (a i).val (some file)) =
      some (unlines nl ((a !i).place ((a i).place (lines nl file)))) := by
  have hclean := (a i).place_clean (lines_clean h.zero)
  have hne : unlines nl ((a i).place (lines nl file)) ≠ [] := by
    obtain ⟨l, ls, hls⟩ := List.exists_cons_of_ne_nil ((a i).place_ne_nil (lines nl file))
    rw [hls, unlines_cons]
    exact List.append_ne_nil_of_right_ne_nil _ (List.cons_ne_nil _ _)
  have hfirst : configUpdate .allOk (a i).key (a i).val (some file) =
      some (unlines nl ((a i).place (lines nl file))) :=
    (configUpdate_allOk h.ne h.zero h.length).trans
      (congrArg some (List.take_of_length_le (h.once i)))
  rw [hfirst, configUpdate_allOk hne (zero_notMem_unlines fun l hl => (hclean l hl).2) (h.once i),
    lines_unlines fun l hl => (hclean l hl).1]
  exact congrArg some (List.take_of_length_le (h.twice i))

/-- A line of one of the keys is no line of the other. -/
theorem not_keyLine_of_ne {b c : Setting} (hne : b.key ≠ c.key) {l : Bytes}
    (hl : isKeyLine b.key l = true) : isKeyLine c.key l = false := by
  obtain ⟨v, rfl⟩ := isKeyLine_iff.mp hl
  exact isKeyLine_assignment_of_ne hne c.key_clean.1 b.key_clean.1 v

/-- Both settings are in the lines, whichever is placed last. -/
theorem kept_place (hkeys : (a false).key ≠ (a true).key) (hz : (0 : UInt8) ∉ file) (i : Bool) :
    Kept a file (some (unlines nl ((a !i).place ((a i).place (lines nl file))))) := by
  have hne : (a i).key ≠ (a !i).key := by
    cases i
    · exact hkeys
    · exact hkeys.symm
  have hclean := (a !i).place_clean ((a i).place_clean (lines_clean hz))
  have hlines : confLines (some (unlines nl ((a !i).place ((a i).place (lines nl file))))) =
      (a !i).place ((a i).place (lines nl file)) :=
    lines_unlines fun l hl => (hclean l hl).1
  -- the second update leaves the lines of the first one's key
  have hfirst : ((a !i).place ((a i).place (lines nl file))).filter (isKeyLine (a i).key) =
      ((a i).place (lines nl file)).filter (isKeyLine (a i).key) :=
    filter_placed (fun l hl => not_keyLine_of_ne hne.symm hl) _
  have hmem (l : Bytes) (hl : isKeyLine (a i).key l = true) :
      l ∈ (a !i).place ((a i).place (lines nl file)) ↔ l ∈ (a i).place (lines nl file) := by
    have hiff := congrArg (l ∈ ·) hfirst
    simpa [List.mem_filter, hl] using hiff
  have hboth (j : Bool) : j = i ∨ j = !i := by
    cases i <;> cases j <;> simp
  refine ⟨fun j => ?_, ?_⟩
  · rw [hlines]
    rcases hboth j with rfl | rfl
    · obtain ⟨l, hl, hkl⟩ := exists_mem_placed (a j).key (a j).val (lines nl file)
      exact ⟨⟨l, (hmem l hkl).mpr hl, hkl⟩, fun l hl hkl =>
        eq_assignment_of_mem_placed ((hmem l hkl).mp hl) hkl⟩
    · exact ⟨exists_mem_placed _ _ _, fun l hl hkl => eq_assignment_of_mem_placed hl hkl⟩
  · rw [hlines]
    have hother (j : Bool) (l : Bytes) (hl : isKeyLine (a j).key l = true) :
        decide (∀ i, isKeyLine (a i).key l = false) = false := by
      rw [decide_eq_false_iff_not]
      intro hno
      rw [hno j] at hl
      exact Bool.noConfusion hl
    exact (filter_placed (hother !i) _).trans (filter_placed (hother i) _)

/-- **Serial calls compose.** -/
theorem kept_of_serial {sched : List Bool} (hserial : Serial sched) : KeepsBoth sched := by
  obtain ⟨i, m, n, rfl⟩ := hserial
  intro a file hkeys hfits t hrun hfinished
  have hnodup : ([(i, m), (!i, n)].map Prod.fst).Nodup := by
    cases i <;> simp
  have hcell := run_serial [(i, m), (!i, n)] hnodup (fun _ _ => rfl)
    (by simpa using hrun) fun p _ => hfinished p.1
  rw [hcell]
  show Kept a file ((bothCalls a !i).whole ((bothCalls a i).whole (some file)))
  unfold bothCalls
  rw [whole_confUpdater, whole_confUpdater, hfits.configUpdate_twice]
  exact kept_place hkeys hfits.zero i

end

/-- A call on a file that is not empty goes through. -/
theorem prepare_bothCalls (i : Bool) {s : Bytes} (hne : s ≠ []) :
    (bothCalls a i).prepare (some s) =
      some (configUpdateText (a i).key (a i).val (s.take 8191)) := by
  have hread : readFile true (some s) 8191 = some (s.take 8191) :=
    (readFile_eq s 8191).trans (if_neg (by simpa using hne))
  show Option.map _ (readFile true (some s) 8191) = _
  rw [hread]
  rfl

theorem configUpdateText_ne_nil (key val buf : Bytes) : configUpdateText key val buf ≠ [] := by
  obtain ⟨l, hl, -⟩ := exists_mem_placed key val (lines nl (cstr buf))
  obtain ⟨m, ms, hms⟩ := List.exists_cons_of_ne_nil (List.ne_nil_of_mem hl)
  rw [configUpdateText_eq, hms, unlines_cons]
  simp

/-- Serial calls come to their end. -/
theorem complete_serial (i : Bool) : Complete (List.replicate 3 i ++ List.replicate 3 !i) := by
  intro a file _ hfits
  have hother : (!i) ≠ i := by
    cases i <;> decide
  have hfirst := run_call (u := bothCalls a) (x := some file) (s := .fresh (some file)) (i := i) rfl
    (prepare_bothCalls i hfits.ne) rfl
  set text := configUpdateText (a i).key (a i).val (file.take 8191)
  have hne : text.take 8191 ≠ [] := by
    have := configUpdateText_ne_nil (a i).key (a i).val (file.take 8191)
    simpa using this
  have hstore : (bothCalls a i).store text (some []) = some (text.take 8191) := by
    simp [bothCalls, confUpdater, overwrite, UpdateEnv.allOk]
  rw [hstore] at hfirst
  have hsecond := run_call (u := bothCalls a) (x := some file)
    (s := ⟨some (text.take 8191), Function.update (Rewriting.fresh (some file)).stage i .done⟩)
    (i := !i) (Function.update_of_ne hother _ _) (prepare_bothCalls _ hne) rfl
  refine ⟨_, Machine.run_append_eq_some.mpr ⟨_, hfirst, hsecond⟩, fun j => ?_⟩
  by_cases hj : j = i
  · subst hj
    simp
  · have hj' : j = !i := by
      cases i <;> cases j <;> simp_all
    rw [hj']
    exact Function.update_self _ _ _

/-! ### Calls that overlap -/

/-- Two settings of one character each. -/
def exampleCalls : Bool → Setting
  | false => ⟨lit "A", lit "1", by decide, by decide⟩
  | true => ⟨lit "B", lit "1", by decide, by decide⟩

/-- A file of one line. -/
def exampleFile : Bytes := lit "C=0\n"

theorem exampleFits : Fits exampleCalls exampleFile :=
  ⟨by decide, by decide, by decide, by decide, by decide⟩

/-- All orders of `n` steps. -/
def schedules : ℕ → List (List Bool)
  | 0 => [[]]
  | n + 1 => (schedules n).flatMap fun sched => [false :: sched, true :: sched]

theorem mem_schedules (sched : List Bool) : sched ∈ schedules sched.length := by
  induction sched with
  | nil => exact List.mem_singleton_self []
  | cons i sched ih =>
    refine List.mem_flatMap.mpr ⟨sched, ih, ?_⟩
    cases i <;> simp

/-- The example after an order of steps: it has not come to an end, it lacks a setting, or the calls
did not overlap. -/
def Settled (sched : List Bool) : Prop :=
  match (rewriting (bothCalls exampleCalls) (some exampleFile)).run sched
      (.fresh (some exampleFile)) with
  | none => True
  | some t => (∀ i, t.stage i = .done) →
      (∀ i, (confLines t.cell).any (isKeyLine (exampleCalls i).key)) →
      ∃ i, sched = List.replicate 3 i ++ List.replicate 3 !i

instance (sched : List Bool) : Decidable (Settled sched) := by
  unfold Settled
  split <;> infer_instance

/-- **What overlapping calls lose.** -/
theorem settled_of_length_le : ∀ n ≤ 6, ∀ sched ∈ schedules n, Settled sched := by
  decide

/-- **When no update is lost.** Of the interleavings in which both calls come to their end, those in
which the calls do not overlap keep both settings and every other line of every file, and no others
do. -/
theorem keepsBoth_iff {sched : List Bool} (hcomplete : Complete sched) :
    KeepsBoth sched ↔ Serial sched := by
  refine ⟨fun hkeeps => ?_, kept_of_serial⟩
  have hkeys : (exampleCalls false).key ≠ (exampleCalls true).key := by decide
  obtain ⟨t, hrun, hfinished⟩ := hcomplete exampleCalls exampleFile hkeys exampleFits
  have hkept := hkeeps exampleCalls exampleFile hkeys exampleFits t hrun hfinished
  have hlen : sched.length ≤ 6 := length_le_remaining hrun
  have hsettled := settled_of_length_le _ hlen sched (mem_schedules sched)
  unfold Settled at hsettled
  rw [hrun] at hsettled
  obtain ⟨i, hi⟩ := hsettled hfinished fun i => List.any_eq_true.mpr (hkept.new i).1
  exact ⟨i, 3, 3, hi⟩

/-- The rule for the call of the first process before that of the second. -/
theorem keepsBoth_iff_inTurn :
    KeepsBoth (List.replicate 3 false ++ List.replicate 3 !false) ↔
      Serial (List.replicate 3 false ++ List.replicate 3 !false) :=
  keepsBoth_iff (complete_serial false)

/-- Both calls read before either writes, and the first one's setting is lost. -/
theorem overlapping_update_lost :
    ¬∀ (a : Bool → Setting) (file : Bytes), (a false).key ≠ (a true).key → Fits a file →
      ∀ (sched : List Bool) (t : Rewriting Bool (Option Bytes) Bytes),
        (rewriting (bothCalls a) (some file)).run sched (.fresh (some file)) = some t →
          t.Finished → Kept a file t.cell := by
  intro h
  have hcheck : ((rewriting (bothCalls exampleCalls) (some exampleFile)).run
      [false, true, false, false, true, true] (.fresh (some exampleFile))).any
      (fun t => (∀ i, t.stage i = .done) ∧
        (confLines t.cell).any (isKeyLine (lit "A")) = false) := by
    decide
  obtain ⟨t, hrun, ht⟩ := Option.any_eq_true .. |>.mp hcheck
  obtain ⟨hfinished, hlost⟩ := of_decide_eq_true ht
  have hkept := h exampleCalls exampleFile (by decide) exampleFits _ t hrun hfinished
  have hany : (confLines t.cell).any (isKeyLine (lit "A")) = true :=
    List.any_eq_true.mpr (hkept.new false).1
  rw [hlost] at hany
  exact Bool.noConfusion hany

end X3D
