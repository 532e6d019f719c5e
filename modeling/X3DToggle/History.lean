import X3DToggle.Journal
import X3DToggle.Rotate

/-!
# The history of a log

Two scripts take the texts out of the live logs. `archive.sh` compresses every log and cuts it to
nothing if that went well; `rotate.sh` does so with the logs that have reached their size, whether
it went well or not, and prunes their archives. The daemon writes to its logs all the while, also
between the compression of a log and its truncation.

`journal` is this system, one step of a script at a time. `History` says that nothing is lost: what
was ever written to a log is what was in the archives that pruning has removed, then what is in the
complete archives, then what only the log has. It depends on two kinds of step. A compression must
not overwrite a text, and a truncation must not meet a byte that the archive does not have.
`history_iff` says that it depends on nothing else, in whatever order the steps come. The pattern
that a pruning matches plays no part: it takes all archives of a log or none (`isMatched_archive`),
so it removes the oldest first even where it removes those of another log (`own_split`).

One script is at work at a time.
-/

namespace X3D

/-! ### Scripts at work -/

/-- The scripts that compress. -/
inductive Script where
  -- `archive_files` of `archive.sh`
  | archive
  -- `rotate_logs` of `rotate.sh`
  | rotate (maxBytes keep : ℕ)

/-- How far a script has come. -/
inductive Visit where
  -- the files that are left
  | next (logs : List FileName)
  -- before `: > "$_file"`; `taken` bytes of it went to a complete archive
  | truncate (log : FileName) (taken : ℕ) (logs : List FileName)
  -- before the archives are counted
  | prune (keep : ℕ) (log : FileName) (logs : List FileName)

/-- A directory of logs, and what became of the texts. -/
structure Journaling where
  dir : LogDir
  script : Option (Script × Visit)
  -- everything that was written to a log
  written : FileName → Bytes
  -- what was in the archives that pruning has removed
  expired : FileName → Bytes

/-- What happens in the directory. -/
inductive JournalInput where
  | append (log : FileName) (text : Bytes)
  | start (script : Script)
  | step (job : Job)

/-- The text in the complete archives of a log. -/
def archived (log : FileName) (archives : List (FileName × Option Bytes)) : Bytes :=
  (archives.filter fun a => isOwn log a.1).flatMap fun a => a.2.getD []

/-- The script visits a log of this text. -/
def Script.takes : Script → Bytes → Bool
  | archive, _ => true
  | rotate maxBytes _, text => maxBytes ≤ text.length

/-- What comes after the compression. -/
def Script.compressed (script : Script) (gzip : Gzip) (log : FileName) (size : ℕ)
    (logs : List FileName) : Visit :=
  match script, gzip with
  | archive, .ok => .truncate log size logs
  | archive, _ => .next logs
  | rotate _ _, .ok => .truncate log size logs
  | rotate _ _, _ => .truncate log 0 logs

/-- What comes after the truncation. -/
def Script.truncated (script : Script) (log : FileName) (logs : List FileName) : Visit :=
  match script with
  | archive => .next logs
  | rotate _ keep => .prune keep log logs

/-- A step of a script. -/
def scriptStep (script : Script) (job : Job) (j : Journaling) : Visit → Journaling
  | .next [] => { j with script := none }
  | .next (log :: logs) =>
    if script.takes (j.dir.text log) then
      { j with
        dir := { j.dir with
          archives := compressArchives job log j.dir
          nodup_archives := nodup_compressArchives job log j.dir }
        script := some
          (script, script.compressed job.gzip log (j.dir.text log).length logs) }
    else { j with script := some (script, .next logs) }
  | .truncate log _ logs =>
    { j with
      dir := { j.dir with text := Function.update j.dir.text log [] }
      script := some (script, script.truncated log logs) }
  | .prune keep log logs =>
    { j with
      dir := prune keep log j.dir
      script := some (script, .next logs)
      expired := fun l => j.expired l ++
        archived l ((matched log j.dir).take ((matched log j.dir).length - keep)) }

/-- A step in the directory. -/
def journalStep : JournalInput → Journaling → Option Journaling
  | .append log text, j =>
    if j.dir.logs.contains log then
      some { j with
        dir := { j.dir with text := Function.update j.dir.text log (j.dir.text log ++ text) }
        written := Function.update j.written log (j.written log ++ text) }
    else none
  | .start script, j =>
    if j.script.isNone then some { j with script := some (script, .next j.dir.logs) } else none
  | .step job, j => j.script.map fun s => scriptStep s.1 job j s.2

/-- How many bytes of the log are in an archive already, before the log is cut. -/
def Journaling.taken (j : Journaling) (log : FileName) : ℕ :=
  match j.script with
  | some (_, .truncate l n _) => if l = log then n else 0
  | _ => 0

/-- What only the log has. -/
def Journaling.live (j : Journaling) (log : FileName) : Bytes :=
  (j.dir.text log).drop (j.taken log)

/-- Nothing of a log is lost. -/
def NothingLost (j : Journaling) (log : FileName) : Prop :=
  j.written log = j.expired log ++ (archived log j.dir.archives ++ j.live log)

/-- **Nothing is lost.** -/
def History (j : Journaling) : Prop := ∀ log, NothingLost j log

/-- An archive has no more of a log than was written. -/
def TakenLe (j : Journaling) : Prop := ∀ log, j.taken log ≤ (j.dir.text log).length

/-- The start of the record. -/
def begun (d : LogDir) : Journaling where
  dir := d
  script := none
  written log := archived log d.archives ++ d.text log
  expired _ := []

/-- The directory from the start of the record on. -/
def journal : Machine Journaling JournalInput where
  init j := ∃ d, j = begun d
  step := journalStep

/-- When a step of a script loses nothing: a compression overwrites no text, and a truncation comes
before anything else is written. -/
def VisitSafe (script : Script) (job : Job) (j : Journaling) : Visit → Prop
  | .next (log :: _) => script.takes (j.dir.text log) = true → job.gzip ≠ .unopened →
    ∀ text, (archiveName log job.ts, some text) ∈ j.dir.archives → text = []
  | .truncate log taken _ => (j.dir.text log).length ≤ taken
  | _ => True

/-- When a step loses nothing. -/
def StepSafe : JournalInput → Journaling → Prop
  | .step job, j => ∀ s, j.script = some s → VisitSafe s.1 job j s.2
  | _, _ => True

/-! ### What pruning takes -/

variable {log log' : FileName} {d : LogDir} {j j' : Journaling} {keep : ℕ}

/-- The pattern matches all archives of a log or none: theirs continue its name at a dot, and there
is no dot in the time. -/
theorem isMatched_archive {ts : Stamp} :
    isMatched log (archiveName log' ts) = true ↔
      log' = log ∨ ∃ m, log'.val = log.val ++ chr '.' :: m := by
  have hdot : chr '.' ∉ ts.val := fun h => absurd (isDigit_of_mem_stamp ts.prop h) (by decide)
  unfold isMatched
  rw [Option.isSome_iff_exists]
  constructor
  · rintro ⟨m, hm⟩
    have hname : log'.val ++ chr '.' :: (ts.val ++ lit ".gz") =
        log.val ++ chr '.' :: (m ++ lit ".gz") := globMiddle_eq_some.mp hm
    rw [← List.cons_append, ← List.cons_append, ← List.append_assoc, ← List.append_assoc] at hname
    rcases List.append_eq_append_iff.mp (List.append_cancel_right hname) with
      ⟨u, hlog, hu⟩ | ⟨u, hlog, hu⟩
    · cases u with
      | nil => exact Or.inl (Subtype.ext (hlog.trans (List.append_nil _)).symm)
      | cons c u =>
        -- a dot in the time
        have hts := (List.cons.inj hu).2
        exact absurd (hts ▸ List.mem_append_right _ List.mem_cons_self) hdot
    · cases u with
      | nil => exact Or.inl (Subtype.ext (hlog.trans (List.append_nil _)))
      | cons c u =>
        have hc := (List.cons.inj hu).1
        exact Or.inr ⟨u, hc ▸ hlog⟩
  · rintro (rfl | ⟨m, hm⟩)
    · exact ⟨ts.val, globMiddle_eq_some.mpr rfl⟩
    · refine ⟨m ++ chr '.' :: ts.val, globMiddle_eq_some.mpr ?_⟩
      show log'.val ++ chr '.' :: (ts.val ++ lit ".gz") = _
      rw [hm]
      simp only [List.append_assoc, List.cons_append]

/-- Pruning the archives of one log removes the first ones of every log. -/
theorem own_split (keep : ℕ) (log log' : FileName) (d : LogDir) :
    own log' d = ((matched log d).take ((matched log d).length - keep)).filter
      (fun a => isOwn log' a.1) ++ own log' (prune keep log d) := by
  by_cases hcontinues : log' = log ∨ ∃ m, log'.val = log.val ++ chr '.' :: m
  · -- all of them are matched
    have hall (archives : List (FileName × Option Bytes)) :
        archives.filter (fun a => isOwn log' a.1) =
          (archives.filter fun a => isMatched log a.1).filter fun a => isOwn log' a.1 := by
      rw [List.filter_filter]
      refine List.filter_congr fun a _ => ?_
      by_cases hown : isOwn log' a.1 = true
      · obtain ⟨ts, hts⟩ := isOwn_iff.mp hown
        rw [hown, hts, isMatched_archive.mpr hcontinues]
        rfl
      · rw [Bool.eq_false_of_not_eq_true hown, Bool.false_and]
    have hold : own log' d = (matched log d).filter fun a => isOwn log' a.1 := hall d.archives
    have hnew : own log' (prune keep log d) =
        ((matched log d).drop ((matched log d).length - keep)).filter fun a => isOwn log' a.1 := by
      rw [← matched_prune]
      exact hall _
    rw [hold, hnew, ← List.filter_append, List.take_append_drop]
  · -- none of them is
    have hnone (a : FileName × Option Bytes) (hmatched : isMatched log a.1 = true) :
        isOwn log' a.1 = false := by
      refine Bool.eq_false_of_not_eq_true fun hown => ?_
      obtain ⟨ts, hts⟩ := isOwn_iff.mp hown
      rw [hts] at hmatched
      exact hcontinues (isMatched_archive.mp hmatched)
    have htaken : ((matched log d).take ((matched log d).length - keep)).filter
        (fun a => isOwn log' a.1) = [] := by
      refine List.filter_eq_nil_iff.mpr fun a ha => ?_
      have hmem := List.mem_of_mem_take ha
      simp only [hnone a (List.mem_filter.mp hmem).2, Bool.false_eq_true, not_false_iff]
    rw [htaken, List.nil_append]
    show d.archives.filter _ = (d.archives.filter _).filter _
    rw [List.filter_filter]
    refine List.filter_congr fun a _ => (Bool.and_eq_left_iff_imp.mpr fun hown => ?_).symm
    refine decide_eq_true fun hremoved => ?_
    obtain ⟨b, hb, hname⟩ := List.mem_map.mp hremoved
    have hb := hnone b (List.mem_filter.mp (List.mem_of_mem_take hb)).2
    rw [hname, hown] at hb
    exact Bool.noConfusion hb

/-- Pruning splits the text in the archives. -/
theorem archived_prune (keep : ℕ) (log log' : FileName) (d : LogDir) :
    archived log' d.archives =
      archived log' ((matched log d).take ((matched log d).length - keep)) ++
        archived log' (prune keep log d).archives := by
  have hsplit := congrArg (List.flatMap fun a => a.2.getD []) (own_split keep log log' d)
  rw [List.flatMap_append] at hsplit
  exact hsplit

/-! ### What compression overwrites -/

theorem isOwn_archiveName_of_ne (h : log' ≠ log) (ts : Stamp) :
    isOwn log' (archiveName log ts) = false := by
  refine Bool.eq_false_of_not_eq_true fun hown => ?_
  obtain ⟨ts', hts'⟩ := isOwn_iff.mp hown
  exact h (archiveName_inj hts').symm

/-- Writing an archive leaves the archives of other logs alone. -/
theorem archived_writeArchive_of_ne (h : log' ≠ log) (ts : Stamp) (data : Option Bytes)
    (archives : List (FileName × Option Bytes)) :
    archived log' (writeArchive archives (archiveName log ts) data) = archived log' archives := by
  have hname := isOwn_archiveName_of_ne h ts
  have hnew : [(archiveName log ts, data)].filter (fun a => isOwn log' a.1) = [] :=
    List.filter_cons_of_neg (by simp [hname])
  unfold archived writeArchive
  rw [List.filter_append, hnew, List.append_nil, List.filter_filter]
  refine congrArg (List.flatMap _) (List.filter_congr fun a _ => ?_)
  refine Bool.and_eq_left_iff_imp.mpr fun hown => decide_eq_true ?_
  rintro heq
  rw [heq, hname] at hown
  exact Bool.noConfusion hown

/-- What is archived after a write: what was there, if no text is overwritten, and the new one. -/
theorem archived_writeArchive (archives : List (FileName × Option Bytes)) (log : FileName)
    (ts : Stamp) (data : Option Bytes) (text : Bytes) :
    archived log (writeArchive archives (archiveName log ts) data) ++ text =
        archived log archives ++ (data.getD [] ++ text) ↔
      ∀ t, (archiveName log ts, some t) ∈ archives → t = [] := by
  have hown : isOwn log (archiveName log ts) = true := isOwn_iff.mpr ⟨ts, rfl⟩
  have hnew : [(archiveName log ts, data)].filter (fun a => isOwn log a.1) =
      [(archiveName log ts, data)] := List.filter_cons_of_pos hown
  unfold archived writeArchive
  rw [List.filter_append, hnew, List.flatMap_append, List.flatMap_singleton, List.append_assoc,
    List.append_cancel_right_eq, List.filter_comm, flatMap_filter_eq_iff]
  constructor
  · intro h t ht
    exact h _ (List.mem_filter.mpr ⟨ht, hown⟩) (decide_eq_false (not_not.mpr rfl))
  · rintro h ⟨name, data⟩ ha hname
    obtain rfl := not_not.mp (of_decide_eq_false hname)
    cases data with
    | none => rfl
    | some t => exact h t (List.mem_filter.mp ha).1

/-! ### One step -/

theorem history_append (h : History j) (hle : TakenLe j) {text : Bytes} :
    History { j with
      dir := { j.dir with text := Function.update j.dir.text log (j.dir.text log ++ text) }
      written := Function.update j.written log (j.written log ++ text) } := by
  intro l
  by_cases hl : l = log
  · subst hl
    have hlive : j.written l ++ text =
        j.expired l ++ (archived l j.dir.archives ++ (j.dir.text l ++ text).drop (j.taken l)) := by
      have hkept : j.written l = _ := h l
      rw [List.drop_append_of_le_length (hle l), hkept, Journaling.live]
      simp only [List.append_assoc]
    unfold NothingLost Journaling.live
    dsimp only
    rw [Function.update_self, Function.update_self]
    exact hlive
  · unfold NothingLost Journaling.live
    dsimp only
    rw [Function.update_of_ne hl, Function.update_of_ne hl]
    exact h l

/-- A step that writes nothing to a log and prunes nothing. -/
theorem NothingLost.iff (h : NothingLost j log) (hwritten : j'.written log = j.written log)
    (hexpired : j'.expired log = j.expired log) :
    NothingLost j' log ↔ archived log j'.dir.archives ++ j'.live log =
      archived log j.dir.archives ++ j.live log := by
  unfold NothingLost at h ⊢
  rw [hwritten, hexpired, h, List.append_right_inj]
  exact eq_comm

theorem history_iff_kept (hothers : ∀ l, l ≠ log → NothingLost j' l) :
    History j' ↔ NothingLost j' log := by
  refine ⟨fun hhistory => hhistory log, fun hlog l => ?_⟩
  by_cases hl : l = log
  · exact hl ▸ hlog
  · exact hothers l hl

/-- A step that leaves the directory alone, away from a truncation. -/
theorem history_idle {script : Option (Script × Visit)} (h : History j)
    (htaken : ∀ l, j.taken l = 0)
    (htaken' : ∀ l, ({ j with script := script } : Journaling).taken l = 0) :
    History { j with script := script } := by
  intro l
  have hkept : j.written l = j.expired l ++ (archived l j.dir.archives ++ j.live l) := h l
  unfold Journaling.live at hkept
  rw [htaken] at hkept
  unfold NothingLost Journaling.live
  rw [htaken']
  exact hkept

/-- **Compression** keeps the record unless it overwrites a text. -/
theorem history_compress {script : Script} {job : Job} {logs : List FileName}
    (hscript : j.script = some (script, .next (log :: logs))) (h : History j)
    (hj' : j' = { j with
      dir := { j.dir with
        archives := compressArchives job log j.dir
        nodup_archives := nodup_compressArchives job log j.dir }
      script := some (script, script.compressed job.gzip log (j.dir.text log).length logs) }) :
    History j' ↔ (job.gzip ≠ .unopened →
      ∀ text, (archiveName log job.ts, some text) ∈ j.dir.archives → text = []) := by
  have hlive (l : FileName) : j.live l = j.dir.text l := by
    unfold Journaling.live Journaling.taken
    rw [hscript]
    rfl
  have hothers (l : FileName) (hl : l ≠ log) : NothingLost j' l := by
    refine (NothingLost.iff (h l) (by rw [hj']) (by rw [hj'])).mpr ?_
    have harchived : archived l j'.dir.archives = archived l j.dir.archives := by
      rw [hj']
      show archived l (compressArchives job log j.dir) = _
      unfold compressArchives
      cases job.gzip with
      | ok => exact archived_writeArchive_of_ne hl _ _ _
      | broken => exact archived_writeArchive_of_ne hl _ _ _
      | unopened => rfl
    have hlive' : j'.live l = j.dir.text l := by
      rw [hj']
      unfold Journaling.live Journaling.taken Script.compressed
      cases script <;> cases job.gzip <;> simp [hl.symm]
    rw [harchived, hlive', hlive]
  rw [history_iff_kept hothers, NothingLost.iff (h log) (by rw [hj']) (by rw [hj']), hlive]
  have hcompressed : j'.dir.archives = compressArchives job log j.dir := by rw [hj']
  cases hgzip : job.gzip with
  | ok =>
    have hlive' : j'.live log = [] := by
      rw [hj', hgzip]
      unfold Journaling.live Journaling.taken Script.compressed
      cases script <;> simp
    have hwrite := archived_writeArchive j.dir.archives log job.ts (some (j.dir.text log)) []
    rw [List.append_nil (Option.getD _ _)] at hwrite
    rw [hcompressed, compressArchives, hgzip, hlive', imp_iff_right (by simp)]
    exact hwrite
  | broken =>
    have hlive' : j'.live log = j.dir.text log := by
      rw [hj', hgzip]
      unfold Journaling.live Journaling.taken Script.compressed
      cases script <;> simp
    rw [hcompressed, compressArchives, hgzip, hlive', imp_iff_right (by simp)]
    exact archived_writeArchive j.dir.archives log job.ts none (j.dir.text log)
  | unopened =>
    have hlive' : j'.live log = j.dir.text log := by
      rw [hj', hgzip]
      unfold Journaling.live Journaling.taken Script.compressed
      cases script <;> simp
    rw [hcompressed, compressArchives, hgzip, hlive']
    exact iff_of_true rfl fun hopened => absurd rfl hopened

/-- **Truncation** keeps the record if the archive has all of the log. -/
theorem history_truncate {script : Script} {taken : ℕ} {logs : List FileName}
    (hscript : j.script = some (script, .truncate log taken logs)) (h : History j)
    (hj' : j' = { j with
      dir := { j.dir with text := Function.update j.dir.text log [] }
      script := some (script, script.truncated log logs) }) :
    History j' ↔ (j.dir.text log).length ≤ taken := by
  have hlive (l : FileName) : j.live l = (j.dir.text l).drop (if log = l then taken else 0) := by
    unfold Journaling.live Journaling.taken
    rw [hscript]
  have hlive' (l : FileName) : j'.live l = Function.update j.dir.text log [] l := by
    rw [hj']
    unfold Journaling.live Journaling.taken Script.truncated
    cases script <;> rfl
  have harchives : j'.dir.archives = j.dir.archives := by rw [hj']
  have hothers (l : FileName) (hl : l ≠ log) : NothingLost j' l := by
    refine (NothingLost.iff (h l) (by rw [hj']) (by rw [hj'])).mpr ?_
    rw [harchives, hlive, hlive', if_neg (Ne.symm hl), Function.update_of_ne hl, List.drop_zero]
  rw [history_iff_kept hothers, NothingLost.iff (h log) (by rw [hj']) (by rw [hj']), harchives,
    hlive, hlive', if_pos rfl, Function.update_self, List.append_right_inj, eq_comm,
    List.drop_eq_nil_iff]

/-- **Pruning** keeps the record. -/
theorem history_prune {script : Script} {logs : List FileName}
    (hscript : j.script = some (script, .prune keep log logs)) (h : History j) :
    History { j with
      dir := prune keep log j.dir
      script := some (script, .next logs)
      expired := fun l => j.expired l ++
        archived l ((matched log j.dir).take ((matched log j.dir).length - keep)) } := by
  intro l
  have hkept : j.written l = _ := h l
  have hlive : j.live l = j.dir.text l := by
    unfold Journaling.live Journaling.taken
    rw [hscript]
    rfl
  unfold NothingLost Journaling.live Journaling.taken
  dsimp only
  rw [hkept, hlive, archived_prune keep log l j.dir]
  simp only [List.append_assoc]
  rfl

/-- **Step lemma.** -/
theorem history_step {i : JournalInput} (h : History j) (hle : TakenLe j)
    (hstep : journalStep i j = some j') :
    (History j' ↔ StepSafe i j) ∧ (History j' → TakenLe j') := by
  cases i with
  | append log text =>
    dsimp only [journalStep] at hstep
    by_cases hlog : j.dir.logs.contains log = true
    · rw [if_pos hlog] at hstep
      obtain rfl := Option.some.inj hstep
      refine ⟨iff_of_true (history_append h hle) trivial, fun _ l => (hle l).trans ?_⟩
      show _ ≤ (Function.update j.dir.text log _ l).length
      by_cases hl : l = log
      · rw [hl, Function.update_self, List.length_append]
        exact Nat.le_add_right _ _
      · rw [Function.update_of_ne hl]
    · rw [if_neg hlog] at hstep
      exact absurd hstep (by simp)
  | start script =>
    dsimp only [journalStep] at hstep
    cases hscript : j.script with
    | none =>
      rw [hscript] at hstep
      obtain rfl := Option.some.inj hstep
      have htaken (l : FileName) : j.taken l = 0 := by
        unfold Journaling.taken
        rw [hscript]
      exact ⟨iff_of_true (history_idle h htaken fun _ => rfl) trivial, fun _ l => Nat.zero_le _⟩
    | some s =>
      rw [hscript] at hstep
      exact absurd hstep (by simp)
  | step job =>
    obtain ⟨⟨script, v⟩, hscript, rfl⟩ := Option.map_eq_some_iff.mp hstep
    have hsafe : StepSafe (.step job) j ↔ VisitSafe script job j v := by
      refine ⟨fun hall => hall _ hscript, fun hv s hs => ?_⟩
      obtain rfl := Option.some.inj (hscript.symm.trans hs)
      exact hv
    rw [hsafe]
    cases v with
    | next logs =>
      have htaken (l : FileName) : j.taken l = 0 := by
        unfold Journaling.taken
        rw [hscript]
      cases logs with
      | nil =>
        exact ⟨iff_of_true (history_idle h htaken fun _ => rfl) trivial, fun _ l => Nat.zero_le _⟩
      | cons log logs =>
        dsimp only [scriptStep]
        by_cases htakes : script.takes (j.dir.text log) = true
        · rw [if_pos htakes]
          refine ⟨(history_compress hscript h rfl).trans (imp_iff_right htakes).symm, fun _ l => ?_⟩
          have hsize : (if log = l then (j.dir.text log).length else 0) ≤
              (j.dir.text l).length := by
            split
            · next hl => rw [hl]
            · exact Nat.zero_le _
          unfold Journaling.taken Script.compressed
          dsimp only
          cases script <;> cases job.gzip
          all_goals
            first
            | exact hsize
            | exact Nat.zero_le _
            | simp
        · rw [if_neg htakes]
          refine ⟨iff_of_true (history_idle h htaken fun _ => rfl) fun htakes' => ?_, fun _ l =>
            Nat.zero_le _⟩
          exact absurd htakes' htakes
    | truncate log taken logs =>
      refine ⟨history_truncate hscript h rfl, fun _ l => ?_⟩
      unfold scriptStep Journaling.taken Script.truncated
      cases script <;> exact Nat.zero_le _
    | prune keep log logs =>
      exact ⟨iff_of_true (history_prune hscript h) trivial, fun _ l => Nat.zero_le _⟩

/-! ### A rotation left alone -/

/-- A log is visited in one step or in three. -/
theorem rotate_visit {maxBytes : ℕ} (jobs : FileName → Job) {logs : List FileName}
    (hscript : j.script = some (.rotate maxBytes keep, .next (log :: logs))) :
    ∃ n j', journal.run (List.replicate n (.step (jobs log))) j = some j' ∧
      j'.script = some (.rotate maxBytes keep, .next logs) ∧
      j'.dir = rotateLog maxBytes keep jobs log j.dir := by
  have hstep (job : Job) (i : Journaling) (s : Script × Visit) (hs : i.script = some s) :
      journal.step (.step job) i = some (scriptStep s.1 job i s.2) :=
    congrArg (Option.map _) hs
  by_cases hsize : maxBytes ≤ (j.dir.text log).length
  · have hfirst := hstep (jobs log) j _ hscript
    dsimp only [scriptStep] at hfirst
    rw [Script.takes, if_pos (decide_eq_true hsize)] at hfirst
    obtain ⟨taken, htaken⟩ : ∃ taken, (Script.rotate maxBytes keep).compressed (jobs log).gzip log
        (j.dir.text log).length logs = .truncate log taken logs := by
      unfold Script.compressed
      cases (jobs log).gzip <;> exact ⟨_, rfl⟩
    rw [htaken] at hfirst
    refine ⟨3, _, Machine.run_cons_eq_some.mpr ⟨_, hfirst, rfl⟩, rfl, ?_⟩
    rw [rotateLog, if_pos hsize]
    rfl
  · have hfirst := hstep (jobs log) j _ hscript
    dsimp only [scriptStep] at hfirst
    rw [Script.takes, if_neg (by simpa using hsize)] at hfirst
    refine ⟨1, _, Machine.run_cons_eq_some.mpr ⟨_, hfirst, rfl⟩, rfl, ?_⟩
    rw [rotateLog, if_neg hsize]

/-- **A rotation that nothing comes between is `rotate_logs`.** -/
theorem rotate_alone {maxBytes : ℕ} (jobs : FileName → Job) (logs : List FileName)
    (hscript : j.script = some (.rotate maxBytes keep, .next logs)) :
    ∃ is : List Job, ∃ j', journal.run (is.map .step) j = some j' ∧ j'.script = none ∧
      j'.dir = logs.foldl (fun d log => rotateLog maxBytes keep jobs log d) j.dir := by
  induction logs generalizing j with
  | nil => exact ⟨[⟨.ok, ⟨List.replicate 14 (chr '0'), by decide⟩⟩], _,
      Machine.run_cons_eq_some.mpr ⟨_, congrArg (Option.map _) hscript, rfl⟩, rfl, rfl⟩
  | cons log logs ih =>
    obtain ⟨n, t, hrun, ht, hdir⟩ := rotate_visit jobs hscript
    obtain ⟨is, j', hrest, hdone, hdir'⟩ := ih ht
    refine ⟨List.replicate n (jobs log) ++ is, j', ?_, hdone, ?_⟩
    · rw [List.map_append, List.map_replicate]
      exact Machine.run_append_eq_some.mpr ⟨t, hrun, hrest⟩
    · rw [hdir', hdir, List.foldl_cons]

end X3D
