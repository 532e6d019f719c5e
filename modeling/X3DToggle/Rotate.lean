import X3DToggle.Lib.Lists
import X3DToggle.Lib.Machine
import X3DToggle.Libc

/-!
# Log rotation

`rotate_logs` visits the live logs of a directory. A log that has reached its size is compressed
into an archive with a time stamp in its name, cut to nothing, and then the archives that its
pattern matches are pruned to the last `KEEP`. No step looks at how the one before went.

A rotation is two phases here, `compress` and `prune`, and each has its law and the exact condition
of it (`savesAll_iff`, `prunesOldest_iff`). Data is lost if the compression fails, and if an archive
of the same second is overwritten; and the pattern `base.*.gz` also matches the archives of a log
whose name continues `base.`, which are then counted and removed with the own ones.

A call is a run of the machine `rotator` (`rotateLogs_safe_iff`). The list of archives is in the
order of `ls -1tr`, the oldest first; the listing is read line by line, so names of files have no
line breaks.
-/

namespace X3D

/-! ### The directory -/

/-- The name of a file. -/
abbrev FileName := { s : Bytes // nl ∉ s }

/-- What `date +%Y%m%d%H%M%S` prints: 14 digits. -/
def isStamp (s : Bytes) : Bool := s.length = 14 && s.all isDigit

/-- The time in the name of an archive. -/
abbrev Stamp := { s : Bytes // isStamp s = true }

theorem isDigit_of_mem_stamp {s : Bytes} (h : isStamp s = true) {c : UInt8} (hc : c ∈ s) :
    isDigit c = true :=
  List.all_eq_true.mp (Bool.and_eq_true_iff.mp h).2 c hc

/-- `"$logfile.$ts.gz"`. -/
def archiveName (log : FileName) (ts : Stamp) : FileName :=
  ⟨log.val ++ chr '.' :: (ts.val ++ lit ".gz"), by
    have hstamp : nl ∉ ts.val := fun h => absurd (isDigit_of_mem_stamp ts.prop h) (by decide)
    simp only [List.mem_append, List.mem_cons, not_or]
    exact ⟨log.prop, by decide, hstamp, by decide⟩⟩

/-- What stands for the `*` when the pattern `"${base}."*.gz` matches. -/
def globMiddle (log name : FileName) : Option Bytes :=
  (name.val.dropPrefix? (log.val ++ [chr '.'])).bind (·.dropSuffix? (lit ".gz"))

/-- The pattern matches. -/
def isMatched (log name : FileName) : Bool := (globMiddle log name).isSome

/-- The name is that of an archive of the log. -/
def isOwn (log name : FileName) : Bool := (globMiddle log name).any isStamp

/-- A directory of logs. An archive holds a text if it was written completely. -/
structure LogDir where
  -- in the order of `*.log`
  logs : List FileName
  text : FileName → Bytes
  -- the oldest one first
  archives : List (FileName × Option Bytes)
  nodup_logs : logs.Nodup
  nodup_archives : (archives.map Prod.fst).Nodup

/-! ### The code -/

/-- How `gzip -c -- "$logfile" >"$archive"` ends. -/
inductive Gzip where
  | ok
  -- the archive was opened, but not written completely
  | broken
  -- the archive could not be opened
  | unopened

/-- What a rotation meets: the outcome of the compression, and the time. -/
structure Job where
  gzip : Gzip
  ts : Stamp

/-- A file written anew is the latest one. -/
def writeArchive (archives : List (FileName × Option Bytes)) (name : FileName)
    (data : Option Bytes) : List (FileName × Option Bytes) :=
  archives.filter (·.1 ≠ name) ++ [(name, data)]

theorem nodup_writeArchive {archives : List (FileName × Option Bytes)}
    (h : (archives.map Prod.fst).Nodup) (name : FileName) (data : Option Bytes) :
    ((writeArchive archives name data).map Prod.fst).Nodup := by
  unfold writeArchive
  rw [List.map_append, List.map_singleton, List.nodup_append]
  refine ⟨h.sublist (List.filter_sublist.map _), List.nodup_singleton _, ?_⟩
  rintro x hx y hy rfl
  obtain ⟨a, ha, rfl⟩ := List.mem_map.mp hx
  exact of_decide_eq_true (List.mem_filter.mp ha).2 (List.mem_singleton.mp hy)

/-- `gzip -c -- "$logfile" >"$archive"`. -/
def compressArchives (job : Job) (log : FileName) (d : LogDir) : List (FileName × Option Bytes) :=
  match job.gzip with
  | .ok => writeArchive d.archives (archiveName log job.ts) (some (d.text log))
  | .broken => writeArchive d.archives (archiveName log job.ts) none
  | .unopened => d.archives

theorem nodup_compressArchives (job : Job) (log : FileName) (d : LogDir) :
    ((compressArchives job log d).map Prod.fst).Nodup := by
  unfold compressArchives
  cases job.gzip with
  | ok => exact nodup_writeArchive d.nodup_archives _ _
  | broken => exact nodup_writeArchive d.nodup_archives _ _
  | unopened => exact d.nodup_archives

/-- The archive is written, and the log cut to nothing: `: >"$logfile"`. -/
def compress (job : Job) (log : FileName) (d : LogDir) : LogDir :=
  { d with
    text := Function.update d.text log []
    archives := compressArchives job log d
    nodup_archives := nodup_compressArchives job log d }

/-- What `ls -1tr "$dir/${base}."*.gz` lists. -/
def matched (log : FileName) (d : LogDir) : List (FileName × Option Bytes) :=
  d.archives.filter fun a => isMatched log a.1

/-- `head -n "$diff"` of it, if there are more than `KEEP`. -/
def removed (keep : ℕ) (log : FileName) (d : LogDir) : List FileName :=
  ((matched log d).take ((matched log d).length - keep)).map Prod.fst

/-- `rm -f` of what is listed first. -/
def prune (keep : ℕ) (log : FileName) (d : LogDir) : LogDir :=
  { d with
    archives := d.archives.filter (·.1 ∉ removed keep log d)
    nodup_archives := d.nodup_archives.sublist (List.filter_sublist.map _) }

/-- The body of the loop of `rotate_logs`, for a regular file. -/
def rotateLog (maxBytes keep : ℕ) (jobs : FileName → Job) (log : FileName) (d : LogDir) : LogDir :=
  if maxBytes ≤ (d.text log).length then prune keep log (compress (jobs log) log d) else d

/-- `rotate_logs`. The loop of `rotate_audits` is the same, over other files. -/
def rotateLogs (maxBytes keep : ℕ) (jobs : FileName → Job) (d : LogDir) : LogDir :=
  d.logs.foldl (fun d log => rotateLog maxBytes keep jobs log d) d

/-! ### What a rotation promises -/

/-- The archives of a log. -/
def own (log : FileName) (d : LogDir) : List (FileName × Option Bytes) :=
  d.archives.filter fun a => isOwn log a.1

/-- The archives of a log beyond the last `keep`. -/
def surplus (keep : ℕ) (log : FileName) (d : LogDir) : List (FileName × Option Bytes) :=
  (own log d).take ((own log d).length - keep)

/-- Between `d` and `d'` the text of the log goes to a complete archive, if there is any, and the
complete archives there were stay. -/
def SavesAll (job : Job) (log : FileName) (d d' : LogDir) : Prop :=
  (d.text log = [] ∨ (archiveName log job.ts, some (d.text log)) ∈ d'.archives) ∧
    ∀ name text, (name, some text) ∈ d.archives → (name, some text) ∈ d'.archives

/-- Between `d` and `d'` the archives of the log are reduced to the last `keep`, and all others
stay. -/
def PrunesOldest (keep : ℕ) (log : FileName) (d d' : LogDir) : Prop :=
  own log d' = (own log d).drop ((own log d).length - keep) ∧
    d'.archives.filter (fun a => !isOwn log a.1) = d.archives.filter fun a => !isOwn log a.1

/-- When the compression saves everything: it succeeds and overwrites nothing else, or it fails and
nothing is lost by it. -/
def CompressOk (job : Job) (log : FileName) (d : LogDir) : Prop :=
  match job.gzip with
  | .ok => ∀ text, (archiveName log job.ts, some text) ∈ d.archives → text = d.text log
  | .broken => d.text log = [] ∧ ∀ text, (archiveName log job.ts, some text) ∉ d.archives
  | .unopened => d.text log = [] ∨ (archiveName log job.ts, some (d.text log)) ∈ d.archives

/-- When pruning removes the right archives: there are few, or the pattern matches no others. -/
def PatternOk (keep : ℕ) (log : FileName) (d : LogDir) : Prop :=
  (matched log d).length ≤ keep ∨ ∀ a ∈ matched log d, isOwn log a.1

/-! ### Names -/

variable {log log' name : FileName}

theorem globMiddle_eq_some {m : Bytes} :
    globMiddle log name = some m ↔ name.val = log.val ++ chr '.' :: (m ++ lit ".gz") := by
  unfold globMiddle
  rw [Option.bind_eq_some_iff]
  constructor
  · rintro ⟨rest, hprefix, hsuffix⟩
    obtain ⟨a, ha, haeq⟩ := List.dropPrefix?_eq_some_iff.mp hprefix
    obtain ⟨b, hb, hbeq⟩ := List.dropSuffix?_eq_some_iff.mp hsuffix
    rw [ha, hb, eq_of_beq haeq, eq_of_beq hbeq, List.append_assoc, List.singleton_append]
  · intro h
    refine ⟨m ++ lit ".gz", List.dropPrefix?_eq_some_iff.mpr ⟨_, ?_, beq_self_eq_true _⟩,
      List.dropSuffix?_eq_some_iff.mpr ⟨_, rfl, beq_self_eq_true _⟩⟩
    rw [h, List.append_assoc, List.singleton_append]

theorem isOwn_iff : isOwn log name = true ↔
    ∃ ts : Stamp, name = archiveName log ts := by
  unfold isOwn
  rw [Option.any_eq_true]
  constructor
  · rintro ⟨m, hm, hstamp⟩
    exact ⟨⟨m, hstamp⟩, Subtype.ext (globMiddle_eq_some.mp hm)⟩
  · rintro ⟨ts, rfl⟩
    exact ⟨ts.val, globMiddle_eq_some.mpr rfl, ts.prop⟩

theorem isMatched_of_isOwn (h : isOwn log name = true) : isMatched log name = true := by
  unfold isOwn at h
  rw [Option.any_eq_true] at h
  obtain ⟨m, hm, -⟩ := h
  unfold isMatched
  rw [hm]
  rfl

/-- The time has no dot, so a name is that of an archive of one log. -/
theorem archiveName_inj {ts ts' : Stamp} (h : archiveName log ts = archiveName log' ts') :
    log = log' := by
  have hval : log.val ++ chr '.' :: (ts.val ++ lit ".gz") =
      log'.val ++ chr '.' :: (ts'.val ++ lit ".gz") := congrArg Subtype.val h
  have hdot {ts : Stamp} : chr '.' ∉ ts.val.reverse := fun hmem =>
    absurd (isDigit_of_mem_stamp ts.prop (List.mem_reverse.mp hmem)) (by decide)
  rw [← List.cons_append, ← List.cons_append, ← List.append_assoc, ← List.append_assoc] at hval
  have hstem := congrArg List.reverse (List.append_cancel_right hval)
  rw [List.reverse_append, List.reverse_append, List.reverse_cons, List.reverse_cons,
    List.append_assoc, List.append_assoc, List.singleton_append, List.singleton_append] at hstem
  have hcut := congrArg (cut (chr '.')) hstem
  rw [cut_append hdot, cut_append hdot] at hcut
  exact Subtype.ext (List.reverse_injective (congrArg Prod.snd (Option.some.inj hcut)))

/-! ### Compression -/

variable {job : Job} {d : LogDir} {keep : ℕ}

theorem mem_writeArchive {archives : List (FileName × Option Bytes)} {data : Option Bytes}
    {a : FileName × Option Bytes} :
    a ∈ writeArchive archives name data ↔ a ∈ archives ∧ a.1 ≠ name ∨ a = (name, data) := by
  unfold writeArchive
  rw [List.mem_append, List.mem_filter, List.mem_singleton, decide_eq_true_iff]

/-- **Compression** saves everything exactly under its condition. -/
theorem savesAll_iff : SavesAll job log d (compress job log d) ↔ CompressOk job log d := by
  unfold SavesAll CompressOk compress compressArchives
  dsimp only
  cases job.gzip with
  | ok =>
    dsimp only
    constructor
    · -- an archive of the same second is overwritten
      rintro ⟨-, hkeeps⟩ text htext
      rcases mem_writeArchive.mp (hkeeps _ _ htext) with ⟨-, hne⟩ | heq
      · exact absurd rfl hne
      · exact Option.some.inj (congrArg Prod.snd heq)
    · intro h
      refine ⟨Or.inr (mem_writeArchive.mpr (Or.inr rfl)), fun name text htext => ?_⟩
      rw [mem_writeArchive]
      by_cases hname : name = archiveName log job.ts
      · subst hname
        exact Or.inr (congrArg (fun t => (_, some t)) (h text htext))
      · exact Or.inl ⟨htext, hname⟩
  | broken =>
    dsimp only
    constructor
    · rintro ⟨htext, hkeeps⟩
      -- no complete archive of that name is left
      have hnone (text : Bytes) : (archiveName log job.ts, some text) ∉
          writeArchive d.archives (archiveName log job.ts) none := by
        rw [mem_writeArchive]
        rintro (⟨-, hne⟩ | heq)
        · exact hne rfl
        · exact Option.some_ne_none _ (congrArg Prod.snd heq)
      exact ⟨htext.resolve_right (hnone _), fun text hmem => hnone text (hkeeps _ _ hmem)⟩
    · rintro ⟨htext, hfree⟩
      refine ⟨Or.inl htext, fun name text hmem => mem_writeArchive.mpr (Or.inl ⟨hmem, ?_⟩)⟩
      rintro rfl
      exact hfree text hmem
  | unopened =>
    dsimp only
    exact and_iff_left fun _ _ hmem => hmem

/-! ### Pruning -/

/-- What is left of the files the pattern matches. -/
theorem matched_prune : (prune keep log d).archives.filter (fun a => isMatched log a.1) =
    (matched log d).drop ((matched log d).length - keep) := by
  have hnodup : ((matched log d).map Prod.fst).Nodup :=
    d.nodup_archives.sublist (List.filter_sublist.map _)
  rw [← filter_notMem_take hnodup]
  show (d.archives.filter _).filter _ = (d.archives.filter _).filter _
  rw [List.filter_filter, List.filter_filter]
  refine List.filter_congr fun a _ => ?_
  rw [Bool.and_comm]
  exact congrArg (· && isMatched log a.1) (decide_eq_decide.mpr Iff.rfl)

/-- Own archives are matched, so filtering for both is filtering for the first. -/
theorem filter_own_matched (archives : List (FileName × Option Bytes)) :
    (archives.filter fun a => isMatched log a.1).filter (fun a => isOwn log a.1) =
      archives.filter fun a => isOwn log a.1 := by
  rw [List.filter_filter]
  refine List.filter_congr fun a _ => ?_
  by_cases h : isOwn log a.1 = true
  · rw [h, isMatched_of_isOwn h]
    rfl
  · rw [Bool.not_eq_true] at h
    rw [h, Bool.false_and]

/-- The pattern matches the own archives and perhaps others. -/
theorem length_matched : (matched log d).length =
    (own log d).length + ((matched log d).filter fun a => !isOwn log a.1).length := by
  have hsplit := List.length_eq_length_filter_add (l := matched log d) fun a => isOwn log a.1
  rw [hsplit]
  congr 2
  exact filter_own_matched d.archives

/-- What is left of the own archives. -/
theorem own_prune : own log (prune keep log d) = ((matched log d).drop
    ((matched log d).length - keep)).filter fun a => isOwn log a.1 := by
  rw [← matched_prune, filter_own_matched]
  rfl

/-- As many files are left as if the own archives were pruned alone only if there are no others. -/
theorem isOwn_of_prunesOldest (h : PrunesOldest keep log d (prune keep log d))
    (hmany : keep < (matched log d).length) : ∀ a ∈ matched log d, isOwn log a.1 := by
  obtain ⟨hlast, hothers⟩ := h
  have hleft : ((prune keep log d).archives.filter fun a => isMatched log a.1).length = _ :=
    congrArg List.length matched_prune
  rw [List.length_eq_length_filter_add fun a => isOwn log a.1, filter_own_matched,
    List.length_drop] at hleft
  have hkept : ((prune keep log d).archives.filter fun a => isOwn log a.1).length =
      (own log d).length - ((own log d).length - keep) := by
    rw [← List.length_drop]
    exact congrArg List.length hlast
  have hrest : ((prune keep log d).archives.filter fun a => isMatched log a.1).filter
      (fun a => !isOwn log a.1) = (matched log d).filter fun a => !isOwn log a.1 := by
    unfold matched
    rw [List.filter_comm, hothers, List.filter_comm]
  have hcount : (matched log d).length = _ := length_matched
  rw [hkept, hrest] at hleft
  have hnone : ((matched log d).filter fun a => !isOwn log a.1).length = 0 := by omega
  intro a ha
  by_contra hnot
  have hmem : a ∈ (matched log d).filter fun a => !isOwn log a.1 :=
    List.mem_filter.mpr ⟨ha, by simpa using hnot⟩
  rw [List.length_eq_zero_iff.mp hnone] at hmem
  exact List.not_mem_nil hmem

theorem prunesOldest_of_few (h : (matched log d).length ≤ keep) :
    PrunesOldest keep log d (prune keep log d) := by
  have hremoved : removed keep log d = [] := by
    unfold removed
    rw [Nat.sub_eq_zero_of_le h, List.take_zero, List.map_nil]
  have hsame : (prune keep log d).archives = d.archives := by
    refine List.filter_eq_self.mpr fun a _ => decide_eq_true ?_
    rw [hremoved]
    exact List.not_mem_nil
  have hcount : (matched log d).length = _ := length_matched
  refine ⟨?_, by rw [hsame]⟩
  rw [Nat.sub_eq_zero_of_le (by omega), List.drop_zero]
  unfold own
  rw [hsame]

theorem prunesOldest_of_isOwn (h : ∀ a ∈ matched log d, isOwn log a.1) :
    PrunesOldest keep log d (prune keep log d) := by
  have hmatched : matched log d = own log d := by
    rw [own, ← filter_own_matched]
    exact (List.filter_eq_self.mpr h).symm
  refine ⟨?_, ?_⟩
  · rw [own_prune, hmatched, List.filter_eq_self]
    exact fun a ha => (List.mem_filter.mp (List.mem_of_mem_drop ha)).2
  · show (d.archives.filter _).filter _ = _
    rw [List.filter_filter]
    refine List.filter_congr fun a _ => ?_
    rw [Bool.and_eq_left_iff_imp]
    intro hnot
    refine decide_eq_true fun hmem => ?_
    obtain ⟨b, hb, hname⟩ := List.mem_map.mp hmem
    have hb := h b (List.mem_of_mem_take hb)
    rw [hname] at hb
    rw [hb] at hnot
    exact Bool.noConfusion hnot

/-- **Pruning** removes the right archives exactly under its condition. -/
theorem prunesOldest_iff : PrunesOldest keep log d (prune keep log d) ↔ PatternOk keep log d := by
  constructor
  · intro h
    rcases Nat.lt_or_ge keep (matched log d).length with hmany | hfew
    · exact Or.inr (isOwn_of_prunesOldest h hmany)
    · exact Or.inl hfew
  · rintro (hfew | hall)
    · exact prunesOldest_of_few hfew
    · exact prunesOldest_of_isOwn hall

/-! ### Calls -/

variable {maxBytes : ℕ} {jobs : FileName → Job}

/-- The loop of `rotate_logs` as a machine; its inputs are the logs it visits. -/
def rotator (maxBytes keep : ℕ) (jobs : FileName → Job) : Machine LogDir FileName where
  init _ := True
  step log d := some (rotateLog maxBytes keep jobs log d)

/-- What happens at one log: if it is rotated, each phase keeps its promise. -/
def RotationSafe (maxBytes keep : ℕ) (jobs : FileName → Job) (log : FileName) (d : LogDir) : Prop :=
  maxBytes ≤ (d.text log).length →
    SavesAll (jobs log) log d (compress (jobs log) log d) ∧
      PrunesOldest keep log (compress (jobs log) log d)
        (prune keep log (compress (jobs log) log d))

/-- The condition at one log. -/
def RotationOk (maxBytes keep : ℕ) (jobs : FileName → Job) (log : FileName) (d : LogDir) : Prop :=
  maxBytes ≤ (d.text log).length →
    CompressOk (jobs log) log d ∧ PatternOk keep log (compress (jobs log) log d)

/-- In a visit of the logs, the archive becomes one of more than `keep` of its log, and is among
the oldest of them. -/
def Expires (maxBytes keep : ℕ) (jobs : FileName → Job) (a : FileName × Option Bytes)
    (logs : List FileName) (d : LogDir) : Prop :=
  ∃ pre log post d₀, logs = pre ++ log :: post ∧
    (rotator maxBytes keep jobs).run pre d = some d₀ ∧ maxBytes ≤ (d₀.text log).length ∧
    a ∈ surplus keep log (compress (jobs log) log d₀)

/-- The claim on one call. Each rotation keeps its promises; and after the call the text of each
log is in the log or in a complete archive, and the complete archives are there, but for those
that became too many. -/
def CallSafe (maxBytes keep : ℕ) (jobs : FileName → Job) (d : LogDir) : Prop :=
  (rotator maxBytes keep jobs).Guarded (RotationSafe maxBytes keep jobs) d.logs d ∧
  (∀ log ∈ d.logs, (rotateLogs maxBytes keep jobs d).text log = d.text log ∨
    (archiveName log (jobs log).ts, some (d.text log)) ∈
      (rotateLogs maxBytes keep jobs d).archives ∨
    Expires maxBytes keep jobs (archiveName log (jobs log).ts, some (d.text log)) d.logs d) ∧
  ∀ name text, (name, some text) ∈ d.archives →
    (name, some text) ∈ (rotateLogs maxBytes keep jobs d).archives ∨
      Expires maxBytes keep jobs (name, some text) d.logs d

theorem rotationSafe_iff :
    RotationSafe maxBytes keep jobs log d ↔ RotationOk maxBytes keep jobs log d :=
  imp_congr_right fun _ => and_congr savesAll_iff prunesOldest_iff

/-- Pruning leaves an archive alone unless it is one too many. -/
theorem PrunesOldest.mem_or_surplus {d' : LogDir} (h : PrunesOldest keep log d d')
    {a : FileName × Option Bytes} (ha : a ∈ d.archives) :
    a ∈ d'.archives ∨ a ∈ surplus keep log d := by
  by_cases hown : isOwn log a.1 = true
  · have hmem : a ∈ own log d := List.mem_filter.mpr ⟨ha, hown⟩
    rw [← List.take_append_drop ((own log d).length - keep) (own log d), ← h.1] at hmem
    refine (List.mem_append.mp hmem).symm.imp_left fun hleft => ?_
    exact (List.mem_filter.mp hleft).1
  · have hmem : a ∈ d.archives.filter fun a => !isOwn log a.1 :=
      List.mem_filter.mpr ⟨ha, by simpa using hown⟩
    rw [← h.2] at hmem
    exact Or.inl (List.mem_filter.mp hmem).1

/-- At most `keep` archives of the log remain. -/
theorem PrunesOldest.length_own_le {d' : LogDir} (h : PrunesOldest keep log d d') :
    (own log d').length ≤ keep := by
  rw [h.1, List.length_drop]
  omega

/-- **Step lemma.** A complete archive outlives a safe visit unless it becomes one too many. -/
theorem RotationSafe.mem_or_surplus (h : RotationSafe maxBytes keep jobs log d) {text : Bytes}
    (ha : (name, some text) ∈ d.archives) :
    (name, some text) ∈ (rotateLog maxBytes keep jobs log d).archives ∨
      maxBytes ≤ (d.text log).length ∧
        (name, some text) ∈ surplus keep log (compress (jobs log) log d) := by
  unfold rotateLog
  by_cases hsize : maxBytes ≤ (d.text log).length
  · obtain ⟨hsaves, hprunes⟩ := h hsize
    rw [if_pos hsize]
    exact (hprunes.mem_or_surplus (hsaves.2 _ _ ha)).imp_right fun hsurplus => ⟨hsize, hsurplus⟩
  · rw [if_neg hsize]
    exact Or.inl ha

/-- What expires at a later log expires in the visit. -/
theorem Expires.cons {a : FileName × Option Bytes} {logs : List FileName}
    (h : Expires maxBytes keep jobs a logs (rotateLog maxBytes keep jobs log d)) :
    Expires maxBytes keep jobs a (log :: logs) d := by
  obtain ⟨pre, log', post, d₀, hsplit, hrun, hsurplus⟩ := h
  refine ⟨log :: pre, log', post, d₀, ?_, Machine.run_cons_eq_some.mpr ⟨_, rfl, hrun⟩, hsurplus⟩
  rw [hsplit, List.cons_append]

/-- **Run lemma.** A complete archive outlives safe visits unless it becomes one too many. -/
theorem mem_or_expires {logs : List FileName} {text : Bytes}
    (h : (rotator maxBytes keep jobs).Guarded (RotationSafe maxBytes keep jobs) logs d)
    (ha : (name, some text) ∈ d.archives) :
    (name, some text) ∈
        (logs.foldl (fun d log => rotateLog maxBytes keep jobs log d) d).archives ∨
      Expires maxBytes keep jobs (name, some text) logs d := by
  induction logs generalizing d with
  | nil => exact Or.inl ha
  | cons log logs ih =>
    obtain ⟨hsafe, hrest⟩ := h _ rfl
    rcases hsafe.mem_or_surplus ha with hmem | ⟨hsize, hsurplus⟩
    · exact (ih hrest hmem).imp_right Expires.cons
    · exact Or.inr ⟨[], log, logs, d, rfl, rfl, hsize, hsurplus⟩

/-- A visit touches no other log. -/
theorem rotateLog_text_of_ne (h : log' ≠ log) :
    (rotateLog maxBytes keep jobs log d).text log' = d.text log' := by
  unfold rotateLog
  split
  · exact Function.update_of_ne h _ _
  · rfl

theorem foldl_text_of_notMem {logs : List FileName} (h : log ∉ logs) :
    (logs.foldl (fun d log => rotateLog maxBytes keep jobs log d) d).text log = d.text log := by
  induction logs generalizing d with
  | nil => rfl
  | cons log' logs ih =>
    rw [List.mem_cons, not_or] at h
    rw [List.foldl_cons, ih h.2, rotateLog_text_of_ne h.1]

/-- **Run lemma for a log.** Its text stays, or goes to an archive that stays. -/
theorem text_or_archived {logs : List FileName}
    (h : (rotator maxBytes keep jobs).Guarded (RotationSafe maxBytes keep jobs) logs d)
    (hnodup : logs.Nodup) (hlog : log ∈ logs) :
    (logs.foldl (fun d log => rotateLog maxBytes keep jobs log d) d).text log = d.text log ∨
      (archiveName log (jobs log).ts, some (d.text log)) ∈
        (logs.foldl (fun d log => rotateLog maxBytes keep jobs log d) d).archives ∨
      Expires maxBytes keep jobs (archiveName log (jobs log).ts, some (d.text log)) logs d := by
  induction logs generalizing d with
  | nil => exact absurd hlog List.not_mem_nil
  | cons log' logs ih =>
    obtain ⟨hsafe, hrest⟩ := h _ rfl
    obtain ⟨hnew, hnodup⟩ := List.nodup_cons.mp hnodup
    rw [List.foldl_cons]
    by_cases heq : log = log'
    · -- this log is the one that is rotated now; no later rotation touches its text
      subst heq
      rw [foldl_text_of_notMem hnew]
      by_cases hsize : maxBytes ≤ (d.text log).length
      · obtain ⟨⟨hsaved, -⟩, hprunes⟩ := hsafe hsize
        have hstep : rotateLog maxBytes keep jobs log d =
            prune keep log (compress (jobs log) log d) := if_pos hsize
        rcases hsaved with hempty | harchived
        · left
          rw [hstep, hempty]
          exact Function.update_self _ _ _
        · right
          -- the new archive stays, or it is one too many at once
          rcases hprunes.mem_or_surplus harchived with hmem | hsurplus
          · rw [← hstep] at hmem
            exact (mem_or_expires hrest hmem).imp_right Expires.cons
          · exact Or.inr ⟨[], log, logs, d, rfl, rfl, hsize, hsurplus⟩
      · exact Or.inl (congrArg (fun d : LogDir => d.text log) (if_neg hsize))
    · have hlater := ih hrest hnodup ((List.mem_cons.mp hlog).resolve_left heq)
      rw [rotateLog_text_of_ne heq] at hlater
      exact hlater.imp_right (Or.imp_right Expires.cons)

/-- **Log rotation** keeps its promises in a call exactly if the condition holds at every log it
rotates. -/
theorem rotateLogs_safe_iff (maxBytes keep : ℕ) (jobs : FileName → Job) (d : LogDir) :
    CallSafe maxBytes keep jobs d ↔
      (rotator maxBytes keep jobs).Guarded (RotationOk maxBytes keep jobs) d.logs d := by
  rw [← Machine.guarded_congr fun log d => rotationSafe_iff]
  refine ⟨And.left, fun h => ⟨h, fun log hlog => ?_, fun name text ha => mem_or_expires h ha⟩⟩
  exact text_or_archived h d.nodup_logs hlog

/-- A log, one whose name continues the first one, and a time. -/
def aLog : FileName := ⟨lit "a.log", by decide⟩
def abLog : FileName := ⟨lit "a.log.b.log", by decide⟩
def newYear : Stamp := ⟨lit "20250101000000", by decide⟩

/-- A compression that fails half-way loses the text; and rotating `a.log` with one archive to be
kept removes the only archive of `a.log.b.log`. -/
theorem rotation_loses :
    ¬CallSafe 1 7 (fun _ => ⟨.broken, newYear⟩)
        ⟨[aLog], fun _ => lit "x", [], by decide, List.nodup_nil⟩ ∧
      ¬CallSafe 1 1 (fun _ => ⟨.ok, newYear⟩)
        ⟨[aLog], fun _ => lit "x", [(archiveName abLog newYear, some (lit "y"))], by decide,
          List.nodup_singleton _⟩ := by
  constructor
  · rintro ⟨hguarded, -⟩
    obtain ⟨hsaves, -⟩ := (hguarded _ rfl).1 le_rfl
    obtain ⟨hempty, -⟩ := savesAll_iff.mp hsaves
    exact List.cons_ne_nil _ _ hempty
  · rintro ⟨hguarded, -⟩
    obtain ⟨-, hprunes⟩ := (hguarded _ rfl).1 le_rfl
    rcases prunesOldest_iff.mp hprunes with hfew | hall
    · exact absurd hfew (by decide)
    · exact absurd (hall (archiveName abLog newYear, some (lit "y")) (by decide))
        (by decide)

end X3D
