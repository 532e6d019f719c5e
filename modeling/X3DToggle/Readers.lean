import X3DToggle.Config.Update
import X3DToggle.Irq

/-!
# The readers of `daemon.conf`

Four programs read the file, each with a loop of its own: `config_load` takes the last line
`key=value`, the GUI's `config_get` the first one, `parse_conf_int` of `irq.c` whatever follows
the first `key=` in the buffer, be it in a comment or at the end of a longer key, and the offline
branch of `daemon_status` reads two keys that hold text.

The value of a key comes from a line of the file, if from anywhere. `ConfReader.source` is the
number of that line and the text behind the `=`; the readers are what they make of the text
(`configLoad_int`, `parseConfInt_eq`, `guiConfigGet`). They agree on a key if and only if the key
has one line only, and nothing before that line looks like it to `strstr` (`agree_iff`).
-/

namespace X3D

/-- The number of a line, and the text behind the `=` of the key. -/
abbrev Source := Option (ℕ × Bytes)

/-! ### The GUI -/

/-- `fgets`, into a buffer of `n` bytes: what it delivers, and what is left of the file. -/
def fgets (n : ℕ) (s : Bytes) : Bytes × Bytes :=
  match cut nl (s.take (n - 1)) with
  | some (l, _) => (l ++ [nl], s.drop (l.length + 1))
  | none => (s.take (n - 1), s.drop (n - 1))

/-- The loop of the GUI's `config_get`, from the line with the number `i` on. -/
def guiScan (key : Bytes) : ℕ → ℕ → Bytes → Source
  | 0, _, _ => none
  | fuel + 1, i, s =>
    if s = [] then none
    else
      let (buf, rest) := fgets 512 s
      let line := cstr buf
      if line.head? = some (chr '#') ∨ line.head? = some nl then guiScan key fuel (i + 1) rest
      else if isKeyLine key line then some (i, cutAny (line.drop (key.length + 1)) [nl])
      else guiScan key fuel (i + 1) rest

/-- Each round consumes a byte, so the length of the file is fuel enough. -/
def guiSource (key s : Bytes) : Source := guiScan key s.length 0 s

/-- The GUI's `config_get` when the daemon does not answer. -/
def guiConfigGet (ok : Bool) (file : Option Bytes) (key : Bytes) : Bytes :=
  match file with
  | none => []
  | some s =>
    if ok then (guiSource key s).elim [] fun p => (cutAny p.2 [chr '\r', nl]).take 255 else []

/-! ### `irq.c` -/

/-- The keys `load_config` of `irq.c` reads as numbers. -/
def irqIntKeys : List Bytes :=
  [lit "IRQ_ENABLE", lit "IRQ_PINNING", lit "IRQ_GPU", lit "IRQ_NVME", lit "IRQ_USB",
   lit "IRQ_NIC", lit "IRQ_AUDIO", lit "IRQ_COALESCE", lit "IRQ_WATCH", lit "THREAD_CONTROL",
   lit "THREAD_CAP"]

/-- The line `parse_conf_int` finds its text in. -/
def irqSource (key s : Bytes) : Source :=
  let haystack := cstr (s.take 4095)
  let search := printfSn 128 (lit "%s=") [.str key]
  (strstr haystack search).map fun p =>
    ((haystack.take (haystack.length - p.length)).count nl, cutAny (p.drop search.length) [nl])

/-! ### `config_load` -/

/-- The line `config_load` takes the value of a key from: a later line overrides an earlier one. -/
def loadSource (key s : Bytes) : Source :=
  lastSome (fun p : Bytes × ℕ => (entryOf key p.1).map (p.2, ·))
    (lines nl (cstr (s.take 4095))).zipIdx

/-! ### `daemon_status` -/

/-- What the offline branch of `daemon_status` works out. -/
structure OfflineStatus where
  daemonState : Bytes
  ebpfStatus : Bytes
  affinityActive : Bool
  deriving DecidableEq

/-- `toupper`. -/
def toupper (c : UInt8) : UInt8 := if chr 'a' ≤ c ∧ c ≤ chr 'z' then c - 32 else c

/-- One line of the file in `daemon_status`. -/
def statusLine (st : OfflineStatus) (line : Bytes) : OfflineStatus :=
  let st :=
    if strncmp line (lit "DAEMON_STATE=") 13 then
      { st with daemonState := (printfSn 64 (lit "%s") [.str (line.drop 13)]).map toupper }
    else st
  if strncmp line (lit "AFFINITY_MASK=") 14 ∧ line.drop 14 ≠ lit "none" then
    { st with affinityActive := true }
  else st

/-- The offline branch of `daemon_status`. -/
def statusOffline (ok : Bool) (file : Option Bytes) : OfflineStatus :=
  let st : OfflineStatus := ⟨lit "MANUAL", lit "DYNAMIC POLLING", false⟩
  match readFile ok file 4095 with
  | none => st
  | some buf =>
    let st := (lines nl (cstr buf)).foldl statusLine st
    { st with
      ebpfStatus :=
        if st.daemonState = lit "DEFAULT" then lit "eBPF/POLLING (ACTIVE)"
        else lit "INACTIVE (SUSPENDED)" }

/-! ### The specification -/

/-- The programs that read `daemon.conf`. -/
inductive ConfReader where
  | configLoad | irq | gui | status
  deriving DecidableEq

namespace ConfReader

/-- The program reads the key as a number. The GUI's `config_get` takes any key. -/
def Reads : ConfReader → Bytes → Prop
  | configLoad, key => ∃ f, configLoadTable.lookup key = some (.atoi f) ∨
      configLoadTable.lookup key = some (.flag f)
  | irq, key => key ∈ irqIntKeys
  | gui, _ => True
  -- its two keys hold text
  | status, _ => False

/-- Where the program takes the value of the key from. -/
def source : ConfReader → Bytes → Bytes → Source
  | configLoad => loadSource
  | irq => irqSource
  | gui => guiSource
  | status => fun _ _ => none

/-- The programs that read the key take its value from one line. -/
def Agree (key s : Bytes) : Prop :=
  ∀ r r' : ConfReader, r.Reads key → r'.Reads key → r.source key s = r'.source key s

end ConfReader

/-- The file fits the buffers: 4095 bytes, and 511 for a line with its line break. -/
structure FitsBuffers (s : Bytes) : Prop where
  file : s.length ≤ 4095
  line : ∀ p, p <:+: s → nl ∉ p.dropLast → p.length ≤ 511

/-- A NUL hides no line from the others that the GUI takes. -/
def Visible (key s : Bytes) : Prop :=
  (∃ l ∈ lines nl s, isKeyLine key (cstr l) = true) →
    ∃ l ∈ lines nl (cstr s), isKeyLine key l = true

/-- There is only one line to take the value from. -/
structure OneSource (key s : Bytes) : Prop where
  -- no line repeats the key
  unique : ConfReader.configLoad.Reads key →
    ((lines nl (cstr s)).filter (isKeyLine key)).length ≤ 1
  -- the first line with `key=` in it starts with it
  first : ConfReader.irq.Reads key → ∀ l,
    (lines nl (cstr s)).find? (contains · (key ++ [chr '='])) = some l → isKeyLine key l = true
  visible : Visible key s

/-! ### The lines of the readers -/

theorem isKeyLine_iff_assignment {key l : Bytes} :
    isKeyLine key l = true ↔ key ++ [chr '='] <+: l := by
  rw [isKeyLine_iff]
  constructor
  · rintro ⟨val, rfl⟩
    exact ⟨val, by simp [assignment]⟩
  · rintro ⟨val, rfl⟩
    exact ⟨val, by simp [assignment]⟩

theorem entryOf_isSome {key : Bytes} (heq : chr '=' ∉ key) (l : Bytes) :
    (entryOf key l).isSome = isKeyLine key l := by
  rw [Bool.eq_iff_iff, Option.isSome_iff_exists, isKeyLine_iff]
  exact exists_congr fun val => entryOf_eq_some heq

/-- A key every reader can look for. -/
structure ProperKey (key : Bytes) : Prop where
  ne : key ≠ []
  hash : key.head? ≠ some (chr '#')
  eq : chr '=' ∉ key
  nl : nl ∉ key
  zero : (0 : UInt8) ∉ key
  short : key.length ≤ 126

/-- The strings of the lines of a file begin with the lines of the string before its first NUL. -/
theorem exists_lines_cstr (s : Bytes) :
    ∃ rest, (lines nl s).map cstr = lines nl (cstr s) ++ rest := by
  induction hn : s.length using Nat.strong_induction_on generalizing s with
  | _ n ih =>
    -- a single visible line, which may be empty
    have hone {l : Bytes} (hl : nl ∉ l) (rest : List Bytes) :
        ∃ rest', cstr l :: rest = lines nl (cstr l) ++ rest' := by
      have hcl : nl ∉ cstr l := fun h => hl (List.takeWhile_subset _ h)
      rw [lines_of_notMem hcl]
      by_cases hnil : cstr l = []
      · exact ⟨cstr l :: rest, by rw [if_pos hnil, List.nil_append]⟩
      · exact ⟨rest, by rw [if_neg hnil, List.singleton_append]⟩
    cases hcut : cut nl s with
    | none =>
      have hs : nl ∉ s := cut_eq_none.mp hcut
      rw [lines_of_notMem hs]
      by_cases hnil : s = []
      · subst hnil
        exact ⟨[], rfl⟩
      · rw [if_neg hnil]
        exact hone hs []
    | some p =>
      obtain ⟨l, t⟩ := p
      obtain ⟨hl, rfl⟩ := cut_eq_some.mp hcut
      rw [lines_append_break hl, List.map_cons]
      by_cases hz : (0 : UInt8) ∈ l
      · rw [cstr_append_of_mem hz]
        exact hone hl _
      · have hlt : t.length < n := by
          rw [← hn, List.length_append, List.length_cons]
          omega
        obtain ⟨rest, hrest⟩ := ih t.length hlt t rfl
        have hcstr : cstr (l ++ nl :: t) = l ++ nl :: cstr t := by
          rw [cstr_append hz, cstr, List.takeWhile_cons_of_pos (by decide)]
          rfl
        refine ⟨rest, ?_⟩
        rw [hcstr, lines_append_break hl, hrest, cstr_of_notMem hz, List.cons_append]

/-! ### Where `irq.c` looks -/

section

variable {n : Bytes}

/-- The text behind the first `n` of a line. -/
def behind (n l : Bytes) : Option Bytes := (strstr l n).map (·.drop n.length)

theorem cutAny_append_break {a : Bytes} (h : nl ∉ a) (t : Bytes) :
    cutAny (a ++ nl :: t) [nl] = a := by
  unfold cutAny
  rw [List.takeWhile_append_of_pos, List.takeWhile_cons_of_neg (by simp), List.append_nil]
  intro c hc
  simp only [List.mem_singleton, decide_eq_true_iff]
  rintro rfl
  exact h hc

theorem cutAny_self {a : Bytes} (h : nl ∉ a) : cutAny a [nl] = a := by
  unfold cutAny
  rw [List.takeWhile_eq_self_iff]
  intro c hc
  simp only [List.mem_singleton, decide_eq_true_iff]
  rintro rfl
  exact h hc

/-- **`strstr` by lines.** The first occurrence in a text is the first one in the first line that
has one. -/
theorem map_strstr_eq_findSome (hne : n ≠ []) (hn : nl ∉ n) (v : Bytes) (i : ℕ) :
    (strstr v n).map (fun p =>
      (i + (v.take (v.length - p.length)).count nl, cutAny (p.drop n.length) [nl])) =
      ((lines nl v).zipIdx i).findSome? (numbered (behind n)) := by
  induction hlen : v.length using Nat.strong_induction_on generalizing v i with
  | _ m ih =>
    -- within one line
    have hone {l p : Bytes} (hl : nl ∉ l) (hp : strstr l n = some p) : nl ∉ p.drop n.length := by
      intro h
      exact hl ((suffix_of_strstr hp).1.subset (List.drop_subset _ _ h))
    cases hcut : cut nl v with
    | none =>
      have hv : nl ∉ v := cut_eq_none.mp hcut
      rw [lines_of_notMem hv]
      by_cases hnil : v = []
      · rw [hnil, strstr, if_neg hne]
        rfl
      · rw [if_neg hnil, findSome_numbered_cons]
        cases hp : strstr v n with
        | none => simp [numbered, behind, hp]
        | some p =>
          have hcount : (v.take (v.length - p.length)).count nl = 0 :=
            List.count_eq_zero.mpr fun h => hv (List.mem_of_mem_take h)
          simp [numbered, behind, hp, hlen ▸ hcount, cutAny_self (hone hv hp)]
    | some q =>
      obtain ⟨l, t⟩ := q
      obtain ⟨hl, rfl⟩ := cut_eq_some.mp hcut
      have ht : (l ++ nl :: t).length = l.length + (t.length + 1) := by
        rw [List.length_append, List.length_cons]
      rw [lines_append_break hl, findSome_numbered_cons, strstr_append_cons hne hn,
        ← ih t.length (by omega) t (i + 1) rfl, ← hlen]
      cases hp : strstr l n with
      | some p =>
        have hsuf := (suffix_of_strstr hp).1.length_le
        have hpre := (suffix_of_strstr hp).2.length_le
        have htake : (l ++ nl :: t).take ((l ++ nl :: t).length - (p ++ nl :: t).length) =
            l.take (l.length - p.length) := by
          rw [ht, List.length_append, List.length_cons, Nat.add_sub_add_right,
            List.take_append_of_le_length (Nat.sub_le _ _)]
        have hcount : (l.take (l.length - p.length)).count nl = 0 :=
          List.count_eq_zero.mpr fun h => hl (List.mem_of_mem_take h)
        have hval : cutAny ((p ++ nl :: t).drop n.length) [nl] = p.drop n.length := by
          rw [List.drop_append_of_le_length hpre, cutAny_append_break (hone hl hp)]
        simp only [Option.map_some, Option.some_or, numbered, behind, hp, htake, hcount, hval,
          Nat.add_zero]
      | none =>
        simp only [Option.map_none, Option.none_or, numbered, behind, hp]
        cases hq : strstr t n with
        | none => rfl
        | some p =>
          have hsuf := (suffix_of_strstr hq).1.length_le
          have htake : (l ++ nl :: t).take ((l ++ nl :: t).length - p.length) =
              l ++ nl :: t.take (t.length - p.length) := by
            rw [ht, List.take_append, List.take_of_length_le (by omega),
              show l.length + (t.length + 1) - p.length - l.length = t.length - p.length + 1 by
                omega,
              List.take_succ_cons]
          have hcount : (l ++ nl :: t.take (t.length - p.length)).count nl =
              (t.take (t.length - p.length)).count nl + 1 := by
            rw [List.count_append, List.count_eq_zero.mpr hl, List.count_cons_self, Nat.zero_add]
          simp only [Option.map_some, htake, hcount]
          rw [Nat.add_assoc, Nat.add_comm 1]

end

/-! ### What `fgets` delivers -/

theorem fgets_break {l : Bytes} (h : nl ∉ l) (hlen : l.length ≤ 510) (t : Bytes) :
    fgets 512 (l ++ nl :: t) = (l ++ [nl], t) := by
  have htake : (l ++ nl :: t).take 511 = l ++ nl :: t.take (510 - l.length) := by
    rw [List.take_append, List.take_of_length_le (by omega),
      show 511 - l.length = 510 - l.length + 1 by omega, List.take_succ_cons]
  have hdrop : (l ++ nl :: t).drop (l.length + 1) = t := by
    rw [← List.singleton_append, ← List.append_assoc]
    exact List.drop_left' (by rw [List.length_append, List.length_singleton])
  unfold fgets
  rw [htake, cut_append h]
  exact congrArg (l ++ [nl], ·) hdrop

theorem fgets_rest {s : Bytes} (h : nl ∉ s) (hlen : s.length ≤ 511) : fgets 512 s = (s, []) := by
  unfold fgets
  rw [List.take_of_length_le hlen, cut_eq_none.mpr h, List.drop_of_length_le hlen]

section

variable {key : Bytes}

/-- A line break at the end makes no difference to the key of a line. -/
theorem isKeyLine_append_end (hkey : ProperKey key) {l end' : Bytes}
    (hend : end' = [] ∨ end' = [nl]) : isKeyLine key (l ++ end') = isKeyLine key l := by
  rw [Bool.eq_iff_iff, isKeyLine_iff_assignment, isKeyLine_iff_assignment]
  refine ⟨fun h => ?_, fun h => h.trans (List.prefix_append l end')⟩
  rcases hend with rfl | rfl
  · rwa [List.append_nil] at h
  · refine prefix_of_prefix_append (c := nl) (t := []) ?_ h
    rw [List.mem_append, List.mem_singleton, not_or]
    exact ⟨hkey.nl, by decide⟩

/-- One round of the GUI's loop: the line break at the end of the buffer makes no difference. -/
theorem guiScan_line (hkey : ProperKey key) {l : Bytes} (hl : nl ∉ l) {tail : Bytes}
    (htail : tail = [] ∨ tail = [nl]) {line : Bytes} (hline : line = cstr (l ++ tail)) (i : ℕ)
    (next : Source) :
    (if line.head? = some (chr '#') ∨ line.head? = some nl then next
      else if isKeyLine key line then some (i, cutAny (line.drop (key.length + 1)) [nl])
      else next) = (numbered (entryOf key) (cstr l, i)).or next := by
  have hm : nl ∉ cstr l := fun h => hl (List.takeWhile_subset _ h)
  -- a NUL inside the line hides its end, else the break is still there
  obtain ⟨end', hend, hline'⟩ : ∃ end', (end' = [] ∨ end' = [nl]) ∧ line = cstr l ++ end' := by
    by_cases hz : (0 : UInt8) ∈ l
    · exact ⟨[], Or.inl rfl, by rw [hline, cstr_append_of_mem hz, List.append_nil]⟩
    · refine ⟨tail, htail, ?_⟩
      rw [hline, cstr_append hz, cstr_of_notMem hz]
      rcases htail with rfl | rfl <;> rfl
  rw [hline', numbered]
  cases hval : entryOf key (cstr l) with
  | some val =>
    have heq := (entryOf_eq_some hkey.eq).mp hval
    have hvalnl : nl ∉ val := fun h => hm (by simp [heq, h])
    have hhead : (cstr l ++ end').head? = key.head? := by
      rw [heq, List.append_assoc]
      exact List.head?_append_of_ne_nil _ hkey.ne
    have hkeyhead : key.head? ≠ some nl := fun h => hkey.nl (List.mem_of_head? h)
    have hisKey : isKeyLine key (cstr l ++ end') = true := by
      rw [isKeyLine_append_end hkey hend, isKeyLine_iff_assignment, heq]
      exact ⟨val, by simp⟩
    have hdrop : (cstr l ++ end').drop (key.length + 1) = val ++ end' := by
      rw [heq, show key ++ chr '=' :: val ++ end' = (key ++ [chr '=']) ++ (val ++ end') by simp]
      exact List.drop_left' (by rw [List.length_append, List.length_singleton])
    rw [hhead, if_neg (not_or.mpr ⟨hkey.hash, hkeyhead⟩), if_pos hisKey, hdrop]
    rcases hend with rfl | rfl
    · rw [List.append_nil, cutAny_self hvalnl]
      rfl
    · rw [cutAny_append_break hvalnl]
      rfl
  | none =>
    have hno : ¬isKeyLine key (cstr l ++ end') = true := by
      intro hisKey
      rw [isKeyLine_append_end hkey hend] at hisKey
      have hsome := entryOf_isSome hkey.eq (cstr l)
      rw [hval, hisKey] at hsome
      exact absurd hsome Bool.false_ne_true
    rw [if_neg hno, ite_self]
    rfl

/-- **The GUI by lines.** It takes the first line of the key. -/
theorem guiScan_eq (hkey : ProperKey key) (fuel i : ℕ) (s : Bytes) (hfuel : s.length ≤ fuel)
    (hfits : ∀ p, p <:+: s → nl ∉ p.dropLast → p.length ≤ 511) :
    guiScan key fuel i s =
      (((lines nl s).map cstr).zipIdx i).findSome? (numbered (entryOf key)) := by
  induction fuel generalizing i s with
  | zero =>
    obtain rfl := List.length_eq_zero_iff.mp (Nat.le_zero.mp hfuel)
    rfl
  | succ fuel ih =>
    rw [guiScan]
    by_cases hnil : s = []
    · subst hnil
      rfl
    · rw [if_neg hnil]
      cases hcut : cut nl s with
      | none =>
        have hs : nl ∉ s := cut_eq_none.mp hcut
        have hlen : s.length ≤ 511 :=
          hfits s List.infix_rfl fun h => hs (List.dropLast_subset _ h)
        rw [lines_of_notMem hs, if_neg hnil]
        have hrest : guiScan key fuel (i + 1) [] = none := by
          cases fuel <;> rfl
        rw [List.map_singleton, findSome_numbered_cons, fgets_rest hs hlen]
        dsimp only
        rw [hrest]
        exact guiScan_line hkey hs (Or.inl rfl) (by rw [List.append_nil]) i none
      | some q =>
        obtain ⟨l, t⟩ := q
        obtain ⟨hl, rfl⟩ := cut_eq_some.mp hcut
        -- the line fits the buffer, so one call of `fgets` reads it to its break
        have hlen : l.length ≤ 510 := by
          have hpiece := hfits (l ++ [nl]) ⟨[], t, by simp⟩ (by rwa [List.dropLast_concat])
          rw [List.length_append, List.length_singleton] at hpiece
          omega
        rw [lines_append_break hl]
        rw [List.map_cons, findSome_numbered_cons, fgets_break hl hlen]
        dsimp only
        rw [← ih (i + 1) t]
        · exact guiScan_line hkey hl (Or.inr rfl) rfl i _
        · rw [List.length_append, List.length_cons] at hfuel
          omega
        · intro p hp
          exact hfits p (hp.trans ⟨l ++ [nl], [], by simp⟩)

end

/-! ### Agreement -/

section

variable {key : Bytes}

theorem properKey_of_configLoad (h : ConfReader.configLoad.Reads key) : ProperKey key := by
  have hshort : ∀ e ∈ configLoadTable, e.1.length ≤ 126 := by decide
  obtain ⟨st, hst⟩ : ∃ st, configLoadTable.lookup key = some st := by
    obtain ⟨f, hf | hf⟩ := h
    · exact ⟨_, hf⟩
    · exact ⟨_, hf⟩
  obtain ⟨hne, hhash, heq, hnl, hz⟩ := configLoadTable_keys _ (lookup_mem hst)
  exact ⟨hne, hhash, heq, hnl, hz, hshort _ (lookup_mem hst)⟩

theorem properKey_of_irq (h : ConfReader.irq.Reads key) : ProperKey key := by
  have hall : ∀ key ∈ irqIntKeys, key ≠ [] ∧ key.head? ≠ some (chr '#') ∧ chr '=' ∉ key ∧
      nl ∉ key ∧ (0 : UInt8) ∉ key ∧ key.length ≤ 126 := by
    decide
  obtain ⟨hne, hhash, heq, hnl, hz, hshort⟩ := hall key h
  exact ⟨hne, hhash, heq, hnl, hz, hshort⟩

theorem printfSn_search (hkey : ProperKey key) :
    printfSn 128 (lit "%s=") [.str key] = key ++ [chr '='] := by
  have hplain : plainFormat (lit "%s=") [key].length = true :=
    (by decide : plainFormat (lit "%s=") 1 = true)
  have hrendered : rendered (lit "%s=") [key] = key ++ [chr '='] := rfl
  have hprintf := printfSn_plain (n := 128) hplain
  rw [hrendered] at hprintf
  refine hprintf.trans (List.take_of_length_le ?_)
  have hshort := hkey.short
  rw [List.length_append, List.length_singleton]
  omega

/-- A line of the key is found by `strstr` at its beginning. -/
theorem behind_of_entryOf (hkey : ProperKey key) {l val : Bytes} (h : entryOf key l = some val) :
    behind (key ++ [chr '=']) l = some val := by
  obtain rfl := (entryOf_eq_some hkey.eq).mp h
  have hsplit : key ++ chr '=' :: val = (key ++ [chr '=']) ++ val := by simp
  rw [behind, hsplit,
    strstr_append_self (List.append_ne_nil_of_right_ne_nil _ (List.cons_ne_nil _ _)),
    Option.map_some, List.drop_left]

theorem behind_isSome (n l : Bytes) : (behind n l).isSome = contains l n := by
  rw [behind, Option.isSome_map, contains]

end

section

variable {key s : Bytes}

theorem irqSource_eq (hkey : ProperKey key) (hfits : FitsBuffers s) :
    irqSource key s =
      (lines nl (cstr s)).zipIdx.findSome? (numbered (behind (key ++ [chr '=']))) := by
  have hne : key ++ [chr '='] ≠ [] := List.append_ne_nil_of_right_ne_nil _ (List.cons_ne_nil _ _)
  have hnl : nl ∉ key ++ [chr '='] := by
    rw [List.mem_append, List.mem_singleton, not_or]
    exact ⟨hkey.nl, by decide⟩
  have hscan := map_strstr_eq_findSome hne hnl (cstr s) 0
  simp only [Nat.zero_add] at hscan
  unfold irqSource
  rw [List.take_of_length_le hfits.file, printfSn_search hkey]
  exact hscan

theorem loadSource_eq (hfits : FitsBuffers s) :
    loadSource key s = lastSome (numbered (entryOf key)) (lines nl (cstr s)).zipIdx := by
  unfold loadSource
  rw [List.take_of_length_le hfits.file]
  rfl

theorem guiSource_eq (hkey : ProperKey key) (hfits : FitsBuffers s) :
    guiSource key s = ((lines nl s).map cstr).zipIdx.findSome? (numbered (entryOf key)) :=
  guiScan_eq hkey s.length 0 s le_rfl hfits.line

theorem findSome_entryOf_eq_none_iff (heq : chr '=' ∉ key) (ls : List Bytes) (n : ℕ) :
    (ls.zipIdx n).findSome? (numbered (entryOf key)) = none ↔
      ¬∃ l ∈ ls, isKeyLine key l = true := by
  rw [findSome_numbered_eq_none_iff]
  constructor
  · rintro h ⟨l, hl, hisKey⟩
    have hsome := entryOf_isSome heq l
    rw [h l hl, hisKey] at hsome
    exact Bool.false_ne_true hsome
  · intro h l hl
    rw [← Option.not_isSome_iff_eq_none, entryOf_isSome heq]
    exact fun hisKey => h ⟨l, hl, hisKey⟩

/-- What the GUI finds among the lines the others see, and what it finds behind them. -/
theorem guiSource_eq_or (hkey : ProperKey key) (hfits : FitsBuffers s) :
    ∃ r : Source, (∀ i v, r = some (i, v) → (lines nl (cstr s)).length ≤ i) ∧
      guiSource key s = ((lines nl (cstr s)).zipIdx.findSome? (numbered (entryOf key))).or r ∧
      (Visible key s ↔
        ((lines nl (cstr s)).zipIdx.findSome? (numbered (entryOf key)) = none → r = none)) := by
  obtain ⟨rest, hrest⟩ := exists_lines_cstr s
  refine ⟨(rest.zipIdx (lines nl (cstr s)).length).findSome? (numbered (entryOf key)), ?_, ?_, ?_⟩
  · intro i v h
    exact (bounds_of_findSome h).1
  · rw [guiSource_eq hkey hfits, hrest, List.zipIdx_append, List.findSome?_append, Nat.zero_add]
  · -- the lines behind a NUL are those the others do not see
    have hall : (∃ l ∈ lines nl s, isKeyLine key (cstr l) = true) ↔
        (∃ l ∈ lines nl (cstr s), isKeyLine key l = true) ∨ ∃ l ∈ rest, isKeyLine key l = true := by
      have hmap : (∃ l ∈ lines nl s, isKeyLine key (cstr l) = true) ↔
          ∃ l ∈ (lines nl s).map cstr, isKeyLine key l = true := by
        simp
      rw [hmap, hrest]
      simp only [List.mem_append, or_and_right, exists_or]
    rw [findSome_entryOf_eq_none_iff hkey.eq, findSome_entryOf_eq_none_iff hkey.eq, Visible, hall]
    constructor
    · intro h hnone hex
      exact hnone (h (Or.inr hex))
    · rintro h (hex | hex)
      · exact hex
      · by_contra hnone
        exact h hnone hex

/-- **First and last line of a key.** -/
theorem gui_eq_load_iff (hkey : ProperKey key) (hfits : FitsBuffers s) :
    guiSource key s = loadSource key s ↔
      ((lines nl (cstr s)).filter (isKeyLine key)).length ≤ 1 ∧ Visible key s := by
  obtain ⟨r, -, hgui, hvisible⟩ := guiSource_eq_or hkey hfits
  have hcount := findSome_eq_lastSome_iff (entryOf key) (lines nl (cstr s)) 0
  simp only [entryOf_isSome hkey.eq] at hcount
  rw [loadSource_eq hfits, hgui, hvisible, ← hcount]
  cases hfirst : (lines nl (cstr s)).zipIdx.findSome? (numbered (entryOf key)) with
  | some p => simp
  | none =>
    have hlast : lastSome (numbered (entryOf key)) (lines nl (cstr s)).zipIdx = none := by
      rw [lastSome_numbered_eq_none_iff]
      exact (findSome_numbered_eq_none_iff 0).mp hfirst
    rw [hlast]
    simp

/-- **The first line of a key, and the first line that has the key in it.** -/
theorem gui_eq_irq_iff (hkey : ProperKey key) (hfits : FitsBuffers s) :
    guiSource key s = irqSource key s ↔
      (∀ l, (lines nl (cstr s)).find? (contains · (key ++ [chr '='])) = some l →
        isKeyLine key l = true) ∧ Visible key s := by
  obtain ⟨r, hr, hgui, hvisible⟩ := guiSource_eq_or hkey hfits
  have hbehind (l val : Bytes) (h : entryOf key l = some val) :
      behind (key ++ [chr '=']) l = some val :=
    behind_of_entryOf hkey h
  have hweak := findSome_eq_findSome_iff hbehind (lines nl (cstr s)) 0
  simp only [entryOf_isSome hkey.eq, behind_isSome] at hweak
  rw [irqSource_eq hkey hfits, hgui, hvisible, ← hweak]
  cases hfirst : (lines nl (cstr s)).zipIdx.findSome? (numbered (entryOf key)) with
  | some p => simp [eq_comm]
  | none =>
    rw [Option.none_or]
    cases hirq : (lines nl (cstr s)).zipIdx.findSome? (numbered (behind (key ++ [chr '=']))) with
    | none => simp
    | some p =>
      -- it is among the lines the GUI has passed
      have hlt := (bounds_of_findSome (i := p.1) (v := p.2) hirq).2
      constructor
      · intro h
        have hle := hr p.1 p.2 h
        omega
      · rintro ⟨h, -⟩
        exact absurd h (Option.some_ne_none p)

theorem oneSource_iff : OneSource key s ↔
    (ConfReader.configLoad.Reads key →
      ((lines nl (cstr s)).filter (isKeyLine key)).length ≤ 1) ∧
    (ConfReader.irq.Reads key → ∀ l,
      (lines nl (cstr s)).find? (contains · (key ++ [chr '='])) = some l →
        isKeyLine key l = true) ∧ Visible key s := by
  constructor
  · intro h
    exact ⟨h.unique, h.first, h.visible⟩
  · rintro ⟨hunique, hfirst, hvisible⟩
    exact ⟨hunique, hfirst, hvisible⟩

/-- **Agreement.** The programs that read a number take it from one line if and only if the key has
one line, and `strstr` finds no other. -/
theorem agree_iff (hkey : ConfReader.configLoad.Reads key ∨ ConfReader.irq.Reads key)
    (hfits : FitsBuffers s) : ConfReader.Agree key s ↔ OneSource key s := by
  have hproper : ProperKey key := hkey.elim properKey_of_configLoad properKey_of_irq
  have hload := gui_eq_load_iff hproper hfits
  have hirq := gui_eq_irq_iff hproper hfits
  rw [oneSource_iff]
  constructor
  · intro h
    refine ⟨fun hr => ?_, fun hr => ?_, ?_⟩
    · exact (hload.mp (h .gui .configLoad trivial hr)).1
    · exact (hirq.mp (h .gui .irq trivial hr)).1
    · rcases hkey with hr | hr
      · exact (hload.mp (h .gui .configLoad trivial hr)).2
      · exact (hirq.mp (h .gui .irq trivial hr)).2
  · rintro ⟨hunique, hfirst, hvisible⟩
    -- each of the others agrees with the GUI
    have hgui (r : ConfReader) (hr : r.Reads key) : r.source key s = guiSource key s := by
      cases r with
      | configLoad => exact (hload.mpr ⟨hunique hr, hvisible⟩).symm
      | irq => exact (hirq.mpr ⟨hfirst hr, hvisible⟩).symm
      | gui => rfl
      | status => exact hr.elim
    intro r r' hr hr'
    rw [hgui r hr, hgui r' hr']

/-- The programs agree on the key `IRQ_GPU` of a file of one line. -/
theorem agree_iff_irqGpu :
    ConfReader.Agree (lit "IRQ_GPU") (lit "IRQ_GPU=1") ↔
      OneSource (lit "IRQ_GPU") (lit "IRQ_GPU=1") :=
  agree_iff (Or.inr (by unfold ConfReader.Reads; decide))
    ⟨by decide, fun _ hp _ =>
      hp.length_le.trans (by decide : (lit "IRQ_GPU=1").length ≤ 511)⟩

/-- `irq.c` takes the number out of the comment. -/
theorem comment_read_by_irq :
    ¬∀ key s, ConfReader.configLoad.Reads key ∨ ConfReader.irq.Reads key → FitsBuffers s →
      ConfReader.Agree key s := by
  intro h
  have hgui : ConfReader.gui.source (lit "IRQ_GPU") (lit "# IRQ_GPU=1 moves it\nIRQ_GPU=0\n") =
      some (1, lit "0") := by
    unfold ConfReader.source
    decide
  have hirq : ConfReader.irq.source (lit "IRQ_GPU") (lit "# IRQ_GPU=1 moves it\nIRQ_GPU=0\n") =
      some (0, lit "1 moves it") := by
    unfold ConfReader.source
    decide
  have hreads : ConfReader.irq.Reads (lit "IRQ_GPU") := by
    unfold ConfReader.Reads
    decide
  have hfits : FitsBuffers (lit "# IRQ_GPU=1 moves it\nIRQ_GPU=0\n") :=
    ⟨by decide, fun _ hp _ => hp.length_le.trans
      (by decide : (lit "# IRQ_GPU=1 moves it\nIRQ_GPU=0\n").length ≤ 511)⟩
  have heq := h _ _ (Or.inr hreads) hfits .gui .irq trivial hreads
  rw [hgui, hirq] at heq
  exact absurd heq (by decide)

/-! ### What the programs make of it -/

/-- `config_load`: the number in the text, if there is one, else the default of the field. -/
theorem configLoad_int {f : IntField} (h : configLoadTable.lookup key = some (.atoi f)) (B : Build)
    (env : LoadEnv) (hrd : env.openRd = true) (cfg : DaemonConfig) :
    (configLoad B env (some s) cfg).get (.int f) =
      ((loadSource key s).map Prod.snd).elim ((defaultOf B (.int f)).getD (cfg.get (.int f)))
        (.int ∘ atoi) := by
  have hfile : fileValue env.openRd (some s) key = (loadSource key s).map Prod.snd := by
    have hsnd := map_snd_lastSome_numbered (entryOf key) (lines nl (cstr (s.take 4095))) 0
    rw [hrd, fileValue_some]
    exact hsnd.symm
  have hget := configLoad_get h B env (some s) cfg
  rw [hfile] at hget
  exact hget

/-- A line break ends a number. -/
theorem atoi_cutAny (p : Bytes) : atoi (cutAny p [nl]) = atoi p := by
  cases hcut : cut nl p with
  | none => rw [cutAny_self (cut_eq_none.mp hcut)]
  | some q =>
    obtain ⟨a, t⟩ := q
    obtain ⟨ha, rfl⟩ := cut_eq_some.mp hcut
    rw [cutAny_append_break ha, atoi_append (by decide) (by decide) (by decide)]

/-- `parse_conf_int`: the number in the text, if there is one, else 0. -/
theorem parseConfInt_eq (key s : Bytes) :
    parseConfInt (cstr (s.take 4095)) key = ((irqSource key s).map Prod.snd).elim 0 atoi := by
  unfold parseConfInt irqSource
  dsimp only
  cases hfound : strstr (cstr (s.take 4095)) (printfSn 128 (lit "%s=") [.str key]) with
  | none => rfl
  | some p => exact (atoi_cutAny _).symm

/-- Where the programs agree on a line, `config_load` and `irq.c` read the same number. -/
theorem configLoad_eq_parseConfInt {f : IntField}
    (h : configLoadTable.lookup key = some (.atoi f)) (hirq : ConfReader.irq.Reads key)
    (hagree : ConfReader.Agree key s) (hsome : (loadSource key s).isSome) (B : Build)
    (env : LoadEnv) (hrd : env.openRd = true) (cfg : DaemonConfig) :
    (configLoad B env (some s) cfg).get (.int f) =
      .int (parseConfInt (cstr (s.take 4095)) key) := by
  have heq : loadSource key s = irqSource key s :=
    hagree .configLoad .irq ⟨f, Or.inl h⟩ hirq
  obtain ⟨p, hp⟩ := Option.isSome_iff_exists.mp hsome
  rw [configLoad_int h B env hrd, parseConfInt_eq, ← heq, hp]
  rfl

/-- The lines `daemon_status` looks at. -/
def isStatusLine (l : Bytes) : Bool :=
  strncmp l (lit "DAEMON_STATE=") 13 || strncmp l (lit "AFFINITY_MASK=") 14

/-- `daemon_status` passes over every other line. -/
theorem foldl_statusLine_filter (ls : List Bytes) (st : OfflineStatus) :
    ls.foldl statusLine st = (ls.filter isStatusLine).foldl statusLine st := by
  induction ls generalizing st with
  | nil => rfl
  | cons l ls ih =>
    rw [List.foldl_cons, List.filter_cons]
    by_cases hl : isStatusLine l = true
    · rw [if_pos hl, List.foldl_cons, ih]
    · have hno : statusLine st l = st := by
        unfold isStatusLine at hl
        rw [Bool.or_eq_true, not_or] at hl
        unfold statusLine
        rw [if_neg hl.1]
        exact if_neg fun h => hl.2 h.1
      rw [if_neg hl, hno, ih]

theorem isStatusLine_eq (l : Bytes) : isStatusLine l =
    (isKeyLine (lit "DAEMON_STATE") l || isKeyLine (lit "AFFINITY_MASK") l) := by
  have hone (key text : Bytes) (htext : text = key ++ [chr '=']) :
      strncmp l text text.length = isKeyLine key l := by
    rw [Bool.eq_iff_iff, isKeyLine_iff_assignment, ← htext, strncmp, beq_iff_eq, List.take_length,
      List.prefix_iff_eq_take, eq_comm]
  have hstate := hone (lit "DAEMON_STATE") (lit "DAEMON_STATE=") (by decide)
  have hmask := hone (lit "AFFINITY_MASK") (lit "AFFINITY_MASK=") (by decide)
  rw [← hstate, ← hmask]
  rfl

/-- So it reads none of the numbers. -/
theorem isStatusLine_of_isKeyLine
    (hkey : ConfReader.configLoad.Reads key ∨ ConfReader.irq.Reads key) {l : Bytes}
    (hl : isKeyLine key l = true) : isStatusLine l = false := by
  have hproper : ProperKey key := hkey.elim properKey_of_configLoad properKey_of_irq
  have hne : lit "DAEMON_STATE" ≠ key ∧ lit "AFFINITY_MASK" ≠ key := by
    rcases hkey with ⟨f, hf⟩ | hirq
    · -- the two keys hold texts, so neither is the key of a number
      have htext : ∀ e ∈ configLoadTable, lit "DAEMON_STATE" = e.1 ∨ lit "AFFINITY_MASK" = e.1 →
          e.2.field = .str .daemonState ∨ e.2.field = .str .affinityMask := by
        decide
      have hint {st : Setter} (hst : configLoadTable.lookup key = some st)
          (hfield : st.field = .int f) : lit "DAEMON_STATE" ≠ key ∧ lit "AFFINITY_MASK" ≠ key := by
        rw [← not_or]
        intro hkey
        rcases htext _ (lookup_mem hst) hkey with h | h
        · exact absurd (hfield.symm.trans h) (by simp)
        · exact absurd (hfield.symm.trans h) (by simp)
      rcases hf with hf | hf
      · exact hint hf rfl
      · exact hint hf rfl
    · have hno : ∀ k ∈ irqIntKeys, lit "DAEMON_STATE" ≠ k ∧ lit "AFFINITY_MASK" ≠ k := by
        decide
      exact hno key hirq
  obtain ⟨val, rfl⟩ := isKeyLine_iff.mp hl
  rw [isStatusLine_eq,
    isKeyLine_assignment_of_ne (Ne.symm hne.1) (by decide) hproper.eq,
    isKeyLine_assignment_of_ne (Ne.symm hne.2) (by decide) hproper.eq]
  rfl

end

end X3D
