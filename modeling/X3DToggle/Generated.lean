import X3DToggle.Config.Update
import X3DToggle.Shell

/-!
# Reading a generated file

`config_load` compares what stands before `=` with a key, to the byte, and the script puts four
blanks before every setting. So no setting is read: `configLoad_generated` says that a field gets
what other lines of the file say, or keeps its default. Lines that do begin in the first column
can come only from `games.conf` or from the user's part of the previous file.
-/

namespace X3D

/-- What the lines below the settings say for a key. -/
def carriedValue (games : Bytes) (file : Option Bytes) (key : Bytes) : Option Bytes :=
  lastSome (entryOf key) (gameLines games ++ lines nl (usrContent file))

/-- No key of `config_load` begins with a blank. -/
theorem configLoadTable_head : ∀ e ∈ configLoadTable, e.1.head? ≠ some (chr ' ') := by
  decide

/-- An indented line says nothing for a key. -/
theorem entryOf_of_head {key l : Bytes} {st : Setter} (h : configLoadTable.lookup key = some st)
    (hl : l.head? = some (chr ' ')) : entryOf key l = none := by
  by_contra hsome
  obtain ⟨val, hval⟩ := Option.ne_none_iff_exists'.mp hsome
  obtain ⟨hne, -, heq, -, -⟩ := configLoadTable_keys _ (lookup_mem h)
  rw [(entryOf_eq_some heq).mp hval, List.head?_append_of_ne_nil _ hne] at hl
  exact configLoadTable_head _ (lookup_mem h) hl

/-- **What a load sees.** Nothing of the settings. -/
theorem fileValue_generated {key : Bytes} {st : Setter} (h : configLoadTable.lookup key = some st)
    {vars : ShellVars} {games : Bytes} {file : Option Bytes}
    (hfit : (generated vars games file).length ≤ 4095) :
    fileValue true (some (generated vars games file)) key = carriedValue games file key := by
  have hsettings : lastSome (entryOf key) (settingLines vars) = none :=
    lastSome_eq_none fun l hl => entryOf_of_head h (head_of_mem_settingLines hl)
  have hheader (name : Bytes) (hname : name.head? = some (chr '[')) :
      lastSome (entryOf key) (stepLines name) = none :=
    lastSome_eq_none fun l hl =>
      entryOf_of_head h (head_of_mem_stepLines hname (by decide) (by decide) hl)
  have hsys := hheader (lit "[GAMES_SYS]") (by decide)
  have husr := hheader (lit "[GAMES_USR]") (by decide)
  have hempty : lastSome (entryOf key) [[]] = none := rfl
  rw [fileValue_some, List.take_of_length_le hfit, cstr_of_notMem (zero_notMem_generated _ _ _),
    lines_generated]
  unfold generatedLines carriedValue
  simp only [lastSome_append, hsettings, hempty, hsys, husr, Option.or_none, Option.none_or]

/-- The shipped games say nothing, so what is left is the user's part, as one line. -/
theorem carriedValue_gamesConf {key : Bytes} {st : Setter}
    (h : configLoadTable.lookup key = some st) (file : Option Bytes) :
    carriedValue gamesConf file key = entryOf key (usrContent file) := by
  have hgames : lastSome (entryOf key) (gameLines gamesConf) = none :=
    lastSome_eq_none fun l hl => entryOf_of_head h (head_of_mem_gameLines_gamesConf l hl)
  rw [carriedValue, lastSome_append, hgames, Option.or_none,
    lines_of_notMem (notMem_usrContent file).1]
  split
  next hnil =>
    rw [hnil]
    rfl
  · rw [lastSome_cons, lastSome_nil, Option.none_or]

/-- **A generated file is read back** where it does not matter: a value assigned to a key is the
value of its field after a load exactly if the field has it without the settings. -/
theorem generated_loaded_iff (B : Build) (access : Bytes → Bool) (vars : ShellVars)
    (games : Bytes) (file : Option Bytes) (cfg : DaemonConfig)
    (hset : ∀ key ∈ guardedVars, vars key ≠ [])
    (hfit : (generated vars games file).length ≤ 4095) :
    (∀ key ∈ guardedVars, ∀ st, configLoadTable.lookup key = some st →
        (configLoad B ⟨true, access⟩ (configShUpdate vars games file) cfg).get st.field =
          st.parse (vars key)) ↔
      ∀ key ∈ guardedVars, ∀ st, configLoadTable.lookup key = some st →
        (carriedValue games file key).elim ((defaultOf B st.field).getD (cfg.get st.field))
          st.parse = st.parse (vars key) := by
  refine forall_congr' fun key => forall_congr' fun _ => forall_congr' fun st =>
    forall_congr' fun h => ?_
  rw [configShUpdate_of_set hset, configLoad_get h, fileValue_generated h hfit]

theorem length_generated_onesVars : (generated onesVars gamesConf none).length ≤ 4095 := by
  decide +kernel

theorem generated_loaded_iff_onesVars :
    (∀ key ∈ guardedVars, ∀ st, configLoadTable.lookup key = some st →
        (configLoad shippedBuild ⟨true, fun _ => false⟩ (configShUpdate onesVars gamesConf none)
          .zero).get st.field = st.parse (onesVars key)) ↔
      ∀ key ∈ guardedVars, ∀ st, configLoadTable.lookup key = some st →
        (carriedValue gamesConf none key).elim
          ((defaultOf shippedBuild st.field).getD (DaemonConfig.zero.get st.field)) st.parse =
            st.parse (onesVars key) :=
  generated_loaded_iff shippedBuild (fun _ => false) onesVars gamesConf none .zero
    onesVars_ne_nil length_generated_onesVars

theorem irq_enable_not_loaded :
    ¬ ∀ (B : Build) (access : Bytes → Bool) (vars : ShellVars) (file : Option Bytes)
      (cfg : DaemonConfig), (∀ key ∈ guardedVars, vars key ≠ []) →
      (∀ key, nl ∉ vars key ∧ (92 : UInt8) ∉ vars key ∧ ∀ c ∈ vars key, isspace c = false) →
      (generated vars gamesConf file).length ≤ 4095 →
      ∀ key ∈ guardedVars, ∀ st, configLoadTable.lookup key = some st →
        (configLoad B ⟨true, access⟩ (configShUpdate vars gamesConf file) cfg).get st.field =
          st.parse (vars key) := by
  intro h
  have hplain : ∀ key, nl ∉ onesVars key ∧ (92 : UInt8) ∉ onesVars key ∧
      ∀ c ∈ onesVars key, isspace c = false := fun _ => by
    show nl ∉ lit "1" ∧ (92 : UInt8) ∉ lit "1" ∧ ∀ c ∈ lit "1", isspace c = false
    decide +kernel
  have hlookup : configLoadTable.lookup (lit "IRQ_ENABLE") = some (.atoi .irqEnable) := by
    rfl
  have hloaded := h shippedBuild (fun _ => false) onesVars none .zero onesVars_ne_nil hplain
    length_generated_onesVars (lit "IRQ_ENABLE") (by decide) _ hlookup
  have hcarried : carriedValue gamesConf none (lit "IRQ_ENABLE") = none :=
    carriedValue_gamesConf hlookup none
  rw [configShUpdate_of_set onesVars_ne_nil, configLoad_get hlookup,
    fileValue_generated hlookup length_generated_onesVars, hcarried] at hloaded
  -- the field keeps the zero it had, where one was assigned
  exact absurd hloaded (by decide)

end X3D
