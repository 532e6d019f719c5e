import X3DToggle.Formatter
import X3DToggle.Lib.Text

/-!
# Journal records

`journal_syslog` builds a datagram of three fields, each on a line of its own, and `journal_file`
appends one line to the log file. Both take the summary and the context as they are. A context is
text of users: command arguments, names of games, messages of the dashboard.

What is read back is what was meant exactly if neither text has a line break
(`journal_exact_iff`). `cli_gui_log` passes on its argument unchanged, so a caller can add a field
of its own (`gui_log_forges`).
-/

namespace X3D

/-! ### The code -/

/-- The levels `journal_file` is called with. -/
inductive Level where
  | ERR | WRN | FTL | DBG | INF

/-- The text of a level. -/
def Level.text : Level → Bytes
  | ERR => lit "ERR"
  | WRN => lit "WRN"
  | FTL => lit "FTL"
  | DBG => lit "DBG"
  | INF => lit "INF"

/-- `LOG_ERR`, `LOG_WARNING`, `LOG_CRIT` or `LOG_INFO`. -/
def Level.pri : Level → ℤ
  | ERR => 3
  | WRN => 4
  | FTL => 2
  | DBG => 6
  | INF => 6

/-- `journal_syslog`: the datagram. -/
def journalSyslog (priority : ℤ) (summary ctx : Bytes) : Bytes :=
  printfSn 2048 (lit "PRIORITY=%d\nSYSLOG_IDENTIFIER=x3d-toggle\nMESSAGE=%s: %s\n")
    [.int priority, .str summary, .str ctx]

/-- `journal_file` at the time `sec`, with the log file if it can be opened: the datagram, and the
log file afterwards. -/
def journalFile (sec : UInt64) (level : Level) (summary ctx : Bytes) (log : Option Bytes) :
    Bytes × Option Bytes :=
  let timestamp := printfSn 32 (lit "%zu") [.uint sec.toNat]
  let buf := printfSn 2048 (lit "[%s] [%s] %s: %s\n")
    [.str timestamp, .str level.text, .str summary, .str ctx]
  (journalSyslog level.pri summary ctx, log.map (· ++ buf))

/-- `journal_error` with an entry of the registry, without what it displays. -/
def journalError (sec : UInt64) (summary details : Bytes) (args : List Arg) (log : Option Bytes) :
    Bytes × Option Bytes :=
  journalFile sec .ERR summary (printfSn 1024 details args) log

/-- `cli_gui_log`; its code is `ERR_GUI`. -/
def cliGuiLog (sec : UInt64) (argv : List Bytes) (log : Option Bytes) :
    Option (Bytes × Option Bytes) :=
  argv[2]?.map fun arg =>
    journalError sec (lit "GUI Execution Failure") (lit "Dashboard error: %s") [.str arg] log

/-! ### What the records say -/

/-- The fields of a datagram, in order; a line that is none is kept as `none`. -/
def fields (datagram : Bytes) : List (Option (Bytes × Bytes)) :=
  (lines nl datagram).map (cut (chr '='))

/-- The message of a record. -/
def messageText (summary ctx : Bytes) : Bytes := summary ++ lit ": " ++ ctx

/-- The datagram when nothing is cut. -/
def datagramText (priority : ℤ) (summary ctx : Bytes) : Bytes :=
  (lit "PRIORITY=" ++ decimal priority) ++ nl :: (lit "SYSLOG_IDENTIFIER=x3d-toggle" ++
    nl :: (lit "MESSAGE=" ++ messageText summary ctx ++ [nl]))

/-- The line of the log file when nothing is cut, without its break. -/
def entryText (sec : UInt64) (level : Level) (summary ctx : Bytes) : Bytes :=
  lit "[" ++ digitsText sec.toNat ++ lit "] [" ++ level.text ++ lit "] " ++ messageText summary ctx

/-- The datagram has the three fields that are meant, and no others. -/
def DatagramExact (priority : ℤ) (summary ctx : Bytes) : Prop :=
  fields (journalSyslog priority summary ctx) =
    [some (lit "PRIORITY", decimal priority), some (lit "SYSLOG_IDENTIFIER", lit "x3d-toggle"),
      some (lit "MESSAGE", messageText summary ctx)]

/-- One line is appended to the log file. -/
def EntryExact (sec : UInt64) (level : Level) (summary ctx : Bytes) (log : Option Bytes) : Prop :=
  ∃ before line, log = some before ∧ nl ∉ line ∧
    (journalFile sec level summary ctx log).2 = some (before ++ (line ++ [nl]))

/-! ### Encoding -/

theorem length_lt_of_fits {priority : ℤ} {summary ctx : Bytes}
    (hfit : (datagramText priority summary ctx).length < 2048) :
    summary.length < 2048 ∧ ctx.length < 2048 := by
  have hlen : summary.length + ctx.length ≤ (datagramText priority summary ctx).length := by
    unfold datagramText messageText
    simp only [List.length_append, List.length_cons]
    omega
  omega

/-- The end of both formats. -/
theorem renders_message {summary ctx : Bytes} (hsummary : (0 : UInt8) ∉ summary)
    (hctx : (0 : UInt8) ∉ ctx) : Renders (lit "%s: %s\n") [.str summary, .str ctx]
      (summary ++ (lit ": " ++ (ctx ++ [nl]))) := by
  have hbreak : Renders [nl] [] [nl] := .text (by decide) (by decide) (by decide) .nil
  have hlast : Renders (lit "%s\n") [.str ctx] (ctx ++ [nl]) := .plain (.s hctx) hbreak
  have hcolon : Renders (lit ": " ++ lit "%s\n") [.str ctx] _ := .literal (by decide) hlast
  exact .plain (.s hsummary) hcolon

/-- A datagram that fits is not cut. -/
theorem journalSyslog_eq {priority : ℤ} {summary ctx : Bytes} (hpriority : IsInt32 priority)
    (hsummary : (0 : UInt8) ∉ summary) (hctx : (0 : UInt8) ∉ ctx)
    (hfit : (datagramText priority summary ctx).length < 2048) :
    journalSyslog priority summary ctx = datagramText priority summary ctx := by
  have hmessage := renders_message hsummary hctx
  have hidentifier : Renders
      (lit "\nSYSLOG_IDENTIFIER=x3d-toggle\nMESSAGE=" ++ lit "%s: %s\n") _ _ :=
    .literal (by decide) hmessage
  have hnumber := Renders.plain (.d hpriority) hidentifier
  have hformat : Renders (lit "PRIORITY=" ++ _) _ _ := .literal (by decide) hnumber
  have hstrings : ∀ s, Arg.str s ∈ [.int priority, .str summary, .str ctx] →
      s.length < 2 ^ 31 := by
    have hlen := length_lt_of_fits hfit
    intro s hs
    simp only [List.mem_cons, reduceCtorEq, Arg.str.injEq, List.not_mem_nil, or_false,
      false_or] at hs
    rcases hs with rfl | rfl <;> omega
  -- the formatter renders the datagram, and 2048 bytes hold all of it
  have hprint : printfSn 2048 _ _ = _ := printfSn_renders hformat hstrings
  have htext : lit "PRIORITY=" ++ (decimal priority ++
      (lit "\nSYSLOG_IDENTIFIER=x3d-toggle\nMESSAGE=" ++
        (summary ++ (lit ": " ++ (ctx ++ [nl]))))) = datagramText priority summary ctx := by
    have hsplit : lit "\nSYSLOG_IDENTIFIER=x3d-toggle\nMESSAGE=" =
        nl :: (lit "SYSLOG_IDENTIFIER=x3d-toggle" ++ nl :: lit "MESSAGE=") := by decide
    rw [hsplit]
    unfold datagramText messageText
    simp only [List.append_assoc, List.cons_append]
  rw [htext, List.take_of_length_le (by omega)] at hprint
  exact hprint

/-- The time stamp of a line. -/
theorem printfSn_zu {n : ℕ} (h : n < 2 ^ 64) :
    printfSn 32 (lit "%zu") [.uint n] = digitsText n := by
  have hstrings : ∀ s, Arg.str s ∈ [.uint n] → s.length < 2 ^ 31 := fun s hs => by
    simp at hs
  have hprint : printfSn 32 (lit "%zu") [.uint n] = _ :=
    printfSn_renders (Renders.plain (.zu h) .nil) hstrings
  have hlen : (digitsText n).length ≤ 20 := length_digitsText_le (by decide) (by omega)
  rw [hprint, List.append_nil, baseText_ten, List.take_of_length_le (by omega)]

/-- A line that fits is not cut. -/
theorem journalFile_eq (sec : UInt64) (level : Level) {summary ctx : Bytes}
    (hsummary : (0 : UInt8) ∉ summary) (hctx : (0 : UInt8) ∉ ctx)
    (hfit : (entryText sec level summary ctx ++ [nl]).length < 2048) (log : Option Bytes) :
    (journalFile sec level summary ctx log).2 =
      log.map (· ++ (entryText sec level summary ctx ++ [nl])) := by
  have hdigits : (0 : UInt8) ∉ digitsText sec.toNat := fun h =>
    absurd (isDigit_of_mem_digitsText h) (by decide)
  -- neither the number nor the level ends the string early
  have hlevel : (0 : UInt8) ∉ level.text := by cases level <;> decide
  have hmessage := renders_message hsummary hctx
  have hclose : Renders (lit "] " ++ lit "%s: %s\n") _ _ := .literal (by decide) hmessage
  have hbrackets : Renders (lit "] [" ++ _) _ _ :=
    .literal (by decide) (Renders.plain (.s hlevel) hclose)
  have hformat : Renders (lit "[" ++ _) _ _ :=
    .literal (by decide) (Renders.plain (.s hdigits) hbrackets)
  have htext : lit "[" ++ (digitsText sec.toNat ++ (lit "] [" ++ (level.text ++ (lit "] " ++
      (summary ++ (lit ": " ++ (ctx ++ [nl]))))))) = entryText sec level summary ctx ++ [nl] := by
    unfold entryText messageText
    simp only [List.append_assoc]
  have hstrings : ∀ s, Arg.str s ∈ [.str (digitsText sec.toNat), .str level.text, .str summary,
      .str ctx] → s.length < 2 ^ 31 := by
    have hlen := congrArg List.length htext
    simp only [List.length_append] at hlen hfit
    intro s hs
    simp only [List.mem_cons, Arg.str.injEq, List.not_mem_nil, or_false] at hs
    rcases hs with rfl | rfl | rfl | rfl <;> omega
  have hprint : printfSn 2048 _ _ = _ := printfSn_renders hformat hstrings
  rw [htext, List.take_of_length_le (by omega)] at hprint
  unfold journalFile
  rw [printfSn_zu sec.toNat_lt]
  exact congrArg (fun line => log.map (· ++ line)) hprint

/-! ### Reading back -/

/-- The message of a field is one line. -/
theorem notMem_of_mem_fields {datagram key value : Bytes}
    (h : some (key, value) ∈ fields datagram) : nl ∉ value := by
  obtain ⟨line, hline, hcut⟩ := List.mem_map.mp h
  have hvalue := (cut_eq_some.mp hcut).2
  refine fun hmem => notMem_of_mem_lines hline ?_
  rw [hvalue]
  exact List.mem_append_right _ (List.mem_cons_of_mem _ hmem)

theorem nl_mem_messageText {summary ctx : Bytes} :
    nl ∈ messageText summary ctx ↔ nl ∈ summary ∨ nl ∈ ctx := by
  have hcolon : nl ∉ lit ": " := by decide
  unfold messageText
  rw [List.mem_append, List.mem_append, or_iff_left hcolon]

theorem notMem_of_datagramExact {priority : ℤ} {summary ctx : Bytes}
    (h : DatagramExact priority summary ctx) : nl ∉ messageText summary ctx := by
  have hmem : some (lit "MESSAGE", messageText summary ctx) ∈
      fields (journalSyslog priority summary ctx) := by
    rw [h]
    exact List.mem_of_mem_getLast? rfl
  exact notMem_of_mem_fields hmem

/-- The datagram is read back if its message is one line. -/
theorem fields_datagramText {priority : ℤ} {summary ctx : Bytes}
    (h : nl ∉ messageText summary ctx) :
    fields (datagramText priority summary ctx) =
      [some (lit "PRIORITY", decimal priority), some (lit "SYSLOG_IDENTIFIER", lit "x3d-toggle"),
        some (lit "MESSAGE", messageText summary ctx)] := by
  -- none of the three lines has a break inside
  have hpriority : nl ∉ lit "PRIORITY=" ++ decimal priority := by
    have hdecimal : nl ∉ decimal priority := by
      unfold decimal
      split
      · refine List.not_mem_cons_of_ne_of_not_mem (by decide) fun hmem => ?_
        exact absurd (isDigit_of_mem_digitsText hmem) (by decide)
      · exact fun hmem => absurd (isDigit_of_mem_digitsText hmem) (by decide)
    rw [List.mem_append, not_or]
    exact ⟨by decide, hdecimal⟩
  have hmessage : nl ∉ lit "MESSAGE=" ++ messageText summary ctx := by
    rw [List.mem_append, not_or]
    exact ⟨by decide, h⟩
  have hfield {key : Bytes} (hkey : chr '=' ∉ key) (value : Bytes) :
      cut (chr '=') (key ++ chr '=' :: value) = some (key, value) := cut_append hkey value
  unfold fields datagramText
  rw [lines_append_break hpriority, lines_append_break (by decide), lines_append_break hmessage,
    lines_nil, List.map_cons, List.map_cons, List.map_cons, List.map_nil]
  have hfirst := hfield (by decide : chr '=' ∉ lit "PRIORITY") (decimal priority)
  have hlast := hfield (by decide : chr '=' ∉ lit "MESSAGE") (messageText summary ctx)
  exact congrArg₂ (fun a b => [a, some (lit "SYSLOG_IDENTIFIER", lit "x3d-toggle"), b]) hfirst hlast

/-- **Journal records** say what was meant exactly if neither text has a line break and the log
file opens. -/
theorem journal_exact_iff {priority : ℤ} (hpriority : IsInt32 priority) {summary ctx : CString}
    {sec : UInt64} {level : Level} (log : Option Bytes)
    (hdatagram : (datagramText priority summary ctx).length < 2048)
    (hentry : (entryText sec level summary ctx ++ [nl]).length < 2048) :
    DatagramExact priority summary ctx ∧ EntryExact sec level summary ctx log ↔
      (nl ∉ summary.val ∧ nl ∉ ctx.val) ∧ log.isSome := by
  constructor
  · rintro ⟨hfields, before, line, rfl, -, -⟩
    -- a break in a text would make one more field of the datagram
    have hmessage := notMem_of_datagramExact hfields
    rw [nl_mem_messageText, not_or] at hmessage
    exact ⟨hmessage, rfl⟩
  · rintro ⟨hbreaks, hlog⟩
    obtain ⟨before, rfl⟩ := Option.isSome_iff_exists.mp hlog
    have hmessage : nl ∉ messageText summary ctx := by
      rw [nl_mem_messageText, not_or]
      exact hbreaks
    refine ⟨?_, before, entryText sec level summary ctx, rfl, ?_, ?_⟩
    · unfold DatagramExact
      rw [journalSyslog_eq hpriority summary.prop ctx.prop hdatagram]
      exact fields_datagramText hmessage
    · unfold entryText
      simp only [List.mem_append, not_or]
      refine ⟨⟨⟨⟨⟨by decide, ?_⟩, by decide⟩, by cases level <;> decide⟩, by decide⟩, hmessage⟩
      exact fun hmem => absurd (isDigit_of_mem_digitsText hmem) (by decide)
    · rw [journalFile_eq sec level summary.prop ctx.prop hentry]
      rfl

theorem journal_exact_iff_game :
    DatagramExact 4 (lit "Unknown command") (lit "game") ∧
        EntryExact 0 .WRN (lit "Unknown command") (lit "game") (some []) ↔
      (nl ∉ lit "Unknown command" ∧ nl ∉ lit "game") ∧ (some ([] : Bytes)).isSome :=
  @journal_exact_iff 4 (by decide) ⟨lit "Unknown command", by decide⟩ ⟨lit "game", by decide⟩
    0 .WRN (some []) (by decide) (by decide)

/-- The argument of the command is all of the context but its first words. -/
theorem cliGuiLog_datagram (sec : UInt64) (name command arg : Bytes) (argv : List Bytes)
    (log : Option Bytes) :
    (cliGuiLog sec (name :: command :: arg :: argv) log).map Prod.fst =
      some (journalSyslog 3 (lit "GUI Execution Failure")
        (printfSn 1024 (lit "Dashboard error: %s") [.str arg])) := by
  unfold cliGuiLog journalError journalFile
  have hpri : Level.ERR.pri = 3 := rfl
  rw [List.getElem?_cons_succ, List.getElem?_cons_succ, List.getElem?_cons_zero, Option.map_some,
    Option.map_some, hpri]

/-- A message of the dashboard that brings a field along: the record has two priorities. -/
theorem gui_log_forges :
    (cliGuiLog 0 [lit "x3d-toggle", lit "gui-log", lit "x\nPRIORITY=0"] none).map Prod.fst =
        some (datagramText 3 (lit "GUI Execution Failure")
          (lit "Dashboard error: x\nPRIORITY=0")) ∧
      fields (datagramText 3 (lit "GUI Execution Failure")
          (lit "Dashboard error: x\nPRIORITY=0")) =
        [some (lit "PRIORITY", lit "3"), some (lit "SYSLOG_IDENTIFIER", lit "x3d-toggle"),
          some (lit "MESSAGE", lit "GUI Execution Failure: Dashboard error: x"),
          some (lit "PRIORITY", lit "0")] ∧
      ¬∀ (priority : ℤ) (summary ctx : CString), IsInt32 priority →
        (datagramText priority summary ctx).length < 2048 → DatagramExact priority summary ctx := by
  refine ⟨?_, by decide, fun h => ?_⟩
  · have hctx : printfSn 1024 (lit "Dashboard error: %s") [.str (lit "x\nPRIORITY=0")] =
        lit "Dashboard error: x\nPRIORITY=0" := by decide +kernel
    have hdatagram := @journalSyslog_eq 3 (lit "GUI Execution Failure")
      (lit "Dashboard error: x\nPRIORITY=0") (by decide) (by decide) (by decide) (by decide)
    rw [cliGuiLog_datagram, hctx, hdatagram]
  · have hfields := h 3 ⟨lit "GUI Execution Failure", by decide⟩
      ⟨lit "Dashboard error: x\nPRIORITY=0", by decide⟩ (by decide) (by decide)
    exact notMem_of_datagramExact hfields (nl_mem_messageText.mpr (Or.inr (by decide)))

end X3D
