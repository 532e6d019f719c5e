import X3DToggle.Irq
import X3DToggle.Lib.Blocks
import X3DToggle.Topology

/-!
# The exempted threads

With `THREAD_CONTROL`, each round of `irq_watch` gives the processes named in `THREAD_EXEMPT` all
cores back. It reads the names into a buffer of 64 bytes, and has the shell run one command for
each. So the commands of a round are those for the names between the commas and spaces, where a
name of more than 63 bytes comes in pieces, each a name of its own (`exemptCommands_eq`). The
buffer of the command is large enough for all of them.
-/

namespace X3D

/-! ### A round -/

/-- `full_mask_str`: all cores. -/
def fullMask (B : Build) : Bytes :=
  if 0 < (ccd B).2.2 then printfSn 32 (lit "0-%d") [.int ((ccd B).2.2 - 1)] else lit "0"

/-- What ends a name. -/
def isExemptSep (c : UInt8) : Bool := c = chr ',' || c = chr ' '

/-- The command for a name. -/
def exemptCommand (mask name : Bytes) : Bytes :=
  printfSn 512
    (lit "for p in $(pidof %s 2>/dev/null); do   taskset -p -c %s $p >/dev/null 2>&1; done")
    [.str name, .str mask]

/-- What a round of `irq_watch` has the shell run, one command after the other. -/
def exemptCommands (B : Build) (cfg : IrqConfig) : List Bytes :=
  if cfg.threadControl ≠ 0 then
    ((tokens isExemptSep 63 cfg.threadExempt).filter (!·.isEmpty)).map (exemptCommand (fullMask B))
  else []

/-! ### The command -/

/-- A `$` in a format that opens no token. -/
theorem printfLoop_dollar {cap : ℕ} {b : UInt8} (hb : b ≠ chr '\x7b') (fuel : ℕ) (p : Bytes)
    (args : List Arg) (full : Bytes) :
    printfLoop cap (fuel + 1) (chr '$' :: b :: p) args (full.take cap) =
      printfLoop cap fuel (b :: p) args ((full ++ [chr '$']).take cap) := by
  refine printfLoop_of_room fun hroom => ?_
  have htoken : xuiToken (chr '$' :: b :: p) = none := if_neg fun h => hb h.2
  have hone : (full ++ [chr '$']).take cap = full.take cap ++ [chr '$'] := by
    have hlen : (full ++ [chr '$']).length ≤ cap := by
      rw [List.length_append, List.length_singleton]
      omega
    rw [List.take_of_length_le hlen, List.take_of_length_le hroom.le]
  rw [printfLoop, if_neg (printfLoop_goesOn hroom _ _), htoken, hone]
  exact if_pos (by simp [chr])

/-- The command as a text. -/
def exemptText (mask name : Bytes) : Bytes :=
  lit "for p in $(pidof " ++ name ++ lit " 2>/dev/null); do   taskset -p -c " ++ mask ++
    lit " $p >/dev/null 2>&1; done"

theorem exemptFormat_eq :
    lit "for p in $(pidof %s 2>/dev/null); do   taskset -p -c %s $p >/dev/null 2>&1; done" =
      lit "for p in " ++ (chr '$' :: (chr '(' :: (lit "pidof " ++ (chr '%' :: chr 's' ::
        (lit " 2>/dev/null); do   taskset -p -c " ++ (chr '%' :: chr 's' ::
          (lit " " ++ (chr '$' :: (chr 'p' :: (lit " >/dev/null 2>&1; done" ++ [])))))))))) := by
  decide

/-- **The command is whole** if the name and the mask are as long as their buffers allow. -/
theorem exemptCommand_eq {mask name : Bytes} (hmask : mask.length ≤ 31) (hname : name.length ≤ 63) :
    exemptCommand mask name = exemptText mask name := by
  have hloop (full : Bytes) : printfLoop 511 80
      (lit "for p in " ++ (chr '$' :: (chr '(' :: (lit "pidof " ++ (chr '%' :: chr 's' ::
        (lit " 2>/dev/null); do   taskset -p -c " ++ (chr '%' :: chr 's' ::
          (lit " " ++ (chr '$' :: (chr 'p' :: (lit " >/dev/null 2>&1; done" ++ [])))))))))))
      [.str name, .str mask] (full.take 511) =
        (full ++ lit "for p in " ++ [chr '$'] ++ [chr '('] ++ lit "pidof " ++ name ++
          lit " 2>/dev/null); do   taskset -p -c " ++ mask ++ lit " " ++ [chr '$'] ++ [chr 'p'] ++
          lit " >/dev/null 2>&1; done").take 511 := by
    rw [printfLoop_text (k := 71) (by decide) (by decide) (by decide),
      printfLoop_dollar (by decide),
      printfLoop_char (by decide) (by decide),
      printfLoop_text (k := 63) (by decide) (by decide) (by decide),
      printfLoop_s,
      printfLoop_text (k := 28) (by decide) (by decide) (by decide),
      printfLoop_s,
      printfLoop_text (k := 26) (by decide) (by decide) (by decide),
      printfLoop_dollar (by decide),
      printfLoop_char (by decide) (by decide),
      printfLoop_text (k := 2) (by decide) (by decide) (by decide),
      printfLoop,
      if_pos (Or.inl rfl)]
  have hstart := hloop []
  have hhead : lit "for p in $(pidof " =
      lit "for p in " ++ [chr '$'] ++ [chr '('] ++ lit "pidof " := by
    decide
  have htail : lit " $p >/dev/null 2>&1; done" =
      lit " " ++ [chr '$'] ++ [chr 'p'] ++ lit " >/dev/null 2>&1; done" := by
    decide
  have hwhole : (exemptText mask name).length ≤ 511 := by
    have h1 : (lit "for p in $(pidof ").length = 17 := by decide
    have h2 : (lit " 2>/dev/null); do   taskset -p -c ").length = 34 := by decide
    have h3 : (lit " $p >/dev/null 2>&1; done").length = 25 := by decide
    unfold exemptText
    simp only [List.length_append, h1, h2, h3]
    omega
  have hlen : (lit
      "for p in $(pidof %s 2>/dev/null); do   taskset -p -c %s $p >/dev/null 2>&1; done").length =
        80 := by
    decide
  rw [List.take_nil, ← exemptFormat_eq] at hstart
  unfold exemptCommand printfSn
  rw [hlen, hstart, ← List.take_of_length_le hwhole]
  unfold exemptText
  rw [hhead, htail]
  simp only [List.nil_append, List.append_assoc]

/-- The mask fits into its buffer. -/
theorem length_fullMask_le (B : Build) : (fullMask B).length ≤ 31 := by
  have hloop (full : Bytes) (z : ℤ) : printfLoop 31 4
      (chr '0' :: chr '-' :: [chr '%', chr 'd']) [.int z] (full.take 31) =
        (full ++ [chr '0'] ++ [chr '-'] ++ xuiItoa z).take 31 := by
    rw [printfLoop_char (by decide) (by decide), printfLoop_char (by decide) (by decide),
      printfLoop_d, printfLoop, if_pos (Or.inl rfl)]
  unfold fullMask
  split
  · have hstart := hloop [] ((ccd B).2.2 - 1)
    rw [List.take_nil] at hstart
    have hformat : lit "0-%d" = chr '0' :: chr '-' :: [chr '%', chr 'd'] := by decide
    rw [hformat, printfSn]
    exact (congrArg List.length hstart).trans_le (List.length_take_le 31 _)
  · decide

/-- **What a round runs.** There is a command for each name of the list, in its order, and for each
piece of 63 bytes of a name that is longer; and each command is whole. -/
theorem exemptCommands_eq (B : Build) (cfg : IrqConfig) :
    exemptCommands B cfg =
      if cfg.threadControl ≠ 0 then
        ((cfg.threadExempt.splitOnP isExemptSep).flatMap (blocks 63)).map (exemptText (fullMask B))
      else [] := by
  unfold exemptCommands
  refine if_congr Iff.rfl ?_ rfl
  rw [filter_tokens]
  refine List.map_congr_left fun name hname => ?_
  obtain ⟨field, -, hblock⟩ := List.mem_flatMap.mp hname
  exact exemptCommand_eq (length_fullMask_le B) (length_le_of_mem_blocks hblock)

end X3D
