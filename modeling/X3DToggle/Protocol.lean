import X3DToggle.Cli

/-!
# Client and daemon

The client writes a request as a command word and its arguments with a space before each. The
daemon recognises the word by a chain of prefix tests and takes the arguments apart again: a
branch with two arguments splits at the first space. `spoken_iff_understood` says which requests
arrive as they were meant.

Four words the client uses are in no test of the daemon: `GAME_ADD`, `GAME_REMOVE`, `PROFILE`
and `SET_RAW`. A carriage return ends a request as a line feed does. An argument before another
one may not contain a space. And `server` cuts its arguments to arrays before it sends them.
-/

namespace X3D

/-- The words the daemon knows. -/
def daemonWords : List Bytes := verbTable.map fun e => e.1.rdropWhile (· = chr ' ')

/-- The word of a branch. -/
def Verb.word (v : Verb) : Bytes :=
  match verbTable.find? fun e => e.2.2 = v with
  | some e => e.1.rdropWhile (· = chr ' ')
  | none => []

/-- The arguments a branch reads from what follows its verb. -/
def Verb.arguments (v : Verb) (rest : Bytes) : List Bytes :=
  match v with
  | .ping | .mode | .daemonInfo | .toggle | .getTopology | .daemonDisable | .configSync
  | .gamesList => []
  | .setAffinityConfig | .setEppCcd | .setConfig | .advancedSet =>
    match strchr rest (chr ' ') with
    | some (a, b) => [a, b]
    | none => [rest]
  | _ => [rest]

/-- The daemon runs the branch for the word, and the branch reads the arguments that were
meant. -/
def CliRequest.spoken (q : CliRequest) : Bool :=
  (dispatch (received q.text)).any fun p =>
    p.1.word = q.word && p.1.arguments ((received q.text).drop p.2) = q.args

/-- The word and the arguments as the protocol writes them. -/
def CliRequest.words (q : CliRequest) : Bytes := q.word ++ q.args.flatMap (chr ' ' :: ·)

/-- **When a request is understood.** The daemon knows the word, no argument has a carriage
return, the first of two has no space, and all of them are in the payload. -/
def Understood (q : CliRequest) : Prop :=
  q.word ∈ daemonWords ∧ (∀ a ∈ q.args, chr '\r' ∉ a) ∧
    (q.args.length = 2 → chr ' ' ∉ q.args.headD []) ∧ q.payload = q.words

instance (q : CliRequest) : Decidable (Understood q) := inferInstanceAs (Decidable (_ ∧ _))

/-- A handler all of whose requests arrive exactly if they are understood. -/
def Speaks (handler : List Bytes → List CliAction) : Prop :=
  ∀ argv : List Bytes, (∀ a ∈ argv, (0 : UInt8) ∉ a) → ∀ act ∈ handler argv,
    act.request.Fits → nl ∉ act.request.payload →
      (act.request.spoken = true ↔ Understood act.request)

/-! ### A request and its branch -/

theorem text_eq_payload {q : CliRequest} (hplain : plainFormat q.fmt q.params.length = true)
    (h : q.Fits) : q.text = q.payload := by
  unfold CliRequest.Fits at h
  unfold CliRequest.text
  cases hsize : q.size with
  | none => simp [CliRequest.payload, hsize]
  | some n =>
    rw [hsize] at h
    have hpayload : q.payload = rendered q.fmt q.params := by
      simp [CliRequest.payload, hsize]
    show printfSn n q.fmt (q.params.map .str) = q.payload
    rw [printfSn_plain hplain, hpayload, List.take_of_length_le]
    rw [← hpayload]
    exact Nat.le_sub_one_of_lt h

/-- The literal of a test, as a beginning that decides the branch. -/
structure Heads (a : Bytes) (v : Verb) : Prop where
  decides : Decides a
  dispatch : dispatch a = some (v, a.length)
  clean : (0 : UInt8) ∉ a ∧ chr '\r' ∉ a ∧ nl ∉ a

/-- Without a line feed a request ends at its first carriage return. -/
theorem cutAny_of_notMem {s : Bytes} (hnl : nl ∉ s) :
    cutAny s [chr '\r', nl] = s.takeWhile (· ≠ chr '\r') := by
  unfold cutAny
  induction s with
  | nil => rfl
  | cons c s ih =>
    rw [List.mem_cons, not_or] at hnl
    have hc : (c ∉ [chr '\r', nl]) ↔ c ≠ chr '\r' := by
      simp [Ne.symm hnl.1]
    rw [List.takeWhile_cons, List.takeWhile_cons, ih hnl.2, decide_eq_decide.mpr hc]

/-- What the branch gets to see of a request that fits. -/
theorem dispatch_received {a s : Bytes} {v : Verb} (ha : Heads a v)
    (hlen : (a ++ s).length ≤ 511) (hz : (0 : UInt8) ∉ s) (hnl : nl ∉ s) :
    dispatch (received (a ++ s)) = some (v, a.length) ∧
      (received (a ++ s)).drop a.length = s.takeWhile (· ≠ chr '\r') := by
  obtain ⟨haz, hacr, hanl⟩ := ha.clean
  rw [List.length_append] at hlen
  have hreceived : received (a ++ s) = a ++ s.takeWhile (· ≠ chr '\r') := by
    rw [received_append (by omega) haz hacr hanl, List.take_of_length_le (by omega),
      cstr_of_notMem hz, cutAny_of_notMem hnl]
  rw [hreceived]
  exact ⟨by rw [dispatch_append ha.decides, ha.dispatch], List.drop_left⟩

theorem takeWhile_eq_self_iff {s : Bytes} :
    s.takeWhile (· ≠ chr '\r') = s ↔ chr '\r' ∉ s := by
  rw [List.takeWhile_eq_self_iff]
  constructor
  · intro h hmem
    exact absurd (h _ hmem) (by simp)
  · intro h c hc
    have hne : c ≠ chr '\r' := fun heq => h (heq ▸ hc)
    simpa using hne

theorem notMem_takeWhile (s : Bytes) : chr '\r' ∉ s.takeWhile (· ≠ chr '\r') := by
  intro h
  simpa using List.mem_takeWhile_imp h

/-- What arrives is what was meant, if what is sent is the beginning of that. -/
theorem takeWhile_eq_iff {s t : Bytes} (hpre : s <+: t) :
    s.takeWhile (· ≠ chr '\r') = t ↔ chr '\r' ∉ t ∧ s = t := by
  constructor
  · intro h
    have hsame : s = t := by
      refine hpre.eq_of_length (le_antisymm hpre.length_le ?_)
      rw [← h]
      exact (List.takeWhile_sublist _).length_le
    exact ⟨h ▸ notMem_takeWhile s, hsame⟩
  · rintro ⟨hcr, rfl⟩
    exact takeWhile_eq_self_iff.mpr hcr

/-- **A request for a branch.** -/
theorem spoken_iff_of_heads {q : CliRequest} {a s : Bytes} {v : Verb} (ha : Heads a v)
    (htext : q.text = a ++ s) (hword : v.word = q.word) (hlen : (a ++ s).length ≤ 511)
    (hz : (0 : UInt8) ∉ s) (hnl : nl ∉ s) :
    q.spoken = true ↔ v.arguments (s.takeWhile (· ≠ chr '\r')) = q.args := by
  obtain ⟨hdispatch, hdrop⟩ := dispatch_received ha hlen hz hnl
  unfold CliRequest.spoken
  rw [htext, hdispatch, Option.any_some, hdrop, hword]
  simp

/-- A branch with one argument gets it if it has no carriage return. -/
theorem spoken_iff_one {q : CliRequest} {a s : Bytes} {v : Verb} (ha : Heads a v)
    (hone : ∀ rest, v.arguments rest = [rest]) (htext : q.text = a ++ s) (hword : v.word = q.word)
    (hargs : q.args = [s]) (hlen : (a ++ s).length ≤ 511) (hz : (0 : UInt8) ∉ s) (hnl : nl ∉ s) :
    q.spoken = true ↔ chr '\r' ∉ s := by
  rw [spoken_iff_of_heads ha htext hword hlen hz hnl, hone, hargs, List.singleton_inj]
  exact takeWhile_eq_self_iff

/-- The branches that split their argument. -/
theorem arguments_eq_pair_iff {v : Verb}
    (hv : v = .setAffinityConfig ∨ v = .setEppCcd ∨ v = .setConfig ∨ v = .advancedSet)
    {rest a b : Bytes} : v.arguments rest = [a, b] ↔ chr ' ' ∉ a ∧ rest = a ++ chr ' ' :: b := by
  have harguments : v.arguments rest =
      match strchr rest (chr ' ') with
      | some (a, b) => [a, b]
      | none => [rest] := by
    rcases hv with rfl | rfl | rfl | rfl <;> rfl
  rw [harguments, ← cut_eq_some]
  unfold strchr
  cases cut (chr ' ') rest with
  | none => simp
  | some p => simp [Prod.ext_iff]

/-- A branch with two arguments gets them if neither has a carriage return, the first has no
space, and the second is sent in full. -/
theorem spoken_iff_two {q : CliRequest} {a s t t' : Bytes} {v : Verb} (ha : Heads a v)
    (hv : v = .setAffinityConfig ∨ v = .setEppCcd ∨ v = .setConfig ∨ v = .advancedSet)
    (htext : q.text = a ++ (s ++ chr ' ' :: t')) (hword : v.word = q.word) (hargs : q.args = [s, t])
    (hpre : t' <+: t) (hlen : (a ++ (s ++ chr ' ' :: t')).length ≤ 511)
    (hz : (0 : UInt8) ∉ s ++ chr ' ' :: t') (hnl : nl ∉ s ++ chr ' ' :: t') :
    q.spoken = true ↔ (chr '\r' ∉ s ∧ chr '\r' ∉ t) ∧ chr ' ' ∉ s ∧ t' = t := by
  have hspace : chr '\r' ≠ chr ' ' := by decide
  rw [spoken_iff_of_heads ha htext hword hlen hz hnl, hargs, arguments_eq_pair_iff hv,
    takeWhile_eq_iff]
  · simp only [List.mem_append, List.mem_cons, hspace, false_or, not_or, List.append_cancel_left_eq,
      List.cons.injEq, true_and]
    tauto
  · exact (List.prefix_append_right_inj s).mpr (List.cons_prefix_cons.mpr ⟨rfl, hpre⟩)

/-! ### Requests of one kind -/

section

variable {q : CliRequest} {s t t' : Bytes} {v : Verb} {n : ℕ}

/-- A payload that fits a buffer of the client fits the buffer of the daemon. -/
theorem length_payload_le (hsize : q.size = some n) (hn : n ≤ 512) (hfits : q.Fits) :
    q.payload.length ≤ 511 := by
  unfold CliRequest.Fits at hfits
  rw [hsize] at hfits
  omega

/-- A request with one argument. -/
theorem spoken_iff_understood_one (ha : Heads (q.word ++ [chr ' ']) v)
    (hone : ∀ rest, v.arguments rest = [rest]) (hword : v.word = q.word)
    (hknown : q.word ∈ daemonWords) (hargs : q.args = [s])
    (hplain : plainFormat q.fmt q.params.length = true) (hpay : q.payload = q.words)
    (hsize : q.size = some n) (hn : n ≤ 512) (hz : (0 : UInt8) ∉ s) (hfits : q.Fits)
    (hnl : nl ∉ q.payload) : q.spoken = true ↔ Understood q := by
  have hwords : q.payload = q.word ++ [chr ' '] ++ s := by
    rw [hpay, CliRequest.words, hargs]
    simp
  have hlen := length_payload_le hsize hn hfits
  rw [hwords] at hnl hlen
  rw [spoken_iff_one ha hone ((text_eq_payload hplain hfits).trans hwords) hword hargs hlen hz
    fun h => hnl (List.mem_append_right _ h)]
  unfold Understood
  simp [hknown, hargs, hpay]

/-- A request with two arguments, the second of which may be sent in part. -/
theorem spoken_iff_understood_two (ha : Heads (q.word ++ [chr ' ']) v)
    (hv : v = .setAffinityConfig ∨ v = .setEppCcd ∨ v = .setConfig ∨ v = .advancedSet)
    (hword : v.word = q.word) (hknown : q.word ∈ daemonWords) (hargs : q.args = [s, t])
    (hplain : plainFormat q.fmt q.params.length = true)
    (hpay : q.payload = q.word ++ [chr ' '] ++ (s ++ chr ' ' :: t')) (hpre : t' <+: t)
    (hsize : q.size = some n) (hn : n ≤ 512) (hz : (0 : UInt8) ∉ s ++ chr ' ' :: t')
    (hfits : q.Fits) (hnl : nl ∉ q.payload) : q.spoken = true ↔ Understood q := by
  have hlen := length_payload_le hsize hn hfits
  rw [hpay] at hnl hlen
  rw [spoken_iff_two ha hv ((text_eq_payload hplain hfits).trans hpay) hword hargs hpre hlen hz
    fun h => hnl (List.mem_append_right _ h)]
  have hwords : q.payload = q.words ↔ t' = t := by
    rw [hpay, CliRequest.words, hargs]
    simp
  unfold Understood
  simp [hknown, hargs, hwords]

/-- A word of no test is answered by the last branch. -/
theorem spoken_iff_understood_unknown {a : Bytes} (hdecides : Decides a)
    (hdispatch : dispatch a = none) (hclean : (0 : UInt8) ∉ a ∧ chr '\r' ∉ a ∧ nl ∉ a)
    (hunknown : q.word ∉ daemonWords) (hplain : plainFormat q.fmt q.params.length = true)
    (hpay : q.payload = a ++ s) (hlen : a.length ≤ 511) (hfits : q.Fits) :
    q.spoken = true ↔ Understood q := by
  obtain ⟨hz, hcr, hnl⟩ := hclean
  have hnone : dispatch (received q.text) = none := by
    rw [text_eq_payload hplain hfits, hpay, received_append hlen hz hcr hnl,
      dispatch_append hdecides, hdispatch]
  have hspoken : q.spoken = false := by
    unfold CliRequest.spoken
    rw [hnone, Option.any_none]
  rw [hspoken]
  exact iff_of_false Bool.false_ne_true fun h => hunknown h.1

end

/-! ### The handlers -/

theorem speaks_const {acts : List CliAction}
    (h : ∀ act ∈ acts, act.request.spoken = true ∧ Understood act.request) :
    Speaks fun _ => acts := by
  intro argv _ act hact _ _
  exact iff_of_true (h act hact).1 (h act hact).2

theorem heads_setConfig : Heads (lit "SET_CONFIG" ++ [chr ' ']) .setConfig :=
  ⟨by decide, by decide, by decide⟩

/-- A key as the handlers use them. -/
structure PlainKey (key : Bytes) : Prop where
  percent_notMem : chr '%' ∉ key
  dollar_notMem : chr '$' ∉ key
  zero_notMem : (0 : UInt8) ∉ key

/-- `SET_CONFIG` with a constant key. -/
theorem spoken_iff_understood_setConfig {key fmt t t' : Bytes} {n : ℕ} (hkey : PlainKey key)
    (hfmt : fmt = lit "SET_CONFIG" ++ [chr ' '] ++ (key ++ [chr ' ']) ++ lit "%s") (hpre : t' <+: t)
    (hn : n ≤ 512) (hz : (0 : UInt8) ∉ t')
    (hfits : (CliRequest.mk (lit "SET_CONFIG") [key, t] (some n) fmt [t']).Fits)
    (hnl : nl ∉ (CliRequest.mk (lit "SET_CONFIG") [key, t] (some n) fmt [t']).payload) :
    (CliRequest.mk (lit "SET_CONFIG") [key, t] (some n) fmt [t']).spoken = true ↔
      Understood (CliRequest.mk (lit "SET_CONFIG") [key, t] (some n) fmt [t']) := by
  have hnone {c : UInt8} (hword : c ∉ lit "SET_CONFIG" ++ [chr ' ']) (hkey : c ∉ key)
      (hspace : c ∉ [chr ' ']) : c ∉ lit "SET_CONFIG" ++ [chr ' '] ++ (key ++ [chr ' ']) := by
    simp only [List.mem_append, not_or] at hword ⊢
    exact ⟨hword, hkey, hspace⟩
  have hpercent : chr '%' ∉ lit "SET_CONFIG" ++ [chr ' '] ++ (key ++ [chr ' ']) :=
    hnone (by decide) hkey.percent_notMem (by decide)
  have hdollar : chr '$' ∉ lit "SET_CONFIG" ++ [chr ' '] ++ (key ++ [chr ' ']) :=
    hnone (by decide) hkey.dollar_notMem (by decide)
  have hs : lit "%s" = [chr '%', chr 's'] := by decide
  refine spoken_iff_understood_two heads_setConfig (Or.inr (Or.inr (Or.inl rfl)))
    (by decide : Verb.setConfig.word = lit "SET_CONFIG")
    (by decide : lit "SET_CONFIG" ∈ daemonWords) rfl ?_ ?_ hpre rfl hn ?_ hfits hnl
  · rw [hfmt, plainFormat_append hpercent hdollar, hs]
    rfl
  · show rendered fmt [t'] = _
    rw [hfmt, rendered_append hpercent, hs, rendered_s, List.append_assoc]
    simp [rendered]
  · have hspace : (0 : UInt8) ≠ chr ' ' := by decide
    simp only [List.mem_append, List.mem_cons, not_or]
    exact ⟨hkey.zero_notMem, hspace, hz⟩

theorem speaks_setConfigArg {key fmt : Bytes} (hkey : PlainKey key)
    (hfmt : fmt = lit "SET_CONFIG" ++ [chr ' '] ++ (key ++ [chr ' ']) ++ lit "%s") :
    Speaks (setConfigArg key fmt) := by
  intro argv hargv act hact hfits hnl
  unfold setConfigArg at hact
  cases hval : argv[2]? with
  | none => simp [hval] at hact
  | some val =>
    simp only [hval, List.mem_singleton] at hact
    subst hact
    exact spoken_iff_understood_setConfig hkey hfmt (List.prefix_refl val) (by omega)
      (hargv val (List.mem_of_getElem? hval)) hfits hnl

/-- An argument of a C program, or a part of one, has no NUL. -/
theorem zero_notMem_serverArgs {arg : Bytes} {argv : List Bytes}
    (hargv : ∀ a ∈ argv, (0 : UInt8) ∉ a) (harg : arg ∈ argv) :
    (0 : UInt8) ∉ (serverArgs arg argv).1 ∧ (0 : UInt8) ∉ (serverArgs arg argv).2 := by
  unfold serverArgs
  have hz := hargv arg harg
  cases hcut : strchr arg (chr ':') with
  | none =>
    refine ⟨hz, ?_⟩
    cases hport : argv[3]? with
    | none => exact List.not_mem_nil
    | some port => exact hargv port (List.mem_of_getElem? hport)
  | some p =>
    obtain ⟨ip, port⟩ := p
    obtain ⟨-, rfl⟩ := cut_eq_some.mp hcut
    simp only [List.mem_append, List.mem_cons, not_or] at hz
    exact ⟨hz.1, hz.2.2⟩

theorem speaks_cliConfigServer : Speaks cliConfigServer := by
  intro argv hargv act hact hfits hnl
  unfold cliConfigServer at hact
  cases harg : argv[2]? with
  | none => simp [harg] at hact
  | some arg =>
    obtain ⟨hip, hport⟩ := zero_notMem_serverArgs hargv (List.mem_of_getElem? harg)
    simp only [harg] at hact
    rcases List.mem_cons.mp hact with rfl | hact
    · exact spoken_iff_understood_setConfig
        ⟨by decide, by decide, by decide⟩ (by decide)
        (List.take_prefix _ _) (by omega) (fun h => hip (List.mem_of_mem_take h)) hfits hnl
    · split at hact
      · exact absurd hact List.not_mem_nil
      · obtain rfl := List.mem_singleton.mp hact
        exact spoken_iff_understood_setConfig
          ⟨by decide, by decide, by decide⟩ (by decide)
          (List.take_prefix _ _) (by omega) (fun h => hport (List.mem_of_mem_take h)) hfits hnl

/-- A request with one argument of the user. -/
theorem spoken_iff_understood_single {word fmt s : Bytes} {n : ℕ} {v : Verb}
    (ha : Heads (word ++ [chr ' ']) v) (hone : ∀ rest, v.arguments rest = [rest])
    (hword : v.word = word) (hknown : word ∈ daemonWords)
    (hplain : chr '%' ∉ word ++ [chr ' '] ∧ chr '$' ∉ word ++ [chr ' '])
    (hfmt : fmt = word ++ [chr ' '] ++ [chr '%', chr 's']) (hn : n ≤ 512) (hz : (0 : UInt8) ∉ s)
    (hfits : (CliRequest.mk word [s] (some n) fmt [s]).Fits)
    (hnl : nl ∉ (CliRequest.mk word [s] (some n) fmt [s]).payload) :
    (CliRequest.mk word [s] (some n) fmt [s]).spoken = true ↔
      Understood (CliRequest.mk word [s] (some n) fmt [s]) := by
  refine spoken_iff_understood_one ha hone hword hknown rfl ?_ ?_ rfl hn hz hfits hnl
  · show plainFormat fmt 1 = true
    rw [hfmt, plainFormat_append hplain.1 hplain.2]
    rfl
  · show rendered fmt [s] = word ++ [s].flatMap (chr ' ' :: ·)
    rw [hfmt, rendered_append hplain.1, rendered_s]
    simp [rendered]

/-- A handler that sends its argument after a word. -/
theorem speaks_sendArg {word fmt : Bytes} {v : Verb} (ha : Heads (word ++ [chr ' ']) v)
    (hone : ∀ rest, v.arguments rest = [rest]) (hword : v.word = word)
    (hknown : word ∈ daemonWords)
    (hplain : chr '%' ∉ word ++ [chr ' '] ∧ chr '$' ∉ word ++ [chr ' '])
    (hfmt : fmt = word ++ [chr ' '] ++ [chr '%', chr 's']) : Speaks (sendArg word fmt) := by
  intro argv hargv act hact hfits hnl
  unfold sendArg at hact
  cases hval : argv[2]? with
  | none => simp [hval] at hact
  | some val =>
    simp only [hval, List.mem_singleton] at hact
    subst hact
    exact spoken_iff_understood_single ha hone hword hknown hplain hfmt (by omega)
      (hargv val (List.mem_of_getElem? hval)) hfits hnl

/-- A handler of the game list. -/
theorem speaks_gameArg {word fmt : Bytes} (hdecides : Decides (word ++ [chr ' ']))
    (hdispatch : dispatch (word ++ [chr ' ']) = none)
    (hclean : (0 : UInt8) ∉ word ++ [chr ' '] ∧ chr '\r' ∉ word ++ [chr ' '] ∧
      nl ∉ word ++ [chr ' '])
    (hunknown : word ∉ daemonWords)
    (hplain : chr '%' ∉ word ++ [chr ' '] ∧ chr '$' ∉ word ++ [chr ' '])
    (hlen : (word ++ [chr ' ']).length ≤ 511)
    (hfmt : fmt = word ++ [chr ' '] ++ [chr '%', chr 's']) : Speaks (gameArg word fmt) := by
  intro argv _ act hact hfits _
  unfold gameArg at hact
  cases hval : argv[2]? with
  | none => simp [hval] at hact
  | some name =>
    simp only [hval, List.mem_singleton] at hact
    subst hact
    refine spoken_iff_understood_unknown (s := name) hdecides hdispatch hclean hunknown ?_ ?_ hlen
      hfits
    · show plainFormat fmt 1 = true
      rw [hfmt, plainFormat_append hplain.1 hplain.2]
      rfl
    · show rendered fmt [name] = _
      rw [hfmt, rendered_append hplain.1, rendered_s]
      simp [rendered]

/-- A request with two arguments of the user, for a branch that splits them. -/
theorem spoken_iff_understood_pair {word fmt s t : Bytes} {n : ℕ} {v : Verb}
    (ha : Heads (word ++ [chr ' ']) v)
    (hv : v = .setAffinityConfig ∨ v = .setEppCcd ∨ v = .setConfig ∨ v = .advancedSet)
    (hword : v.word = word) (hknown : word ∈ daemonWords)
    (hplain : chr '%' ∉ word ++ [chr ' '] ∧ chr '$' ∉ word ++ [chr ' '])
    (hfmt : fmt = word ++ [chr ' '] ++ [chr '%', chr 's', chr ' ', chr '%', chr 's']) (hn : n ≤ 512)
    (hs : (0 : UInt8) ∉ s) (ht : (0 : UInt8) ∉ t)
    (hfits : (CliRequest.mk word [s, t] (some n) fmt [s, t]).Fits)
    (hnl : nl ∉ (CliRequest.mk word [s, t] (some n) fmt [s, t]).payload) :
    (CliRequest.mk word [s, t] (some n) fmt [s, t]).spoken = true ↔
      Understood (CliRequest.mk word [s, t] (some n) fmt [s, t]) := by
  refine spoken_iff_understood_two ha hv hword hknown rfl
    (plainFormat_two hplain hfmt) (rendered_two hplain.1 hfmt s t) (List.prefix_refl t) rfl hn ?_
    hfits hnl
  have hspace : (0 : UInt8) ≠ chr ' ' := by decide
  simp only [List.mem_append, List.mem_cons, not_or]
  exact ⟨hs, hspace, ht⟩

/-- A request with two arguments of the user and a word of no test. -/
theorem spoken_iff_understood_unknown_pair {word fmt s t : Bytes} {n : ℕ}
    (hdecides : Decides (word ++ [chr ' '])) (hdispatch : dispatch (word ++ [chr ' ']) = none)
    (hclean : (0 : UInt8) ∉ word ++ [chr ' '] ∧ chr '\r' ∉ word ++ [chr ' '] ∧
      nl ∉ word ++ [chr ' '])
    (hunknown : word ∉ daemonWords)
    (hplain : chr '%' ∉ word ++ [chr ' '] ∧ chr '$' ∉ word ++ [chr ' '])
    (hlen : (word ++ [chr ' ']).length ≤ 511)
    (hfmt : fmt = word ++ [chr ' '] ++ [chr '%', chr 's', chr ' ', chr '%', chr 's'])
    (hfits : (CliRequest.mk word [s, t] (some n) fmt [s, t]).Fits) :
    (CliRequest.mk word [s, t] (some n) fmt [s, t]).spoken = true ↔
      Understood (CliRequest.mk word [s, t] (some n) fmt [s, t]) :=
  spoken_iff_understood_unknown (s := s ++ chr ' ' :: t) hdecides hdispatch hclean hunknown
    (plainFormat_two hplain hfmt) (rendered_two hplain.1 hfmt s t) hlen hfits

theorem speaks_cliCppcEpp : Speaks cliCppcEpp := by
  intro argv hargv act hact hfits hnl
  unfold cliCppcEpp at hact
  cases hccd : argv[2]? with
  | none => simp [hccd] at hact
  | some ccd =>
    cases hval : argv[3]? with
    | none => simp [hccd, hval] at hact
    | some val =>
      simp only [hccd, hval, List.mem_singleton] at hact
      subst hact
      exact spoken_iff_understood_pair (v := .setEppCcd)
        ⟨by decide, by decide, by decide⟩ (Or.inr (Or.inl rfl))
        (by decide) (by decide) (by decide) (by decide) (by omega)
        (hargv ccd (List.mem_of_getElem? hccd)) (hargv val (List.mem_of_getElem? hval)) hfits hnl

theorem speaks_cliCppcRaw : Speaks cliCppcRaw := by
  intro argv _ act hact hfits _
  unfold cliCppcRaw at hact
  cases hval : argv[2]? with
  | none => simp [hval] at hact
  | some val =>
    cases hdev : argv[3]? with
    | none => simp [hval, hdev] at hact
    | some dev =>
      simp only [hval, hdev, List.mem_singleton] at hact
      subst hact
      exact spoken_iff_understood_unknown_pair (by decide) (by decide)
        (by decide) (by decide) (by decide) (by decide)
        (by decide) hfits

theorem speaks_cliConfigProfile : Speaks cliConfigProfile := by
  intro argv _ act hact hfits _
  unfold cliConfigProfile at hact
  cases haction : argv[2]? with
  | none => simp [haction] at hact
  | some action =>
    cases hname : argv[3]? with
    | none => simp [haction, hname] at hact
    | some name =>
      simp only [haction, hname] at hact
      split at hact
      · obtain rfl := List.mem_singleton.mp hact
        exact spoken_iff_understood_unknown_pair (by decide) (by decide)
          (by decide) (by decide) (by decide) (by decide)
          (by decide) hfits
      · exact absurd hact List.not_mem_nil

theorem speaks_cliAdvancedConfig : Speaks cliAdvancedConfig := by
  intro argv hargv act hact hfits hnl
  unfold cliAdvancedConfig at hact
  cases hop : argv[2]? with
  | none => simp [hop] at hact
  | some op =>
    cases hkey : argv[3]? with
    | none => simp [hop, hkey] at hact
    | some key =>
      have hz := hargv key (List.mem_of_getElem? hkey)
      simp only [hop, hkey] at hact
      split at hact
      · -- `get`
        obtain rfl := List.mem_singleton.mp hact
        exact spoken_iff_understood_single (v := .advancedGet)
          ⟨by decide, by decide, by decide⟩ (fun _ => rfl)
          (by decide) (by decide) (by decide) (by decide) (by omega)
          hz hfits hnl
      · split at hact
        · -- `set`
          cases hval : argv[4]? with
          | none => simp [hval] at hact
          | some val =>
            simp only [hval, List.mem_singleton] at hact
            subst hact
            exact spoken_iff_understood_pair (v := .advancedSet)
              ⟨by decide, by decide, by decide⟩
              (Or.inr (Or.inr (Or.inr rfl))) (by decide) (by decide)
              (by decide) (by decide) (by omega) hz
              (hargv val (List.mem_of_getElem? hval)) hfits hnl
        · exact absurd hact List.not_mem_nil

theorem speaks_runGame : Speaks runGame := by
  intro argv _ act hact _ _
  have hboth : ∀ act ∈
      [CliAction.send (.literal (lit "SET_WRAPPER") [lit "1"] (lit "SET_WRAPPER 1")),
      .send (.literal (lit "SET_WRAPPER") [lit "0"] (lit "SET_WRAPPER 0"))],
      act.request.spoken = true ∧ Understood act.request := by
    decide
  unfold runGame at hact
  cases hfirst : argv[1]? with
  | none => simp [hfirst] at hact
  | some first =>
    simp only [hfirst] at hact
    split at hact
    · exact absurd hact List.not_mem_nil
    · exact iff_of_true (hboth act hact).1 (hboth act hact).2

/-- **Client and daemon.** Whatever a handler sends, within its buffer and on one line, runs the
branch for its word with the arguments that were meant, exactly if the request is understood. -/
theorem spoken_iff_understood {handler : List Bytes → List CliAction} {argv : List Bytes}
    {act : CliAction} (hhandler : handler ∈ cliHandlers) (hargv : ∀ a ∈ argv, (0 : UInt8) ∉ a)
    (hact : act ∈ handler argv) (hfits : act.request.Fits) (hnl : nl ∉ act.request.payload) :
    act.request.spoken = true ↔ Understood act.request := by
  have hsetConfig (key fmt : Bytes) (hkey : chr '%' ∉ key ∧ chr '$' ∉ key ∧ (0 : UInt8) ∉ key)
      (hfmt : fmt = lit "SET_CONFIG" ++ [chr ' '] ++ (key ++ [chr ' ']) ++ lit "%s") :
      Speaks (setConfigArg key fmt) :=
    speaks_setConfigArg ⟨hkey.1, hkey.2.1, hkey.2.2⟩ hfmt
  have hall : ∀ handler ∈ cliHandlers, Speaks handler := by
    simp only [cliHandlers, List.forall_mem_cons]
    refine ⟨hsetConfig _ _ (by decide) (by decide),
      hsetConfig _ _ (by decide) (by decide),
      hsetConfig _ _ (by decide) (by decide),
      hsetConfig _ _ (by decide) (by decide),
      speaks_const (by decide), speaks_const (by decide), speaks_cliConfigServer,
      ?_, ?_, speaks_const (by decide), speaks_cliConfigProfile,
      speaks_const (by decide), speaks_const (by decide), speaks_cliAdvancedConfig,
      speaks_const (by decide), speaks_const (by decide),
      speaks_const (by decide), speaks_const (by decide), speaks_cliCppcEpp,
      speaks_cliCppcRaw, ?_, ?_, ?_, ?_,
      speaks_const (by decide), speaks_const (by decide),
      speaks_const (by decide), speaks_const (by decide),
      speaks_const (by decide), speaks_const (by decide),
      speaks_const (by decide), speaks_const (by decide),
      speaks_const (by decide), speaks_const (by decide),
      speaks_const (by decide), speaks_runGame, speaks_const (by decide),
      fun _ h => absurd h List.not_mem_nil⟩
    -- the game list
    · exact speaks_gameArg (by decide) (by decide) (by decide)
        (by decide) (by decide) (by decide) (by decide)
    · exact speaks_gameArg (by decide) (by decide) (by decide)
        (by decide) (by decide) (by decide) (by decide)
    -- the arguments for the hardware
    · exact speaks_sendArg (v := .setPstate)
        ⟨by decide, by decide, by decide⟩ (fun _ => rfl)
        (by decide) (by decide) (by decide) (by decide)
    · exact speaks_sendArg (v := .setCppc)
        ⟨by decide, by decide, by decide⟩ (fun _ => rfl)
        (by decide) (by decide) (by decide) (by decide)
    · exact speaks_sendArg (v := .setGovernor)
        ⟨by decide, by decide, by decide⟩ (fun _ => rfl)
        (by decide) (by decide) (by decide) (by decide)
    · exact speaks_sendArg (v := .setPrefcore)
        ⟨by decide, by decide, by decide⟩ (fun _ => rfl)
        (by decide) (by decide) (by decide) (by decide)
  exact hall handler hhandler argv hargv act hact hfits hnl

/-- The rule for a request with one argument. -/
theorem spoken_iff_understood_governor :
    ((CliRequest.mk (lit "SET_GOVERNOR") [lit "powersave"] (some 128) (lit "SET_GOVERNOR %s")
        [lit "powersave"]).spoken = true) ↔
      Understood (CliRequest.mk (lit "SET_GOVERNOR") [lit "powersave"] (some 128)
        (lit "SET_GOVERNOR %s") [lit "powersave"]) :=
  spoken_iff_understood (show cliCppcGovernor ∈ cliHandlers by simp [cliHandlers])
    (show ∀ a ∈ [lit "x3d-toggle", lit "governor", lit "powersave"], (0 : UInt8) ∉ a by
      decide)
    (show CliAction.send _ ∈ _ by simp [cliCppcGovernor, sendArg])
    (show _ < 128 by decide) (by decide)

/-- The daemon does not know the command that adds a game. -/
theorem game_add_unknown :
    ¬∀ (handler : List Bytes → List CliAction) (argv : List Bytes) (act : CliAction),
      handler ∈ cliHandlers → (∀ a ∈ argv, (0 : UInt8) ∉ a) → act ∈ handler argv →
      act.request.Fits → nl ∉ act.request.payload → act.request.spoken = true := by
  intro h
  have hspoken := h cliConfigAdd [lit "x3d-toggle", lit "add", lit "game"]
    (.configWrite ⟨lit "GAME_ADD", [lit "game"], some 256, lit "GAME_ADD %s", [lit "game"]⟩ none)
    (by simp [cliHandlers]) (by decide) (by simp [cliConfigAdd, gameArg])
    (show _ < 256 by decide) (by decide)
  exact absurd hspoken (by decide)

end X3D
