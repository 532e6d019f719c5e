import X3DToggle.Decimal
import X3DToggle.Durable

/-!
# Reading a setting back

`GET_CONFIG` renders the field of a key. After `SET_CONFIG` it returns the value given exactly
as `readBack_iff` says, key by key:

* a key `SET_CONFIG` does not store keeps its old value in memory, whatever was written to the
  file;
* an `int` comes back if it is one;
* a string comes back if the request was not cut at a line break in it;
* `LOAD_THRESHOLD` is rendered through a cast to `int`, so only whole numbers come back;
* `REFRESH_INTERVAL` is rendered with `%.2f`, which the formatter does not know, so the reply is
  never a number.
-/

namespace X3D

/-! ### The two requests -/

/-- What a request of a key and a value is cut to. -/
def arrived (k v : Bytes) : Bytes :=
  cutAny (cstr (v.take (511 - (k.length + 12)))) [chr '\r', nl]

/-- The keys of `config_get` are short and travel unchanged. -/
theorem configGetTable_keys : ∀ e ∈ configGetTable,
    e.1.length ≤ 30 ∧ (0 : UInt8) ∉ e.1 ∧ chr '\r' ∉ e.1 ∧ nl ∉ e.1 ∧ chr ' ' ∉ e.1 := by
  decide

section

variable {k v : Bytes} {g : Getter}

theorem getKey_spec (hk : configGetTable.lookup k = some g) :
    k.length ≤ 30 ∧ (0 : UInt8) ∉ k ∧ chr '\r' ∉ k ∧ nl ∉ k ∧ chr ' ' ∉ k :=
  configGetTable_keys _ (lookup_mem hk)

/-- A request with a short key on one line arrives, up to the end of its value. -/
theorem received_key (hlen : k.length ≤ 499) (hz : (0 : UInt8) ∉ k) (hcr : chr '\r' ∉ k)
    (hnl : nl ∉ k) (v : Bytes) :
    received (lit "SET_CONFIG " ++ (k ++ chr ' ' :: v)) =
      lit "SET_CONFIG " ++ (k ++ chr ' ' :: arrived k v) := by
  have hverb : (lit "SET_CONFIG ").length = 11 ∧ (0 : UInt8) ∉ lit "SET_CONFIG " ∧
      chr '\r' ∉ lit "SET_CONFIG " ∧ nl ∉ lit "SET_CONFIG " := by
    decide
  have hbefore (c : UInt8) (hc : c ≠ chr ' ') (hck : c ∉ k) (hcv : c ∉ lit "SET_CONFIG ") :
      c ∉ lit "SET_CONFIG " ++ (k ++ [chr ' ']) := by
    simp only [List.mem_append, List.mem_singleton]
    tauto
  have hsum : (lit "SET_CONFIG " ++ (k ++ [chr ' '])).length = k.length + 12 := by
    rw [List.length_append, List.length_append, hverb.1, List.length_singleton]
    omega
  have happend := received_append (a := lit "SET_CONFIG " ++ (k ++ [chr ' ']))
    (by rw [hsum]; omega) (hbefore 0 (by decide) hz hverb.2.1)
    (hbefore (chr '\r') (by decide) hcr hverb.2.2.1) (hbefore nl (by decide) hnl hverb.2.2.2) v
  rw [hsum] at happend
  simpa [arrived] using happend

theorem received_setConfig (hk : configGetTable.lookup k = some g) (v : Bytes) :
    received (lit "SET_CONFIG " ++ (k ++ chr ' ' :: v)) =
      lit "SET_CONFIG " ++ (k ++ chr ' ' :: arrived k v) := by
  obtain ⟨hlen, hz, hcr, hnl, -⟩ := getKey_spec hk
  exact received_key (by omega) hz hcr hnl v

/-- What `GET_CONFIG` answers. -/
theorem socketHandle_getConfig (hk : configGetTable.lookup k = some g) (B : Build)
    (env : RequestEnv) (d : Daemon) :
    (socketHandle B env (lit "GET_CONFIG " ++ k) d).1 = some (configGet d.cfg k) := by
  obtain ⟨hlen, hz, hcr, hnl, -⟩ := getKey_spec hk
  have hverb : (lit "GET_CONFIG ").length = 11 ∧ (0 : UInt8) ∉ lit "GET_CONFIG " ∧
      chr '\r' ∉ lit "GET_CONFIG " ∧ nl ∉ lit "GET_CONFIG " := by
    decide
  have happend := received_append (a := lit "GET_CONFIG " ++ k)
    (by rw [List.length_append, hverb.1]; omega)
    (by rw [List.mem_append]; exact not_or.mpr ⟨hverb.2.1, hz⟩)
    (by rw [List.mem_append]; exact not_or.mpr ⟨hverb.2.2.1, hcr⟩)
    (by rw [List.mem_append]; exact not_or.mpr ⟨hverb.2.2.2, hnl⟩) []
  rw [List.append_nil, List.take_nil] at happend
  have hwhole : received (lit "GET_CONFIG " ++ k) = lit "GET_CONFIG " ++ k :=
    happend.trans (List.append_nil _)
  rw [socketHandle_of_verb .getConfig hwhole (by decide) (by decide)
    (by decide)]
  rfl

/-- A short value on one line arrives whole. -/
theorem arrived_eq (hk : configGetTable.lookup k = some g) (hlen : v.length ≤ 400)
    (hz : (0 : UInt8) ∉ v) : arrived k v = cutAny v [chr '\r', nl] := by
  have := (getKey_spec hk).1
  unfold arrived
  rw [List.take_of_length_le (by omega), cstr_of_notMem hz]

theorem cutAny_eq_self_iff (v : Bytes) :
    cutAny v [chr '\r', nl] = v ↔ chr '\r' ∉ v ∧ nl ∉ v := by
  unfold cutAny
  rw [List.takeWhile_eq_self_iff]
  simp only [decide_eq_true_iff, List.mem_cons, List.not_mem_nil, or_false, not_or]
  constructor
  · exact fun h => ⟨fun hc => (h _ hc).1 rfl, fun hc => (h _ hc).2 rfl⟩
  · rintro ⟨hcr, hnl⟩ c hc
    exact ⟨fun h => hcr (h ▸ hc), fun h => hnl (h ▸ hc)⟩

end

/-! ### Setters and getters -/

/-- The setter of a key fits its getter: the same field, and the whole of a string. -/
def Getter.Fits : Getter → Option Setter → Prop
  | .int f, some (.atoi f') => f' = f
  | .str f, some (.copy f' n _) => f' = f ∧ n = f.size
  | .cast f, some (.atof f') => f' = f
  | .dot2f f, some (.atof f') => f' = f
  | .int _, none | .str _, none => True
  | _, _ => False

instance : (g : Getter) → (st : Option Setter) → Decidable (g.Fits st)
  | .int _, some (.atoi _) => inferInstanceAs (Decidable (_ = _))
  | .str _, some (.copy _ _ _) => inferInstanceAs (Decidable (_ ∧ _))
  | .cast _, some (.atof _) => inferInstanceAs (Decidable (_ = _))
  | .dot2f _, some (.atof _) => inferInstanceAs (Decidable (_ = _))
  | .int _, none | .str _, none => isTrue trivial
  | .int _, some (.atof _) | .int _, some (.copy _ _ _) | .int _, some (.flag _) => isFalse id
  | .str _, some (.atof _) | .str _, some (.atoi _) | .str _, some (.flag _) => isFalse id
  | .cast _, none | .cast _, some (.atoi _) | .cast _, some (.copy _ _ _)
  | .cast _, some (.flag _) => isFalse id
  | .dot2f _, none | .dot2f _, some (.atoi _) | .dot2f _, some (.copy _ _ _)
  | .dot2f _, some (.flag _) => isFalse id

/-- **Where the tables agree.** Every key is stored the way it is rendered, or not at all; the
two numbers are stored. -/
theorem configGetTable_fits : ∀ e ∈ configGetTable, e.2.Fits (setConfigTable.lookup e.1) := by
  decide

/-- A value in the form a key's values are given in. -/
def Getter.Canonical : Getter → Bytes → Prop
  | .int _, v => ∃ z : ℤ, v = decimal z
  | .cast _, v | .dot2f _, v => IsDecimal v
  | .str f, v => v.length < f.size ∧ (0 : UInt8) ∉ v

/-- A reply agrees with a value: the same text, or the same number. -/
def Getter.Agrees : Getter → Bytes → Bytes → Prop
  | .int _, reply, v | .str _, reply, v => reply = v
  | .cast _, reply, v | .dot2f _, reply, v => decimalValue reply = decimalValue v

/-- **The condition for a value to come back.** -/
def Getter.ReadsBack (cfg : DaemonConfig) (k : Bytes) : Getter → Bytes → Prop
  | .int f, v =>
    if (setConfigTable.lookup k).isSome then ∃ z, IsInt32 z ∧ v = decimal z
    else v = decimal (cfg.int f)
  | .str f, v =>
    if (setConfigTable.lookup k).isSome then chr '\r' ∉ v ∧ nl ∉ v else v = (cfg.str f).val
  | .cast _, v => ∃ z : ℤ, IsInt32 z ∧ decimalValue v = some (z : ℚ)
  | .dot2f _, _ => False

/-! ### What a field renders to -/

/-- `%d` renders an `int` as its canonical numeral. -/
theorem printfSn_int {z : ℤ} (h : IsInt32 z) : printfSn 128 (lit "%d") [.int z] = decimal z := by
  have hlen := length_decimal_le h
  rw [printfSn_d, xuiItoa_eq_decimal (natAbs_lt_of_isInt32 h), List.take_of_length_le (by omega)]

/-- What a field renders to. -/
def Getter.render (cfg : DaemonConfig) : Getter → Bytes
  | .int f => decimal (cfg.int f)
  | .cast f => decimal ((cfg.dbl f).toInt 32)
  | .str f => (cfg.str f).val
  | .dot2f _ => lit "f"

theorem configGet_eq {k : Bytes} {g : Getter} (hk : configGetTable.lookup k = some g)
    {cfg : DaemonConfig} (hcfg : cfg.InRange) : configGet cfg k = g.render cfg := by
  unfold configGet
  rw [hk]
  cases g with
  | int f => exact printfSn_int (hcfg f)
  | cast f => exact printfSn_int (Double.toInt_mem _)
  | str f => rfl
  | dot2f f => exact printfSn_dot2f (by decide) _

/-! ### The round trip -/

section

variable {B : Build} {env : RequestEnv} {d : Daemon} {k v : Bytes} {g : Getter}

/-- The property: after an accepted `SET_CONFIG` and any polls, `GET_CONFIG` agrees. -/
def ComesBack (B : Build) (env : RequestEnv) (d : Daemon) (k v : Bytes) (g : Getter) : Prop :=
  ∀ d', socketHandle B env (lit "SET_CONFIG " ++ (k ++ chr ' ' :: v)) d = (some ok, d') →
    ∀ (envs : List PollEnv) (env' : RequestEnv),
      ∃ reply, (socketHandle B env' (lit "GET_CONFIG " ++ k) (d'.polls envs)).1 = some reply ∧
        g.Agrees reply v

/-- The configuration after the request. -/
def cfgAfter (d : Daemon) (k v : Bytes) : DaemonConfig :=
  (setConfigTable.lookup k).elim d.cfg fun st => d.cfg.store (st.store (arrived k v))

/-- The property is about what the new configuration renders to. -/
theorem comesBack_iff (hk : configGetTable.lookup k = some g) (hd : d.cfg.InRange) :
    ComesBack B env d k v g ↔ g.Agrees (g.render (cfgAfter d k v)) v := by
  have hspace := (getKey_spec hk).2.2.2.2
  obtain ⟨d', hd', -, hcfg⟩ :=
    socketHandle_setConfig hspace (received_setConfig hk v) B env d
  have hrange : d'.cfg.InRange := by
    rw [hcfg]
    cases setConfigTable.lookup k with
    | none => exact hd
    | some st => exact hd.store (st.inRange_store _)
  -- polls change no setting, so every reply renders the same configuration
  have hreply (envs : List PollEnv) (env' : RequestEnv) :
      (socketHandle B env' (lit "GET_CONFIG " ++ k) (d'.polls envs)).1 =
        some (g.render (cfgAfter d k v)) := by
    rw [socketHandle_getConfig hk, (Daemon.sameSettings_polls envs).cfg, configGet_eq hk hrange,
      hcfg]
    rfl
  unfold ComesBack
  rw [hd']
  constructor
  · intro h
    obtain ⟨reply, hr, hagrees⟩ := h d' rfl [] env
    rw [hreply] at hr
    rwa [Option.some.inj hr]
  · rintro h d'' hd'' envs env'
    obtain ⟨-, rfl⟩ := Prod.mk.inj hd''
    exact ⟨_, hreply envs env', h⟩

/-- A live `int` comes back if it is one. -/
theorem decimal_atoi_arrived (hk : configGetTable.lookup k = some g) (z : ℤ) :
    decimal (atoi (arrived k (decimal z))) = decimal z ↔ IsInt32 z := by
  constructor
  · intro h
    rw [← decimal_injective h]
    exact isInt32_atoi _
  · intro hz
    obtain ⟨ds, -, hds⟩ := exists_digitsText z.natAbs
    obtain ⟨h0, hcr, hnl⟩ := notMem_numeral (z < 0) ds []
    rw [← decimal_eq_numeral hds] at h0 hcr hnl
    have hlen := length_decimal_le hz
    rw [arrived_eq hk (by omega) h0, (cutAny_eq_self_iff _).mpr ⟨hcr, hnl⟩, atoi_decimal hz]

/-- A live string comes back if it is one line. -/
theorem take_arrived (hk : configGetTable.lookup k = some g) {n : ℕ} (hn : n ≤ 128)
    (hlen : v.length < n) (hz : (0 : UInt8) ∉ v) :
    (arrived k v).take (n - 1) = v ↔ chr '\r' ∉ v ∧ nl ∉ v := by
  have hle : (cutAny v [chr '\r', nl]).length ≤ v.length := (List.takeWhile_sublist _).length_le
  rw [arrived_eq hk (by omega) hz, List.take_of_length_le (by omega), cutAny_eq_self_iff]

/-- A live number rendered through a cast comes back if it is a whole number in range. -/
theorem decimal_toInt_arrived (hk : configGetTable.lookup k = some g) (hv : IsDecimal v) :
    decimalValue (decimal ((atof (arrived k v)).toInt 32)) = decimalValue v ↔
      ∃ z : ℤ, IsInt32 z ∧ decimalValue v = some (z : ℚ) := by
  obtain ⟨neg, ip, fp, rfl, hip, hlead, hfp⟩ := hv
  rw [decimalValue_decimal]
  constructor
  · exact fun h => ⟨(atof _).toInt 32, Double.toInt_mem _, h.symm⟩
  · rintro ⟨z, hz, hval⟩
    rw [decimalValue_numeral neg fp hip] at hval ⊢
    have hnum : numeralValue neg ip fp = z := Option.some.inj hval
    -- such a number is short, so the request carries all of it
    have hshort := length_le_of_isInt32 hip hlead hz hnum
    have hlen := length_numeral_le neg ip fp
    obtain ⟨h0, hcr, hnl⟩ := notMem_numeral neg ip fp
    rw [arrived_eq hk (by omega) h0, (cutAny_eq_self_iff _).mpr ⟨hcr, hnl⟩,
      toInt_atof_numeral hip hfp hz hnum, hnum]

theorem StrField.size_le (f : StrField) : f.size ≤ 128 := by
  cases f <;> decide

/-- A key that no request stores keeps its value. -/
theorem agrees_iff_of_unset (hst : setConfigTable.lookup k = none)
    (hfits : g.Fits (setConfigTable.lookup k)) (d : Daemon) (v : Bytes) :
    g.Agrees (g.render (cfgAfter d k v)) v ↔ g.ReadsBack d.cfg k v := by
  rw [hst] at hfits
  cases g with
  | int f | str f =>
    simp only [Getter.Agrees, Getter.render, Getter.ReadsBack, cfgAfter, hst, Option.elim_none,
      Option.isSome_none, Bool.false_eq_true, if_false]
    exact eq_comm
  | cast f => exact absurd hfits id
  | dot2f f => exact absurd hfits id

theorem agrees_int_iff {f : IntField} (hk : configGetTable.lookup k = some (.int f))
    (hst : setConfigTable.lookup k = some (.atoi f)) (d : Daemon) (z : ℤ) :
    (Getter.int f).Agrees ((Getter.int f).render (cfgAfter d k (decimal z))) (decimal z) ↔
      (Getter.int f).ReadsBack d.cfg k (decimal z) := by
  have hcfg : (d.cfg.store ((Setter.atoi f).store (arrived k (decimal z)))).int f =
      atoi (arrived k (decimal z)) := by
    simp [Setter.store, DaemonConfig.store]
  simp only [Getter.Agrees, Getter.render, Getter.ReadsBack, cfgAfter, hst, Option.elim_some,
    Option.isSome_some, if_true, hcfg, decimal_atoi_arrived hk]
  constructor
  · exact fun hz => ⟨z, hz, rfl⟩
  · rintro ⟨z', hz', heq⟩
    rwa [decimal_injective heq]

theorem agrees_str_iff {f : StrField} {h : 0 < f.size ∧ f.size ≤ f.size}
    (hk : configGetTable.lookup k = some (.str f))
    (hst : setConfigTable.lookup k = some (.copy f f.size h)) (d : Daemon)
    (hlen : v.length < f.size) (hz : (0 : UInt8) ∉ v) :
    (Getter.str f).Agrees ((Getter.str f).render (cfgAfter d k v)) v ↔
      (Getter.str f).ReadsBack d.cfg k v := by
  have hcfg : ((d.cfg.store ((Setter.copy f f.size h).store (arrived k v))).str f).val =
      (arrived k v).take (f.size - 1) := by
    simp [Setter.store, DaemonConfig.store]
  simp only [Getter.Agrees, Getter.render, Getter.ReadsBack, cfgAfter, hst, Option.elim_some,
    Option.isSome_some, if_true, hcfg]
  exact take_arrived hk f.size_le hlen hz

theorem agrees_cast_iff {f : DblField} (hk : configGetTable.lookup k = some (.cast f))
    (hst : setConfigTable.lookup k = some (.atof f)) (d : Daemon) (hv : IsDecimal v) :
    (Getter.cast f).Agrees ((Getter.cast f).render (cfgAfter d k v)) v ↔
      (Getter.cast f).ReadsBack d.cfg k v := by
  have hcfg : (d.cfg.store ((Setter.atof f).store (arrived k v))).dbl f =
      atof (arrived k v) := by
    simp [Setter.store, DaemonConfig.store]
  simp only [Getter.Agrees, Getter.render, Getter.ReadsBack, cfgAfter, hst, Option.elim_some, hcfg]
  exact decimal_toInt_arrived hk hv

/-- `%.2f` renders to no number. -/
theorem not_agrees_dot2f (f : DblField) (cfg : DaemonConfig) (hv : IsDecimal v) :
    ¬(Getter.dot2f f).Agrees ((Getter.dot2f f).render cfg) v := by
  obtain ⟨neg, ip, fp, rfl, hip, -, -⟩ := hv
  have hf : decimalValue (lit "f") = none := by decide
  simp only [Getter.Agrees, Getter.render, hf, decimalValue_numeral neg fp hip, reduceCtorEq,
    not_false_iff]

/-- **When a setting comes back.** In every reachable state, for every key of `config_get` and
every value in the key's form. -/
theorem readBack_iff {s : Running} (hB : B.InRange) (hs : (daemonMachine B).Reachable s)
    (hk : configGetTable.lookup k = some g) (hv : g.Canonical v) :
    ComesBack B env s.daemon k v g ↔ g.ReadsBack s.daemon.cfg k v := by
  have hfits := configGetTable_fits _ (lookup_mem hk)
  change g.Fits (setConfigTable.lookup k) at hfits
  rw [comesBack_iff hk (inRange_of_reachable hB hs)]
  cases hst : setConfigTable.lookup k with
  | none => exact agrees_iff_of_unset hst hfits _ v
  | some st =>
    rw [hst] at hfits
    -- the tables fit, so only the setter of the getter's own kind is left
    cases g with
    | int f =>
      obtain ⟨z, rfl⟩ := hv
      cases st with
      | atoi f' =>
        obtain rfl : f' = f := hfits
        exact agrees_int_iff hk hst _ z
      | atof | copy | flag => exact absurd hfits id
    | str f =>
      cases st with
      | copy f' n h =>
        obtain ⟨rfl, rfl⟩ : f' = f ∧ n = f.size := hfits
        exact agrees_str_iff hk hst _ hv.1 hv.2
      | atoi | atof | flag => exact absurd hfits id
    | cast f =>
      cases st with
      | atof f' =>
        obtain rfl : f' = f := hfits
        exact agrees_cast_iff hk hst _ hv
      | atoi | copy | flag => exact absurd hfits id
    | dot2f f => exact iff_of_false (not_agrees_dot2f f _ hv) id

end

/-! ### A setting that does not come back -/

theorem lookup_refreshInterval :
    configGetTable.lookup (lit "REFRESH_INTERVAL") = some (.dot2f .refreshInterval) := by
  rfl

/-- `1.25`. -/
theorem isDecimal_refresh : IsDecimal (lit "1.25") :=
  ⟨false, [1], [2, 5], by decide, by decide, by decide, by decide⟩

/-- The refresh interval comes back as `f`. -/
theorem refresh_interval_lost :
    ¬∀ (B : Build) (s : Running) (env : RequestEnv) (k v : Bytes) (g : Getter), B.InRange →
      (daemonMachine B).Reachable s → configGetTable.lookup k = some g → g.Canonical v →
      ComesBack B env s.daemon k v g := by
  intro h
  have hback := h shippedBuild configuredState .allOk _ (lit "1.25") _ (by decide)
    (Machine.Reachable.of_init ⟨_, rfl⟩) lookup_refreshInterval isDecimal_refresh
  have hset : (socketHandle shippedBuild .allOk
      (lit "SET_CONFIG " ++ (lit "REFRESH_INTERVAL" ++ chr ' ' :: lit "1.25"))
      configuredState.daemon).1 = some ok := by
    decide
  obtain ⟨reply, hreply, hagrees⟩ := hback _ (Prod.ext hset rfl) [] .allOk
  -- what comes back is the letter of the conversion
  have hf : reply = lit "f" := by
    rw [socketHandle_getConfig lookup_refreshInterval] at hreply
    rw [← Option.some.inj hreply, configGet, lookup_refreshInterval]
    exact printfSn_dot2f (by decide) _
  rw [hf] at hagrees
  have hne : decimalValue (lit "f") ≠ decimalValue (lit "1.25") := by decide
  exact hne hagrees

/-- The rule for that request. -/
theorem readBack_iff_refreshInterval :
    ComesBack shippedBuild .allOk configuredState.daemon (lit "REFRESH_INTERVAL") (lit "1.25")
        (.dot2f .refreshInterval) ↔
      (Getter.dot2f .refreshInterval).ReadsBack configuredState.daemon.cfg (lit "REFRESH_INTERVAL")
        (lit "1.25") :=
  readBack_iff (by decide) (Machine.Reachable.of_init ⟨_, rfl⟩) lookup_refreshInterval
    isDecimal_refresh

end X3D
