import X3DToggle.Sessions
import X3DToggle.Topology

/-!
# Parking

`SET_PARK` takes cores off line by their hotplug nodes: the cores of the second CCD one by one, or
a single one. `SET_UNPARK` brings a single core back by the same node. For `ccd1` and `all` it
writes `dual` to the mode node instead, which is no hotplug node.

So a parked core comes back by its number, and the cores of the second CCD do not come back at all
(`restored_iff`): an `OK` to both requests leaves them off line unless there are none.
-/

namespace X3D

/-- The outcomes of calls on `/sys/devices/system/cpu/cpuN/online`. -/
structure CoreEnv where
  -- `open(path, O_WRONLY)` succeeds
  opens : ℤ → Bool
  -- the kernel takes `1` or `0`
  accepts : ℤ → Bool → Bool

/-- `cli_set_core`: the result, and which cores are on line after it. -/
def cliSetCore (ce : CoreEnv) (core : ℤ) (on : Bool) (cores : ℤ → Bool) : ℤ × (ℤ → Bool) :=
  if !ce.opens core then (errHw, cores)
  else if ce.accepts core on then (errSuccess, Function.update cores core on)
  else (errIo, cores)

/-- What a call of the handler does to the cores. -/
def HwCall.onCores (ce : CoreEnv) (cores : ℤ → Bool) : HwCall → ℤ → Bool
  | setCore core on => (cliSetCore ce core on cores).2
  | _ => cores

/-- The environment in which `cli_set_core` does its writes. -/
def RequestEnv.withCores (env : RequestEnv) (ce : CoreEnv) (cores : ℤ → Bool) : RequestEnv :=
  { env with
    hw := fun c => match c with
      | .setCore core on => (cliSetCore ce core on cores).1
      | c => env.hw c }

/-- The daemon and the cores of its machine. -/
structure CoreHost where
  daemon : Daemon
  cores : ℤ → Bool

/-- `socket_handle` on a machine with cores. -/
def CoreHost.socketHandle (B : Build) (env : RequestEnv) (ce : CoreEnv) (r : Bytes)
    (h : CoreHost) : Option Bytes × CoreHost :=
  let (reply, d) := X3D.socketHandle B (env.withCores ce h.cores) r h.daemon
  -- the calls of this request come after those recorded before
  (reply, ⟨d, (d.calls.drop h.daemon.calls.length).foldl (HwCall.onCores ce) h.cores⟩)

/-- The arguments of `SET_PARK` and of the `SET_UNPARK` that is to undo it. -/
def ParkPair (a b : Bytes) : Prop :=
  (a = lit "ccd1" ∧ (b = lit "ccd1" ∨ b = lit "all")) ∨
    ∃ n, Daemon.intArg a = .value n ∧ Daemon.intArg b = .value n

/-! ### The calls of a request -/

section

variable {B : Build} {env : RequestEnv} {ce : CoreEnv} {d : Daemon} {cores : ℤ → Bool}

/-- A call that succeeds has done its work. -/
theorem cliSetCore_ok {core : ℤ} {on : Bool} (h : (cliSetCore ce core on cores).1 = errSuccess) :
    (cliSetCore ce core on cores).2 = Function.update cores core on := by
  unfold cliSetCore at h ⊢
  by_cases hopen : (!ce.opens core) = true
  · rw [if_pos hopen] at h
    exact absurd (show errHw = errSuccess from h) (by decide)
  · rw [if_neg hopen] at h ⊢
    by_cases haccept : ce.accepts core on = true
    · rw [if_pos haccept]
    · rw [if_neg haccept] at h
      exact absurd (show errIo = errSuccess from h) (by decide)

/-- Its result does not depend on the other cores, and is never the one the loop passes over. -/
theorem cliSetCore_fst (ce : CoreEnv) (core : ℤ) (on : Bool) (cores cores' : ℤ → Bool) :
    (cliSetCore ce core on cores).1 = (cliSetCore ce core on cores').1 ∧
      (cliSetCore ce core on cores).1 ≠ errLost := by
  unfold cliSetCore
  by_cases hopen : (!ce.opens core) = true
  · rw [if_pos hopen, if_pos hopen]
    exact ⟨rfl, (by decide : errHw ≠ errLost)⟩
  · rw [if_neg hopen, if_neg hopen]
    by_cases haccept : ce.accepts core on = true
    · rw [if_pos haccept, if_pos haccept]
      exact ⟨rfl, (by decide : errSuccess ≠ errLost)⟩
    · rw [if_neg haccept, if_neg haccept]
      exact ⟨rfl, (by decide : errIo ≠ errLost)⟩

/-- The loop keeps an error it has met. -/
theorem parkCores_ok {is : List ℕ} {ret : ℤ}
    (h : (Daemon.parkCores env is ret d).1 = errSuccess) :
    ret = errSuccess ∧ ∀ i ∈ is, env.hw (.setCore i false) = errSuccess ∨
      env.hw (.setCore i false) = errLost := by
  induction is generalizing ret d with
  | nil => exact ⟨h, fun i hi => absurd hi List.not_mem_nil⟩
  | cons i is ih =>
    obtain ⟨hret, hrest⟩ := ih h
    change (if env.hw (.setCore i false) ≠ errSuccess ∧ env.hw (.setCore i false) ≠ errLost then
      env.hw (.setCore i false) else ret) = errSuccess at hret
    by_cases hfail : env.hw (.setCore i false) ≠ errSuccess ∧ env.hw (.setCore i false) ≠ errLost
    · rw [if_pos hfail] at hret
      exact absurd hret hfail.1
    · rw [if_neg hfail] at hret
      refine ⟨hret, List.forall_mem_cons.mpr ⟨?_, hrest⟩⟩
      by_contra hno
      exact hfail (not_or.mp hno)

/-- Parking a list of cores takes each of them off line. -/
theorem foldl_onCores (is : List ℕ)
    (hok : ∀ i ∈ is, ∀ cores, (cliSetCore ce i false cores).1 = errSuccess) (cores : ℤ → Bool)
    (c : ℤ) :
    (is.map fun i : ℕ => HwCall.setCore i false).foldl (HwCall.onCores ce) cores c =
      if ∃ i ∈ is, (i : ℤ) = c then false else cores c := by
  induction is generalizing cores with
  | nil => simp
  | cons i is ih =>
    have hone : HwCall.onCores ce cores (.setCore i false) = Function.update cores (i : ℤ) false :=
      cliSetCore_ok (hok i List.mem_cons_self cores)
    rw [List.map_cons, List.foldl_cons, hone, ih fun j hj => hok j (List.mem_cons_of_mem i hj)]
    by_cases hlater : ∃ j ∈ is, (j : ℤ) = c
    · obtain ⟨j, hj, hjc⟩ := hlater
      rw [if_pos ⟨j, hj, hjc⟩, if_pos ⟨j, List.mem_cons_of_mem i hj, hjc⟩]
    · rw [if_neg hlater]
      by_cases hic : (i : ℤ) = c
      · rw [if_pos ⟨i, List.mem_cons_self, hic⟩, ← hic, Function.update_self]
      · have hno : ¬∃ j ∈ i :: is, (j : ℤ) = c := by
          rintro ⟨j, hj, hjc⟩
          rcases List.mem_cons.mp hj with rfl | hj
          · exact hic hjc
          · exact hlater ⟨j, hj, hjc⟩
        rw [if_neg hno, Function.update_of_ne (Ne.symm hic)]

theorem replyOf_eq_ok_iff {ret : ℤ} : replyOf ret = ok ↔ ret = errSuccess := by
  unfold replyOf
  by_cases h : ret = errSuccess
  · rw [if_pos h]
    exact iff_of_true rfl h
  · rw [if_neg h]
    exact iff_of_false ok_ne_err.symm h

/-- The words are not numbers. -/
theorem intArg_word :
    Daemon.intArg (lit "ccd1") = .invalid ∧ Daemon.intArg (lit "all") = .invalid := by
  decide

/-- **`SET_PARK ccd1`**, answered with `OK`. -/
theorem cores_park_ccd1 {r : Bytes} (hr : received r = lit "SET_PARK " ++ lit "ccd1")
    (hok : (CoreHost.socketHandle B env ce r ⟨d, cores⟩).1 = some ok) (c : ℤ) :
    (CoreHost.socketHandle B env ce r ⟨d, cores⟩).2.cores c =
      if ∃ i ∈ List.Ico B.ccd1Start B.totalCores, (i : ℤ) = c then false else cores c := by
  have hhandle := socketHandle_of_verb .setPark hr (by decide) (by decide) (by decide) B
    (env.withCores ce cores) d
  have hpark : d.handleSetPark B (env.withCores ce cores) (lit "ccd1") =
      (replyOf (Daemon.parkCores (env.withCores ce cores)
        (List.Ico B.ccd1Start B.totalCores) errSuccess d).1,
      (Daemon.parkCores (env.withCores ce cores)
        (List.Ico B.ccd1Start B.totalCores) errSuccess d).2) :=
    if_pos rfl
  unfold CoreHost.socketHandle at hok ⊢
  rw [hhandle, Daemon.handle, hpark] at hok ⊢
  have hret := (parkCores_ok (replyOf_eq_ok_iff.mp (Option.some.inj hok))).2
  dsimp only
  rw [calls_parkCores, List.drop_left]
  refine foldl_onCores _ (fun i hi cores' => ?_) cores c
  obtain ⟨hsame, hlost⟩ := cliSetCore_fst ce (i : ℤ) false cores cores'
  rw [← hsame]
  exact (hret i hi).resolve_right hlost

/-- A single core, answered with `OK`. -/
theorem cores_setCore {a : Bytes} {n : ℤ} {on : Bool} (hn : Daemon.intArg a = .value n)
    (hok : (d.intRequest (env.withCores ce cores) a fun n => .setCore n on).1 = ok) :
    ((d.intRequest (env.withCores ce cores) a fun n => .setCore n on).2.calls.drop
      d.calls.length).foldl (HwCall.onCores ce) cores = Function.update cores n on := by
  have hcall : d.intRequest (env.withCores ce cores) a (fun n => .setCore n on) =
      d.callReply (env.withCores ce cores) (.setCore n on) := by
    unfold Daemon.intRequest
    rw [hn]
  rw [hcall] at hok ⊢
  have hret : (cliSetCore ce n on cores).1 = errSuccess := replyOf_eq_ok_iff.mp hok
  show ((d.calls ++ [HwCall.setCore n on]).drop d.calls.length).foldl (HwCall.onCores ce) cores = _
  rw [List.drop_left, List.foldl_cons, List.foldl_nil]
  exact cliSetCore_ok hret

theorem cores_park_one {r a : Bytes} {n : ℤ} (hr : received r = lit "SET_PARK " ++ a)
    (hn : Daemon.intArg a = .value n)
    (hok : (CoreHost.socketHandle B env ce r ⟨d, cores⟩).1 = some ok) :
    (CoreHost.socketHandle B env ce r ⟨d, cores⟩).2.cores = Function.update cores n false := by
  have hhandle := socketHandle_of_verb .setPark hr (by decide) (by decide) (by decide) B
    (env.withCores ce cores) d
  have hccd1 : a ≠ lit "ccd1" := by
    rintro rfl
    exact absurd (intArg_word.1.symm.trans hn) (by simp)
  have hpark : d.handleSetPark B (env.withCores ce cores) a =
      d.intRequest (env.withCores ce cores) a fun n => .setCore n false :=
    if_neg hccd1
  unfold CoreHost.socketHandle at hok ⊢
  rw [hhandle, Daemon.handle, hpark] at hok ⊢
  exact cores_setCore hn (Option.some.inj hok)

theorem cores_unpark_one {r a : Bytes} {n : ℤ} (hr : received r = lit "SET_UNPARK " ++ a)
    (hn : Daemon.intArg a = .value n)
    (hok : (CoreHost.socketHandle B env ce r ⟨d, cores⟩).1 = some ok) :
    (CoreHost.socketHandle B env ce r ⟨d, cores⟩).2.cores = Function.update cores n true := by
  have hhandle := socketHandle_of_verb .setUnpark hr (by decide) (by decide) (by decide) B
    (env.withCores ce cores) d
  have hwords : ¬(a = lit "ccd1" ∨ a = lit "all") := by
    rintro (rfl | rfl)
    · exact absurd (intArg_word.1.symm.trans hn) (by simp)
    · exact absurd (intArg_word.2.symm.trans hn) (by simp)
  have hunpark : d.handleSetUnpark (env.withCores ce cores) a =
      d.intRequest (env.withCores ce cores) a fun n => .setCore n true :=
    if_neg hwords
  unfold CoreHost.socketHandle at hok ⊢
  rw [hhandle, Daemon.handle, hunpark] at hok ⊢
  exact cores_setCore hn (Option.some.inj hok)

/-- **`SET_UNPARK` by a word** makes no call on a core. -/
theorem cores_unpark_word {r a : Bytes} (hr : received r = lit "SET_UNPARK " ++ a)
    (ha : a = lit "ccd1" ∨ a = lit "all") :
    (CoreHost.socketHandle B env ce r ⟨d, cores⟩).2.cores = cores := by
  have hhandle := socketHandle_of_verb .setUnpark hr (by decide) (by decide) (by decide) B
    (env.withCores ce cores) d
  have hunpark : (d.handleSetUnpark (env.withCores ce cores) a).2.calls = d.calls := by
    unfold Daemon.handleSetUnpark
    rw [if_pos ha]
    rfl
  unfold CoreHost.socketHandle
  rw [hhandle, Daemon.handle]
  dsimp only
  rw [hunpark, List.drop_length, List.foldl_nil]

/-! ### Park and unpark -/

/-- **When unparking undoes parking.** All cores are on line again after an `OK` to both requests,
unless the second CCD was parked and has cores. -/
theorem restored_iff {env' : RequestEnv} {ce' : CoreEnv} {d' : Daemon} {r r' a b : Bytes}
    (hpair : ParkPair a b) (hr : received r = lit "SET_PARK " ++ a)
    (hr' : received r' = lit "SET_UNPARK " ++ b)
    (hok : (CoreHost.socketHandle B env ce r ⟨d, fun _ => true⟩).1 = some ok)
    (hok' : (CoreHost.socketHandle B env' ce' r'
      ⟨d', (CoreHost.socketHandle B env ce r ⟨d, fun _ => true⟩).2.cores⟩).1 = some ok) :
    (∀ c, (CoreHost.socketHandle B env' ce' r'
        ⟨d', (CoreHost.socketHandle B env ce r ⟨d, fun _ => true⟩).2.cores⟩).2.cores c = true) ↔
      (a = lit "ccd1" → B.totalCores ≤ B.ccd1Start) := by
  rcases hpair with ⟨rfl, hb⟩ | ⟨n, ha, hb⟩
  · -- the cores of the second CCD stay off line
    rw [cores_unpark_word hr' hb]
    simp only [cores_park_ccd1 hr hok, true_imp_iff]
    constructor
    · intro hall
      by_contra hlt
      have hstart := hall B.ccd1Start
      rw [if_pos ⟨B.ccd1Start, List.Ico.mem.mpr ⟨le_rfl, by omega⟩, rfl⟩] at hstart
      exact Bool.false_ne_true hstart
    · intro hle c
      rw [if_neg]
      rintro ⟨i, hi, -⟩
      have := List.Ico.mem.mp hi
      omega
  · -- the same node is written twice
    have hword : a ≠ lit "ccd1" := by
      rintro rfl
      exact absurd (intArg_word.1.symm.trans ha) (by simp)
    refine iff_of_true (fun c => ?_) fun h => absurd h hword
    rw [cores_unpark_one hr' hb hok', cores_park_one hr ha hok, Function.update_idem]
    by_cases hc : c = n
    · rw [hc, Function.update_self]
    · rw [Function.update_of_ne hc]

end

/-! ### A parked CCD -/

/-- Every core has its node, and the kernel takes what is written. -/
def CoreEnv.allOk : CoreEnv where
  opens _ := true
  accepts _ _ := true

/-- The eight cores of the second CCD stay parked. -/
theorem ccd1_stays_parked :
    ¬∀ (B : Build) (env env' : RequestEnv) (ce ce' : CoreEnv) (d d' : Daemon) (r r' a b : Bytes),
      ParkPair a b → received r = lit "SET_PARK " ++ a → received r' = lit "SET_UNPARK " ++ b →
      (CoreHost.socketHandle B env ce r ⟨d, fun _ => true⟩).1 = some ok →
      (CoreHost.socketHandle B env' ce' r'
        ⟨d', (CoreHost.socketHandle B env ce r ⟨d, fun _ => true⟩).2.cores⟩).1 = some ok →
      ∀ c, (CoreHost.socketHandle B env' ce' r'
        ⟨d', (CoreHost.socketHandle B env ce r ⟨d, fun _ => true⟩).2.cores⟩).2.cores c = true := by
  intro h
  have hback := h shippedBuild .allOk .allOk .allOk .allOk noSession.running.daemon
    noSession.running.daemon (lit "SET_PARK ccd1") (lit "SET_UNPARK ccd1") (lit "ccd1") (lit "ccd1")
    (Or.inl ⟨rfl, Or.inl rfl⟩) (by decide) (by decide) (by decide) (by decide) 8
  exact absurd hback (by decide)

/-- The rule for a single core. -/
theorem restored_iff_core :
    (∀ c, (CoreHost.socketHandle shippedBuild .allOk .allOk (lit "SET_UNPARK 9")
        ⟨noSession.running.daemon, (CoreHost.socketHandle shippedBuild .allOk .allOk
          (lit "SET_PARK 9") ⟨noSession.running.daemon, fun _ => true⟩).2.cores⟩).2.cores c =
            true) ↔
      (lit "9" = lit "ccd1" → shippedBuild.totalCores ≤ shippedBuild.ccd1Start) :=
  restored_iff (show ParkPair (lit "9") (lit "9") from Or.inr ⟨9, by decide, by decide⟩)
    (by decide) (by decide) (by decide) (by decide)

end X3D
