import X3DToggle.Daemon

/-!
# The cgroup partitions

The daemon keeps two partitions, `cache` and `frequency`, each with a mask of the CPUs its
processes may run on. `affinity_set_masks` writes the masks one after the other and succeeds if
both writes do; a first write that went through is not taken back when the second fails.

The kernel decides whether it takes a mask and how the file shows it afterwards. The number of
bytes written is the length of the mask, so that an empty mask counts as a failure even where
the kernel takes it.
-/

namespace X3D

/-- The contents of `cache/cpuset.cpus` and `frequency/cpuset.cpus`. -/
structure Masks where
  cache : Bytes
  frequency : Bytes
  deriving DecidableEq

/-- The outcome of a write to a file of a partition. -/
structure CgroupWrite where
  -- `open` succeeds
  opens : Bool
  -- the kernel takes the value
  accepts : Bool
  -- what the file shows of a value it took
  shows : Bytes → Bytes

/-- The outcomes of the two writes of `affinity_set_masks`. -/
structure CgroupEnv where
  cache : CgroupWrite
  frequency : CgroupWrite

/-- `cgroup_write_raw`: the result, and the content of the file after it. -/
def cgroupWriteRaw (env : CgroupWrite) (val content : Bytes) : ℤ × Bytes :=
  if !env.opens then (errCgroup, content)
  else
    let n : ℤ := if env.accepts then val.length else -1
    (if 0 < n then errSuccess else errCgroup, if env.accepts then env.shows val else content)

/-- `affinity_set_masks`. -/
def affinitySetMasks (env : CgroupEnv) (cache freq : Bytes) (m : Masks) : ℤ × Masks :=
  let r1 := cgroupWriteRaw env.cache cache m.cache
  let r2 := cgroupWriteRaw env.frequency freq m.frequency
  (if r1.1 = errSuccess ∧ r2.1 = errSuccess then errSuccess else errCgroup, ⟨r1.2, r2.2⟩)

/-- The file is opened and the value taken. -/
def CgroupWrite.Takes (env : CgroupWrite) : Prop := env.opens = true ∧ env.accepts = true

/-- The value is not taken, or it is the one the file shows already. -/
def CgroupWrite.Keeps (env : CgroupWrite) (val content : Bytes) : Prop :=
  env.Takes → env.shows val = content

section

variable {env : CgroupWrite} {val content : Bytes}

theorem cgroupWriteRaw_of_takes (h : env.Takes) :
    cgroupWriteRaw env val content =
      (if val = [] then errCgroup else errSuccess, env.shows val) := by
  obtain ⟨hopens, haccepts⟩ := h
  unfold cgroupWriteRaw
  rw [hopens, haccepts]
  cases val with
  | nil => rfl
  | cons c val => simp

theorem cgroupWriteRaw_of_not_takes (h : ¬env.Takes) :
    cgroupWriteRaw env val content = (errCgroup, content) := by
  unfold cgroupWriteRaw
  by_cases hopens : env.opens = true
  · have haccepts : env.accepts = false := by
      rw [← Bool.not_eq_true]
      exact fun haccepts => h ⟨hopens, haccepts⟩
    rw [hopens, haccepts]
    rfl
  · rw [Bool.eq_false_of_not_eq_true hopens]
    rfl

/-- A write succeeds if the value is taken and not empty. -/
theorem cgroupWriteRaw_ok_iff (content : Bytes) :
    (cgroupWriteRaw env val content).1 = errSuccess ↔ env.Takes ∧ val ≠ [] := by
  by_cases h : env.Takes
  · rw [cgroupWriteRaw_of_takes h]
    by_cases hval : val = [] <;> simp [hval, h]
  · rw [cgroupWriteRaw_of_not_takes h]
    simp [h]

theorem cgroupWriteRaw_keeps_iff :
    (cgroupWriteRaw env val content).2 = content ↔ env.Keeps val content := by
  unfold CgroupWrite.Keeps
  by_cases h : env.Takes
  · rw [cgroupWriteRaw_of_takes h]
    simp [h]
  · rw [cgroupWriteRaw_of_not_takes h]
    simp [h]

end

section

variable {env : CgroupEnv} {cache freq : Bytes} {m : Masks}

theorem affinitySetMasks_ok_iff :
    (affinitySetMasks env cache freq m).1 = errSuccess ↔
      (env.cache.Takes ∧ cache ≠ []) ∧ (env.frequency.Takes ∧ freq ≠ []) := by
  rw [← cgroupWriteRaw_ok_iff m.cache, ← cgroupWriteRaw_ok_iff m.frequency]
  unfold affinitySetMasks
  dsimp only
  split
  next h => simp [h]
  next h => simp [h]

/-- The masks stay as they are if each of the writes leaves its file as it is. -/
theorem affinitySetMasks_keeps_iff :
    (affinitySetMasks env cache freq m).2 = m ↔
      env.cache.Keeps cache m.cache ∧ env.frequency.Keeps freq m.frequency := by
  rw [← cgroupWriteRaw_keeps_iff, ← cgroupWriteRaw_keeps_iff, affinitySetMasks, Masks.mk.injEq]

end

end X3D
