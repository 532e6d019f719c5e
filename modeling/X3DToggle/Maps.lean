import X3DToggle.Bpf
import X3DToggle.Lib.Chunks

/-!
# The search for GameMode in `/proc/<pid>/maps`

`scan_pid` reads the maps of a process into its buffer again and again and searches each buffer
for the name of the GameMode library. Where a `read` ends is up to the kernel. A name that lies
across the end of one is in no buffer, so what `scan_pid` finds depends on where the text is cut:
it finds the name exactly if an occurrence is in one piece (`mapsLoop_iff`), and the answers on two
ways to cut a text agree with the text exactly if both leave one (`mapsLoop_agree_iff`).
-/

namespace X3D

/-- The name of the library. -/
def gamemodeLib : Bytes := lit "libgamemodeauto.so"

/-- `while ((n = read(maps_fd, buf, sizeof(buf) - 1)) > 0)`, on what the calls of `read` return. -/
def mapsLoop : List Bytes → Bool
  | [] => false
  | chunk :: rest => if contains (cstr chunk) gamemodeLib then true else mapsLoop rest

/-- A way to read a text: chunks that fit the buffer, none of them empty. -/
structure Chunking (content : Bytes) where
  chunks : List Bytes
  flatten_eq : chunks.flatten = content
  length_mem : ∀ c ∈ chunks, 0 < c.length ∧ c.length ≤ 16383

/-- An occurrence of the name in the text that is in one piece: no boundary cuts it, and a NUL in
front of it is in an earlier chunk. -/
def InOnePiece {content : Bytes} (c : Chunking content) : Prop :=
  ∃ k, gamemodeLib <+: content.drop k ∧ Uncut c.chunks k gamemodeLib.length ∧
    Unstopped (· = 0) c.chunks k

theorem mapsLoop_eq_any (chunks : List Bytes) :
    mapsLoop chunks = chunks.any fun c => contains (cstr c) gamemodeLib := by
  induction chunks with
  | nil => rfl
  | cons c chunks ih =>
    rw [mapsLoop, List.any_cons, ih]
    cases contains (cstr c) gamemodeLib <;> rfl

/-- The search of a buffer stops at its first NUL. -/
theorem infix_cstr_iff {n c : Bytes} (hn : (0 : UInt8) ∉ n) :
    n <:+: cstr c ↔ ∃ s t, c = s ++ n ++ t ∧ ∀ x ∈ s, ¬x = 0 := by
  constructor
  · rintro ⟨s, t, hst⟩
    obtain ⟨rest, hrest⟩ : cstr c <+: c := List.takeWhile_prefix _
    refine ⟨s, t ++ rest, ?_, fun x hx hzero => ?_⟩
    · rw [← hrest, ← hst, List.append_assoc]
    · refine zero_notMem_cstr c ?_
      rw [← hst, ← hzero]
      exact List.mem_append_left t (List.mem_append_left n hx)
  · rintro ⟨s, t, rfl, hs⟩
    have hfree : (0 : UInt8) ∉ s ++ n := by
      rw [List.mem_append, not_or]
      exact ⟨fun hmem => hs 0 hmem rfl, hn⟩
    rw [cstr_append hfree]
    exact ⟨s, cstr t, rfl⟩

/-- **What the loop finds.** -/
theorem mapsLoop_iff {content : Bytes} (c : Chunking content) :
    mapsLoop c.chunks = true ↔ InOnePiece c := by
  have hchunk := exists_mem_chunk_iff (· = (0 : UInt8)) (n := gamemodeLib) (by decide) c.chunks
  rw [c.flatten_eq] at hchunk
  rw [mapsLoop_eq_any, List.any_eq_true, InOnePiece, ← hchunk]
  refine exists_congr fun chunk => and_congr_right fun _ => ?_
  rw [contains_iff, infix_cstr_iff (by decide)]

/-- The loop is the search of `scan_pid`. -/
theorem mapsLoop_eq_scanPid {content : Bytes} (c : Chunking content) :
    mapsLoop c.chunks =
      c.chunks.any fun piece => contains (cstr (piece.take 16383)) (lit "libgamemodeauto.so") := by
  rw [mapsLoop_eq_any, Bool.eq_iff_iff, List.any_eq_true, List.any_eq_true]
  refine exists_congr fun chunk => and_congr_right fun hmem => ?_
  rw [List.take_of_length_le (c.length_mem chunk hmem).2, gamemodeLib]

/-- **GameMode detection** gives the same answer on two ways to read a text, and the right one,
exactly if both leave an occurrence in one piece where there is one at all. -/
theorem mapsLoop_agree_iff {content : Bytes} (c c' : Chunking content) :
    (mapsLoop c.chunks = mapsLoop c'.chunks ∧
        (mapsLoop c.chunks = true ↔ gamemodeLib <:+: content)) ↔
      (gamemodeLib <:+: content → InOnePiece c ∧ InOnePiece c') := by
  have hwithin {c : Chunking content} (h : InOnePiece c) : gamemodeLib <:+: content := by
    obtain ⟨k, hpre, -⟩ := h
    exact hpre.isInfix.trans (List.drop_suffix k content).isInfix
  rw [Bool.eq_iff_iff, mapsLoop_iff, mapsLoop_iff]
  constructor
  · rintro ⟨hsame, hright⟩ hin
    exact ⟨hright.mpr hin, hsame.mp (hright.mpr hin)⟩
  · intro h
    refine ⟨⟨fun hone => (h (hwithin hone)).2, fun hone => (h (hwithin hone)).1⟩, ?_⟩
    exact ⟨hwithin, fun hin => (h hin).1⟩

/-- The name in one read, and in two. -/
theorem gamemode_missed :
    ¬∀ (content : Bytes) (c c' : Chunking content),
      mapsLoop c.chunks = mapsLoop c'.chunks ∧
        (mapsLoop c.chunks = true ↔ gamemodeLib <:+: content) := by
  intro h
  have hsame := (h (lit "libgamemodeauto.so")
    ⟨[lit "libgamemodeauto.so"], by decide, by decide⟩
    ⟨[lit "libgamemode", lit "auto.so"], by decide, by decide⟩).1
  exact absurd hsame (by decide)

end X3D
