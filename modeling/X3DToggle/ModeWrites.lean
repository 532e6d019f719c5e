import X3DToggle.Handled

/-!
# What is written to the mode node

In suspension a poll writes the buffer `target` to the mode node, and its text may be from any poll
before. So the texts that can be written are those that can get into the buffers of the loop:
one of the four modes, what `mode` makes of a content that the node has shown, and what the
uninitialised buffers hold at the start (`Origin`). `modeWrites_origin` says so of every run. In
particular no byte of a request is written to the node.

The invariant `Known` is about an arbitrary set of texts that a reading maps to itself
(`ClosedUnderReading`). A write that the driver accepts becomes the content, and is read by the next
poll; that is why the set has to be closed.
-/

namespace X3D

/-- What is written may be read back, so the reading of a text of the set is in the set. -/
structure ClosedUnderReading (T : Bytes → Prop) : Prop where
  word : ∀ w ∈ modeWords, T w
  unknown : T (lit "unknown")
  reading : ∀ t, T t → T (modeText 32 t)

/-- What can be written next is in the set. -/
structure Known (T : Bytes → Prop) (d : Daemon) : Prop where
  writes : ∀ w ∈ d.node.writes, T w
  content : T (modeText 32 d.node.content)
  current : T d.current.val
  target : T d.target.val

/-- The content is put on the node by somebody else: another process, or the reset script. -/
def Input.Shows (i : Input) (content : Bytes) : Prop :=
  match i with
  | .external _ _ c => content = c
  | .request env _ => ∃ c, content = env.reprobe c
  | _ => False

/-- **Where a text comes from.** -/
inductive Origin (env : BootEnv) (is : List Input) : Bytes → Prop
  | word {w : Bytes} (h : w ∈ modeWords) : Origin env is w
  | unknown : Origin env is (lit "unknown")
  | boot : Origin env is (modeText 32 env.content)
  | shown {i : Input} {content : Bytes} (hi : i ∈ is) (h : i.Shows content) :
    Origin env is (modeText 32 content)
  | currentStart : Origin env is env.current.val
  | targetStart : Origin env is env.target.val
  | readBack {t : Bytes} (h : Origin env is t) : Origin env is (modeText 32 t)

theorem closedUnderReading_origin (env : BootEnv) (is : List Input) :
    ClosedUnderReading (Origin env is) :=
  ⟨fun _ hw => .word hw, .unknown, fun _ ht => .readBack ht⟩

variable {T : Bytes → Prop} {B : Build} {d : Daemon}

/-- Node, buffers and nothing else. -/
theorem Known.congr {d' : Daemon} (hd : Known T d) (hnode : d'.node = d.node)
    (hcurrent : d'.current = d.current) (htarget : T d'.target.val) : Known T d' :=
  ⟨hnode ▸ hd.writes, hnode ▸ hd.content, hcurrent ▸ hd.current, htarget⟩

theorem copy32_current (d : Daemon) : (copy32 d.current.val).val = d.current.val := by
  rw [copy32, CArray.copy_val]
  exact List.take_of_length_le (Nat.le_of_lt_succ d.current.property)

theorem copy32_modeWord {w : Bytes} (hw : w ∈ modeWords) : (copy32 w).val = w := by
  have hshort : ∀ w ∈ modeWords, w.length ≤ 31 := by decide
  rw [copy32, CArray.copy_val]
  exact List.take_of_length_le (hshort w hw)

/-! ### The operations on the node -/

/-- **What a write can do.** -/
theorem cliSetMode_cases (io : ModeIo) (path target : Bytes) (node : Node) :
    (cliSetMode io path target node).2 = node ∨
      (cliSetMode io path target node).2 = ⟨target, node.writes ++ [target]⟩ ∨
      (cliSetMode io path target node).2 = ⟨node.content, node.writes ++ [target]⟩ := by
  unfold cliSetMode
  split
  · exact Or.inl rfl
  split
  · exact Or.inl rfl
  split
  · exact Or.inr (Or.inl rfl)
  · exact Or.inr (Or.inr rfl)

theorem known_setMode (hT : ClosedUnderReading T) (hd : Known T d) (io : ModeIo) {target : Bytes}
    (htarget : T target) : Known T (d.setMode io target) := by
  have hwrites : ∀ w ∈ d.node.writes ++ [target], T w := by
    intro w hw
    rcases List.mem_append.mp hw with hold | hnew
    · exact hd.writes w hold
    · exact List.mem_singleton.mp hnew ▸ htarget
  have hnode {node : Node} (hset : (d.setMode io target).node = node)
      (hw : ∀ w ∈ node.writes, T w) (hc : T (modeText 32 node.content)) :
      Known T (d.setMode io target) :=
    ⟨hset ▸ hw, hset ▸ hc, hd.current, hd.target⟩
  rcases cliSetMode_cases io (findPath io.access d.pathCache) target d.node with h | h | h
  · exact hnode h hd.writes hd.content
  · exact hnode h hwrites (hT.reading target htarget)
  · exact hnode h hwrites hd.content

theorem known_readMode (hT : ClosedUnderReading T) (hd : Known T d) (io : ModeIo) :
    Known T (d.readMode io).1 := by
  refine ⟨hd.writes, hd.content, ?_, hd.target⟩
  show T (X3D.mode io (findPath io.access d.pathCache) d.node d.current).2.val
  unfold X3D.mode
  split
  · exact hT.unknown
  split
  · exact hd.current
  split
  · exact hd.current
  · exact hd.content

/-! ### Polls and requests -/

/-- The target of a poll is a mode word or the mode that it found, whichever way it takes. -/
theorem known_polled {env : PollEnv} {d' : Daemon} (h : Polled env d d')
    (hT : ClosedUnderReading T) (hd : Known T d) : Known T d' := by
  induction h with
  | refl => exact hd
  | read d => exact known_readMode hT hd _
  | bpf b d => exact hd.congr rfl rfl hd.target
  | select hword d =>
    refine hd.congr rfl rfl ?_
    rw [copy32_modeWord hword]
    exact hT.word _ hword
  | write d => exact known_setMode hT hd _ hd.target
  | settle d =>
    refine hd.congr rfl rfl ?_
    rw [copy32_current]
    exact hd.current
  | trans _ _ ih ih' => exact ih' (ih hd)

/-- The handler writes mode words. -/
theorem known_handled {env : RequestEnv} {d' : Daemon} (h : Handled env d d')
    (hT : ClosedUnderReading T) (hreprobe : ∀ c, T (modeText 32 (env.reprobe c)))
    (hd : Known T d) : Known T d' := by
  induction h with
  | same h => exact hd.congr h.node h.current (h.target ▸ hd.target)
  | find d => exact hd.congr rfl rfl hd.target
  | setMode hword d => exact known_setMode hT hd _ (hT.word _ hword)
  | reprobe d => exact ⟨hd.writes, hreprobe _, hd.current, hd.target⟩
  | trans _ _ ih ih' => exact ih' (ih hd)

theorem known_socketHandle {env : RequestEnv} (hT : ClosedUnderReading T)
    (hreprobe : ∀ c, T (modeText 32 (env.reprobe c))) (hd : Known T d) (r : Bytes) :
    Known T (socketHandle B env r d).2 := by
  rcases handled_socketHandle B env r d with h | h
  · exact known_handled h hT hreprobe hd
  · rw [h]
    exact hd.congr rfl rfl hd.target

theorem known_boot (hT : ClosedUnderReading T) (env : BootEnv)
    (hcontent : T (modeText 32 env.content)) (hcurrent : T env.current.val)
    (htarget : T env.target.val) : Known T (boot B env) := by
  have hset {d : Daemon} (hd : Known T d) : Known T (d.setMode env.io (lit "frequency")) :=
    known_setMode hT hd _ (hT.word _ (List.mem_cons_of_mem _ List.mem_cons_self))
  have hfirst {d : Daemon} (hnode : d.node = ⟨env.content, []⟩) (hc : d.current = env.current)
      (ht : d.target = env.target) : Known T (d.setMode env.io (lit "frequency")) := by
    refine hset ⟨?_, ?_, ?_, ?_⟩
    · exact hnode ▸ List.forall_mem_nil _
    · exact hnode ▸ hcontent
    · exact hc ▸ hcurrent
    · exact ht ▸ htarget
  have hcfg {d : Daemon} (hd : Known T d) (cfg : DaemonConfig) : Known T { d with cfg := cfg } :=
    hd.congr rfl rfl hd.target
  unfold boot
  dsimp only
  repeat' split
  all_goals first
    | exact hset (hcfg (hfirst rfl rfl rfl) _)
    | exact hset (hfirst rfl rfl rfl)
    | exact hcfg (hfirst rfl rfl rfl) _
    | exact hfirst rfl rfl rfl

theorem known_step {i : Input} {s s' : Running} (hT : ClosedUnderReading T)
    (hshown : ∀ c, i.Shows c → T (modeText 32 c)) (hs : Known T s.daemon)
    (hstep : (daemonMachine B).step i s = some s') : Known T s'.daemon := by
  cases stepped hstep with
  | request env r d =>
    exact known_socketHandle hT (fun c => hshown _ ⟨c, rfl⟩) hs r
  | poll env d => exact known_polled (polled_pollingRun env d) hT hs
  | reload env r d =>
    have hpoll := known_polled (polled_pollingRun env d) hT hs
    exact hpoll.congr rfl rfl hpoll.target
  | external conf games content d p =>
    exact ⟨hs.writes, hshown content rfl, hs.current, hs.target⟩
  | timeout | stop | gamemode => exact hs.congr rfl rfl hs.target

/-! ### Every run -/

/-- **Origin of the writes.** Every text that the daemon passes to the mode node, in any run from
its start on, is a mode word, or a reading of what somebody else put on the node, or was in one of
the two buffers at the start. -/
theorem modeWrites_origin {env : BootEnv} {is : List Input} {s : Running}
    (hrun : (daemonMachine B).run is ⟨boot B env, .select⟩ = some s) :
    ∀ w ∈ s.daemon.node.writes, Origin env is w := by
  have hT := closedUnderReading_origin env is
  have hboot : Known (Origin env is) (boot B env) :=
    known_boot hT env .boot .currentStart .targetStart
  have hend : Known (Origin env is) s.daemon :=
    Machine.run_induction (P := fun s : Running => Known (Origin env is) s.daemon)
      (fun i hi _ _ hs hstep => known_step hT (fun _ hc => .shown hi hc) hs hstep) hboot hrun
  exact hend.writes

theorem modeWrites_origin_poll :
    ∃ s, (daemonMachine shippedBuild).run [.timeout, .poll .allOk none]
        ⟨boot shippedBuild (.allOk none), .select⟩ = some s ∧
      ∀ w ∈ s.daemon.node.writes, Origin (.allOk none) [.timeout, .poll .allOk none] w := by
  have hrun : (daemonMachine shippedBuild).run [.timeout, .poll .allOk none]
      ⟨boot shippedBuild (.allOk none), .select⟩ = some _ := rfl
  exact ⟨_, hrun, modeWrites_origin hrun⟩

end X3D
