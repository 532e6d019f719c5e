import X3DToggle.TrackerLife
import X3DToggle.Tracking

/-!
# From the kernel to the counter

`bpf.c` runs in the kernel, at every `exec` and at the exit of every thread, and writes a record of
it to the ring buffer if there is room. `bpf_poll` hands the records to `handle_event` whenever the
daemon gets to it, and the signals of GameMode change the same counter in between.
`trackedMachine` is all of this together, in any order.

A record names a process by its number, and numbers are used again. `serial` tells the processes
apart; it and the list `handled` serve the statements only, and the code does not see them.

A fork leaves no record, and a process leaves one for each of its threads. So the counter knows
little of what goes on, but it errs to one side (`tracked_games`): as long as no end of a process is
lost for want of room, and no process passes the launch test twice, the counter is at most the
number of the launched processes whose end it has not seen and of the games that GameMode reports.
The invariant for this is `Closed`: behind an `exec` of a process that is gone there is an exit of
it.
-/

namespace X3D

/-! ### The kernel -/

/-- A process. It ends with its last thread. -/
structure Task where
  /-- Which one of all the processes it is. -/
  serial : ℕ
  /-- Its number. -/
  pid : ℤ
  /-- The threads besides one. -/
  others : ℕ

/-- A record of the ring buffer. -/
structure Record where
  /-- The process it is about. -/
  serial : ℕ
  /-- What the program has written. -/
  event : ProcessEvent

/-- `handle_exec`, at an `exec` of the process `p`. -/
def handleExec (room : Bool) (p : Task) (comm : CArray 16) (ring : List Record) : List Record :=
  if room then ring ++ [⟨p.serial, ⟨p.pid, comm.val, false⟩⟩] else ring

/-- `handle_exit`, at the exit of a thread of `p`. -/
def handleExit (room : Bool) (p : Task) (comm : CArray 16) (ring : List Record) : List Record :=
  if room then ring ++ [⟨p.serial, ⟨p.pid, comm.val, true⟩⟩] else ring

/-- What has changed the counter. -/
inductive Receipt where
  /-- A record was handled, with this list and among these processes. -/
  | record (serial : ℕ) (gl : GameList) (x : Delivery)
  /-- A signal came. -/
  | signal (g : GameModeSignal)

/-- Kernel, ring buffer and tracker. -/
structure Tracked where
  /-- The processes. -/
  tasks : List Task
  /-- How many there have been. -/
  born : ℕ
  /-- The ring buffer. -/
  ring : List Record
  /-- What has been handled. -/
  handled : List Receipt
  /-- The globals of `bpf-user.c`. -/
  bpf : Bpf

/-- What happens to them. -/
inductive TrackedInput where
  /-- A new process gets a free number. -/
  | fork (pid : ℤ)
  /-- A process gets another thread. -/
  | clone (serial : ℕ)
  /-- A process executes another program; its other threads have exited before. -/
  | exec (serial : ℕ) (comm : CArray 16) (room : Bool)
  /-- A thread exits. -/
  | exit (serial : ℕ) (comm : CArray 16) (room : Bool)
  /-- `bpf_poll`. -/
  | poll (gl : GameList) (procs : List Proc)
  /-- `on_gamemode_signal`. -/
  | signal (g : GameModeSignal)

namespace Tracked

/-- The process with this serial number. -/
def task? (s : Tracked) (n : ℕ) : Option Task := s.tasks.find? (·.serial = n)

/-- The processes, with another number of threads for one of them. -/
def withOthers (s : Tracked) (n k : ℕ) : List Task :=
  s.tasks.map fun p => if p.serial = n then { p with others := k } else p

/-- The processes after a thread of `p` has exited. -/
def afterExit (s : Tracked) (p : Task) : List Task :=
  match p.others with
  | 0 => s.tasks.filter (·.serial ≠ p.serial)
  | k + 1 => s.withOthers p.serial k

/-- One step. -/
def step : TrackedInput → Tracked → Option Tracked
  | .fork pid, s =>
    if s.tasks.any (·.pid = pid) then none
    else some { s with tasks := s.tasks ++ [⟨s.born, pid, 0⟩], born := s.born + 1 }
  | .clone n, s =>
    (s.task? n).map fun p => { s with tasks := s.withOthers n (p.others + 1) }
  | .exec n comm room, s =>
    ((s.task? n).filter (·.others = 0)).map fun p =>
      { s with ring := handleExec room p comm s.ring }
  | .exit n comm room, s =>
    (s.task? n).map fun p =>
      { s with tasks := s.afterExit p, ring := handleExit room p comm s.ring }
  | .poll gl procs, s =>
    if s.bpf.rb = .null then some s
    else some { s with
      ring := []
      handled := s.handled ++ s.ring.map fun r => .record r.serial gl ⟨procs, r.event⟩
      bpf := bpfPoll gl procs (s.ring.map Record.event) s.bpf }
  | .signal g, s =>
    some { s with handled := s.handled ++ [.signal g], bpf := onGamemodeSignal s.bpf g }

end Tracked

/-- The tracker from a successful start on, among any processes. -/
def trackedMachine : Machine Tracked TrackedInput where
  init s := ∃ env tasks, (bpfInit env Bpf.zero).1 = true ∧
    tasks.map Task.serial = List.range tasks.length ∧
    s = ⟨tasks, tasks.length, [], [], (bpfInit env Bpf.zero).2⟩
  step := Tracked.step

/-! ### What has been handled -/

namespace Receipt

/-- What it adds to the counter. -/
def weight : Receipt → ℤ
  | record _ gl x => x.weight gl
  | signal .registered => 1
  | signal .unregistered => -1

/-- What a signal adds. -/
def signalWeight : Receipt → ℤ
  | record _ _ _ => 0
  | signal .registered => 1
  | signal .unregistered => -1

/-- The process that passed the launch test. -/
def launched? : Receipt → Option ℕ
  | record n gl x => if x.isLaunch gl then some n else none
  | signal _ => none

/-- The process a thread of which exited. -/
def exited? : Receipt → Option ℕ
  | record n _ x => if x.isExit then some n else none
  | signal _ => none

/-- The record. -/
def record? : Receipt → Option Record
  | record n _ x => some ⟨n, x.event⟩
  | signal _ => none

end Receipt

namespace Tracked

/-- The processes that have passed the launch test. -/
def launched (s : Tracked) : List ℕ := s.handled.filterMap Receipt.launched?

/-- The exits that have been handled. -/
def exits (s : Tracked) : List ℕ := s.handled.filterMap Receipt.exited?

/-- The games that GameMode has reported and not taken back. -/
def registered (s : Tracked) : ℕ := satCount (s.handled.map Receipt.signalWeight)

/-- All records, in the order in which they were written. -/
def records (s : Tracked) : List Record := s.handled.filterMap Receipt.record? ++ s.ring

/-- A process that is there. -/
def Live (s : Tracked) (n : ℕ) : Prop := ∃ p ∈ s.tasks, p.serial = n

instance (s : Tracked) (n : ℕ) : Decidable (s.Live n) := inferInstanceAs (Decidable (∃ p ∈ _, _))

/-- The tracker has not been told of its end: it is there, or the record waits. -/
def Unfinished (s : Tracked) (n : ℕ) : Prop :=
  s.Live n ∨ ∃ r ∈ s.ring, r.serial = n ∧ r.event.isExit = true

instance (s : Tracked) (n : ℕ) : Decidable (s.Unfinished n) := inferInstanceAs (Decidable (_ ∨ _))

end Tracked

/-- The end of a process is recorded, if an `exec` of it has been. -/
def TrackedInput.KeepsEnd (i : TrackedInput) (s : Tracked) : Prop :=
  match i with
  | .exit n _ room => (∃ r ∈ s.records, r.serial = n ∧ r.event.isExit = false) →
    (∀ p ∈ s.task? n, p.others = 0) → room = true
  | _ => True

variable {Live Live' : ℕ → Prop} {rs : List Record} {r : Record} {s s' : Tracked}
  {i : TrackedInput} {is : List TrackedInput}

/-! ### Ends -/

/-- Behind an `exec` of a process that is gone there is an exit of it. -/
def Closed (Live : ℕ → Prop) (rs : List Record) : Prop :=
  ∀ n, ¬Live n → ∀ t, t <:+ rs → (∃ r ∈ t, r.serial = n ∧ r.event.isExit = false) →
    ∃ r ∈ t, r.serial = n ∧ r.event.isExit = true

theorem Closed.mono (h : Closed Live rs) (hlive : ∀ n, Live n → Live' n) : Closed Live' rs :=
  fun n hn => h n (mt (hlive n) hn)

/-- An `exec` is one of a process that is there. -/
theorem Closed.exec (h : Closed Live rs) (hr : Live r.serial) : Closed Live (rs ++ [r]) := by
  intro n hn t ht ⟨x, hx, hserial, hexec⟩
  rcases List.suffix_concat_iff.mp ht with rfl | ⟨t', rfl, ht'⟩
  · exact absurd hx List.not_mem_nil
  · rcases List.mem_append.mp hx with hold | hnew
    · obtain ⟨y, hy, hexit⟩ := h n hn t' ht' ⟨x, hold, hserial, hexec⟩
      exact ⟨y, List.mem_append_left _ hy, hexit⟩
    · obtain rfl := List.mem_singleton.mp hnew
      exact absurd (hserial ▸ hr) hn

/-- An exit may be the end of its process. -/
theorem Closed.exit (h : Closed Live rs) (hr : r.event.isExit = true)
    (hlive : ∀ n, Live n → Live' n ∨ n = r.serial) : Closed Live' (rs ++ [r]) := by
  intro n hn t ht ⟨x, hx, hserial, hexec⟩
  rcases List.suffix_concat_iff.mp ht with rfl | ⟨t', rfl, ht'⟩
  · exact absurd hx List.not_mem_nil
  by_cases hend : n = r.serial
  · exact ⟨r, List.mem_append_right _ (List.mem_singleton_self r), hend.symm, hr⟩
  · have hgone : ¬Live n := fun h' => (hlive n h').elim hn hend
    have hold : x ∈ t' := by
      refine (List.mem_append.mp hx).resolve_right fun hnew => hend ?_
      rw [← hserial, List.mem_singleton.mp hnew]
    obtain ⟨y, hy, hexit⟩ := h n hgone t' ht' ⟨x, hold, hserial, hexec⟩
    exact ⟨y, List.mem_append_left _ hy, hexit⟩

/-- The end of a process without an `exec` may be lost. -/
theorem Closed.lost {m : ℕ} (h : Closed Live rs)
    (hnone : ¬∃ r ∈ rs, r.serial = m ∧ r.event.isExit = false)
    (hlive : ∀ n, Live n → Live' n ∨ n = m) : Closed Live' rs := by
  intro n hn t ht hexec
  by_cases hend : n = m
  · obtain ⟨x, hx, hserial, hx'⟩ := hexec
    exact absurd ⟨x, ht.subset hx, hserial.trans hend, hx'⟩ hnone
  · exact h n (fun h' => (hlive n h').elim hn hend) t ht hexec

/-! ### The counter -/

/-- The receipts of one poll. -/
theorem activeGames_receipts (gl : GameList) (procs : List Proc) (ring : List Record) {b : Bpf}
    (hb : b.rb ≠ .null) :
    (bpfPoll gl procs (ring.map Record.event) b).activeGames =
      ((ring.map fun r => Receipt.record r.serial gl ⟨procs, r.event⟩).map
        Receipt.weight).foldl satAdd b.activeGames := by
  unfold bpfPoll
  rw [if_neg hb, List.map_map, List.foldl_map, List.foldl_map]
  exact List.foldl_ext _ _ _ fun n r _ => handleEvent_eq gl n ⟨procs, r.event⟩

theorem activeGames_signal (b : Bpf) (g : GameModeSignal) :
    (onGamemodeSignal b g).activeGames = satAdd b.activeGames (Receipt.signal g).weight := by
  cases g with
  | registered => exact (Int.toNat_natCast (b.activeGames + 1)).symm
  | unregistered =>
    show (if 0 < b.activeGames then { b with activeGames := b.activeGames - 1 }
      else b).activeGames = ((b.activeGames : ℤ) + -1).toNat
    by_cases hpos : 0 < b.activeGames
    · rw [if_pos hpos]
      show b.activeGames - 1 = _
      omega
    · rw [if_neg hpos]
      omega

/-- Launches add, exits take off, and the signals count for themselves. -/
theorem sum_receipts (t : List Receipt) :
    (t.map Receipt.weight).sum =
      (t.filterMap Receipt.launched?).length - (t.filterMap Receipt.exited?).length +
        (t.map Receipt.signalWeight).sum := by
  induction t with
  | nil => rfl
  | cons x t ih =>
    rw [List.map_cons, List.sum_cons, ih, List.map_cons, List.sum_cons]
    cases x with
    | signal g =>
      have hweight : (Receipt.signal g).weight = (Receipt.signal g).signalWeight := by
        cases g <;> rfl
      rw [hweight, List.filterMap_cons_none rfl, List.filterMap_cons_none rfl]
      omega
    | record n gl x =>
      have hzero : (Receipt.record n gl x).signalWeight = 0 := rfl
      have hweight : (Receipt.record n gl x).weight = x.weight gl := rfl
      rw [hzero, hweight, Delivery.weight]
      by_cases hexit : x.isExit = true
      · have hlaunch : ¬x.isLaunch gl = true := fun h => by
          have hexec : (!x.isExit) = true := isExec_of_isLaunch h
          rw [hexit] at hexec
          exact Bool.false_ne_true hexec
        have hexited : (Receipt.record n gl x).exited? = some n := if_pos hexit
        have hlaunched : (Receipt.record n gl x).launched? = none := if_neg hlaunch
        rw [if_pos hexit, List.filterMap_cons_none hlaunched, List.filterMap_cons_some hexited,
          List.length_cons]
        omega
      · have hexited : (Receipt.record n gl x).exited? = none := if_neg hexit
        rw [if_neg hexit, List.filterMap_cons_none hexited]
        by_cases hlaunch : x.isLaunch gl = true
        · have hlaunched : (Receipt.record n gl x).launched? = some n := if_pos hlaunch
          rw [if_pos hlaunch, List.filterMap_cons_some hlaunched, List.length_cons]
          omega
        · have hlaunched : (Receipt.record n gl x).launched? = none := if_neg hlaunch
          rw [if_neg hlaunch, List.filterMap_cons_none hlaunched]
          omega

/-! ### The invariant -/

/-- What holds between the steps. -/
structure TrackedOk (s : Tracked) : Prop where
  up : s.bpf.rb ≠ .null
  closed : Closed s.Live s.records
  count : s.bpf.activeGames = satCount (s.handled.map Receipt.weight)

namespace Tracked

theorem live_of_task? {n : ℕ} {p : Task} (h : s.task? n = some p) : s.Live n ∧ p.serial = n := by
  have hserial : p.serial = n := by simpa using List.find?_some h
  exact ⟨⟨p, List.mem_of_find?_eq_some h, hserial⟩, hserial⟩

/-- The number of threads does not matter. -/
theorem exists_withOthers_iff {n k m : ℕ} :
    (∃ p ∈ s.withOthers n k, p.serial = m) ↔ s.Live m := by
  have hserial (p : Task) :
      (if p.serial = n then { p with others := k } else p).serial = p.serial := by
    split <;> rfl
  unfold withOthers Live
  constructor
  · rintro ⟨q, hq, rfl⟩
    obtain ⟨p, hp, rfl⟩ := List.mem_map.mp hq
    exact ⟨p, hp, (hserial p).symm⟩
  · rintro ⟨p, hp, rfl⟩
    exact ⟨_, List.mem_map_of_mem hp, hserial p⟩

/-- After an exit all other processes are there. -/
theorem live_afterExit {n : ℕ} {p : Task} (h : s.Live n) :
    (∃ q ∈ s.afterExit p, q.serial = n) ∨ (n = p.serial ∧ p.others = 0) := by
  unfold afterExit
  cases hothers : p.others with
  | zero =>
    by_cases hn : n = p.serial
    · exact Or.inr ⟨hn, rfl⟩
    · obtain ⟨q, hq, rfl⟩ := h
      exact Or.inl ⟨q, List.mem_filter.mpr ⟨hq, by simpa using hn⟩, rfl⟩
  | succ k => exact Or.inl (exists_withOthers_iff.mpr h)

theorem records_append (s : Tracked) (r : Record) :
    s.handled.filterMap Receipt.record? ++ (s.ring ++ [r]) = s.records ++ [r] :=
  (List.append_assoc _ _ _).symm

end Tracked

/-- **Step lemma.** -/
theorem trackedOk_step (hs : TrackedOk s) (hi : i.KeepsEnd s)
    (hstep : trackedMachine.step i s = some s') : TrackedOk s' := by
  change Tracked.step i s = some s' at hstep
  cases i with
  | fork pid =>
    obtain ⟨-, rfl⟩ : _ ∧ _ := by simpa [Tracked.step] using hstep
    refine ⟨hs.up, hs.closed.mono ?_, hs.count⟩
    rintro n ⟨p, hp, hserial⟩
    exact ⟨p, List.mem_append_left _ hp, hserial⟩
  | clone n =>
    obtain ⟨p, -, rfl⟩ := Option.map_eq_some_iff.mp hstep
    exact ⟨hs.up, hs.closed.mono fun _ h => Tracked.exists_withOthers_iff.mpr h, hs.count⟩
  | exec n comm room =>
    obtain ⟨p, hp, rfl⟩ := Option.map_eq_some_iff.mp hstep
    obtain ⟨hlive, hserial⟩ := Tracked.live_of_task? (Option.filter_eq_some_iff.mp hp).1
    refine ⟨hs.up, ?_, hs.count⟩
    cases room with
    | true =>
      have hclosed := hs.closed.exec (r := ⟨p.serial, ⟨p.pid, comm.val, false⟩⟩) (hserial ▸ hlive)
      rw [← s.records_append] at hclosed
      exact hclosed
    | false => exact hs.closed
  | exit n comm room =>
    obtain ⟨p, hp, rfl⟩ := Option.map_eq_some_iff.mp hstep
    have hserial := (Tracked.live_of_task? hp).2
    refine ⟨hs.up, ?_, hs.count⟩
    cases room with
    | true =>
      have hclosed := hs.closed.exit (r := ⟨p.serial, ⟨p.pid, comm.val, true⟩⟩) rfl
        fun m hm => (Tracked.live_afterExit (p := p) hm).imp_right And.left
      rw [← s.records_append] at hclosed
      exact hclosed
    | false =>
      by_cases hothers : p.others = 0
      · -- the end is lost, so there is no `exec` of the process
        have hnone : ¬∃ r ∈ s.records, r.serial = n ∧ r.event.isExit = false := fun h =>
          Bool.false_ne_true (hi h fun q hq => Option.some.inj (hp.symm.trans hq) ▸ hothers)
        exact hs.closed.lost hnone fun m hm =>
          (Tracked.live_afterExit (p := p) hm).imp_right fun h => h.1.trans hserial
      · exact hs.closed.mono fun m hm =>
          (Tracked.live_afterExit (p := p) hm).resolve_right fun h => hothers h.2
  | poll gl procs =>
    dsimp only [Tracked.step] at hstep
    rw [if_neg hs.up] at hstep
    obtain rfl := Option.some.inj hstep
    refine ⟨?_, ?_, ?_⟩
    · show (bpfPoll gl procs _ s.bpf).rb ≠ .null
      unfold bpfPoll
      rw [if_neg hs.up]
      exact hs.up
    · -- the records have only changed places
      have hrecords : (s.handled ++ s.ring.map fun r =>
          Receipt.record r.serial gl ⟨procs, r.event⟩).filterMap Receipt.record? ++ [] =
            s.records := by
        rw [List.append_nil, List.filterMap_append, List.filterMap_map]
        exact congrArg _ List.filterMap_some
      have hclosed := hs.closed
      rw [← hrecords] at hclosed
      exact hclosed
    · show (bpfPoll gl procs (s.ring.map Record.event) s.bpf).activeGames = _
      rw [activeGames_receipts gl procs s.ring hs.up, hs.count, satCount, satCount, List.map_append,
        List.foldl_append]
  | signal g =>
    obtain rfl := Option.some.inj hstep
    refine ⟨?_, ?_, ?_⟩
    · show (onGamemodeSignal s.bpf g).rb ≠ .null
      cases g with
      | registered => exact hs.up
      | unregistered =>
        unfold onGamemodeSignal
        dsimp only
        split
        · exact hs.up
        · exact hs.up
    · have hrecords : (s.handled ++ [Receipt.signal g]).filterMap Receipt.record? ++ s.ring =
          s.records := by
        rw [List.filterMap_append, List.filterMap_cons_none rfl, List.filterMap_nil,
          List.append_nil]
        rfl
      have hclosed := hs.closed
      rw [← hrecords] at hclosed
      exact hclosed
    · show (onGamemodeSignal s.bpf g).activeGames =
        satCount ((s.handled ++ [Receipt.signal g]).map Receipt.weight)
      rw [activeGames_signal, hs.count, List.map_append, List.map_singleton, satCount_concat]

/-- **Run lemma.** -/
theorem trackedOk_run (h : trackedMachine.init s) (hrun : trackedMachine.run is s = some s')
    (hends : trackedMachine.Guarded TrackedInput.KeepsEnd is s) : TrackedOk s' := by
  obtain ⟨env, tasks, hinit, -, rfl⟩ := h
  obtain ⟨hgames, hup, -⟩ := bpfInit_of_null (b := Bpf.zero) rfl ⟨rfl, rfl, rfl⟩ env
  have hlive : (bpfInit env Bpf.zero).2.rb = .live := (hup hinit).1.1
  have hstart : TrackedOk ⟨tasks, tasks.length, [], [], (bpfInit env Bpf.zero).2⟩ := by
    refine ⟨?_, ?_, hgames⟩
    · show (bpfInit env Bpf.zero).2.rb ≠ .null
      rw [hlive]
      exact Handle.noConfusion
    · rintro n - t ht ⟨r, hr, -⟩
      rw [List.suffix_nil.mp ht] at hr
      exact absurd hr List.not_mem_nil
  exact Machine.Guarded.run_induction (fun i s s' hi hs hstep => trackedOk_step hs hi hstep)
    hends hstart hrun

/-! ### Counting -/

/-- A launched process whose end has been handled has exited since. -/
theorem TrackedOk.exited_of_launched (hs : TrackedOk s) {t : List Receipt} (ht : t <:+ s.handled)
    {n : ℕ} (hn : n ∈ t.filterMap Receipt.launched?) (hfinished : ¬s.Unfinished n) :
    n ∈ t.filterMap Receipt.exited? := by
  obtain ⟨x, hx, hlaunch⟩ := List.mem_filterMap.mp hn
  cases x with
  | signal g => exact absurd hlaunch.symm (Option.some_ne_none n)
  | record m gl x =>
    obtain ⟨hpassed, hm⟩ := Option.ite_none_right_eq_some.mp hlaunch
    obtain rfl := Option.some.inj hm
    have hexec : x.event.isExit = false := by
      simpa [Delivery.isExec] using isExec_of_isLaunch hpassed
    have hrecord : (⟨m, x.event⟩ : Record) ∈ t.filterMap Receipt.record? :=
      List.mem_filterMap.mpr ⟨_, hx, rfl⟩
    have hsuffix : t.filterMap Receipt.record? ++ s.ring <:+ s.records := by
      obtain ⟨t', ht'⟩ := ht
      refine ⟨t'.filterMap Receipt.record?, ?_⟩
      rw [← List.append_assoc, ← List.filterMap_append, ht']
      rfl
    obtain ⟨r, hr, hserial, hexit⟩ := hs.closed m (fun h => hfinished (Or.inl h)) _ hsuffix
      ⟨_, List.mem_append_left _ hrecord, rfl, hexec⟩
    -- what waits in the ring buffer has not been handled
    rcases List.mem_append.mp hr with hhandled | hwaits
    · obtain ⟨y, hy, hry⟩ := List.mem_filterMap.mp hhandled
      cases y with
      | signal g => exact absurd hry.symm (Option.some_ne_none r)
      | record k gl' y =>
        obtain rfl := Option.some.inj hry
        refine List.mem_filterMap.mpr ⟨_, hy, ?_⟩
        exact (if_pos hexit).trans (congrArg some hserial)
    · exact absurd (Or.inr ⟨r, hwaits, hserial, hexit⟩) hfinished

/-- No end of what has been handled adds more. -/
theorem TrackedOk.sum_le (hs : TrackedOk s) (honce : s.launched.Nodup) {t : List Receipt}
    (ht : t <:+ s.handled) : (t.map Receipt.weight).sum ≤
      ((s.launched.filter fun n => s.Unfinished n).length + s.registered : ℕ) := by
  have hsub : (t.filterMap Receipt.launched?).Sublist s.launched := ht.sublist.filterMap _
  have hsignals : (t.map Receipt.signalWeight).sum ≤ s.registered :=
    (le_satCount_iff _ _).mpr ⟨_, ht.map _, le_rfl⟩
  have hopen : ((t.filterMap Receipt.launched?).filter fun n => s.Unfinished n).length ≤
      (s.launched.filter fun n => s.Unfinished n).length := (hsub.filter _).length_le
  have hclosed : ((t.filterMap Receipt.launched?).filter fun n => !s.Unfinished n).length ≤
      (t.filterMap Receipt.exited?).length := by
    refine (((honce.sublist hsub).filter _).subperm fun n hn => ?_).length_le
    obtain ⟨hlaunched, hfinished⟩ := List.mem_filter.mp hn
    exact hs.exited_of_launched ht hlaunched (by simpa using hfinished)
  have hsplit := List.length_eq_length_filter_add (l := t.filterMap Receipt.launched?)
    fun n => s.Unfinished n
  have hsum := sum_receipts t
  omega

/-- **The counter over every run.** Whatever the order is in which processes are born, get threads,
execute and exit, and in which the daemon polls and GameMode reports, the counter is at most the
number of launched processes whose end has not been handled and of registered games. So behind a
poll without registered games it is positive only if a launched process is there. -/
theorem tracked_games (h : trackedMachine.init s) (hrun : trackedMachine.run is s = some s')
    (hends : trackedMachine.Guarded TrackedInput.KeepsEnd is s) (honce : s'.launched.Nodup) :
    s'.bpf.activeGames ≤
        (s'.launched.filter fun n => s'.Unfinished n).length + s'.registered ∧
      (s'.ring = [] → s'.registered = 0 → bpfGame s'.bpf = true →
        ∃ p ∈ s'.tasks, p.serial ∈ s'.launched) := by
  have hok := trackedOk_run h hrun hends
  have hle : s'.bpf.activeGames ≤
      (s'.launched.filter fun n => s'.Unfinished n).length + s'.registered := by
    obtain ⟨t, ht, hsum⟩ := (le_satCount_iff _ _).mp (le_of_eq (congrArg Nat.cast hok.count))
    obtain ⟨t', ht', rfl⟩ := List.suffix_map_iff.mp ht
    exact Nat.cast_le.mp (hsum.trans (hok.sum_le honce ht'))
  refine ⟨hle, fun hring hnone hgame => ?_⟩
  have hpos : 0 < (s'.launched.filter fun n => s'.Unfinished n).length := by
    have hactive : 0 < s'.bpf.activeGames := of_decide_eq_true hgame
    omega
  obtain ⟨n, hn⟩ := List.exists_mem_of_length_pos hpos
  obtain ⟨hlaunched, hunfinished⟩ := List.mem_filter.mp hn
  rcases of_decide_eq_true hunfinished with ⟨p, hp, rfl⟩ | ⟨r, hr, -⟩
  · exact ⟨p, hp, hlaunched⟩
  · rw [hring] at hr
    exact absurd hr List.not_mem_nil

/-- A tracker that has started, before there are processes. -/
def trackedStart : Tracked := ⟨[], 0, [], [], liveTracker⟩

/-- The name of a thread of a game. -/
def gameThread : CArray 16 := ⟨lit "GameThread", by decide⟩

/-- A second game, with two threads, is launched before the first one ends. -/
def gameRun : List TrackedInput :=
  [.fork 100, .exec 0 gameThread true, .poll .empty [],
    .fork 101, .exec 1 gameThread true, .clone 1,
    .exit 0 gameThread true, .poll .empty []]

theorem tracked_games_gameRun : ∃ s, trackedMachine.run gameRun trackedStart = some s ∧
    s.bpf.activeGames ≤ (s.launched.filter fun n => s.Unfinished n).length + s.registered ∧
    ∃ p ∈ s.tasks, p.serial ∈ s.launched := by
  have hinit : trackedMachine.init trackedStart := ⟨.allOk, [], rfl, rfl, rfl⟩
  have hends : trackedMachine.Guarded TrackedInput.KeepsEnd gameRun trackedStart :=
    fun _ _ => ⟨trivial, fun _ _ => ⟨trivial, fun _ _ => ⟨trivial, fun _ _ => ⟨trivial,
      fun _ _ => ⟨trivial, fun _ _ => ⟨trivial, fun _ _ => ⟨fun _ _ => rfl,
      fun _ _ => ⟨trivial, trivial⟩⟩⟩⟩⟩⟩⟩⟩
  have hrun : trackedMachine.run gameRun trackedStart = some _ := rfl
  have hgames := tracked_games hinit hrun hends (by decide)
  exact ⟨_, hrun, hgames.1, hgames.2 rfl rfl rfl⟩

end X3D
