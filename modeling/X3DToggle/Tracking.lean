import X3DToggle.Lib.Counter
import X3DToggle.Loop

/-!
# What the event counter knows

`handle_event` keeps one number. A launch adds one to it; an exit takes one off unless it is
zero, whoever it is that exits: the name a process exits with need not be the name it was
launched with, so the handler takes no chance and lets every exit count. The counter is thus
`satCount` of the trace (`activeGames_eq`), and positive exactly if some end of the trace has
more launches than exits.

In an orderly trace, where every process executes once and exits once and later, the counter
errs to one side only. It is never positive when all games have exited; but the exit of a
process that is no game hides a game that goes on. Where only launched processes exit it is
exact (`bpfGame_spec`).
-/

namespace X3D

/-- An event, with the processes of the moment it is handled at. -/
structure Delivery where
  /-- The processes. -/
  procs : List Proc
  /-- The event. -/
  event : ProcessEvent

/-- The tracker after a series of polls. -/
def bpfPolls (gl : GameList) (envs : List PollEnv) (b : Bpf) : Bpf :=
  envs.foldl (fun b env => bpfPoll gl env.procs env.events b) b

/-- The trace a series of polls handles. -/
def deliveries (envs : List PollEnv) : List Delivery :=
  envs.flatMap fun env => env.events.map fun e => ⟨env.procs, e⟩

namespace Delivery

/-- An exec that passes the launch test. -/
def isLaunch (gl : GameList) (x : Delivery) : Bool :=
  !x.event.isExit && (gamesMatch gl x.event.comm || isGameEngineComm x.event.comm ||
    scanPidSteamByPid x.procs x.event.pid)

/-- An exit. -/
def isExit (x : Delivery) : Bool := x.event.isExit

/-- An exec. -/
def isExec (x : Delivery) : Bool := !x.event.isExit

/-- The process. -/
def pid (x : Delivery) : ℤ := x.event.pid

/-- What an event adds to the counter. -/
def weight (gl : GameList) (x : Delivery) : ℤ :=
  if x.isExit then -1 else if x.isLaunch gl then 1 else 0

end Delivery

section

variable {gl : GameList} {envs : List PollEnv} {tr : List Delivery} {b : Bpf}

/-- **Step lemma.** An event adds its weight, and the counter stops at zero. -/
theorem handleEvent_eq (gl : GameList) (n : ℕ) (x : Delivery) :
    handleEvent gl x.procs n x.event = satAdd n (x.weight gl) := by
  unfold handleEvent satAdd Delivery.weight Delivery.isLaunch Delivery.isExit
  cases hexit : x.event.isExit with
  | true =>
    -- an exit takes one off, on the list or not
    by_cases hmatch : gamesMatch gl x.event.comm = true
    · rw [if_pos hmatch, if_pos rfl, if_pos rfl]
      split <;> omega
    · rw [if_neg hmatch, if_neg (by simp), if_pos rfl]
      simp only [true_and]
      split <;> omega
  | false =>
    by_cases hmatch : gamesMatch gl x.event.comm = true
    · simp only [hmatch, if_true, Bool.false_eq_true, if_false, Bool.not_false, Bool.true_or,
        Bool.true_and]
      omega
    · by_cases hsteam : (isGameEngineComm x.event.comm ||
          scanPidSteamByPid x.procs x.event.pid) = true
      · simp only [hmatch, hsteam, Bool.false_eq_true, if_false, if_true, Bool.not_false,
          Bool.true_and, Bool.false_or]
        omega
      · simp only [hmatch, hsteam, Bool.false_eq_true, if_false, Bool.not_false, Bool.true_and,
          Bool.false_or, false_and]
        omega

/-- One poll of a live tracker. -/
theorem activeGames_bpfPoll (hb : b.rb ≠ .null) (env : PollEnv) :
    (bpfPoll gl env.procs env.events b).activeGames =
      ((deliveries [env]).map (Delivery.weight gl)).foldl satAdd b.activeGames := by
  unfold bpfPoll deliveries
  rw [if_neg hb, List.flatMap_singleton, List.map_map, List.foldl_map]
  exact List.foldl_ext _ _ _ fun n e _ => handleEvent_eq gl n ⟨env.procs, e⟩

theorem rb_bpfPoll (env : PollEnv) : (bpfPoll gl env.procs env.events b).rb = b.rb := by
  unfold bpfPoll
  split <;> rfl

/-- **Run lemma.** The counter of a tracker that starts at zero. -/
theorem activeGames_eq (hb : b.rb ≠ .null) (hzero : b.activeGames = 0) (envs : List PollEnv) :
    (bpfPolls gl envs b).activeGames =
      satCount ((deliveries envs).map (Delivery.weight gl)) := by
  have hpolls : ∀ b : Bpf, b.rb ≠ .null → (bpfPolls gl envs b).activeGames =
      ((deliveries envs).map (Delivery.weight gl)).foldl satAdd b.activeGames := by
    induction envs with
    | nil => exact fun _ _ => rfl
    | cons env envs ih =>
      intro b hb
      have happend : deliveries (env :: envs) = deliveries [env] ++ deliveries envs := by
        simp [deliveries]
      show (bpfPolls gl envs (bpfPoll gl env.procs env.events b)).activeGames = _
      rw [ih _ (by rwa [rb_bpfPoll]), activeGames_bpfPoll hb, happend, List.map_append,
        List.foldl_append]
  rw [hpolls b hb, hzero]
  rfl

/-! ### Counting launches and exits -/

/-- The weight of a trace is its launches less its exits. -/
theorem sum_weight (tr : List Delivery) :
    (tr.map (Delivery.weight gl)).sum =
      tr.countP (Delivery.isLaunch gl) - tr.countP Delivery.isExit := by
  induction tr with
  | nil => rfl
  | cons x tr ih =>
    rw [List.map_cons, List.sum_cons, ih, List.countP_cons, List.countP_cons, Delivery.weight]
    have hnot : x.isExit = true → x.isLaunch gl = false := by
      intro h
      simp [Delivery.isLaunch, show x.event.isExit = true from h]
    by_cases hexit : x.isExit = true
    · simp only [hexit, hnot hexit, if_true, Bool.false_eq_true, if_false]
      omega
    · by_cases hlaunch : x.isLaunch gl = true
      · simp only [hexit, hlaunch, if_true, Bool.false_eq_true, if_false]
        omega
      · simp only [hexit, hlaunch, Bool.false_eq_true, if_false]
        omega

/-- **The tracker sees a game** exactly if some end of the trace has more launches than
exits. -/
theorem bpfGame_iff (gl : GameList) (hb : b.rb ≠ .null) (hzero : b.activeGames = 0)
    (envs : List PollEnv) : bpfGame (bpfPolls gl envs b) = true ↔
      ∃ t, t <:+ deliveries envs ∧ t.countP Delivery.isExit < t.countP (Delivery.isLaunch gl) := by
  unfold bpfGame
  rw [decide_eq_true_iff, activeGames_eq hb hzero, satCount_pos_iff]
  constructor
  · rintro ⟨t, ht, hpos⟩
    obtain ⟨t', ht', rfl⟩ := List.suffix_map_iff.mp ht
    rw [sum_weight] at hpos
    exact ⟨t', ht', by omega⟩
  · rintro ⟨t, ht, hlt⟩
    refine ⟨t.map (Delivery.weight gl), ht.map _, ?_⟩
    rw [sum_weight]
    omega

/-! ### Orderly traces -/

/-- The processes of the events that satisfy a predicate. -/
def pidsOf (p : Delivery → Bool) (tr : List Delivery) : List ℤ :=
  (tr.filter p).map Delivery.pid

/-- Every process executes at most once, and exits at most once and after it has executed. -/
structure Orderly (tr : List Delivery) : Prop where
  execs : (pidsOf Delivery.isExec tr).Nodup
  exits : (pidsOf Delivery.isExit tr).Nodup
  after : ∀ s, s <+: tr → pidsOf Delivery.isExit s ⊆ pidsOf Delivery.isExec s

/-- A process whose exec passed the launch test. -/
def Launched (gl : GameList) (tr : List Delivery) (pid : ℤ) : Prop :=
  pid ∈ pidsOf (Delivery.isLaunch gl) tr

/-- A process whose exit was handled. -/
def Exited (tr : List Delivery) (pid : ℤ) : Prop := pid ∈ pidsOf Delivery.isExit tr

theorem length_pidsOf (p : Delivery → Bool) (tr : List Delivery) :
    (pidsOf p tr).length = tr.countP p := by
  rw [pidsOf, List.length_map, List.countP_eq_length_filter]

theorem pidsOf_append (p : Delivery → Bool) (xs ys : List Delivery) :
    pidsOf p (xs ++ ys) = pidsOf p xs ++ pidsOf p ys := by
  rw [pidsOf, List.filter_append, List.map_append]
  rfl

theorem isExec_of_isLaunch {x : Delivery} (h : x.isLaunch gl = true) : x.isExec = true :=
  (Bool.and_eq_true_iff.mp h).1

theorem pidsOf_isLaunch_sublist (tr : List Delivery) :
    (pidsOf (Delivery.isLaunch gl) tr).Sublist (pidsOf Delivery.isExec tr) :=
  (List.monotone_filter_right tr fun _ h => isExec_of_isLaunch h).map _

/-- A process launched in an end of an orderly trace exits in it, if at all. -/
theorem Orderly.exited_of_suffix {s t : List Delivery} (h : Orderly (s ++ t)) {pid : ℤ}
    (hlaunched : Launched gl t pid) (hexited : Exited (s ++ t) pid) : Exited t pid := by
  unfold Exited at hexited ⊢
  rw [pidsOf_append, List.mem_append] at hexited
  refine hexited.resolve_left fun hs => ?_
  -- an exit before the suffix has its exec there, and another one would follow in the suffix
  have hbefore : pid ∈ pidsOf Delivery.isExec s := h.after s (List.prefix_append s t) hs
  have hafter : pid ∈ pidsOf Delivery.isExec t := (pidsOf_isLaunch_sublist t).subset hlaunched
  have hnodup := h.execs
  rw [pidsOf_append] at hnodup
  exact List.disjoint_of_nodup_append hnodup hbefore hafter

/-- More launches than exits leave a game. -/
theorem Orderly.exists_live {t : List Delivery} (h : Orderly tr) (ht : t <:+ tr)
    (hlt : t.countP Delivery.isExit < t.countP (Delivery.isLaunch gl)) :
    ∃ pid, Launched gl tr pid ∧ ¬Exited tr pid := by
  by_contra hall
  push Not at hall
  obtain ⟨s, rfl⟩ := ht
  have hsub : pidsOf (Delivery.isLaunch gl) t ⊆ pidsOf Delivery.isExit t := by
    intro pid hpid
    have hlaunched : Launched gl (s ++ t) pid := by
      unfold Launched
      rw [pidsOf_append]
      exact List.mem_append_right _ hpid
    exact h.exited_of_suffix hpid (hall pid hlaunched)
  have hnodup : (pidsOf (Delivery.isLaunch gl) t).Nodup := by
    have hexecs := h.execs
    rw [pidsOf_append] at hexecs
    exact hexecs.of_append_right.sublist (pidsOf_isLaunch_sublist t)
  have hle := (hnodup.subperm hsub).length_le
  rw [length_pidsOf, length_pidsOf] at hle
  omega

/-- Where only games exit, a game that goes on leaves more launches than exits. -/
theorem Orderly.lt_of_live (h : Orderly tr) (honly : ∀ pid, Exited tr pid → Launched gl tr pid)
    {pid : ℤ} (hlaunched : Launched gl tr pid) (hlive : ¬Exited tr pid) :
    tr.countP Delivery.isExit < tr.countP (Delivery.isLaunch gl) := by
  have hnodup : (pid :: pidsOf Delivery.isExit tr).Nodup := List.nodup_cons.mpr ⟨hlive, h.exits⟩
  have hsub : pid :: pidsOf Delivery.isExit tr ⊆ pidsOf (Delivery.isLaunch gl) tr :=
    List.cons_subset.mpr ⟨hlaunched, honly⟩
  have hle := (hnodup.subperm hsub).length_le
  rw [List.length_cons, length_pidsOf, length_pidsOf] at hle
  omega

/-- **What the counter knows.** It is positive exactly if some end of the trace has more
launches than exits. So in an orderly trace it is positive only while a game goes on, and it is
exact where only games exit. -/
theorem bpfGame_spec (gl : GameList) (hb : b.rb ≠ .null) (hzero : b.activeGames = 0)
    (envs : List PollEnv) :
    (bpfGame (bpfPolls gl envs b) = true ↔ ∃ t, t <:+ deliveries envs ∧
        t.countP Delivery.isExit < t.countP (Delivery.isLaunch gl)) ∧
      (Orderly (deliveries envs) → bpfGame (bpfPolls gl envs b) = true →
        ∃ pid, Launched gl (deliveries envs) pid ∧ ¬Exited (deliveries envs) pid) ∧
      (Orderly (deliveries envs) →
        (∀ pid, Exited (deliveries envs) pid → Launched gl (deliveries envs) pid) →
        (bpfGame (bpfPolls gl envs b) = true ↔
          ∃ pid, Launched gl (deliveries envs) pid ∧ ¬Exited (deliveries envs) pid)) := by
  have hiff := bpfGame_iff gl hb hzero envs
  have hsound (h : Orderly (deliveries envs)) (hgame : bpfGame (bpfPolls gl envs b) = true) :
      ∃ pid, Launched gl (deliveries envs) pid ∧ ¬Exited (deliveries envs) pid := by
    obtain ⟨t, ht, hlt⟩ := hiff.mp hgame
    exact h.exists_live ht hlt
  refine ⟨hiff, hsound, fun h honly => ⟨hsound h, ?_⟩⟩
  rintro ⟨pid, hlaunched, hlive⟩
  exact hiff.mpr ⟨_, List.suffix_refl _, h.lt_of_live honly hlaunched hlive⟩

end

/-! ### A game that is hidden -/

/-- A game is launched, and some other process comes and goes. -/
def hiddenTrace : List PollEnv :=
  [{ io := .allOk, procs := [], events :=
      [⟨100, lit "GameThread", false⟩, ⟨200, lit "sh", false⟩, ⟨200, lit "sh", true⟩] }]

/-- Two games are launched, and one exits. -/
def gamesTrace : List PollEnv :=
  [{ io := .allOk, procs := [], events := [⟨100, lit "GameThread", false⟩] },
   { io := .allOk, procs := [], events :=
      [⟨300, lit "GameThread", false⟩, ⟨100, lit "GameThread", true⟩] }]

/-- A tracker after a successful start. -/
def liveTracker : Bpf := (bpfInit .allOk Bpf.zero).2

theorem orderly_of_inits {tr : List Delivery} (hexecs : (pidsOf Delivery.isExec tr).Nodup)
    (hexits : (pidsOf Delivery.isExit tr).Nodup)
    (hafter : ∀ s ∈ tr.inits, pidsOf Delivery.isExit s ⊆ pidsOf Delivery.isExec s) :
    Orderly tr :=
  ⟨hexecs, hexits, fun s hs => hafter s ((List.mem_inits s tr).mpr hs)⟩

/-- The counter is zero while the game goes on. -/
theorem game_hidden :
    ¬∀ (gl : GameList) (b : Bpf) (envs : List PollEnv), b.rb ≠ .null → b.activeGames = 0 →
      Orderly (deliveries envs) →
      (bpfGame (bpfPolls gl envs b) = true ↔
        ∃ pid, Launched gl (deliveries envs) pid ∧ ¬Exited (deliveries envs) pid) := by
  intro h
  have horderly : Orderly (deliveries hiddenTrace) :=
    orderly_of_inits (by decide) (by decide) (by decide)
  have hlive : ∃ pid, Launched GameList.empty (deliveries hiddenTrace) pid ∧
      ¬Exited (deliveries hiddenTrace) pid := by
    refine ⟨100, ?_, ?_⟩
    · unfold Launched
      decide
    · unfold Exited
      decide
  have hgame := (h .empty liveTracker hiddenTrace (by decide) (by decide) horderly).mpr hlive
  have hnone : bpfGame (bpfPolls .empty hiddenTrace liveTracker) = false := by
    decide
  exact Bool.noConfusion (hnone.symm.trans hgame)

/-- What the counter knows where only games exit. -/
theorem bpfGame_spec_gamesTrace :
    (bpfGame (bpfPolls .empty gamesTrace liveTracker) = true ↔
      ∃ t, t <:+ deliveries gamesTrace ∧
        t.countP Delivery.isExit < t.countP (Delivery.isLaunch .empty)) ∧
    (bpfGame (bpfPolls .empty gamesTrace liveTracker) = true ↔
      ∃ pid, Launched .empty (deliveries gamesTrace) pid ∧
        ¬Exited (deliveries gamesTrace) pid) := by
  have horderly : Orderly (deliveries gamesTrace) :=
    orderly_of_inits (by decide) (by decide) (by decide)
  have honly : pidsOf Delivery.isExit (deliveries gamesTrace) ⊆
      pidsOf (Delivery.isLaunch .empty) (deliveries gamesTrace) := by
    decide
  have hspec := bpfGame_spec .empty (b := liveTracker) (by decide) (by decide) gamesTrace
  exact ⟨hspec.1, hspec.2.2 horderly fun pid hpid => honly hpid⟩

end X3D
