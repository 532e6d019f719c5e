import X3DToggle.Lib.Machine

/-!
# Read, clear, write

Processes that update a shared cell without a lock: each reads the cell, clears it when it opens
it for writing, and writes what it made of what it had read. An `Updater` is one such process, by
the effects of its three steps, and `rewriting` is the machine of a family of them, in which the
schedule says whose step is next.

A process that runs alone does in three steps what `Updater.whole` does in one (`run_alone`), so a
schedule under which the calls do not overlap composes them (`run_serial`). Every schedule comes to
an end: each process has at most three steps (`length_le_remaining`).
-/

namespace X3D

/-- A process that updates a cell. -/
structure Updater (α β : Type*) where
  -- what it is going to write, or nothing if it gives up
  prepare : α → Option β
  -- the cell as it leaves it on opening, if that succeeds
  clear : α → Option α
  store : β → α → α

/-- How far a process is. -/
inductive Stage (β : Type*) where
  | start
  | ready (b : β)
  | opened (b : β)
  | done
  deriving DecidableEq

/-- The steps left to a process. -/
def Stage.remaining {β : Type*} : Stage β → ℕ
  | start => 3
  | ready _ => 2
  | opened _ => 1
  | done => 0

namespace Updater

variable {α β : Type*} (u : Updater α β)

/-- The next step of a process. -/
def step : Stage β → α → Option (Stage β × α)
  | .start, x => some (match u.prepare x with
    | none => (.done, x)
    | some b => (.ready b, x))
  | .ready b, x => some (match u.clear x with
    | none => (.done, x)
    | some y => (.opened b, y))
  | .opened b, x => some (.done, u.store b x)
  | .done, _ => none

/-- All the steps of a process at once. -/
def whole (x : α) : α :=
  match u.prepare x with
  | none => x
  | some b =>
    match u.clear x with
    | none => x
    | some y => u.store b y

/-- The steps left to a process at once. -/
def rest : Stage β → α → α
  | .start, x => u.whole x
  | .ready b, x =>
    match u.clear x with
    | none => x
    | some y => u.store b y
  | .opened b, x => u.store b x
  | .done, x => x

/-- A step is the first of those left. -/
theorem rest_of_step {p p' : Stage β} {x x' : α} (h : u.step p x = some (p', x')) :
    u.rest p' x' = u.rest p x := by
  -- each step takes the first of what was left to do, whatever its outcome
  cases p with
  | start =>
    obtain h := Option.some.inj h
    show u.rest p' x' = u.whole x
    unfold whole
    cases hprep : u.prepare x with
    | none =>
      rw [hprep] at h
      obtain ⟨rfl, rfl⟩ := Prod.mk.inj h
      rfl
    | some b =>
      rw [hprep] at h
      obtain ⟨rfl, rfl⟩ := Prod.mk.inj h
      rfl
  | ready b =>
    obtain h := Option.some.inj h
    show u.rest p' x' = match u.clear x with
      | none => x
      | some y => u.store b y
    cases hclear : u.clear x with
    | none =>
      rw [hclear] at h
      obtain ⟨rfl, rfl⟩ := Prod.mk.inj h
      rfl
    | some y =>
      rw [hclear] at h
      obtain ⟨rfl, rfl⟩ := Prod.mk.inj h
      rfl
  | opened b =>
    obtain ⟨rfl, rfl⟩ := Prod.mk.inj (Option.some.inj h)
    rfl
  | done => exact absurd h (by simp [step])

theorem remaining_lt_of_step {p p' : Stage β} {x x' : α} (h : u.step p x = some (p', x')) :
    p'.remaining < p.remaining := by
  cases p with
  | start =>
    obtain ⟨rfl, -⟩ := Prod.mk.inj (Option.some.inj h)
    cases u.prepare x <;> simp [Stage.remaining]
  | ready b =>
    obtain ⟨rfl, -⟩ := Prod.mk.inj (Option.some.inj h)
    cases u.clear x <;> simp [Stage.remaining]
  | opened b =>
    obtain ⟨rfl, -⟩ := Prod.mk.inj (Option.some.inj h)
    simp [Stage.remaining]
  | done => exact absurd h (by simp [step])

end Updater

/-- The cell and the processes. -/
structure Rewriting (ι α β : Type*) where
  cell : α
  stage : ι → Stage β

namespace Rewriting

variable {ι α β : Type*}

/-- Before the first step. -/
def fresh (x : α) : Rewriting ι α β := ⟨x, fun _ => .start⟩

/-- Every process has finished. -/
def Finished (s : Rewriting ι α β) : Prop := ∀ i, s.stage i = .done

end Rewriting

section

variable {ι α β : Type*} [DecidableEq ι]

/-- The machine of a family of processes on a cell. An input is the process whose step is next. -/
def rewriting (u : ι → Updater α β) (x : α) : Machine (Rewriting ι α β) ι where
  init s := s = .fresh x
  step i s := ((u i).step (s.stage i) s.cell).map fun r =>
    ⟨r.2, Function.update s.stage i r.1⟩

variable {u : ι → Updater α β} {x : α} {s t : Rewriting ι α β} {i : ι} {is : List ι}

theorem rewriting_step_eq_some :
    (rewriting u x).step i s = some t ↔ ∃ p y, (u i).step (s.stage i) s.cell = some (p, y) ∧
      t = ⟨y, Function.update s.stage i p⟩ := by
  show Option.map _ _ = _ ↔ _
  rw [Option.map_eq_some_iff]
  constructor
  · rintro ⟨⟨p, y⟩, hstep, rfl⟩
    exact ⟨p, y, hstep, rfl⟩
  · rintro ⟨p, y, hstep, rfl⟩
    exact ⟨(p, y), hstep, rfl⟩

/-- A process the schedule leaves out stays where it is. -/
theorem stage_of_notMem {j : ι} (hj : j ∉ is) (h : (rewriting u x).run is s = some t) :
    t.stage j = s.stage j := by
  refine Machine.run_induction (P := fun r => r.stage j = s.stage j) ?_ rfl h
  intro i hi r r' hr hstep
  obtain ⟨p, y, -, rfl⟩ := rewriting_step_eq_some.mp hstep
  have hne : j ≠ i := fun heq => hj (heq ▸ hi)
  exact (Function.update_of_ne hne _ _).trans hr

/-- **A process alone.** While it is the only one to make steps, what is left to it leads to the
same cell. -/
theorem rest_of_run (his : ∀ j ∈ is, j = i) (h : (rewriting u x).run is s = some t) :
    (u i).rest (t.stage i) t.cell = (u i).rest (s.stage i) s.cell := by
  refine Machine.run_induction
    (P := fun r => (u i).rest (r.stage i) r.cell = (u i).rest (s.stage i) s.cell) ?_ rfl h
  intro j hj r r' hr hstep
  obtain rfl := his j hj
  obtain ⟨p, y, hp, rfl⟩ := rewriting_step_eq_some.mp hstep
  rw [← hr, ← (u j).rest_of_step hp]
  simp

/-- The three steps of a process that does not give up. -/
theorem run_call {b : β} {y : α} (hstart : s.stage i = .start)
    (hprepare : (u i).prepare s.cell = some b) (hclear : (u i).clear s.cell = some y) :
    (rewriting u x).run (List.replicate 3 i) s =
      some ⟨(u i).store b y, Function.update s.stage i .done⟩ := by
  have h1 : (rewriting u x).step i s = some ⟨s.cell, Function.update s.stage i (.ready b)⟩ :=
    rewriting_step_eq_some.mpr ⟨.ready b, s.cell, by simp [hstart, Updater.step, hprepare], rfl⟩
  have h2 : (rewriting u x).step i ⟨s.cell, Function.update s.stage i (.ready b)⟩ =
      some ⟨y, Function.update s.stage i (.opened b)⟩ :=
    rewriting_step_eq_some.mpr ⟨.opened b, y, by simp [Updater.step, hclear], by simp⟩
  have h3 : (rewriting u x).step i ⟨y, Function.update s.stage i (.opened b)⟩ =
      some ⟨(u i).store b y, Function.update s.stage i .done⟩ :=
    rewriting_step_eq_some.mpr ⟨.done, (u i).store b y, by simp [Updater.step], by simp⟩
  refine Machine.run_cons_eq_some.mpr ⟨_, h1, ?_⟩
  refine Machine.run_cons_eq_some.mpr ⟨_, h2, ?_⟩
  exact Machine.run_cons_eq_some.mpr ⟨_, h3, rfl⟩

/-- **Calls one after the other.** Under a schedule that lets each process make its steps before the
next one begins, the cell goes through the whole updates in turn. -/
theorem run_serial (order : List (ι × ℕ)) (hnodup : (order.map Prod.fst).Nodup) :
    ∀ {s t : Rewriting ι α β}, (∀ p ∈ order, s.stage p.1 = .start) →
      (rewriting u x).run (order.flatMap fun p => List.replicate p.2 p.1) s = some t →
      (∀ p ∈ order, t.stage p.1 = .done) →
      t.cell = (order.map Prod.fst).foldl (fun y i => (u i).whole y) s.cell := by
  induction order with
  | nil =>
    intro s t _ h _
    obtain rfl := Option.some.inj h
    rfl
  | cons p order ih =>
    intro s t hstart h hdone
    obtain ⟨i, n⟩ := p
    obtain ⟨hi, hnodup⟩ := List.nodup_cons.mp hnodup
    rw [List.flatMap_cons] at h
    obtain ⟨r, hr, hrest⟩ := Machine.run_append_eq_some.mp h
    have hnot : i ∉ order.flatMap fun p => List.replicate p.2 p.1 := by
      intro hmem
      obtain ⟨q, hq, hiq⟩ := List.mem_flatMap.mp hmem
      exact hi (List.mem_map.mpr ⟨q, hq, (List.eq_of_mem_replicate hiq).symm⟩)
    -- the others have not begun when the first one is done
    have hothers : ∀ q ∈ order, r.stage q.1 = .start := by
      intro q hq
      have hne : q.1 ∉ List.replicate n i := fun hmem =>
        hi (List.mem_map.mpr ⟨q, hq, List.eq_of_mem_replicate hmem⟩)
      rw [stage_of_notMem hne hr]
      exact hstart q (List.mem_cons_of_mem _ hq)
    have hcell : r.cell = (u i).whole s.cell := by
      have hi' : r.stage i = .done := by
        rw [← stage_of_notMem hnot hrest]
        exact hdone _ List.mem_cons_self
      have hsame := rest_of_run (i := i) (fun j hj => List.eq_of_mem_replicate hj) hr
      rw [hi', hstart _ List.mem_cons_self] at hsame
      exact hsame
    rw [ih hnodup hothers hrest fun q hq => hdone q (List.mem_cons_of_mem _ hq), hcell]
    rfl

/-- **Every schedule ends.** -/
theorem length_le_remaining [Fintype ι] (h : (rewriting u x).run is s = some t) :
    is.length ≤ ∑ i, (s.stage i).remaining := by
  induction is generalizing s with
  | nil => exact Nat.zero_le _
  | cons i is ih =>
    obtain ⟨r, hr, hrest⟩ := Machine.run_cons_eq_some.mp h
    obtain ⟨p, y, hstep, rfl⟩ := rewriting_step_eq_some.mp hr
    have hlt : ∑ j, (Function.update s.stage i p j).remaining < ∑ j, (s.stage j).remaining := by
      refine Finset.sum_lt_sum (fun j _ => ?_) ⟨i, Finset.mem_univ i, ?_⟩
      · by_cases hj : j = i
        · subst hj
          rw [Function.update_self]
          exact ((u j).remaining_lt_of_step hstep).le
        · rw [Function.update_of_ne hj]
      · rw [Function.update_self]
        exact (u i).remaining_lt_of_step hstep
    have hle := ih hrest
    rw [List.length_cons]
    exact hle.trans_lt hlt

end

end X3D
