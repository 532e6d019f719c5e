import Mathlib

/-!
# Machines driven by inputs

A `Machine σ ι` has initial states and a partial, deterministic step: an input that is not
enabled in a state has no successor there. All nondeterminism (the order of requests, the
outcomes of system calls) sits in the inputs, so a run is a list of inputs.

Two predicates speak about a whole run from a state:

* `Along P is s`: every state visited by the run, the first and the last included, has `P`;
* `Guarded G is s`: every step of the run is taken from a state where its input satisfies `G`.

`along_iff_guarded` relates them. If `P` holds at the start and a step out of a `P`-state
leads to a `P`-state exactly when the input satisfies the guard, then `P` holds along the run
exactly when every step of the run is guarded.
-/

namespace X3D

/-- A set of initial states and a partial step function. -/
structure Machine (σ ι : Type*) where
  /-- The states a run may start from. -/
  init : σ → Prop
  /-- The successor under an input, if the input is enabled. -/
  step : ι → σ → Option σ

namespace Machine

variable {σ ι : Type*} (M : Machine σ ι)

/-- The state after a list of inputs, if each of them was enabled. -/
def run : List ι → σ → Option σ
  | [], s => some s
  | i :: is, s => (M.step i s).bind (run is)

/-- A state some run from an initial state ends in. -/
def Reachable (s : σ) : Prop :=
  ∃ s₀ is, M.init s₀ ∧ M.run is s₀ = some s

/-- Every state visited by the run satisfies `P`. -/
def Along (P : σ → Prop) : List ι → σ → Prop
  | [], s => P s
  | i :: is, s => P s ∧ ∀ s', M.step i s = some s' → Along P is s'

/-- Every step of the run is taken from a state where its input satisfies `G`. -/
def Guarded (G : ι → σ → Prop) : List ι → σ → Prop
  | [], _ => True
  | i :: is, s => ∀ s', M.step i s = some s' → G i s ∧ Guarded G is s'

variable {M} {P : σ → Prop} {G : ι → σ → Prop}

@[simp] theorem run_nil (s : σ) : M.run [] s = some s := rfl

theorem run_cons_eq_some {i : ι} {is : List ι} {s s' : σ} :
    M.run (i :: is) s = some s' ↔ ∃ t, M.step i s = some t ∧ M.run is t = some s' :=
  Option.bind_eq_some_iff

theorem run_append_eq_some {is js : List ι} {s s' : σ} :
    M.run (is ++ js) s = some s' ↔ ∃ t, M.run is s = some t ∧ M.run js t = some s' := by
  induction is generalizing s with
  | nil => simp
  | cons i is ih =>
    rw [List.cons_append, run_cons_eq_some]
    constructor
    · rintro ⟨t, ht, hrest⟩
      obtain ⟨u, hu, hjs⟩ := ih.mp hrest
      exact ⟨u, run_cons_eq_some.mpr ⟨t, ht, hu⟩, hjs⟩
    · rintro ⟨u, hu, hjs⟩
      obtain ⟨t, ht, his⟩ := run_cons_eq_some.mp hu
      exact ⟨t, ht, ih.mpr ⟨u, his, hjs⟩⟩

/-- **A run split at its first visible step.** `label` picks out the inputs that matter; the
run is a stretch without any, the first that matters, and the rest. -/
theorem run_split {κ : Type*} {label : ι → Option κ} {k : κ} {ks : List κ} {is : List ι}
    {s s' : σ} (h : M.run is s = some s') (hlabel : is.filterMap label = k :: ks) :
    ∃ is₁ i is₂ t t', is = is₁ ++ i :: is₂ ∧ (∀ j ∈ is₁, label j = none) ∧ label i = some k ∧
      is₂.filterMap label = ks ∧
      M.run is₁ s = some t ∧ M.step i t = some t' ∧ M.run is₂ t' = some s' := by
  obtain ⟨is₁, i, is₂, rfl, hquiet, hi, hks⟩ := List.filterMap_eq_cons_iff.mp hlabel
  obtain ⟨t, ht, hrest⟩ := run_append_eq_some.mp h
  obtain ⟨t', hstep, hrun⟩ := run_cons_eq_some.mp hrest
  exact ⟨is₁, i, is₂, t, t', rfl, hquiet, hi, hks, ht, hstep, hrun⟩

theorem Reachable.of_init {s : σ} (h : M.init s) : M.Reachable s :=
  ⟨s, [], h, rfl⟩

/-- **Run rule.** What every step under the inputs of a run preserves, the run preserves. -/
theorem run_induction {is : List ι}
    (hstep : ∀ i ∈ is, ∀ s s', P s → M.step i s = some s' → P s') :
    ∀ {s s' : σ}, P s → M.run is s = some s' → P s' := by
  induction is with
  | nil =>
    intro s s' hP h
    obtain rfl := Option.some.inj h
    exact hP
  | cons i is ih =>
    intro s s' hP h
    obtain ⟨t, ht, hrun⟩ := run_cons_eq_some.mp h
    exact ih (fun j hj => hstep j (List.mem_cons_of_mem i hj))
      (hstep i List.mem_cons_self s t hP ht) hrun

/-- **Run rule with guards.** What every guarded step preserves, a guarded run preserves. -/
theorem Guarded.run_induction
    (hstep : ∀ i s s', G i s → P s → M.step i s = some s' → P s') {is : List ι} :
    ∀ {s s' : σ}, M.Guarded G is s → P s → M.run is s = some s' → P s' := by
  induction is with
  | nil =>
    intro s s' _ hP h
    obtain rfl := Option.some.inj h
    exact hP
  | cons i is ih =>
    intro s s' hG hP h
    obtain ⟨t, ht, hrun⟩ := run_cons_eq_some.mp h
    obtain ⟨hi, hrest⟩ := hG t ht
    exact ih hrest (hstep i s t hi hP ht) hrun

/-- What holds along a run holds where it ends. -/
theorem Along.of_run {is : List ι} {s s' : σ} (h : M.Along P is s) (hrun : M.run is s = some s') :
    P s' := by
  induction is generalizing s with
  | nil =>
    obtain rfl := Option.some.inj hrun
    exact h
  | cons i is ih =>
    obtain ⟨t, ht, hrest⟩ := run_cons_eq_some.mp hrun
    exact ih (h.2 t ht) hrest

/-- What holds along a run holds where it begins. -/
theorem Along.head {is : List ι} {s : σ} (h : M.Along P is s) : P s := by
  cases is with
  | nil => exact h
  | cons => exact h.1

theorem guarded_congr {G' : ι → σ → Prop} (h : ∀ i s, G i s ↔ G' i s) (is : List ι) (s : σ) :
    M.Guarded G is s ↔ M.Guarded G' is s := by
  induction is generalizing s with
  | nil => exact Iff.rfl
  | cons i is ih =>
    exact forall_congr' fun s' => imp_congr_right fun _ => and_congr (h i s) (ih s')

/-- **Guard rule with an invariant.** If a step out of a `P`-state with the invariant reaches a
`P`-state exactly when its input is guarded, and keeps the invariant then, `P` holds along a run
from such a state exactly when the run is guarded. -/
theorem along_iff_guarded_of_inv {A : σ → Prop} {is : List ι}
    (hstep : ∀ i ∈ is, ∀ s s', P s → A s → M.step i s = some s' →
      (P s' ↔ G i s) ∧ (P s' → A s')) :
    ∀ {s : σ}, P s → A s → (M.Along P is s ↔ M.Guarded G is s) := by
  induction is with
  | nil => exact fun hP _ => ⟨fun _ => trivial, fun _ => hP⟩
  | cons i is ih =>
    intro s hP hA
    have hrest := @ih fun j hj => hstep j (List.mem_cons_of_mem i hj)
    constructor
    · rintro ⟨-, h⟩ s' hs'
      have hP' : P s' := (h s' hs').head
      obtain ⟨hiff, hinv⟩ := hstep i List.mem_cons_self s s' hP hA hs'
      exact ⟨hiff.mp hP', (hrest hP' (hinv hP')).mp (h s' hs')⟩
    · intro h
      refine ⟨hP, fun s' hs' => ?_⟩
      obtain ⟨hG, hguarded⟩ := h s' hs'
      obtain ⟨hiff, hinv⟩ := hstep i List.mem_cons_self s s' hP hA hs'
      have hP' : P s' := hiff.mpr hG
      exact (hrest hP' (hinv hP')).mpr hguarded

/-- **Guard rule.** If a step out of a `P`-state reaches a `P`-state exactly when its input is
guarded, then `P` holds along a run from a `P`-state exactly when the run is guarded. -/
theorem along_iff_guarded
    (hstep : ∀ i s s', P s → M.step i s = some s' → (P s' ↔ G i s)) {is : List ι} {s : σ}
    (hP : P s) : M.Along P is s ↔ M.Guarded G is s :=
  along_iff_guarded_of_inv (A := fun _ => True)
    (fun i _ s s' hP _ hs' => ⟨hstep i s s' hP hs', fun _ => trivial⟩) hP trivial

/-- **Guard rule with an obligation.** If a step out of a `P`-state meets its obligation and reaches
a `P`-state exactly when its input is guarded, then `P` holds along a run from a `P`-state and every
step meets its obligation exactly when the run is guarded. -/
theorem along_and_guarded_iff {C : ι → σ → Prop}
    (hstep : ∀ i s s', P s → M.step i s = some s' → (P s' ∧ C i s ↔ G i s)) {is : List ι} :
    ∀ {s : σ}, P s → (M.Along P is s ∧ M.Guarded C is s ↔ M.Guarded G is s) := by
  induction is with
  | nil => exact fun hP => ⟨fun _ => trivial, fun _ => ⟨hP, trivial⟩⟩
  | cons i is ih =>
    intro s hP
    constructor
    · rintro ⟨⟨-, halong⟩, hC⟩ s' hs'
      have hP' : P s' := (halong s' hs').head
      exact ⟨(hstep i s s' hP hs').mp ⟨hP', (hC s' hs').1⟩,
        (ih hP').mp ⟨halong s' hs', (hC s' hs').2⟩⟩
    · intro h
      have hnext : ∀ s', M.step i s = some s' →
          C i s ∧ M.Along P is s' ∧ M.Guarded C is s' := by
        intro s' hs'
        obtain ⟨hG, hguarded⟩ := h s' hs'
        obtain ⟨hP', hC⟩ := (hstep i s s' hP hs').mpr hG
        exact ⟨hC, (ih hP').mpr hguarded⟩
      exact ⟨⟨hP, fun s' hs' => (hnext s' hs').2.1⟩,
        fun s' hs' => ⟨(hnext s' hs').1, (hnext s' hs').2.2⟩⟩

/-- An invariant that each `P`-step keeps holds with `P` along a run. -/
theorem Along.with_inv {A : σ → Prop} {is : List ι}
    (hstep : ∀ i ∈ is, ∀ s s', P s → A s → M.step i s = some s' → P s' → A s') :
    ∀ {s : σ}, A s → M.Along P is s → M.Along (fun t => P t ∧ A t) is s := by
  induction is with
  | nil => exact fun hA hP => ⟨hP, hA⟩
  | cons i is ih =>
    rintro s hA ⟨hP, h⟩
    refine ⟨⟨hP, hA⟩, fun s' hs' => ?_⟩
    have hP' : P s' := (h s' hs').head
    exact ih (fun j hj => hstep j (List.mem_cons_of_mem i hj))
      (hstep i List.mem_cons_self s s' hP hA hs' hP') (h s' hs')

/-- What holds along a run guards its steps. -/
theorem Along.guarded {is : List ι} (hG : ∀ i ∈ is, ∀ s, P s → G i s) :
    ∀ {s : σ}, M.Along P is s → M.Guarded G is s := by
  induction is with
  | nil => exact fun _ => trivial
  | cons i is ih =>
    rintro s ⟨hP, h⟩ s' hs'
    exact ⟨hG i List.mem_cons_self s hP,
      ih (fun j hj => hG j (List.mem_cons_of_mem i hj)) (h s' hs')⟩

end Machine
end X3D
