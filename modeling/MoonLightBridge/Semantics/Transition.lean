import Mathlib

/-!
# Labelled transition systems given by a partial step function

A component is described by what one labelled step does to its state, `none`
meaning that the step is not enabled. This file provides runs of such a step
function, reachability, and the two rules every safety proof of the development
uses: an inductive invariant holds after every run, and it still does when the
steps of the run are only assumed to meet a guard.

## Main definitions

* `Transition.run` — execute a list of labels from a state
* `Transition.Reachable` — states some run leads to
* `Transition.MeetsGuard` — every step of a run meets a condition
* `Transition.total` — the sum over the steps of a run

## Main results

* `run_invariant` — a property every step preserves holds after every run
* `MeetsGuard.invariant` — the same for runs whose steps all meet a condition
* `meetsGuard_iff_always` — the condition is necessary if every step that does
  not meet it breaks the property
* `run_add_total` — a quantity changes by what the steps of a run gain and lose
-/

namespace Transition

variable {σ α : Type*}

/-- Execute the labels of `w` in order, failing at the first one not enabled. -/
def run (step : σ → α → Option σ) : σ → List α → Option σ
  | s, [] => some s
  | s, a :: w => (step s a).bind fun t => run step t w

/-- Some run of `step` from `s` ends in `t`. -/
def Reachable (step : σ → α → Option σ) (s t : σ) : Prop :=
  ∃ w, run step s w = some t

variable {step : σ → α → Option σ} {s t u : σ} {a : α} {w : List α}

@[simp] theorem run_nil : run step s [] = some s := rfl

theorem run_cons : run step s (a :: w) = (step s a).bind fun t => run step t w := rfl

theorem run_cons_eq_some :
    run step s (a :: w) = some u ↔ ∃ t, step s a = some t ∧ run step t w = some u := by
  rw [run_cons, Option.bind_eq_some_iff]

theorem run_append (w w' : List α) :
    run step s (w ++ w') = (run step s w).bind fun t => run step t w' := by
  induction w generalizing s with
  | nil => rfl
  | cons a w ih =>
    rw [List.cons_append, run_cons, run_cons, Option.bind_assoc]
    congr 1
    funext t
    exact ih

theorem run_concat_eq_some :
    run step s (w ++ [a]) = some u ↔ ∃ t, run step s w = some t ∧ step t a = some u := by
  rw [run_append, Option.bind_eq_some_iff]
  simp [run_cons]

variable {I : σ → Prop}

/-- A property that every enabled step preserves holds after every run. -/
theorem run_invariant (hstep : ∀ {s a t}, I s → step s a = some t → I t) (h : run step s w = some t)
    (hs : I s) : I t := by
  induction w generalizing s with
  | nil =>
    cases h
    exact hs
  | cons a w ih =>
    obtain ⟨u, hu, hrun⟩ := run_cons_eq_some.mp h
    exact ih hrun (hstep hs hu)

/-- The invariant rule, for reachable states. -/
theorem Reachable.invariant (h : Reachable step s t)
    (hstep : ∀ {s a t}, I s → step s a = some t → I t) (hs : I s) : I t := by
  obtain ⟨w, hw⟩ := h
  exact run_invariant hstep hw hs

/-! ### Runs under a condition -/

/-- Every step of the run meets the condition. -/
def MeetsGuard (step : σ → α → Option σ) (guard : σ → α → Prop) : σ → List α → Prop
  | _, [] => True
  | s, a :: w => guard s a ∧ ∀ t, step s a = some t → MeetsGuard step guard t w

instance decidableMeetsGuard {step : σ → α → Option σ} {guard : σ → α → Prop}
    [hguard : ∀ s a, Decidable (guard s a)] :
    (s : σ) → (w : List α) → Decidable (MeetsGuard step guard s w)
  | _, [] => isTrue trivial
  | s, a :: w =>
    match hguard s a, _h : step s a with
    | isFalse hnot, _ => isFalse fun h => hnot h.1
    | isTrue hmeets, none => isTrue ⟨hmeets, by simp [*]⟩
    | isTrue hmeets, some t =>
      match decidableMeetsGuard t w with
      | isTrue hrest => isTrue ⟨hmeets, by simp [*]⟩
      | isFalse hnot => isFalse fun h => hnot (h.2 t ‹_›)

/-- The invariant rule for runs whose steps all meet a condition. -/
theorem MeetsGuard.invariant {guard : σ → α → Prop}
    (hstep : ∀ {s a t}, guard s a → I s → step s a = some t → I t)
    (hmeets : MeetsGuard step guard s w) (h : run step s w = some t) (hs : I s) : I t := by
  induction w generalizing s with
  | nil =>
    cases h
    exact hs
  | cons a w ih =>
    obtain ⟨u, hu, hrun⟩ := run_cons_eq_some.mp h
    exact ih (hmeets.2 u hu) hrun (hstep hmeets.1 hs hu)

/-- If a step keeps a property exactly when it meets the condition, then the property
holds all along a run exactly when all its steps meet the condition. -/
theorem meetsGuard_iff_always {guard : σ → α → Prop}
    (hkeep : ∀ {s a t}, guard s a → I s → step s a = some t → I t)
    (hbreak : ∀ {s a t}, I s → step s a = some t → ¬ guard s a → ¬ I t) (hs : I s)
    (hrun : run step s w = some t) :
    MeetsGuard step guard s w ↔ ∀ v u, v <+: w → run step s v = some u → I u := by
  induction w generalizing s with
  | nil =>
    refine ⟨fun _ v u hv hu => ?_, fun _ => trivial⟩
    rw [List.prefix_nil.mp hv] at hu
    exact Option.some_inj.mp hu ▸ hs
  | cons a w ih =>
    obtain ⟨m, hm, hrest⟩ := run_cons_eq_some.mp hrun
    constructor
    · -- the empty prefix is the start; a longer one begins with the step `a`
      rintro ⟨hguard, hmeets⟩ v u hv hu
      rcases List.prefix_cons_iff.mp hv with rfl | ⟨v', rfl, hv'⟩
      · exact Option.some_inj.mp hu ▸ hs
      · obtain ⟨m', hm', hu⟩ := run_cons_eq_some.mp hu
        obtain rfl := Option.mem_unique hm hm'
        exact (ih (hkeep hguard hs hm) hrest).mp (hmeets m hm) v' u hv' hu
    · intro hall
      -- the property after one step refutes that the step broke it
      have hI : I m := hall [a] m (List.prefix_append [a] w) (run_cons_eq_some.mpr ⟨m, hm, rfl⟩)
      refine ⟨by_contra fun hnot => hbreak hs hm hnot hI, fun m' hm' => ?_⟩
      obtain rfl := Option.mem_unique hm hm'
      refine (ih hI hrest).mpr fun v u hv hu => ?_
      exact hall (a :: v) u (List.cons_prefix_cons.mpr ⟨rfl, hv⟩)
        (run_cons_eq_some.mpr ⟨m, hm, hu⟩)

/-! ### What a run adds up to -/

/-- The sum over the steps of a run. -/
def total (step : σ → α → Option σ) (weight : σ → α → ℕ) : σ → List α → ℕ
  | _, [] => 0
  | s, a :: w => weight s a + (step s a).elim 0 fun t => total step weight t w

/-- If every step changes a quantity by what it gains and loses, so does every run. -/
theorem run_add_total {f : σ → ℕ} {gain loss : σ → α → ℕ}
    (hstep : ∀ s a t, I s → step s a = some t → I t ∧ f t + loss s a = f s + gain s a)
    (h : run step s w = some t) (hs : I s) :
    I t ∧ f t + total step loss s w = f s + total step gain s w := by
  induction w generalizing s with
  | nil =>
    cases h
    exact ⟨hs, rfl⟩
  | cons a w ih =>
    obtain ⟨u, hu, hrun⟩ := run_cons_eq_some.mp h
    obtain ⟨hI, heq⟩ := hstep s a u hs hu
    obtain ⟨ht, hrest⟩ := ih hrun hI
    refine ⟨ht, ?_⟩
    simp only [total, hu, Option.elim_some]
    omega

end Transition
