import Mathlib.Order.Basic

/-!
# Runs of a step function

A system is a function that takes one step, or refuses the input. Its runs are the
sequences of inputs that it takes from a state.

* `run_inv_along`: what every step keeps under a condition holds after each run whose
  steps meet it.
* `not_along`: the first step at which a condition fails.
-/

namespace Steps

variable {S I : Type} {step? : S → I → Option S}

/-- The state after the inputs; `none` where one of them is refused. -/
def run? (step? : S → I → Option S) : S → List I → Option S
  | s, [] => some s
  | s, x :: xs => (step? s x).bind fun s' => run? step? s' xs

/-- A condition on every step of a run, read in the state before it. -/
def Along (step? : S → I → Option S) (C : S → I → Prop) : S → List I → Prop
  | _, [] => True
  | s, x :: xs => C s x ∧ ∀ s', step? s x = some s' → Along step? C s' xs

theorem run_cons {s t : S} {x : I} {xs : List I} (h : run? step? s (x :: xs) = some t) :
    ∃ s', step? s x = some s' ∧ run? step? s' xs = some t :=
  Option.bind_eq_some_iff.1 h

theorem run_step {s s' : S} {x : I} {xs : List I} (h : step? s x = some s') :
    run? step? s (x :: xs) = run? step? s' xs := by
  rw [run?, h, Option.bind_some]

theorem run_append (s : S) (xs ys : List I) :
    run? step? s (xs ++ ys) = (run? step? s xs).bind fun s' => run? step? s' ys := by
  induction xs generalizing s with
  | nil => rfl
  | cons x xs ih =>
    simp only [List.cons_append, run?, Option.bind_assoc]
    congr 1
    funext s'
    exact ih s'

/-- **Invariants of runs whose steps meet a condition.** -/
theorem run_inv_along {C : S → I → Prop} {J : S → Prop}
    (hstep : ∀ s x s', J s → C s x → step? s x = some s' → J s') {xs : List I} :
    ∀ {s t : S}, J s → Along step? C s xs → run? step? s xs = some t → J t := by
  induction xs with
  | nil =>
    intro s t hs _ h
    cases h
    exact hs
  | cons x xs ih =>
    intro s t hs hal h
    obtain ⟨s', hs', hr⟩ := run_cons h
    have hJ : J s' := hstep s x s' hs hal.1 hs'
    exact ih hJ (hal.2 s' hs') hr

theorem along_true (s : S) (xs : List I) : Along step? (fun _ _ => True) s xs := by
  induction xs generalizing s with
  | nil => trivial
  | cons x xs ih => exact ⟨trivial, fun s' _ => ih s'⟩

theorem along_congr {C D : S → I → Prop} (h : ∀ s x, C s x ↔ D s x) {s : S} {xs : List I} :
    Along step? C s xs ↔ Along step? D s xs := by
  have heq : C = D := by
    funext s x
    exact propext (h s x)
  rw [heq]

/-- **Invariants of runs.** -/
theorem run_inv {J : S → Prop} (hstep : ∀ s x s', J s → step? s x = some s' → J s')
    {xs : List I} {s t : S} (hs : J s) (h : run? step? s xs = some t) : J t :=
  run_inv_along (C := fun _ _ => True) (fun s x s' hJ _ => hstep s x s' hJ) hs (along_true s xs) h

/-- A preorder that every step respects relates the first and the last state of a run. -/
theorem run_le {R : S → S → Prop} (hrefl : ∀ s, R s s) (htrans : ∀ s t u, R s t → R t u → R s u)
    (hstep : ∀ s x s', step? s x = some s' → R s s') {xs : List I} :
    ∀ {s t : S}, run? step? s xs = some t → R s t := by
  induction xs with
  | nil =>
    intro s t h
    cases h
    exact hrefl s
  | cons x xs ih =>
    intro s t h
    obtain ⟨s', hs', hr⟩ := run_cons h
    exact htrans s s' t (hstep s x s' hs') (ih hr)

/-- A run whose condition fails has a first step at which it fails. -/
theorem not_along {C : S → I → Prop} {xs : List I} :
    ∀ {s t : S}, run? step? s xs = some t → ¬ Along step? C s xs →
      ∃ ys x zs s₁ s₂, xs = ys ++ x :: zs ∧ run? step? s ys = some s₁ ∧ ¬ C s₁ x ∧
        step? s₁ x = some s₂ ∧ run? step? s₂ zs = some t := by
  induction xs with
  | nil =>
    intro s t _ hn
    exact absurd trivial hn
  | cons x xs ih =>
    intro s t h hn
    obtain ⟨s', hs', hr⟩ := run_cons h
    by_cases hC : C s x
    · have hrest : ¬ Along step? C s' xs := by
        intro hal
        refine hn ⟨hC, fun s'' hs'' => ?_⟩
        have heq : s' = s'' := Option.some.inj (hs'.symm.trans hs'')
        rw [← heq]
        exact hal
      obtain ⟨ys, y, zs, s₁, s₂, rfl, hys, hy, hstep, hzs⟩ := ih hr hrest
      exact ⟨x :: ys, y, zs, s₁, s₂, rfl, by rw [run_step hs']; exact hys, hy, hstep, hzs⟩
    · exact ⟨[], x, xs, s, s', rfl, rfl, hC, hs', hr⟩

end Steps
