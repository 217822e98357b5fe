import CopyTrade.Async.Moments

/-!
# Two pools over shared data

Two pools of executions, of different programs on different machines, where part of what the one
machine holds is what the other one reads. Where the left pool steps, the environment of the right
one brings its state in line; the right pool steps by itself.

* `Coupled`: two pools whose states agree.
* `Coupled.Run`: a run of both, with the inputs of each.
* `Run.left`, `Run.right`: either side of it is a run.
* `Run.split`: where the run of both stands when the right side has come so far.
* `Run.always`: what the states of the left side make true of those of the right one.
* `run?`, `run_sound`: where the states can be compared, a run can be computed.
-/

namespace Async

variable {σ τ : Sig} {M : Machine σ} {N : Machine τ} {R : M.State → N.State → Prop}

/-- Two pools whose states agree. -/
structure Coupled (M : Machine σ) (N : Machine τ) (R : M.State → N.State → Prop) where
  left : Pool M
  right : Pool N
  agrees : R left.state right.state

namespace Coupled

/-- A run of both pools, with the inputs of the left one and of the right one. -/
inductive Run : Coupled M N R → List (Input M) → List (Input N) → Coupled M N R → Prop where
  | nil (p : Coupled M N R) : Run p [] [] p
  | left {p q r : Coupled M N R} {x : Input M} {m : N.Move} {xs : List (Input M)} {ys : List (Input N)}
      (hx : p.left.step? x = some q.left) (hm : p.right.step? (.move m) = some q.right)
      (rest : Run q xs ys r) : Run p (x :: xs) (.move m :: ys) r
  | right {p q r : Coupled M N R} {y : Input N} {xs : List (Input M)} {ys : List (Input N)}
      (hx : q.left = p.left) (hy : p.right.step? y = some q.right)
      (rest : Run q xs ys r) : Run p xs (y :: ys) r

variable {p q : Coupled M N R} {xs : List (Input M)} {ys : List (Input N)}

/-- **The left side** of a run is a run. -/
theorem Run.toLeft (h : Run p xs ys q) : p.left.run? xs = some q.left := by
  induction h with
  | nil p => rfl
  | left hx hm rest ih => rw [Pool.run?, hx, Option.bind_some, ih]
  | right hx hy rest ih => rw [← hx, ih]

/-- **The right side** of a run is a run. -/
theorem Run.toRight (h : Run p xs ys q) : p.right.run? ys = some q.right := by
  induction h with
  | nil p => rfl
  | left hx hm rest ih => rw [Pool.run?, hm, Option.bind_some, ih]
  | right hx hy rest ih => rw [Pool.run?, hy, Option.bind_some, ih]

/-- A run of both, cut where the right side has taken its first inputs. -/
theorem Run.split {as bs : List (Input N)} : ∀ {p : Coupled M N R} {xs : List (Input M)},
    Run p xs (as ++ bs) q → ∃ us vs o, xs = us ++ vs ∧ Run p us as o ∧ Run o vs bs q := by
  induction as with
  | nil => intro p xs h; exact ⟨[], xs, p, rfl, .nil p, h⟩
  | cons y as ih =>
    intro p xs h
    cases h with
    | left hx hm rest =>
      obtain ⟨us, vs, o, rfl, hus, hvs⟩ := ih rest
      exact ⟨_ :: us, vs, o, rfl, .left hx hm hus, hvs⟩
    | right hx hy rest =>
      obtain ⟨us, vs, o, rfl, hus, hvs⟩ := ih rest
      exact ⟨us, vs, o, rfl, .right hx hy hus, hvs⟩

/-- The same, at a state of the right side. -/
theorem Run.at_right {as bs : List (Input N)} {p₁ : Pool N} (h : Run p xs (as ++ bs) q)
    (hp₁ : p.right.run? as = some p₁) :
    ∃ us vs o, xs = us ++ vs ∧ Run p us as o ∧ Run o vs bs q ∧ o.right = p₁ := by
  obtain ⟨us, vs, o, hxs, hus, hvs⟩ := h.split
  have hsame : some o.right = some p₁ := hus.toRight.symm.trans hp₁
  exact ⟨us, vs, o, hxs, hus, hvs, Option.some.inj hsame⟩

/-- **Throughout the right side** holds what the states of the left side make true of it. -/
theorem Run.always {K : N.State → Prop} (h : Run p xs ys q)
    (hK : ∀ us vs (o : Coupled M N R), xs = us ++ vs → p.left.run? us = some o.left →
      o.left.run? vs = some q.left → K o.right.state) : p.right.Always K ys := by
  intro as bs p₁ hys hp₁
  subst hys
  obtain ⟨us, vs, o, hxs, hus, hvs, ho⟩ := h.at_right hp₁
  rw [← ho]
  exact hK us vs o hxs hus.toLeft hvs.toLeft

/-! ## Computing a run -/

/-- Who steps: the left side, and the environment of the right one follows; or the right side. -/
inductive Turn (M : Machine σ) (N : Machine τ) where
  | left (x : Input M) (m : N.Move)
  | right (y : Input N)

def Turn.lefts : List (Turn M N) → List (Input M)
  | [] => []
  | .left x _ :: ts => x :: lefts ts
  | .right _ :: ts => lefts ts

def Turn.rights : List (Turn M N) → List (Input N)
  | [] => []
  | .left _ m :: ts => .move m :: rights ts
  | .right y :: ts => y :: rights ts

variable [∀ s t, Decidable (R s t)]

/-- The next state, where both sides can take the step and agree after it. -/
def step? (p : Coupled M N R) : Turn M N → Option (Coupled M N R)
  | .left x m => (p.left.step? x).bind fun l => (p.right.step? (.move m)).bind fun r =>
    if h : R l.state r.state then some ⟨l, r, h⟩ else none
  | .right y => (p.right.step? y).bind fun r =>
    if h : R p.left.state r.state then some ⟨p.left, r, h⟩ else none

def run? : Coupled M N R → List (Turn M N) → Option (Coupled M N R)
  | p, [] => some p
  | p, t :: ts => (p.step? t).bind fun q => q.run? ts

/-- What is computed is a run. -/
theorem run_sound {ts : List (Turn M N)} : ∀ {p : Coupled M N R}, p.run? ts = some q →
    Run p (Turn.lefts ts) (Turn.rights ts) q := by
  induction ts with
  | nil => intro p h; cases h; exact .nil _
  | cons t ts ih =>
    intro p h
    obtain ⟨o, ho, hrest⟩ := Option.bind_eq_some_iff.1 h
    cases t with
    | left x m =>
      obtain ⟨l, hl, ho⟩ := Option.bind_eq_some_iff.1 ho
      obtain ⟨r, hr, ho⟩ := Option.bind_eq_some_iff.1 ho
      split at ho
      · cases ho
        exact .left hl hr (ih hrest)
      · cases ho
    | right y =>
      obtain ⟨r, hr, ho⟩ := Option.bind_eq_some_iff.1 ho
      split at ho
      · cases ho
        exact .right (q := ⟨p.left, r, _⟩) rfl hr (ih hrest)
      · cases ho

end Coupled

end Async
