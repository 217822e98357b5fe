import CopyTrade.Async.Prog
import Mathlib.Data.List.Induction

/-!
# Interleaved executions

A `Machine` gives the awaited calls their meaning: each call is one atomic effect
on a shared state. The environment decides how a call goes (`Fault`): it works, it
raises before it took effect, or it raises although it took effect. It also decides
who is next (`Input.turn`), when a further execution starts and when the state moves
on its own; a process that stops is one that gets no further turn.

* `Machine.serve_cases`, `Pool.step_cases`: all that one call and one step can do.
* `Pool.run_inv`: an assertion on the shared state and the trace, kept by every call
  a discipline allows, holds after any run of programs that keep the discipline,
  in any interleaving.
* `Pool.run_allowed`: in such a run every call was allowed when it was made.
* `Pool.run_rise`: the step of a run that brought about what holds at its end.
* `Pool.tally`: a history variable, which the steps of a run move along.
-/

namespace Async

/-- How an awaited call goes. -/
inductive Fault (ε : Type) where
  | works
  | before (e : ε)
  | after (e : ε)
  deriving DecidableEq, Repr

/-- The call takes effect. -/
def Fault.Lands {ε : Type} : Fault ε → Prop
  | .works => True
  | .before _ => False
  | .after _ => True

instance {ε : Type} : DecidablePred (Fault.Lands (ε := ε)) := fun f => by
  cases f <;> unfold Fault.Lands <;> infer_instance

/-- The meaning of the awaited calls. `effect` is `none` where the state refuses
the call, which then can only raise without an effect. -/
structure Machine (σ : Sig) where
  State : Type
  effect : (c : σ.Call) → State → Option (σ.Ret c × State)
  draw : State → σ.Name × State
  Move : Type
  move : Move → State → Option State

variable {σ : Sig} {M : Machine σ} {L : Type}

/-- One awaited call, as the environment lets it go. -/
def Machine.serve (M : Machine σ) (c : σ.Call) (f : Fault σ.Exn) (s : M.State) :
    Option (σ.Reply c × M.State) :=
  match f with
  | .works => (M.effect c s).map fun a => (.ok a.1, a.2)
  | .before e => some (.error e, s)
  | .after e => (M.effect c s).map fun a => (.error e, a.2)

/-- **All that one call can do**: nothing, and raise; or its effect, and answer or raise. -/
theorem Machine.serve_cases {c : σ.Call} {f : Fault σ.Exn} {s s' : M.State} {r : σ.Reply c}
    (h : M.serve c f s = some (r, s')) :
    (∃ e, f = .before e ∧ r = .error e ∧ s' = s) ∨
      (∃ a, M.effect c s = some (a, s') ∧
        (f = .works ∧ r = .ok a ∨ ∃ e, f = .after e ∧ r = .error e)) := by
  cases f with
  | works =>
    obtain ⟨⟨a, t⟩, ha, he⟩ := Option.map_eq_some_iff.1 h
    cases he
    exact Or.inr ⟨a, ha, Or.inl ⟨rfl, rfl⟩⟩
  | before e => cases h; exact Or.inl ⟨e, rfl, rfl, rfl⟩
  | after e =>
    obtain ⟨⟨a, t⟩, ha, he⟩ := Option.map_eq_some_iff.1 h
    cases he
    exact Or.inr ⟨a, ha, Or.inr ⟨e, rfl, rfl⟩⟩

/-- The state after a call: moved by the effect where the call lands, else as it was. -/
theorem Machine.serve_state {c : σ.Call} {f : Fault σ.Exn} {s s' : M.State} {r : σ.Reply c}
    (h : M.serve c f s = some (r, s')) :
    (f.Lands ∧ ∃ a, M.effect c s = some (a, s')) ∨ (¬ f.Lands ∧ s' = s) := by
  rcases serve_cases h with ⟨e, rfl, -, rfl⟩ | ⟨a, ha, ⟨rfl, -⟩ | ⟨e, rfl, -⟩⟩
  · exact Or.inr ⟨id, rfl⟩
  · exact Or.inl ⟨trivial, a, ha⟩
  · exact Or.inl ⟨trivial, a, ha⟩

theorem Machine.serve_works {c : σ.Call} {s s' : M.State} {a : σ.Ret c}
    (h : M.effect c s = some (a, s')) : M.serve c .works s = some (.ok a, s') := by
  unfold serve; rw [h]; rfl

/-- A call that answered normally took effect. -/
theorem Machine.serve_ok {c : σ.Call} {f : Fault σ.Exn} {s s' : M.State} {a : σ.Ret c}
    (h : M.serve c f s = some (.ok a, s')) : f = .works ∧ M.effect c s = some (a, s') := by
  rcases serve_cases h with ⟨e, -, hr, -⟩ | ⟨b, hb, ⟨hf, hr⟩ | ⟨e, -, hr⟩⟩
  · cases hr
  · cases hr; exact ⟨hf, hb⟩
  · cases hr

/-- A call that raised was not let to work. -/
theorem Machine.serve_error {c : σ.Call} {f : Fault σ.Exn} {s s' : M.State} {e : σ.Exn}
    (h : M.serve c f s = some (.error e, s')) : f ≠ .works := by
  rintro rfl
  rcases serve_cases h with ⟨_, hf, -⟩ | ⟨_, -, ⟨-, hr⟩ | ⟨_, hf, -⟩⟩
  · cases hf
  · cases hr
  · cases hf

/-! ## Pools -/

/-- A made call, by whom, with its answer. -/
structure Entry (σ : Sig) where
  who : ℕ
  call : σ.Call
  reply : σ.Reply call

/-- Any number of executions over one shared state. The trace lists the calls made,
the latest first. -/
structure Pool (M : Machine σ) where
  state : M.State
  running : List (Prog σ Unit)
  trace : List (Entry σ)

/-- What the environment may do next. -/
inductive Input (M : Machine σ) where
  | begin (q : Prog σ Unit)
  | turn (i : ℕ) (f : Fault σ.Exn)
  | move (m : M.Move)

namespace Pool

def init (s : M.State) : Pool M := ⟨s, [], []⟩

def step? (p : Pool M) : Input M → Option (Pool M)
  | .begin q => some { p with running := p.running ++ [q] }
  | .turn i f =>
    match p.running[i]? with
    | some (.fresh k) =>
      some { p with state := (M.draw p.state).2, running := p.running.set i (k (M.draw p.state).1) }
    | some (.await c k) =>
      (M.serve c f p.state).map fun a => ⟨a.2, p.running.set i (k a.1), ⟨i, c, a.1⟩ :: p.trace⟩
    | _ => none
  | .move m => (M.move m p.state).map fun s => { p with state := s }

def run? : Pool M → List (Input M) → Option (Pool M)
  | p, [] => some p
  | p, x :: xs => (p.step? x).bind fun p' => p'.run? xs

/-- **All that one step can do.** -/
theorem step_cases {p p' : Pool M} {x : Input M} (h : p.step? x = some p') :
    (∃ q, x = .begin q ∧ p' = { p with running := p.running ++ [q] }) ∨
    (∃ i f k, x = .turn i f ∧ p.running[i]? = some (.fresh k) ∧
      p' = { p with state := (M.draw p.state).2, running := p.running.set i (k (M.draw p.state).1) }) ∨
    (∃ i f c k r s, x = .turn i f ∧ p.running[i]? = some (.await c k) ∧
      M.serve c f p.state = some (r, s) ∧
      p' = ⟨s, p.running.set i (k r), ⟨i, c, r⟩ :: p.trace⟩) ∨
    (∃ m s, x = .move m ∧ M.move m p.state = some s ∧ p' = { p with state := s }) := by
  cases x with
  | begin q => cases h; exact Or.inl ⟨q, rfl, rfl⟩
  | turn i f =>
    simp only [step?] at h
    split at h
    · rename_i k hk
      cases h
      exact Or.inr (Or.inl ⟨i, f, k, rfl, hk, rfl⟩)
    · rename_i c k hk
      obtain ⟨⟨r, s⟩, hs, hp⟩ := Option.map_eq_some_iff.1 h
      exact Or.inr (Or.inr (Or.inl ⟨i, f, c, k, r, s, rfl, hk, hs, hp.symm⟩))
    · -- who has ended gets no further turn
      cases h
  | move m =>
    obtain ⟨s, hs, hp⟩ := Option.map_eq_some_iff.1 h
    exact Or.inr (Or.inr (Or.inr ⟨m, s, rfl, hs, hp.symm⟩))

theorem run_cons {p p' : Pool M} {x : Input M} {xs : List (Input M)}
    (h : p.run? (x :: xs) = some p') : ∃ q, p.step? x = some q ∧ q.run? xs = some p' :=
  Option.bind_eq_some_iff.1 h

theorem run_append (p : Pool M) (xs ys : List (Input M)) :
    p.run? (xs ++ ys) = (p.run? xs).bind fun p' => p'.run? ys := by
  induction xs generalizing p with
  | nil => rfl
  | cons x xs ih =>
    simp only [List.cons_append, run?, Option.bind_assoc]
    congr 1; funext q; exact ih q

/-- A run only adds to the trace. -/
theorem run_trace {p p' : Pool M} {xs : List (Input M)} (h : p.run? xs = some p') :
    p.trace <:+ p'.trace := by
  induction xs generalizing p with
  | nil => cases h; exact List.suffix_refl _
  | cons x xs ih =>
    obtain ⟨q, hq, hr⟩ := run_cons h
    have hstep : p.trace <:+ q.trace := by
      rcases step_cases hq with ⟨_, -, rfl⟩ | ⟨_, _, _, -, -, rfl⟩ | ⟨i, f, c, k, r, s, -, -, -, rfl⟩ |
        ⟨_, _, -, -, rfl⟩
      · exact List.suffix_refl _
      · exact List.suffix_refl _
      · exact List.suffix_cons _ _
      · exact List.suffix_refl _
    exact hstep.trans (ih hr)

/-- A condition on every step of a run, read in the state before the step. -/
def Along (C : Pool M → Input M → Prop) : Pool M → List (Input M) → Prop
  | _, [] => True
  | p, x :: xs => C p x ∧ ∀ q, p.step? x = some q → q.Along C xs

/-- A condition that can be decided at every step can be decided along a run. -/
def Along.decidable {C : Pool M → Input M → Prop} [∀ p x, Decidable (C p x)] :
    ∀ (p : Pool M) (xs : List (Input M)), Decidable (p.Along C xs)
  | _, [] => isTrue trivial
  | p, x :: xs =>
    have : Decidable (∀ q, p.step? x = some q → q.Along C xs) :=
      match h : p.step? x with
      | none => isTrue fun q hq => by cases hq
      | some q =>
        have := Along.decidable (C := C) q xs
        decidable_of_iff (q.Along C xs) ⟨fun hal q' hq' => by cases hq'; exact hal, fun hal => hal q rfl⟩
    inferInstanceAs (Decidable (C p x ∧ _))

instance {C : Pool M → Input M → Prop} [∀ p x, Decidable (C p x)] (p : Pool M)
    (xs : List (Input M)) : Decidable (p.Along C xs) := Along.decidable p xs

theorem along_mono {C D : Pool M → Input M → Prop} (hCD : ∀ p x, C p x → D p x)
    {xs : List (Input M)} : ∀ {p : Pool M}, p.Along C xs → p.Along D xs := by
  induction xs with
  | nil => intro p _; trivial
  | cons x xs ih => intro p h; exact ⟨hCD p x h.1, fun q hq => ih (h.2 q hq)⟩

theorem along_true (p : Pool M) (xs : List (Input M)) : p.Along (fun _ _ => True) xs := by
  induction xs generalizing p with
  | nil => trivial
  | cons x xs ih => exact ⟨trivial, fun q _ => ih q⟩

/-- Two conditions that agree on every step that can be made agree along a run. -/
theorem along_congr {C D : Pool M → Input M → Prop} {p' : Pool M} {xs : List (Input M)}
    (hCD : ∀ p q x, p.step? x = some q → (C p x ↔ D p x)) :
    ∀ {p : Pool M}, p.run? xs = some p' → (p.Along C xs ↔ p.Along D xs) := by
  induction xs with
  | nil => intro p _; exact Iff.rfl
  | cons x xs ih =>
    intro p h
    obtain ⟨q, hq, hr⟩ := run_cons h
    refine and_congr (hCD p q x hq) ⟨fun hal q' hq' => ?_, fun hal q' hq' => ?_⟩
    · have heq : q = q' := Option.some.inj (hq.symm.trans hq')
      subst heq; exact (ih hr).1 (hal q hq)
    · have heq : q = q' := Option.some.inj (hq.symm.trans hq')
      subst heq; exact (ih hr).2 (hal q hq)

/-- Any two states of a run, the earlier and the later one, are related. -/
def Throughout (R : M.State → M.State → Prop) (p : Pool M) (xs : List (Input M)) : Prop :=
  ∀ ys zs rest p₁ p₂, xs = ys ++ (zs ++ rest) → p.run? ys = some p₁ → p₁.run? zs = some p₂ →
    R p₁.state p₂.state

/-- **A preorder on states** holds throughout a run exactly when every step respects it. -/
theorem throughout_iff_along {R : M.State → M.State → Prop} (hrefl : ∀ s, R s s)
    (htrans : ∀ s t u, R s t → R t u → R s u) {p p' : Pool M} {xs : List (Input M)}
    (h : p.run? xs = some p') :
    p.Throughout R xs ↔ p.Along (fun p x => ∀ q, p.step? x = some q → R p.state q.state) xs := by
  induction xs generalizing p with
  | nil =>
    refine ⟨fun _ => trivial, fun _ ys zs rest p₁ p₂ hx h₁ h₂ => ?_⟩
    obtain ⟨rfl, hx'⟩ := List.append_eq_nil_iff.1 hx.symm
    obtain ⟨rfl, -⟩ := List.append_eq_nil_iff.1 hx'
    cases h₁; cases h₂; exact hrefl _
  | cons x xs ih =>
    obtain ⟨q, hq, hr⟩ := run_cons h
    have same : ∀ {q'}, p.step? x = some q' → q' = q := fun h' => Option.some.inj (h'.symm.trans hq)
    have hrun : ∀ ys, p.run? (x :: ys) = q.run? ys := fun ys => by rw [run?, hq, Option.bind_some]
    constructor
    · intro hall
      refine ⟨fun q' hq' => ?_, fun q' hq' => ?_⟩
      · rw [same hq']
        exact hall [] [x] xs p q rfl rfl (hrun [])
      · rw [same hq']
        refine (ih hr).1 fun ys zs rest p₁ p₂ hx h₁ h₂ => ?_
        exact hall (x :: ys) zs rest p₁ p₂ (by rw [hx]; rfl) ((hrun ys).trans h₁) h₂
    · rintro ⟨hstep, hal⟩ ys zs rest p₁ p₂ hx h₁ h₂
      have hrest := (ih hr).2 (hal q hq)
      -- the earlier state comes after the first step, or is the initial one
      cases ys with
      | cons y ys =>
        obtain ⟨rfl, hx'⟩ := List.cons.inj hx
        exact hrest ys zs rest p₁ p₂ hx' ((hrun ys).symm.trans h₁) h₂
      | nil =>
        cases h₁
        cases zs with
        | nil => cases h₂; exact hrefl _
        | cons z zs =>
          obtain ⟨rfl, hx'⟩ := List.cons.inj hx
          exact htrans _ _ _ (hstep q hq)
            (hrest [] zs rest q p₂ hx' rfl ((hrun zs).symm.trans h₂))

theorem along_append {C : Pool M → Input M → Prop} {xs ys : List (Input M)} :
    ∀ {p q : Pool M}, p.run? xs = some q → p.Along C (xs ++ ys) → p.Along C xs ∧ q.Along C ys := by
  induction xs with
  | nil => intro p q h hal; cases h; exact ⟨trivial, hal⟩
  | cons x xs ih =>
    intro p q h hal
    obtain ⟨p₁, hp₁, hr⟩ := run_cons h
    obtain ⟨h1, h2⟩ := ih hr (hal.2 p₁ hp₁)
    refine ⟨⟨hal.1, fun p₂ hp₂ => ?_⟩, h2⟩
    rw [hp₁] at hp₂; cases hp₂; exact h1

/-- **Invariants of runs whose steps meet a condition.** -/
theorem run_inv_along {C : Pool M → Input M → Prop} {I : Pool M → Prop} {ok : Input M → Prop}
    (hstep : ∀ p x q, ok x → I p → C p x → p.step? x = some q → I q) {xs : List (Input M)}
    (hxs : ∀ x ∈ xs, ok x) :
    ∀ {p p' : Pool M}, I p → p.Along C xs → p.run? xs = some p' → I p' := by
  induction xs with
  | nil => intro p p' hp _ h; cases h; exact hp
  | cons x xs ih =>
    intro p p' hp hal h
    obtain ⟨q, hq, hr⟩ := run_cons h
    exact ih (fun y hy => hxs y (List.mem_cons_of_mem _ hy))
      (hstep p x q (hxs x List.mem_cons_self) hp hal.1 hq) (hal.2 q hq) hr

/-- A condition that implies another in the pools of a run, of which `I` is known. -/
theorem along_of_inv {C D : Pool M → Input M → Prop} {I : Pool M → Prop} {ok : Input M → Prop}
    (hI : ∀ p x q, ok x → I p → p.step? x = some q → I q) (hCD : ∀ p x, I p → C p x → D p x)
    {xs : List (Input M)} (hxs : ∀ x ∈ xs, ok x) : ∀ {p : Pool M}, I p → p.Along C xs → p.Along D xs := by
  induction xs with
  | nil => intro p _ _; trivial
  | cons x xs ih =>
    intro p hp h
    refine ⟨hCD p x hp h.1, fun q hq => ?_⟩
    have hIq : I q := hI p x q (hxs x List.mem_cons_self) hp hq
    exact ih (fun y hy => hxs y (List.mem_cons_of_mem x hy)) hIq (h.2 q hq)

/-- Every state of a run satisfies `J`. -/
def Always (J : M.State → Prop) (p : Pool M) (xs : List (Input M)) : Prop :=
  ∀ ys zs p₁, xs = ys ++ zs → p.run? ys = some p₁ → J p₁.state

/-- **An assertion that a step keeps exactly under a condition** holds throughout a run
exactly when the condition holds along it. `I` is what else is known of the pools of the
run, `ok` of their inputs. -/
theorem always_iff_along {J : M.State → Prop} {I : Pool M → Prop} {ok : Input M → Prop}
    {C : Pool M → Input M → Prop} (hI : ∀ p x q, ok x → I p → p.step? x = some q → I q)
    (hstep : ∀ p x q, I p → J p.state → p.step? x = some q → (J q.state ↔ C p x))
    {xs : List (Input M)} {p' : Pool M} (hxs : ∀ x ∈ xs, ok x) :
    ∀ {p : Pool M}, I p → J p.state → p.run? xs = some p' → (p.Always J xs ↔ p.Along C xs) := by
  induction xs with
  | nil =>
    intro p _ hJ _
    refine ⟨fun _ => trivial, fun _ ys zs p₁ hx h₁ => ?_⟩
    obtain ⟨rfl, -⟩ := List.append_eq_nil_iff.1 hx.symm
    cases h₁; exact hJ
  | cons x xs ih =>
    intro p hp hJ h
    obtain ⟨q, hq, hr⟩ := run_cons h
    have hIq := hI p x q (hxs x List.mem_cons_self) hp hq
    have ih' := fun hJq => @ih (fun y hy => hxs y (List.mem_cons_of_mem _ hy)) q hIq hJq hr
    have hrun : ∀ ys, p.run? (x :: ys) = q.run? ys := fun ys => by rw [run?, hq, Option.bind_some]
    constructor
    · intro hall
      have hJq : J q.state := hall [x] xs q rfl (hrun [])
      refine ⟨(hstep p x q hp hJ hq).1 hJq, fun q' hq' => ?_⟩
      have heq : q' = q := Option.some.inj (hq'.symm.trans hq)
      subst heq
      refine (ih' hJq).1 fun ys zs p₁ hx h₁ => ?_
      exact hall (x :: ys) zs p₁ (by rw [hx]; rfl) ((hrun ys).trans h₁)
    · rintro ⟨hC, hal⟩ ys zs p₁ hx h₁
      have hJq : J q.state := (hstep p x q hp hJ hq).2 hC
      cases ys with
      | nil => cases h₁; exact hJ
      | cons y ys =>
        obtain ⟨rfl, hx'⟩ := List.cons.inj hx
        exact (ih' hJq).2 (hal q hq) ys zs p₁ hx' ((hrun ys).symm.trans h₁)

theorem always_snoc {J : M.State → Prop} {p q q' : Pool M} {xs : List (Input M)} {x : Input M}
    (h : p.Always J xs) (hq : p.run? xs = some q) (hx : q.step? x = some q') (hJ : J q'.state) :
    p.Always J (xs ++ [x]) := by
  intro ys zs p₁ heq hr
  rcases List.eq_nil_or_concat zs with rfl | ⟨zs, z, rfl⟩
  · rw [List.append_nil] at heq
    rw [← heq, run_append, hq, Option.bind_some, run?, hx, Option.bind_some, run?] at hr
    cases hr
    exact hJ
  · rw [List.concat_eq_append, ← List.append_assoc] at heq
    obtain ⟨rfl, -⟩ := List.append_inj' heq rfl
    exact h ys zs p₁ rfl hr

/-- A history variable: what the steps of a run make of a value. -/
def tally {G : Type} (next : Pool M → Input M → G → G) : Pool M → List (Input M) → G → G
  | _, [], g => g
  | p, x :: xs, g =>
    match p.step? x with
    | none => g
    | some q => q.tally next xs (next p x g)

/-- **Invariants of runs with a history variable.** -/
theorem run_tally {G : Type} {next : Pool M → Input M → G → G} {I : Pool M → G → Prop}
    {ok : Input M → Prop}
    (hstep : ∀ p x q g, ok x → I p g → p.step? x = some q → I q (next p x g)) {xs : List (Input M)}
    (hxs : ∀ x ∈ xs, ok x) :
    ∀ {p p' : Pool M} {g : G}, I p g → p.run? xs = some p' → I p' (p.tally next xs g) := by
  induction xs with
  | nil => intro p p' g hp h; cases h; exact hp
  | cons x xs ih =>
    intro p p' g hp h
    obtain ⟨q, hq, hr⟩ := run_cons h
    have hI : I q (next p x g) := hstep p x q g (hxs x List.mem_cons_self) hp hq
    rw [tally, hq]
    exact ih (fun y hy => hxs y (List.mem_cons_of_mem _ hy)) hI hr

/-- **The last rise.** What holds after a run and did not before it was brought about by one
of its steps, and holds from there on. -/
theorem run_rise {R : M.State → Prop} {p : Pool M} (h0 : ¬ R p.state) {xs : List (Input M)} :
    ∀ {p' : Pool M}, p.run? xs = some p' → R p'.state →
      ∃ ys x zs p₁ p₂, xs = ys ++ x :: zs ∧ p.run? ys = some p₁ ∧ p₁.step? x = some p₂ ∧
        p₂.run? zs = some p' ∧ ¬ R p₁.state ∧ p₂.Always R zs := by
  induction xs using List.reverseRecOn with
  | nil => intro p' h hR; cases h; exact absurd hR h0
  | append_singleton xs x ih =>
    intro p' h hR
    rw [run_append] at h
    obtain ⟨q, hq, hx⟩ := Option.bind_eq_some_iff.1 h
    obtain ⟨q', hx, hnil⟩ := run_cons hx
    cases hnil
    by_cases hRq : R q.state
    · -- it held before the last step already
      obtain ⟨ys, y, zs, p₁, p₂, rfl, hys, hy, hzs, hnot, hal⟩ := ih hq hRq
      refine ⟨ys, y, zs ++ [x], p₁, p₂, by simp, hys, hy, ?_, hnot, always_snoc hal hzs hx hR⟩
      rw [run_append, hzs, Option.bind_some, run?, hx]
      rfl
    · refine ⟨xs, x, [], q, p', rfl, hq, hx, rfl, hRq, fun ys zs p₁ heq hr => ?_⟩
      obtain ⟨rfl, -⟩ := List.append_eq_nil_iff.1 heq.symm
      cases hr
      exact hR

end Pool

/-! ## Local states along a trace -/

variable {P : Protocol σ L} {l₀ : L}

/-- The local state of execution `i` after a trace: only its own calls move it. -/
def Protocol.at (P : Protocol σ L) (l₀ : L) : List (Entry σ) → ℕ → L
  | [], _ => l₀
  | e :: tr, i => if e.who = i then P.next (P.at l₀ tr i) e.call e.reply else P.at l₀ tr i

theorem Protocol.at_self (tr : List (Entry σ)) (i : ℕ) (c : σ.Call) (r : σ.Reply c) :
    P.at l₀ (⟨i, c, r⟩ :: tr) i = P.next (P.at l₀ tr i) c r := by
  simp [Protocol.at]

theorem Protocol.at_other (tr : List (Entry σ)) {e : Entry σ} {i : ℕ} (h : e.who ≠ i) :
    P.at l₀ (e :: tr) i = P.at l₀ tr i := by
  simp [Protocol.at, h]

/-- An execution that made no call is in the initial local state. -/
theorem Protocol.at_idle {tr : List (Entry σ)} {i : ℕ} (h : ∀ e ∈ tr, e.who ≠ i) :
    P.at l₀ tr i = l₀ := by
  induction tr with
  | nil => rfl
  | cons e tr ih =>
    rw [P.at_other tr (h e List.mem_cons_self)]
    exact ih fun e' he' => h e' (List.mem_cons_of_mem _ he')

/-- Every execution of the pool keeps the discipline from where it stands. -/
structure Pool.OK (P : Protocol σ L) (l₀ : L) (p : Pool M) : Prop where
  keeps : ∀ i (q : Prog σ Unit), p.running[i]? = some q → q.Keeps P (P.at l₀ p.trace i)
  known : ∀ e ∈ p.trace, e.who < p.running.length

theorem Pool.init_ok (s : M.State) : (Pool.init s).OK P l₀ :=
  ⟨by simp [Pool.init], by simp [Pool.init]⟩

/-- Every program the inputs start keeps the discipline. -/
def Started (P : Protocol σ L) (l₀ : L) (xs : List (Input M)) : Prop :=
  ∀ q : Prog σ Unit, Input.begin q ∈ xs → q.Keeps P l₀

namespace Pool

theorem begin_ok {p : Pool M} (hp : p.OK P l₀) {q : Prog σ Unit} (hq : q.Keeps P l₀) :
    ({ p with running := p.running ++ [q] } : Pool M).OK P l₀ := by
  refine ⟨fun i q' h => ?_, fun e he => ?_⟩
  · rcases Nat.lt_or_ge i p.running.length with hi | hi
    · rw [List.getElem?_append_left hi] at h
      exact hp.keeps i q' h
    · rw [List.getElem?_append_right hi, List.getElem?_singleton] at h
      split at h
      · cases h
        -- no call of the trace is by the number it gets
        have hidle : P.at l₀ p.trace i = l₀ :=
          P.at_idle fun e he => Nat.ne_of_lt (Nat.lt_of_lt_of_le (hp.known e he) hi)
        show q.Keeps P (P.at l₀ p.trace i)
        rw [hidle]; exact hq
      · cases h
  · have := hp.known e he
    simp only [List.length_append, List.length_singleton]; omega

theorem fresh_ok {p : Pool M} (hp : p.OK P l₀) {i : ℕ} {k : σ.Name → Prog σ Unit}
    (hi : p.running[i]? = some (.fresh k)) (n : σ.Name) (s : M.State) :
    ({ p with state := s, running := p.running.set i (k n) } : Pool M).OK P l₀ := by
  refine ⟨fun j q h => ?_, fun e he => by simpa using hp.known e he⟩
  rcases eq_or_ne i j with rfl | hne
  · have hlt : i < p.running.length := (List.getElem?_eq_some_iff.1 hi).1
    have hq : q = k n := by simpa [hlt] using h.symm
    subst hq
    exact hp.keeps i _ hi n
  · rw [List.getElem?_set_ne hne] at h
    exact hp.keeps j q h

theorem await_ok {p : Pool M} (hp : p.OK P l₀) {i : ℕ} {c : σ.Call} {k : σ.Reply c → Prog σ Unit}
    (hi : p.running[i]? = some (.await c k)) (r : σ.Reply c) (s : M.State) :
    (⟨s, p.running.set i (k r), ⟨i, c, r⟩ :: p.trace⟩ : Pool M).OK P l₀ := by
  have hlt : i < p.running.length := (List.getElem?_eq_some_iff.1 hi).1
  refine ⟨fun j q h => ?_, fun e he => ?_⟩
  · rcases eq_or_ne i j with rfl | hne
    · have hq : q = k r := by simpa [hlt] using h.symm
      subst hq
      rw [P.at_self]
      exact (hp.keeps i _ hi).2 r
    · rw [List.getElem?_set_ne hne] at h
      rw [P.at_other _ hne]
      exact hp.keeps j q h
  · rcases List.mem_cons.1 he with rfl | he
    · simpa using hlt
    · simpa using hp.known e he

end Pool

/-- An assertion on the shared state and the trace that draws, moves of the
environment and every allowed call keep. -/
structure Invariant (M : Machine σ) (P : Protocol σ L) (l₀ : L)
    (I : M.State → List (Entry σ) → Prop) : Prop where
  draw : ∀ s tr, I s tr → I (M.draw s).2 tr
  move : ∀ s tr m s', I s tr → M.move m s = some s' → I s' tr
  serve : ∀ s tr i c f r s', I s tr → P.allow (P.at l₀ tr i) c → M.serve c f s = some (r, s') →
    I s' (⟨i, c, r⟩ :: tr)

variable {I : M.State → List (Entry σ) → Prop}

/-- One step keeps the discipline. -/
theorem Pool.step_ok {p p' : Pool M} {x : Input M} (hp : p.OK P l₀)
    (hx : ∀ q : Prog σ Unit, x = .begin q → q.Keeps P l₀) (h : p.step? x = some p') : p'.OK P l₀ := by
  rcases step_cases h with ⟨q, rfl, rfl⟩ | ⟨i, f, k, rfl, hi, rfl⟩ |
    ⟨i, f, c, k, r, s, rfl, hi, -, rfl⟩ | ⟨m, s, rfl, -, rfl⟩
  · exact begin_ok hp (hx q rfl)
  · exact fresh_ok hp hi _ _
  · exact await_ok hp hi r s
  · exact ⟨hp.keeps, hp.known⟩

/-- One step keeps the invariant and the discipline. -/
theorem Pool.step_inv (hI : Invariant M P l₀ I) {p p' : Pool M} {x : Input M} (hp : p.OK P l₀)
    (h0 : I p.state p.trace) (hx : ∀ q : Prog σ Unit, x = .begin q → q.Keeps P l₀) (h : p.step? x = some p') :
    I p'.state p'.trace ∧ p'.OK P l₀ := by
  refine ⟨?_, step_ok hp hx h⟩
  rcases step_cases h with ⟨q, rfl, rfl⟩ | ⟨i, f, k, rfl, hi, rfl⟩ |
    ⟨i, f, c, k, r, s, rfl, hi, hs, rfl⟩ | ⟨m, s, rfl, hm, rfl⟩
  · exact h0
  · exact hI.draw _ _ h0
  · exact hI.serve _ _ _ _ _ _ _ h0 (hp.keeps i _ hi).1 hs
  · exact hI.move _ _ _ _ h0 hm

/-- **Invariants of interleaved runs.** -/
theorem Pool.run_inv (hI : Invariant M P l₀ I) {xs : List (Input M)} (hx : Started P l₀ xs) :
    ∀ {p p' : Pool M}, p.OK P l₀ → I p.state p.trace → p.run? xs = some p' →
      I p'.state p'.trace ∧ p'.OK P l₀ := by
  induction xs with
  | nil => intro p p' hp h0 h; cases h; exact ⟨h0, hp⟩
  | cons x xs ih =>
    intro p p' hp h0 h
    obtain ⟨q, hq, hr⟩ := run_cons h
    obtain ⟨h1, h2⟩ := step_inv hI hp h0
      (fun q' hq' => hx q' (by rw [← hq']; exact List.mem_cons_self)) hq
    exact ih (fun q' hq' => hx q' (List.mem_cons_of_mem _ hq')) h2 h1 hr

/-- Every call of the trace was allowed when it was made. -/
def Protocol.Allowed (P : Protocol σ L) (l₀ : L) : List (Entry σ) → Prop
  | [] => True
  | e :: tr => P.allow (P.at l₀ tr e.who) e.call ∧ P.Allowed l₀ tr

theorem Protocol.Allowed.of_append {newer older : List (Entry σ)}
    (h : P.Allowed l₀ (newer ++ older)) : P.Allowed l₀ older := by
  induction newer with
  | nil => exact h
  | cons e tr ih => exact ih h.2

/-- **Every call of a run was allowed when it was made.** -/
theorem Pool.run_allowed {xs : List (Input M)} (hx : Started P l₀ xs) {s : M.State} {p' : Pool M}
    (h : (Pool.init s).run? xs = some p') : P.Allowed l₀ p'.trace :=
  (run_inv (M := M) (I := fun _ tr => P.Allowed l₀ tr)
    ⟨fun _ _ h => h, fun _ _ _ _ h _ => h, fun _ _ _ _ _ _ _ h ha _ => ⟨ha, h⟩⟩
    hx (init_ok s) trivial h).1

end Async
