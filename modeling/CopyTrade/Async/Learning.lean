import CopyTrade.Async.Pool
import Mathlib.Data.Set.Basic

/-!
# What executions know of the shared state

An execution knows of the shared state what its calls have answered, and the others move the
state on in the meantime. What it knows stays true where no call that the system allows undoes it.

* `Learning`: the calls that an execution may make by what it knows, and what an answer teaches.
* `Learning.Sound`: an answer teaches what is true, and no allowed call undoes it.
* `Knows.run`: **in any interleaving** every execution knows only what is true, and what is true
  of a state of the run is true from there on.
* `Knows.calling`: a call that is made is one that true facts allow.
-/

namespace Async

variable {σ : Sig} {M : Machine σ} {F α : Type}

/-- What an execution may call, by the facts that it knows, and the facts that an answer teaches. -/
structure Learning (σ : Sig) (F : Type) where
  allow : Set F → σ.Call → Prop
  learns : (c : σ.Call) → σ.Reply c → Set F

namespace Learning

variable {T : Learning σ F}

/-- As a calling discipline, whose local states are the facts that an execution knows. -/
def discipline (T : Learning σ F) : Protocol σ (Set F) where
  allow := T.allow
  next known c r := known ∪ T.learns c r

/-- One call that the system allows, in a state with `J` of which the caller knows only what is
true, keeps `J` and what is true, and its answer is true, where it goes as `faults` admits. -/
structure Sound (T : Learning σ F) (M : Machine σ) (faults : Fault σ.Exn → Prop)
    (J : M.State → Prop) (Holds : F → M.State → Prop) : Prop where
  draw : ∀ s, J s → J (M.draw s).2 ∧ ∀ a, Holds a s → Holds a (M.draw s).2
  move : ∀ s m s', J s → M.move m s = some s' → J s' ∧ ∀ a, Holds a s → Holds a s'
  keeps : ∀ known c f s r s', T.allow known c → (∀ a ∈ known, Holds a s) → J s → faults f →
    M.serve c f s = some (r, s') → J s' ∧ ∀ a, Holds a s → Holds a s'
  learnt : ∀ known c f s r s', T.allow known c → (∀ a ∈ known, Holds a s) → J s → faults f →
    M.serve c f s = some (r, s') → ∀ a ∈ T.learns c r, Holds a s'

variable {faults : Fault σ.Exn → Prop} {J : M.State → Prop} {Holds : F → M.State → Prop}

/-- A program is begun that keeps the discipline, or a call goes as `faults` admits. -/
def Admits (T : Learning σ F) (faults : Fault σ.Exn → Prop) : Input M → Prop
  | .begin q => q.Keeps T.discipline ∅
  | .turn _ f => faults f
  | .move _ => True

/-- The state of a pool, and what its executions know of it. -/
structure Knows (T : Learning σ F) (J : M.State → Prop) (Holds : F → M.State → Prop)
    (p : Pool M) : Prop where
  state : J p.state
  true_of : ∀ i, ∀ a ∈ T.discipline.at ∅ p.trace i, Holds a p.state
  ok : p.OK T.discipline ∅

theorem Knows.init {s : M.State} (hs : J s) : T.Knows J Holds (Pool.init s) :=
  ⟨hs, fun _ _ ha => (by cases ha), Pool.init_ok s⟩

/-- **One step** keeps what is true, and what is known is true. -/
theorem Knows.step (h : T.Sound M faults J Holds) {p p' : Pool M} (hp : T.Knows J Holds p)
    {x : Input M} (hx : T.Admits faults x) (hstep : p.step? x = some p') :
    T.Knows J Holds p' ∧ ∀ a, Holds a p.state → Holds a p'.state := by
  have hok : p'.OK T.discipline ∅ :=
    Pool.step_ok hp.ok (fun q he => by subst he; exact hx) hstep
  rcases Pool.step_cases hstep with ⟨q, rfl, rfl⟩ | ⟨i, f, k, rfl, hi, rfl⟩ |
    ⟨i, f, c, k, r, s, rfl, hi, hs, rfl⟩ | ⟨m, s, rfl, hm, rfl⟩
  · exact ⟨⟨hp.state, hp.true_of, hok⟩, fun _ ha => ha⟩
  · obtain ⟨hJ, hkeep⟩ := h.draw p.state hp.state
    exact ⟨⟨hJ, fun j a ha => hkeep a (hp.true_of j a ha), hok⟩, hkeep⟩
  · have hallow : T.allow (T.discipline.at ∅ p.trace i) c := (hp.ok.keeps i _ hi).1
    obtain ⟨hJ, hkeep⟩ := h.keeps _ c f p.state r s hallow (hp.true_of i) hp.state hx hs
    refine ⟨⟨hJ, fun j a ha => ?_, hok⟩, hkeep⟩
    rcases eq_or_ne j i with rfl | hne
    · rw [Protocol.at_self] at ha
      rcases ha with ha | ha
      · exact hkeep a (hp.true_of _ a ha)
      · exact h.learnt _ c f p.state r s hallow (hp.true_of _) hp.state hx hs a ha
    · rw [Protocol.at_other p.trace (e := ⟨i, c, r⟩) (Ne.symm hne)] at ha
      exact hkeep a (hp.true_of j a ha)
  · obtain ⟨hJ, hkeep⟩ := h.move p.state m s hp.state hm
    exact ⟨⟨hJ, fun j a ha => hkeep a (hp.true_of j a ha), hok⟩, hkeep⟩

/-- **In any interleaving** every execution knows only what is true, and what is true of a state
of the run is true from there on. -/
theorem Knows.run (h : T.Sound M faults J Holds) {xs : List (Input M)}
    (hxs : ∀ x ∈ xs, T.Admits faults x) : ∀ {p p' : Pool M}, T.Knows J Holds p →
      p.run? xs = some p' → T.Knows J Holds p' ∧ ∀ a, Holds a p.state → Holds a p'.state := by
  induction xs with
  | nil => intro p p' hp hrun; cases hrun; exact ⟨hp, fun _ ha => ha⟩
  | cons x xs ih =>
    intro p p' hp hrun
    obtain ⟨q, hq, hrest⟩ := Pool.run_cons hrun
    obtain ⟨hknows, hkeep⟩ := hp.step h (hxs x List.mem_cons_self) hq
    obtain ⟨hknows', hkeep'⟩ := ih (fun y hy => hxs y (List.mem_cons_of_mem x hy)) hknows hrest
    exact ⟨hknows', fun a ha => hkeep' a (hkeep a ha)⟩

/-- **A call that is made** is one that facts allow which are true. -/
theorem Knows.calling {p : Pool M} (hp : T.Knows J Holds p) {i : ℕ} {c : σ.Call}
    {k : σ.Reply c → Prog σ Unit} (hi : p.running[i]? = some (.await c k)) :
    ∃ known : Set F, T.allow known c ∧ ∀ a ∈ known, Holds a p.state :=
  ⟨_, (hp.ok.keeps i _ hi).1, hp.true_of i⟩

end Learning

end Async
