import CopyTrade.Async.Solo

/-!
# Two executions side by side

A machine whose refusals are exceptions (`Machine.answer`) runs a program to its end
without a script (`Prog.perform`). `Lockstep` relates two such executions: from related
states they return related values, or raise one exception.

* `perform_exec`: what is performed is an execution in which every call that the state
  takes works.
* `lockstep_bind`, `lockstep_tryExcept`, `lockstep_call`: the rules, program text by
  program text.
-/

namespace Async

variable {σ : Sig} {M N : Machine σ} {α β γ δ : Type}

/-- One awaited call, without faults. Where the state refuses it, it raises. -/
def Machine.answer (M : Machine σ) (refusal : σ.Call → σ.Exn) (c : σ.Call) (s : M.State) :
    σ.Reply c × M.State :=
  match M.effect c s with
  | some (a, s') => (.ok a, s')
  | none => (.error (refusal c), s)

namespace Prog

variable {refusal : σ.Call → σ.Exn}

/-- Run a program to its end. -/
def perform (M : Machine σ) (refusal : σ.Call → σ.Exn) :
    Prog σ α → M.State → Except σ.Exn α × M.State
  | done a, s => (.ok a, s)
  | fail e, s => (.error e, s)
  | fresh k, s => (k (M.draw s).1).perform M refusal (M.draw s).2
  | await c k, s => (k (M.answer refusal c s).1).perform M refusal (M.answer refusal c s).2

/-- How a performed program ended. -/
def ending {ε : Type} : Except ε α → Ending ε α
  | .ok a => .returned a
  | .error e => .raised e

/-- **What is performed is an execution**, for the script in which a call works or is refused. -/
theorem perform_exec (p : Prog σ α) : ∀ s : M.State, ∃ (fs : List (Fault σ.Exn)) (o : Outcome M α),
    p.exec? M fs s = some o ∧ o.ending = ending (p.perform M refusal s).1 ∧
      o.state = (p.perform M refusal s).2 := by
  induction p with
  | done a => intro s; exact ⟨[], _, exec_done a, rfl, rfl⟩
  | fail e => intro s; exact ⟨[], _, exec_fail e, rfl, rfl⟩
  | fresh k ih =>
    intro s
    obtain ⟨fs, o, ho, hend, hstate⟩ := ih (M.draw s).1 (M.draw s).2
    exact ⟨fs, o, (exec_fresh k).trans ho, hend, hstate⟩
  | await c k ih =>
    intro s
    obtain ⟨f, hf⟩ : ∃ f, M.serve c f s = some (M.answer refusal c s) := by
      unfold Machine.answer
      cases he : M.effect c s with
      | none => exact ⟨.before (refusal c), rfl⟩
      | some a => exact ⟨.works, Machine.serve_works he⟩
    obtain ⟨fs, o, ho, hend, hstate⟩ := ih (M.answer refusal c s).1 (M.answer refusal c s).2
    refine ⟨f :: fs, o.after [⟨c, (M.answer refusal c s).1⟩], ?_, hend, hstate⟩
    rw [exec_await_cons, hf, Option.bind_some, ho]
    rfl

/-- The rest of a program that returned. -/
def andThen (f : α → M.State → Except σ.Exn β × M.State) :
    Except σ.Exn α × M.State → Except σ.Exn β × M.State
  | (.ok a, s) => f a s
  | (.error e, s) => (.error e, s)

/-- The handler of a program that raised. -/
def orElse (h : σ.Exn → M.State → Except σ.Exn α × M.State) :
    Except σ.Exn α × M.State → Except σ.Exn α × M.State
  | (.ok a, s) => (.ok a, s)
  | (.error e, s) => h e s

theorem perform_bind (p : Prog σ α) (f : α → Prog σ β) : ∀ s : M.State,
    (p >>= f).perform M refusal s =
      andThen (fun a => (f a).perform M refusal) (p.perform M refusal s) := by
  induction p with
  | done a => intro s; rfl
  | fail e => intro s; rfl
  | fresh k ih => intro s; exact ih _ _
  | await c k ih => intro s; exact ih _ _

theorem perform_tryExcept (p : Prog σ α) (h : σ.Exn → Prog σ α) : ∀ s : M.State,
    (p.tryExcept h).perform M refusal s =
      orElse (fun e => (h e).perform M refusal) (p.perform M refusal s) := by
  induction p with
  | done a => intro s; rfl
  | fail e => intro s; rfl
  | fresh k ih => intro s; exact ih _ _
  | await c k ih => intro s; exact ih _ _

end Prog

/-! ## The rules -/

/-- Two ends alike: related values, or one exception. -/
inductive Alike {ε S T : Type} (Q : α → β → S → T → Prop) (X : ε → S → T → Prop) :
    Except ε α × S → Except ε β × T → Prop where
  | returned {a : α} {b : β} {s : S} {t : T} (h : Q a b s t) : Alike Q X (.ok a, s) (.ok b, t)
  | raised {e : ε} {s : S} {t : T} (h : X e s t) : Alike Q X (.error e, s) (.error e, t)

variable {I : M.State → N.State → Prop} {Q : α → β → M.State → N.State → Prop}
  {X : σ.Exn → M.State → N.State → Prop}

/-- From states related by `I`, the two programs end alike. -/
def Lockstep (M N : Machine σ) (refusal : σ.Call → σ.Exn) (I : M.State → N.State → Prop)
    (p : Prog σ α) (q : Prog σ β) (Q : α → β → M.State → N.State → Prop)
    (X : σ.Exn → M.State → N.State → Prop) : Prop :=
  ∀ s t, I s t → Alike Q X (p.perform M refusal s) (q.perform N refusal t)

variable {refusal : σ.Call → σ.Exn} {p : Prog σ α} {q : Prog σ β}

theorem Alike.mono {ε S T : Type} {Q Q' : α → β → S → T → Prop} {X X' : ε → S → T → Prop}
    (hQ : ∀ a b s t, Q a b s t → Q' a b s t) (hX : ∀ e s t, X e s t → X' e s t)
    {x : Except ε α × S} {y : Except ε β × T} (h : Alike Q X x y) : Alike Q' X' x y := by
  cases h with
  | returned h => exact .returned (hQ _ _ _ _ h)
  | raised h => exact .raised (hX _ _ _ h)

theorem Lockstep.mono {I' : M.State → N.State → Prop} {Q' : α → β → M.State → N.State → Prop}
    {X' : σ.Exn → M.State → N.State → Prop} (h : Lockstep M N refusal I p q Q X)
    (hI : ∀ s t, I' s t → I s t) (hQ : ∀ a b s t, Q a b s t → Q' a b s t)
    (hX : ∀ e s t, X e s t → X' e s t) : Lockstep M N refusal I' p q Q' X' :=
  fun s t hst => (h s t (hI s t hst)).mono hQ hX

theorem lockstep_done {a : α} {b : β} (h : ∀ s t, I s t → Q a b s t) :
    Lockstep M N refusal I (.done a) (.done b) Q X := fun s t hst => .returned (h s t hst)

theorem lockstep_fail {e : σ.Exn} (h : ∀ s t, I s t → X e s t) :
    Lockstep M N refusal I (.fail e : Prog σ α) (.fail e : Prog σ β) Q X :=
  fun s t hst => .raised (h s t hst)

/-- **Sequencing.** -/
theorem lockstep_bind {f : α → Prog σ γ} {g : β → Prog σ δ} {T : γ → δ → M.State → N.State → Prop}
    (h : Lockstep M N refusal I p q Q X)
    (hrest : ∀ a b, Lockstep M N refusal (Q a b) (f a) (g b) T X) :
    Lockstep M N refusal I (p >>= f) (q >>= g) T X := by
  intro s t hst
  rw [Prog.perform_bind, Prog.perform_bind]
  have hends := h s t hst
  cases hp : p.perform M refusal s with
  | mk x s' =>
    cases hq : q.perform N refusal t with
    | mk y t' =>
      rw [hp, hq] at hends
      cases hends with
      | returned hQ => exact hrest _ _ _ _ hQ
      | raised hX => exact .raised hX

/-- **`try … except`.** Both handlers are given one exception. -/
theorem lockstep_tryExcept {h : σ.Exn → Prog σ α} {k : σ.Exn → Prog σ β}
    {X' : σ.Exn → M.State → N.State → Prop} (hpq : Lockstep M N refusal I p q Q X)
    (hrest : ∀ e, Lockstep M N refusal (X e) (h e) (k e) Q X') :
    Lockstep M N refusal I (p.tryExcept h) (q.tryExcept k) Q X' := by
  intro s t hst
  rw [Prog.perform_tryExcept, Prog.perform_tryExcept]
  have hends := hpq s t hst
  cases hp : p.perform M refusal s with
  | mk x s' =>
    cases hq : q.perform N refusal t with
    | mk y t' =>
      rw [hp, hq] at hends
      cases hends with
      | returned hQ => exact .returned hQ
      | raised hX => exact hrest _ _ _ hX

/-- **Two calls** that the states take or refuse together, and whose refusals raise alike. -/
theorem lockstep_call {c d : σ.Call} {Q : σ.Ret c → σ.Ret d → M.State → N.State → Prop}
    (href : refusal c = refusal d)
    (h : ∀ s t, I s t →
      Option.Rel (fun a b => Q a.1 b.1 a.2 b.2) (M.effect c s) (N.effect d t))
    (hX : ∀ s t, I s t → X (refusal c) s t) :
    Lockstep M N refusal I (Prog.call c) (Prog.call d) Q X := by
  intro s t hst
  have heff := h s t hst
  unfold Prog.call
  simp only [Prog.perform, Machine.answer]
  cases hM : M.effect c s with
  | none =>
    rw [hM] at heff
    cases hN : N.effect d t with
    | none => rw [← href]; exact .raised (hX s t hst)
    | some b => rw [hN] at heff; cases heff
  | some a =>
    rw [hM] at heff
    cases hN : N.effect d t with
    | none => rw [hN] at heff; cases heff
    | some b =>
      rw [hN] at heff
      cases heff with
      | some hab => exact .returned hab

/-- Two calls that the states take. -/
theorem lockstep_taken {c d : σ.Call} {Q : σ.Ret c → σ.Ret d → M.State → N.State → Prop}
    (h : ∀ s t, I s t → ∃ a s' b t', M.effect c s = some (a, s') ∧ N.effect d t = some (b, t') ∧
      Q a b s' t') :
    Lockstep M N refusal I (Prog.call c) (Prog.call d) Q X := by
  intro s t hst
  obtain ⟨a, s', b, t', hM, hN, hQ⟩ := h s t hst
  unfold Prog.call
  simp only [Prog.perform, Machine.answer, hM, hN]
  exact .returned hQ

/-- A fact that does not depend on the state. -/
theorem lockstep_given {P : Prop} (h : P → Lockstep M N refusal I p q Q X) :
    Lockstep M N refusal (fun s t => P ∧ I s t) p q Q X := fun s t hst => h hst.1 s t hst.2

/-- **Two draws.** -/
theorem lockstep_name {Q : σ.Name → σ.Name → M.State → N.State → Prop}
    (h : ∀ s t, I s t → Q (M.draw s).1 (N.draw t).1 (M.draw s).2 (N.draw t).2) :
    Lockstep M N refusal I Prog.name Prog.name Q X := fun s t hst => .returned (h s t hst)

end Async
