import CopyTrade.Async.Pool

/-!
# One execution at a time

`Prog.exec?` runs a single program against a script that says how each of its
awaited calls goes. The program stops where the script ends, so the scripts of all
lengths are all the points at which a process can stop.

* `exec_call_bind`, `exec_tryCall_bind`, `exec_attempt_bind`: all that one call of a program
  can do.
-/

namespace Async

/-- How an execution ends: with a value, with an exception, or by stopping. -/
inductive Ending (ε α : Type) where
  | returned (a : α)
  | raised (e : ε)
  | stopped
  deriving DecidableEq, Repr

/-- A made call with its answer. -/
structure Served (σ : Sig) where
  call : σ.Call
  reply : σ.Reply call

/-- The end of an execution: the calls made in order, and the script left over. -/
structure Outcome {σ : Sig} (M : Machine σ) (α : Type) where
  ending : Ending σ.Exn α
  state : M.State
  calls : List (Served σ)
  rest : List (Fault σ.Exn)

/-- How many calls of a script work before the first that does not. -/
def lead {ε : Type} : List (Fault ε) → ℕ
  | .works :: fs => lead fs + 1
  | _ => 0

theorem lead_blocked {ε : Type} {f : Fault ε} (fs : List (Fault ε)) (h : f ≠ .works) :
    lead (f :: fs) = 0 := by
  cases f with
  | works => exact absurd rfl h
  | before e => rfl
  | after e => rfl

variable {σ : Sig} {M : Machine σ} {α β : Type}

namespace Outcome

/-- The same end, after further calls at the front. -/
def after (cs : List (Served σ)) (o : Outcome M α) : Outcome M α := { o with calls := cs ++ o.calls }

@[simp] theorem after_ending (cs : List (Served σ)) (o : Outcome M α) :
    (o.after cs).ending = o.ending := rfl

@[simp] theorem after_state (cs : List (Served σ)) (o : Outcome M α) :
    (o.after cs).state = o.state := rfl

@[simp] theorem after_calls (cs : List (Served σ)) (o : Outcome M α) :
    (o.after cs).calls = cs ++ o.calls := rfl

@[simp] theorem after_rest (cs : List (Served σ)) (o : Outcome M α) :
    (o.after cs).rest = o.rest := rfl

@[simp] theorem after_nil : (after [] : Outcome M α → Outcome M α) = id := rfl

theorem after_after (cs ds : List (Served σ)) (o : Outcome M α) :
    (o.after ds).after cs = o.after (cs ++ ds) := by
  simp [after, List.append_assoc]

end Outcome

namespace Prog

/-- Run a program against a script; `none` where the script lets a call work that
the state refuses. -/
def exec? (M : Machine σ) : Prog σ α → List (Fault σ.Exn) → M.State → Option (Outcome M α)
  | done a, fs, s => some ⟨.returned a, s, [], fs⟩
  | fail e, fs, s => some ⟨.raised e, s, [], fs⟩
  | fresh k, fs, s => (k (M.draw s).1).exec? M fs (M.draw s).2
  | await _ _, [], s => some ⟨.stopped, s, [], []⟩
  | await c k, f :: fs, s =>
    (M.serve c f s).bind fun a => ((k a.1).exec? M fs a.2).map (Outcome.after [⟨c, a.1⟩])

variable {fs : List (Fault σ.Exn)} {s : M.State}

@[simp] theorem exec_done (a : α) : (done a).exec? M fs s = some ⟨.returned a, s, [], fs⟩ := by
  cases fs <;> rfl

@[simp] theorem exec_fail (e : σ.Exn) :
    (fail e : Prog σ α).exec? M fs s = some ⟨.raised e, s, [], fs⟩ := by
  cases fs <;> rfl

@[simp] theorem exec_fresh (k : σ.Name → Prog σ α) :
    (fresh k).exec? M fs s = (k (M.draw s).1).exec? M fs (M.draw s).2 := by
  cases fs <;> rfl

@[simp] theorem exec_await_nil (c : σ.Call) (k : σ.Reply c → Prog σ α) :
    (await c k).exec? M [] s = some ⟨.stopped, s, [], []⟩ := rfl

theorem exec_await_cons (c : σ.Call) (k : σ.Reply c → Prog σ α) (f : Fault σ.Exn) :
    (await c k).exec? M (f :: fs) s =
      (M.serve c f s).bind fun a => ((k a.1).exec? M fs a.2).map (Outcome.after [⟨c, a.1⟩]) := rfl

/-- **All that one awaited call can do**: the process stops at it, or goes on with its answer. -/
theorem exec_await_cases {c : σ.Call} {k : σ.Reply c → Prog σ β} {o : Outcome M β}
    (h : (await c k).exec? M fs s = some o) :
    (fs = [] ∧ o = ⟨.stopped, s, [], []⟩) ∨
    ∃ f fs' r s' o', fs = f :: fs' ∧ M.serve c f s = some (r, s') ∧
      (k r).exec? M fs' s' = some o' ∧ o = o'.after [⟨c, r⟩] := by
  cases fs with
  | nil => cases h; exact Or.inl ⟨rfl, rfl⟩
  | cons f fs =>
    obtain ⟨⟨r, s'⟩, hs, h⟩ := Option.bind_eq_some_iff.1 h
    obtain ⟨o', ho', rfl⟩ := Option.map_eq_some_iff.1 h
    exact Or.inr ⟨f, fs, r, s', o', rfl, hs, ho', rfl⟩

/-- **Execution of one call and what follows**: the process stops at it, the call
answers, or it raises. -/
theorem exec_call_bind {c : σ.Call} {k : σ.Ret c → Prog σ β} {o : Outcome M β}
    (h : (call c >>= k).exec? M fs s = some o) :
    (fs = [] ∧ o = ⟨.stopped, s, [], []⟩) ∨
    (∃ fs' a s' o', fs = .works :: fs' ∧ M.effect c s = some (a, s') ∧
      (k a).exec? M fs' s' = some o' ∧ o = o'.after [⟨c, .ok a⟩]) ∨
    (∃ f fs' e s', fs = f :: fs' ∧ f ≠ .works ∧ M.serve c f s = some (.error e, s') ∧
      o = ⟨.raised e, s', [⟨c, .error e⟩], fs'⟩) := by
  rcases exec_await_cases h with hstop | ⟨f, fs', r, s', o', rfl, hs, ho', rfl⟩
  · exact Or.inl hstop
  cases r with
  | ok a =>
    obtain ⟨rfl, heff⟩ := Machine.serve_ok hs
    exact Or.inr (Or.inl ⟨fs', a, s', o', rfl, heff, ho', rfl⟩)
  | error e =>
    have hfail : (fail e : Prog σ β).exec? M fs' s' = some o' := ho'
    rw [exec_fail] at hfail; cases hfail
    exact Or.inr (Or.inr ⟨f, fs', e, s', rfl, Machine.serve_error hs, hs, rfl⟩)

/-- **Execution of one call.** -/
theorem exec_call {c : σ.Call} {o : Outcome M (σ.Ret c)} (h : (call c).exec? M fs s = some o) :
    (fs = [] ∧ o = ⟨.stopped, s, [], []⟩) ∨
    (∃ fs' a s', fs = .works :: fs' ∧ M.effect c s = some (a, s') ∧
      o = ⟨.returned a, s', [⟨c, .ok a⟩], fs'⟩) ∨
    (∃ f fs' e s', fs = f :: fs' ∧ f ≠ .works ∧ M.serve c f s = some (.error e, s') ∧
      o = ⟨.raised e, s', [⟨c, .error e⟩], fs'⟩) := by
  rw [← bind_done_right (call c)] at h
  rcases exec_call_bind h with hstop | ⟨fs', a, s', o', rfl, heff, ho', rfl⟩ | hraised
  · exact Or.inl hstop
  · rw [exec_done] at ho'; cases ho'
    exact Or.inr (Or.inl ⟨fs', a, s', rfl, heff, rfl⟩)
  · exact Or.inr (Or.inr hraised)

/-- **Execution of a caught call and what follows.** -/
theorem exec_attempt_bind {c : σ.Call} {k : σ.Reply c → Prog σ β} {o : Outcome M β}
    (h : (attempt c >>= k).exec? M fs s = some o) :
    (fs = [] ∧ o = ⟨.stopped, s, [], []⟩) ∨
    ∃ f fs' r s' o', fs = f :: fs' ∧ M.serve c f s = some (r, s') ∧
      (k r).exec? M fs' s' = some o' ∧ o = o'.after [⟨c, r⟩] :=
  exec_await_cases h

/-- On a machine that refuses no call every script can be run. -/
theorem exec_isSome (hM : ∀ c s, ∃ a, M.effect c s = some a) (p : Prog σ α) :
    ∀ fs s, ∃ o, p.exec? M fs s = some o := by
  induction p with
  | done a => intro fs s; exact ⟨_, exec_done a⟩
  | fail e => intro fs s; exact ⟨_, exec_fail e⟩
  | fresh k ih => intro fs s; rw [exec_fresh]; exact ih _ fs _
  | await c k ih =>
    intro fs s
    cases fs with
    | nil => exact ⟨_, rfl⟩
    | cons f fs =>
      obtain ⟨⟨r, s'⟩, hs⟩ : ∃ a, M.serve c f s = some a := by
        obtain ⟨a, ha⟩ := hM c s
        cases f with
        | works => exact ⟨_, Machine.serve_works ha⟩
        | before e => exact ⟨_, rfl⟩
        | after e => exact ⟨(.error e, a.2), by unfold Machine.serve; rw [ha]; rfl⟩
      obtain ⟨o, ho⟩ := ih r fs s'
      rw [exec_await_cons, hs, Option.bind_some, ho]
      exact ⟨_, rfl⟩

/-- A call that works, and what follows. -/
theorem exec_call_works {c : σ.Call} {k : σ.Ret c → Prog σ β} {a : σ.Ret c} {s' : M.State}
    {o : Outcome M β} (he : M.effect c s = some (a, s')) (ho : (k a).exec? M fs s' = some o) :
    (call c >>= k).exec? M (.works :: fs) s = some (o.after [⟨c, .ok a⟩]) := by
  have hs : M.serve c .works s = some (.ok a, s') := Machine.serve_works he
  have ho : (ofExcept (.ok a) >>= k).exec? M fs s' = some o := ho
  unfold call
  rw [bind_await, exec_await_cons, hs, Option.bind_some, ho]
  rfl

/-- **A program that returned, and what follows.** -/
theorem exec_bind_returned {p : Prog σ α} {f : α → Prog σ β} {a : α} {o' : Outcome M β} :
    ∀ {fs : List (Fault σ.Exn)} {s : M.State} {o : Outcome M α}, p.exec? M fs s = some o →
      o.ending = .returned a → (f a).exec? M o.rest o.state = some o' →
      (p >>= f).exec? M fs s = some (o'.after o.calls) := by
  induction p with
  | done b =>
    intro fs s o h ho hf
    rw [exec_done] at h
    cases h
    cases ho
    exact hf
  | fail e =>
    intro fs s o h ho hf
    rw [exec_fail] at h
    cases h
    cases ho
  | fresh k ih =>
    intro fs s o h ho hf
    rw [exec_fresh] at h
    rw [bind_fresh, exec_fresh]
    exact ih _ h ho hf
  | await c k ih =>
    intro fs s o h ho hf
    rcases exec_await_cases h with ⟨-, rfl⟩ | ⟨f', fs', r, s', o₁, rfl, hs, ho₁, rfl⟩
    · cases ho
    · have hrest : (k r >>= f).exec? M fs' s' = some (o'.after o₁.calls) := ih r ho₁ ho hf
      rw [bind_await, exec_await_cons, hs, Option.bind_some, hrest]
      exact congrArg some (Outcome.after_after _ _ _)

/-- A handler does not matter to a program that returned. -/
theorem exec_tryExcept_returned {p : Prog σ α} {h : σ.Exn → Prog σ α} {a : α} :
    ∀ {fs : List (Fault σ.Exn)} {s : M.State} {o : Outcome M α}, p.exec? M fs s = some o →
      o.ending = .returned a → (p.tryExcept h).exec? M fs s = some o := by
  induction p with
  | done b => intro fs s o ho _; exact ho
  | fail e => intro fs s o ho hr; rw [exec_fail] at ho; cases ho; cases hr
  | fresh k ih =>
    intro fs s o ho hr
    rw [exec_fresh] at ho
    have hk : ((fresh k).tryExcept h).exec? M fs s =
        ((k (M.draw s).1).tryExcept h).exec? M fs (M.draw s).2 := exec_fresh _
    rw [hk]
    exact ih _ ho hr
  | await c k ih =>
    intro fs s o ho hr
    rcases exec_await_cases ho with ⟨-, rfl⟩ | ⟨f', fs', r, s', o₁, rfl, hs, ho₁, rfl⟩
    · cases hr
    · rw [tryExcept_await, exec_await_cons, hs, Option.bind_some, ih r ho₁ hr]
      rfl

theorem exec_caught_returned {p : Prog σ α} {a : α} :
    ∀ {fs : List (Fault σ.Exn)} {s : M.State} {o : Outcome M α}, p.exec? M fs s = some o →
      o.ending = .returned a →
      p.caught.exec? M fs s = some ⟨.returned (.ok a), o.state, o.calls, o.rest⟩ := by
  induction p with
  | done b => intro fs s o h ho; rw [exec_done] at h; cases h; cases ho; exact exec_done _
  | fail e => intro fs s o h ho; rw [exec_fail] at h; cases h; cases ho
  | fresh k ih =>
    intro fs s o h ho
    rw [exec_fresh] at h
    have hk : (fresh k).caught.exec? M fs s =
        (k (M.draw s).1).caught.exec? M fs (M.draw s).2 := exec_fresh _
    rw [hk]
    exact ih _ h ho
  | await c k ih =>
    intro fs s o h ho
    rcases exec_await_cases h with ⟨-, rfl⟩ | ⟨f', fs', r, s', o₁, rfl, hs, ho₁, rfl⟩
    · cases ho
    · have hk : (await c k).caught.exec? M (f' :: fs') s = (M.serve c f' s).bind fun a =>
          ((k a.1).caught.exec? M fs' a.2).map (Outcome.after [⟨c, a.1⟩]) := exec_await_cons _ _ _
      rw [hk, hs, Option.bind_some, ih r ho₁ ho]
      rfl

/-- The same for a call in a `try`: where it raises, the handler goes on. -/
theorem exec_tryCall_bind {c : σ.Call} {h : σ.Exn → Prog σ (σ.Ret c)} {k : σ.Ret c → Prog σ β}
    {o : Outcome M β} (ho : ((call c).tryExcept h >>= k).exec? M fs s = some o) :
    (fs = [] ∧ o = ⟨.stopped, s, [], []⟩) ∨
    (∃ fs' a s' o', fs = .works :: fs' ∧ M.effect c s = some (a, s') ∧
      (k a).exec? M fs' s' = some o' ∧ o = o'.after [⟨c, .ok a⟩]) ∨
    (∃ f fs' e s' o', fs = f :: fs' ∧ f ≠ .works ∧ M.serve c f s = some (.error e, s') ∧
      (h e >>= k).exec? M fs' s' = some o' ∧ o = o'.after [⟨c, .error e⟩]) := by
  rcases exec_await_cases ho with hstop | ⟨f, fs', r, s', o', rfl, hs, ho', rfl⟩
  · exact Or.inl hstop
  cases r with
  | ok a =>
    obtain ⟨rfl, heff⟩ := Machine.serve_ok hs
    exact Or.inr (Or.inl ⟨fs', a, s', o', rfl, heff, ho', rfl⟩)
  | error e =>
    exact Or.inr (Or.inr ⟨f, fs', e, s', o', rfl, Machine.serve_error hs, hs, ho', rfl⟩)

end Prog

/-- A made call as an entry of the trace, made by execution `i`. -/
def Served.by (i : ℕ) (c : Served σ) : Entry σ := ⟨i, c.call, c.reply⟩

end Async
