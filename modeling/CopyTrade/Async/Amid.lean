import CopyTrade.Async.Solo

/-!
# One execution amid others

`Amid` is the execution of one program while others move the shared state between its
calls, in any way that a relation `R` allows.

* `Prog.Ensures`: what a program makes sure of by calls of one kind, where their answers
  are as they should be (`Rely`); checked program text by program text, like a discipline.
* `Amid.ensures`, `Amid.obeys`: where the others keep an assertion that makes the answers
  so, the program returns what it ensures; and the same under a calling discipline.
* `exec_ensures`, `exec_obeys`: the same for an execution by itself, and what a calling
  discipline says of how it ends.
-/

namespace Async

variable {σ : Sig} {M : Machine σ} {α β L : Type}

/-- The execution of a program from one state to another, with the moves of others before
each of its own. It may stop anywhere. -/
inductive Amid (M : Machine σ) (R : M.State → M.State → Prop) :
    Prog σ α → M.State → Ending σ.Exn α → M.State → Prop where
  | returned (a : α) (s : M.State) : Amid M R (.done a) s (.returned a) s
  | raised (e : σ.Exn) (s : M.State) : Amid M R (.fail e) s (.raised e) s
  | stopped (p : Prog σ α) (s : M.State) : Amid M R p s .stopped s
  | drew {k : σ.Name → Prog σ α} {s s' t : M.State} {e : Ending σ.Exn α} (others : R s s')
      (rest : Amid M R (k (M.draw s').1) (M.draw s').2 e t) : Amid M R (.fresh k) s e t
  | called {c : σ.Call} {k : σ.Reply c → Prog σ α} {s s' u t : M.State} {e : Ending σ.Exn α}
      {f : Fault σ.Exn} {r : σ.Reply c} (others : R s s') (served : M.serve c f s' = some (r, u))
      (rest : Amid M R (k r) u e t) : Amid M R (.await c k) s e t

/-- An execution by itself is one amid others that do nothing. -/
theorem exec_amid {R : M.State → M.State → Prop} (hR : ∀ s, R s s) {p : Prog σ α} :
    ∀ {fs : List (Fault σ.Exn)} {s : M.State} {o : Outcome M α}, p.exec? M fs s = some o →
      Amid M R p s o.ending o.state := by
  induction p with
  | done a => intro fs s o h; rw [Prog.exec_done] at h; cases h; exact .returned a s
  | fail e => intro fs s o h; rw [Prog.exec_fail] at h; cases h; exact .raised e s
  | fresh k ih => intro fs s o h; rw [Prog.exec_fresh] at h; exact .drew (hR s) (ih _ h)
  | await c k ih =>
    intro fs s o h
    rcases Prog.exec_await_cases h with ⟨-, rfl⟩ | ⟨f, fs', r, s', o', -, hs, ho', rfl⟩
    · exact .stopped _ s
    · have hrest : Amid M R (k r) s' o'.ending o'.state := ih r ho'
      exact .called (hR s) hs hrest

/-- What a program may call, and what it may rely on of the answers. -/
structure Rely (σ : Sig) where
  calls : σ.Call → Prop
  answers : (c : σ.Call) → σ.Reply c → Prop

/-- With the calls and the answers of `A`, the program returns only with `Q`, and raises
only with `X`. -/
def Prog.Ensures (A : Rely σ) : Prog σ α → (α → Prop) → (σ.Exn → Prop) → Prop
  | .done a, Q, _ => Q a
  | .fail e, _, X => X e
  | .fresh k, Q, X => ∀ n, (k n).Ensures A Q X
  | .await c k, Q, X => A.calls c ∧ ∀ r, A.answers c r → (k r).Ensures A Q X

namespace Prog

variable {A : Rely σ} {Q Q' : α → Prop} {X X' : σ.Exn → Prop}

theorem Ensures.mono {p : Prog σ α} (hQ : ∀ a, Q a → Q' a) (hX : ∀ e, X e → X' e) :
    p.Ensures A Q X → p.Ensures A Q' X' := by
  induction p with
  | done a => intro h; exact hQ a h
  | fail e => intro h; exact hX e h
  | fresh k ih => intro h n; exact ih n (h n)
  | await c k ih => intro h; exact ⟨h.1, fun r hr => ih r (h.2 r hr)⟩

theorem ensures_bind {p : Prog σ α} {f : α → Prog σ β} {Q : β → Prop} :
    p.Ensures A (fun a => (f a).Ensures A Q X) X → (p >>= f).Ensures A Q X := by
  induction p with
  | done a => intro h; exact h
  | fail e => intro h; exact h
  | fresh k ih => intro h n; exact ih n (h n)
  | await c k ih => intro h; exact ⟨h.1, fun r hr => ih r (h.2 r hr)⟩

theorem ensures_tryExcept {p : Prog σ α} {h : σ.Exn → Prog σ α} :
    p.Ensures A Q (fun e => (h e).Ensures A Q X) → (p.tryExcept h).Ensures A Q X := by
  induction p with
  | done a => intro hp; exact hp
  | fail e => intro hp; exact hp
  | fresh k ih => intro hp n; exact ih n (hp n)
  | await c k ih => intro hp; exact ⟨hp.1, fun r hr => ih r (hp.2 r hr)⟩

theorem ensures_caught {p : Prog σ α} {Q : Except σ.Exn α → Prop} :
    p.Ensures A (fun a => Q (.ok a)) (fun e => Q (.error e)) → p.caught.Ensures A Q X := by
  induction p with
  | done a => intro h; exact h
  | fail e => intro h; exact h
  | fresh k ih => intro h n; exact ih n (h n)
  | await c k ih => intro h; exact ⟨h.1, fun r hr => ih r (h.2 r hr)⟩

theorem ensures_ofExcept {r : Except σ.Exn α} (hok : ∀ a, r = .ok a → Q a)
    (herr : ∀ e, r = .error e → X e) : (ofExcept r).Ensures A Q X := by
  cases r with
  | ok a => exact hok a rfl
  | error e => exact herr e rfl

theorem ensures_call {c : σ.Call} {Q : σ.Ret c → Prop} (hc : A.calls c)
    (hok : ∀ a, A.answers c (.ok a) → Q a) (herr : ∀ e, A.answers c (.error e) → X e) :
    (call c).Ensures A Q X := by
  refine ⟨hc, fun r hr => ?_⟩
  cases r with
  | ok a => exact hok a hr
  | error e => exact herr e hr

/-- A program whose calls a discipline takes no notice of leaves the local state alone. -/
theorem Ensures.obeys {P : Protocol σ L} {l : L} (hcalls : ∀ c, A.calls c → P.allow l c)
    (hnext : ∀ c r, A.calls c → P.next l c r = l) (hanswers : ∀ c r, A.answers c r)
    {p : Prog σ α} :
    p.Ensures A Q X → p.Obeys P l (fun l' a => l' = l ∧ Q a) fun l' e => l' = l ∧ X e := by
  induction p with
  | done a => intro h; exact ⟨rfl, h⟩
  | fail e => intro h; exact ⟨rfl, h⟩
  | fresh k ih => intro h n; exact ih n (h n)
  | await c k ih =>
    intro h
    refine ⟨hcalls c h.1, fun r => ?_⟩
    rw [hnext c r h.1]
    exact ih r (h.2 r (hanswers c r))

/-- **`try … except`, caught as a value,** under a discipline. -/
theorem obeys_caught {P : Protocol σ L} {p : Prog σ α} {Q : L → Except σ.Exn α → Prop}
    {X : L → σ.Exn → Prop} : ∀ {l}, p.Obeys P l (fun l a => Q l (.ok a)) (fun l e => Q l (.error e)) →
      p.caught.Obeys P l Q X := by
  induction p with
  | done a => intro l h; exact h
  | fail e => intro l h; exact h
  | fresh k ih => intro l h n; exact ih n (h n)
  | await c k ih => intro l h; exact ⟨h.1, fun r => ih r (h.2 r)⟩

end Prog

/-- What is said of the end of a program. -/
def Ending.Meets {ε : Type} (Q : α → Prop) (X : ε → Prop) : Ending ε α → Prop
  | .returned a => Q a
  | .raised e => X e
  | .stopped => True

/-- **What a program ensures holds amid others** that keep an assertion under which the
answers are as they should be. -/
theorem Amid.ensures {R : M.State → M.State → Prop} {J : M.State → Prop} {A : Rely σ}
    {Q : α → Prop} {X : σ.Exn → Prop} (hR : ∀ s s', J s → R s s' → J s')
    (hdraw : ∀ s, J s → J (M.draw s).2)
    (hserve : ∀ c f s r s', A.calls c → J s → M.serve c f s = some (r, s') →
      J s' ∧ A.answers c r)
    {p : Prog σ α} {s t : M.State} {e : Ending σ.Exn α} (h : Amid M R p s e t) (hs : J s)
    (hp : p.Ensures A Q X) : e.Meets Q X := by
  induction h with
  | returned a s => exact hp
  | raised e s => exact hp
  | stopped p s => trivial
  | drew others rest ih => exact ih (hdraw _ (hR _ _ hs others)) (hp _)
  | called others served rest ih =>
    obtain ⟨hu, hans⟩ := hserve _ _ _ _ _ hp.1 (hR _ _ hs others) served
    exact ih hu (hp.2 _ hans)

/-- **A discipline holds amid others** that keep an assertion about its local state. -/
theorem Amid.obeys {R : M.State → M.State → Prop} {P : Protocol σ L} {J : L → M.State → Prop}
    {Q : L → α → Prop} {X : L → σ.Exn → Prop} (hR : ∀ l s s', J l s → R s s' → J l s')
    (hdraw : ∀ l s, J l s → J l (M.draw s).2)
    (hserve : ∀ l c f s r s', P.allow l c → J l s → M.serve c f s = some (r, s') →
      J (P.next l c r) s')
    {p : Prog σ α} {s t : M.State} {e : Ending σ.Exn α} (h : Amid M R p s e t) :
    ∀ {l}, J l s → p.Obeys P l Q X → ∃ l', J l' t ∧ e.Meets (Q l') (X l') := by
  induction h with
  | returned a s => exact fun hs hp => ⟨_, hs, hp⟩
  | raised e s => exact fun hs hp => ⟨_, hs, hp⟩
  | stopped p s => exact fun hs _ => ⟨_, hs, trivial⟩
  | drew others rest ih => exact fun hs hp => ih (hdraw _ _ (hR _ _ _ hs others)) (hp _)
  | called others served rest ih =>
    exact fun hs hp => ih (hserve _ _ _ _ _ _ hp.1 (hR _ _ _ hs others) served) (hp.2 _)

/-- **What a program ensures holds of an execution by itself** whose answers were as they
should be. -/
theorem exec_ensures {A : Rely σ} {Q : α → Prop} {X : σ.Exn → Prop} {p : Prog σ α} :
    ∀ {fs : List (Fault σ.Exn)} {s : M.State} {o : Outcome M α}, p.exec? M fs s = some o →
      (∀ d ∈ o.calls, A.answers d.call d.reply) → p.Ensures A Q X → o.ending.Meets Q X := by
  induction p with
  | done a => intro fs s o h _ hp; rw [Prog.exec_done] at h; cases h; exact hp
  | fail e => intro fs s o h _ hp; rw [Prog.exec_fail] at h; cases h; exact hp
  | fresh k ih =>
    intro fs s o h hd hp
    rw [Prog.exec_fresh] at h
    exact ih _ h hd (hp _)
  | await c k ih =>
    intro fs s o h hd hp
    rcases Prog.exec_await_cases h with ⟨-, rfl⟩ | ⟨f, fs', r, s', o', -, -, ho', rfl⟩
    · trivial
    · have hr : A.answers c r := hd ⟨c, r⟩ List.mem_cons_self
      have hrest : ∀ d ∈ o'.calls, A.answers d.call d.reply := fun d hd' =>
        hd d (List.mem_cons_of_mem _ hd')
      have hend : o'.ending.Meets Q X := ih r ho' hrest (hp.2 r hr)
      exact hend

/-- An assertion that the calls of a discipline keep holds at the end, and tells what was
answered. -/
theorem exec_inv {P : Protocol σ L} {Q : L → α → Prop} {X : L → σ.Exn → Prop} {J : M.State → Prop}
    {ans : (c : σ.Call) → σ.Reply c → Prop} (hdraw : ∀ s, J s → J (M.draw s).2)
    (hserve : ∀ l c f s r s', P.allow l c → J s → M.serve c f s = some (r, s') → J s' ∧ ans c r)
    {p : Prog σ α} : ∀ {fs : List (Fault σ.Exn)} {s : M.State} {o : Outcome M α} {l : L},
      p.exec? M fs s = some o → p.Obeys P l Q X → J s →
      J o.state ∧ ∀ d ∈ o.calls, ans d.call d.reply := by
  induction p with
  | done a =>
    intro fs s o l h _ hs
    rw [Prog.exec_done] at h
    cases h
    exact ⟨hs, fun d hd => by cases hd⟩
  | fail e =>
    intro fs s o l h _ hs
    rw [Prog.exec_fail] at h
    cases h
    exact ⟨hs, fun d hd => by cases hd⟩
  | fresh k ih =>
    intro fs s o l h hp hs
    rw [Prog.exec_fresh] at h
    exact ih _ h (hp _) (hdraw s hs)
  | await c k ih =>
    intro fs s o l h hp hs
    rcases Prog.exec_await_cases h with ⟨-, rfl⟩ | ⟨f, fs', r, s', o', -, hsv, ho', rfl⟩
    · exact ⟨hs, fun d hd => by cases hd⟩
    · obtain ⟨hs', hr⟩ := hserve l c f s r s' hp.1 hs hsv
      obtain ⟨ht, hans⟩ := ih r ho' (hp.2 r) hs'
      exact ⟨ht, List.forall_mem_cons.2 ⟨hr, hans⟩⟩

/-- The local state of a discipline after the calls made. -/
def Protocol.after (P : Protocol σ L) (l : L) (calls : List (Served σ)) : L :=
  calls.foldl (fun l d => P.next l d.call d.reply) l

/-- **How an execution under a discipline ends.** -/
theorem exec_obeys {P : Protocol σ L} {Q : L → α → Prop} {X : L → σ.Exn → Prop} {p : Prog σ α} :
    ∀ {fs : List (Fault σ.Exn)} {s : M.State} {o : Outcome M α} {l : L},
      p.exec? M fs s = some o → p.Obeys P l Q X →
      o.ending.Meets (Q (P.after l o.calls)) (X (P.after l o.calls)) := by
  induction p with
  | done a => intro fs s o l h hp; rw [Prog.exec_done] at h; cases h; exact hp
  | fail e => intro fs s o l h hp; rw [Prog.exec_fail] at h; cases h; exact hp
  | fresh k ih =>
    intro fs s o l h hp
    rw [Prog.exec_fresh] at h
    exact ih _ h (hp _)
  | await c k ih =>
    intro fs s o l h hp
    rcases Prog.exec_await_cases h with ⟨-, rfl⟩ | ⟨f, fs', r, s', o', -, -, ho', rfl⟩
    · trivial
    · have hend : o'.ending.Meets (Q (P.after (P.next l c r) o'.calls))
          (X (P.after (P.next l c r) o'.calls)) := ih r ho' (hp.2 r)
      exact hend

end Async
