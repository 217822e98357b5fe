import CopyTrade.Async.Amid

/-!
# Programs among further calls

A program written for one family of calls runs in a larger one unchanged (`Prog.widen`): the
callers of a function await calls that the function knows nothing of.

* `obeys_widen`: it keeps a discipline of the larger family where it keeps the part of it that
  speaks of its own calls.
* `Obeys.transfer`: from one discipline to another that allows more.
* `Prog.tryFinally`: `try … finally`, whose last block runs however the first one ends.
-/

namespace Async

variable {σ : Sig} {α L : Type}

/-- The signature with the calls of `Call` besides its own. -/
abbrev Sig.widen (σ : Sig) (Call : Type) (Ret : Call → Type) : Sig where
  Name := σ.Name
  Call := σ.Call ⊕ Call
  Ret
    | .inl c => σ.Ret c
    | .inr c => Ret c
  Exn := σ.Exn

variable {Call : Type} {Ret : Call → Type}

namespace Prog

/-- The same program, in the larger signature. -/
def widen : Prog σ α → Prog (σ.widen Call Ret) α
  | done a => done a
  | fail e => fail e
  | fresh k => fresh fun n => (k n).widen
  | await c k => await (σ := σ.widen Call Ret) (.inl c) fun r => (k r).widen

/-- A call of the larger signature. -/
def callWide (c : Call) : Prog (σ.widen Call Ret) (Ret c) :=
  call (σ := σ.widen Call Ret) (.inr c)

end Prog

/-- **From one discipline to another** that allows what the first one does, where the local states
are related and stay so. -/
theorem Prog.Obeys.transfer {L L' : Type} {P : Protocol σ L} {P' : Protocol σ L'} {R : L → L' → Prop}
    (hallow : ∀ l l' c, R l l' → P.allow l c → P'.allow l' c)
    (hnext : ∀ l l' c r, R l l' → P.allow l c → R (P.next l c r) (P'.next l' c r)) {p : Prog σ α}
    {Q : L → α → Prop} {X : L → σ.Exn → Prop} : ∀ {l l'}, R l l' → p.Obeys P l Q X →
      p.Obeys P' l' (fun l' a => ∃ l, R l l' ∧ Q l a) fun l' e => ∃ l, R l l' ∧ X l e := by
  induction p with
  | done a => intro l l' hR h; exact ⟨l, hR, h⟩
  | fail e => intro l l' hR h; exact ⟨l, hR, h⟩
  | fresh k ih => intro l l' hR h n; exact ih n hR (h n)
  | await c k ih =>
    intro l l' hR h
    exact ⟨hallow l l' c hR h.1, fun r => ih r (hnext l l' c r hR h.1) (h.2 r)⟩

/-- A program of whose calls none is forbidden or moves the local state. -/
theorem Prog.obeys_still {P : Protocol σ L} {l : L} (hallow : ∀ c, P.allow l c)
    (hnext : ∀ c r, P.next l c r = l) {p : Prog σ α} :
    p.Obeys P l (fun l' _ => l' = l) fun l' _ => l' = l := by
  induction p with
  | done a => rfl
  | fail e => rfl
  | fresh k ih => exact fun n => ih n
  | await c k ih =>
    refine ⟨hallow c, fun r => ?_⟩
    rw [hnext]
    exact ih r

/-- What a discipline of the larger signature says of the calls of the smaller one. -/
def Protocol.narrow (P : Protocol (σ.widen Call Ret) L) : Protocol σ L where
  allow l c := P.allow l (.inl c)
  next l c r := P.next l (.inl c) r

namespace Prog

variable {P : Protocol (σ.widen Call Ret) L} {Q : L → α → Prop} {X : L → σ.Exn → Prop}

/-- **A program among further calls** keeps what it kept. -/
theorem obeys_widen {p : Prog σ α} :
    ∀ {l : L}, p.Obeys P.narrow l Q X → (p.widen : Prog (σ.widen Call Ret) α).Obeys P l Q X := by
  induction p with
  | done a => intro l h; exact h
  | fail e => intro l h; exact h
  | fresh k ih => intro l h n; exact ih n (h n)
  | await c k ih => intro l h; exact ⟨h.1, fun r => ih r (h.2 r)⟩

end Prog

namespace Prog

/-- `try: p finally: q`: what `q` raises takes the place of how `p` ended. -/
def tryFinally (p : Prog σ α) (q : Prog σ Unit) : Prog σ α := do
  let ended ← p.caught
  q
  ofExcept ended

/-- **`try … finally`**: the last block starts where the first one ended, and the whole ends as
the first one did. -/
theorem obeys_tryFinally {P : Protocol σ L} {p : Prog σ α} {q : Prog σ Unit} {Q : L → α → Prop}
    {X : L → σ.Exn → Prop} {l : L}
    (h : p.Obeys P l (fun l' a => q.Obeys P l' (fun l'' _ => Q l'' a) X)
      fun l' e => q.Obeys P l' (fun l'' _ => X l'' e) X) : (p.tryFinally q).Obeys P l Q X := by
  refine obeys_bind (obeys_caught (h.mono (fun l' a hq => ?_) fun l' e hq => ?_))
  · exact obeys_bind (hq.mono (fun l'' _ hQ => hQ) fun _ _ hX => hX)
  · exact obeys_bind (hq.mono (fun l'' _ hX => hX) fun _ _ hX => hX)

end Prog

end Async
