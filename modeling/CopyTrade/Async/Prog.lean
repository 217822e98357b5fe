import Mathlib.Order.Basic
import Mathlib.Tactic.Set

/-!
# Programs of awaited calls

A coroutine is a tree of awaited calls (`Prog`): it ends, raises, draws a fresh
name, or awaits a call and goes on with whatever the call answers, an exception
included. Between two awaited calls nothing else of the program can be observed,
so a tree is all that an interleaving needs to know about the code.

* `Prog.bind`, `Prog.tryExcept`: sequencing and `try … except`.
* `Protocol`, `Prog.Obeys`: a program keeps a calling discipline. The discipline
  reads a local state that only the program's own calls and their answers move, so
  it can be checked once, program text by program text (`obeys_bind`,
  `obeys_call`, `obeys_tryExcept`), and holds in any interleaving (`Async.Pool`).
-/

namespace Async

/-- What a family of programs may do: the awaited calls with their answer types,
the exceptions, and the names they draw. -/
structure Sig where
  Name : Type
  Call : Type
  Ret : Call → Type
  Exn : Type

/-- What an awaited call answers: a value, or the exception it raised. -/
abbrev Sig.Reply (σ : Sig) (c : σ.Call) : Type := Except σ.Exn (σ.Ret c)

/-- A program as the tree of its awaited calls. -/
inductive Prog (σ : Sig) (α : Type) where
  | done (a : α)
  | fail (e : σ.Exn)
  | fresh (k : σ.Name → Prog σ α)
  | await (c : σ.Call) (k : σ.Reply c → Prog σ α)

variable {σ : Sig} {α β L : Type}

namespace Prog

def bind : Prog σ α → (α → Prog σ β) → Prog σ β
  | done a, f => f a
  | fail e, _ => fail e
  | fresh k, f => fresh fun n => (k n).bind f
  | await c k, f => await c fun r => (k r).bind f

instance : Monad (Prog σ) where
  pure := done
  bind := bind

/-- `try: p except Exception as e: h e`. -/
def tryExcept : Prog σ α → (σ.Exn → Prog σ α) → Prog σ α
  | done a, _ => done a
  | fail e, h => h e
  | fresh k, h => fresh fun n => (k n).tryExcept h
  | await c k, h => await c fun r => (k r).tryExcept h

/-- `try: p except Exception`: the value, or the exception caught. -/
def caught : Prog σ α → Prog σ (Except σ.Exn α)
  | done a => done (.ok a)
  | fail e => done (.error e)
  | fresh k => fresh fun n => (k n).caught
  | await c k => await c fun r => (k r).caught

/-- Continue with the answer of a call, or raise what it raised. -/
def ofExcept : Except σ.Exn α → Prog σ α
  | .ok a => done a
  | .error e => fail e

/-- `await c`. -/
def call (c : σ.Call) : Prog σ (σ.Ret c) := await c ofExcept

/-- `try: await c except Exception`: the answer, or the exception caught. -/
def attempt (c : σ.Call) : Prog σ (σ.Reply c) := await c done

/-- Draw a fresh name. -/
def name : Prog σ σ.Name := fresh done

@[simp] theorem pure_eq (a : α) : (pure a : Prog σ α) = done a := rfl

@[simp] theorem bind_done (a : α) (f : α → Prog σ β) : (done a >>= f) = f a := rfl

@[simp] theorem bind_fail (e : σ.Exn) (f : α → Prog σ β) : (fail e >>= f) = fail e := rfl

@[simp] theorem bind_fresh (k : σ.Name → Prog σ α) (f : α → Prog σ β) :
    (fresh k >>= f) = fresh fun n => k n >>= f := rfl

@[simp] theorem bind_await (c : σ.Call) (k : σ.Reply c → Prog σ α) (f : α → Prog σ β) :
    (await c k >>= f) = await c fun r => k r >>= f := rfl

theorem bind_assoc {γ : Type} (p : Prog σ α) (f : α → Prog σ β) (g : β → Prog σ γ) :
    (p >>= f >>= g) = p >>= fun a => f a >>= g := by
  induction p with
  | done a => rfl
  | fail e => rfl
  | fresh k ih => exact congrArg fresh (funext fun n => ih n)
  | await c k ih => exact congrArg (await c) (funext fun r => ih r)

theorem bind_done_right (p : Prog σ α) : (p >>= done) = p := by
  induction p with
  | done a => rfl
  | fail e => rfl
  | fresh k ih => exact congrArg fresh (funext ih)
  | await c k ih => exact congrArg (await c) (funext ih)

@[simp] theorem ofExcept_ok (a : α) : ofExcept (σ := σ) (.ok a) = done a := rfl

@[simp] theorem ofExcept_error (e : σ.Exn) : (ofExcept (.error e) : Prog σ α) = fail e := rfl

@[simp] theorem tryExcept_done (a : α) (h : σ.Exn → Prog σ α) : (done a).tryExcept h = done a := rfl

@[simp] theorem tryExcept_fail (e : σ.Exn) (h : σ.Exn → Prog σ α) : (fail e).tryExcept h = h e := rfl

@[simp] theorem tryExcept_await (c : σ.Call) (k : σ.Reply c → Prog σ α) (h : σ.Exn → Prog σ α) :
    (await c k).tryExcept h = await c fun r => (k r).tryExcept h := rfl

end Prog

/-! ## Calling disciplines -/

/-- A calling discipline over local states `L`: which call is allowed, and how an
answered call moves the local state. -/
structure Protocol (σ : Sig) (L : Type) where
  allow : L → σ.Call → Prop
  next : L → (c : σ.Call) → σ.Reply c → L

/-- From local state `l`, every call of the program is allowed, whatever the calls
before it answered; it ends only in local states with `Q`, raises only in ones with `X`. -/
def Prog.Obeys (P : Protocol σ L) :
    Prog σ α → L → (L → α → Prop) → (L → σ.Exn → Prop) → Prop
  | .done a, l, Q, _ => Q l a
  | .fail e, l, _, X => X l e
  | .fresh k, l, Q, X => ∀ n, (k n).Obeys P l Q X
  | .await c k, l, Q, X => P.allow l c ∧ ∀ r, (k r).Obeys P (P.next l c r) Q X

/-- A program that keeps the discipline from its start, however it ends. -/
def Prog.Keeps (P : Protocol σ L) (l : L) (q : Prog σ Unit) : Prop :=
  q.Obeys P l (fun _ _ => True) (fun _ _ => True)

namespace Prog

variable {P : Protocol σ L} {Q Q' : L → α → Prop} {X X' : L → σ.Exn → Prop}

theorem Obeys.mono {p : Prog σ α} (hQ : ∀ l a, Q l a → Q' l a) (hX : ∀ l e, X l e → X' l e) :
    ∀ {l}, p.Obeys P l Q X → p.Obeys P l Q' X' := by
  induction p with
  | done a => intro l h; exact hQ l a h
  | fail e => intro l h; exact hX l e h
  | fresh k ih => intro l h n; exact ih n (h n)
  | await c k ih => intro l h; exact ⟨h.1, fun r => ih r (h.2 r)⟩

/-- **Sequencing.** -/
theorem obeys_bind {p : Prog σ α} {f : α → Prog σ β} {R : L → β → Prop} :
    ∀ {l}, p.Obeys P l (fun l' a => (f a).Obeys P l' R X) X → (p >>= f).Obeys P l R X := by
  induction p with
  | done a => intro l h; exact h
  | fail e => intro l h; exact h
  | fresh k ih => intro l h n; exact ih n (h n)
  | await c k ih => intro l h; exact ⟨h.1, fun r => ih r (h.2 r)⟩

/-- **`try … except`.** The handler starts in the local state of the raise. -/
theorem obeys_tryExcept {p : Prog σ α} {h : σ.Exn → Prog σ α} :
    ∀ {l}, p.Obeys P l Q (fun l' e => (h e).Obeys P l' Q X) → (p.tryExcept h).Obeys P l Q X := by
  induction p with
  | done a => intro l hp; exact hp
  | fail e => intro l hp; exact hp
  | fresh k ih => intro l hp n; exact ih n (hp n)
  | await c k ih => intro l hp; exact ⟨hp.1, fun r => ih r (hp.2 r)⟩

theorem obeys_ofExcept {r : Except σ.Exn α} {l : L} (hok : ∀ a, r = .ok a → Q l a)
    (herr : ∀ e, r = .error e → X l e) : (ofExcept r).Obeys P l Q X := by
  cases r with
  | ok a => exact hok a rfl
  | error e => exact herr e rfl

/-- **One awaited call.** -/
theorem obeys_call {c : σ.Call} {l : L} {Q : L → σ.Ret c → Prop} (ha : P.allow l c)
    (hok : ∀ a, Q (P.next l c (.ok a)) a) (herr : ∀ e, X (P.next l c (.error e)) e) :
    (call c).Obeys P l Q X := by
  refine ⟨ha, fun r => ?_⟩
  cases r with
  | ok a => exact hok a
  | error e => exact herr e

end Prog

end Async
