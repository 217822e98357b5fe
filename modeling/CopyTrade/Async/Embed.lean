import CopyTrade.Async.Moments
import CopyTrade.Async.Solo
import CopyTrade.Async.Widen

/-!
# Programs inside programs

A program whose calls are answered by programs over other calls is a program over those
(`interpret`). A program can be followed by its history, the calls it made with their answers
(`history`). What it comes to alone it comes to inside a larger program as well
(`widen_history`).

* `run_made`: what is known of the history before a call of a run.
* `Invariant.widen`: an invariant of the smaller machine, where there are further calls.
-/

namespace Async

variable {σ τ : Sig} {α β L : Type}

/-- What answers the draws, the exceptions and the calls of a signature over another. The answer
of a call may be an exception. -/
structure Interpretation (σ τ : Sig) where
  draw : Prog τ σ.Name
  raise : σ.Exn → τ.Exn
  answer : (c : σ.Call) → Prog τ (σ.Reply c)

namespace Prog

/-- The program with its calls answered by programs. -/
def interpret (I : Interpretation σ τ) : Prog σ α → Prog τ α
  | .done a => .done a
  | .fail e => .fail (I.raise e)
  | .fresh k => I.draw >>= fun n => (k n).interpret I
  | .await c k => I.answer c >>= fun r => (k r).interpret I

section

variable {I : Interpretation σ τ}

@[simp] theorem interpret_done (a : α) : (done a : Prog σ α).interpret I = done a := rfl

@[simp] theorem interpret_fail (e : σ.Exn) :
    (fail e : Prog σ α).interpret I = fail (I.raise e) := rfl

theorem interpret_bind (p : Prog σ α) (f : α → Prog σ β) :
    (p >>= f).interpret I = p.interpret I >>= fun a => (f a).interpret I := by
  induction p with
  | done a => rfl
  | fail e => rfl
  | fresh k ih =>
    show (I.draw >>= fun n => (k n >>= f).interpret I) = _
    rw [funext ih]
    exact (bind_assoc _ _ _).symm
  | await c k ih =>
    show (I.answer c >>= fun r => (k r >>= f).interpret I) = _
    rw [funext ih]
    exact (bind_assoc _ _ _).symm

theorem interpret_attempt (c : σ.Call) : (attempt c).interpret I = I.answer c :=
  bind_done_right (I.answer c)

end

end Prog

/-! ## Histories -/

/-- The history of a program as its local state, the latest call first. -/
def history (allow : List (Served σ) → σ.Call → Prop) : Protocol σ (List (Served σ)) where
  allow := allow
  next l c r := ⟨c, r⟩ :: l

/-- A program with no discipline, followed by its history. -/
abbrev Traced (σ : Sig) : Protocol σ (List (Served σ)) := history fun _ _ => True

/-- The history of an execution along a trace. -/
def made (tr : List (Entry σ)) (i : ℕ) : List (Served σ) :=
  tr.filterMap fun e => if e.who = i then some ⟨e.call, e.reply⟩ else none

theorem mem_made {tr : List (Entry σ)} {i : ℕ} {c : σ.Call} {r : σ.Reply c} :
    ⟨c, r⟩ ∈ made tr i ↔ ⟨i, c, r⟩ ∈ tr := by
  unfold made
  rw [List.mem_filterMap]
  constructor
  · rintro ⟨⟨j, c', r'⟩, he, hs⟩
    split at hs
    · rename_i hj
      cases hs; cases hj
      exact he
    · cases hs
  · intro he
    exact ⟨_, he, if_pos rfl⟩

variable {allow : List (Served σ) → σ.Call → Prop}

theorem history_at (tr : List (Entry σ)) (i : ℕ) : (history allow).at [] tr i = made tr i := by
  induction tr with
  | nil => rfl
  | cons e tr ih =>
    by_cases hi : e.who = i
    · subst hi
      rw [(history allow).at_self, ih]
      simp [made, history]
    · rw [(history allow).at_other tr hi, ih]
      simp [made, hi]

/-- **A call of a run** comes after a history that allows it, where the program of its execution
keeps to that. -/
theorem run_made {M : Machine σ} {s : M.State} {xs : List (Input M)} {p : Pool M}
    (h : (Pool.init s).run? xs = some p) {newer : List (Entry σ)} {e : Entry σ}
    {older : List (Entry σ)} (htr : p.trace = newer ++ e :: older) :
    ∃ q, (begun xs)[e.who]? = some q ∧ ∀ allow : List (Served σ) → σ.Call → Prop,
      q.Keeps (history allow) [] → allow (made older e.who) e.call := by
  obtain ⟨q, hq, hcalls⟩ := run_calling h htr
  refine ⟨q, hq, fun allow hkeeps => ?_⟩
  have hallow := hcalls (history allow) [] hkeeps
  rw [history_at] at hallow
  exact hallow

namespace Prog

variable {C : Type} {R : C → Type}

/-- A call of the smaller signature, with its answer. -/
def widenServed (c : Served σ) : Served (σ.widen C R) := ⟨.inl c.call, c.reply⟩

/-- **Inside a larger program** whose discipline does not restrict its calls, a program does what
it does alone. -/
theorem widen_history {allow : List (Served (σ.widen C R)) → (σ.widen C R).Call → Prop}
    (hallow : ∀ l c, allow l (.inl c)) {p : Prog σ α} {before : List (Served (σ.widen C R))}
    {Q : List (Served σ) → α → Prop} {X : List (Served σ) → σ.Exn → Prop} :
    ∀ {l}, p.Obeys (Traced σ) l Q X →
      (p.widen : Prog (σ.widen C R) α).Obeys (history allow) (l.map widenServed ++ before)
        (fun l' a => ∃ own, l' = own.map widenServed ++ before ∧ Q own a)
        (fun l' e => ∃ own, l' = own.map widenServed ++ before ∧ X own e) := by
  induction p with
  | done a => intro l h; exact ⟨l, rfl, h⟩
  | fail e => intro l h; exact ⟨l, rfl, h⟩
  | fresh k ih => intro l h n; exact ih n (h n)
  | await c k ih => intro l h; exact ⟨hallow _ c, fun r => ih r (h.2 r)⟩

end Prog

/-! ## Invariants -/

section

variable {C : Type} {R : C → Type} {P : Protocol σ L} {l₀ : L}

/-- A discipline of the smaller signature, which leaves the further calls free. Narrowed again it
is what it was, so `obeys_widen` is about it. -/
def Protocol.widen (P : Protocol σ L) : Protocol (σ.widen C R) L where
  allow l
    | .inl c => P.allow l c
    | .inr _ => True
  next l
    | .inl c, r => P.next l c r
    | .inr _, _ => l

/-- The calls of the smaller signature along a trace. -/
def inner (tr : List (Entry (σ.widen C R))) : List (Entry σ) :=
  tr.filterMap fun
    | ⟨i, .inl c, r⟩ => some ⟨i, c, r⟩
    | ⟨_, .inr _, _⟩ => none

theorem mem_inner {tr : List (Entry (σ.widen C R))} {i : ℕ} {c : σ.Call} {r : σ.Reply c} :
    ⟨i, c, r⟩ ∈ inner tr ↔ (⟨i, .inl c, r⟩ : Entry (σ.widen C R)) ∈ tr := by
  unfold inner
  rw [List.mem_filterMap]
  constructor
  · rintro ⟨⟨j, c' | d, r'⟩, he, hs⟩
    · cases hs; exact he
    · cases hs
  · intro he
    exact ⟨_, he, rfl⟩

theorem widen_at (tr : List (Entry (σ.widen C R))) (i : ℕ) :
    P.widen.at l₀ tr i = P.at l₀ (inner tr) i := by
  induction tr with
  | nil => rfl
  | cons e tr ih =>
    obtain ⟨j, c | d, r⟩ := e
    · have hcons : inner (⟨j, .inl c, r⟩ :: tr) = ⟨j, c, r⟩ :: inner tr := rfl
      rw [hcons]
      by_cases hj : j = i
      · subst hj
        have hwiden : P.widen.at l₀ (⟨j, .inl c, r⟩ :: tr) j = P.next (P.widen.at l₀ tr j) c r :=
          P.widen.at_self tr j (.inl c) r
        have hself : P.at l₀ (⟨j, c, r⟩ :: inner tr) j = P.next (P.at l₀ (inner tr) j) c r :=
          P.at_self (inner tr) j c r
        rw [hwiden, hself, ih]
      · have hwiden : P.widen.at l₀ (⟨j, .inl c, r⟩ :: tr) i = P.widen.at l₀ tr i :=
          P.widen.at_other tr hj
        rw [hwiden, P.at_other (inner tr) hj, ih]
    · have hcons : inner (⟨j, .inr d, r⟩ :: tr) = inner tr := rfl
      rw [hcons, ← ih]
      by_cases hj : j = i
      · subst hj; exact P.widen.at_self ..
      · exact P.widen.at_other tr hj

variable {M : Machine σ} {I : M.State → List (Entry σ) → Prop}

/-- **An invariant of the smaller machine holds where there are further calls**, if these leave
what it sees of the state alone. -/
theorem Invariant.widen (hI : Invariant M P l₀ I) {N : Machine (σ.widen C R)}
    (view : N.State → M.State) (hdraw : ∀ s, view (N.draw s).2 = (M.draw (view s)).2)
    (hmove : ∀ m s s', N.move m s = some s' → ∃ m', M.move m' (view s) = some (view s'))
    (hinner : ∀ c s a s', N.effect (.inl c) s = some (a, s') →
      M.effect c (view s) = some (a, view s'))
    (hfurther : ∀ d s a s', N.effect (.inr d) s = some (a, s') → view s' = view s) :
    Invariant N P.widen l₀ fun s tr => I (view s) (inner tr) := by
  refine ⟨fun s tr h => ?_, fun s tr m s' h hm => ?_, fun s tr i c f r s' h ha hs => ?_⟩
  · show I (view (N.draw s).2) (inner tr)
    rw [hdraw]
    exact hI.draw _ _ h
  · obtain ⟨m', hm'⟩ := hmove m s s' hm
    exact hI.move _ _ _ _ h hm'
  cases c with
  | inl c =>
    have hserve : M.serve c f (view s) = some (r, view s') := by
      rcases Machine.serve_cases hs with ⟨e, rfl, rfl, rfl⟩ | ⟨a, heffect, hr⟩
      · rfl
      have hview := hinner c s a s' heffect
      rcases hr with ⟨rfl, rfl⟩ | ⟨e, rfl, rfl⟩
      · exact Machine.serve_works hview
      · unfold Machine.serve
        rw [hview]
        rfl
    have hallow : P.allow (P.at l₀ (inner tr) i) c := by
      rw [← widen_at]
      exact ha
    exact hI.serve _ _ _ _ _ _ _ h hallow hserve
  | inr d =>
    have hsame : view s' = view s := by
      rcases Machine.serve_state hs with ⟨-, a, ha⟩ | ⟨-, rfl⟩
      · exact hfurther d s a s' ha
      · rfl
    show I (view s') (inner tr)
    rw [hsame]
    exact h

end

end Async
