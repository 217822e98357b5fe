import CopyTrade.Async.Pool

/-!
# One execution of a run

`Pool.run_inv` asks one discipline of all programs of a run. Here each execution is held to
what the program it began as keeps, whatever the others are.

* `Protocol.noting`: a discipline with a further local state that takes note of its calls.
* `run_plays`: an execution whose program keeps a discipline keeps it from where it stands,
  in any interleaving.
-/

namespace Async

variable {σ : Sig} {M : Machine σ} {L N α : Type} {P : Protocol σ L} {l₀ : L}

/-- The same calls, with notes about them. -/
def Protocol.noting (P : Protocol σ L) (note : L → N → (c : σ.Call) → σ.Reply c → N) :
    Protocol σ (L × N) where
  allow l c := P.allow l.1 c
  next l c r := (P.next l.1 c r, note l.1 l.2 c r)

theorem noting_at {note : L → N → (c : σ.Call) → σ.Reply c → N} {n₀ : N} (tr : List (Entry σ))
    (i : ℕ) : ((P.noting note).at (l₀, n₀) tr i).1 = P.at l₀ tr i := by
  induction tr with
  | nil => rfl
  | cons e tr ih =>
    by_cases he : e.who = i
    · simp only [Protocol.at, if_pos he, Protocol.noting] at ih ⊢
      rw [ih]
    · simp only [Protocol.at, if_neg he] at ih ⊢
      exact ih

/-- A discipline that allows more. -/
theorem obeys_weaken {P' : Protocol σ L} (hallow : ∀ l c, P.allow l c → P'.allow l c)
    (hnext : ∀ l c r, P'.next l c r = P.next l c r) {p : Prog σ α} {Q : L → α → Prop}
    {X : L → σ.Exn → Prop} : ∀ {l : L}, p.Obeys P l Q X → p.Obeys P' l Q X := by
  induction p with
  | done a => intro l h; exact h
  | fail e => intro l h; exact h
  | fresh k ih => intro l h m; exact ih m (h m)
  | await c k ih =>
    intro l h
    refine ⟨hallow l c h.1, fun r => ?_⟩
    rw [hnext]
    exact ih r (h.2 r)

/-- **Calls of which another discipline takes no notice**: it allows them and stays where it is. -/
theorem obeys_unnoticed {L' : Type} {P' : Protocol σ L'} {l' : L'}
    (hallow : ∀ l c, P.allow l c → P'.allow l' c)
    (hnext : ∀ l c r, P.allow l c → P'.next l' c r = l') {p : Prog σ α} {Q : L → α → Prop}
    {X : L → σ.Exn → Prop} : ∀ {l : L}, p.Obeys P l Q X →
      p.Obeys P' l' (fun l₁ a => l₁ = l' ∧ ∃ l₂, Q l₂ a) fun l₁ e => l₁ = l' ∧ ∃ l₂, X l₂ e := by
  induction p with
  | done a => intro l h; exact ⟨rfl, l, h⟩
  | fail e => intro l h; exact ⟨rfl, l, h⟩
  | fresh k ih => intro l h m; exact ih m (h m)
  | await c k ih =>
    intro l h
    refine ⟨hallow l c h.1, fun r => ?_⟩
    rw [hnext l c r h.1]
    exact ih r (h.2 r)

/-- A program that keeps a discipline with notes keeps it without. -/
theorem obeys_unnoted {note : L → N → (c : σ.Call) → σ.Reply c → N} {p : Prog σ α}
    {Q : L × N → α → Prop} {X : L × N → σ.Exn → Prop} : ∀ {l : L × N}, p.Obeys (P.noting note) l Q X →
      p.Obeys P l.1 (fun l₁ a => ∃ n, Q (l₁, n) a) fun l₁ e => ∃ n, X (l₁, n) e := by
  induction p with
  | done a => intro l h; exact ⟨l.2, h⟩
  | fail e => intro l h; exact ⟨l.2, h⟩
  | fresh k ih => intro l h m; exact ih m (h m)
  | await c k ih => intro l h; exact ⟨h.1, fun r => ih r (h.2 r)⟩

variable {Q : L → Unit → Prop} {X : L → σ.Exn → Prop}

/-- The program that an input starts. -/
def Input.program? : Input M → Option (Prog σ Unit)
  | .begin q => some q
  | _ => none

/-- The programs that the inputs start, in order: the numbers of the executions. -/
def begun (xs : List (Input M)) : List (Prog σ Unit) := xs.filterMap Input.program?

theorem begun_snoc (xs : List (Input M)) (x : Input M) :
    begun (xs ++ [x]) = begun xs ++ x.program?.toList := by
  unfold begun
  rw [List.filterMap_append]
  cases hx : x.program? <;> simp [hx]

/-- Every execution was begun by an input. -/
theorem begun_input {xs : List (Input M)} {i : ℕ} {q : Prog σ Unit} (h : (begun xs)[i]? = some q) :
    Input.begin q ∈ xs := by
  obtain ⟨x, hx, hprogram⟩ := List.mem_filterMap.1 (List.mem_of_getElem? h)
  cases x with
  | begin q' =>
    cases hprogram
    exact hx
  | turn i f => cases hprogram
  | move m => cases hprogram

/-- Every execution whose program keeps the discipline keeps it from where it stands. -/
structure Plays (P : Protocol σ L) (l₀ : L) (Q : L → Unit → Prop) (X : L → σ.Exn → Prop)
    (qs : List (Prog σ Unit)) (p : Pool M) : Prop where
  count : p.running.length = qs.length
  known : ∀ e ∈ p.trace, e.who < p.running.length
  keeps : ∀ i (q : Prog σ Unit), qs[i]? = some q → q.Obeys P l₀ Q X →
    ∃ q' : Prog σ Unit, p.running[i]? = some q' ∧ q'.Obeys P (P.at l₀ p.trace i) Q X

theorem Plays.begin {qs : List (Prog σ Unit)} {p : Pool M} (h : Plays P l₀ Q X qs p)
    (q : Prog σ Unit) : Plays P l₀ Q X (qs ++ [q]) { p with running := p.running ++ [q] } := by
  refine ⟨by simp [h.count], fun e he => ?_, fun i q₀ hi hk => ?_⟩
  · have hlt := h.known e he
    simp only [List.length_append, List.length_singleton]
    omega
  rcases Nat.lt_or_ge i qs.length with hlt | hge
  · rw [List.getElem?_append_left hlt] at hi
    obtain ⟨q', hq', hkeeps⟩ := h.keeps i q₀ hi hk
    have hrun : i < p.running.length := by rw [h.count]; exact hlt
    exact ⟨q', by rw [List.getElem?_append_left hrun]; exact hq', hkeeps⟩
  · have hrun : p.running.length ≤ i := by rw [h.count]; exact hge
    rw [List.getElem?_append_right hge, List.getElem?_singleton] at hi
    split at hi
    case isFalse => cases hi
    rename_i hzero
    cases hi
    refine ⟨q, by rw [List.getElem?_append_right hrun, h.count, hzero]; rfl, ?_⟩
    -- no call of the trace is by the number it gets
    have hidle : P.at l₀ p.trace i = l₀ :=
      P.at_idle fun e he => Nat.ne_of_lt (Nat.lt_of_lt_of_le (h.known e he) hrun)
    rw [hidle]
    exact hk

/-- A turn of one execution, which goes on with `q` after the trace `tr`. -/
theorem Plays.turn {qs : List (Prog σ Unit)} {p : Pool M} (h : Plays P l₀ Q X qs p) {i : ℕ}
    {q₀ q : Prog σ Unit} {s : M.State} {tr : List (Entry σ)} (hi : p.running[i]? = some q₀)
    (hknown : ∀ e ∈ tr, e.who < p.running.length)
    (hself : q₀.Obeys P (P.at l₀ p.trace i) Q X → q.Obeys P (P.at l₀ tr i) Q X)
    (hother : ∀ j, j ≠ i → P.at l₀ tr j = P.at l₀ p.trace j) :
    Plays P l₀ Q X qs ⟨s, p.running.set i q, tr⟩ := by
  have hlt : i < p.running.length := (List.getElem?_eq_some_iff.1 hi).1
  refine ⟨by simp [h.count], fun e he => by simpa using hknown e he, fun j q₁ hj hk => ?_⟩
  obtain ⟨q', hq', hkeeps⟩ := h.keeps j q₁ hj hk
  rcases eq_or_ne i j with rfl | hne
  · rw [hi] at hq'
    cases hq'
    exact ⟨q, by simp [hlt], hself hkeeps⟩
  · refine ⟨q', by rw [List.getElem?_set_ne hne]; exact hq', ?_⟩
    rw [hother j (Ne.symm hne)]
    exact hkeeps

theorem Plays.step {qs : List (Prog σ Unit)} {p p' : Pool M} {x : Input M} (h : Plays P l₀ Q X qs p)
    (hx : p.step? x = some p') : Plays P l₀ Q X (qs ++ x.program?.toList) p' := by
  rcases Pool.step_cases hx with ⟨q, rfl, rfl⟩ | ⟨i, f, k, rfl, hi, rfl⟩ |
    ⟨i, f, c, k, r, s, rfl, hi, -, rfl⟩ | ⟨m, s, rfl, -, rfl⟩
  · exact h.begin q
  · show Plays P l₀ Q X (qs ++ []) _
    rw [List.append_nil]
    exact h.turn hi h.known (fun hk => hk _) fun _ _ => rfl
  · show Plays P l₀ Q X (qs ++ []) _
    rw [List.append_nil]
    have hlt : i < p.running.length := (List.getElem?_eq_some_iff.1 hi).1
    refine h.turn hi (List.forall_mem_cons.2 ⟨hlt, h.known⟩) (fun hk => ?_) fun j hj => ?_
    · rw [P.at_self]
      exact hk.2 r
    · exact P.at_other _ (Ne.symm hj)
  · show Plays P l₀ Q X (qs ++ []) _
    rw [List.append_nil]
    exact ⟨h.count, h.known, h.keeps⟩

/-- **In any interleaving** an execution keeps what the program it began as keeps. -/
theorem run_plays {s : M.State} {xs : List (Input M)} :
    ∀ {p : Pool M}, (Pool.init s).run? xs = some p → Plays P l₀ Q X (begun xs) p := by
  induction xs using List.reverseRecOn with
  | nil =>
    intro p h
    cases h
    exact ⟨rfl, fun e he => (by cases he), fun i q hi => (by cases hi)⟩
  | append_singleton xs x ih =>
    intro p h
    rw [Pool.run_append] at h
    obtain ⟨q, hq, hx⟩ := Option.bind_eq_some_iff.1 h
    obtain ⟨q', hx, hnil⟩ := Pool.run_cons hx
    cases hnil
    rw [begun_snoc]
    exact (ih hq).step hx

end Async
