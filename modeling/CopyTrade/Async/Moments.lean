import CopyTrade.Async.Begun

/-!
# The moments of a run

* `Pool.run_entry`: every entry of a trace is a step of the run, by the execution it names;
  `Pool.run_around`: the states around it; `Pool.run_since`: or it was there before the run.
* `run_calling`: a call is one that the program of its execution allows, with what that
  execution had been answered before.
* `Pool.run_first`: the step that first brought about what holds at the end.
* `Pool.run_ended`: an execution that has ended makes no further call.
-/

namespace Async

variable {σ : Sig} {M : Machine σ} {L : Type} {P : Protocol σ L} {l₀ : L}

/-- The program has returned or raised. -/
def Prog.Ended {α : Type} : Prog σ α → Prop
  | .done _ => True
  | .fail _ => True
  | _ => False

namespace Pool

/-- An execution that has ended stays as it ended. -/
theorem run_ended {i : ℕ} {q : Prog σ Unit} (hq : q.Ended) {xs : List (Input M)} :
    ∀ {p p' : Pool M}, p.running[i]? = some q → p.run? xs = some p' → p'.running[i]? = some q := by
  induction xs with
  | nil => intro p p' hi h; cases h; exact hi
  | cons x xs ih =>
    intro p p' hi h
    obtain ⟨p₁, hx, hr⟩ := run_cons h
    refine ih ?_ hr
    have hlt : i < p.running.length := (List.getElem?_eq_some_iff.1 hi).1
    rcases step_cases hx with ⟨q', -, rfl⟩ | ⟨j, f, k, -, hj, rfl⟩ | ⟨j, f, c, k, r, s, -, hj, -, rfl⟩ |
      ⟨m, s, -, -, rfl⟩
    · exact (List.getElem?_append_left hlt).trans hi
    · -- whoever draws or calls has not ended
      have hne : j ≠ i := by
        rintro rfl
        rw [hi] at hj; cases hj; exact hq
      exact (List.getElem?_set_ne hne).trans hi
    · have hne : j ≠ i := by
        rintro rfl
        rw [hi] at hj; cases hj; exact hq
      exact (List.getElem?_set_ne hne).trans hi
    · exact hi

/-- **Every entry of a trace is a step of the run.** -/
theorem run_entry {s : M.State} {xs : List (Input M)} : ∀ {p : Pool M}, (init s).run? xs = some p →
    ∀ {newer : List (Entry σ)} {e : Entry σ} {older : List (Entry σ)}, p.trace = newer ++ e :: older →
      ∃ ys f zs p₁ k s', xs = ys ++ .turn e.who f :: zs ∧ (init s).run? ys = some p₁ ∧
        p₁.trace = older ∧ p₁.running[e.who]? = some (.await e.call k) ∧
        M.serve e.call f p₁.state = some (e.reply, s') := by
  induction xs using List.reverseRecOn with
  | nil =>
    intro p h newer e older htr
    cases h
    exact absurd htr.symm (by simp [init])
  | append_singleton xs x ih =>
    intro p h newer e older htr
    rw [run_append] at h
    obtain ⟨q, hq, hx⟩ := Option.bind_eq_some_iff.1 h
    obtain ⟨q', hx, hnil⟩ := run_cons hx
    cases hnil
    -- an entry of the run before the last step
    have earlier : ∀ {newer}, q.trace = newer ++ e :: older → ∃ ys f zs p₁ k s',
        xs ++ [x] = ys ++ .turn e.who f :: zs ∧ (init s).run? ys = some p₁ ∧ p₁.trace = older ∧
        p₁.running[e.who]? = some (.await e.call k) ∧
        M.serve e.call f p₁.state = some (e.reply, s') := by
      intro newer htr
      obtain ⟨ys, f, zs, p₁, k, s', rfl, hys⟩ := ih hq htr
      exact ⟨ys, f, zs ++ [x], p₁, k, s', by simp, hys⟩
    rcases step_cases hx with ⟨_, -, rfl⟩ | ⟨_, _, _, -, -, rfl⟩ | ⟨i, f, c, k, r, t, rfl, hi, hs, rfl⟩ |
      ⟨_, _, -, -, rfl⟩
    · exact earlier htr
    · exact earlier htr
    · cases newer with
      | nil =>
        obtain ⟨rfl, rfl⟩ := List.cons.inj htr
        exact ⟨xs, f, [], q, k, t, rfl, hq, rfl, hi, hs⟩
      | cons e' newer => exact earlier (List.cons.inj htr).2
    · exact earlier htr

/-- The states around a call of the trace. -/
theorem run_around {s : M.State} {xs : List (Input M)} {p : Pool M} (h : (init s).run? xs = some p)
    {newer : List (Entry σ)} {e : Entry σ} {older : List (Entry σ)} (htr : p.trace = newer ++ e :: older) :
    ∃ ys f zs p₁ p₂, xs = ys ++ .turn e.who f :: zs ∧ (init s).run? ys = some p₁ ∧
      p₁.step? (.turn e.who f) = some p₂ ∧ p₂.run? zs = some p ∧ p₁.trace = older ∧
      p₂.trace = e :: older ∧ M.serve e.call f p₁.state = some (e.reply, p₂.state) := by
  obtain ⟨ys, f, zs, p₁, k, s', rfl, hys, rfl, hi, hserve⟩ := run_entry h htr
  have hstep : p₁.step? (.turn e.who f) =
      some ⟨s', p₁.running.set e.who (k e.reply), e :: p₁.trace⟩ := by
    simp only [step?, hi, hserve, Option.map_some]
  refine ⟨ys, f, zs, p₁, _, rfl, hys, hstep, ?_, rfl, rfl, hserve⟩
  rw [run_append, hys, Option.bind_some, run?, hstep, Option.bind_some] at h
  exact h

/-- An entry of the trace was there before the run, or is a step of it. -/
theorem run_since {xs : List (Input M)} {p : Pool M} : ∀ {p' : Pool M}, p.run? xs = some p' →
    ∀ {e : Entry σ}, e ∈ p'.trace → e ∈ p.trace ∨
      ∃ ys f zs p₁ k s', xs = ys ++ .turn e.who f :: zs ∧ p.run? ys = some p₁ ∧
        p₁.running[e.who]? = some (.await e.call k) ∧
        M.serve e.call f p₁.state = some (e.reply, s') := by
  induction xs using List.reverseRecOn with
  | nil => intro p' h e he; cases h; exact Or.inl he
  | append_singleton xs x ih =>
    intro p' h e he
    rw [run_append] at h
    obtain ⟨q, hq, hx⟩ := Option.bind_eq_some_iff.1 h
    obtain ⟨q', hx, hnil⟩ := run_cons hx
    cases hnil
    -- an entry that was there before the last step
    have earlier : e ∈ q.trace → e ∈ p.trace ∨ ∃ ys f zs p₁ k s',
        xs ++ [x] = ys ++ .turn e.who f :: zs ∧ p.run? ys = some p₁ ∧
        p₁.running[e.who]? = some (.await e.call k) ∧
        M.serve e.call f p₁.state = some (e.reply, s') := by
      intro he
      refine (ih hq he).imp_right ?_
      rintro ⟨ys, f, zs, p₁, k, s', rfl, hys⟩
      exact ⟨ys, f, zs ++ [x], p₁, k, s', by simp, hys⟩
    rcases step_cases hx with ⟨_, -, rfl⟩ | ⟨_, _, _, -, -, rfl⟩ | ⟨i, f, c, k, r, t, rfl, hi, hs, rfl⟩ |
      ⟨_, _, -, -, rfl⟩
    · exact earlier he
    · exact earlier he
    · rcases List.mem_cons.1 he with rfl | he
      · exact Or.inr ⟨xs, f, [], q, k, t, rfl, hq, hi, hs⟩
      · exact earlier he
    · exact earlier he

/-- **The first rise.** What holds after a run and did not before it was first brought about by
one of its steps. -/
theorem run_first {R : M.State → Prop} {xs : List (Input M)} :
    ∀ {p p' : Pool M}, ¬ R p.state → p.run? xs = some p' → R p'.state →
      ∃ ys x zs p₁ p₂, xs = ys ++ x :: zs ∧ p.run? ys = some p₁ ∧ p₁.step? x = some p₂ ∧
        p.Always (fun s => ¬ R s) ys ∧ R p₂.state := by
  induction xs with
  | nil => intro p p' h0 h hR; cases h; exact absurd hR h0
  | cons x xs ih =>
    intro p p' h0 h hR
    obtain ⟨q, hq, hr⟩ := run_cons h
    by_cases hRq : R q.state
    · refine ⟨[], x, xs, p, q, rfl, rfl, hq, fun ys zs p₁ hx hys => ?_, hRq⟩
      obtain ⟨rfl, -⟩ := List.append_eq_nil_iff.1 hx.symm
      cases hys
      exact h0
    · obtain ⟨ys, y, zs, p₁, p₂, rfl, hys, hy, hal, hp₂⟩ := ih hRq hr hR
      have hrun : ∀ us, p.run? (x :: us) = q.run? us := fun us => by rw [run?, hq, Option.bind_some]
      refine ⟨x :: ys, y, zs, p₁, p₂, rfl, (hrun ys).trans hys, hy, fun us vs p₃ hx hus => ?_, hp₂⟩
      cases us with
      | nil => cases hus; exact h0
      | cons u us =>
        obtain ⟨rfl, hys'⟩ := List.cons.inj hx
        exact hal us vs p₃ hys' ((hrun us).symm.trans hus)

end Pool

/-- An execution that has been begun is one of the programs of the inputs. -/
theorem begun_running {s : M.State} {xs : List (Input M)} {p : Pool M}
    (h : (Pool.init s).run? xs = some p) {i : ℕ} {q' : Prog σ Unit} (hi : p.running[i]? = some q') :
    ∃ q, (begun xs)[i]? = some q := by
  have hplays : Plays (⟨fun _ _ => True, fun _ _ _ => ()⟩ : Protocol σ Unit) () (fun _ _ => True)
    (fun _ _ => True) (begun xs) p := run_plays h
  have hlt : i < p.running.length := (List.getElem?_eq_some_iff.1 hi).1
  rw [hplays.count] at hlt
  exact ⟨_, List.getElem?_eq_getElem hlt⟩

/-- Whoever made a call of the trace is one of the executions. -/
theorem run_known {s : M.State} {xs : List (Input M)} {p : Pool M}
    (h : (Pool.init s).run? xs = some p) {e : Entry σ} (he : e ∈ p.trace) :
    ∃ q, p.running[e.who]? = some q := by
  have hplays : Plays (⟨fun _ _ => True, fun _ _ _ => ()⟩ : Protocol σ Unit) () (fun _ _ => True)
    (fun _ _ => True) (begun xs) p := run_plays h
  exact ⟨_, List.getElem?_eq_getElem (hplays.known e he)⟩

/-- The executions of a run are those of its beginning, and further ones. -/
theorem begun_append {xs ys : List (Input M)} {i : ℕ} {q : Prog σ Unit}
    (h : (begun xs)[i]? = some q) : (begun (xs ++ ys))[i]? = some q := by
  unfold begun at h ⊢
  rw [List.filterMap_append]
  exact (List.getElem?_append_left (List.getElem?_eq_some_iff.1 h).1).trans h

/-- **A call of a run** is one that the program of its execution allows. -/
theorem run_calling {s : M.State} {xs : List (Input M)} {p : Pool M}
    (h : (Pool.init s).run? xs = some p) {newer : List (Entry σ)} {e : Entry σ}
    {older : List (Entry σ)} (htr : p.trace = newer ++ e :: older) :
    ∃ q, (begun xs)[e.who]? = some q ∧ ∀ {L : Type} (P : Protocol σ L) (l₀ : L), q.Keeps P l₀ →
      P.allow (P.at l₀ older e.who) e.call := by
  obtain ⟨ys, f, zs, p₁, k, s', rfl, hys, rfl, hi, -⟩ := Pool.run_entry h htr
  obtain ⟨q, hq⟩ := begun_running hys hi
  refine ⟨q, begun_append hq, fun P l₀ hkeeps => ?_⟩
  obtain ⟨q', hq', hobeys⟩ := (run_plays hys).keeps e.who q hq hkeeps
  rw [hi] at hq'
  cases hq'
  exact hobeys.1

end Async
