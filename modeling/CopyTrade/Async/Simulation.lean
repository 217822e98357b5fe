import CopyTrade.Async.Begun

/-!
# Simulation between machines

One machine can do whatever another does, over a relation of their states, as far as the calls
are answered in a given way. The programs cannot tell the two apart: every run of the first
with such answers has a run of the second with the same executions, the same calls and the
same answers.

* `serve_of_effect`: one call, however the environment lets it go, from its effects.
* `Simulates.run`: whole runs, in any interleaving.
-/

namespace Async

variable {σ : Sig}

/-- `N` can do whatever `M` does, where the calls are answered as in `Ok`. The environment of
`N` may let a call go another way, and may have to do nothing where that of `M` moves the
state. -/
structure Simulates (M N : Machine σ) (R : M.State → N.State → Prop)
    (Ok : (c : σ.Call) → σ.Reply c → Prop) : Prop where
  draw : ∀ {s t}, R s t → (N.draw t).1 = (M.draw s).1 ∧ R (M.draw s).2 (N.draw t).2
  serve : ∀ {c f s t r s'}, R s t → M.serve c f s = some (r, s') → Ok c r →
    ∃ f' t', N.serve c f' t = some (r, t') ∧ R s' t'
  move : ∀ {m s t s'}, R s t → M.move m s = some s' →
    R s' t ∨ ∃ m' t', N.move m' t = some t' ∧ R s' t'

variable {M N : Machine σ} {R : M.State → N.State → Prop} {Ok : (c : σ.Call) → σ.Reply c → Prop}

/-- **One call**, however the environment lets it go, where the effects agree. -/
theorem serve_of_effect {c : σ.Call} {f : Fault σ.Exn} {s s' : M.State} {t : N.State} {r : σ.Reply c}
    (hst : R s t) (heffect : ∀ {a s'}, M.effect c s = some (a, s') →
      ∃ t', N.effect c t = some (a, t') ∧ R s' t') (h : M.serve c f s = some (r, s')) :
    ∃ f' t', N.serve c f' t = some (r, t') ∧ R s' t' := by
  rcases Machine.serve_cases h with ⟨e, rfl, rfl, rfl⟩ | ⟨a, ha, hr⟩
  · exact ⟨.before e, t, rfl, hst⟩
  obtain ⟨t', ht', hst'⟩ := heffect ha
  rcases hr with ⟨rfl, rfl⟩ | ⟨e, rfl, rfl⟩
  · exact ⟨.works, t', Machine.serve_works ht', hst'⟩
  · refine ⟨.after e, t', ?_, hst'⟩
    unfold Machine.serve
    rw [ht']
    rfl

/-- Two pools that the executions cannot tell apart. -/
structure Pool.Alike (R : M.State → N.State → Prop) (p : Pool M) (q : Pool N) : Prop where
  state : R p.state q.state
  running : q.running = p.running
  trace : q.trace = p.trace

/-- One step. -/
theorem Simulates.step (hsim : Simulates M N R Ok) {p p' : Pool M} {q : Pool N} {x : Input M}
    (hpq : p.Alike R q) (h : p.step? x = some p') (hok : ∀ e ∈ p'.trace, Ok e.call e.reply) :
    ∃ ys q', q.run? ys = some q' ∧ p'.Alike R q' ∧ begun ys = x.program?.toList := by
  obtain ⟨t, rs, tr⟩ := q
  obtain ⟨hst, hrs, htr⟩ := hpq
  subst hrs htr
  rcases Pool.step_cases h with ⟨b, rfl, rfl⟩ | ⟨i, f, k, rfl, hi, rfl⟩ |
    ⟨i, f, c, k, r, s', rfl, hi, hserve, rfl⟩ | ⟨m, s', rfl, hm, rfl⟩
  · exact ⟨[.begin b], _, rfl, ⟨hst, rfl, rfl⟩, rfl⟩
  · obtain ⟨hname, hst'⟩ := hsim.draw hst
    refine ⟨[.turn i f], ⟨(N.draw t).2, p.running.set i (k (N.draw t).1), p.trace⟩, ?_, ?_, rfl⟩
    · simp only [Pool.run?, Pool.step?, hi, Option.bind_some]
    · exact ⟨hst', by rw [hname], rfl⟩
  · obtain ⟨f', t', ht', hst'⟩ := hsim.serve hst hserve (hok _ List.mem_cons_self)
    refine ⟨[.turn i f'], ⟨t', p.running.set i (k r), ⟨i, c, r⟩ :: p.trace⟩, ?_, ⟨hst', rfl, rfl⟩, rfl⟩
    simp only [Pool.run?, Pool.step?, hi, ht', Option.map_some, Option.bind_some]
  · rcases hsim.move hst hm with hst' | ⟨m', t', ht', hst'⟩
    · exact ⟨[], _, rfl, ⟨hst', rfl, rfl⟩, rfl⟩
    · refine ⟨[.move m'], ⟨t', p.running, p.trace⟩, ?_, ⟨hst', rfl, rfl⟩, rfl⟩
      simp only [Pool.run?, Pool.step?, ht', Option.map_some, Option.bind_some]

/-- **Whole runs.** Every run of `M` with such answers has a run of `N` that begins the same
executions and comes to the same calls, the same answers and the same programs still to run. -/
theorem Simulates.run (hsim : Simulates M N R Ok) {xs : List (Input M)} :
    ∀ {p p' : Pool M} {q : Pool N}, p.Alike R q → p.run? xs = some p' →
      (∀ e ∈ p'.trace, Ok e.call e.reply) →
        ∃ ys q', q.run? ys = some q' ∧ p'.Alike R q' ∧ begun ys = begun xs := by
  induction xs with
  | nil => intro p p' q hpq h _; cases h; exact ⟨[], q, rfl, hpq, rfl⟩
  | cons x xs ih =>
    intro p p' q hpq h hok
    obtain ⟨p₁, hx, hr⟩ := Pool.run_cons h
    have hok₁ : ∀ e ∈ p₁.trace, Ok e.call e.reply := fun e he => hok e ((Pool.run_trace hr).mem he)
    obtain ⟨ys, q₁, hys, hpq₁, hbegun⟩ := hsim.step hpq hx hok₁
    obtain ⟨zs, q', hzs, hpq', hrest⟩ := ih hpq₁ hr hok
    refine ⟨ys ++ zs, q', ?_, hpq', ?_⟩
    · rw [Pool.run_append, hys, Option.bind_some, hzs]
    · have hcons : begun (x :: xs) = x.program?.toList ++ begun xs := by
        unfold begun
        cases hp : x.program? with
        | none => rw [List.filterMap_cons_none hp]; rfl
        | some b => rw [List.filterMap_cons_some hp]; rfl
      rw [hcons, ← hbegun, ← hrest]
      exact List.filterMap_append

/-- What a run of the executions `qs` from `s` can come to. -/
def Reaches (M : Machine σ) (s : M.State) (qs : List (Prog σ Unit)) (rs : List (Prog σ Unit))
    (tr : List (Entry σ)) : Prop :=
  ∃ xs p, (Pool.init s : Pool M).run? xs = some p ∧ begun xs = qs ∧ p.running = rs ∧ p.trace = tr

/-- What the first machine can come to with such answers, the second can. -/
theorem Simulates.reaches (hsim : Simulates M N R Ok) {s : M.State} {t : N.State} (hst : R s t)
    {qs rs : List (Prog σ Unit)} {tr : List (Entry σ)} (h : Reaches M s qs rs tr)
    (hok : ∀ e ∈ tr, Ok e.call e.reply) : Reaches N t qs rs tr := by
  obtain ⟨xs, p, hrun, rfl, rfl, rfl⟩ := h
  have hinit : (Pool.init s : Pool M).Alike R (Pool.init t : Pool N) := ⟨hst, rfl, rfl⟩
  obtain ⟨ys, q, hys, hpq, hbegun⟩ := hsim.run hinit hrun hok
  exact ⟨ys, q, hys, hbegun, hpq.running, hpq.trace⟩

end Async
