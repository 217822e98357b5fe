import CopyTrade.Async.Solo
import CopyTrade.Proof.Ownership

/-!
# The publishing loop under a script

The loop starts with all its keys reserved, and a failure gives back one key at most. A key
that stays reserved without a hand-over is *stranded*.

* `HandedOut`: what publishing does to the keys.
* `handOver_exec`: which scripts strand no key.
-/

namespace CopyTrade

open Async (Prog Machine Fault Outcome Served lead lead_blocked)

variable {B : Type} [Ledger B]

/-- The keys handed over by the calls of an execution. -/
def delivered (cs : List (Served CopyEngine)) : List String := handedOver (cs.map (Served.by 0))

@[simp] theorem delivered_nil : delivered [] = [] := rfl

@[simp] theorem delivered_append (cs ds : List (Served CopyEngine)) :
    delivered (cs ++ ds) = delivered cs ++ delivered ds := by
  simp [delivered, handedOver]

/-- With `m` keys in hand: every call up to the last publish works, or all but the last
publish do and the release after it lands. -/
def HandsOver (m : ℕ) (fs : List (Fault PyException)) : Prop :=
  m = 0 ∨ 3 * m ≤ lead fs + 1 ∨
    (lead fs + 2 = 3 * m ∧ ∃ g, fs[lead fs + 1]? = some g ∧ g.Lands)

/-- What publishing `reqs` under the script `fs` does to the keys. -/
structure HandedOut (reqs : List CopyExecutionRequest) (fs : List (Fault PyException))
    (w : World B) (o : Outcome (engine B) Unit) : Prop where
  keeps : ∀ k, w.Reserved k → k ∉ reqs.map (·.idempotencyKey) → o.state.Reserved k
  out : ∀ k ∈ delivered o.calls, k ∈ reqs.map (·.idempotencyKey) ∧ o.state.Reserved k
  provider : o.state.provider = w.provider
  settled : (∀ q ∈ reqs, o.state.Reserved q.idempotencyKey →
    q.idempotencyKey ∈ delivered o.calls) ↔ HandsOver reqs.length fs
  complete : (∀ f ∈ fs, f = .works) → o.ending ≠ .stopped →
    ∀ q ∈ reqs, q.idempotencyKey ∈ delivered o.calls

/-- The loop ended before the first request was handed over, and gave no key back. -/
theorem HandedOut.stuck {q : CopyExecutionRequest} {rest : List CopyExecutionRequest}
    {fs : List (Fault PyException)} {w : World B} {o : Outcome (engine B) Unit}
    (hin : w.Reserved q.idempotencyKey) (hw : Steady w o.state) (hout : delivered o.calls = [])
    (hbad : (∀ f ∈ fs, f = .works) → o.ending = .stopped)
    (hscript : ¬ HandsOver (rest.length + 1) fs) : HandedOut (q :: rest) fs w o := by
  refine ⟨fun k hk _ => hw.keeps k hk, fun k hk => ?_, hw.provider, ⟨fun h => ?_, fun h => ?_⟩,
    fun hf hne => absurd (hbad hf) hne⟩
  · rw [hout] at hk; cases hk
  · have := h q List.mem_cons_self (hw.keeps _ hin)
    rw [hout] at this; cases this
  · exact absurd h hscript

/-- The loop ended with the first request settled, by a hand-over or by a release. -/
theorem HandedOut.last {q : CopyExecutionRequest} {rest : List CopyExecutionRequest}
    {fs : List (Fault PyException)} {w : World B} {o : Outcome (engine B) Unit}
    (hin : ∀ q' ∈ rest, w.Reserved q'.idempotencyKey)
    (hnd : ((q :: rest).map (·.idempotencyKey)).Nodup)
    (hkeep : ∀ k, w.Reserved k → k ≠ q.idempotencyKey → o.state.Reserved k)
    (hout : ∀ k ∈ delivered o.calls, k = q.idempotencyKey ∧ o.state.Reserved k)
    (hfirst : o.state.Reserved q.idempotencyKey → q.idempotencyKey ∈ delivered o.calls)
    (hprov : o.state.provider = w.provider) (hbad : (∀ f ∈ fs, f = .works) → o.ending = .stopped)
    (hscript : HandsOver (rest.length + 1) fs ↔ rest = []) : HandedOut (q :: rest) fs w o := by
  have hne : ∀ q' ∈ rest, q'.idempotencyKey ≠ q.idempotencyKey := by
    intro q' hq' he
    rw [List.map_cons, List.nodup_cons] at hnd
    exact hnd.1 (List.mem_map.2 ⟨q', hq', he⟩)
  refine ⟨fun k hk hnot => hkeep k hk fun he => hnot ?_, fun k hk => ?_, hprov,
    ⟨fun h => hscript.2 ?_, fun h => ?_⟩, fun hf hne => absurd (hbad hf) hne⟩
  · rw [he]; exact List.mem_cons_self
  · obtain ⟨he, hr⟩ := hout k hk
    exact ⟨by rw [he]; exact List.mem_cons_self, hr⟩
  · cases rest with
    | nil => rfl
    | cons q' rest =>
      -- the next request is still reserved, and was not handed over
      have hq' : q' ∈ q' :: rest := List.mem_cons_self
      have := h q' (List.mem_cons_of_mem _ hq') (hkeep _ (hin q' hq') (hne q' hq'))
      exact absurd (hout _ this).1 (hne q' hq')
  · have hnil := hscript.1 h
    subst hnil
    intro q' hq'
    rw [List.mem_singleton.1 hq']
    exact hfirst

/-! What the first calls of a script say about `HandsOver`. -/

theorem handsOver_blocked {m : ℕ} {fs : List (Fault PyException)} (h : lead fs = 0) :
    ¬ HandsOver (m + 1) fs := by
  rintro (h' | h' | ⟨h', -⟩) <;> omega

theorem handsOver_publish_stops {m : ℕ} : ¬ HandsOver (m + 1) [.works] := by
  rintro (h | h | ⟨h, g, hg, -⟩)
  · omega
  · simp only [lead] at h; omega
  · simp [lead] at hg

theorem handsOver_publish_raises {m : ℕ} {f : Fault PyException} {fs : List (Fault PyException)}
    (hf : f ≠ .works) :
    HandsOver (m + 1) (.works :: f :: fs) ↔ m = 0 ∧ ∃ g, fs[0]? = some g ∧ g.Lands := by
  have hl : lead (.works :: f :: fs) = 1 := by rw [lead, lead_blocked _ hf]
  unfold HandsOver
  rw [hl]
  constructor
  · rintro (h | h | ⟨h, g, hg, hg'⟩)
    · omega
    · omega
    · exact ⟨by omega, g, by simpa using hg, hg'⟩
  · rintro ⟨rfl, g, hg, hg'⟩
    exact Or.inr (Or.inr ⟨rfl, g, by simpa using hg, hg'⟩)

theorem handsOver_mark_fails {m : ℕ} {fs : List (Fault PyException)} (h : lead fs = 0) :
    HandsOver (m + 1) (.works :: .works :: fs) ↔ m = 0 := by
  have hl : lead (.works :: .works :: fs) = 2 := by rw [lead, lead, h]
  unfold HandsOver
  rw [hl]
  constructor
  · rintro (h | h | ⟨h, -⟩) <;> omega
  · intro hm; exact Or.inr (Or.inl (by omega))

theorem handsOver_next {m : ℕ} {fs : List (Fault PyException)} :
    HandsOver (m + 1) (.works :: .works :: .works :: fs) ↔ HandsOver m fs := by
  have hl : lead (.works :: .works :: .works :: fs) = lead fs + 3 := by rw [lead, lead, lead]
  unfold HandsOver
  rw [hl]
  simp only [List.getElem?_cons_succ]
  constructor
  · rintro (h | h | ⟨h, hg⟩)
    · omega
    · exact (Nat.eq_zero_or_pos m).imp_right fun _ => Or.inl (by omega)
    · exact Or.inr (Or.inr ⟨by omega, hg⟩)
  · rintro (h | h | ⟨h, hg⟩)
    · exact Or.inr (Or.inl (by omega))
    · exact Or.inr (Or.inl (by omega))
    · exact Or.inr (Or.inr ⟨by omega, hg⟩)

/-- All three calls of the first request worked. -/
theorem HandedOut.next {q : CopyExecutionRequest} {rest : List CopyExecutionRequest}
    {fs : List (Fault PyException)} {w w₁ : World B} {o o₁ : Outcome (engine B) Unit}
    (h : HandedOut rest fs w₁ o₁) (hw : Steady w w₁) (hin : w.Reserved q.idempotencyKey)
    (hnot : q.idempotencyKey ∉ rest.map (·.idempotencyKey)) (hstate : o.state = o₁.state)
    (hending : o.ending = o₁.ending)
    (hout : delivered o.calls = q.idempotencyKey :: delivered o₁.calls) :
    HandedOut (q :: rest) (.works :: .works :: .works :: fs) w o := by
  refine ⟨fun k hk hn => ?_, fun k hk => ?_, ?_, ?_, fun hall hne q' hq' => ?_⟩
  · rw [hstate]
    exact h.keeps k (hw.keeps k hk) fun hm => hn (List.mem_cons_of_mem _ hm)
  · rw [hout] at hk
    rw [hstate]
    rcases List.mem_cons.1 hk with rfl | hk
    · exact ⟨List.mem_cons_self, h.keeps _ (hw.keeps _ hin) hnot⟩
    · exact ⟨List.mem_cons_of_mem _ (h.out k hk).1, (h.out k hk).2⟩
  · rw [hstate, h.provider, hw.provider]
  · rw [List.length_cons, handsOver_next, ← h.settled, hout, hstate]
    constructor
    · intro hall q' hq' hr
      -- the key of the first request is not among those of the rest
      refine (List.mem_cons.1 (hall q' (List.mem_cons_of_mem _ hq') hr)).resolve_left fun he => ?_
      exact hnot (he ▸ List.mem_map.2 ⟨q', hq', rfl⟩)
    · intro hall q' hq' hr
      rcases List.mem_cons.1 hq' with rfl | hq'
      · exact List.mem_cons_self
      · exact List.mem_cons_of_mem _ (hall q' hq' hr)
  · rw [hout]
    rcases List.mem_cons.1 hq' with rfl | hq'
    · exact List.mem_cons_self
    · refine List.mem_cons_of_mem _ (h.complete (fun f hf => hall f ?_) (hending ▸ hne) q' hq')
      exact List.mem_cons_of_mem _ (List.mem_cons_of_mem _ (List.mem_cons_of_mem _ hf))

/-- The publish of the first request raised: the release of its key is all that follows. -/
theorem release_exec {q : CopyExecutionRequest} {rest : List CopyExecutionRequest}
    {f : Fault PyException} {fs : List (Fault PyException)} {e : PyException} {w w₁ : World B}
    {cs : List (Served CopyEngine)} {k : Unit → Prog CopyEngine Unit} {o : Outcome (engine B) Unit}
    (hnd : ((q :: rest).map (·.idempotencyKey)).Nodup)
    (hin : ∀ q' ∈ q :: rest, w.Reserved q'.idempotencyKey)
    (hw : Steady w w₁) (hf : f ≠ .works) (hcs : delivered cs = [])
    (h : ((releaseIdempotencyKey q.idempotencyKey >>= fun _ => Prog.fail e) >>= k).exec?
      (engine B) fs w₁ = some o) :
    HandedOut (q :: rest) (.works :: f :: fs) w (o.after cs) := by
  have hq := hin q List.mem_cons_self
  have hrest : ∀ q' ∈ rest, w.Reserved q'.idempotencyKey :=
    fun q' hq' => hin q' (List.mem_cons_of_mem _ hq')
  have hbad : ∀ {P : Prop}, (∀ g ∈ Fault.works :: f :: fs, g = .works) → P := fun hall =>
    absurd (hall f (List.mem_cons_of_mem _ List.mem_cons_self)) hf
  have freed : ∀ {w' : World B} {u : Unit}, effect (.release q.idempotencyKey) w₁ = some (u, w') →
      (∀ k, w.Reserved k → k ≠ q.idempotencyKey → w'.Reserved k) ∧
        ¬ w'.Reserved q.idempotencyKey ∧ w'.provider = w.provider := by
    intro w' u he
    obtain ⟨w₂, hrelease, hpair⟩ := Option.map_eq_some_iff.1 he
    cases hpair
    obtain ⟨hres, hsame⟩ := World.release_cases hrelease
    refine ⟨fun k hk hne => (hres k).2 ⟨hw.keeps k hk, hne⟩, fun hr => ((hres _).1 hr).2 rfl, ?_⟩
    rw [hsame]
    exact hw.provider
  rw [Prog.bind_assoc] at h
  rcases Prog.exec_call_bind h with ⟨rfl, rfl⟩ | ⟨fs', u, w', o', rfl, he, h', rfl⟩ |
    ⟨g, fs', e', w', rfl, hg, hs, rfl⟩
  · refine .stuck hq hw (by simp [hcs]) hbad ?_
    rw [handsOver_publish_raises hf]; simp
  · rw [Prog.bind_fail, Prog.exec_fail] at h'
    cases h'
    obtain ⟨hkeep, hfree, hp⟩ := freed he
    refine .last hrest hnd hkeep (fun k hk => ?_) (fun hr => absurd hr hfree) hp hbad ?_
    · rw [Outcome.after_calls, delivered_append, hcs] at hk; cases hk
    · rw [handsOver_publish_raises hf]; simp [Fault.Lands]
  · rcases Machine.serve_cases hs with ⟨x, rfl, -, rfl⟩ | ⟨a, ha, ⟨hworks, -⟩ | ⟨x, rfl, -⟩⟩
    · refine .stuck hq hw ?_ hbad ?_
      · rw [Outcome.after_calls, delivered_append, hcs]; rfl
      · rw [handsOver_publish_raises hf]; simp [Fault.Lands]
    · exact absurd hworks hg
    · obtain ⟨hkeep, hfree, hp⟩ := freed ha
      refine .last hrest hnd hkeep (fun k hk => ?_) (fun hr => absurd hr hfree) hp hbad ?_
      · rw [Outcome.after_calls, delivered_append, hcs] at hk; cases hk
      · rw [handsOver_publish_raises hf]; simp [Fault.Lands]

/-- **The publishing loop** under any script, from a state in which all its keys are
reserved. -/
theorem handOver_exec : ∀ (reqs : List CopyExecutionRequest) {fs : List (Fault PyException)}
    {w : World B} {o : Outcome (engine B) Unit}, (reqs.map (·.idempotencyKey)).Nodup →
    (∀ q ∈ reqs, w.Reserved q.idempotencyKey) → (handOver reqs).exec? (engine B) fs w = some o →
    HandedOut reqs fs w o := by
  intro reqs
  induction reqs with
  | nil =>
    intro fs w o _ _ h
    rw [handOver, Prog.pure_eq, Prog.exec_done] at h
    cases h
    refine ⟨fun k hk _ => hk, fun k hk => ?_, rfl, ⟨fun _ => Or.inl rfl, fun _ q hq => ?_⟩,
      fun _ _ q hq => ?_⟩
    · cases hk
    · cases hq
    · cases hq
  | cons q rest ih =>
    intro fs w o hnd hin h
    have hq := hin q List.mem_cons_self
    have hrest : ∀ q' ∈ rest, w.Reserved q'.idempotencyKey :=
      fun q' hq' => hin q' (List.mem_cons_of_mem _ hq')
    -- the record
    rcases Prog.exec_call_bind h with ⟨rfl, rfl⟩ | ⟨fs₁, u₁, w₁, o₁, rfl, he₁, h₁, rfl⟩ |
      ⟨f, fs₁, e, w₁, rfl, hf, hs, rfl⟩
    · exact .stuck hq (.refl w) rfl (fun _ => rfl) (handsOver_blocked rfl)
    swap
    · have hw : Steady w w₁ := serve_steady hs fun _ hc => by cases hc
      exact .stuck hq hw rfl (fun hall => absurd (hall f List.mem_cons_self) hf)
        (handsOver_blocked (lead_blocked _ hf))
    have hw₁ : Steady w w₁ := serve_steady (Machine.serve_works he₁) fun _ hc => by cases hc
    -- the publish
    rcases Prog.exec_tryCall_bind h₁ with ⟨rfl, rfl⟩ | ⟨fs₂, u₂, w₂, o₂, rfl, he₂, h₂, rfl⟩ |
      ⟨f, fs₂, e, w₂, o₂, rfl, hf, hs, h₂, rfl⟩
    · exact .stuck hq hw₁ rfl (fun _ => rfl) handsOver_publish_stops
    swap
    · have hw₂ : Steady w w₂ := hw₁.trans (serve_steady hs fun _ hc => by cases hc)
      rw [Outcome.after_after]
      exact release_exec hnd hin hw₂ hf rfl h₂
    have hw₂ : Steady w w₂ :=
      hw₁.trans (serve_steady (Machine.serve_works he₂) fun _ hc => by cases hc)
    -- the mark: the key is handed over already, so only the requests after it can suffer
    have settled : ∀ {w₃ : World B} {fs₃ : List (Fault PyException)}
        {o₃ : Outcome (engine B) Unit}, Steady w w₃ → o₃.state = w₃ →
        delivered o₃.calls = [q.idempotencyKey] → lead fs₃ = 0 →
        ((∀ f ∈ fs₃, f = .works) → o₃.ending = .stopped) →
        HandedOut (q :: rest) (.works :: .works :: fs₃) w o₃ := by
      intro w₃ fs₃ o₃ hw₃ hstate hout hlead hbad
      subst hstate
      refine .last hrest hnd (fun k hk _ => hw₃.keeps k hk) (fun k hk => ?_) (fun _ => ?_)
        hw₃.provider (fun hall => hbad fun f hf => hall f ?_) ?_
      · rw [hout] at hk
        cases List.mem_singleton.1 hk; exact ⟨rfl, hw₃.keeps _ hq⟩
      · rw [hout]; exact List.mem_cons_self
      · exact List.mem_cons_of_mem _ (List.mem_cons_of_mem _ hf)
      · rw [handsOver_mark_fails hlead]; exact List.length_eq_zero_iff
    rcases Prog.exec_call_bind h₂ with ⟨rfl, rfl⟩ | ⟨fs₃, u₃, w₃, o₃, rfl, he₃, h₃, rfl⟩ |
      ⟨f, fs₃, e, w₃, rfl, hf, hs, rfl⟩
    · exact settled hw₂ rfl rfl rfl fun _ => rfl
    swap
    · have hw₃ : Steady w w₃ := hw₂.trans (serve_steady hs fun _ hc => by cases hc)
      exact settled hw₃ rfl rfl (lead_blocked _ hf) fun hall => absurd (hall f List.mem_cons_self) hf
    have hw₃ : Steady w w₃ :=
      hw₂.trans (serve_steady (Machine.serve_works he₃) fun _ hc => by cases hc)
    rw [List.map_cons, List.nodup_cons] at hnd
    exact (ih hnd.2 (fun q' hq' => hw₃.keeps _ (hrest q' hq')) h₃).next hw₃ hq hnd.1 rfl rfl rfl

end CopyTrade
