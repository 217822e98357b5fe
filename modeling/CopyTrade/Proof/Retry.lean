import CopyTrade.Proof.Reserving

/-!
# Copies under retry

A key that one delivery strands no later delivery takes up again: it counts a duplicate.
This module follows one delivery after another.

* `deliver_spec`: one delivery strands no key exactly when it is `Harmless`.
* `copies_survive_iff_harmless`: a clean last delivery hands over every copy exactly when
  all deliveries before it were harmless and every request can be built.
-/

namespace CopyTrade

open Async (Prog Machine Fault Outcome Served Ending lead lead_blocked)

variable {B : Type} [Ledger B]

/-! ## One delivery -/

/-- A delivery that strands no key. With `n` passing relationships, `m` of them pending,
and `j` before the first pending one: nothing is pending; the listing or a reservation
fails before a pending key is taken; every call up to the last publish works; or all but
the last publish do and the release after it lands. -/
def Harmless (event : NormalizedOrderEvent) (w : World B) (fs : List (Fault PyException)) : Prop :=
  let flags := pendingFlags event w (w.provider event)
  let n := flags.length
  let m := flags.count true
  let j := (flags.takeWhile (!·)).length
  m = 0 ∨ lead fs ≤ j ∨ (lead fs = j + 1 ∧ ∀ f ∈ fs[j + 1]?, ¬ f.Lands) ∨ n + 3 * m ≤ lead fs ∨
    (lead fs + 1 = n + 3 * m ∧ ∃ g, fs[lead fs + 1]? = some g ∧ g.Lands)

omit [Ledger B] in
/-- The closed form of the recursion over the passing relationships. -/
theorem harmlessFrom_iff : ∀ (bs : List Bool) (a : ℕ) (fs : List (Fault PyException)),
    HarmlessFrom a bs fs ↔
      a + bs.count true = 0 ∨ (a = 0 ∧ lead fs < (bs.takeWhile (!·)).length) ∨
      (a = 0 ∧ lead fs = (bs.takeWhile (!·)).length ∧
        ∀ f ∈ fs[(bs.takeWhile (!·)).length]?, ¬ f.Lands) ∨
      bs.length + 3 * (a + bs.count true) ≤ lead fs + 1 ∨
      (lead fs + 2 = bs.length + 3 * (a + bs.count true) ∧ ∃ g, fs[lead fs + 1]? = some g ∧ g.Lands) := by
  intro bs
  induction bs with
  | nil =>
    intro a fs
    simp only [HarmlessFrom, HandsOver, List.count_nil, List.takeWhile_nil, List.length_nil,
      Nat.add_zero, Nat.zero_add]
    constructor
    · rintro (h | h | h)
      · exact Or.inl h
      · exact Or.inr (Or.inr (Or.inr (Or.inl h)))
      · exact Or.inr (Or.inr (Or.inr (Or.inr h)))
    · rintro (h | ⟨h, -⟩ | ⟨h, -⟩ | h | h)
      · exact Or.inl h
      · exact Or.inl h
      · exact Or.inl h
      · exact Or.inr (Or.inl h)
      · exact Or.inr (Or.inr h)
  | cons b bs ih =>
    intro a fs
    have hn : (b :: bs).length = bs.length + 1 := rfl
    have hm : (b :: bs).count true = bs.count true + if b then 1 else 0 := by cases b <;> simp
    have hj : ((b :: bs).takeWhile (!·)).length =
        if b then 0 else (bs.takeWhile (!·)).length + 1 := by cases b <;> simp
    rw [hn, hm, hj]
    cases fs with
    | nil =>
      -- the process stops at this reservation
      show a = 0 ↔ _
      constructor
      · intro h
        cases b with
        | false => exact Or.inr (Or.inl ⟨h, Nat.succ_pos _⟩)
        | true => exact Or.inr (Or.inr (Or.inl ⟨h, rfl, fun f hf => by cases hf⟩))
      · rintro (h | ⟨h, -⟩ | ⟨h, -⟩ | h | ⟨-, g, hg, -⟩)
        · omega
        · exact h
        · exact h
        · simp only [lead] at h; omega
        · cases hg
    | cons f fs =>
      by_cases hf : f = .works
      · subst hf
        -- it answers, and one more key is in hand if it was pending
        cases b with
        | false =>
          show HarmlessFrom a bs fs ↔ _
          rw [ih]
          simp only [lead, List.getElem?_cons_succ, Bool.false_eq_true, if_false, Nat.add_zero]
          refine or_congr Iff.rfl (or_congr (and_congr_right fun _ => by omega)
            (or_congr (and_congr_right fun _ => and_congr (by omega) Iff.rfl)
              (or_congr (by omega) (and_congr (by omega) Iff.rfl))))
        | true =>
          show HarmlessFrom (a + 1) bs fs ↔ _
          rw [ih]
          simp only [lead, List.getElem?_cons_succ, if_true]
          refine or_congr (by omega) (or_congr (by omega) (or_congr
            ⟨fun h => absurd h.1 (by omega), fun h => absurd h.2.1 (by omega)⟩
            (or_congr (by omega) (and_congr (by omega) Iff.rfl))))
      · rw [harmlessFrom_blocked hf, lead_blocked _ hf]
        -- it raises, and strands its own key if that was pending and it landed
        cases b with
        | false =>
          simp only [Bool.false_eq_true, if_false, Nat.add_zero, false_imp_iff, and_true]
          constructor
          · intro h; exact Or.inr (Or.inl ⟨h, by omega⟩)
          · rintro (h | ⟨h, -⟩ | ⟨h, -⟩ | h | ⟨h, -⟩) <;> omega
        | true =>
          simp only [if_true, true_imp_iff]
          constructor
          · rintro ⟨h, hl⟩
            exact Or.inr (Or.inr (Or.inl ⟨h, trivial, fun g hg => by cases hg; exact hl⟩))
          · rintro (h | ⟨-, h⟩ | ⟨h, -, hl⟩ | h | ⟨h, -⟩)
            · omega
            · omega
            · exact ⟨h, hl f rfl⟩
            · omega
            · omega

omit [Ledger B] in
theorem harmless_listed {event : NormalizedOrderEvent} {w : World B} {fs : List (Fault PyException)} :
    Harmless event w (.works :: fs) ↔
      HarmlessFrom 0 (pendingFlags event w (w.provider event)) fs := by
  unfold Harmless
  rw [harmlessFrom_iff]
  simp only [lead, List.getElem?_cons_succ, true_and]
  exact or_congr (by omega) (or_congr (by omega) (or_congr (and_congr (by omega) Iff.rfl)
    (or_congr (by omega) (and_congr (by omega) Iff.rfl))))

/-- What one delivery does to the keys. -/
structure Delivery (event : NormalizedOrderEvent) (fs : List (Fault PyException)) (w : World B)
    (o : Outcome (engine B) Unit) : Prop where
  keeps : ∀ k, w.Reserved k → o.state.Reserved k
  out : ∀ k ∈ delivered o.calls, o.state.Reserved k ∧ ¬ w.Reserved k ∧
    ∃ r ∈ passing event (w.provider event), Buildable r ∧ k = keyOf event r
  provider : o.state.provider = w.provider
  settled : (∀ r ∈ passing event (w.provider event), Buildable r) →
    ((∀ r ∈ passing event (w.provider event), Pending event w r → o.state.Reserved (keyOf event r) →
      keyOf event r ∈ delivered o.calls) ↔ Harmless event w fs)
  complete : (∀ r ∈ passing event (w.provider event), Buildable r) → (∀ f ∈ fs, f = .works) →
    o.ending ≠ .stopped → ∀ r ∈ passing event (w.provider event), Pending event w r →
      keyOf event r ∈ delivered o.calls

theorem handle_eq (event : NormalizedOrderEvent) :
    handleNormalizedTradeEvent (.ok event) = (listActiveForEvent event >>= fun rels =>
      buildRequestsForRelationships event rels {} >>= fun result => handOver result.requests) := by
  unfold handleNormalizedTradeEvent processNormalizedOrderEvent
  rw [Prog.ofExcept_ok, Prog.bind_done, Prog.bind_assoc]

/-- The delivery ended at the listing. -/
theorem Delivery.unlisted {event : NormalizedOrderEvent} {fs : List (Fault PyException)}
    {w : World B} {o : Outcome (engine B) Unit} (hstate : o.state = w)
    (hout : delivered o.calls = []) (hlead : lead fs = 0)
    (hbad : (∀ f ∈ fs, f = .works) → o.ending = .stopped) : Delivery event fs w o := by
  refine ⟨fun k hk => by rw [hstate]; exact hk, fun k hk => ?_, by rw [hstate], fun _ => ?_,
    fun _ hall hne => absurd (hbad hall) hne⟩
  · rw [hout] at hk; cases hk
  · refine ⟨fun _ => Or.inr (Or.inl (by omega)), fun _ r _ hp hr => ?_⟩
    rw [hstate] at hr
    exact absurd hr hp

/-- **One delivery**, under any script: it strands no key exactly when it is harmless. -/
theorem deliver_spec {event : NormalizedOrderEvent} {fs : List (Fault PyException)} {w : World B}
    {o : Outcome (engine B) Unit}
    (hnd : ((passing event (w.provider event)).map (keyOf event)).Nodup)
    (h : (handleNormalizedTradeEvent (.ok event)).exec? (engine B) fs w = some o) :
    Delivery event fs w o := by
  rw [handle_eq] at h
  rcases Prog.exec_call_bind h with ⟨rfl, rfl⟩ | ⟨fs', rels, w', o', rfl, he, h', rfl⟩ |
    ⟨f, fs', e, w', rfl, hf, hs, rfl⟩
  · exact .unlisted rfl rfl rfl fun _ => rfl
  · cases he
    have r : Reserving event [] (w.provider event) fs' w o' :=
      @reserve_exec B _ event _ {} _ _ _ hnd (fun q hq => by cases hq) h'
    refine ⟨fun k hk => r.keeps k hk (by simp), fun k hk => ?_, r.provider, fun hb => ?_,
      fun hb hall hne => ?_⟩
    · obtain ⟨h1, h2⟩ := r.out k hk
      exact ⟨h1, h2.resolve_left (by simp)⟩
    · rw [harmless_listed]
      exact Iff.trans ⟨fun h => ⟨fun q hq => (by cases hq), h⟩, fun h => h.2⟩ (r.settled hb)
    · exact (r.complete hb (fun f hf => hall f (List.mem_cons_of_mem _ hf)) hne).2
  · have hw : w' = w := by
      rcases Machine.serve_state hs with ⟨-, a, ha⟩ | ⟨-, rfl⟩
      · cases ha; rfl
      · rfl
    exact .unlisted hw rfl (lead_blocked _ hf) fun hall => absurd (hall f List.mem_cons_self) hf

/-! ## Deliveries one after another -/

/-- Deliver the event once for each script, one after another. -/
def deliver? (event : NormalizedOrderEvent) :
    List (List (Fault PyException)) → World B → Option (World B × List (Served CopyEngine))
  | [], w => some (w, [])
  | fs :: rest, w =>
    ((handleNormalizedTradeEvent (.ok event)).exec? (engine B) fs w).bind fun o =>
      (deliver? event rest o.state).map fun a => (a.1, o.calls ++ a.2)

/-- Every delivery is harmless in the state it starts in. -/
def AllHarmless (event : NormalizedOrderEvent) : List (List (Fault PyException)) → World B → Prop
  | [], _ => True
  | fs :: rest, w => Harmless event w fs ∧ ∀ o,
    (handleNormalizedTradeEvent (.ok event)).exec? (engine B) fs w = some o →
      AllHarmless event rest o.state

/-- No key of a passing relationship is stranded, given the keys handed over so far. -/
def Unstranded (event : NormalizedOrderEvent) (w : World B) (out : List String) : Prop :=
  ∀ r ∈ passing event (w.provider event), w.Reserved (keyOf event r) → keyOf event r ∈ out

/-- **A run of deliveries** strands no key exactly when each of them is harmless. -/
theorem deliver_run {event : NormalizedOrderEvent} : ∀ (scripts : List (List (Fault PyException)))
    {w w' : World B} {out : List String} {cs : List (Served CopyEngine)},
    ((passing event (w.provider event)).map (keyOf event)).Nodup →
    (∀ r ∈ passing event (w.provider event), Buildable r) → (∀ k ∈ out, w.Reserved k) →
    deliver? event scripts w = some (w', cs) →
    w'.provider = w.provider ∧ (∀ k ∈ out ++ delivered cs, w'.Reserved k) ∧
      (Unstranded event w' (out ++ delivered cs) ↔
        Unstranded event w out ∧ AllHarmless event scripts w) := by
  intro scripts
  induction scripts with
  | nil =>
    intro w w' out cs _ _ hout h
    cases h
    refine ⟨rfl, ?_, ?_⟩
    · rw [delivered_nil, List.append_nil]; exact hout
    · rw [delivered_nil, List.append_nil]
      exact ⟨fun h => ⟨h, trivial⟩, fun h => h.1⟩
  | cons fs rest ih =>
    intro w w' out cs hnd hb hout h
    obtain ⟨o, ho, h⟩ := Option.bind_eq_some_iff.1 h
    obtain ⟨⟨w₂, cs₂⟩, h₂, he⟩ := Option.map_eq_some_iff.1 h
    cases he
    have d := deliver_spec hnd ho
    have hout' : ∀ k ∈ out ++ delivered o.calls, o.state.Reserved k := by
      intro k hk
      rcases List.mem_append.1 hk with hk | hk
      · exact d.keeps k (hout k hk)
      · exact (d.out k hk).1
    obtain ⟨h1, h2, h3⟩ := ih (by rw [d.provider]; exact hnd) (by rw [d.provider]; exact hb) hout' h₂
    rw [delivered_append, ← List.append_assoc]
    refine ⟨h1.trans d.provider, h2, h3.trans ?_⟩
    -- one step: what was stranded stays so, and the delivery strands nothing iff harmless
    have hstep : Unstranded event o.state (out ++ delivered o.calls) ↔
        Unstranded event w out ∧ Harmless event w fs := by
      unfold Unstranded
      rw [d.provider, ← d.settled hb]
      constructor
      · intro hall
        refine ⟨fun r hr hres => ?_, fun r hr hp hres => ?_⟩
        · refine (List.mem_append.1 (hall r hr (d.keeps _ hres))).resolve_right fun hk => ?_
          exact (d.out _ hk).2.1 hres
        · exact (List.mem_append.1 (hall r hr hres)).resolve_left fun hk => hp (hout _ hk)
      · rintro ⟨hold, hnew⟩ r hr hres
        by_cases hp : w.Reserved (keyOf event r)
        · exact List.mem_append_left _ (hold r hr hp)
        · exact List.mem_append_right _ (hnew r hr hp hres)
    rw [hstep, and_assoc]
    refine and_congr_right fun _ => and_congr_right fun _ => ⟨fun hal o' ho' => ?_, fun hal => hal o ho⟩
    rw [ho] at ho'; cases ho'; exact hal

/-- Only keys of relationships whose request can be built are handed over. -/
theorem deliver_buildable {event : NormalizedOrderEvent} :
    ∀ (scripts : List (List (Fault PyException))) {w w' : World B} {cs : List (Served CopyEngine)},
    ((passing event (w.provider event)).map (keyOf event)).Nodup →
    deliver? event scripts w = some (w', cs) → w'.provider = w.provider ∧
      ∀ k ∈ delivered cs, ∃ r ∈ passing event (w.provider event), Buildable r ∧ k = keyOf event r := by
  intro scripts
  induction scripts with
  | nil => intro w w' cs _ h; cases h; exact ⟨rfl, fun k hk => by cases hk⟩
  | cons fs rest ih =>
    intro w w' cs hnd h
    obtain ⟨o, ho, h⟩ := Option.bind_eq_some_iff.1 h
    obtain ⟨⟨w₂, cs₂⟩, h₂, he⟩ := Option.map_eq_some_iff.1 h
    cases he
    have d := deliver_spec hnd ho
    obtain ⟨h1, h2⟩ := ih (by rw [d.provider]; exact hnd) h₂
    refine ⟨h1.trans d.provider, fun k hk => ?_⟩
    rw [delivered_append] at hk
    rcases List.mem_append.1 hk with hk | hk
    · exact (d.out k hk).2.2
    · rw [d.provider] at h2; exact h2 k hk

/-- **No copy is lost under retry**, exactly when nothing was stranded: after a last delivery
without a failing call, every copy was handed over if and only if every request can be built
and every earlier delivery was harmless. -/
theorem copies_survive_iff_harmless {event : NormalizedOrderEvent} {w w₁ : World B}
    {scripts : List (List (Fault PyException))} {last : List (Fault PyException)}
    {cs : List (Served CopyEngine)} {o : Outcome (engine B) Unit}
    (hid : ((w.provider event).map (·.copyRelationshipId)).Nodup)
    (hfree : ∀ r ∈ w.provider event, ¬ w.Reserved (keyOf event r))
    (h : deliver? event scripts w = some (w₁, cs))
    (ho : (handleNormalizedTradeEvent (.ok event)).exec? (engine B) last w₁ = some o)
    (hworks : ∀ f ∈ last, f = .works) (hends : o.ending ≠ .stopped) :
    (∀ r ∈ w.provider event, passesGates event r = true →
        keyOf event r ∈ delivered (cs ++ o.calls)) ↔
      (∀ r ∈ w.provider event, passesGates event r = true → Buildable r) ∧
        AllHarmless event scripts w := by
  have hnd : ((passing event (w.provider event)).map (keyOf event)).Nodup := nodup_keys hid
  have hpass : ∀ {P : CopyRelationship → Prop}, (∀ r ∈ w.provider event, passesGates event r = true → P r) ↔
      ∀ r ∈ passing event (w.provider event), P r := by
    intro P
    unfold passing
    simp only [List.mem_filter, and_imp]
  rw [hpass, hpass]
  obtain ⟨hprov, hout₁⟩ := deliver_buildable scripts hnd h
  have hnd₁ : ((passing event (w₁.provider event)).map (keyOf event)).Nodup := by rw [hprov]; exact hnd
  have d := deliver_spec hnd₁ ho
  rw [delivered_append]
  -- what is handed over can be built, so assume that of every passing relationship
  by_cases hb : ∀ r ∈ passing event (w.provider event), Buildable r
  swap
  · refine ⟨fun hall => absurd (fun r hr => ?_) hb, fun hall => absurd hall.1 hb⟩
    have hsame : ∃ r' ∈ passing event (w.provider event), Buildable r' ∧ keyOf event r = keyOf event r' := by
      rcases List.mem_append.1 (hall r hr) with hk | hk
      · exact hout₁ _ hk
      · have := (d.out _ hk).2.2
        rwa [hprov] at this
    obtain ⟨r', hr', hb', hk⟩ := hsame
    exact (List.inj_on_of_nodup_map hnd hr hr' hk) ▸ hb'
  have hb₁ : ∀ r ∈ passing event (w₁.provider event), Buildable r := by rw [hprov]; exact hb
  have hnone : ∀ k ∈ ([] : List String), w.Reserved k := fun k hk => by cases hk
  obtain ⟨-, hheld, hrun⟩ := deliver_run scripts hnd hb hnone h
  have hstart : Unstranded event w [] := fun r hr hres =>
    absurd hres (hfree r (List.mem_of_mem_filter hr))
  rw [List.nil_append, and_iff_right hstart] at hrun
  rw [and_iff_right hb, ← hrun]
  unfold Unstranded
  rw [hprov]
  constructor
  · intro hall r hr hres
    exact (List.mem_append.1 (hall r hr)).resolve_right fun hk => (d.out _ hk).2.1 hres
  · intro hun r hr
    by_cases hp : w₁.Reserved (keyOf event r)
    · exact List.mem_append_left _ (hun r hr hp)
    · have := d.complete hb₁ hworks hends r (by rw [hprov]; exact hr) hp
      exact List.mem_append_right _ this

/-- The publish raises, its key is released, and the next delivery hands the copy over. -/
theorem copies_survive_iff_harmless_released :
    let w : World Unit := .start [sampleRelationship] ()
    let scripts := [[.works, .works, .works, .before ⟨"TimeoutError"⟩, .works]]
    ∃ w₁ cs o, deliver? sampleEvent scripts w = some (w₁, cs) ∧
      (handleNormalizedTradeEvent (.ok sampleEvent)).exec? (engine Unit)
        [.works, .works, .works, .works, .works] w₁ = some o ∧
      (∀ r ∈ [sampleRelationship], passesGates sampleEvent r = true →
        keyOf sampleEvent r ∈ delivered (cs ++ o.calls)) ∧ AllHarmless sampleEvent scripts w := by
  intro w scripts
  have hrun : ((deliver? sampleEvent scripts w).bind fun a =>
      ((handleNormalizedTradeEvent (.ok sampleEvent)).exec? (engine Unit)
        [.works, .works, .works, .works, .works] a.1).map fun o =>
          (delivered (a.2 ++ o.calls), o.ending)) =
      some ([keyOf sampleEvent sampleRelationship], .returned ()) := by decide
  obtain ⟨⟨w₁, cs⟩, hd, hrun⟩ := Option.bind_eq_some_iff.1 hrun
  obtain ⟨o, ho, hend⟩ := Option.map_eq_some_iff.1 hrun
  obtain ⟨hout, hend⟩ := Prod.mk.inj hend
  have hall : ∀ r ∈ [sampleRelationship], passesGates sampleEvent r = true →
      keyOf sampleEvent r ∈ delivered (cs ++ o.calls) := by
    intro r hr _
    rw [List.mem_singleton.1 hr, hout]; exact List.mem_cons_self
  have hiff := copies_survive_iff_harmless (w := w) (by decide) (by decide) hd ho (by decide)
    (by rw [hend]; decide)
  exact ⟨w₁, cs, o, hd, ho, hall, (hiff.1 hall).2⟩

/-- **A lost copy**: the record raises once, and the clean delivery after it finds the key
reserved and publishes nothing. -/
theorem copy_lost_after_failed_record :
    ¬ ∀ (scripts : List (List (Fault PyException))) (last : List (Fault PyException))
      (w₁ : World Unit) (cs : List (Served CopyEngine)) (o : Outcome (engine Unit) Unit),
      deliver? sampleEvent scripts (.start [sampleRelationship] ()) = some (w₁, cs) →
      (handleNormalizedTradeEvent (.ok sampleEvent)).exec? (engine Unit) last w₁ = some o →
      (∀ f ∈ last, f = .works) → o.ending ≠ .stopped →
      ∀ r ∈ [sampleRelationship], passesGates sampleEvent r = true →
        keyOf sampleEvent r ∈ delivered (cs ++ o.calls) := by
  intro hall
  have hrun : ((deliver? sampleEvent [[.works, .works, .before ⟨"ConnectionError"⟩]]
      (.start [sampleRelationship] () : World Unit)).bind fun a =>
      ((handleNormalizedTradeEvent (.ok sampleEvent)).exec? (engine Unit)
        [.works, .works] a.1).map fun o => (delivered (a.2 ++ o.calls), o.ending)) =
      some ([], .returned ()) := by decide
  obtain ⟨⟨w₁, cs⟩, hd, hrun⟩ := Option.bind_eq_some_iff.1 hrun
  obtain ⟨o, ho, hend⟩ := Option.map_eq_some_iff.1 hrun
  obtain ⟨hout, hend⟩ := Prod.mk.inj hend
  have := hall _ _ w₁ cs o hd ho (by decide) (by rw [hend]; decide) sampleRelationship
    List.mem_cons_self (by decide)
  rw [hout] at this; cases this

end CopyTrade
