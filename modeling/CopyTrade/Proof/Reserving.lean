import CopyTrade.Proof.HandingOver

/-!
# The reserving loop under a script

All keys of an event are reserved before the first request is recorded, so a reservation
that fails strands every key in hand.

* `HarmlessFrom`: which scripts strand no key, by recursion over the relationships.
* `Reserving.stuck`, `Reserving.taken`, `Reserving.take`: one turn of the loop.
* `reserve_exec`: the loop, and the publishing loop after it.
-/

namespace CopyTrade

open Async (Prog Fault Outcome Served)

variable {B : Type} [Ledger B]

/-- Whether a passing relationship's key is still to be taken. -/
def Pending (event : NormalizedOrderEvent) (w : World B) (r : CopyRelationship) : Prop :=
  ¬ w.Reserved (keyOf event r)

instance (event : NormalizedOrderEvent) (w : World B) (r : CopyRelationship) :
    Decidable (Pending event w r) := inferInstanceAs (Decidable (¬ _))

/-- With `a` keys in hand, and the keys of the passing relationships left pending or not:
a failed reservation strands what is in hand, and its own key if it landed. -/
def HarmlessFrom : ℕ → List Bool → List (Fault PyException) → Prop
  | a, [], fs => HandsOver a fs
  | a, _ :: _, [] => a = 0
  | a, b :: bs, .works :: fs => HarmlessFrom (if b then a + 1 else a) bs fs
  | a, b :: _, f :: _ => a = 0 ∧ (b = true → ¬ f.Lands)

/-- Which of the passing relationships' keys are pending. -/
def pendingFlags (event : NormalizedOrderEvent) (w : World B) (rels : List CopyRelationship) :
    List Bool :=
  (passing event rels).map fun r => decide (Pending event w r)

omit [Ledger B] in
theorem pendingFlags_cons {event : NormalizedOrderEvent} {w : World B} {r : CopyRelationship}
    {rest : List CopyRelationship} (hg : passesGates event r = true) :
    pendingFlags event w (r :: rest) = decide (Pending event w r) :: pendingFlags event w rest := by
  unfold pendingFlags passing
  rw [List.filter_cons_of_pos hg, List.map_cons]

theorem harmlessFrom_blocked {a : ℕ} {b : Bool} {bs : List Bool} {f : Fault PyException}
    {fs : List (Fault PyException)} (hf : f ≠ .works) :
    HarmlessFrom a (b :: bs) (f :: fs) ↔ a = 0 ∧ (b = true → ¬ f.Lands) := by
  cases f with
  | works => exact absurd rfl hf
  | before e => exact Iff.rfl
  | after e => exact Iff.rfl

/-- What the reserving loop from the requests `acc`, and the publishing loop after it, do
to the keys. -/
structure Reserving (event : NormalizedOrderEvent) (acc : List CopyExecutionRequest)
    (rels : List CopyRelationship) (fs : List (Fault PyException)) (w : World B)
    (o : Outcome (engine B) Unit) : Prop where
  keeps : ∀ k, w.Reserved k → k ∉ acc.map (·.idempotencyKey) → o.state.Reserved k
  out : ∀ k ∈ delivered o.calls, o.state.Reserved k ∧ (k ∈ acc.map (·.idempotencyKey) ∨
    (¬ w.Reserved k ∧ ∃ r ∈ passing event rels, Buildable r ∧ k = keyOf event r))
  provider : o.state.provider = w.provider
  settled : (∀ r ∈ passing event rels, Buildable r) →
    (((∀ q ∈ acc, o.state.Reserved q.idempotencyKey → q.idempotencyKey ∈ delivered o.calls) ∧
      ∀ r ∈ passing event rels, Pending event w r → o.state.Reserved (keyOf event r) →
        keyOf event r ∈ delivered o.calls) ↔
      HarmlessFrom acc.length (pendingFlags event w rels) fs)
  complete : (∀ r ∈ passing event rels, Buildable r) → (∀ f ∈ fs, f = .works) →
    o.ending ≠ .stopped → (∀ q ∈ acc, q.idempotencyKey ∈ delivered o.calls) ∧
      ∀ r ∈ passing event rels, Pending event w r → keyOf event r ∈ delivered o.calls

/-- The loop ended at the reservation for `r`: nothing was handed over, and of the keys it
still had to take it took at most that of `r`. -/
theorem Reserving.stuck {event : NormalizedOrderEvent} {acc : List CopyExecutionRequest}
    {r : CopyRelationship} {rest : List CopyRelationship} {fs : List (Fault PyException)}
    {w : World B} {o : Outcome (engine B) Unit} (hg : passesGates event r = true)
    (hin : ∀ q ∈ acc, w.Reserved q.idempotencyKey)
    (hnd : ((passing event (r :: rest)).map (keyOf event)).Nodup)
    (hw : Steady w o.state)
    (hnew : ∀ k, o.state.Reserved k → w.Reserved k ∨ k = keyOf event r)
    (hout : delivered o.calls = []) (hbad : (∀ f ∈ fs, f = .works) → o.ending = .stopped)
    (hscript : HarmlessFrom acc.length (pendingFlags event w (r :: rest)) fs ↔
      acc = [] ∧ (Pending event w r → ¬ o.state.Reserved (keyOf event r))) :
    Reserving event acc (r :: rest) fs w o := by
  have hcons : passing event (r :: rest) = r :: passing event rest := List.filter_cons_of_pos hg
  refine ⟨fun k hk _ => hw.keeps k hk, fun k hk => ?_, hw.provider, fun _ => ?_,
    fun _ hall hne => absurd (hbad hall) hne⟩
  · rw [hout] at hk; cases hk
  · rw [hscript, hout]
    refine and_congr ⟨fun h => ?_, fun h q hq => ?_⟩ ⟨fun h hp hr => ?_, fun h r' hr' hp hres => ?_⟩
    · cases acc with
      | nil => rfl
      | cons q acc =>
        have := h q List.mem_cons_self (hw.keeps _ (hin q List.mem_cons_self))
        cases this
    · rw [h] at hq; cases hq
    · have := h r (by rw [hcons]; exact List.mem_cons_self) hp hr
      cases this
    · rw [hcons] at hr' hnd
      rcases List.mem_cons.1 hr' with rfl | hr'
      · exact absurd hres (h hp)
      · -- another relationship's key: it is as pending as before
        rcases hnew _ hres with hk | hk
        · exact absurd hk hp
        · rw [List.map_cons, List.nodup_cons] at hnd
          exact absurd (List.mem_map.2 ⟨r', hr', hk⟩) hnd.1

/-- A relationship that fails a gate does not matter. -/
theorem Reserving.skip {event : NormalizedOrderEvent} {acc : List CopyExecutionRequest}
    {r : CopyRelationship} {rest : List CopyRelationship} {fs : List (Fault PyException)}
    {w : World B} {o : Outcome (engine B) Unit} (h : Reserving event acc rest fs w o)
    (hg : passesGates event r = false) : Reserving event acc (r :: rest) fs w o := by
  have hcons : passing event (r :: rest) = passing event rest :=
    List.filter_cons_of_neg (by rw [hg]; decide)
  have hflags : pendingFlags event w (r :: rest) = pendingFlags event w rest := by
    unfold pendingFlags; rw [hcons]
  refine ⟨h.keeps, ?_, h.provider, ?_, ?_⟩
  · rw [hcons]; exact h.out
  · rw [hcons, hflags]; exact h.settled
  · rw [hcons]; exact h.complete

/-- The reservation answered that the key is taken. -/
theorem Reserving.taken {event : NormalizedOrderEvent} {acc : List CopyExecutionRequest}
    {r : CopyRelationship} {rest : List CopyRelationship} {fs : List (Fault PyException)}
    {w w₁ : World B} {o o₁ : Outcome (engine B) Unit} (h : Reserving event acc rest fs w₁ o₁)
    (hg : passesGates event r = true) (hheld : w.Reserved (keyOf event r))
    (hres : ∀ k, w₁.Reserved k ↔ w.Reserved k) (hprov : w₁.provider = w.provider)
    (hstate : o.state = o₁.state) (hending : o.ending = o₁.ending)
    (hout : delivered o.calls = delivered o₁.calls) :
    Reserving event acc (r :: rest) (.works :: fs) w o := by
  have hcons : passing event (r :: rest) = r :: passing event rest := List.filter_cons_of_pos hg
  -- no key changed hands, so as many are pending as before
  have hpend : ∀ r', Pending event w₁ r' ↔ Pending event w r' := fun r' => not_congr (hres _)
  have hflags : pendingFlags event w (r :: rest) = false :: pendingFlags event w₁ rest := by
    unfold pendingFlags
    rw [hcons, List.map_cons]
    congr 1
    · exact decide_eq_false fun hp => hp hheld
    · exact List.map_congr_left fun r' _ => decide_eq_decide.2 (hpend r').symm
  refine ⟨fun k hk hn => ?_, fun k hk => ?_, by rw [hstate, h.provider, hprov], fun hb => ?_,
    fun hb hall hne => ?_⟩
  · rw [hstate]; exact h.keeps k ((hres k).2 hk) hn
  · rw [hout] at hk
    rw [hstate]
    obtain ⟨h1, h2⟩ := h.out k hk
    refine ⟨h1, h2.imp_right ?_⟩
    rintro ⟨hk', r', hr', hb, he⟩
    exact ⟨fun hk => hk' ((hres k).2 hk), r', by rw [hcons]; exact List.mem_cons_of_mem _ hr', hb, he⟩
  · have hs := h.settled fun r' hr' => hb r' (by rw [hcons]; exact List.mem_cons_of_mem _ hr')
    rw [hflags, hout, hstate]
    refine Iff.trans (and_congr_right fun _ => ?_) hs
    rw [hcons, List.forall_mem_cons]
    constructor
    · intro h' r' hr' hp; exact h'.2 r' hr' ((hpend r').1 hp)
    · intro h'; exact ⟨fun hp => absurd hheld hp, fun r' hr' hp => h' r' hr' ((hpend r').2 hp)⟩
  · rw [hout]
    obtain ⟨h1, h2⟩ := h.complete
      (fun r' hr' => hb r' (by rw [hcons]; exact List.mem_cons_of_mem _ hr'))
      (fun f hf => hall f (List.mem_cons_of_mem _ hf)) (hending ▸ hne)
    refine ⟨h1, ?_⟩
    rw [hcons, List.forall_mem_cons]
    exact ⟨fun hp => absurd hheld hp, fun r' hr' hp => h2 r' hr' ((hpend r').2 hp)⟩

/-- The reservation took the key: one more request in hand. -/
theorem Reserving.take {event : NormalizedOrderEvent} {acc : List CopyExecutionRequest}
    {q : CopyExecutionRequest} {r : CopyRelationship} {rest : List CopyRelationship}
    {fs : List (Fault PyException)} {w w₁ : World B} {o o₁ : Outcome (engine B) Unit}
    (h : Reserving event (acc ++ [q]) rest fs w₁ o₁) (hg : passesGates event r = true)
    (hb : Buildable r) (hq : q.idempotencyKey = keyOf event r)
    (hfree : ¬ w.Reserved (keyOf event r))
    (hnd : ((passing event (r :: rest)).map (keyOf event)).Nodup)
    (hres : ∀ k, w₁.Reserved k ↔ w.Reserved k ∨ k = keyOf event r)
    (hprov : w₁.provider = w.provider) (hstate : o.state = o₁.state)
    (hending : o.ending = o₁.ending) (hout : delivered o.calls = delivered o₁.calls) :
    Reserving event acc (r :: rest) (.works :: fs) w o := by
  have hcons : passing event (r :: rest) = r :: passing event rest := List.filter_cons_of_pos hg
  rw [hcons, List.map_cons, List.nodup_cons] at hnd
  -- the keys of the other relationships are as pending as before
  have hpend : ∀ r' ∈ passing event rest, (Pending event w₁ r' ↔ Pending event w r') := by
    intro r' hr'
    refine not_congr ⟨fun hk => ?_, fun hk => (hres _).2 (Or.inl hk)⟩
    exact ((hres _).1 hk).resolve_right fun he => hnd.1 (List.mem_map.2 ⟨r', hr', he⟩)
  have hflags : pendingFlags event w (r :: rest) = true :: pendingFlags event w₁ rest := by
    unfold pendingFlags
    rw [hcons, List.map_cons]
    congr 1
    · exact decide_eq_true hfree
    · exact List.map_congr_left fun r' hr' => decide_eq_decide.2 (hpend r' hr').symm
  refine ⟨fun k hk hn => ?_, fun k hk => ?_, by rw [hstate, h.provider, hprov], fun hb' => ?_,
    fun hb' hall hne => ?_⟩
  · rw [hstate]
    refine h.keeps k ((hres k).2 (Or.inl hk)) fun hm => ?_
    rw [List.map_append, List.mem_append] at hm
    rcases hm with hm | hm
    · exact hn hm
    · rw [List.map_cons, List.map_nil, List.mem_singleton, hq] at hm
      exact hfree (hm ▸ hk)
  · rw [hout] at hk
    rw [hstate]
    obtain ⟨h1, h2⟩ := h.out k hk
    refine ⟨h1, ?_⟩
    rcases h2 with hm | ⟨hk', r', hr', hb', he⟩
    · rw [List.map_append, List.mem_append] at hm
      refine hm.imp_right fun hm => ?_
      rw [List.map_cons, List.map_nil, List.mem_singleton, hq] at hm
      exact ⟨hm ▸ hfree, r, by rw [hcons]; exact List.mem_cons_self, hb, hm⟩
    · exact Or.inr ⟨fun hk => hk' ((hres k).2 (Or.inl hk)), r',
        by rw [hcons]; exact List.mem_cons_of_mem _ hr', hb', he⟩
  · have hs := h.settled fun r' hr' => hb' r' (by rw [hcons]; exact List.mem_cons_of_mem _ hr')
    rw [List.length_append, List.length_singleton] at hs
    rw [hflags, hout, hstate]
    show _ ↔ HarmlessFrom (acc.length + 1) (pendingFlags event w₁ rest) fs
    rw [← hs, hcons, List.forall_mem_cons, ← hq]
    constructor
    · rintro ⟨h1, h2, h3⟩
      refine ⟨fun q' hq' => ?_, fun r' hr' hp => h3 r' hr' ((hpend r' hr').1 hp)⟩
      rcases List.mem_append.1 hq' with hq' | hq'
      · exact h1 q' hq'
      · rw [List.mem_singleton.1 hq']; exact h2 (by unfold Pending; exact hfree)
    · rintro ⟨h1, h2⟩
      refine ⟨fun q' hq' => h1 q' (List.mem_append_left _ hq'), fun _ => ?_,
        fun r' hr' hp => h2 r' hr' ((hpend r' hr').2 hp)⟩
      exact h1 q (List.mem_append_right _ (List.mem_singleton_self q))
  · rw [hout]
    obtain ⟨h1, h2⟩ := h.complete
      (fun r' hr' => hb' r' (by rw [hcons]; exact List.mem_cons_of_mem _ hr'))
      (fun f hf => hall f (List.mem_cons_of_mem _ hf)) (hending ▸ hne)
    refine ⟨fun q' hq' => h1 q' (List.mem_append_left _ hq'), ?_⟩
    rw [hcons, List.forall_mem_cons]
    refine ⟨fun _ => ?_, fun r' hr' hp => h2 r' hr' ((hpend r' hr').2 hp)⟩
    rw [← hq]; exact h1 q (List.mem_append_right _ (List.mem_singleton_self q))

/-- **The reserving loop, and the publishing loop after it**, under any script, from a
state in which the keys in hand are reserved. -/
theorem reserve_exec {event : NormalizedOrderEvent} : ∀ (rels : List CopyRelationship)
    {acc : ProcessingResult} {fs : List (Fault PyException)} {w : World B}
    {o : Outcome (engine B) Unit},
    (acc.requests.map (·.idempotencyKey) ++ (passing event rels).map (keyOf event)).Nodup →
    (∀ q ∈ acc.requests, w.Reserved q.idempotencyKey) →
    (buildRequestsForRelationships event rels acc >>= fun result =>
      handOver result.requests).exec? (engine B) fs w = some o →
    Reserving event acc.requests rels fs w o := by
  intro rels
  induction rels with
  | nil =>
    intro acc fs w o hnd hin h
    have hr := handOver_exec acc.requests (List.Nodup.of_append_left hnd) hin h
    refine ⟨hr.keeps, fun k hk => ⟨(hr.out k hk).2, Or.inl (hr.out k hk).1⟩, hr.provider,
      fun _ => ?_, fun _ hall hne => ⟨hr.complete hall hne, fun r hr => by cases hr⟩⟩
    show _ ↔ HandsOver acc.requests.length fs
    rw [← hr.settled]
    exact ⟨fun h => h.1, fun h => ⟨h, fun r hr => by cases hr⟩⟩
  | cons r rest ih =>
    intro acc fs w o hnd hin h
    rcases build_cons event r rest acc with ⟨hg, heq⟩ | ⟨hg, heq⟩
    swap
    · have hcons : passing event (r :: rest) = passing event rest :=
        List.filter_cons_of_neg (by rw [hg]; decide)
      rw [heq] at h
      rw [hcons] at hnd
      rw [← skip_requests event r acc] at hnd hin ⊢
      exact (ih hnd hin h).skip hg
    have hcons : passing event (r :: rest) = r :: passing event rest := List.filter_cons_of_pos hg
    have hnd₂ : ((passing event (r :: rest)).map (keyOf event)).Nodup :=
      List.Nodup.of_append_right hnd
    have hflags : pendingFlags event w (r :: rest) =
        decide (Pending event w r) :: pendingFlags event w rest := pendingFlags_cons hg
    have hnd_rest : (acc.requests.map (·.idempotencyKey) ++
        (passing event rest).map (keyOf event)).Nodup := by
      rw [hcons, List.map_cons] at hnd
      exact (hnd.sublist ((List.Sublist.refl _).append (List.sublist_cons_self _ _)))
    rw [heq] at h
    cases reserveFor_exec h with
    | invalid hb =>
      -- the builder raised: there is nothing to say about requests that cannot be built
      have hmem : r ∈ passing event (r :: rest) := by rw [hcons]; exact List.mem_cons_self
      refine ⟨fun k hk _ => hk, fun k hk => ?_, rfl, fun hall => ?_, fun hall => ?_⟩
      · cases hk
      · exact absurd (hall r hmem) hb
      · exact absurd (hall r hmem) hb
    | stopped =>
      refine .stuck hg hin hnd₂ ⟨fun k hk => hk, rfl⟩ (fun k hk => Or.inl hk) rfl (fun _ => rfl) ?_
      rw [hflags]
      show acc.requests.length = 0 ↔ _
      rw [List.length_eq_zero_iff]
      exact ⟨fun h => ⟨h, fun hp => hp⟩, fun h => h.1⟩
    | @taken fs' _ o' hheld h' =>
      have r' : Reserving event acc.requests rest fs' ((engine B).draw w).2 o' :=
        @ih { acc with skippedDuplicates := acc.skippedDuplicates + 1 } _ _ _ hnd_rest hin h'
      exact r'.taken hg hheld (fun _ => Iff.rfl) rfl rfl rfl rfl
    | @took fs' _ w' o' q hb hbuilt hfree hres hprov h' =>
      have hkey : q.idempotencyKey = keyOf event r := hbuilt.key
      have hnd' : (((acc.requests ++ [q]).map (·.idempotencyKey)) ++
          (passing event rest).map (keyOf event)).Nodup := by
        rw [List.map_append, List.map_cons, List.map_nil, hkey, List.append_assoc]
        rw [hcons, List.map_cons] at hnd
        exact hnd
      have hin₂ : ∀ q' ∈ acc.requests ++ [q], w'.Reserved q'.idempotencyKey := by
        intro q' hq'
        rcases List.mem_append.1 hq' with hq' | hq'
        · exact (hres _).2 (Or.inl (hin q' hq'))
        · rw [List.mem_singleton.1 hq', hkey]; exact (hres _).2 (Or.inr rfl)
      have r' : Reserving event (acc.requests ++ [q]) rest fs' w' o' :=
        @ih { acc with requests := acc.requests ++ [q] } _ _ _ hnd' hin₂ h'
      exact r'.take hg hb hkey hfree hnd₂ hres hprov rfl rfl rfl
    | raised hf hw hnew hlands =>
      refine .stuck hg hin hnd₂ hw hnew rfl (fun hall => absurd (hall _ List.mem_cons_self) hf) ?_
      rw [hflags, harmlessFrom_blocked hf, List.length_eq_zero_iff, decide_eq_true_iff]
      exact and_congr_right fun _ => forall_congr' fun hp => not_congr (hlands hp)

end CopyTrade
