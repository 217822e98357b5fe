import CopyTrade.Proof.Ownership

/-!
# Limits on emitted requests

The limits are checked on the event and the relationship, and the request is built by
another function. Every recorded or published request is followed back to a
relationship its execution listed (`listing`).

* `emitted_within_limits`: what every emitted request respects.
* `emitted_beyond_limits`: what it need not respect. The builder leaves
  `max_slippage_bps` at its default, and an event without a leverage passes the leverage
  limit.
-/

namespace CopyTrade

open Async (Prog Protocol Entry Pool Input Started)

/-- The request that a call hands out. -/
def emits? : Call → Option CopyExecutionRequest
  | .record q => some q
  | .publishJson _ q => some q
  | .markPublished q => some q
  | _ => none

/-- Every request handed out along the trace was built for a relationship that the same
execution had listed for its event, within `limits`. -/
def EmittedWithin (limits : NormalizedOrderEvent → CopyRelationship → CopyExecutionRequest → Prop)
    (tr : List (Entry CopyEngine)) : Prop :=
  ∀ newer i c r older q, tr = newer ++ ⟨i, c, r⟩ :: older → emits? c = some q →
    ∃ event relationships, ⟨i, .listActiveForEvent event, .ok relationships⟩ ∈ older ∧
      ∃ relationship ∈ relationships, BuiltFrom event relationship q ∧ limits event relationship q

/-- The limits a request respects. -/
structure WithinLimits (event : NormalizedOrderEvent) (r : CopyRelationship)
    (q : CopyExecutionRequest) : Prop where
  slippage : ∃ m, r.riskMaxSlippageBps = some m ∧ r.maxSlippageBps ≤ m
  quantity : ∀ m, r.riskMaxOrderQuantity = some m → q.quantity ≤ m
  leverage : ∀ m l, r.riskMaxLeverage = some m → event.leverage = some l → l ≤ m

/-- **What the risk gate checks.** -/
theorem risk_gate {event : NormalizedOrderEvent} {r : CopyRelationship}
    (h : relationshipPassesRiskSettings event r = true) :
    (∃ m, r.riskMaxSlippageBps = some m ∧ r.maxSlippageBps ≤ m) ∧
      (∀ m, r.riskMaxOrderQuantity = some m → event.quantity ≤ m) ∧
      ∀ m l, r.riskMaxLeverage = some m → event.leverage = some l → l ≤ m := by
  unfold relationshipPassesRiskSettings at h
  split at h
  · cases h
  split at h
  · cases h
  rename_i m hm
  split at h
  · cases h
  rename_i hs
  split at h
  · cases h
  rename_i hq
  refine ⟨⟨m, hm, by omega⟩, fun n hn => ?_, fun n l hn hl => ?_⟩
  · rw [hn] at hq
    simpa using hq
  · rw [hn, hl] at h
    simpa using h

theorem withinLimits_of_gates {event : NormalizedOrderEvent} {r : CopyRelationship}
    {q : CopyExecutionRequest} (hg : passesGates event r = true) (hq : BuiltFrom event r q) :
    WithinLimits event r q := by
  have hrisk : relationshipPassesRiskSettings event r = true := by
    simp only [passesGates, Bool.and_eq_true] at hg
    exact hg.1.2
  obtain ⟨h1, h2, h3⟩ := risk_gate hrisk
  exact ⟨h1, fun m hm => by rw [hq.quantity]; exact h2 m hm, h3⟩

/-! ## Where a request comes from -/

/-- The event and the relationship that a request was built for are in the list. -/
def Sourced (l : List (NormalizedOrderEvent × CopyRelationship)) (q : CopyExecutionRequest) : Prop :=
  ∃ p ∈ l, passesGates p.1 p.2 = true ∧ BuiltFrom p.1 p.2 q

/-- Hand out only requests built for what you listed. The local state is the list. -/
def listing : Protocol CopyEngine (List (NormalizedOrderEvent × CopyRelationship)) where
  allow l c := ∀ q, emits? c = some q → Sourced l q
  next l
    | .listActiveForEvent event, .ok relationships => relationships.map (event, ·) ++ l
    | _, _ => l

/-- **The trade handler keeps the discipline.** -/
theorem trade_keeps_listing (validated : Except PyException NormalizedOrderEvent) :
    (handleNormalizedTradeEvent validated).Keeps listing [] := by
  have quiet : ∀ {c : Call} {l : List (NormalizedOrderEvent × CopyRelationship)},
      emits? c = none → listing.allow l c := by
    intro c l hc q hq
    rw [hc] at hq; cases hq
  apply trade_keeps
    (I := fun event rels l reqs => (∀ r ∈ rels, (event, r) ∈ l) ∧ ∀ q ∈ reqs, Sourced l q)
    (J := fun l reqs => ∀ q ∈ reqs, Sourced l q)
  · intro event
    refine ⟨quiet rfl, fun rels => ⟨fun r hr => ?_, fun q hq => by cases hq⟩⟩
    exact List.mem_append_left _ (List.mem_map.2 ⟨r, hr, rfl⟩)
  · intro event rels l reqs r eventId q hr hg hq h
    obtain ⟨-, -, hbuilt⟩ := builtFrom_of_ok hq
    refine ⟨quiet rfl, ⟨h.1, fun q' hq' => ?_⟩, h⟩
    rcases List.mem_append.1 hq' with hq' | hq'
    · exact h.2 q' hq'
    · rw [List.mem_singleton.1 hq']
      exact ⟨(event, r), h.1 r hr, hg, hbuilt⟩
  · intro event rels l reqs h
    exact h.2
  · intro l q rest h
    -- the calls after the record leave the list alone
    have hq : ∀ q', some q = some q' → Sourced l q' := by
      intro q' he; cases he; exact h q List.mem_cons_self
    exact ⟨hq, hq, fun _ => quiet rfl, hq, fun q' hq' => h q' (List.mem_cons_of_mem _ hq')⟩

theorem Handler.keeps_listing {q : Prog CopyEngine Unit} (h : Handler q) : q.Keeps listing [] := by
  cases h with
  | trade v => exact trade_keeps_listing v
  | result v =>
    apply result_keeps
    intro result
    constructor
    · intro q hq; cases hq
    · intro q hq; cases hq

/-- What stands in the list was listed by a call of the trace. -/
theorem listing_source {tr : List (Entry CopyEngine)} {i : ℕ}
    {p : NormalizedOrderEvent × CopyRelationship} (h : p ∈ listing.at [] tr i) :
    ∃ relationships, ⟨i, .listActiveForEvent p.1, .ok relationships⟩ ∈ tr ∧
      p.2 ∈ relationships := by
  induction tr with
  | nil => cases h
  | cons e tr ih =>
    have older : p ∈ listing.at [] tr i → ∃ relationships,
        ⟨i, .listActiveForEvent p.1, .ok relationships⟩ ∈ e :: tr ∧ p.2 ∈ relationships := by
      intro h
      obtain ⟨rels, hm, hp⟩ := ih h
      exact ⟨rels, List.mem_cons_of_mem _ hm, hp⟩
    by_cases hi : e.who = i
    swap
    · rw [listing.at_other tr hi] at h; exact older h
    subst hi
    obtain ⟨i, c, r⟩ := e
    rw [listing.at_self] at h
    cases c with
    | listActiveForEvent event =>
      rcases r with e | rels
      · exact older h
      · rcases List.mem_append.1 h with h | h
        · obtain ⟨r, hr, rfl⟩ := List.mem_map.1 h
          exact ⟨rels, List.mem_cons_self, hr⟩
        · exact older h
    | reserve key => exact older h
    | release key => exact older h
    | record q => exact older h
    | markPublished q => exact older h
    | publishJson s q => exact older h
    | insertResult q => exact older h
    | updateRequestFromResult id st => exact older h

/-! ## The limits -/

variable {B : Type} [Ledger B]

/-- **Emitted requests respect the limits their gate checks**, in every interleaving and
whatever the idempotency store holds. -/
theorem emitted_within_limits {w : World B} {xs : List (Input (engine B))} {p : Pool (engine B)}
    (hx : ∀ q, Input.begin q ∈ xs → Handler q) (h : (Pool.init w).run? xs = some p) :
    EmittedWithin WithinLimits p.trace := by
  intro newer i c r older q ht hq
  have hal : listing.Allowed [] p.trace := Pool.run_allowed (fun q hq => (hx q hq).keeps_listing) h
  rw [ht] at hal
  obtain ⟨hallow, -⟩ := hal.of_append
  obtain ⟨⟨event, rel⟩, hm, hg, hbuilt⟩ := hallow q hq
  obtain ⟨rels, hlist, hrel⟩ := listing_source hm
  exact ⟨event, rels, hlist, rel, hrel, hbuilt, withinLimits_of_gates hg hbuilt⟩

/-- A relationship with a narrow slippage and a leverage limit. -/
def narrowRelationship : CopyRelationship :=
  { sampleRelationship with maxSlippageBps := 50, riskMaxLeverage := some 5 }

/-- One delivery of the sample event, which states no leverage. -/
def oneDelivery : List (Input (engine Unit)) :=
  [.begin (handleNormalizedTradeEvent (.ok sampleEvent)), .turn 0 .works, .turn 0 .works,
    .turn 0 .works, .turn 0 .works, .turn 0 .works, .turn 0 .works]

theorem oneDelivery_handlers {q : Prog CopyEngine Unit} (hq : Input.begin q ∈ oneDelivery) :
    q = handleNormalizedTradeEvent (.ok sampleEvent) := by
  simpa [oneDelivery] using hq

theorem emitted_within_limits_once :
    ∃ p, (Pool.init (World.start [narrowRelationship] ())).run? oneDelivery = some p ∧
      p.trace.length = 5 ∧ EmittedWithin WithinLimits p.trace := by
  have hrun : ((Pool.init (World.start [narrowRelationship] ())).run? oneDelivery).map
      (fun p => p.trace.length) = some 5 := by decide
  obtain ⟨p, hp, hlen⟩ := Option.map_eq_some_iff.1 hrun
  exact ⟨p, hp, hlen,
    emitted_within_limits (fun q hq => oneDelivery_handlers hq ▸ Handler.trade _) hp⟩

/-- What an entry listed. -/
def listed : Entry CopyEngine → List (NormalizedOrderEvent × CopyRelationship)
  | ⟨_, .listActiveForEvent event, .ok relationships⟩ => relationships.map (event, ·)
  | _ => []

/-- **Beyond the limits.** A request goes out with a wider slippage than its relationship
allows, and for an event that states no leverage although there is a leverage limit. -/
theorem emitted_beyond_limits :
    ∃ p, (Pool.init (World.start [narrowRelationship] ())).run? oneDelivery = some p ∧
      ¬ EmittedWithin (fun _ r q => q.maxSlippageBps ≤ r.maxSlippageBps) p.trace ∧
      ¬ EmittedWithin (fun event r _ => ∀ m, r.riskMaxLeverage = some m →
        ∃ l, event.leverage = some l ∧ l ≤ m) p.trace := by
  have hrun : ((Pool.init (World.start [narrowRelationship] ())).run? oneDelivery).map
      (fun p => (p.trace.flatMap listed,
        (p.trace.filterMap fun e => emits? e.call).map (·.maxSlippageBps))) =
      some ([(sampleEvent, narrowRelationship)], [100, 100, 100]) := by decide
  obtain ⟨p, hp, hboth⟩ := Option.map_eq_some_iff.1 hrun
  obtain ⟨hlisted, hemit⟩ := Prod.mk.inj hboth
  refine ⟨p, hp, ?_⟩
  have hsource : ∀ {limits}, EmittedWithin limits p.trace →
      ∃ q, q.maxSlippageBps = 100 ∧ limits sampleEvent narrowRelationship q := by
    intro limits hall
    have hmem : 100 ∈ (p.trace.filterMap fun e => emits? e.call).map (·.maxSlippageBps) := by
      rw [hemit]; exact List.mem_cons_self
    obtain ⟨q, hq, hslip⟩ := List.mem_map.1 hmem
    obtain ⟨⟨i, c, r⟩, he, hc⟩ := List.mem_filterMap.1 hq
    obtain ⟨newer, older, ht⟩ := List.append_of_mem he
    obtain ⟨event, rels, hm, rel, hrel, -, hlim⟩ := hall newer i c r older q ht hc
    -- the run lists one relationship only
    have hone : (event, rel) ∈ p.trace.flatMap listed := by
      refine List.mem_flatMap.2 ⟨⟨i, .listActiveForEvent event, .ok rels⟩, ?_, ?_⟩
      · rw [ht]; exact List.mem_append_right _ (List.mem_cons_of_mem _ hm)
      · exact List.mem_map.2 ⟨rel, hrel, rfl⟩
    rw [hlisted, List.mem_singleton] at hone
    obtain ⟨rfl, rfl⟩ := Prod.mk.inj hone
    exact ⟨q, hslip, hlim⟩
  constructor
  · intro hall
    obtain ⟨q, hslip, hlim⟩ := hsource hall
    rw [hslip] at hlim
    exact absurd hlim (by decide)
  · intro hall
    obtain ⟨q, -, hlim⟩ := hsource hall
    obtain ⟨l, hl, -⟩ := hlim 5 rfl
    cases hl

end CopyTrade
