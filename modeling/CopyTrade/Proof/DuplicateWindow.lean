import CopyTrade.Proof.Ownership

/-!
# One order per key in the stream

Two things keep a second order out of the stream: the reserved key, and the broker's
duplicate window. A publish that raises gives the key back, though the broker may have
appended the message. From then on only the window is left.

* `appended`: every key in the log was handed over or had a publish that raised.
* `one_order_step`: one step keeps one message per key exactly when it is no retry, of a
  message the log holds, that comes too late.
* `one_order_iff_retries_in_window`: so does a run.
-/

namespace CopyTrade

open Async (Prog Protocol Entry Pool Input Invariant Started Machine Fault)

variable {B : Type}

/-- At most one message per idempotency key stands in the stream. -/
def World.OneOrder (w : World B) : Prop := (w.stream.map (·.body.idempotencyKey)).Nodup

instance (w : World B) : Decidable w.OneOrder :=
  inferInstanceAs (Decidable (w.stream.map (·.body.idempotencyKey)).Nodup)

/-- A publish of the key raised. -/
def Raised (tr : List (Entry CopyEngine)) (key : String) : Prop :=
  ∃ i s q e, q.idempotencyKey = key ∧ ⟨i, .publishJson s q, .error e⟩ ∈ tr

/-- The log carries the keys as message ids, and how each key came there is known. -/
structure Appended (w : World B) (tr : List (Entry CopyEngine)) : Prop where
  keyed : ∀ m ∈ w.stream, m.msgId = some m.body.idempotencyKey
  known : ∀ key, w.stream.Seen key → key ∈ handedOver tr ∨ Raised tr key

theorem Raised.older {tr : List (Entry CopyEngine)} {key : String} (h : Raised tr key)
    (e : Entry CopyEngine) : Raised (e :: tr) key := by
  obtain ⟨i, s, q, x, hq, hm⟩ := h
  exact ⟨i, s, q, x, hq, List.mem_cons_of_mem _ hm⟩

theorem handedOver_older {tr : List (Entry CopyEngine)} {key : String} (h : key ∈ handedOver tr)
    (e : Entry CopyEngine) : key ∈ handedOver (e :: tr) := by
  obtain ⟨x, hx, hk⟩ := List.mem_filterMap.1 h
  exact List.mem_filterMap.2 ⟨x, List.mem_cons_of_mem _ hx, hk⟩

/-- Where the keys are the message ids, one message per id is one per key. -/
theorem Appended.oneOrder_iff {w : World B} {tr : List (Entry CopyEngine)} (h : Appended w tr) :
    w.OneOrder ↔ w.stream.OneEach := by
  have hids : w.stream.filterMap (·.msgId) = w.stream.map (·.body.idempotencyKey) := by
    rw [← List.filterMap_eq_map]
    exact List.filterMap_congr fun m hm => h.keyed m hm
  unfold World.OneOrder Broker.Log.OneEach
  rw [hids]

theorem Appended.publish {w : World B} {tr : List (Entry CopyEngine)} {i : ℕ} {s : String}
    {q : CopyExecutionRequest} (h : Appended w tr) (r : CopyEngine.Reply (.publishJson s q)) :
    Appended (w.publishJson s q) (⟨i, .publishJson s q, r⟩ :: tr) := by
  refine ⟨fun m hm => ?_, fun key hk => ?_⟩
  · rw [World.stream_publishJson] at hm
    rcases Broker.Log.mem_append hm with hm | rfl
    · exact h.keyed m hm
    · rfl
  · obtain ⟨m, hm, hid⟩ := hk
    rw [World.stream_publishJson] at hm
    rcases Broker.Log.mem_append hm with hm | rfl
    · exact (h.known key ⟨m, hm, hid⟩).imp (fun hk => handedOver_older hk _) fun hk => hk.older _
    · -- the new message: its publish answered, or raised although it landed
      cases hid
      cases r with
      | ok u => exact Or.inl (List.mem_filterMap.2 ⟨_, List.mem_cons_self, rfl⟩)
      | error e => exact Or.inr ⟨i, s, q, e, rfl, List.mem_cons_self⟩

theorem Appended.idle {w w' : World B} {tr : List (Entry CopyEngine)} (h : Appended w tr)
    (hs : w'.stream = w.stream) (e : Entry CopyEngine) : Appended w' (e :: tr) := by
  refine ⟨fun m hm => h.keyed m (hs ▸ hm), fun key hk => ?_⟩
  rw [hs] at hk
  exact (h.known key hk).imp (fun hk => handedOver_older hk e) fun hk => hk.older e

variable [Ledger B]

/-- **Every call keeps the account of the log.** -/
theorem appended : Invariant (engine B) ownership {} Appended := by
  refine ⟨fun w tr h => ⟨h.keyed, h.known⟩, fun w tr m w' h hm => ?_,
    fun w tr i c f r w' h _ hs => ?_⟩
  · have hst := (move_cases hm).2.2
    exact ⟨fun m hm => h.keyed m (hst ▸ hm), fun key hk => h.known key (hst ▸ hk)⟩
  by_cases hc : ∃ s q, c = .publishJson s q
  · obtain ⟨s, q, rfl⟩ := hc
    rcases publish_serve hs with ⟨-, rfl⟩ | ⟨-, rfl, -⟩
    · exact h.publish r
    · exact h.idle rfl _
  · exact h.idle (stream_serve hs fun s q he => hc ⟨s, q, he⟩) _

/-! ## Retries and the window -/

/-- The key that this input would publish to the broker. -/
def landing? (p : Pool (engine B)) : Input (engine B) → Option String
  | .turn i f =>
    match p.running[i]? with
    | some (.await (.publishJson _ q) _) => if f.Lands then some q.idempotencyKey else none
    | _ => none
  | _ => none

/-- If this input publishes a key again whose publish raised although its message was
appended, then it does so less than 120 seconds after that message. -/
def RetriesInWindow (p : Pool (engine B)) (x : Input (engine B)) : Prop :=
  ∀ key, landing? p x = some key → Raised p.trace key → p.state.stream.Seen key →
    p.state.stream.Recent 120 p.state.now key

/-- **One step**: it keeps one message per key exactly when it is no late retry. -/
theorem one_order_step {p p' : Pool (engine B)} {x : Input (engine B)} (hp : p.OK ownership {})
    (he : Exclusive p.state.Reserved p.trace) (ha : Appended p.state p.trace)
    (ha' : Appended p'.state p'.trace) (h : p.step? x = some p') :
    p'.state.OneOrder ↔ p.state.OneOrder ∧ RetriesInWindow p x := by
  have same : p'.state.stream = p.state.stream → landing? p x = none →
      (p'.state.OneOrder ↔ p.state.OneOrder ∧ RetriesInWindow p x) := by
    intro hs hl
    unfold World.OneOrder
    rw [hs]
    exact ⟨fun h => ⟨h, fun key hk => by rw [hl] at hk; cases hk⟩, fun h => h.1⟩
  rcases Pool.step_cases h with ⟨q, rfl, rfl⟩ | ⟨i, f, k, rfl, hi, rfl⟩ |
    ⟨i, f, c, k, r, s, rfl, hi, hs, rfl⟩ | ⟨m, s, rfl, hm, rfl⟩
  · exact same rfl rfl
  · exact same rfl (by simp only [landing?, hi])
  · by_cases hc : ∃ s q, c = .publishJson s q
    swap
    · refine same (stream_serve hs fun s q he => hc ⟨s, q, he⟩) ?_
      simp only [landing?, hi]
      cases c <;> first | rfl | exact absurd ⟨_, _, rfl⟩ hc
    obtain ⟨subject, q, rfl⟩ := hc
    rcases publish_serve hs with ⟨hl, rfl⟩ | ⟨hl, rfl, -⟩
    swap
    · -- the publish raised before it reached the broker
      exact same rfl (by simp only [landing?, hi, hl, if_false])
    have hkey : landing? p (.turn i f) = some q.idempotencyKey := by
      simp only [landing?, hi, hl, if_true]
    -- the key is held, so it was not handed over: if the log has seen it, a publish raised
    have hraised : p.state.stream.Seen q.idempotencyKey → Raised p.trace q.idempotencyKey := by
      intro hseen
      have hheld : q.idempotencyKey ∈ holds p.trace i :=
        List.mem_append_right _ (hp.keeps i _ hi).1
      exact (ha.known _ hseen).resolve_left fun hk => (he.gone _ hk).2 i hheld
    rw [ha.oneOrder_iff, ha'.oneOrder_iff]
    show (p.state.publishJson subject q).stream.OneEach ↔ _
    rw [World.stream_publishJson, Broker.Log.oneEach_append]
    refine and_congr_right fun _ => ⟨fun hr key hk _ hseen => ?_, fun hr hseen => ?_⟩
    · rw [hkey] at hk; cases hk; exact hr hseen
    · exact hr _ hkey (hraised hseen) hseen
  · exact same (move_cases hm).2.2 rfl

/-- **A run**, from any state the invariants hold in. -/
theorem one_order_run {xs : List (Input (engine B))} (hx : Started ownership {} xs) :
    ∀ {p p' : Pool (engine B)}, p.OK ownership {} → Exclusive p.state.Reserved p.trace →
      Appended p.state p.trace → p.run? xs = some p' →
      (p'.state.OneOrder ↔ p.state.OneOrder ∧ p.Along RetriesInWindow xs) := by
  induction xs with
  | nil => intro p p' _ _ _ h; cases h; exact ⟨fun h => ⟨h, trivial⟩, fun h => h.1⟩
  | cons x xs ih =>
    intro p p' hp he ha h
    obtain ⟨q, hq, hr⟩ := Pool.run_cons h
    have hx₁ : ∀ g : Prog CopyEngine Unit, x = .begin g → g.Keeps ownership {} :=
      fun g hg => hx g (by rw [hg]; exact List.mem_cons_self)
    obtain ⟨he', hq'⟩ := Pool.step_inv exclusive hp he hx₁ hq
    obtain ⟨ha', -⟩ := Pool.step_inv appended hp ha hx₁ hq
    rw [ih (fun g hg => hx g (List.mem_cons_of_mem _ hg)) hq' he' ha' hr,
      one_order_step hp he ha ha' hq, and_assoc]
    refine and_congr_right fun _ => and_congr_right fun _ => ⟨fun hal q' hq' => ?_, fun hal => hal q hq⟩
    rw [hq] at hq'; cases hq'; exact hal

/-- **One order per key in the stream**, in every interleaving, exactly when every retry
that follows an ambiguous failure comes within the broker's window. -/
theorem one_order_iff_retries_in_window {w : World B} {xs : List (Input (engine B))}
    {p : Pool (engine B)} (hw : w.stream = []) (hx : ∀ q, Input.begin q ∈ xs → Handler q)
    (h : (Pool.init w).run? xs = some p) :
    p.state.OneOrder ↔ (Pool.init w).Along RetriesInWindow xs := by
  have happ : Appended w [] := by
    refine ⟨fun m hm => ?_, fun key hk => ?_⟩
    · rw [hw] at hm; cases hm
    · obtain ⟨m, hm, -⟩ := hk; rw [hw] at hm; cases hm
  have hone : (Pool.init (M := engine B) w).state.OneOrder := by
    show (w.stream.map _).Nodup
    rw [hw]; exact List.nodup_nil
  rw [one_order_run (fun q hq => (hx q hq).keeps_ownership) (Pool.init_ok (M := engine B) w)
    (exclusive_init _) happ h]
  exact and_iff_right hone

/-- A publish that raises after the broker appended the message, and a redelivery `wait`
seconds later. -/
def ambiguousRetry (wait : ℚ) : List (Input (engine Unit)) :=
  [.begin (handleNormalizedTradeEvent (.ok sampleEvent)), .turn 0 .works, .turn 0 .works,
    .turn 0 .works, .turn 0 .works, .turn 0 (.after ⟨"TimeoutError"⟩), .turn 0 .works,
    .move (.elapse wait), .begin (handleNormalizedTradeEvent (.ok sampleEvent)), .turn 1 .works,
    .turn 1 .works, .turn 1 .works, .turn 1 .works, .turn 1 .works, .turn 1 .works]

theorem ambiguousRetry_handlers {wait : ℚ} {q : Prog CopyEngine Unit}
    (hq : Input.begin q ∈ ambiguousRetry wait) : q = handleNormalizedTradeEvent (.ok sampleEvent) := by
  simpa [ambiguousRetry] using hq

/-- A retry within the window: one message. -/
theorem one_order_iff_retries_in_window_at_60 :
    ∃ p, (Pool.init (World.start [sampleRelationship] ())).run? (ambiguousRetry 60) = some p ∧
      p.state.OneOrder ∧
      (Pool.init (World.start [sampleRelationship] ())).Along RetriesInWindow (ambiguousRetry 60) := by
  have hrun : ((Pool.init (World.start [sampleRelationship] ())).run? (ambiguousRetry 60)).map
      (fun p => decide p.state.OneOrder) = some true := by decide +kernel
  obtain ⟨p, hp, hone⟩ := Option.map_eq_some_iff.1 hrun
  have hone : p.state.OneOrder := of_decide_eq_true hone
  have hiff := one_order_iff_retries_in_window rfl
    (fun q hq => ambiguousRetry_handlers hq ▸ Handler.trade _) hp
  exact ⟨p, hp, hone, hiff.1 hone⟩

/-- **A retry after the window doubles the order.** -/
theorem late_retry_doubles_order :
    ¬ ∀ (xs : List (Input (engine Unit))) (p : Pool (engine Unit)),
      (∀ q, Input.begin q ∈ xs → ∃ event, q = handleNormalizedTradeEvent (.ok event)) →
      (Pool.init (World.start [sampleRelationship] ())).run? xs = some p → p.state.OneOrder := by
  intro hall
  have hrun : ((Pool.init (World.start [sampleRelationship] ())).run? (ambiguousRetry 180)).map
      (fun p => decide p.state.OneOrder) = some false := by decide +kernel
  obtain ⟨p, hp, hone⟩ := Option.map_eq_some_iff.1 hrun
  exact of_decide_eq_false hone (hall _ p (fun q hq => ⟨_, ambiguousRetry_handlers hq⟩) hp)

end CopyTrade
