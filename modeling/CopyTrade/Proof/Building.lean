import CopyTrade.Async.Solo
import CopyTrade.Spec.World
import Mathlib.Data.List.Nodup

/-!
# What the two loops do

The loop of `_build_requests_for_relationships` does one of two things with a
relationship: it counts it as skipped and goes on, or it builds a request and
reserves its key. Everything below is derived from this (`build_cons`), never from
the six guards.

* `build_spec`: a request carries its relationship's columns, the event's, and the
  key `copy:{relationship}:{event key}`.
* `reserveFor_exec`: all that one turn of the loop can come to under a script.
* `build_obeys`, `handOver_obeys`, `trade_keeps`: to check that the handler keeps a
  calling discipline it is enough to check one relationship and one request.
-/

namespace CopyTrade

open Async (Machine Prog Protocol Fault Outcome)

/-- The relationship passes every gate of `_build_requests_for_relationships`. -/
def passesGates (event : NormalizedOrderEvent) (r : CopyRelationship) : Bool :=
  r.active && relationshipHasActiveExchangeAccounts r && relationshipHasActiveSubscription r &&
    relationshipPassesRiskSettings event r && eventIsAfterFollowStart event r.effectiveFrom

/-- The idempotency key of the copy of an event for a relationship. -/
def keyOf (event : NormalizedOrderEvent) (r : CopyRelationship) : String :=
  copyKey r.copyRelationshipId event.idempotencyKey

/-- Two relationships with one key for an event have one id. -/
theorem keyOf_inj {event : NormalizedOrderEvent} {r r' : CopyRelationship}
    (h : keyOf event r = keyOf event r') : r.copyRelationshipId = r'.copyRelationshipId :=
  (copyKey_inj h).1

/-- The key is a text of the database where the event's is. -/
theorem text_keyOf {event : NormalizedOrderEvent} {r : CopyRelationship} :
    Sql.text? (keyOf event r) ≠ none ↔ Sql.text? event.idempotencyKey ≠ none := by
  rw [Sql.text_ne_none_iff, Sql.text_ne_none_iff, keyOf, nul_copyKey]

/-- The relationships that pass the gates for an event. -/
def passing (event : NormalizedOrderEvent) (rels : List CopyRelationship) : List CopyRelationship :=
  rels.filter (passesGates event ·)

/-- Listed once each, they have distinct keys. -/
theorem nodup_keys {event : NormalizedOrderEvent} {rels : List CopyRelationship}
    (h : (rels.map (·.copyRelationshipId)).Nodup) : ((passing event rels).map (keyOf event)).Nodup := by
  have hp : ((passing event rels).map (·.copyRelationshipId)).Nodup :=
    h.sublist (List.Sublist.map _ List.filter_sublist)
  have hl : (passing event rels).Nodup := hp.of_map
  rw [List.nodup_map_iff_inj_on hl] at hp ⊢
  exact fun r hr r' hr' he => hp r hr r' hr' (keyOf_inj he)

/-- `build_dry_run_execution_request` as the loop calls it. -/
def buildFor (event : NormalizedOrderEvent) (eventId : UUID) (r : CopyRelationship) :
    Except PyException CopyExecutionRequest :=
  buildDryRunExecutionRequest eventId event r.copyRelationshipId r.followerAccountId
    r.targetExchange r.targetSymbol

/-- The columns of the relationship that a request needs are not empty. -/
def Buildable (r : CopyRelationship) : Prop :=
  1 ≤ r.followerAccountId.length ∧ 1 ≤ r.targetSymbol.length

instance (r : CopyRelationship) : Decidable (Buildable r) := by
  unfold Buildable; infer_instance

/-- The columns of a request that come from its event and its relationship. -/
structure BuiltFrom (event : NormalizedOrderEvent) (r : CopyRelationship)
    (q : CopyExecutionRequest) : Prop where
  key : q.idempotencyKey = keyOf event r
  sourceEventId : q.sourceEventId = event.eventId
  copyRelationshipId : q.copyRelationshipId = r.copyRelationshipId
  followerAccountId : q.followerAccountId = r.followerAccountId
  targetExchange : q.targetExchange = r.targetExchange
  targetSymbol : q.targetSymbol = r.targetSymbol
  quantity : q.quantity = event.quantity
  dryRun : q.dryRun = true

/-- **What the builder answers**: a request where both columns are there, else the
validation error. -/
theorem build_spec (event : NormalizedOrderEvent) (eventId : UUID) (r : CopyRelationship) :
    (Buildable r ∧ ∃ q, buildFor event eventId r = .ok q ∧ q.eventId = eventId ∧
        BuiltFrom event r q) ∨
      (¬ Buildable r ∧ buildFor event eventId r = .error validationError) := by
  by_cases h : Buildable r
  · refine Or.inl ⟨h, _, dif_pos h, rfl, ?_⟩
    constructor <;> rfl
  · exact Or.inr ⟨h, dif_neg h⟩

theorem builtFrom_of_ok {event : NormalizedOrderEvent} {eventId : UUID} {r : CopyRelationship}
    {q : CopyExecutionRequest} (h : buildFor event eventId r = .ok q) :
    Buildable r ∧ q.eventId = eventId ∧ BuiltFrom event r q := by
  rcases build_spec event eventId r with ⟨hb, q', hq, hid, hf⟩ | ⟨-, he⟩
  · rw [h] at hq; cases hq; exact ⟨hb, hid, hf⟩
  · rw [h] at he; cases he

/-- One passing relationship: build its request, reserve its key, go on. -/
def reserveFor (event : NormalizedOrderEvent) (r : CopyRelationship)
    (rest : List CopyRelationship) (acc : ProcessingResult) : Prog CopyEngine ProcessingResult := do
  let eventId ← Prog.name (σ := CopyEngine)
  let request ← Prog.ofExcept (σ := CopyEngine) (buildFor event eventId r)
  let reserved ← reserve request.idempotencyKey
  if !reserved then
    buildRequestsForRelationships event rest
      { acc with skippedDuplicates := acc.skippedDuplicates + 1 }
  else
    buildRequestsForRelationships event rest { acc with requests := acc.requests ++ [request] }

/-- The counter that the first failing gate moves. -/
def skip (event : NormalizedOrderEvent) (r : CopyRelationship) (acc : ProcessingResult) :
    ProcessingResult :=
  if !r.active then { acc with skippedInactive := acc.skippedInactive + 1 }
  else if !relationshipHasActiveExchangeAccounts r then
    { acc with skippedExchangeAccount := acc.skippedExchangeAccount + 1 }
  else if !relationshipHasActiveSubscription r then
    { acc with skippedSubscription := acc.skippedSubscription + 1 }
  else if !relationshipPassesRiskSettings event r then
    { acc with skippedRisk := acc.skippedRisk + 1 }
  else { acc with skippedBeforeFollowStart := acc.skippedBeforeFollowStart + 1 }

/-- The relationships a result accounts for: its requests and its counters. -/
def ProcessingResult.considered (res : ProcessingResult) : ℕ :=
  res.requests.length + res.skippedDuplicates + res.skippedInactive +
    res.skippedBeforeFollowStart + res.skippedExchangeAccount + res.skippedSubscription +
    res.skippedRisk

/-- **A skipped relationship** is counted once, and the requests and duplicates stay. -/
theorem skip_spec (event : NormalizedOrderEvent) (r : CopyRelationship) (acc : ProcessingResult) :
    (skip event r acc).requests = acc.requests ∧
      (skip event r acc).skippedDuplicates = acc.skippedDuplicates ∧
      (skip event r acc).considered = acc.considered + 1 := by
  unfold skip ProcessingResult.considered
  split_ifs <;> refine ⟨rfl, rfl, ?_⟩ <;> dsimp only <;> omega

theorem skip_requests (event : NormalizedOrderEvent) (r : CopyRelationship)
    (acc : ProcessingResult) : (skip event r acc).requests = acc.requests :=
  (skip_spec event r acc).1

/-- **One turn of the loop**: a relationship that fails a gate moves a counter only. -/
theorem build_cons (event : NormalizedOrderEvent) (r : CopyRelationship)
    (rest : List CopyRelationship) (acc : ProcessingResult) :
    (passesGates event r = true ∧
        buildRequestsForRelationships event (r :: rest) acc = reserveFor event r rest acc) ∨
      (passesGates event r = false ∧ buildRequestsForRelationships event (r :: rest) acc =
        buildRequestsForRelationships event rest (skip event r acc)) := by
  -- the first gate that fails decides which counter moves
  by_cases h1 : r.active = true
  swap
  · exact Or.inr ⟨by simp [passesGates, h1], by simp [buildRequestsForRelationships, skip, h1]⟩
  by_cases h2 : relationshipHasActiveExchangeAccounts r = true
  swap
  · exact Or.inr ⟨by simp [passesGates, h2], by simp [buildRequestsForRelationships, skip, h1, h2]⟩
  by_cases h3 : relationshipHasActiveSubscription r = true
  swap
  · exact Or.inr ⟨by simp [passesGates, h3],
      by simp [buildRequestsForRelationships, skip, h1, h2, h3]⟩
  by_cases h4 : relationshipPassesRiskSettings event r = true
  swap
  · exact Or.inr ⟨by simp [passesGates, h4],
      by simp [buildRequestsForRelationships, skip, h1, h2, h3, h4]⟩
  by_cases h5 : eventIsAfterFollowStart event r.effectiveFrom = true
  swap
  · exact Or.inr ⟨by simp [passesGates, h5],
      by simp [buildRequestsForRelationships, skip, h1, h2, h3, h4, h5]⟩
  refine Or.inl ⟨by simp [passesGates, h1, h2, h3, h4, h5], ?_⟩
  simp only [buildRequestsForRelationships, h1, h2, h3, h4, h5, Bool.not_true, Bool.false_eq_true,
    if_false]
  rfl

/-! ## One turn under a script -/

section

variable {B β : Type} [Ledger B]

/-- What the turn of the loop for `r` can come to, with `k` after the loop: the builder
raises, the process stops at the reservation, the key is taken already, it is taken
now, or the reservation raises. -/
inductive Turn (event : NormalizedOrderEvent) (r : CopyRelationship) (rest : List CopyRelationship)
    (acc : ProcessingResult) (k : ProcessingResult → Prog CopyEngine β) (w : World B) :
    List (Fault PyException) → Outcome (engine B) β → Prop
  | invalid {fs} (hb : ¬ Buildable r) :
    Turn event r rest acc k w fs ⟨.raised validationError, ((engine B).draw w).2, [], fs⟩
  | stopped : Turn event r rest acc k w [] ⟨.stopped, ((engine B).draw w).2, [], []⟩
  | taken {fs key o} (hheld : w.Reserved (keyOf event r))
      (h : (buildRequestsForRelationships event rest
        { acc with skippedDuplicates := acc.skippedDuplicates + 1 } >>= k).exec? (engine B) fs
          ((engine B).draw w).2 = some o) :
    Turn event r rest acc k w (.works :: fs) (o.after [⟨.reserve key, .ok false⟩])
  | took {fs key w₁ o q} (hb : Buildable r) (hq : BuiltFrom event r q)
      (hfree : ¬ w.Reserved (keyOf event r))
      (hres : ∀ k, w₁.Reserved k ↔ w.Reserved k ∨ k = keyOf event r)
      (hprov : w₁.provider = w.provider)
      (h : (buildRequestsForRelationships event rest { acc with requests := acc.requests ++ [q] } >>=
        k).exec? (engine B) fs w₁ = some o) :
    Turn event r rest acc k w (.works :: fs) (o.after [⟨.reserve key, .ok true⟩])
  | raised {f fs key e w₁} (hf : f ≠ .works) (hw : Steady w w₁)
      (hnew : ∀ k, w₁.Reserved k → w.Reserved k ∨ k = keyOf event r)
      (hlands : ¬ w.Reserved (keyOf event r) → (f.Lands ↔ w₁.Reserved (keyOf event r))) :
    Turn event r rest acc k w (f :: fs) ⟨.raised e, w₁, [⟨.reserve key, .error e⟩], fs⟩

/-- **All that one turn of the loop can come to.** -/
theorem reserveFor_exec {event : NormalizedOrderEvent} {r : CopyRelationship}
    {rest : List CopyRelationship} {acc : ProcessingResult}
    {k : ProcessingResult → Prog CopyEngine β} {fs : List (Fault PyException)} {w : World B}
    {o : Outcome (engine B) β}
    (h : (reserveFor event r rest acc >>= k).exec? (engine B) fs w = some o) :
    Turn event r rest acc k w fs o := by
  simp only [reserveFor, Prog.name, Prog.bind_fresh, Prog.bind_done, Prog.exec_fresh] at h
  set w₁ : World B := ((engine B).draw w).2
  rcases build_spec event ((engine B).draw w).1 r with ⟨hb, q, hq, -, hbuilt⟩ | ⟨hb, he⟩
  swap
  · -- the builder raised: nothing was called
    rw [he, Prog.ofExcept_error, Prog.bind_fail, Prog.bind_fail, Prog.exec_fail] at h
    cases h
    exact .invalid hb
  rw [hq, Prog.ofExcept_ok, Prog.bind_done, Prog.bind_assoc] at h
  have hkey : q.idempotencyKey = keyOf event r := hbuilt.key
  rcases Prog.exec_call_bind h with ⟨rfl, rfl⟩ | ⟨fs', a, w', o', rfl, he, h', rfl⟩ |
    ⟨f, fs', e, w', rfl, hf, hs, rfl⟩
  · exact .stopped
  · rcases World.reserve_cases he with ⟨rfl, hheld, rfl⟩ | ⟨rfl, hfree, hres, hw⟩
    · exact .taken (hkey ▸ hheld) h'
    · rw [hkey] at hfree hres
      exact .took hb hbuilt hfree hres (by rw [hw]) h'
  -- a reservation that raised took the key exactly where it landed on a free one
  rcases Machine.serve_state hs with ⟨hlands, a, ha⟩ | ⟨hlands, rfl⟩
  swap
  · exact .raised hf ⟨fun _ hk => hk, rfl⟩ (fun _ hk => Or.inl hk)
      fun hfree => iff_of_false hlands fun hk => hfree hk
  rcases World.reserve_cases ha with ⟨-, hheld, rfl⟩ | ⟨-, hfree, hres, hw⟩
  · have hheld : w.Reserved (keyOf event r) := hkey ▸ hheld
    exact .raised hf ⟨fun _ hk => hk, rfl⟩ (fun _ hk => Or.inl hk) fun hfree => absurd hheld hfree
  · rw [hkey] at hfree hres
    exact .raised hf ⟨fun k hk => (hres k).2 (Or.inl hk), by rw [hw]⟩ (fun k hk => (hres k).1 hk)
      fun _ => iff_of_true hlands ((hres _).2 (Or.inr rfl))

end

/-! ## Disciplines of the handlers -/

variable {L : Type} {P : Protocol CopyEngine L}

/-- **The reserving loop.** An assertion on the local state and the requests collected
so far that every reservation keeps holds of the loop's result. -/
theorem build_obeys {event : NormalizedOrderEvent} {I : L → List CopyExecutionRequest → Prop}
    {rels : List CopyRelationship}
    (hstep : ∀ l reqs r eventId q, r ∈ rels → passesGates event r = true →
      buildFor event eventId r = .ok q → I l reqs →
        P.allow l (.reserve q.idempotencyKey) ∧
        I (P.next l (.reserve q.idempotencyKey) (.ok true)) (reqs ++ [q]) ∧
        I (P.next l (.reserve q.idempotencyKey) (.ok false)) reqs) :
    ∀ {l acc}, I l acc.requests → (buildRequestsForRelationships event rels acc).Obeys P l
      (fun l' res => I l' res.requests) fun _ _ => True := by
  induction rels with
  | nil => intro l acc h; exact h
  | cons r rest ih =>
    intro l acc h
    have ih' := @ih fun l reqs r' eventId q hr => hstep l reqs r' eventId q (List.mem_cons_of_mem _ hr)
    rcases build_cons event r rest acc with ⟨hg, heq⟩ | ⟨-, heq⟩
    · rw [heq]
      refine Prog.obeys_bind fun eventId => Prog.obeys_bind (Prog.obeys_ofExcept ?_ fun _ _ => trivial)
      intro q hq
      obtain ⟨ha, ht, hf⟩ := hstep l acc.requests r eventId q List.mem_cons_self hg hq h
      refine Prog.obeys_bind (Prog.obeys_call ha (fun reserved => ?_) fun _ => trivial)
      cases reserved with
      | false => exact ih' hf
      | true => exact ih' ht
    · rw [heq]
      exact ih' (skip_requests event r acc ▸ h)

/-- **The publishing loop.** An assertion on the local state and the requests left that
every hand-over keeps. -/
theorem handOver_obeys {J : L → List CopyExecutionRequest → Prop}
    (hstep : ∀ l q rest, J l (q :: rest) →
      let l₁ := P.next l (.record q) (.ok ())
      let c := Call.publishJson copyExecutionRequested q
      let l₂ := P.next l₁ c (.ok ())
      P.allow l (.record q) ∧ P.allow l₁ c ∧
        (∀ e, P.allow (P.next l₁ c (.error e)) (.release q.idempotencyKey)) ∧
        P.allow l₂ (.markPublished q) ∧ J (P.next l₂ (.markPublished q) (.ok ())) rest) :
    ∀ {l} reqs, J l reqs → (handOver reqs).Obeys P l (fun _ _ => True) fun _ _ => True := by
  intro l reqs
  induction reqs generalizing l with
  | nil => intro _; trivial
  | cons q rest ih =>
    intro h
    obtain ⟨hrecord, hpublish, hrelease, hmark, hnext⟩ := hstep l q rest h
    refine Prog.obeys_bind (Prog.obeys_call hrecord (fun _ => ?_) fun _ => trivial)
    refine Prog.obeys_bind (Prog.obeys_tryExcept (Prog.obeys_call hpublish (fun _ => ?_) fun e => ?_))
    · exact Prog.obeys_bind (Prog.obeys_call hmark (fun _ => ih hnext) fun _ => trivial)
    · -- the handler of the `except` releases and raises again
      exact Prog.obeys_bind (Prog.obeys_call (hrelease e) (fun _ => trivial) fun _ => trivial)

/-- **The trade handler**, from one turn of each of its loops: `I` holds while it reserves,
`J` while it publishes. -/
theorem trade_keeps {l₀ : L}
    {I : NormalizedOrderEvent → List CopyRelationship → L → List CopyExecutionRequest → Prop}
    {J : L → List CopyExecutionRequest → Prop}
    (hlist : ∀ event, P.allow l₀ (.listActiveForEvent event) ∧
      ∀ rels, I event rels (P.next l₀ (.listActiveForEvent event) (.ok rels)) [])
    (hreserve : ∀ event rels l reqs r eventId q, r ∈ rels → passesGates event r = true →
      buildFor event eventId r = .ok q → I event rels l reqs →
        P.allow l (.reserve q.idempotencyKey) ∧
        I event rels (P.next l (.reserve q.idempotencyKey) (.ok true)) (reqs ++ [q]) ∧
        I event rels (P.next l (.reserve q.idempotencyKey) (.ok false)) reqs)
    (hbuilt : ∀ event rels l reqs, I event rels l reqs → J l reqs)
    (hpublish : ∀ l q rest, J l (q :: rest) →
      let l₁ := P.next l (.record q) (.ok ())
      let c := Call.publishJson copyExecutionRequested q
      let l₂ := P.next l₁ c (.ok ())
      P.allow l (.record q) ∧ P.allow l₁ c ∧
        (∀ e, P.allow (P.next l₁ c (.error e)) (.release q.idempotencyKey)) ∧
        P.allow l₂ (.markPublished q) ∧ J (P.next l₂ (.markPublished q) (.ok ())) rest)
    (validated : Except PyException NormalizedOrderEvent) :
    (handleNormalizedTradeEvent validated).Keeps P l₀ := by
  refine Prog.obeys_bind (Prog.obeys_ofExcept (fun event _ => ?_) fun _ _ => trivial)
  obtain ⟨ha, hstart⟩ := hlist event
  refine Prog.obeys_bind (Prog.obeys_bind (Prog.obeys_call ha (fun rels => ?_) fun _ => trivial))
  apply Prog.Obeys.mono ?_ (fun _ _ h => h) (build_obeys (hreserve event rels) (hstart rels))
  intro l res h
  exact handOver_obeys hpublish res.requests (hbuilt event rels l res.requests h)

/-- **The result handler.** -/
theorem result_keeps {l₀ : L}
    (h : ∀ result : CopyExecutionResult, P.allow l₀ (.insertResult result) ∧
      P.allow (P.next l₀ (.insertResult result) (.ok ()))
        (.updateRequestFromResult result.requestId result.status))
    (validated : Except PyException CopyExecutionResult) :
    (handleCopyExecutionResultEvent validated).Keeps P l₀ := by
  refine Prog.obeys_bind (Prog.obeys_ofExcept (fun result _ => ?_) fun _ _ => trivial)
  obtain ⟨hinsert, hupdate⟩ := h result
  refine Prog.obeys_bind (Prog.obeys_call hinsert (fun _ => ?_) fun _ => trivial)
  exact Prog.obeys_call hupdate (fun _ => trivial) fun _ => trivial

end CopyTrade
