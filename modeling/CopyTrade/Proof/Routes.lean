import CopyTrade.Proof.Processing
import CopyTrade.Spec.RelationshipQuery
import CopyTrade.Spec.World
import CopyTrade.Async.Solo
import Mathlib.Data.List.Forall2

/-!
# One order per follower target

The unique index keeps two active rows of one route apart, and the query takes a
missing symbol for every symbol. So the only two rows of one target that both match an
event are one without a symbol and one with the event's.

* `one_order_iff_no_overlap`: the requests of an event go to different targets, exactly
  when no such pair is copied.
* `wildcard_doubles_order`: the endpoints accept such a pair.
-/

namespace CopyTrade

open Async (Prog Fault Outcome Ending)

variable {B : Type} [Ledger B]

/-! ## What a returned loop has built -/

/-- The relationships a request is built for: they pass the gates and their key is free. -/
def copied (event : NormalizedOrderEvent) (w : World B) (rels : List CopyRelationship) :
    List CopyRelationship :=
  (passing event rels).filter fun r => decide (¬ w.Reserved (keyOf event r))

omit [Ledger B] in
theorem copied_congr {event : NormalizedOrderEvent} {w w' : World B} {rels : List CopyRelationship}
    (h : ∀ r ∈ passing event rels, (w'.Reserved (keyOf event r) ↔ w.Reserved (keyOf event r))) :
    copied event w' rels = copied event w rels :=
  List.filter_congr fun r hr => decide_eq_decide.2 (not_congr (h r hr))

/-- **The requests of a loop that returned**: one for each relationship that passes the gates
and whose key was free, in their order. -/
theorem build_returned {event : NormalizedOrderEvent} : ∀ (rels : List CopyRelationship)
    {acc res : ProcessingResult} {fs : List (Fault PyException)} {w : World B}
    {o : Outcome (engine B) ProcessingResult}, ((passing event rels).map (keyOf event)).Nodup →
    (buildRequestsForRelationships event rels acc).exec? (engine B) fs w = some o →
    o.ending = .returned res →
    ∃ qs, res.requests = acc.requests ++ qs ∧
      List.Forall₂ (BuiltFrom event) (copied event w rels) qs := by
  intro rels
  induction rels with
  | nil =>
    intro acc res fs w o _ h hend
    have h : (Prog.done acc : Prog CopyEngine ProcessingResult).exec? (engine B) fs w = some o := h
    rw [Prog.exec_done] at h
    cases h; cases hend
    exact ⟨[], (List.append_nil _).symm, List.Forall₂.nil⟩
  | cons r rest ih =>
    intro acc res fs w o hnd h hend
    rcases build_cons event r rest acc with ⟨hg, heq⟩ | ⟨hg, heq⟩
    swap
    · have hcons : passing event (r :: rest) = passing event rest :=
        List.filter_cons_of_neg (by rw [hg]; decide)
      rw [heq] at h
      rw [hcons] at hnd
      unfold copied
      rw [hcons, ← skip_requests event r acc]
      exact ih hnd h hend
    have hcons : passing event (r :: rest) = r :: passing event rest := List.filter_cons_of_pos hg
    rw [hcons, List.map_cons, List.nodup_cons] at hnd
    rw [heq, ← Prog.bind_done_right (reserveFor event r rest acc)] at h
    unfold copied
    rw [hcons]
    cases reserveFor_exec h with
    | invalid hb => cases hend
    | stopped => cases hend
    | raised => cases hend
    | @taken fs' _ o' hheld h' =>
      rw [Prog.bind_done_right] at h'
      rw [List.filter_cons_of_neg (by simpa using hheld)]
      have hrest := @ih { acc with skippedDuplicates := acc.skippedDuplicates + 1 } res fs'
        ((engine B).draw w).2 o' hnd.2 h' hend
      exact hrest
    | @took fs' _ w' o' q hb hbuilt hfree hres _ h' =>
      rw [Prog.bind_done_right] at h'
      rw [List.filter_cons_of_pos (by simpa using hfree)]
      obtain ⟨qs, hqs, hall⟩ :=
        @ih { acc with requests := acc.requests ++ [q] } _ _ _ _ hnd.2 h' hend
      refine ⟨q :: qs, by rw [hqs, List.append_assoc]; rfl, List.Forall₂.cons hbuilt ?_⟩
      -- the key just taken is no other relationship's
      rw [copied_congr fun r' hr' => ?_] at hall
      · exact hall
      · rw [hres]
        exact or_iff_left fun he => hnd.1 (List.mem_map.2 ⟨r', hr', he⟩)

/-! ## From the requests to the rows -/

/-- Where the order of a request goes. -/
def orderTarget (q : CopyExecutionRequest) : Exchange × String × String :=
  (q.targetExchange, q.followerAccountId, q.targetSymbol)

/-- No two requests go to one target. -/
def OneOrderPerTarget (requests : List CopyExecutionRequest) : Prop :=
  (requests.map orderTarget).Nodup

instance (requests : List CopyExecutionRequest) : Decidable (OneOrderPerTarget requests) :=
  inferInstanceAs (Decidable (List.Nodup _))

/-- A processing of the event that ended normally, and its result. -/
def Returns (event : NormalizedOrderEvent) (w : World B) (fs : List (Fault PyException))
    (res : ProcessingResult) : Prop :=
  ∃ o, (processNormalizedOrderEvent event).exec? (engine B) fs w = some o ∧
    o.ending = .returned res

/-- The row matches the event, passes the gates, and its key is free. -/
def IsCopied (db : Directory) (event : NormalizedOrderEvent) (w : World B)
    (row : CopyRelationshipRow) : Prop :=
  whereClause event row = true ∧ passesGates event (db.relationshipOf row) = true ∧
    ¬ w.Reserved (keyOf event (db.relationshipOf row))

/-- A row without a symbol and one with the event's symbol, of one target, both copied. -/
def Overlap (db : Directory) (event : NormalizedOrderEvent) (w : World B) : Prop :=
  ∃ wildcard ∈ db.relationships, ∃ specific ∈ db.relationships,
    wildcard.sourceSymbol = none ∧ specific.sourceSymbol = some event.symbol ∧
    wildcard.target = specific.target ∧ IsCopied db event w wildcard ∧ IsCopied db event w specific

/-- The processing of an event, from its list. -/
theorem process_returned {event : NormalizedOrderEvent} {w : World B} {fs : List (Fault PyException)}
    {res : ProcessingResult} (hid : ((w.provider event).map (·.copyRelationshipId)).Nodup)
    (h : Returns event w fs res) :
    List.Forall₂ (BuiltFrom event) (copied event w (w.provider event)) res.requests := by
  obtain ⟨o, ho, hend⟩ := h
  rcases Prog.exec_call_bind ho with ⟨rfl, rfl⟩ | ⟨fs', rels, w', o', rfl, he, h', rfl⟩ |
    ⟨f, fs', e, w', rfl, hf, hs, rfl⟩
  · cases hend
  · cases he
    obtain ⟨qs, hqs, hall⟩ := build_returned _ (nodup_keys hid) h' hend
    rw [hqs]
    exact hall
  · cases hend

/-- **A processing whose calls all work returns**, where each entry that passes the gates can
be reserved. -/
theorem process_returns {event : NormalizedOrderEvent} {w : World B}
    (hr : ∀ r ∈ passing event (w.provider event), Reservable (engine B) event r) :
    ∃ n res, Returns event w (List.replicate n .works) res := by
  obtain ⟨fs, o, ho, hworks, -, hends, -⟩ := build_exec (M := engine B) validationError event
    (w.provider event) {} (w.provider event).length w le_rfl
  rw [hworks fun r hmem => (hr r hmem).2] at ho
  obtain ⟨res, hend⟩ : ∃ res, o.ending = .returned res := by
    cases hending : o.ending with
    | returned res => exact ⟨res, rfl⟩
    | raised e =>
      rw [hending] at hends
      obtain ⟨pre, r, post, hsplit, -, hg, he, -⟩ := hends
      have hmem : r ∈ passing event (w.provider event) := by
        rw [hsplit]
        simp [passing, hg]
      exact absurd (hr r hmem) he.not_reservable
    | stopped => rw [hending] at hends; exact absurd hends id
  have he : (engine B).effect (.listActiveForEvent event) w = some (w.provider event, w) := rfl
  refine ⟨(w.provider event).length + 1, res,
    o.after [⟨.listActiveForEvent event, .ok (w.provider event)⟩], ?_, hend⟩
  exact Prog.exec_call_works (k := fun rels => buildRequestsForRelationships event rels {}) he ho

/-- And only there. -/
theorem reservable_of_process {event : NormalizedOrderEvent} {w : World B}
    {fs : List (Fault PyException)} {res : ProcessingResult} (h : Returns event w fs res) :
    ∀ r ∈ passing event (w.provider event), Reservable (engine B) event r := by
  obtain ⟨o, ho, hend⟩ := h
  rcases Prog.exec_call_bind ho with ⟨rfl, rfl⟩ | ⟨fs', rels, w', o', rfl, he, h', rfl⟩ |
    ⟨f, fs', e, w', rfl, hf, hs, rfl⟩
  · cases hend
  · cases he
    exact reservable_of_returned event _ h' hend
  · cases hend

/-- The store takes the key of a copy where the event's key is a text. -/
theorem reservable_iff {event : NormalizedOrderEvent} {r : CopyRelationship} :
    Reservable (engine B) event r ↔ Buildable r ∧ Sql.text? event.idempotencyKey ≠ none :=
  and_congr_right fun _ => text_keyOf

/-- Each request goes to the target of the relationship it was built for. -/
theorem targets_eq {event : NormalizedOrderEvent} {rels : List CopyRelationship}
    {qs : List CopyExecutionRequest} (h : List.Forall₂ (BuiltFrom event) rels qs) :
    qs.map orderTarget =
      rels.map fun r => (r.targetExchange, r.followerAccountId, r.targetSymbol) := by
  induction h with
  | nil => rfl
  | cons hb _ ih =>
    rw [List.map_cons, List.map_cons, ih]
    simp only [orderTarget, hb.targetExchange, hb.followerAccountId, hb.targetSymbol]

/-- **Two matching rows of one target**: the unique index leaves them only their symbols to
differ in, so one of them has none. -/
theorem symbols_of_matching {db : Directory} {event : NormalizedOrderEvent}
    {a b : CopyRelationshipRow} (ha : a ∈ db.relationships) (hb : b ∈ db.relationships)
    (hwa : whereClause event a = true) (hwb : whereClause event b = true)
    (ht : a.target = b.target) (hne : a ≠ b) :
    (a.sourceSymbol = none ∧ b.sourceSymbol = some event.symbol) ∨
      (b.sourceSymbol = none ∧ a.sourceSymbol = some event.symbol) := by
  simp only [whereClause, Bool.and_eq_true, Bool.or_eq_true, beq_iff_eq] at hwa hwb
  obtain ⟨⟨⟨⟨haa, hea⟩, hsa⟩, hya⟩, -⟩ := hwa
  obtain ⟨⟨⟨⟨hab, heb⟩, hsb⟩, hyb⟩, -⟩ := hwb
  have hdiff : a.sourceSymbol ≠ b.sourceSymbol := fun h =>
    hne (unique_active_route ha hb haa hab (hea.trans heb.symm) (hsa.trans hsb.symm) ht h)
  -- a matching row has no symbol or the event's, and not both have the same
  rcases hya with hya | hya <;> rcases hyb with hyb | hyb
  · exact absurd (hya.trans hyb.symm) hdiff
  · exact Or.inl ⟨hya, hyb⟩
  · exact Or.inr ⟨hyb, hya⟩
  · exact absurd (hya.trans hyb.symm) hdiff

/-- **One trade, one order per follower target**, exactly when no wildcard overlaps: a
processing whose calls work returns, unless something passes the gates and the event's key is
no text of the database; and whatever a processing returns has one order per target if and
only if no row without a symbol and row with the event's symbol of one target are both
copied. -/
theorem one_order_iff_no_overlap {db : Directory} {event : NormalizedOrderEvent} {w : World B}
    (hreach : Reachable db.relationships) (hlists : db.Lists event (w.provider event)) :
    ((∃ n res, Returns event w (List.replicate n .works) res) ↔
        (passing event (w.provider event) ≠ [] → Sql.text? event.idempotencyKey ≠ none)) ∧
      ∀ fs res, Returns event w fs res →
        (OneOrderPerTarget res.requests ↔ ¬ Overlap db event w) := by
  refine ⟨⟨?_, fun htext => ?_⟩, ?_⟩
  · rintro ⟨n, res, hret⟩ hsome
    obtain ⟨r, hr⟩ := List.exists_mem_of_ne_nil _ hsome
    exact (reservable_iff.1 (reservable_of_process hret r hr)).2
  · refine process_returns fun r hr => reservable_iff.2 ⟨?_, htext (List.ne_nil_of_mem hr)⟩
    obtain ⟨row, hrow, -, rfl⟩ := (Directory.mem_lists hlists).1 (List.mem_filter.1 hr).1
    have hc := reachable_rows hreach row hrow
    exact ⟨hc.followerAccountId, hc.targetSymbol⟩
  intro fs res hret
  have hid := Directory.nodup_lists hlists
  have hmem : ∀ r, r ∈ copied event w (w.provider event) ↔
      ∃ row ∈ db.relationships, IsCopied db event w row ∧ db.relationshipOf row = r := by
    intro r
    unfold copied passing
    rw [List.mem_filter, List.mem_filter, Directory.mem_lists hlists, decide_eq_true_iff]
    constructor
    · rintro ⟨⟨⟨row, hrow, hw, rfl⟩, hg⟩, hf⟩
      exact ⟨row, hrow, ⟨hw, hg, hf⟩, rfl⟩
    · rintro ⟨row, hrow, ⟨hw, hg, hf⟩, rfl⟩
      exact ⟨⟨⟨row, hrow, hw, rfl⟩, hg⟩, hf⟩
  have hnodup : (copied event w (w.provider event)).Nodup := by
    have h : (w.provider event).Nodup := List.Nodup.of_map _ hid
    exact (h.filter _).filter _
  unfold OneOrderPerTarget
  rw [targets_eq (process_returned hid hret), List.nodup_map_iff_inj_on hnodup]
  constructor
  · rintro hinj ⟨a, ha, b, hb, hya, hyb, ht, hca, hcb⟩
    have ht' : (a.targetExchange, a.followerAccountId, a.targetSymbol) =
        (b.targetExchange, b.followerAccountId, b.targetSymbol) := ht
    have he := hinj _ ((hmem _).2 ⟨a, ha, hca, rfl⟩) _ ((hmem _).2 ⟨b, hb, hcb, rfl⟩) ht'
    have hids : a.id = b.id := congrArg CopyRelationship.copyRelationshipId he
    have hab : a = b := Sql.Table.eq_of_clash ha hb (Or.inl hids)
    -- one row has and has not a symbol
    rw [hab, hyb] at hya
    cases hya
  · intro hno r hr r' hr' ht
    obtain ⟨a, ha, hca, rfl⟩ := (hmem r).1 hr
    obtain ⟨b, hb, hcb, rfl⟩ := (hmem r').1 hr'
    by_contra hne
    have hab : a ≠ b := fun h => hne (by rw [h])
    have ht : a.target = b.target := ht
    rcases symbols_of_matching ha hb hca.1 hcb.1 ht hab with ⟨hya, hyb⟩ | ⟨hyb, hya⟩
    · exact hno ⟨a, ha, b, hb, hya, hyb, ht, hca, hcb⟩
    · exact hno ⟨b, hb, a, ha, hyb, hya, ht.symm, hcb, hca⟩

/-! ## Two routes to one target -/

def wildcardPayload : CopyRelationshipCreate where
  sourceExchange := .hyperliquid
  sourceAccountId := "source"
  followerAccountId := "follower"
  targetExchange := .aster
  targetSymbol := "BTC-PERP"
  effectiveFrom := 0
  sourceAccountId_length := by decide
  sourceSymbol_length := by simp
  followerAccountId_length := by decide
  targetSymbol_length := by decide
  maxSlippageBps_range := by decide

def specificPayload : CopyRelationshipCreate :=
  { wildcardPayload with
    sourceSymbol := some "BTC"
    sourceSymbol_length := by intro s h; cases h; decide }

theorem unlimited : ∀ q ∈ (none : Option Decimal), 0 < q := by simp

/-- A table made by the endpoints, with everything around it active. -/
def sampleDirectory : Directory where
  relationships := afterRequests [.create ⟨20⟩ 1 wildcardPayload, .create ⟨21⟩ 2 specificPayload] .empty
  exchangeAccounts := ⟨[⟨⟨1⟩, .hyperliquid, "source", "active", by decide⟩,
    ⟨⟨2⟩, .aster, "follower", "active", by decide⟩], by decide⟩
  users := ⟨[⟨⟨1⟩, "active", by decide⟩, ⟨⟨2⟩, "active", by decide⟩], by decide⟩
  userSubscriptions := ⟨[⟨⟨2⟩, "active", true, by decide⟩], by decide⟩
  riskSettings := ⟨[⟨⟨20⟩, true, none, 1000, none, unlimited, by decide, unlimited⟩,
    ⟨⟨21⟩, true, none, 1000, none, unlimited, by decide, unlimited⟩], by decide⟩
  exchangeAccounts_user := by decide
  userSubscriptions_user := by decide
  riskSettings_relationship := by decide

/-- The provider's answers from `sampleDirectory`, whose rows are stored in the query's order. -/
def sampleRoutes (ledger : B) : World B :=
  { World.start [] ledger with
    provider := fun event =>
      (sampleDirectory.fromClause.filter fun row => whereClause event row.relationships).map
        rowToRelationship }

omit [Ledger B] in
/-- The sample answers are answers of the query. -/
theorem sample_lists (event : NormalizedOrderEvent) (ledger : B)
    (hs : Sql.text? event.sourceAccountId ≠ none) (hy : Sql.text? event.symbol ≠ none) :
    sampleDirectory.Lists event ((sampleRoutes ledger).provider event) := by
  refine ⟨hs, hy, _, List.Perm.refl _, List.Pairwise.filter _ ?_, rfl⟩
  rw [Directory.fromClause_eq, List.pairwise_map]
  decide

def etherEvent : NormalizedOrderEvent :=
  { sampleEvent with symbol := "ETH", symbol_min := by decide }

/-- Another symbol matches only the row without one. -/
theorem one_order_iff_no_overlap_other_symbol :
    ∃ n res, Returns etherEvent (sampleRoutes ()) (List.replicate n .works) res ∧
      OneOrderPerTarget res.requests := by
  have hlists := sample_lists etherEvent () (by decide) (by decide)
  obtain ⟨hreturns, hiff⟩ := one_order_iff_no_overlap ⟨_, rfl⟩ hlists
  obtain ⟨n, res, hret⟩ := hreturns.2 fun _ => by decide
  refine ⟨n, res, hret, (hiff _ _ hret).2 ?_⟩
  rintro ⟨-, -, b, hb, -, hyb, -, -, hcb⟩
  have hnone : ∀ r ∈ sampleDirectory.relationships.rows, r.sourceSymbol = some "ETH" → False := by
    decide
  exact hnone b hb hyb

/-- **A doubled order**: the index accepts a route without a symbol next to one with the
event's, the query matches both, and each has its own key. -/
theorem wildcard_doubles_order :
    ¬ ∀ (db : Directory) (event : NormalizedOrderEvent) (w : World Unit)
      (fs : List (Fault PyException)) (res : ProcessingResult), Reachable db.relationships →
      db.Lists event (w.provider event) → Returns event w fs res →
      OneOrderPerTarget res.requests := by
  intro hall
  have hlists := sample_lists sampleEvent () (by decide) (by decide)
  have hrun : ((processNormalizedOrderEvent sampleEvent).exec? (engine Unit)
      [.works, .works, .works] (sampleRoutes ())).map (fun o => match o.ending with
        | .returned res => res.requests.map orderTarget
        | _ => []) =
      some [(.aster, "follower", "BTC-PERP"), (.aster, "follower", "BTC-PERP")] := by decide +kernel
  obtain ⟨o, ho, htargets⟩ := Option.map_eq_some_iff.1 hrun
  cases hend : o.ending with
  | returned res =>
    have hone := hall _ _ _ _ res ⟨_, rfl⟩ hlists ⟨o, ho, hend⟩
    rw [hend] at htargets
    have htargets : res.requests.map orderTarget = _ := htargets
    unfold OneOrderPerTarget at hone
    rw [htargets] at hone
    exact absurd hone (by decide)
  | raised e => rw [hend] at htargets; cases htargets
  | stopped => rw [hend] at htargets; cases htargets

end CopyTrade
