import CopyTrade.Proof.Routes

/-!
# The gate

Whether a relationship is copied is decided by a five-way join, by the row mapper and by the
gates of the loop. A row that a join does not find is padded with NULLs, and each of them
fails a gate.

* `eligible_iff`: the query and the gates together, in terms of the rows of the tables.
* `emits_iff_eligible`: a processing that returns has built one request for each eligible
  relationship, and it returns exactly when each of these has what a request needs.
-/

namespace CopyTrade

open Async (Prog Fault Outcome)

/-- What the tables have to hold for a relationship to be copied for an event. -/
structure Eligible (db : Directory) (event : NormalizedOrderEvent) (r : CopyRelationshipRow) :
    Prop where
  active : r.active = true
  source : r.sourceExchange = event.sourceExchange ∧ r.sourceAccountId = event.sourceAccountId
  symbol : r.sourceSymbol = none ∨ r.sourceSymbol = some event.symbol
  started : r.effectiveFrom ≤ event.occurredAt
  sourceAccount : ∃ a ∈ db.exchangeAccounts, a.exchange = r.sourceExchange ∧
    a.accountId = r.sourceAccountId ∧ a.status = "active"
  follower : ∃ a ∈ db.exchangeAccounts, a.exchange = r.targetExchange ∧
    a.accountId = r.followerAccountId ∧ a.status = "active" ∧
    (∃ u ∈ db.users, u.id = a.userId ∧ u.status = "active") ∧
    ∃ s ∈ db.userSubscriptions, s.userId = a.userId ∧
      (s.status = "active" ∨ s.status = "trialing") ∧ s.copyTradingEnabled = true
  risk : ∃ s ∈ db.riskSettings, s.copyRelationshipId = r.id ∧ s.enabled = true ∧
    r.maxSlippageBps ≤ s.maxSlippageBps ∧ (∀ q ∈ s.maxOrderQuantity, event.quantity ≤ q) ∧
    ∀ limit ∈ s.maxLeverage, ∀ leverage ∈ event.leverage, leverage ≤ limit

section

variable {db : Directory} {r : CopyRelationshipRow}

/-! ## What the joins find -/

theorem find_sourceAccount {a : ExchangeAccountRow} :
    db.exchangeAccounts.rows.find? (onSourceAccount r) = some a ↔
      a ∈ db.exchangeAccounts ∧ a.exchange = r.sourceExchange ∧ a.accountId = r.sourceAccountId := by
  have hunique : ∀ a b, onSourceAccount r a = true → onSourceAccount r b = true → Sql.Clash a b := by
    intro a b ha hb
    simp only [onSourceAccount, Bool.and_eq_true, beq_iff_eq] at ha hb
    exact ⟨ha.1.trans hb.1.symm, ha.2.trans hb.2.symm⟩
  rw [Sql.find_iff_of_unique hunique]
  simp only [onSourceAccount, Bool.and_eq_true, beq_iff_eq]

theorem find_followerAccount {a : ExchangeAccountRow} :
    db.exchangeAccounts.rows.find? (onFollowerAccount r) = some a ↔
      a ∈ db.exchangeAccounts ∧ a.exchange = r.targetExchange ∧
        a.accountId = r.followerAccountId := by
  have hunique : ∀ a b, onFollowerAccount r a = true → onFollowerAccount r b = true →
      Sql.Clash a b := by
    intro a b ha hb
    simp only [onFollowerAccount, Bool.and_eq_true, beq_iff_eq] at ha hb
    exact ⟨ha.1.trans hb.1.symm, ha.2.trans hb.2.symm⟩
  rw [Sql.find_iff_of_unique hunique]
  simp only [onFollowerAccount, Bool.and_eq_true, beq_iff_eq]

theorem find_followerUser {f : Option ExchangeAccountRow} {u : UserRow} :
    db.users.rows.find? (onFollowerUser f) = some u ↔
      u ∈ db.users ∧ ∃ a, f = some a ∧ u.id = a.userId := by
  have hon : ∀ u, onFollowerUser f u = true ↔ ∃ a, f = some a ∧ u.id = a.userId := by
    intro u
    cases f with
    | none => simp [onFollowerUser]
    | some a => simp [onFollowerUser]
  have hunique : ∀ u v, onFollowerUser f u = true → onFollowerUser f v = true → Sql.Clash u v := by
    intro u v hu hv
    obtain ⟨a, ha, hu⟩ := (hon u).1 hu
    obtain ⟨b, hb, hv⟩ := (hon v).1 hv
    have hab : a = b := Option.some.inj (ha.symm.trans hb)
    subst hab
    exact hu.trans hv.symm
  rw [Sql.find_iff_of_unique hunique, hon]

theorem find_subscription {f : Option ExchangeAccountRow} {s : UserSubscriptionRow} :
    db.userSubscriptions.rows.find? (onSubscription f) = some s ↔
      s ∈ db.userSubscriptions ∧ ∃ a, f = some a ∧ s.userId = a.userId := by
  have hon : ∀ s, onSubscription f s = true ↔ ∃ a, f = some a ∧ s.userId = a.userId := by
    intro s
    cases f with
    | none => simp [onSubscription]
    | some a => simp [onSubscription]
  have hunique : ∀ s t, onSubscription f s = true → onSubscription f t = true → Sql.Clash s t := by
    intro s t hs ht
    obtain ⟨a, ha, hs⟩ := (hon s).1 hs
    obtain ⟨b, hb, ht⟩ := (hon t).1 ht
    have hab : a = b := Option.some.inj (ha.symm.trans hb)
    subst hab
    exact hs.trans ht.symm
  rw [Sql.find_iff_of_unique hunique, hon]

theorem find_riskSettings {s : RiskSettingsRow} :
    db.riskSettings.rows.find? (onRiskSettings r) = some s ↔
      s ∈ db.riskSettings ∧ s.copyRelationshipId = r.id := by
  have hunique : ∀ s t, onRiskSettings r s = true → onRiskSettings r t = true → Sql.Clash s t := by
    intro s t hs ht
    simp only [onRiskSettings, beq_iff_eq] at hs ht
    exact hs.trans ht.symm
  rw [Sql.find_iff_of_unique hunique]
  simp only [onRiskSettings, beq_iff_eq]

/-! ## What the gates ask of the rows -/

theorem accounts_iff : relationshipHasActiveExchangeAccounts (db.relationshipOf r) = true ↔
    (∃ a ∈ db.exchangeAccounts, a.exchange = r.sourceExchange ∧ a.accountId = r.sourceAccountId ∧
      a.status = "active") ∧
    ∃ a ∈ db.exchangeAccounts, a.exchange = r.targetExchange ∧ a.accountId = r.followerAccountId ∧
      a.status = "active" ∧ ∃ u ∈ db.users, u.id = a.userId ∧ u.status = "active" := by
  unfold relationshipHasActiveExchangeAccounts
  rw [Bool.and_eq_true, Bool.and_eq_true, beq_iff_eq, beq_iff_eq, beq_iff_eq]
  simp only [Directory.relationshipOf, rowToRelationship, Directory.joined,
    Option.map_eq_some_iff, find_sourceAccount, find_followerAccount, find_followerUser]
  constructor
  · rintro ⟨⟨⟨a, ⟨ha, hexchange, hid⟩, hstatus⟩, f, ⟨hf, hfexchange, hfid⟩, hfstatus⟩, u,
      ⟨hu, a', ⟨ha', hexchange', hid'⟩, hua⟩, hustatus⟩
    have heq : a' = f := Sql.Table.eq_of_clash ha' hf
      ⟨hexchange'.trans hfexchange.symm, hid'.trans hfid.symm⟩
    subst heq
    exact ⟨⟨a, ha, hexchange, hid, hstatus⟩, a', ha', hexchange', hid', hfstatus, u, hu, hua, hustatus⟩
  · rintro ⟨⟨a, ha, hexchange, hid, hstatus⟩, f, hf, hfexchange, hfid, hfstatus, u, hu, hua, hustatus⟩
    exact ⟨⟨⟨a, ⟨ha, hexchange, hid⟩, hstatus⟩, f, ⟨hf, hfexchange, hfid⟩, hfstatus⟩, u,
      ⟨hu, f, ⟨hf, hfexchange, hfid⟩, hua⟩, hustatus⟩

theorem subscription_iff : relationshipHasActiveSubscription (db.relationshipOf r) = true ↔
    ∃ a ∈ db.exchangeAccounts, a.exchange = r.targetExchange ∧ a.accountId = r.followerAccountId ∧
      ∃ s ∈ db.userSubscriptions, s.userId = a.userId ∧
        (s.status = "active" ∨ s.status = "trialing") ∧ s.copyTradingEnabled = true := by
  set subscription := db.userSubscriptions.rows.find?
    (onSubscription (db.exchangeAccounts.rows.find? (onFollowerAccount r))) with hs
  have hgate : relationshipHasActiveSubscription (db.relationshipOf r) = true ↔
      ∃ s, subscription = some s ∧ (s.status = "active" ∨ s.status = "trialing") ∧
        s.copyTradingEnabled = true := by
    show ((subscription.map (·.status) == some "active" || subscription.map (·.status) ==
      some "trialing") && subscription.any (·.copyTradingEnabled)) = true ↔ _
    cases subscription with
    | none => simp
    | some s => simp
  rw [hgate]
  simp only [hs, find_subscription, find_followerAccount]
  constructor
  · rintro ⟨s, ⟨hs, a, ⟨ha, hexchange, hid⟩, hsa⟩, hstatus⟩
    exact ⟨a, ha, hexchange, hid, s, hs, hsa, hstatus⟩
  · rintro ⟨a, ha, hexchange, hid, s, hs, hsa, hstatus⟩
    exact ⟨s, ⟨hs, a, ⟨ha, hexchange, hid⟩, hsa⟩, hstatus⟩

theorem risk_iff {event : NormalizedOrderEvent} :
    relationshipPassesRiskSettings event (db.relationshipOf r) = true ↔
      ∃ s ∈ db.riskSettings, s.copyRelationshipId = r.id ∧ s.enabled = true ∧
        r.maxSlippageBps ≤ s.maxSlippageBps ∧ (∀ q ∈ s.maxOrderQuantity, event.quantity ≤ q) ∧
        ∀ limit ∈ s.maxLeverage, ∀ leverage ∈ event.leverage, leverage ≤ limit := by
  set settings := db.riskSettings.rows.find? (onRiskSettings r) with hs
  have hgate : relationshipPassesRiskSettings event (db.relationshipOf r) = true ↔
      ∃ s, settings = some s ∧ s.enabled = true ∧ r.maxSlippageBps ≤ s.maxSlippageBps ∧
        (∀ q ∈ s.maxOrderQuantity, event.quantity ≤ q) ∧
        ∀ limit ∈ s.maxLeverage, ∀ leverage ∈ event.leverage, leverage ≤ limit := by
    simp only [relationshipPassesRiskSettings, Directory.relationshipOf, rowToRelationship,
      Directory.joined, ← hs]
    cases settings with
    | none => simp
    | some s =>
      cases hq : s.maxOrderQuantity <;> cases hl : s.maxLeverage <;> cases he : event.leverage <;>
        simp [hq, hl, not_lt]
  rw [hgate]
  simp only [hs, find_riskSettings]
  constructor
  · rintro ⟨s, ⟨hs, hid⟩, hrest⟩
    exact ⟨s, hs, hid, hrest⟩
  · rintro ⟨s, hs, hid, hrest⟩
    exact ⟨s, ⟨hs, hid⟩, hrest⟩

/-- **The query and the gates together**: what is listed and passes is what is eligible. -/
theorem eligible_iff {event : NormalizedOrderEvent} :
    whereClause event r = true ∧ passesGates event (db.relationshipOf r) = true ↔
      Eligible db event r := by
  have hwhere : whereClause event r = true ↔ r.active = true ∧
      (r.sourceExchange = event.sourceExchange ∧ r.sourceAccountId = event.sourceAccountId) ∧
      (r.sourceSymbol = none ∨ r.sourceSymbol = some event.symbol) ∧
      r.effectiveFrom ≤ event.occurredAt := by
    simp only [whereClause, Bool.and_eq_true, Bool.or_eq_true, beq_iff_eq, decide_eq_true_eq,
      and_assoc]
  have hactive : (db.relationshipOf r).active = r.active := rfl
  have hstarted : eventIsAfterFollowStart event (db.relationshipOf r).effectiveFrom = true ↔
      r.effectiveFrom ≤ event.occurredAt := decide_eq_true_iff
  unfold passesGates
  simp only [Bool.and_eq_true]
  rw [hwhere, hactive, accounts_iff, subscription_iff, risk_iff, hstarted]
  constructor
  · rintro ⟨⟨hact, hsource, hsymbol, hstart⟩, ⟨⟨⟨-, hsourceAccount, f, hf, hexchange, hid, hstatus,
      huser⟩, g, hg, hexchange', hid', hsubscription⟩, hrisk⟩, -⟩
    have heq : g = f := Sql.Table.eq_of_clash hg hf
      ⟨hexchange'.trans hexchange.symm, hid'.trans hid.symm⟩
    subst heq
    exact ⟨hact, hsource, hsymbol, hstart, hsourceAccount,
      ⟨g, hg, hexchange', hid', hstatus, huser, hsubscription⟩, hrisk⟩
  · rintro ⟨hact, hsource, hsymbol, hstart, hsourceAccount,
      ⟨f, hf, hexchange, hid, hstatus, huser, hsubscription⟩, hrisk⟩
    exact ⟨⟨hact, hsource, hsymbol, hstart⟩, ⟨⟨⟨hact, hsourceAccount, f, hf, hexchange, hid, hstatus,
      huser⟩, f, hf, hexchange, hid, hsubscription⟩, hrisk⟩, hstart⟩

end

/-! ## What a processing emits -/

theorem orderBy_trans {a b c : CopyRelationshipRow} (hab : orderBy a b) (hbc : orderBy b c) :
    orderBy a c := by
  have key : ∀ x y z x' y' z' : ℤ, (x < y ∨ x = y ∧ x' ≤ y') → (y < z ∨ y = z ∧ y' ≤ z') →
      (x < z ∨ x = z ∧ x' ≤ z') := by omega
  exact key _ _ _ _ _ _ hab hbc

theorem orderBy_total (a b : CopyRelationshipRow) : orderBy a b ∨ orderBy b a := by
  have key : ∀ x y x' y' : ℤ, (x < y ∨ x = y ∧ x' ≤ y') ∨ (y < x ∨ y = x ∧ y' ≤ x') := by omega
  exact key _ _ _ _

/-- The provider has an answer, whenever the parameters are texts. -/
theorem lists_iff {db : Directory} {event : NormalizedOrderEvent} :
    (∃ relationships, db.Lists event relationships) ↔
      Sql.text? event.sourceAccountId ≠ none ∧ Sql.text? event.symbol ≠ none := by
  constructor
  · rintro ⟨relationships, hsource, hsymbol, -⟩
    exact ⟨hsource, hsymbol⟩
  · rintro ⟨hsource, hsymbol⟩
    set rows := db.fromClause.filter fun row => whereClause event row.relationships
    let le : JoinedRow → JoinedRow → Bool := fun a b => decide (orderBy a.relationships b.relationships)
    have hle : ∀ a b, le a b = true ↔ orderBy a.relationships b.relationships :=
      fun a b => decide_eq_true_iff
    have htrans : ∀ a b c, le a b = true → le b c = true → le a c = true := by
      intro a b c hab hbc
      rw [hle] at hab hbc ⊢
      exact orderBy_trans hab hbc
    have htotal : ∀ a b, (le a b || le b a) = true := by
      intro a b
      rw [Bool.or_eq_true, hle, hle]
      exact orderBy_total _ _
    have hsorted := List.pairwise_mergeSort htrans htotal rows
    refine ⟨_, hsource, hsymbol, rows.mergeSort le, List.mergeSort_perm rows le, ?_, rfl⟩
    exact hsorted.imp fun h => (hle _ _).1 h

/-- No key of the event's copies is reserved. -/
def Unreserved {B : Type} (db : Directory) (event : NormalizedOrderEvent) (w : World B) : Prop :=
  ∀ r ∈ db.relationships, ¬ w.Reserved (copyKey r.id event.idempotencyKey)

/-- A request for the relationship is among the requests. -/
def EmittedFor (requests : List CopyExecutionRequest) (r : CopyRelationshipRow) : Prop :=
  ∃ q ∈ requests, q.copyRelationshipId = r.id

variable {B : Type} [Ledger B]

omit [Ledger B] in
/-- With no key reserved, the copied relationships are the eligible ones. -/
theorem mem_copied {db : Directory} {event : NormalizedOrderEvent} {w : World B}
    (hlists : db.Lists event (w.provider event)) (hfree : Unreserved db event w)
    {r : CopyRelationship} : r ∈ copied event w (w.provider event) ↔
      ∃ row ∈ db.relationships, Eligible db event row ∧ db.relationshipOf row = r := by
  unfold copied passing
  rw [List.mem_filter, List.mem_filter, Directory.mem_lists hlists, decide_eq_true_iff]
  constructor
  · rintro ⟨⟨⟨row, hrow, hw, rfl⟩, hg⟩, -⟩
    exact ⟨row, hrow, eligible_iff.1 ⟨hw, hg⟩, rfl⟩
  · rintro ⟨row, hrow, heligible, rfl⟩
    obtain ⟨hw, hg⟩ := eligible_iff.2 heligible
    exact ⟨⟨⟨row, hrow, hw, rfl⟩, hg⟩, hfree row hrow⟩

/-- The requests of a processing are for the copied relationships, each once. -/
theorem requests_ids {event : NormalizedOrderEvent} {rels : List CopyRelationship}
    {qs : List CopyExecutionRequest} (h : List.Forall₂ (BuiltFrom event) rels qs) :
    qs.map (·.copyRelationshipId) = rels.map (·.copyRelationshipId) := by
  induction h with
  | nil => rfl
  | cons hb _ ih => rw [List.map_cons, List.map_cons, ih, hb.copyRelationshipId]

/-- **The gate is exact.** The provider answers for every event whose account and symbol are
texts of the database. From such an answer and with no key reserved, a processing can return
exactly when no eligible relationship has an empty follower account or target symbol, and the
event's key is a text too if any is eligible; and a processing that returns has built a request
for a relationship if and only if it is eligible, and one request at most for each. -/
theorem emits_iff_eligible (db : Directory) (event : NormalizedOrderEvent) :
    ((∃ relationships, db.Lists event relationships) ↔
      Sql.text? event.sourceAccountId ≠ none ∧ Sql.text? event.symbol ≠ none) ∧
    ∀ w : World B, db.Lists event (w.provider event) → Unreserved db event w →
      ((∃ fs res, Returns event w fs res) ↔ ∀ r ∈ db.relationships, Eligible db event r →
        1 ≤ r.followerAccountId.length ∧ 1 ≤ r.targetSymbol.length ∧
          Sql.text? event.idempotencyKey ≠ none) ∧
      ∀ fs res, Returns event w fs res →
        (∀ r ∈ db.relationships, EmittedFor res.requests r ↔ Eligible db event r) ∧
        (res.requests.map (·.copyRelationshipId)).Nodup := by
  refine ⟨lists_iff, fun w hlists hfree => ?_⟩
  have hids := Directory.nodup_lists hlists
  refine ⟨⟨?_, ?_⟩, ?_⟩
  · rintro ⟨fs, res, hret⟩ r hr heligible
    have hcopied := (mem_copied hlists hfree).2 ⟨r, hr, heligible, rfl⟩
    have hpasses : db.relationshipOf r ∈ passing event (w.provider event) := (List.mem_filter.1 hcopied).1
    obtain ⟨⟨haccount, hsymbol⟩, htext⟩ := reservable_iff.1 (reservable_of_process hret _ hpasses)
    exact ⟨haccount, hsymbol, htext⟩
  · intro hall
    have hreservable : ∀ r ∈ passing event (w.provider event), Reservable (engine B) event r := by
      intro r hr
      obtain ⟨hlisted, hg⟩ := List.mem_filter.1 hr
      obtain ⟨row, hrow, hw, rfl⟩ := (Directory.mem_lists hlists).1 hlisted
      obtain ⟨haccount, hsymbol, htext⟩ := hall row hrow (eligible_iff.1 ⟨hw, hg⟩)
      exact reservable_iff.2 ⟨⟨haccount, hsymbol⟩, htext⟩
    obtain ⟨n, res, hret⟩ := process_returns hreservable
    exact ⟨_, res, hret⟩
  · intro fs res hret
    have hmap := requests_ids (process_returned hids hret)
    have hemitted : ∀ r : CopyRelationshipRow, EmittedFor res.requests r ↔
        r.id ∈ (copied event w (w.provider event)).map (·.copyRelationshipId) := by
      intro r
      rw [← hmap, List.mem_map]
      rfl
    constructor
    · intro r hr
      rw [hemitted, List.mem_map]
      constructor
      · rintro ⟨c, hc, hid⟩
        obtain ⟨row, hrow, heligible, rfl⟩ := (mem_copied hlists hfree).1 hc
        have heq : row = r := Sql.Table.eq_of_clash hrow hr (Or.inl hid)
        rw [← heq]
        exact heligible
      · intro heligible
        exact ⟨_, (mem_copied hlists hfree).2 ⟨r, hr, heligible, rfl⟩, rfl⟩
    · rw [hmap]
      exact hids.sublist ((List.filter_sublist.trans List.filter_sublist).map _)

/-- The sample event is copied for both rows of the sample tables. -/
theorem emits_iff_eligible_sample :
    ∃ fs res, Returns sampleEvent (sampleRoutes ()) fs res ∧
      ∀ r ∈ sampleDirectory.relationships, EmittedFor res.requests r := by
  have hlists := sample_lists sampleEvent () (by decide) (by decide)
  have hfree : Unreserved sampleDirectory sampleEvent (sampleRoutes ()) := by
    intro r hr h
    exact absurd h (Sql.Table.not_mem_empty _)
  have hlong : ∀ r ∈ sampleDirectory.relationships.rows,
      1 ≤ r.followerAccountId.length ∧ 1 ≤ r.targetSymbol.length := by decide
  have heligible : ∀ r ∈ sampleDirectory.relationships.rows, whereClause sampleEvent r = true ∧
      passesGates sampleEvent (sampleDirectory.relationshipOf r) = true := by decide
  obtain ⟨hreturns, hexact⟩ := (emits_iff_eligible sampleDirectory sampleEvent).2 _ hlists hfree
  have htext : Sql.text? sampleEvent.idempotencyKey ≠ none := by decide
  obtain ⟨fs, res, hret⟩ := hreturns.2 fun r hr _ => ⟨(hlong r hr).1, (hlong r hr).2, htext⟩
  exact ⟨fs, res, hret, fun r hr => ((hexact fs res hret).1 r hr).2 (eligible_iff.1 (heligible r hr))⟩

/-- An event whose symbol holds a U+0000. -/
def nulEvent : NormalizedOrderEvent :=
  { sampleEvent with symbol := "BTC\x00", symbol_min := by decide }

/-- **Not every eligible relationship is copied**: the relationship without a symbol is eligible for
every symbol, and the database refuses this one. -/
theorem nul_symbol_not_copied :
    ¬ ∀ (db : Directory) (event : NormalizedOrderEvent), ∀ r ∈ db.relationships,
      ((∃ (w : World Unit) (fs : List (Fault PyException)) (res : ProcessingResult),
        db.Lists event (w.provider event) ∧ Unreserved db event w ∧ Returns event w fs res ∧
        EmittedFor res.requests r) ↔ Eligible db event r) := by
  intro hall
  have hrow : ∃ r ∈ sampleDirectory.relationships.rows, whereClause nulEvent r = true ∧
      passesGates nulEvent (sampleDirectory.relationshipOf r) = true := by decide
  obtain ⟨r, hr, hpass⟩ := hrow
  obtain ⟨w, fs, res, ⟨-, hsymbol, -⟩, -⟩ := (hall sampleDirectory nulEvent r hr).2 (eligible_iff.1 hpass)
  exact hsymbol (by decide)

end CopyTrade
