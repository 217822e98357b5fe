import CopyTrade.Proof.Authority
import CopyTrade.Proof.Updates
import CopyTrade.Spec.Platform

/-!
# The kill switch

An operator deactivates a copy relationship, or takes an exchange account out of service, and the
request is answered. From there on the workers bring in an order for it only where an execution that
was under way already had listed the relationship before, or a later commit has switched it on again.

* `Reactivates`, `Reinstates`: the commits that switch on again.
* `Stopped`: what became of the orders; `stopped`: so it is where the row keeps what blocks them.
* `kill_switch`: of a relationship and of an account.
-/

namespace CopyTrade

open Async (Coupled Input Pool)
open Identity
open Sql (Commit Did OwnCommit Updating amend amend_keeps)

variable {B : Type} [Ledger B]

/-- The commit activates the copy relationship. -/
def Reactivates (k : UUID) (c : Commit identity) : Prop :=
  ∃ tx began did payload after, c = .transaction tx began did ∧
    (⟨.updateCopyRelationship k payload, some after⟩ : Did identity) ∈ did ∧ payload.active = some true

/-- The commit activates the exchange account. -/
def Reinstates (k : UUID) (c : Commit identity) : Prop :=
  ∃ tx began did payload after, c = .transaction tx began did ∧
    (⟨.updateExchangeAccount k payload, some after⟩ : Did identity) ∈ did ∧
    payload.status = some .active

/-- The event comes from the account, or its order goes to it. -/
def ExchangeAccountRecord.Trades (a : ExchangeAccountRecord) (event : NormalizedOrderEvent)
    (q : CopyExecutionRequest) : Prop :=
  (a.exchange = event.sourceExchange ∧ a.accountId = event.sourceAccountId) ∨
    (a.exchange = q.targetExchange ∧ a.accountId = q.followerAccountId)

/-- Execution `i` of the API was answered a commit of its operation before `p`. A commit since has
overruled it, or every order that came in between `p` and `q` was brought in by an execution that had
listed the relationship, and where `K` concerns the order it had done so before `p` and was still under
way there. -/
def Stopped (commits : List (Did identity) → Prop) (overrules : Commit identity → Prop)
    (K : NormalizedOrderEvent → CopyExecutionRequest → Prop) (w : Sql.Server identity Drawn)
    (xs : List (Input identityServer)) (i : ℕ) (p q : Platform B) (ys' : List (Input (backed B))) :
    Prop :=
  ∃ newer tx began did p₁ p₂, OwnCommit w xs p.left i (.transaction tx began did) p₁ p₂ ∧ commits did ∧
    q.left.state.db.history = newer ++ .transaction tx began did :: p₁.state.db.history ∧
    ((∃ c ∈ newer, overrules c) ∨
      ∀ m ∈ q.right.state.world.stream, m ∉ p.right.state.world.stream →
        ∃ j event relationship, BringsIn p.right ys' j m ∧
          Listed q.right.trace j event relationship ∧ BuiltFrom event relationship m.body ∧
          (K event m.body → UnderWay p.right j ∧ Listed p.right.trace j event relationship))

section

variable {Row Entry : Type} [Sql.Constrained Row] [Sql.Keyed Row UUID Entry] {s₀ : Tables}
  {now : Timestamp} {supply : ℕ → Drawn} {s : BackedWorld B} {hshared : SharedTables s₀ s.tables}
  {xs xs' : List (Input identityServer)} {ys ys' : List (Input (backed B))} {p q : Platform B} {i : ℕ}

/-- **The orders are stopped**, where the commit left the row so that it blocks them, and every later
commit that does not overrule it leaves it so. -/
theorem stopped {U : Updating identity Row UUID} {k : UUID} {P : Row → Prop}
    {overrules : Commit identity → Prop} {K : NormalizedOrderEvent → CopyExecutionRequest → Prop}
    {commits : List (Did identity) → Prop}
    (hkeeps : ∀ tx began did, ¬ overrules (.transaction tx began did) → ∀ d ∈ did, ∀ r, P r →
      P (amend (U.update began d) k r))
    (hblocks : ∀ (t : Tables) (s : BackedWorld B) r, SharedTables t s.tables →
      (U.table t).get k = some r → P r → Blocked K s)
    (hy : ∀ h, Input.begin h ∈ ys ++ ys' → Handler h)
    (h : Coupled.Run (Platform.start s₀ now supply s hshared) xs ys p) (h' : Coupled.Run p xs' ys' q)
    {tx : ℕ} {began : Timestamp} {did : List (Did identity)} {p₁ p₂ : Pool identityServer}
    (hown : OwnCommit (Sql.Server.start s₀ now supply) xs p.left i (.transaction tx began did) p₁ p₂)
    (hdid : commits did) {after : Row} (hafter : (U.table p₂.state.db.current).get k = some after)
    (hP : P after) :
    Stopped commits overrules K (Sql.Server.start s₀ now supply) xs i p q ys' := by
  have hread : (U.amending k).read p₂.state.db.current = some after := hafter
  obtain ⟨newer, hist, -⟩ := (hown.extend h'.toLeft).stands hread
  refine ⟨newer, tx, began, did, p₁, p₂, hown, hdid, hist, ?_⟩
  by_cases hover : ∃ c ∈ newer, overrules c
  · exact Or.inl hover
  refine Or.inr fun m hm hnew => ?_
  -- the row is as the commit left it, at every moment from `p` to `q`
  have hblocked : p.right.Always (Blocked K) ys' := by
    refine h'.always fun us vs o _ hus hvs => ?_
    obtain ⟨r, hr, hPr⟩ := hown.row_keeps hread hP hus hvs hist fun tx began did hmem =>
      hkeeps tx began did fun hc => hover ⟨_, hmem, hc⟩
    exact hblocks _ _ r o.agrees hr hPr
  exact brought_in hy h.toRight h'.toRight hblocked hm hnew

end

/-! ## What keeps a row switched off -/

/-- A commit that does not activate the relationship leaves it inactive. -/
theorem inactive_amend {k : UUID} {tx : ℕ} {began : Timestamp} {did : List (Did identity)}
    (hnot : ¬ Reactivates k (.transaction tx began did)) {d : Did identity} (hd : d ∈ did)
    {r : CopyRelationshipRow} (hr : r.active = false) :
    (amend (relationshipUpdate began d) k r).active = false := by
  refine amend_keeps (P := fun r : CopyRelationshipRow => r.active = false) hr fun f hf => ?_
  obtain ⟨payload, after, rfl, rfl⟩ := relationshipUpdate_eq_some hf
  show payload.active.getD r.active = false
  cases hcase : payload.active with
  | none => exact hr
  | some active =>
    cases active with
    | false => rfl
    | true => exact absurd ⟨tx, began, did, payload, after, rfl, hd, hcase⟩ hnot

omit [Ledger B] in
/-- An inactive relationship is not eligible. -/
theorem inactive_blocks {k : UUID} (t : Tables) (s : BackedWorld B) (r : CopyRelationshipRow)
    (hshared : SharedTables t s.tables) (hr : t.copyRelationships.get k = some r)
    (hinactive : r.active = false) : Blocked (fun _ q => q.copyRelationshipId = k) s := by
  intro event row hrow heligible q hbuilt hq
  obtain ⟨hmem, hid⟩ := Sql.Table.get_eq_some.1 hr
  have hrowid : row.id = k := hbuilt.copyRelationshipId.symm.trans hq
  rw [hshared.relationships] at hrow
  have hsame : row = r := Sql.Table.eq_of_clash hrow hmem (Or.inl (hrowid.trans hid.symm))
  have hactive := heligible.active
  rw [hsame, hinactive] at hactive
  cases hactive

/-- The account is out of service, and is the one that `a` is. -/
def OutOfService (a r : ExchangeAccountRecord) : Prop :=
  r.status ≠ .active ∧ r.exchange = a.exchange ∧ r.accountId = a.accountId

/-- A commit that does not activate the account leaves it out of service. -/
theorem outOfService_amend {k : UUID} {tx : ℕ} {began : Timestamp} {did : List (Did identity)}
    (hnot : ¬ Reinstates k (.transaction tx began did)) {d : Did identity} (hd : d ∈ did)
    {a r : ExchangeAccountRecord} (hr : OutOfService a r) :
    OutOfService a (amend (accountUpdate began d) k r) := by
  refine amend_keeps hr fun f hf => ?_
  obtain ⟨payload, after, rfl, rfl⟩ := accountUpdate_eq_some hf
  refine ⟨?_, hr.2⟩
  show payload.status.getD r.status ≠ .active
  cases hcase : payload.status with
  | none => exact hr.1
  | some status =>
    rintro rfl
    exact hnot ⟨tx, began, did, payload, after, rfl, hd, hcase⟩

/-- The text of a status is that of its own. -/
theorem ExchangeAccountStatus.value_active {status : ExchangeAccountStatus}
    (h : status.value = "active") : status = .active := by
  cases status <;> simp_all [value]

/-- No update gives an account another exchange or id. -/
theorem amend_route (now : Timestamp) (d : Did identity) (k : UUID) (r : ExchangeAccountRecord) :
    ((amend (accountUpdate now d) k r).exchange, (amend (accountUpdate now d) k r).accountId) =
      (r.exchange, r.accountId) := by
  refine amend_keeps (P := fun after : ExchangeAccountRecord =>
    (after.exchange, after.accountId) = (r.exchange, r.accountId)) rfl fun f hf => ?_
  obtain ⟨payload, after, rfl, rfl⟩ := accountUpdate_eq_some hf
  rfl

omit [Ledger B] in
/-- An account out of service has no eligible relationship on either side. -/
theorem outOfService_blocks {k : UUID} {a : ExchangeAccountRecord} (t : Tables) (s : BackedWorld B)
    (r : ExchangeAccountRecord) (hshared : SharedTables t s.tables)
    (hr : t.exchangeAccounts.get k = some r) (hout : OutOfService a r) : Blocked a.Trades s := by
  obtain ⟨hstatus, hexchange, haccount⟩ := hout
  obtain ⟨hmem, -⟩ := Sql.Table.get_eq_some.1 hr
  -- no account under its exchange and id is active
  have hnone : ∀ b ∈ s.tables.exchangeAccounts, a.exchange = b.exchange → a.accountId = b.accountId →
      b.status ≠ "active" := by
    intro b hb hbexchange hbaccount hactive
    have hb : b ∈ s.tables.exchangeAccounts.rows := hb
    rw [hshared.exchangeAccounts] at hb
    obtain ⟨b', hb', rfl⟩ := List.mem_map.1 hb
    have hclash : (b'.exchange, b'.accountId) = (r.exchange, r.accountId) :=
      Prod.ext (hbexchange.symm.trans hexchange.symm) (hbaccount.symm.trans haccount.symm)
    have hsame : b' = r := Sql.Table.eq_of_clash hb' hmem (Or.inr hclash)
    subst hsame
    exact hstatus (ExchangeAccountStatus.value_active hactive)
  intro event row hrow heligible q hbuilt htrades
  rcases htrades with ⟨hsource, hsourceId⟩ | ⟨htarget, hfollowerId⟩
  · obtain ⟨b, hb, hbexchange, hbaccount, hactive⟩ := heligible.sourceAccount
    refine hnone b hb (hsource.trans ?_) (hsourceId.trans ?_) hactive
    · exact (hbexchange.trans heligible.source.1).symm
    · exact (hbaccount.trans heligible.source.2).symm
  · obtain ⟨b, hb, hbexchange, hbaccount, hactive, -⟩ := heligible.follower
    refine hnone b hb (htarget.trans ?_) (hfollowerId.trans ?_) hactive
    · exact hbuilt.targetExchange.trans hbexchange.symm
    · exact hbuilt.followerAccountId.trans hbaccount.symm

/-! ## The switch -/

/-- **The kill switch.** An operator deactivates a copy relationship, or gives an exchange account a
status other than active, and the request has returned. Whatever the API and the workers do from there
on: until a later commit activates it again, an order for the relationship, or from or to the account,
comes only from an execution that was still under way at that moment and had listed the relationship
before it. -/
theorem kill_switch (crypto : Crypto) (settings : Settings) (sessionTtlMinutes : ℤ) (s₀ : Tables)
    (now : Timestamp) (supply : ℕ → Drawn) (s : BackedWorld B) (hshared : SharedTables s₀ s.tables)
    {xs xs' : List (Input identityServer)} {ys ys' : List (Input (backed B))} {p q : Platform B}
    (hx : ∀ r, Input.begin r ∈ xs → ∃ request : ApiRequest,
      r = request.program crypto settings sessionTtlMinutes)
    (hy : ∀ h, Input.begin h ∈ ys ++ ys' → Handler h)
    (h : Coupled.Run (Platform.start s₀ now supply s hshared) xs ys p) (h' : Coupled.Run p xs' ys' q)
    (i : ℕ) (request : AdmissionRequest) (k : UUID) (hdone : p.left.running[i]? = some (.done ())) :
    (∀ payload, (Async.begun xs)[i]? = some ((ApiRequest.guarded request
        (.updateCopyRelationship k payload)).program crypto settings sessionTtlMinutes) →
      payload.active = some false →
      Stopped (GuardedOperation.Commits crypto (.updateCopyRelationship k payload)) (Reactivates k)
        (fun _ order => order.copyRelationshipId = k) (Sql.Server.start s₀ now supply) xs i p q ys') ∧
    ∀ payload status, (Async.begun xs)[i]? = some ((ApiRequest.guarded request
        (.admin (.updateExchangeAccount k payload))).program crypto settings sessionTtlMinutes) →
      payload.status = some status → status ≠ .active →
      ∃ account, p.left.state.db.current.exchangeAccounts.get k = some account ∧
        Stopped (GuardedOperation.Commits crypto (.admin (.updateExchangeAccount k payload)))
          (Reinstates k) account.Trades (Sql.Server.start s₀ now supply) xs i p q ys' := by
  refine ⟨fun payload hi hoff => ?_, fun payload status hi hstatus hoff => ?_⟩
  · have hup := update_stands (U := relationships) (fun did tx began s t => relationship_assigned)
      (List.cons_ne_nil _ _) hx h.toLeft hi hdone
    obtain ⟨newer, tx, began, did, p₁, p₂, before, hown, hdid, -, -, hafter, -⟩ := hup
    refine stopped (U := relationships) ?_ inactive_blocks hy h h' hown hdid hafter ?_
    · intro tx began did hnot d hd r hr
      exact inactive_amend hnot hd hr
    · show payload.active.getD before.active = false
      rw [hoff]
      rfl
  · have hup := update_stands (U := accounts) (fun did tx began s t => account_assigned)
      (List.cons_ne_nil _ _) hx h.toLeft hi hdone
    obtain ⟨newer, tx, began, did, p₁, p₂, before, hown, hdid, -, -, hafter, hread, hkeeps⟩ := hup
    -- the account is still the one under its exchange and id
    obtain ⟨hexchange, haccount⟩ := Prod.mk.inj (hkeeps _ (fun r => (r.exchange, r.accountId))
      fun _ began _ _ d _ r => amend_route began d k r)
    refine ⟨_, hread, stopped (U := accounts) ?_ outOfService_blocks hy h h' hown hdid hafter ?_⟩
    · intro tx began did hnot d hd r hr
      exact outOfService_amend hnot hd hr
    · refine ⟨?_, hexchange.symm, haccount.symm⟩
      show payload.status.getD before.status ≠ .active
      rw [hstatus]
      exact hoff

/-! ### An event is under way when its relationship is deactivated -/

theorem no_fingerprint : ∀ s ∈ (none : Option String), IsFingerprint s := by simp

/-- The sample tables as the API has them. -/
def operated : Tables :=
  { bookedAdmin with
    users := ⟨[⟨⟨1⟩, some "admin@example.org", none, "active", active_status⟩,
      ⟨⟨2⟩, none, none, "active", active_status⟩], by decide⟩
    exchangeAccounts :=
      ⟨[⟨⟨30⟩, ⟨1⟩, .hyperliquid, "source", none, .active, none, none, 0, 0, no_fingerprint⟩,
        ⟨⟨31⟩, ⟨2⟩, .aster, "follower", none, .active, none, none, 0, 0, no_fingerprint⟩], by decide⟩
    copyRelationships := sampleDirectory.relationships }

theorem operated_shared : SharedTables operated backedSample.tables := ⟨rfl, rfl, rfl⟩

def killRequest : ApiRequest := .guarded tokenRequest (.updateCopyRelationship ⟨20⟩ pausePayload)

/-- The tables of the query, until the request commits. -/
def unchanged : TablesMove :=
  .retable sampleDirectory (sampleRoutes ()).provider fun event hs hy => sample_lists event () hs hy

/-- The tables of the query from then on. -/
def deactivated : TablesMove := .retable deactivatedDirectory deactivatedAnswers deactivated_lists

abbrev PlatformTurn := Coupled.Turn (Sql.server identity Drawn ApiError) (backed Unit)

/-- An event is handled as far as the publication of its first order. Then the request is. -/
def turnsBefore : List PlatformTurn :=
  .right (.begin (handleNormalizedTradeEvent (.ok sampleEvent))) ::
    List.replicate 6 (.right (.turn 0 .works)) ++
  .left (.begin (killRequest.program sampleCrypto closedSettings 60)) unchanged ::
    List.replicate 10 (.left (.turn 0 .works) unchanged) ++
  List.replicate 2 (.left (.turn 0 .works) deactivated)

/-- The event is delivered again, and the first delivery goes on. -/
def turnsAfter : List PlatformTurn :=
  [.right (.begin (handleNormalizedTradeEvent (.ok sampleEvent))), .right (.turn 1 .works),
    .right (.turn 0 .works)]

def operatedStart : Platform Unit := Platform.start operated 3 adminSupply backedSample operated_shared

theorem kill_switch_sample : ∃ p q : Platform Unit,
    Coupled.Run operatedStart (Coupled.Turn.lefts turnsBefore) (Coupled.Turn.rights turnsBefore) p ∧
    Coupled.Run p (Coupled.Turn.lefts turnsAfter) (Coupled.Turn.rights turnsAfter) q ∧
    p.right.state.world.stream = [] ∧
    q.right.state.world.stream.map (·.body.copyRelationshipId) = [⟨20⟩] ∧
    Stopped (GuardedOperation.Commits sampleCrypto (.updateCopyRelationship ⟨20⟩ pausePayload))
      (Reactivates ⟨20⟩) (fun _ order => order.copyRelationshipId = ⟨20⟩)
      (Sql.Server.start operated 3 adminSupply) (Coupled.Turn.lefts turnsBefore) 0 p q
      (Coupled.Turn.rights turnsAfter) := by
  have hruns : ∃ p q : Platform Unit, operatedStart.run? turnsBefore = some p ∧
      p.run? turnsAfter = some q ∧ p.left.running[0]? = some (.done ()) ∧
      p.right.state.world.stream = [] ∧
      q.right.state.world.stream.map (·.body.copyRelationshipId) = [⟨20⟩] :=
    ⟨_, _, rfl, rfl, rfl, rfl, rfl⟩
  obtain ⟨p, q, hp, hq, hdone, hempty, hids⟩ := hruns
  have hrequest : ∀ r, Input.begin r ∈ Coupled.Turn.lefts turnsBefore → ∃ request : ApiRequest,
      r = request.program sampleCrypto closedSettings 60 := by
    intro r hr
    have : r = killRequest.program sampleCrypto closedSettings 60 := by
      simpa [turnsBefore, Coupled.Turn.lefts] using hr
    exact ⟨_, this⟩
  have hhandlers : ∀ h, Input.begin h ∈ Coupled.Turn.rights turnsBefore ++
      Coupled.Turn.rights turnsAfter → Handler h := by
    intro h hh
    have : h = handleNormalizedTradeEvent (.ok sampleEvent) := by
      simpa [turnsBefore, turnsAfter, Coupled.Turn.rights] using hh
    rw [this]
    exact .trade _
  have hp := Coupled.run_sound hp
  have hq := Coupled.run_sound hq
  have hkill := kill_switch sampleCrypto closedSettings 60 operated 3 adminSupply backedSample
    operated_shared hrequest hhandlers hp hq 0 tokenRequest ⟨20⟩ hdone
  exact ⟨p, q, hp, hq, hempty, hids, hkill.1 pausePayload rfl rfl⟩

end CopyTrade
