import CopyTrade.Spec.Upserts
import CopyTrade.Sql.Journal

/-!
# The before-images of the upserts

* `Upserted`: all that a committed upsert does, one row changed with its entry. The entry has no
  before-image.
* `Audited`: a commit whose entry has the true one. `Chained`: the entries of each row lead from
  where it stood to where it stands.
* `upserts_audited_iff`: of a run, either holds exactly where each upsert found no row.
-/

namespace CopyTrade

open Async (Input Pool Prog)
open Sql (Commit Did EachTurn Runs Serial Table)

namespace Controls

/-- What an upsert is of. -/
inductive Entity where
  | subscription (userId : UUID)
  | riskSettings (relationshipId : UUID)
  deriving DecidableEq

/-- The entity of a row of the log, by its `entity_type` and `entity_id`. -/
def entityOf (row : AuditLogRow ControlState) : Option Entity :=
  row.entityId.bind fun id =>
    if row.entityType = "user_subscription" then some (.subscription id)
    else if row.entityType = "copy_relationship_risk_settings" then some (.riskSettings id)
    else none

/-- The audit state of the current row of an entity: the projection of its response. -/
def shown (s : Tables) : Entity → Option ControlState
  | .subscription userId =>
    (s.userSubscriptions.get userId).map fun record => .subscription (subscriptionToResponse record)
  | .riskSettings relationshipId =>
    (s.riskSettings.get relationshipId).map fun record => .riskSettings (riskSettingsToResponse record)

/-- What a committed transaction upserted. -/
def upserted? : Commit controls → Option Entity
  | .transaction _ _ (⟨.upsertSubscription userId _, _⟩ :: _) => some (.subscription userId)
  | .transaction _ _ (⟨.upsertRiskSettings relationshipId _, _⟩ :: _) => some (.riskSettings relationshipId)
  | _ => none

/-- A commit is audited by one entry, with the projections of the row just before it and just
after it. -/
def Audited (c : Commit controls) (s t : Tables) : Prop :=
  ∃ k row, upserted? c = some k ∧ entityOf row = some k ∧ t.auditLogs.rows = s.auditLogs.rows ++ [row] ∧
    row.beforeState = shown s k ∧ row.afterState = shown t k

/-- The entries of each entity, from `s₀` on, lead from what stood in `s₀` to what stands. -/
def Chained (s₀ t : Tables) : Prop :=
  Sql.Chains entityOf (fun row => row.beforeState) (fun row => row.afterState) (shown s₀)
    (t.auditLogs.rows.drop s₀.auditLogs.rows.length) (shown t)

/-- Each commit is the first upsert of its entity, which had no row at the start. -/
def FirstUpserts (s₀ : Tables) (cs : List (Commit controls)) : Prop :=
  (cs.filterMap upserted?).Nodup ∧ ∀ k ∈ cs.filterMap upserted?, shown s₀ k = none

variable {s₀ s t : Tables} {now : Timestamp} {c : Commit controls} {cs : List (Commit controls)}
  {k : Entity} {row : AuditLogRow ControlState}

/-! ## What a transaction commits -/

/-- The statements of a transaction that was committed. -/
inductive UpsertCommit : List (Did controls) → Prop where
  | subscription (userId : UUID) (payload : SubscriptionUpsert) (record : SubscriptionRecord) (aid : UUID)
      (principal : AuthenticatedPrincipal) :
    UpsertCommit [⟨.upsertSubscription userId payload, record⟩, ⟨.userExists userId, true⟩,
      ⟨.insertAuditLog aid (subscriptionEntry principal userId record), ()⟩]
  | riskSettings (relationshipId : UUID) (payload : RiskSettingsUpsert) (record : RiskSettingsRecord)
      (aid : UUID) (principal : AuthenticatedPrincipal) :
    UpsertCommit [⟨.upsertRiskSettings relationshipId payload, record⟩,
      ⟨.relationshipExists relationshipId, true⟩,
      ⟨.insertAuditLog aid (riskSettingsEntry principal relationshipId record), ()⟩]

/-- One row was upserted, and its entry inserted. -/
structure Upserted (k : Entity) (row : AuditLogRow ControlState) (s t : Tables) : Prop where
  entity : entityOf row = some k
  before : row.beforeState = none
  after : row.afterState = shown t k
  exists_after : shown t k ≠ none
  others : ∀ j, j ≠ k → shown t j = shown s j
  log : t.auditLogs.rows = s.auditLogs.rows ++ [row]

theorem upserted_subscription {userId aid : UUID} {record : SubscriptionRecord}
    {principal : AuthenticatedPrincipal} {u : Table SubscriptionRecord} {logs : AuditLogs ControlState}
    (hafter : u.get userId = some record)
    (hother : ∀ j, j ≠ userId → u.get j = s.userSubscriptions.get j)
    (hlogs : s.auditLogs.insert? ((subscriptionEntry principal userId record).row aid now) = some logs) :
    Upserted (.subscription userId) ((subscriptionEntry principal userId record).row aid now) s
      { s with userSubscriptions := u, auditLogs := logs } := by
  refine ⟨?_, rfl, ?_, ?_, fun j hj => ?_, (Table.insert_eq_some.1 hlogs).2⟩
  · simp [entityOf, AuditEntry.row, subscriptionEntry, upsertEntry]
  · simp [shown, AuditEntry.row, subscriptionEntry, upsertEntry, hafter]
  · simp [shown, hafter]
  · cases j with
    | subscription j =>
      have hne : j ≠ userId := fun he => hj (congrArg Entity.subscription he)
      simp only [shown, hother j hne]
    | riskSettings j => rfl

theorem upserted_riskSettings {relationshipId aid : UUID} {record : RiskSettingsRecord}
    {principal : AuthenticatedPrincipal} {u : Table RiskSettingsRecord} {logs : AuditLogs ControlState}
    (hafter : u.get relationshipId = some record)
    (hother : ∀ j, j ≠ relationshipId → u.get j = s.riskSettings.get j)
    (hlogs : s.auditLogs.insert? ((riskSettingsEntry principal relationshipId record).row aid now) = some logs) :
    Upserted (.riskSettings relationshipId) ((riskSettingsEntry principal relationshipId record).row aid now) s
      { s with riskSettings := u, auditLogs := logs } := by
  refine ⟨?_, rfl, ?_, ?_, fun j hj => ?_, (Table.insert_eq_some.1 hlogs).2⟩
  · simp [entityOf, AuditEntry.row, riskSettingsEntry, upsertEntry]
  · simp [shown, AuditEntry.row, riskSettingsEntry, upsertEntry, hafter]
  · simp [shown, hafter]
  · cases j with
    | subscription j => rfl
    | riskSettings j =>
      have hne : j ≠ relationshipId := fun he => hj (congrArg Entity.riskSettings he)
      simp only [shown, hother j hne]

/-- The statement of a method, its look-up, and its entry. -/
theorem runs_upsert {d lookup : Did controls} {held : List Key} {aid : UUID} {entry : AuditEntry ControlState}
    (hd : pinned d.stmt d.answer = true) (hlookup : pinned lookup.stmt lookup.answer = false)
    (h : Runs (S := controls) now held [d, lookup, ⟨.insertAuditLog aid entry, ()⟩] s t) :
    ∃ s₁ logs, exec d.stmt now s = some (d.answer, s₁) ∧
      s₁.auditLogs.insert? (entry.row aid now) = some logs ∧ t = { s₁ with auditLogs := logs } := by
  obtain ⟨-, s₁, hexec, h₁⟩ := (Runs.of_pinned (S := controls) hd).1 h
  have hplain : ¬ controls.pinned lookup.stmt lookup.answer = true := by
    rw [show controls.pinned lookup.stmt lookup.answer = false from hlookup]
    exact Bool.false_ne_true
  have h₂ := (Runs.of_plain (S := controls) hplain).1 h₁
  obtain ⟨-, s₂, hentry, h₃⟩ := (Runs.of_pinned (S := controls) rfl).1 h₂
  cases h₃
  obtain ⟨logs, hlogs, rfl⟩ := Sql.Component.insert_eq_some (Sql.Component.answers_eq_some hentry).2
  exact ⟨s₁, logs, hexec, hlogs, rfl⟩

/-- A statement by itself is none of theirs. -/
def CommitUpserts : Commit controls → Prop := Sql.Allowed UpsertCommit fun _ => False

/-- **All that a committed transaction does**: one row is upserted with its entry. -/
theorem upserted_turns (hc : CommitUpserts c) (h : c.Turns s t) :
    ∃ k row, upserted? c = some k ∧ Upserted k row s t := by
  cases c with
  | query now q a => exact hc.elim
  | transaction tx now did =>
    obtain ⟨held, h⟩ := h
    cases (show UpsertCommit did from hc) with
    | subscription userId payload record aid principal =>
      obtain ⟨s₁, logs, hupsert, hlogs, rfl⟩ := runs_upsert rfl rfl h
      obtain ⟨u, hu, rfl⟩ := Sql.Component.upsert_eq_some hupsert
      have hkeep := keepsId_setSubscription now payload
      exact ⟨_, _, rfl, upserted_subscription (Table.get_upsert hkeep hu)
        (fun j hj => Table.get_upsert_ne hkeep hu hj) hlogs⟩
    | riskSettings relationshipId payload record aid principal =>
      obtain ⟨s₁, logs, hexec, hlogs, rfl⟩ := runs_upsert rfl rfl h
      obtain ⟨excluded, hrow, hupsert⟩ := Option.bind_eq_some_iff.1 hexec
      cases newRiskSettings_id hrow
      obtain ⟨u, hu, rfl⟩ := Sql.Component.upsert_eq_some hupsert
      have hkeep := keepsId_setRiskSettings now excluded
      exact ⟨_, _, rfl, upserted_riskSettings (Table.get_upsert hkeep hu)
        (fun j hj => Table.get_upsert_ne hkeep hu hj) hlogs⟩

/-- **The before-image is true exactly where there was no row.** -/
theorem Upserted.audited_iff (h : Upserted k row s t) (hc : upserted? c = some k) :
    Audited c s t ↔ shown s k = none := by
  constructor
  · rintro ⟨k', row', hk', -, hlog, hbefore, -⟩
    have hrow : row = row' := by
      have happend := h.log.symm.trans hlog
      simpa using happend
    have hsame : k' = k := Option.some.inj (hk'.symm.trans hc)
    rw [← hsame, ← hbefore, ← hrow]
    exact h.before
  · intro hnone
    exact ⟨k, row, hc, h.entity, h.log, h.before.trans hnone.symm, h.after⟩

/-! ## A history of upserts -/

/-- What a history leaves of the log and the rows. -/
structure Recorded (s₀ : Tables) (cs : List (Commit controls)) (t : Tables) : Prop where
  log : ∃ added, t.auditLogs.rows = s₀.auditLogs.rows ++ added ∧
    Sql.Ends entityOf (fun row => row.afterState) (shown s₀) added (shown t)
  absent : ∀ k, shown t k = none ↔ shown s₀ k = none ∧ k ∉ cs.filterMap upserted?

theorem Recorded.upserted (hs : Recorded s₀ cs s) (h : Upserted k row s t) (hc : upserted? c = some k) :
    Recorded s₀ (c :: cs) t := by
  obtain ⟨added, hadded, hends⟩ := hs.log
  refine ⟨⟨added ++ [row], ?_, hends.logged h.entity h.after h.others⟩, fun j => ?_⟩
  · rw [h.log, hadded, List.append_assoc]
  · rw [List.filterMap_cons_some hc, List.mem_cons]
    by_cases hj : j = k
    · rw [hj]
      have hsome := h.exists_after
      simp [hsome]
    · rw [h.others j hj, hs.absent j]
      simp [hj]

theorem serial_recorded : ∀ {cs : List (Commit controls)} {t : Tables}, (∀ c ∈ cs, CommitUpserts c) →
    Serial s₀ cs t → Recorded s₀ cs t := by
  intro cs
  induction cs with
  | nil =>
    intro t _ h
    cases h
    exact ⟨⟨[], (List.append_nil _).symm, fun k => rfl⟩, fun k => by simp⟩
  | cons c cs ih =>
    intro t hcs h
    obtain ⟨s, hs, hturns⟩ := h
    obtain ⟨k, row, hk, hupserted⟩ := upserted_turns (hcs c List.mem_cons_self) hturns
    exact (ih (fun c' hc' => hcs c' (List.mem_cons_of_mem c hc')) hs).upserted hupserted hk

theorem firstUpserts_cons (hs : Recorded s₀ cs s) (hc : upserted? c = some k) :
    FirstUpserts s₀ (c :: cs) ↔ FirstUpserts s₀ cs ∧ shown s k = none := by
  unfold FirstUpserts
  rw [List.filterMap_cons_some hc, List.nodup_cons, List.forall_mem_cons, hs.absent k]
  constructor
  · rintro ⟨⟨hmem, hnodup⟩, hk, hall⟩
    exact ⟨⟨hnodup, hall⟩, hk, hmem⟩
  · rintro ⟨⟨hnodup, hall⟩, hk, hmem⟩
    exact ⟨⟨hmem, hnodup⟩, hk, hall⟩

/-- **The before-images of a history.** -/
theorem eachTurn_audited_iff : ∀ {cs : List (Commit controls)} {t : Tables},
    (∀ c ∈ cs, CommitUpserts c) → Serial s₀ cs t →
      (EachTurn (S := controls) Audited s₀ cs ↔ FirstUpserts s₀ cs) := by
  intro cs
  induction cs with
  | nil => intro t _ _; exact iff_of_true Sql.eachTurn_nil (by simp [FirstUpserts])
  | cons c cs ih =>
    intro t hcs h
    obtain ⟨s, hs, hturns⟩ := h
    have hprior : ∀ c' ∈ cs, CommitUpserts c' := fun c' hc' => hcs c' (List.mem_cons_of_mem c hc')
    obtain ⟨k, row, hk, hupserted⟩ := upserted_turns (hcs c List.mem_cons_self) hturns
    rw [Sql.eachTurn_cons hs hturns, ih hprior hs, hupserted.audited_iff hk,
      firstUpserts_cons (serial_recorded hprior hs) hk]

/-- **The chain of a history.** -/
theorem chained_iff : ∀ {cs : List (Commit controls)} {t : Tables},
    (∀ c ∈ cs, CommitUpserts c) → Serial s₀ cs t → (Chained s₀ t ↔ FirstUpserts s₀ cs) := by
  intro cs
  induction cs with
  | nil =>
    intro t _ h
    cases h
    refine iff_of_true (fun k => ?_) (by simp [FirstUpserts])
    rw [List.drop_length]
    rfl
  | cons c cs ih =>
    intro t hcs h
    obtain ⟨s, hs, hturns⟩ := h
    have hprior : ∀ c' ∈ cs, CommitUpserts c' := fun c' hc' => hcs c' (List.mem_cons_of_mem c hc')
    obtain ⟨k, row, hk, hupserted⟩ := upserted_turns (hcs c List.mem_cons_self) hturns
    have hrecorded := serial_recorded hprior hs
    obtain ⟨added, hadded, hends⟩ := hrecorded.log
    have hchained : Chained s₀ s ↔ FirstUpserts s₀ cs := ih hprior hs
    unfold Chained at hchained ⊢
    -- what stands behind the entries of the start has been added since
    rw [hadded, List.drop_left] at hchained
    rw [hupserted.log, hadded, List.append_assoc, List.drop_left,
      Sql.chains_logged_iff hends hupserted.entity hupserted.after hupserted.others, hchained,
      hupserted.before, firstUpserts_cons hrecorded hk, eq_comm (a := none)]

/-! ## The programs -/

/-- A request to upsert a subscription or the risk settings of a relationship. -/
inductive UpsertRequest : Prog Api Unit → Prop where
  | subscription (userId : UUID) (payload : SubscriptionUpsert) (principal : AuthenticatedPrincipal) :
    UpsertRequest (upsertSubscription userId payload principal >>= fun _ => pure ())
  | riskSettings (relationshipId : UUID) (payload : RiskSettingsUpsert) (principal : AuthenticatedPrincipal) :
    UpsertRequest (upsertRiskSettings relationshipId payload principal >>= fun _ => pure ())

/-- The discipline of the requests. -/
abbrev upserting : Async.Protocol Api (Sql.Mirror controls) :=
  Sql.discipline UpsertCommit fun _ => False

/-- **Every request** commits an upsert with its entry, or nothing. -/
theorem UpsertRequest.keeps {q : Prog Api Unit} (h : UpsertRequest q) : q.Keeps upserting none := by
  cases h with
  | subscription userId payload principal =>
    refine Sql.keeps_method fun tx => ?_
    refine Prog.obeys_bind (Sql.obeys_run (fun record => ?_) fun _ => trivial)
    refine Prog.obeys_bind (Sql.obeys_run (fun found => ?_) fun _ => trivial)
    cases found with
    | false => trivial
    | true =>
      refine Prog.obeys_bind (Prog.obeys_bind fun aid => ?_)
      refine Sql.obeys_run (fun _ => ⟨_, rfl, ?_, trivial⟩) fun _ => trivial
      exact .subscription userId payload record aid principal
  | riskSettings relationshipId payload principal =>
    refine Sql.keeps_method fun tx => ?_
    refine Prog.obeys_bind (Sql.obeys_run (fun record => ?_) fun _ => trivial)
    refine Prog.obeys_bind (Sql.obeys_run (fun found => ?_) fun _ => trivial)
    cases found with
    | false => trivial
    | true =>
      refine Prog.obeys_bind (Prog.obeys_bind fun aid => ?_)
      refine Sql.obeys_run (fun _ => ⟨_, rfl, ?_, trivial⟩) fun _ => trivial
      exact .riskSettings relationshipId payload record aid principal

/-! ## Any interleaving -/

abbrev controlServer : Async.Machine Api := Sql.server controls UUID ApiError

theorem run_recorded {now : Timestamp} {supply : ℕ → UUID} {xs : List (Input controlServer)}
    {p : Pool controlServer} (hx : ∀ q, Input.begin q ∈ xs → UpsertRequest q)
    (h : (Pool.init (Sql.Server.start (S := controls) s₀ now supply)).run? xs = some p) :
    Serial s₀ p.state.db.history p.state.db.current ∧ ∀ c ∈ p.state.db.history, CommitUpserts c := by
  have hstarted : Async.Started upserting none xs := fun q hq => (hx q hq).keeps
  obtain ⟨hsound, hallowed⟩ := Sql.run_sound hstarted h
  exact ⟨hsound.serial, hallowed⟩

/-- **The before-images are true, and the entries chain, exactly where each upsert found no
row.** In any interleaving of upserts with any faults, from any tables: the entry of each
committed upsert has the projection of its row just before it, and the entries of each entity
lead from what stood at the start to what stands, exactly if no two of them are of one entity
and none of an entity that had a row at the start. -/
theorem upserts_audited_iff (s₀ : Tables) (now : Timestamp) (supply : ℕ → UUID)
    (xs : List (Input controlServer)) (p : Pool controlServer)
    (hx : ∀ q, Input.begin q ∈ xs → UpsertRequest q)
    (h : (Pool.init (Sql.Server.start (S := controls) s₀ now supply)).run? xs = some p) :
    (EachTurn (S := controls) Audited s₀ p.state.db.history ↔ FirstUpserts s₀ p.state.db.history) ∧
      (Chained s₀ p.state.db.current ↔ FirstUpserts s₀ p.state.db.history) := by
  obtain ⟨hserial, hcommits⟩ := run_recorded hx h
  exact ⟨eachTurn_audited_iff hcommits hserial, chained_iff hcommits hserial⟩

/-! ### Two upserts -/

/-- A user and a relationship, with no subscription and no risk settings yet. -/
def noControls : Tables where
  users := .singleton ⟨⟨1⟩, none, none, "active", Identity.active_status⟩
  copyRelationships := .singleton {
    id := ⟨2⟩, sourceExchange := .hyperliquid, sourceAccountId := "source", sourceSymbol := none,
    followerAccountId := "follower", targetExchange := .blofin, targetSymbol := "BTCUSDT",
    maxSlippageBps := 100, active := true, effectiveFrom := 0, createdAt := 0, updatedAt := 0,
    max_slippage_non_negative := by decide }

def activePayload : SubscriptionUpsert where
  status := .active
  copyTradingEnabled := true

def canceledPayload : SubscriptionUpsert where
  status := .canceled

theorem no_decimal_pos : ∀ q ∈ (none : Option Decimal), 0 < q := by simp

theorem fifty_bps_range : (0 : ℤ) ≤ 50 ∧ (50 : ℤ) ≤ 1000 := by decide

def slippageLimit : RiskSettingsUpsert where
  maxSlippageBps := 50
  maxOrderQuantity_pos := no_decimal_pos
  maxSlippageBps_range := fifty_bps_range
  maxLeverage_pos := no_decimal_pos

/-- The names that the requests draw. -/
def upsertSupply : ℕ → UUID := fun n => ⟨10 + n⟩

/-- Two requests begin, and the second finds no row locked: each is of an entity of its own. -/
def apart : List (Input controlServer) :=
  [.begin (upsertSubscription ⟨1⟩ activePayload environmentAdminPrincipal >>= fun _ => pure ()),
    .begin (upsertRiskSettings ⟨2⟩ slippageLimit environmentAdminPrincipal >>= fun _ => pure ())] ++
  List.replicate 3 (.turn 0 .works) ++ List.replicate 8 (.turn 1 .works) ++
  List.replicate 5 (.turn 0 .works)

theorem apart_requests (q : Prog Api Unit) (hq : Input.begin q ∈ apart) : UpsertRequest q := by
  have hq : q = (upsertSubscription ⟨1⟩ activePayload environmentAdminPrincipal >>= fun _ => pure ()) ∨
      q = (upsertRiskSettings ⟨2⟩ slippageLimit environmentAdminPrincipal >>= fun _ => pure ()) := by
    simpa [apart] using hq
  rcases hq with rfl | rfl
  · exact .subscription _ _ _
  · exact .riskSettings _ _ _

theorem upserts_audited_iff_apart : ∃ p : Pool controlServer,
    (Pool.init (Sql.Server.start (S := controls) noControls 0 upsertSupply)).run? apart = some p ∧
    p.state.db.history.length = 2 ∧ EachTurn (S := controls) Audited noControls p.state.db.history ∧
    Chained noControls p.state.db.current := by
  have hrun : ∃ p : Pool controlServer,
      (Pool.init (Sql.Server.start (S := controls) noControls 0 upsertSupply)).run? apart = some p ∧
      p.state.db.history.filterMap upserted? = [.subscription ⟨1⟩, .riskSettings ⟨2⟩] ∧
      p.state.db.history.length = 2 := ⟨_, rfl, rfl, rfl⟩
  obtain ⟨p, hp, hupserted, hlength⟩ := hrun
  have hfirst : FirstUpserts noControls p.state.db.history := by
    unfold FirstUpserts
    rw [hupserted]
    exact ⟨by decide, by simp; exact ⟨rfl, rfl⟩⟩
  have haudited := upserts_audited_iff noControls 0 upsertSupply apart p apart_requests hp
  exact ⟨p, hp, hlength, haudited.1.2 hfirst, haudited.2.2 hfirst⟩

/-- A subscription is upserted, and then canceled. -/
def twice : List (Input controlServer) :=
  .begin (upsertSubscription ⟨1⟩ activePayload environmentAdminPrincipal >>= fun _ => pure ()) ::
  List.replicate 8 (.turn 0 .works) ++
  .begin (upsertSubscription ⟨1⟩ canceledPayload environmentAdminPrincipal >>= fun _ => pure ()) ::
  List.replicate 8 (.turn 1 .works)

theorem twice_requests (q : Prog Api Unit) (hq : Input.begin q ∈ twice) : UpsertRequest q := by
  have hq : q = (upsertSubscription ⟨1⟩ activePayload environmentAdminPrincipal >>= fun _ => pure ()) ∨
      q = (upsertSubscription ⟨1⟩ canceledPayload environmentAdminPrincipal >>= fun _ => pure ()) := by
    simpa [twice] using hq
  rcases hq with rfl | rfl
  · exact .subscription _ _ _
  · exact .subscription _ _ _

/-- The second entry has no before-image, though the subscription was active. -/
theorem active_subscription_forgotten : (∀ q, Input.begin q ∈ twice → UpsertRequest q) ∧
    ∃ p : Pool controlServer,
      (Pool.init (Sql.Server.start (S := controls) noControls 0 upsertSupply)).run? twice = some p ∧
      ¬ EachTurn (S := controls) Audited noControls p.state.db.history ∧
      ¬ Chained noControls p.state.db.current := by
  refine ⟨twice_requests, ?_⟩
  have hrun : ∃ p : Pool controlServer,
      (Pool.init (Sql.Server.start (S := controls) noControls 0 upsertSupply)).run? twice = some p ∧
      p.state.db.history.filterMap upserted? = [.subscription ⟨1⟩, .subscription ⟨1⟩] := ⟨_, rfl, rfl⟩
  obtain ⟨p, hp, hupserted⟩ := hrun
  have hnot : ¬ FirstUpserts noControls p.state.db.history := by
    unfold FirstUpserts
    rw [hupserted]
    rintro ⟨hnodup, -⟩
    revert hnodup
    decide
  obtain ⟨hserial, hcommits⟩ := run_recorded twice_requests hp
  refine ⟨p, hp, ?_, ?_⟩
  · rw [eachTurn_audited_iff hcommits hserial]
    exact hnot
  · rw [chained_iff hcommits hserial]
    exact hnot

end Controls

end CopyTrade
