import CopyTrade.Spec.FoundationControls
import CopyTrade.Spec.Subscription
import CopyTrade.Sql.Upsert

/-!
# The upserts

`upsert_subscription` and `upsert_risk_settings` of `foundation_controls.py`, as programs on the
tables that they write and the two that their foreign keys refer to.

* `exec_frame`, `exec_under`: their statements under locks.
* `controls`: the tables as a schema of transactions.
* `upsertSubscription`, `upsertRiskSettings`: the methods of the repository.
-/

namespace CopyTrade

open Async (Prog)
open Sql (Table Component withConnection transaction)

/-- What the upserts record as audit states. -/
inductive ControlState where
  | subscription (response : SubscriptionResponse)
  | riskSettings (response : RiskSettingsResponse)
  deriving DecidableEq

namespace Controls

/-- `riskSettings` is `copy_relationship_risk_settings`. -/
structure Tables where
  users : Table Identity.UserRow
  copyRelationships : Relationships
  userSubscriptions : Table SubscriptionRecord := .empty
  riskSettings : Table RiskSettingsRecord := .empty
  auditLogs : AuditLogs ControlState := .empty

/-! ## What can be locked -/

inductive Key where
  | userSubscriptions (k : Sql.Lock UUID Empty)
  | riskSettings (k : Sql.Lock UUID Empty)
  | auditLogs (k : Sql.Lock UUID Empty)
  deriving DecidableEq

inductive Cell where
  | userSubscriptions (c : Sql.TableCell SubscriptionRecord UUID)
  | riskSettings (c : Sql.TableCell RiskSettingsRecord UUID)
  | auditLogs (c : Sql.TableCell (AuditLogRow ControlState) UUID)

def cell (s : Tables) : Key → Cell
  | .userSubscriptions k => .userSubscriptions (s.userSubscriptions.cell k)
  | .riskSettings k => .riskSettings (s.riskSettings.cell k)
  | .auditLogs k => .auditLogs (s.auditLogs.cell k)

def userSubscriptions : Sql.Component SubscriptionRecord cell where
  table s := s.userSubscriptions
  put t s := { s with userSubscriptions := t }
  key := .userSubscriptions
  wrap := .userSubscriptions
  wrap_inj h := Cell.userSubscriptions.inj h
  table_put _ _ := rfl
  cell_key _ _ := rfl
  cell_put _ _ k h := by cases k with
    | userSubscriptions l => exact absurd rfl (h l)
    | _ => rfl

def riskSettings : Sql.Component RiskSettingsRecord cell where
  table s := s.riskSettings
  put t s := { s with riskSettings := t }
  key := .riskSettings
  wrap := .riskSettings
  wrap_inj h := Cell.riskSettings.inj h
  table_put _ _ := rfl
  cell_key _ _ := rfl
  cell_put _ _ k h := by cases k with
    | riskSettings l => exact absurd rfl (h l)
    | _ => rfl

def auditLogs : Sql.Component (AuditLogRow ControlState) cell where
  table s := s.auditLogs
  put t s := { s with auditLogs := t }
  key := .auditLogs
  wrap := .auditLogs
  wrap_inj h := Cell.auditLogs.inj h
  table_put _ _ := rfl
  cell_key _ _ := rfl
  cell_put _ _ k h := by cases k with
    | auditLogs l => exact absurd rfl (h l)
    | _ => rfl

/-! ## The statements -/

/-- The statements of a transaction, and the look-ups of the foreign keys. -/
inductive Stmt where
  | upsertSubscription (userId : UUID) (payload : SubscriptionUpsert)
  | upsertRiskSettings (relationshipId : UUID) (payload : RiskSettingsUpsert)
  | userExists (id : UUID)
  | relationshipExists (id : UUID)
  | insertAuditLog (id : UUID) (entry : AuditEntry ControlState)

abbrev Ret : Stmt → Type
  | .upsertSubscription _ _ => SubscriptionRecord
  | .upsertRiskSettings _ _ => RiskSettingsRecord
  | .userExists _ => Bool
  | .relationshipExists _ => Bool
  | .insertAuditLog _ _ => Unit

/-- The columns and CHECKs refuse a row before its conflict is looked for. -/
def exec : (c : Stmt) → Timestamp → Tables → Option (Ret c × Tables)
  | .upsertSubscription userId payload, now, s =>
    userSubscriptions.upsert? (newSubscription userId now payload) (setSubscription now payload) s
  | .upsertRiskSettings relationshipId payload, now, s =>
    (newRiskSettings? relationshipId now payload).bind fun excluded =>
      riskSettings.upsert? excluded (setRiskSettings now excluded) s
  | .userExists id, _, s => some ((s.users.get id).isSome, s)
  | .relationshipExists id, _, s => some ((s.copyRelationships.get id).isSome, s)
  | .insertAuditLog id entry, now, s => (auditLogs.insert? (entry.row id now) s).map fun t => ((), t)

def locks : Stmt → Tables → List Key
  | .upsertSubscription userId _, _ => [.userSubscriptions (.row userId)]
  | .upsertRiskSettings relationshipId _, _ => [.riskSettings (.row relationshipId)]
  | .userExists _, _ => []
  | .relationshipExists _, _ => []
  | .insertAuditLog id _, _ => [.auditLogs (.row id)]

/-- The look-ups lock no row. -/
def pinned : (c : Stmt) → Ret c → Bool
  | .userExists _, _ => false
  | .relationshipExists _, _ => false
  | _, _ => true

theorem keepsId_setSubscription (now : Timestamp) (payload : SubscriptionUpsert) :
    Table.KeepsId (setSubscription now payload) := fun _ => rfl

theorem keepsId_setRiskSettings (now : Timestamp) (excluded : RiskSettingsRecord) :
    Table.KeepsId (setRiskSettings now excluded) := fun _ => rfl

theorem newRiskSettings_id {relationshipId : UUID} {now : Timestamp} {payload : RiskSettingsUpsert}
    {r : RiskSettingsRecord} (h : newRiskSettings? relationshipId now payload = some r) :
    r.copyRelationshipId = relationshipId := by
  unfold newRiskSettings? at h
  obtain ⟨maxOrderQuantity, -, h⟩ := Option.bind_eq_some_iff.1 h
  obtain ⟨maxLeverage, -, h⟩ := Option.bind_eq_some_iff.1 h
  split at h
  · cases h
    rfl
  · cases h

theorem exec_frame {c : Stmt} {now : Timestamp} {s t : Tables} {a : Ret c} {k : Key}
    (h : exec c now s = some (a, t)) (hk : k ∉ locks c s) : cell t k = cell s k := by
  cases c with
  | upsertSubscription userId payload =>
    exact Component.upsert_frame (keepsId_setSubscription now payload) h hk
  | upsertRiskSettings relationshipId payload =>
    obtain ⟨excluded, hrow, h⟩ := Option.bind_eq_some_iff.1 h
    cases newRiskSettings_id hrow
    exact Component.upsert_frame (keepsId_setRiskSettings now excluded) h hk
  | userExists id => cases h; rfl
  | relationshipExists id => cases h; rfl
  | insertAuditLog id entry => exact Component.insert_frame (Component.answers_eq_some h).2 hk

theorem exec_plain {c : Stmt} {now : Timestamp} {s t : Tables} {a : Ret c}
    (h : exec c now s = some (a, t)) (ha : pinned c a = false) : t = s := by
  cases c with
  | userExists id => cases h; rfl
  | relationshipExists id => cases h; rfl
  | upsertSubscription userId payload => cases ha
  | upsertRiskSettings relationshipId payload => cases ha
  | insertAuditLog id entry => cases ha

theorem exec_under {c : Stmt} {now : Timestamp} {s t u : Tables} {a : Ret c}
    (h : exec c now s = some (a, t)) (ha : pinned c a = true)
    (hu : ∀ k ∈ locks c s, cell u k = cell s k) :
    locks c u = locks c s ∧
      ∃ t', exec c now u = some (a, t') ∧ ∀ k ∈ locks c s, cell t' k = cell t k := by
  cases c with
  | upsertSubscription userId payload =>
    exact ⟨rfl, Component.upsert_under (keepsId_setSubscription now payload) h hu⟩
  | upsertRiskSettings relationshipId payload =>
    obtain ⟨excluded, hrow, h⟩ := Option.bind_eq_some_iff.1 h
    cases newRiskSettings_id hrow
    obtain ⟨t', ht', hcell⟩ := Component.upsert_under (keepsId_setRiskSettings now excluded) h hu
    exact ⟨rfl, t', by rw [exec, hrow, Option.bind_some, ht'], hcell⟩
  | userExists id => cases ha
  | relationshipExists id => cases ha
  | insertAuditLog id entry =>
    have hinsert := (Component.answers_eq_some h).2
    obtain ⟨u', hu', hcell⟩ := Component.insert_under_of hinsert (fun _ hk => hk) hu
    exact ⟨rfl, u', by rw [exec, hu']; rfl, hcell⟩

end Controls

open Controls in
/-- The tables as transactions see them. The repository runs no upsert outside a transaction. -/
abbrev controls : Sql.Schema where
  State := Tables
  Key := Key
  Cell := Cell
  cell := cell
  Stmt := Stmt
  Ret := Ret
  exec := exec
  locks := locks
  pinned := pinned
  Query := Empty
  Answer := Empty.elim
  query q := q.elim
  queryLocks q := q.elim
  frame := exec_frame
  plain := exec_plain
  under_locks := exec_under
  query_frame {q} := q.elim

/-! ## `PostgresFoundationControlRepository` -/

namespace Controls

/-- A process draws the ids of its audit entries by `uuid4()`. -/
abbrev Api := Sql.Client controls UUID ApiError

def fetchIn (tx : ℕ) (c : Stmt) : Prog Api (Ret c) := Sql.run (S := controls) tx c

def insertAuditLog (tx : ℕ) (entry : AuditEntry ControlState) : Prog Api Unit := do
  let id ← Prog.name (σ := Api)
  fetchIn tx (.insertAuditLog id entry)

/-- The audit entry of an upsert. `before_state` is `None`, whatever the upsert found. -/
def upsertEntry (principal : AuthenticatedPrincipal) (action entityType : String) (entityId : UUID)
    (after : ControlState) : AuditEntry ControlState where
  actorType := principal.actorType
  actorId := principal.actorId
  action := action
  entityType := entityType
  entityId := some entityId
  beforeState := none
  afterState := some after

def subscriptionEntry (principal : AuthenticatedPrincipal) (userId : UUID) (record : SubscriptionRecord) :
    AuditEntry ControlState :=
  upsertEntry principal "user_subscription.upserted" "user_subscription" userId
    (.subscription (subscriptionToResponse record))

def riskSettingsEntry (principal : AuthenticatedPrincipal) (relationshipId : UUID)
    (record : RiskSettingsRecord) : AuditEntry ControlState :=
  upsertEntry principal "copy_relationship_risk_settings.upserted" "copy_relationship_risk_settings"
    relationshipId (.riskSettings (riskSettingsToResponse record))

/-- The `except` clause of both methods. -/
def upsertError (e : ApiError) : ApiError :=
  if e = foreignKeyViolationError then FoundationControls.referenceNotFoundError else e

def upsertSubscription (userId : UUID) (payload : SubscriptionUpsert) (principal : AuthenticatedPrincipal) :
    Prog Api SubscriptionRecord :=
  withConnection ((transaction fun tx => do
    let record ← fetchIn tx (.upsertSubscription userId payload)
    let found ← fetchIn tx (.userExists userId)
    if !found then Prog.fail (σ := Api) foreignKeyViolationError
    else do
      insertAuditLog tx (subscriptionEntry principal userId record)
      pure record).tryExcept fun e => Prog.fail (σ := Api) (upsertError e))

def upsertRiskSettings (relationshipId : UUID) (payload : RiskSettingsUpsert)
    (principal : AuthenticatedPrincipal) : Prog Api RiskSettingsRecord :=
  withConnection ((transaction fun tx => do
    let record ← fetchIn tx (.upsertRiskSettings relationshipId payload)
    let found ← fetchIn tx (.relationshipExists relationshipId)
    if !found then Prog.fail (σ := Api) foreignKeyViolationError
    else do
      insertAuditLog tx (riskSettingsEntry principal relationshipId record)
      pure record).tryExcept fun e => Prog.fail (σ := Api) (upsertError e))

end Controls

end CopyTrade
