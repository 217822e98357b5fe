import CopyTrade.Spec.Events
import CopyTrade.Sql.Journal
import CopyTrade.Sql.Keyed

/-!
# The audit log

The table `audit_logs`, what `insert_audit_log` writes into it, and what
`PostgresAuditLogRepository.list` reads from it. The recorded states are
kept as the records they are the JSON of, so states that differ as JSON differ here.
-/

namespace CopyTrade

/-- What the CHECK on `actor_type` admits. -/
inductive ActorType where
  | adminApi
  | system
  | user
  deriving DecidableEq, Repr

/-- The arguments of `insert_audit_log`. `A` is what a repository records as states. -/
structure AuditEntry (A : Type) where
  actorType : ActorType
  actorId : Option String
  action : String
  entityType : String
  entityId : Option UUID
  beforeState : Option A
  afterState : Option A
  metadata : List (String × String) := []
  deriving DecidableEq

/-- A row of `audit_logs`. -/
structure AuditLogRow (A : Type) extends AuditEntry A where
  id : UUID
  occurredAt : Timestamp
  deriving DecidableEq

variable {A : Type}

instance : Sql.Constrained (AuditLogRow A) where
  Clash a b := a.id = b.id
  clash_symm h := h.symm
  decidable _ _ := inferInstance

instance : Sql.Keyed (AuditLogRow A) UUID Empty where
  id r := r.id
  entries _ := []
  clash_iff := by simp [Sql.Clash]

abbrev AuditLogs (A : Type) := Sql.Table (AuditLogRow A)

/-- The row of `INSERT_AUDIT_LOG_SQL`. `occurred_at` is left to its default `now()`. -/
def AuditEntry.row (entry : AuditEntry A) (uuid4 : UUID) (now : Timestamp) : AuditLogRow A :=
  { entry with id := uuid4, occurredAt := now }

/-- The parameters of `GET /admin/audit-logs`. -/
structure AuditLogQuery where
  entityType : Option String := none
  entityId : Option UUID := none
  action : Option String := none
  limit : ℕ := 100
  offset : ℕ := 0
  entityType_length : ∀ s ∈ entityType, 1 ≤ s.length ∧ s.length ≤ 128
  action_length : ∀ s ∈ action, 1 ≤ s.length ∧ s.length ≤ 128
  limit_range : 1 ≤ limit ∧ limit ≤ 500

/-- The `WHERE` clauses of `list`. -/
def AuditLogQuery.Selects (q : AuditLogQuery) (row : AuditLogRow A) : Prop :=
  (∀ entityType ∈ q.entityType, row.entityType = entityType) ∧
    (∀ entityId ∈ q.entityId, row.entityId = some entityId) ∧ ∀ action ∈ q.action, row.action = action

instance (q : AuditLogQuery) (row : AuditLogRow A) : Decidable (q.Selects row) :=
  inferInstanceAs (Decidable ((∀ _ ∈ _, _) ∧ (∀ _ ∈ _, _) ∧ ∀ _ ∈ _, _))

/-- A page that `list` may answer. `ORDER BY occurred_at DESC` leaves the order of rows of one
time open. -/
def AuditLogQuery.Answers (q : AuditLogQuery) (logs : AuditLogs A) (page : List (AuditLogRow A)) : Prop :=
  ∃ ordered, Sql.Descending AuditLogRow.occurredAt (logs.rows.filter fun row => q.Selects row) ordered ∧
    page = (ordered.drop q.offset).take q.limit

end CopyTrade
