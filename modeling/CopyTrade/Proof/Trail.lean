import CopyTrade.Proof.Effects
import CopyTrade.Proof.Entrance
import CopyTrade.Proof.Routes
import CopyTrade.Spec.FoundationControls
import CopyTrade.Sql.Journal

/-!
# The audit trail replays to the tables

The creates and updates of exchange accounts and copy relationships, with their entries in
the audit log.

* `AuditedCommit`: what such a transaction commits. `Logged`: what that does to the tables, one
  entity changed with its entry.
* `serial_replays`: the entries of an entity lead from nothing to its row.
* `serial_log`: the log lists the entries in the order of the commits.
-/

namespace CopyTrade

open Async (Input Pool Prog)
open Identity
open Sql (Commit Did Runs Serial Table)

/-! ## Entities and their entries -/

/-- What an audit entry is about. -/
inductive Entity where
  | exchangeAccount (id : UUID)
  | copyRelationship (id : UUID)
  deriving DecidableEq

/-- The entity of a row of the log, by its `entity_type` and `entity_id`. -/
def entityOf (row : AuditLogRow AuditState) : Option Entity :=
  row.entityId.bind fun id =>
    if row.entityType = "exchange_account" then some (.exchangeAccount id)
    else if row.entityType = "copy_relationship" then some (.copyRelationship id)
    else none

/-- The audit state of the current row of an entity: the projection of its response. -/
def shown (s : Tables) : Entity → Option AuditState
  | .exchangeAccount id =>
    (s.exchangeAccounts.get id).map fun record => .exchangeAccount (exchangeAccountToResponse record)
  | .copyRelationship id => (s.copyRelationships.get id).map .copyRelationship

/-- The log replays to the tables: the entries of each entity lead from nothing to its row. -/
def AuditReplays (s : Tables) : Prop :=
  Sql.Replays entityOf (fun row => row.beforeState) (fun row => row.afterState) s.auditLogs.rows (shown s)

/-- One entity was changed, and its entry inserted. -/
structure Logged (now : Timestamp) (k : Entity) (row : AuditLogRow AuditState) (s t : Tables) : Prop where
  entity : entityOf row = some k
  occurred : row.occurredAt = now
  before : row.beforeState = shown s k
  after : row.afterState = shown t k
  exists_after : shown t k ≠ none
  stamped : ∀ record, row.afterState = some (.copyRelationship record) → record.updatedAt = now
  others : ∀ j, j ≠ k → shown t j = shown s j
  log : t.auditLogs.rows = s.auditLogs.rows ++ [row]

variable {now : Timestamp} {s t : Tables}

theorem Logged.replays {k : Entity} {row : AuditLogRow AuditState} (h : Logged now k row s t)
    (hs : AuditReplays s) : AuditReplays t := by
  unfold AuditReplays
  rw [h.log]
  exact Sql.Replays.logged hs h.entity h.before h.after h.exists_after h.others

/-! ## What a transaction commits -/

def loggedEntry? : Did identity → Option (AuditEntry AuditState)
  | ⟨.insertAuditLog _ entry, _⟩ => some entry
  | _ => none

/-- The audit entries of a commit. -/
def commitEntries : Commit identity → List (AuditEntry AuditState)
  | .transaction _ _ did => did.filterMap loggedEntry?
  | .query _ (.insertAuditLog _ entry) _ => [entry]
  | .query _ _ _ => []

theorem loggedEntry_idle {did : List (Did identity)} (h : ∀ x ∈ did, Idles x) :
    did.filterMap loggedEntry? = [] := by
  rw [List.filterMap_eq_nil_iff]
  intro x hx
  obtain ⟨c, a⟩ := x
  cases c with
  | insertAuditLog aid entry => exact absurd (h _ hx) (by simp [Idles, pinned])
  | _ => rfl

/-- The statements of a transaction that was committed. -/
inductive AuditedCommit : List (Did identity) → Prop where
  | idle {did : List (Did identity)} (h : ∀ x ∈ did, Idles x) : AuditedCommit did
  | createExchangeAccount (id : UUID) (payload : ExchangeAccountCreate) (record : ExchangeAccountRecord)
      (found : Bool) (aid : UUID) (principal : AuthenticatedPrincipal) :
    AuditedCommit [⟨.insertExchangeAccount id payload, record⟩, ⟨.userExists payload.userId, found⟩,
      ⟨.insertAuditLog aid (FoundationControls.exchangeAccountEntry principal "exchange_account.created"
        none record), ()⟩]
  | updateExchangeAccount (id : UUID) (payload : ExchangeAccountUpdate)
      (before after : ExchangeAccountRecord) (aid : UUID) (principal : AuthenticatedPrincipal) :
    AuditedCommit [⟨.selectExchangeAccountByIdForUpdate id, some before⟩,
      ⟨.updateExchangeAccount id payload, some after⟩,
      ⟨.insertAuditLog aid (FoundationControls.exchangeAccountEntry principal "exchange_account.updated"
        (some before) after), ()⟩]
  | createCopyRelationship (id : UUID) (payload : CopyRelationshipCreate) (record : CopyRelationshipRow)
      (aid : UUID) (principal : AuthenticatedPrincipal) :
    AuditedCommit [⟨.insertCopyRelationship id payload, record⟩,
      ⟨.insertAuditLog aid (CopyRelationships.copyRelationshipEntry principal "copy_relationship.created"
        none record), ()⟩]
  | updateCopyRelationship (id : UUID) (payload : CopyRelationshipUpdate)
      (before after : CopyRelationshipRow) (aid : UUID) (principal : AuthenticatedPrincipal) :
    AuditedCommit [⟨.selectCopyRelationshipByIdForUpdate id, some before⟩,
      ⟨.updateCopyRelationship id payload, some after⟩,
      ⟨.insertAuditLog aid (CopyRelationships.copyRelationshipEntry principal "copy_relationship.updated"
        (some before) after), ()⟩]

/-- The entry of an exchange account, inserted after its row. -/
theorem logged_exchangeAccount {id aid : UUID} {record : ExchangeAccountRecord}
    {before : Option ExchangeAccountRecord} {principal : AuthenticatedPrincipal} {action : String}
    {u : Table ExchangeAccountRecord} {logs : AuditLogs AuditState} (hid : record.id = id)
    (hbefore : s.exchangeAccounts.get id = before) (hafter : u.get id = some record)
    (hother : ∀ j, j ≠ id → u.get j = s.exchangeAccounts.get j)
    (hlogs : s.auditLogs.insert? ((FoundationControls.exchangeAccountEntry principal action before
      record).row aid now) = some logs) :
    Logged now (.exchangeAccount id) ((FoundationControls.exchangeAccountEntry principal action before
      record).row aid now) s { s with exchangeAccounts := u, auditLogs := logs } := by
  refine ⟨?_, rfl, ?_, ?_, ?_, ?_, fun j hj => ?_, (Table.insert_eq_some.1 hlogs).2⟩
  · simp [entityOf, AuditEntry.row, FoundationControls.exchangeAccountEntry, hid]
  · simp [shown, AuditEntry.row, FoundationControls.exchangeAccountEntry, hbefore]
  · simp [shown, AuditEntry.row, FoundationControls.exchangeAccountEntry, hafter]
  · simp [shown, hafter]
  · simp [AuditEntry.row, FoundationControls.exchangeAccountEntry]
  · cases j with
    | exchangeAccount j =>
      have hne : j ≠ id := fun he => hj (congrArg Entity.exchangeAccount he)
      simp only [shown, hother j hne]
    | copyRelationship j => rfl

/-- The entry of a copy relationship, inserted after its row. -/
theorem logged_copyRelationship {id aid : UUID} {record : CopyRelationshipRow}
    {before : Option CopyRelationshipRow} {principal : AuthenticatedPrincipal} {action : String}
    {u : Relationships} {logs : AuditLogs AuditState} (hid : record.id = id) (htime : record.updatedAt = now)
    (hbefore : s.copyRelationships.get id = before) (hafter : u.get id = some record)
    (hother : ∀ j, j ≠ id → u.get j = s.copyRelationships.get j)
    (hlogs : s.auditLogs.insert? ((CopyRelationships.copyRelationshipEntry principal action before
      record).row aid now) = some logs) :
    Logged now (.copyRelationship id) ((CopyRelationships.copyRelationshipEntry principal action before
      record).row aid now) s { s with copyRelationships := u, auditLogs := logs } := by
  refine ⟨?_, rfl, ?_, ?_, ?_, fun r hr => ?_, fun j hj => ?_, (Table.insert_eq_some.1 hlogs).2⟩
  · simp [entityOf, AuditEntry.row, CopyRelationships.copyRelationshipEntry, hid]
  · simp [shown, AuditEntry.row, CopyRelationships.copyRelationshipEntry, hbefore]
  · simp [shown, AuditEntry.row, CopyRelationships.copyRelationshipEntry, hafter]
  · simp [shown, hafter]
  · have heq : record = r := by simpa [AuditEntry.row, CopyRelationships.copyRelationshipEntry] using hr
    rw [← heq]
    exact htime
  · cases j with
    | exchangeAccount j => rfl
    | copyRelationship j =>
      have hne : j ≠ id := fun he => hj (congrArg Entity.copyRelationship he)
      simp only [shown, hother j hne]

/-- **All that an update of a copy relationship does** where it is committed. -/
theorem runs_updateCopyRelationship {held : List Key} {id aid : UUID} {payload : CopyRelationshipUpdate}
    {before after : CopyRelationshipRow} {principal : AuthenticatedPrincipal}
    (h : Runs (S := identity) now held [⟨.selectCopyRelationshipByIdForUpdate id, some before⟩,
      ⟨.updateCopyRelationship id payload, some after⟩,
      ⟨.insertAuditLog aid (CopyRelationships.copyRelationshipEntry principal "copy_relationship.updated"
        (some before) after), ()⟩] s t) :
    s.copyRelationships.get id = some before ∧ after = assign now payload before ∧
      t.copyRelationships.get id = some after ∧
      Logged now (.copyRelationship id) ((CopyRelationships.copyRelationshipEntry principal
        "copy_relationship.updated" (some before) after).row aid now) s t := by
  obtain ⟨s₁, ⟨hbefore, rfl⟩, h₁⟩ := runs_effect rfl h
  obtain ⟨s₂, ⟨hafter, u, hu, rfl⟩, h₂⟩ := runs_effect rfl h₁
  obtain ⟨s₃, ⟨logs, hlogs, rfl⟩, h₃⟩ := runs_effect rfl h₂
  cases h₃
  rw [← hbefore] at hafter
  have heq : after = assign now payload before := Option.some.inj hafter
  have hget : u.get id = some after := by
    rw [Table.get_update hu (keepsId_assign now payload), ← hbefore, heq]
    rfl
  have hid : after.id = id := (Table.get_eq_some.1 hget).2
  have htime : after.updatedAt = now := by rw [heq]; rfl
  exact ⟨hbefore.symm, heq, hget, logged_copyRelationship hid htime hbefore.symm hget
    (fun j hj => Table.get_update_ne hu (keepsId_assign now payload) hj) hlogs⟩

/-- **All that a committed transaction does**: nothing, or one entity is changed with its entry. -/
theorem audited_turns {tx : ℕ} {did : List (Did identity)} (hdid : AuditedCommit did)
    (h : (Commit.transaction tx now did : Commit identity).Turns s t) :
    (t = s ∧ did.filterMap loggedEntry? = []) ∨
      ∃ k row, Logged now k row s t ∧ did.filterMap loggedEntry? = [row.toAuditEntry] := by
  obtain ⟨held, h⟩ := h
  cases hdid with
  | idle hidle => exact Or.inl ⟨runs_idle hidle h, loggedEntry_idle hidle⟩
  | createExchangeAccount id payload record found aid principal =>
    obtain ⟨s₁, ⟨-, rfl, u, hu, rfl⟩, h₁⟩ := runs_effect rfl h
    have h₂ := (Runs.of_plain (S := identity) (by simp [pinned])).1 h₁
    obtain ⟨s₃, ⟨logs, hlogs, rfl⟩, h₃⟩ := runs_effect rfl h₂
    cases h₃
    obtain ⟨hnone, -⟩ := Table.insert_isSome_iff.1 ⟨u, hu⟩
    exact Or.inr ⟨_, _, logged_exchangeAccount rfl hnone (Table.get_insert hu)
      (fun j hj => Table.get_insert_ne hu hj) hlogs, rfl⟩
  | updateExchangeAccount id payload before after aid principal =>
    obtain ⟨s₁, ⟨hbefore, rfl⟩, h₁⟩ := runs_effect rfl h
    obtain ⟨s₂, ⟨hafter, u, hu, rfl⟩, h₂⟩ := runs_effect rfl h₁
    obtain ⟨s₃, ⟨logs, hlogs, rfl⟩, h₃⟩ := runs_effect rfl h₂
    cases h₃
    have hget : u.get id = some after := by
      rw [Table.get_update hu (keepsId_assignAccount now payload), ← hafter]
    have hid : after.id = id := (Table.get_eq_some.1 hget).2
    exact Or.inr ⟨_, _, logged_exchangeAccount hid hbefore.symm hget
      (fun j hj => Table.get_update_ne hu (keepsId_assignAccount now payload) hj) hlogs, rfl⟩
  | createCopyRelationship id payload record aid principal =>
    obtain ⟨s₁, ⟨hrow, u, hu, rfl⟩, h₁⟩ := runs_effect rfl h
    obtain ⟨s₂, ⟨logs, hlogs, rfl⟩, h₂⟩ := runs_effect rfl h₁
    cases h₂
    obtain ⟨hnone, -⟩ := Table.insert_isSome_iff.1 ⟨u, hu⟩
    have htime : record.updatedAt = now := by
      obtain ⟨row₀, -, rfl⟩ := relationshipRow_time hrow
      rfl
    exact Or.inr ⟨_, _, logged_copyRelationship rfl htime hnone (Table.get_insert hu)
      (fun j hj => Table.get_insert_ne hu hj) hlogs, rfl⟩
  | updateCopyRelationship id payload before after aid principal =>
    obtain ⟨-, -, -, hlogged⟩ := runs_updateCopyRelationship h
    exact Or.inr ⟨_, _, hlogged, rfl⟩

theorem replays_turns {tx : ℕ} {did : List (Did identity)} (hdid : AuditedCommit did)
    (h : (Commit.transaction tx now did : Commit identity).Turns s t) (hs : AuditReplays s) :
    AuditReplays t := by
  rcases audited_turns hdid h with ⟨rfl, -⟩ | ⟨k, row, hlogged, -⟩
  · exact hs
  · exact hlogged.replays hs

/-- A statement by itself is none of theirs. -/
def CommitAudited : Commit identity → Prop := Sql.Allowed AuditedCommit fun _ => False

/-- **A serial history of such transactions** leaves a log that replays to the tables. -/
theorem serial_replays {s₀ : Tables} {cs : List (Commit identity)} (h₀ : AuditReplays s₀)
    (hcs : ∀ c ∈ cs, CommitAudited c) (h : Serial s₀ cs t) : AuditReplays t := by
  refine h.inv h₀ (fun c s t hc hs hturns => ?_) hcs
  cases c with
  | query now q a => exact hc.elim
  | transaction tx began did => exact replays_turns hc hturns hs

/-- **The log lists the entries in the order of the commits.** -/
theorem serial_log {s₀ : Tables} {cs : List (Commit identity)} :
    ∀ {t : Tables}, (∀ c ∈ cs, CommitAudited c) → Serial s₀ cs t →
      t.auditLogs.rows.map AuditLogRow.toAuditEntry =
        s₀.auditLogs.rows.map AuditLogRow.toAuditEntry ++ cs.reverse.flatMap commitEntries := by
  induction cs with
  | nil => intro t _ h; cases h; simp
  | cons c cs ih =>
    intro t hcs h
    obtain ⟨s, hs, hturns⟩ := h
    have hprior := ih (fun c' hc' => hcs c' (List.mem_cons_of_mem c hc')) hs
    rw [List.reverse_cons, List.flatMap_append, ← List.append_assoc, ← hprior, List.flatMap_singleton]
    cases c with
    | query now q a => exact (hcs _ List.mem_cons_self).elim
    | transaction tx began did =>
      show _ = _ ++ did.filterMap loggedEntry?
      rcases audited_turns (hcs _ List.mem_cons_self) hturns with ⟨rfl, hnone⟩ | ⟨k, row, hlogged, hone⟩
      · rw [hnone, List.append_nil]
      · rw [hone, hlogged.log, List.map_append, List.map_singleton]

/-! ## The programs -/

/-- A request to create or update an exchange account or a copy relationship. -/
inductive ControlRequest : Prog IdentityApi Unit → Prop where
  | createExchangeAccount (payload : ExchangeAccountCreate) (principal : AuthenticatedPrincipal) :
    ControlRequest (FoundationControls.Repository.createExchangeAccount payload principal >>= fun _ => pure ())
  | updateExchangeAccount (accountId : UUID) (payload : ExchangeAccountUpdate)
      (principal : AuthenticatedPrincipal) :
    ControlRequest (FoundationControls.Repository.updateExchangeAccount accountId payload principal >>=
      fun _ => pure ())
  | createCopyRelationship (payload : CopyRelationshipCreate) (principal : AuthenticatedPrincipal) :
    ControlRequest (CopyRelationships.create payload principal >>= fun _ => pure ())
  | updateCopyRelationship (relationshipId : UUID) (payload : CopyRelationshipUpdate)
      (principal : AuthenticatedPrincipal) :
    ControlRequest (CopyRelationships.update relationshipId payload principal >>= fun _ => pure ())

/-- The discipline of the requests. -/
abbrev audited : Async.Protocol IdentityApi (Sql.Mirror identity) :=
  Sql.discipline AuditedCommit fun _ => False

theorem tryExcept_fail_eq {α : Type} (p : Prog IdentityApi α) :
    (p.tryExcept fun e => Prog.fail (σ := IdentityApi) e) = p := by
  induction p with
  | done a => rfl
  | fail e => rfl
  | fresh k ih => exact congrArg Prog.fresh (funext ih)
  | await c k ih => exact congrArg (Prog.await c) (funext ih)

/-- **Every request** commits a change with its entry, or nothing. -/
theorem ControlRequest.keeps {q : Prog IdentityApi Unit} (h : ControlRequest q) : q.Keeps audited none := by
  cases h with
  | createExchangeAccount payload principal =>
    refine Sql.keeps_method fun tx => Prog.obeys_bind (obeys_uuid4 fun id => ?_)
    refine Prog.obeys_bind (Sql.obeys_run (fun record => ?_) fun _ => trivial)
    refine Prog.obeys_bind (Sql.obeys_run (fun found => ?_) fun _ => trivial)
    cases found with
    | false => trivial
    | true =>
      refine Prog.obeys_bind (Prog.obeys_bind (obeys_uuid4 fun aid => ?_))
      refine Sql.obeys_run (fun _ => ⟨_, rfl, ?_, trivial⟩) fun _ => trivial
      exact .createExchangeAccount id payload record true aid principal
  | updateExchangeAccount accountId payload principal =>
    unfold FoundationControls.Repository.updateExchangeAccount
    split
    · trivial
    rw [← tryExcept_fail_eq (Sql.transaction _)]
    refine Sql.keeps_method fun tx => ?_
    refine Prog.obeys_bind (Sql.obeys_run (fun before => ?_) fun _ => trivial)
    cases before with
    | none => exact ⟨_, rfl, .idle (by simp [Idles]), trivial⟩
    | some before =>
      refine Prog.obeys_bind (Sql.obeys_run (fun after => ?_) fun _ => trivial)
      cases after with
      | none => exact ⟨_, rfl, .idle (by simp [Idles, pinned]), trivial⟩
      | some after =>
        refine Prog.obeys_bind (Prog.obeys_bind (obeys_uuid4 fun aid => ?_))
        refine Sql.obeys_run (fun _ => ⟨_, rfl, ?_, trivial⟩) fun _ => trivial
        exact .updateExchangeAccount accountId payload before after aid principal
  | createCopyRelationship payload principal =>
    refine Sql.keeps_method fun tx => Prog.obeys_bind (obeys_uuid4 fun id => ?_)
    refine Prog.obeys_bind (Sql.obeys_run (fun record => ?_) fun _ => trivial)
    refine Prog.obeys_bind (Prog.obeys_bind (obeys_uuid4 fun aid => ?_))
    refine Sql.obeys_run (fun _ => ⟨_, rfl, ?_, trivial⟩) fun _ => trivial
    exact .createCopyRelationship id payload record aid principal
  | updateCopyRelationship relationshipId payload principal =>
    refine Sql.keeps_method fun tx => ?_
    refine Prog.obeys_bind (Sql.obeys_run (fun before => ?_) fun _ => trivial)
    cases before with
    | none => exact ⟨_, rfl, .idle (by simp [Idles]), trivial⟩
    | some before =>
      refine Prog.obeys_bind (Sql.obeys_run (fun after => ?_) fun _ => trivial)
      cases after with
      | none => exact ⟨_, rfl, .idle (by simp [Idles, pinned]), trivial⟩
      | some after =>
        refine Prog.obeys_bind (Prog.obeys_bind (obeys_uuid4 fun aid => ?_))
        refine Sql.obeys_run (fun _ => ⟨_, rfl, ?_, trivial⟩) fun _ => trivial
        exact .updateCopyRelationship relationshipId payload before after aid principal

/-! ## Any interleaving -/

/-- **The audit trail replays to the current state**, in any interleaving with any faults. The
entries of each entity chain from nothing to the projection of its current row, where it has
one, and the log lists all entries in the order of the commits. -/
theorem audit_trail_replays (s₀ : Tables) (now : Timestamp) (supply : ℕ → Drawn)
    (xs : List (Input identityServer)) (p : Pool identityServer) (hs₀ : AuditReplays s₀)
    (hx : ∀ q, Input.begin q ∈ xs → ControlRequest q)
    (h : (Pool.init (Sql.Server.start (S := identity) s₀ now supply)).run? xs = some p) :
    AuditReplays p.state.db.current ∧
      p.state.db.current.auditLogs.rows.map AuditLogRow.toAuditEntry =
        s₀.auditLogs.rows.map AuditLogRow.toAuditEntry ++ p.state.db.history.reverse.flatMap commitEntries := by
  have hstarted : Async.Started audited none xs := fun q hq => (hx q hq).keeps
  obtain ⟨hsound, hallowed⟩ := Sql.run_sound hstarted h
  exact ⟨serial_replays hs₀ hallowed hsound.serial, serial_log hallowed hsound.serial⟩

/-! ### One update overtakes another -/

def emptyTables : Tables where
  users := Table.empty
  roles := Table.empty
  userRoles := Table.empty
  apiCredentials := Table.empty
  passwordCredentials := Table.empty
  userSessions := Table.empty
  auditLogs := Table.empty

theorem emptyTables_replays : AuditReplays emptyTables := by
  intro k
  cases k with
  | exchangeAccount id => exact Sql.ChainsTo.nil
  | copyRelationship id => exact Sql.ChainsTo.nil

def slippagePayload : CopyRelationshipUpdate :=
  ⟨none, some 50, by simp, by simp⟩

def pausePayload : CopyRelationshipUpdate :=
  ⟨some false, none, by simp, by simp⟩

/-- A relationship is created, and two updates of it begin. The one that began first finds the
row locked last. -/
def overtaking : List (Input identityServer) :=
  .begin (CopyRelationships.create wildcardPayload environmentAdminPrincipal >>= fun _ => pure ()) ::
  List.replicate 8 (.turn 0 .works) ++
  [.begin (CopyRelationships.update ⟨10⟩ slippagePayload environmentAdminPrincipal >>= fun _ => pure ()),
    .begin (CopyRelationships.update ⟨10⟩ pausePayload environmentAdminPrincipal >>= fun _ => pure ()),
    .move (.elapse 1), .turn 1 .works, .turn 1 .works, .move (.elapse 1)] ++
  List.replicate 8 (.turn 2 .works) ++ List.replicate 6 (.turn 1 .works)

theorem overtaking_requests (q : Prog IdentityApi Unit) (hq : Input.begin q ∈ overtaking) :
    ControlRequest q := by
  have hq : q = (CopyRelationships.create wildcardPayload environmentAdminPrincipal >>= fun _ => pure ()) ∨
      q = (CopyRelationships.update ⟨10⟩ slippagePayload environmentAdminPrincipal >>= fun _ => pure ()) ∨
      q = (CopyRelationships.update ⟨10⟩ pausePayload environmentAdminPrincipal >>= fun _ => pure ()) := by
    simpa [overtaking] using hq
  rcases hq with rfl | rfl | rfl
  · exact .createCopyRelationship _ _
  · exact .updateCopyRelationship _ _ _
  · exact .updateCopyRelationship _ _ _

/-- The names that the requests draw. -/
def overtakingSupply : ℕ → Drawn := fun n => ⟨⟨10 + n⟩, [], [], 0⟩

theorem audit_trail_replays_overtaking : ∃ p : Pool identityServer,
    (Pool.init (Sql.Server.start (S := identity) emptyTables 0 overtakingSupply)).run? overtaking = some p ∧
    p.state.db.current.auditLogs.rows.length = 3 ∧ AuditReplays p.state.db.current := by
  have hrun : ∃ p : Pool identityServer,
      (Pool.init (Sql.Server.start (S := identity) emptyTables 0 overtakingSupply)).run? overtaking = some p ∧
      p.state.db.current.auditLogs.rows.length = 3 := ⟨_, rfl, rfl⟩
  obtain ⟨p, hp, hlength⟩ := hrun
  refine ⟨p, hp, hlength, ?_⟩
  exact (audit_trail_replays emptyTables 0 overtakingSupply overtaking p emptyTables_replays
    overtaking_requests hp).1

end CopyTrade
