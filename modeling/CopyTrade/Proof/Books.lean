import CopyTrade.Proof.Accountability
import CopyTrade.Proof.Rotation
import CopyTrade.Proof.Trail

/-!
# The books

The audit log keeps a second account of what stands in the tables: of the sessions, of the admin
credentials and of those that are inactive, of the exchange accounts and of the copy relationships.

* `Book.listed`, `Book.entered`: what stands in the tables, and what is entered in the log.
* `exec_listed`, `exec_entered`: what a statement adds to the one and to the other.
* `BookedCommit`: a transaction enters what it makes, and deactivates only what it found active.
* `booked_turns`: such a transaction leaves the books balanced where they were.
-/

namespace CopyTrade

open Identity
open Sql (Commit Did Runs Serial Table)

/-- What the log keeps account of. -/
inductive Book where
  | sessions
  | credentials
  | retirements
  | exchangeAccounts
  | copyRelationships
  deriving DecidableEq

/-- The actions of its entries. -/
def Book.actions : Book → List String
  | .sessions => ["auth.login.succeeded"]
  | .credentials => ["admin_credential.created", "admin_credential.rotation_created"]
  | .retirements => ["admin_credential.deactivated", "admin_credential.rotated"]
  | .exchangeAccounts => ["exchange_account.created"]
  | .copyRelationships => ["copy_relationship.created"]

/-- What stands in the tables. -/
def Book.listed (s : Tables) : Book → List UUID
  | .sessions => s.userSessions.rows.map UserSessionRow.id
  | .credentials => s.apiCredentials.rows.map ApiCredentialRow.id
  | .retirements => (s.apiCredentials.rows.filter fun r => !r.active).map ApiCredentialRow.id
  | .exchangeAccounts => s.exchangeAccounts.rows.map ExchangeAccountRecord.id
  | .copyRelationships => s.copyRelationships.rows.map CopyRelationshipRow.id

/-- What is entered of it in a log. -/
def Book.enteredIn (b : Book) (log : List (AuditEntry AuditState)) : List (Option UUID) :=
  (log.filter fun entry => entry.action ∈ b.actions).map AuditEntry.entityId

def Book.entered (s : Tables) (b : Book) : List (Option UUID) :=
  b.enteredIn (s.auditLogs.rows.map AuditLogRow.toAuditEntry)

/-- **The books balance**: the entries are, but for their order, those of what stands in the
tables. -/
def Balanced (s : Tables) : Prop :=
  ∀ b : Book, (b.entered s).Perm ((b.listed s).map some)

/-! ## What a statement adds -/

/-- What a statement makes, by its answer. -/
def Book.made (b : Book) : (c : Stmt) → Ret c → List UUID
  | .insertSession id _ _ _ _, _ => if b = .sessions then [id] else []
  | .insertAdminCredential _ _ _ _, row => if b = .credentials then [row.id] else []
  | .deactivateAdminCredential _, some row => if b = .retirements then [row.id] else []
  | .insertExchangeAccount _ _, record => if b = .exchangeAccounts then [record.id] else []
  | .insertCopyRelationship _ _, record => if b = .copyRelationships then [record.id] else []
  | _, _ => []

/-- The row that a statement inserts into the log. -/
def entryRow? (now : Timestamp) : Did identity → Option (AuditLogRow AuditState)
  | ⟨.insertAuditLog id entry, _⟩ => some (entry.row id now)
  | _ => none

/-- The statement deactivates a credential. -/
def Retires : Did identity → Prop
  | ⟨.deactivateAdminCredential _, some _⟩ => True
  | _ => False

variable {now : Timestamp} {s t : Tables} {b : Book}

theorem enteredIn_append (log log' : List (AuditEntry AuditState)) :
    b.enteredIn (log ++ log') = b.enteredIn log ++ b.enteredIn log' := by
  simp [Book.enteredIn]

/-- **The log** grows by the row of the statement. -/
theorem exec_entries {c : Stmt} {a : Ret c} (h : exec c now s = some (a, t)) :
    t.auditLogs.rows = s.auditLogs.rows ++ (entryRow? now ⟨c, a⟩).toList := by
  by_cases hc : c.OnAudit
  · cases c with
    | insertAuditLog id entry =>
      obtain ⟨u, hu, rfl⟩ := exec_effect h
      exact (Table.insert_eq_some.1 hu).2
    | _ => exact hc.elim
  · have hnone : entryRow? now ⟨c, a⟩ = none := by
      cases c with
      | insertAuditLog id entry => exact absurd trivial hc
      | _ => rfl
    rw [(exec_tables h).auditLogs hc, hnone, Option.toList_none, List.append_nil]

/-- A row that is inserted is listed last. -/
theorem map_insert {Row β : Type} [Sql.Constrained Row] {u v : Table Row} {r : Row}
    (h : u.insert? r = some v) (g : Row → β) : v.rows.map g = u.rows.map g ++ [g r] := by
  rw [(Table.insert_eq_some.1 h).2, List.map_append, List.map_singleton]

/-- **What stands in the tables** grows by what the statement makes, where it deactivates nothing. -/
theorem exec_listed {c : Stmt} {a : Ret c} (h : exec c now s = some (a, t)) (hc : ¬ Retires ⟨c, a⟩)
    (b : Book) : b.listed t = b.listed s ++ b.made c a := by
  have heff := exec_effect h
  cases c with
  | insertSession id userId sessionTokenHash csrfTokenHash expiresAt =>
    obtain ⟨u, hu, rfl⟩ := heff
    have hrows := map_insert hu UserSessionRow.id
    cases b <;> simp [Book.listed, Book.made, hrows, newSession]
  | insertAdminCredential id userId tokenHash tokenPrefix =>
    obtain ⟨rfl, u, hu, rfl⟩ := heff
    have hrows := (Table.insert_eq_some.1 hu).2
    cases b <;> simp [Book.listed, Book.made, hrows, newCredential]
  | deactivateAdminCredential id =>
    cases a with
    | some row => exact absurd trivial hc
    | none =>
      have hsame : t = s := exec_plain h rfl
      rw [hsame]
      exact (List.append_nil _).symm
  | insertExchangeAccount id payload =>
    obtain ⟨-, rfl, u, hu, rfl⟩ := heff
    have hrows := map_insert hu ExchangeAccountRecord.id
    cases b <;> simp [Book.listed, Book.made, hrows]
  | updateExchangeAccount id payload =>
    obtain ⟨-, u, hu, rfl⟩ := heff
    have hrows := map_update (g := ExchangeAccountRecord.id) hu fun _ => rfl
    cases b <;> simp [Book.listed, Book.made, hrows]
  | insertCopyRelationship id payload =>
    obtain ⟨-, u, hu, rfl⟩ := heff
    have hrows := map_insert hu CopyRelationshipRow.id
    cases b <;> simp [Book.listed, Book.made, hrows]
  | updateCopyRelationship id payload =>
    obtain ⟨-, u, hu, rfl⟩ := heff
    have hrows := map_update (g := CopyRelationshipRow.id) hu fun _ => rfl
    cases b <;> simp [Book.listed, Book.made, hrows]
  | upsertActiveUser id email displayName =>
    obtain ⟨u, rfl⟩ := heff
    cases b <;> exact (List.append_nil _).symm
  | insertUserRole userId roleId =>
    obtain ⟨u, rfl⟩ := heff
    cases b <;> exact (List.append_nil _).symm
  | upsertPasswordCredential id userId passwordHash =>
    obtain ⟨u, rfl⟩ := heff
    cases b <;> exact (List.append_nil _).symm
  | updatePasswordLastUsed id =>
    obtain ⟨u, rfl⟩ := heff
    cases b <;> exact (List.append_nil _).symm
  | insertAuditLog id entry =>
    obtain ⟨u, -, rfl⟩ := heff
    cases b <;> exact (List.append_nil _).symm
  | selectAdminRoleId name => cases heff; exact (List.append_nil _).symm
  | selectAdminCredentialByIdForUpdate id credentialType =>
    obtain ⟨-, rfl⟩ := heff
    exact (List.append_nil _).symm
  | userExists id => obtain ⟨-, rfl⟩ := heff; exact (List.append_nil _).symm
  | selectExchangeAccountByIdForUpdate id => obtain ⟨-, rfl⟩ := heff; exact (List.append_nil _).symm
  | selectCopyRelationshipByIdForUpdate id => obtain ⟨-, rfl⟩ := heff; exact (List.append_nil _).symm

/-- **A deactivation** of a credential that was active lists it among the retirements. -/
theorem deactivate_listed {id : UUID} {credential : ApiCredentialRow} {a : Option ApiCredentialRow}
    (h : exec (.deactivateAdminCredential id) now s = some (a, t))
    (hget : s.apiCredentials.get id = some credential) (hactive : credential.active = true) (b : Book) :
    (b.listed t).Perm (b.listed s ++ b.made (.deactivateAdminCredential id) a) := by
  obtain ⟨ha, u, hu, rfl⟩ := exec_effect h
  rw [hget] at ha
  subst ha
  have hids := map_update (g := ApiCredentialRow.id) hu fun _ => rfl
  cases b with
  | retirements =>
    refine List.perm_iff_count.2 fun x => ?_
    have hcount := Table.countP_update hu hget fun r => r.id == x && !r.active
    have hbefore : [credential].countP (fun r => r.id == x && !r.active) = 0 := by simp [hactive]
    have hafter : [deactivate credential].countP (fun r => r.id == x && !r.active) =
        [credential.id].count x := by
      simp [deactivate, List.count_singleton, List.countP_singleton]
    have hfilter : ∀ rows : List ApiCredentialRow, ((rows.filter fun r => !r.active).map
        ApiCredentialRow.id).count x = rows.countP fun r => r.id == x && !r.active := by
      intro rows
      rw [List.count_eq_countP, List.countP_map, List.countP_filter]
      rfl
    simp only [Book.listed, Book.made, Option.map_some, if_pos, List.count_append, hfilter]
    show u.rows.countP _ = _ + [credential.id].count x
    omega
  | credentials =>
    simp only [Book.listed, hids]
    exact List.Perm.of_eq (List.append_nil _).symm
  | _ => exact List.Perm.of_eq (List.append_nil _).symm

/-! ## What a row of statements adds -/

/-- What the statements make. -/
def Book.madeBy (b : Book) (did : List (Did identity)) : List UUID :=
  did.flatMap fun x => b.made x.stmt x.answer

/-- No lock keeps the answer true of a statement that makes nothing. -/
theorem made_plain {c : Stmt} {a : Ret c} (h : pinned c a = false) (b : Book) : b.made c a = [] := by
  cases c with
  | deactivateAdminCredential id =>
    cases a with
    | none => rfl
    | some row => cases h
  | insertSession id userId sessionTokenHash csrfTokenHash expiresAt => cases h
  | insertAdminCredential id userId tokenHash tokenPrefix => cases h
  | insertExchangeAccount id payload => cases h
  | insertCopyRelationship id payload => cases h
  | _ => rfl

/-- **The log** grows by the rows of the statements, in their order. -/
theorem runs_rows {held : List Key} {did : List (Did identity)} : ∀ {s : Tables},
    Runs (S := identity) now held did s t →
      t.auditLogs.rows = s.auditLogs.rows ++ did.filterMap (entryRow? now) := by
  induction did with
  | nil => intro s h; cases h; exact (List.append_nil _).symm
  | cons x did ih =>
    intro s h
    by_cases hp : pinned x.stmt x.answer = true
    · obtain ⟨-, u, hu, hr⟩ := (Runs.of_pinned (S := identity) hp).1 h
      have hstep := exec_entries hu
      rw [ih hr, hstep, List.append_assoc]
      congr 1
      cases hx : entryRow? now x with
      | none => rw [List.filterMap_cons_none hx]; rfl
      | some row => rw [List.filterMap_cons_some hx]; rfl
    · have hnone : entryRow? now x = none := by
        obtain ⟨c, a⟩ := x
        cases c with
        | insertAuditLog id entry => exact absurd rfl hp
        | _ => rfl
      rw [List.filterMap_cons_none hnone]
      exact ih ((Runs.of_plain (S := identity) hp).1 h)

/-- The entries of these rows. -/
theorem entries_of_rows (did : List (Did identity)) :
    (did.filterMap (entryRow? now)).map AuditLogRow.toAuditEntry =
      did.filterMap loggedEntry? := by
  rw [List.map_filterMap]
  congr 1
  funext x
  obtain ⟨c, a⟩ := x
  cases c with
  | insertAuditLog id entry => rfl
  | _ => rfl

/-- **What stands in the tables** grows by what the statements make, where none deactivates. -/
theorem runs_listed {held : List Key} {did : List (Did identity)} (hdid : ∀ x ∈ did, ¬ Retires x)
    (b : Book) : ∀ {s : Tables}, Runs (S := identity) now held did s t →
      b.listed t = b.listed s ++ b.madeBy did := by
  induction did with
  | nil => intro s h; cases h; exact (List.append_nil _).symm
  | cons x did ih =>
    intro s h
    have hquiet : ∀ y ∈ did, ¬ Retires y := fun y hy => hdid y (List.mem_cons_of_mem x hy)
    by_cases hp : pinned x.stmt x.answer = true
    · obtain ⟨-, u, hu, hr⟩ := (Runs.of_pinned (S := identity) hp).1 h
      rw [ih hquiet hr, exec_listed hu (hdid x List.mem_cons_self), List.append_assoc]
      rfl
    · have hmade : b.madeBy (x :: did) = b.madeBy did := by
        simp only [Book.madeBy, List.flatMap_cons]
        rw [made_plain (by simpa using hp), List.nil_append]
      rw [hmade]
      exact ih hquiet ((Runs.of_plain (S := identity) hp).1 h)

/-! ## The transactions -/

/-- The statements enter what they make. -/
def Entered (did : List (Did identity)) : Prop :=
  ∀ b : Book, (b.enteredIn (did.filterMap loggedEntry?)).Perm ((b.madeBy did).map some)

/-- What a transaction of the API commits: it enters what it makes, and deactivates at most one
credential, which it found active under its lock. -/
inductive BookedCommit (did : List (Did identity)) : Prop where
  | plain (quiet : ∀ x ∈ did, ¬ Retires x) (entered : Entered did)
  | retiring (id : UUID) (credentialType : String) (credential : ApiCredentialRow)
      (user : Identity.UserRow) (after : Option ApiCredentialRow) (rest : List (Did identity))
      (active : credential.active = true) (quiet : ∀ x ∈ rest, ¬ Retires x) (entered : Entered did)
      (shape : did = ⟨.selectAdminCredentialByIdForUpdate id credentialType, some (credential, user)⟩ ::
        ⟨.deactivateAdminCredential id, after⟩ :: rest)

theorem credentialById_get {id : UUID} {credentialType : String} {credential : ApiCredentialRow}
    {user : Identity.UserRow} (h : some (credential, user) = credentialById id credentialType s) :
    s.apiCredentials.get id = some credential := by
  obtain ⟨c, hc, hrest⟩ := Option.bind_eq_some_iff.1 h.symm
  split at hrest
  · obtain ⟨u, -, he⟩ := Option.map_eq_some_iff.1 hrest
    cases he
    exact hc
  · cases hrest

/-- **What stands in the tables** after such a transaction. -/
theorem booked_listed {held : List Key} {did : List (Did identity)} (hdid : BookedCommit did)
    (h : Runs (S := identity) now held did s t) (b : Book) :
    (b.listed t).Perm (b.listed s ++ b.madeBy did) := by
  cases hdid with
  | plain quiet entered => exact List.Perm.of_eq (runs_listed quiet b h)
  | retiring id credentialType credential user after rest active quiet entered shape =>
    subst shape
    obtain ⟨s₁, ⟨hfound, rfl⟩, h₁⟩ := runs_effect rfl h
    have hget := credentialById_get hfound
    cases after with
    | none =>
      -- the row is locked, so the deactivation found it; the other case goes as any
      have h₂ := (Runs.of_plain (S := identity) (by simp [pinned])).1 h₁
      exact List.Perm.of_eq (runs_listed quiet b h₂)
    | some after =>
      obtain ⟨-, s₂, hexec, h₂⟩ := (Runs.of_pinned (S := identity)
        (d := ⟨.deactivateAdminCredential id, some after⟩) rfl).1 h₁
      have hexec : exec (.deactivateAdminCredential id) now s₁ = some (some after, s₂) := hexec
      have hdeactivated := deactivate_listed hexec hget active b
      rw [runs_listed quiet b h₂]
      refine (hdeactivated.append_right (b.madeBy rest)).trans (List.Perm.of_eq ?_)
      rw [List.append_assoc]
      rfl

/-- **Such a transaction** leaves the books balanced. -/
theorem booked_turns {tx : ℕ} {did : List (Did identity)} (hdid : BookedCommit did)
    (h : (Commit.transaction tx now did : Commit identity).Turns s t) (hs : Balanced s) :
    Balanced t := by
  obtain ⟨held, hruns⟩ := h
  have hentered : Entered did := by
    cases hdid with
    | plain quiet entered => exact entered
    | retiring id credentialType credential user after rest active quiet entered shape => exact entered
  intro b
  have hlog : b.entered t = b.entered s ++ b.enteredIn (did.filterMap loggedEntry?) := by
    unfold Book.entered
    rw [runs_rows hruns, List.map_append, entries_of_rows, enteredIn_append]
  have hlisted := (booked_listed hdid hruns b).map some
  rw [List.map_append] at hlisted
  rw [hlog]
  exact ((hs b).append (hentered b)).trans hlisted.symm

/-! ## The statements by themselves -/

/-- The entry is in none of the books. -/
def QueryBooked : Query → Prop
  | .insertAuditLog _ entry => ∀ b : Book, entry.action ∉ b.actions
  | _ => True

/-- **A statement by itself** leaves the books as they are. -/
theorem query_booked {q : Query} {a : Answer q} (hq : QueryBooked q)
    (h : query q now s = some (a, t)) (hs : Balanced s) : Balanced t := by
  have heff := query_effect h
  have hsame : (∀ b : Book, b.entered t = b.entered s) → (∀ b : Book, b.listed t = b.listed s) →
      Balanced t := by
    intro he hl b
    rw [he b, hl b]
    exact hs b
  cases q with
  | updateCredentialLastUsed id =>
    obtain ⟨u, hu, rfl⟩ := heff
    have hids := map_update (g := ApiCredentialRow.id) hu fun _ => rfl
    have hboth := map_update (g := fun r : ApiCredentialRow => (r.id, r.active)) hu fun _ => rfl
    refine hsame (fun b => rfl) fun b => ?_
    cases b with
    | credentials => exact hids
    | retirements =>
      have hretired : ∀ rows : List ApiCredentialRow, (rows.filter fun r => !r.active).map
          ApiCredentialRow.id = ((rows.map fun r => (r.id, r.active)).filter fun r => !r.2).map Prod.fst := by
        intro rows
        rw [List.filter_map, List.map_map]
        rfl
      simp only [Book.listed, hretired, hboth]
    | _ => rfl
  | updateSessionLastSeen id =>
    obtain ⟨u, hu, rfl⟩ := heff
    have hids := map_update (g := UserSessionRow.id) hu fun _ => rfl
    refine hsame (fun b => rfl) fun b => ?_
    cases b with
    | sessions => exact hids
    | _ => rfl
  | revokeSession d =>
    rcases heff with ⟨-, rfl⟩ | ⟨r, u, -, hu, rfl⟩
    · exact hs
    have hids := map_update (g := UserSessionRow.id) hu fun _ => rfl
    refine hsame (fun b => rfl) fun b => ?_
    cases b with
    | sessions => exact hids
    | _ => rfl
  | insertAuditLog id entry =>
    obtain ⟨u, hu, rfl⟩ := heff
    refine hsame (fun b => ?_) fun b => by cases b <;> rfl
    unfold Book.entered
    have hnone : b.enteredIn [entry] = [] := by simp [Book.enteredIn, hq b]
    rw [map_insert hu AuditLogRow.toAuditEntry, enteredIn_append]
    show _ ++ b.enteredIn [entry] = _
    rw [hnone, List.append_nil]
  | selectPasswordLogin email => cases heff; exact hs
  | _ => obtain ⟨-, rfl⟩ := heff; exact hs

/-- **A serial history** of such commits leaves the books balanced. -/
theorem serial_balanced {s₀ : Tables} {cs : List (Commit identity)} (h₀ : Balanced s₀)
    (hcs : ∀ c ∈ cs, Sql.Allowed BookedCommit QueryBooked c) (h : Serial s₀ cs t) : Balanced t := by
  refine h.inv h₀ (fun c s t hc hs hturns => ?_) hcs
  cases c with
  | query now q a => exact query_booked hc hturns hs
  | transaction tx began did => exact booked_turns hc hturns hs

/-! ## Each once -/

/-- The ids of a table are different. -/
theorem ids_nodup {Row Id Entry : Type} [DecidableEq Id] [DecidableEq Entry] [Sql.Constrained Row]
    [Sql.Keyed Row Id Entry] (u : Table Row) : (u.rows.map Sql.Keyed.id).Nodup :=
  List.pairwise_map.2 (u.apart.imp fun hab he => hab (Sql.Keyed.clash_iff.2 (Or.inl he)))

theorem listed_nodup (s : Tables) (b : Book) : (b.listed s).Nodup := by
  cases b with
  | sessions => exact ids_nodup s.userSessions
  | credentials => exact ids_nodup s.apiCredentials
  | retirements => exact (ids_nodup s.apiCredentials).sublist (List.filter_sublist.map _)
  | exchangeAccounts => exact ids_nodup s.exchangeAccounts
  | copyRelationships => exact ids_nodup s.copyRelationships

/-- **Balanced books enter each once.** -/
theorem Balanced.once (h : Balanced s) (b : Book) : (b.entered s).Nodup :=
  (h b).nodup_iff.2 ((listed_nodup s b).map (Option.some_injective UUID))

end CopyTrade
