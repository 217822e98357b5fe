import CopyTrade.Proof.Bookkeeping
import CopyTrade.Sql.Own

/-!
# What the API has answered stands

A request that returns has committed what it was asked for, and no later commit takes it back.

* `LogShows`, `GuardedOperation.Stands`: what the tables and the log say of a transaction that was
  committed.
* `commits_stand`, `turns_retains`: its commit makes it so, and every commit keeps it.
* `logout_revokes`: what a logout has committed.
* `acknowledged_stands`: so what a request has answered is its own commit, and stands in every state from
  the response on.
-/

namespace CopyTrade

open Async (Input Pool Prog)
open Identity
open Sql (Commit Did OwnCommit Runs Table lastCommit)

/-- The transaction has made it, and it is in the tables. -/
def Book.Shows (b : Book) (did : List (Did identity)) (id : UUID) (s : Tables) : Prop :=
  id ∈ b.madeBy did ∧ id ∈ b.listed s

/-- The transaction has entered a row of the action and the entity, which is in the log, and is `what` it
should be. -/
def LogShows (now : Timestamp) (did : List (Did identity)) (action : String) (id : UUID)
    (what : AuditLogRow AuditState → Prop) (s : Tables) : Prop :=
  ∃ row ∈ did.filterMap (entryRow? now), row ∈ s.auditLogs.rows ∧ row.action = action ∧
    row.entityId = some id ∧ what row

/-- A credential is shown, active or inactive. -/
def ShowsCredential (active : Bool) (row : AuditLogRow AuditState) : Prop :=
  ∃ record : AdminCredentialRecord, row.afterState = some (.credential record) ∧ record.active = active

/-- An active credential of the payload's user is shown. -/
def ShowsCreated (payload : AdminCredentials.AdminCredentialCreate) (row : AuditLogRow AuditState) : Prop :=
  ∃ record : AdminCredentialRecord, row.afterState = some (.credential record) ∧ record.active = true ∧
    record.email = payload.email ∧ ∀ name ∈ payload.displayName, record.displayName = some name

/-- What the tables and the log say of an operation whose transaction `did` began at `now`. -/
def GuardedOperation.Stands (now : Timestamp) (did : List (Did identity)) :
    GuardedOperation → Tables → Prop
  | .admin (.createExchangeAccount payload), s => ∃ id, Book.exchangeAccounts.Shows did id s ∧
      LogShows now did "exchange_account.created" id (fun row => row.beforeState = none ∧
        row.afterState = some (.exchangeAccount (exchangeAccountToResponse
          (newExchangeAccount id now payload)))) s
  | .admin (.updateExchangeAccount id payload), s => id ∈ Book.exchangeAccounts.listed s ∧
      LogShows now did "exchange_account.updated" id (fun row => ∃ before,
        row.beforeState = some (.exchangeAccount (exchangeAccountToResponse before)) ∧
        row.afterState = some (.exchangeAccount (exchangeAccountToResponse
          (assignAccount now payload before)))) s
  | .admin (.createAdminCredential payload), s => ∃ id, Book.credentials.Shows did id s ∧
      LogShows now did "admin_credential.created" id (ShowsCreated payload) s
  | .admin (.deactivateAdminCredential id), s => id ∈ Book.retirements.listed s ∧
      ((∃ credential user, credential.active = false ∧ did =
          [⟨.selectAdminCredentialByIdForUpdate id adminApiCredentialType, some (credential, user)⟩]) ∨
        id ∈ Book.retirements.madeBy did ∧
          LogShows now did "admin_credential.deactivated" id (ShowsCredential false) s)
  | .admin (.rotateAdminCredential id), s => Book.retirements.Shows did id s ∧
      LogShows now did "admin_credential.rotated" id (ShowsCredential false) s ∧
      ∃ newId, Book.credentials.Shows did newId s ∧
        LogShows now did "admin_credential.rotation_created" newId (ShowsCredential true) s
  | .createCopyRelationship payload, s => ∃ id, Book.copyRelationships.Shows did id s ∧
      LogShows now did "copy_relationship.created" id (fun row => row.beforeState = none ∧ ∃ record,
        relationshipRow? id now payload = some record ∧
        row.afterState = some (.copyRelationship record)) s
  | .updateCopyRelationship id payload, s => id ∈ Book.copyRelationships.listed s ∧
      LogShows now did "copy_relationship.updated" id (fun row => ∃ before,
        row.beforeState = some (.copyRelationship before) ∧
        row.afterState = some (.copyRelationship (assign now payload before))) s
  | .admin (.listExchangeAccounts _ _ _ _), _ => True
  | .admin (.listAdminCredentials _ _ _), _ => True

/-- What they say of a login. -/
def LoginStands (payload : LoginRequest) (now : Timestamp) (did : List (Did identity)) (s : Tables) :
    Prop :=
  ∃ id, Book.sessions.Shows did id s ∧ LogShows now did "auth.login.succeeded" id
    (fun row => row.metadata = [("email", payload.email)]) s

/-! ## Later commits -/

variable {crypto : Crypto} {now : Timestamp} {did : List (Did identity)} {s t : Tables} {action : String}
  {id : UUID} {what : AuditLogRow AuditState → Prop}

/-- Nothing is taken from the books, and nothing from the log. -/
structure Retains (s t : Tables) : Prop where
  listed : ∀ b : Book, b.listed s ⊆ b.listed t
  rows : s.auditLogs.rows ⊆ t.auditLogs.rows

theorem Retains.refl (s : Tables) : Retains s s := ⟨fun _ _ h => h, fun _ h => h⟩

theorem Retains.trans {u : Tables} (h : Retains s t) (h' : Retains t u) : Retains s u :=
  ⟨fun b _ hx => h'.listed b (h.listed b hx), fun _ hr => h'.rows (h.rows hr)⟩

theorem Retains.shows (h : Retains s t) {b : Book} (hs : b.Shows did id s) : b.Shows did id t :=
  ⟨hs.1, h.listed b hs.2⟩

theorem Retains.logShows (h : Retains s t) (hs : LogShows now did action id what s) :
    LogShows now did action id what t := by
  obtain ⟨row, hrow, hlog, hrest⟩ := hs
  exact ⟨row, hrow, h.rows hlog, hrest⟩

/-- **What stands** is not taken back. -/
theorem Retains.stands (h : Retains s t) {operation : GuardedOperation} (hs : operation.Stands now did s) :
    operation.Stands now did t := by
  cases operation with
  | admin operation =>
    cases operation with
    | createExchangeAccount payload =>
      obtain ⟨id, hid, hlog⟩ := hs
      exact ⟨id, h.shows hid, h.logShows hlog⟩
    | listExchangeAccounts userId status limit offset => trivial
    | updateExchangeAccount id payload => exact ⟨h.listed _ hs.1, h.logShows hs.2⟩
    | createAdminCredential payload =>
      obtain ⟨id, hid, hlog⟩ := hs
      exact ⟨id, h.shows hid, h.logShows hlog⟩
    | listAdminCredentials active limit offset => trivial
    | deactivateAdminCredential id =>
      obtain ⟨hid, hfound | ⟨hmade, hlog⟩⟩ := hs
      · exact ⟨h.listed .retirements hid, Or.inl hfound⟩
      · exact ⟨h.listed .retirements hid, Or.inr ⟨hmade, h.logShows hlog⟩⟩
    | rotateAdminCredential id =>
      obtain ⟨hid, hrotated, newId, hnew, hcreated⟩ := hs
      exact ⟨h.shows hid, h.logShows hrotated, newId, h.shows hnew, h.logShows hcreated⟩
  | createCopyRelationship payload =>
    obtain ⟨id, hid, hlog⟩ := hs
    exact ⟨id, h.shows hid, h.logShows hlog⟩
  | updateCopyRelationship id payload => exact ⟨h.listed _ hs.1, h.logShows hs.2⟩

theorem Retains.loginStands (h : Retains s t) {payload : LoginRequest}
    (hs : LoginStands payload now did s) : LoginStands payload now did t := by
  obtain ⟨id, hid, hlog⟩ := hs
  exact ⟨id, h.shows hid, h.logShows hlog⟩

/-- A retirement is an inactive credential. -/
theorem mem_retirements : id ∈ Book.retirements.listed s ↔ ∃ d, Retired id d s := by
  simp only [Book.listed, List.mem_map, List.mem_filter]
  constructor
  · rintro ⟨r, ⟨hr, hactive⟩, hid⟩
    exact ⟨r.tokenHash, r, hr, hid, rfl, by simpa using hactive⟩
  · rintro ⟨d, r, hr, hid, -, hactive⟩
    exact ⟨r, ⟨hr, by simp [hactive]⟩, hid⟩

theorem exec_retains {c : Stmt} {a : Ret c} (h : exec c now s = some (a, t)) : Retains s t := by
  have hrows : s.auditLogs.rows ⊆ t.auditLogs.rows := by
    rw [exec_entries h]
    exact List.subset_append_left _ _
  by_cases hc : Retires ⟨c, a⟩
  · cases c with
    | deactivateAdminCredential cid =>
      obtain ⟨-, u, hu, rfl⟩ := exec_effect h
      have hids := map_update (g := ApiCredentialRow.id) hu fun _ => rfl
      refine ⟨fun b => ?_, hrows⟩
      cases b with
      | retirements =>
        intro x hx
        obtain ⟨d, hd⟩ := mem_retirements.1 hx
        exact mem_retirements.2 ⟨d, exec_retired h hd⟩
      | credentials =>
        show _ ⊆ u.rows.map ApiCredentialRow.id
        rw [hids]
        exact List.Subset.refl _
      | _ => exact List.Subset.refl _
    | _ => exact hc.elim
  · refine ⟨fun b => ?_, hrows⟩
    rw [exec_listed h hc]
    exact List.subset_append_left _ _

theorem query_retains {q : Query} {a : Answer q} (h : query q now s = some (a, t)) : Retains s t := by
  have heff := query_effect h
  cases q with
  | updateCredentialLastUsed cid =>
    obtain ⟨u, hu, rfl⟩ := heff
    have hids := map_update (g := ApiCredentialRow.id) hu fun _ => rfl
    refine ⟨fun b => ?_, List.Subset.refl _⟩
    cases b with
    | retirements =>
      intro x hx
      obtain ⟨d, hd⟩ := mem_retirements.1 hx
      exact mem_retirements.2 ⟨d, query_retired h hd⟩
    | credentials =>
      show _ ⊆ u.rows.map ApiCredentialRow.id
      rw [hids]
      exact List.Subset.refl _
    | _ => exact List.Subset.refl _
  | updateSessionLastSeen sid =>
    obtain ⟨u, hu, rfl⟩ := heff
    have hids := map_update (g := UserSessionRow.id) hu fun _ => rfl
    refine ⟨fun b => ?_, List.Subset.refl _⟩
    cases b with
    | sessions =>
      show _ ⊆ u.rows.map UserSessionRow.id
      rw [hids]
      exact List.Subset.refl _
    | _ => exact List.Subset.refl _
  | revokeSession d =>
    rcases heff with ⟨-, rfl⟩ | ⟨r, u, -, hu, rfl⟩
    · exact Retains.refl _
    have hids := map_update (g := UserSessionRow.id) hu fun _ => rfl
    refine ⟨fun b => ?_, List.Subset.refl _⟩
    cases b with
    | sessions =>
      show _ ⊆ u.rows.map UserSessionRow.id
      rw [hids]
      exact List.Subset.refl _
    | _ => exact List.Subset.refl _
  | insertAuditLog aid entry =>
    obtain ⟨u, hu, rfl⟩ := heff
    refine ⟨fun b => by cases b <;> exact List.Subset.refl _, ?_⟩
    show _ ⊆ u.rows
    rw [(Table.insert_eq_some.1 hu).2]
    exact List.subset_append_left _ _
  | selectPasswordLogin email => cases heff; exact Retains.refl _
  | _ => obtain ⟨-, rfl⟩ := heff; exact Retains.refl _

/-- **No commit** takes anything from the books or from the log. -/
theorem turns_retains {c : Commit identity} (h : c.Turns s t) : Retains s t := by
  cases c with
  | query at_ q a => exact query_retains h
  | transaction tx began did =>
    obtain ⟨held, h⟩ := h
    induction did generalizing s with
    | nil => cases h; exact Retains.refl _
    | cons x did ih =>
      by_cases hx : identity.pinned x.stmt x.answer = true
      · obtain ⟨-, u, hu, hr⟩ := (Runs.of_pinned hx).1 h
        exact (exec_retains hu).trans (ih hr)
      · exact ih ((Runs.of_plain hx).1 h)

/-! ## What a commit makes stand -/

section

variable {held : List Key}

/-- What a statement of a committed transaction did, where a lock kept its answer true. -/
theorem runs_answer {x : Did identity} (hx : x ∈ did) (hp : pinned x.stmt x.answer = true) :
    ∀ {s : Tables}, Runs (S := identity) now held did s t →
      ∃ u v, exec x.stmt now u = some (x.answer, v) := by
  induction did with
  | nil => cases hx
  | cons y did ih =>
    intro s h
    rcases List.mem_cons.1 hx with rfl | hx
    · obtain ⟨-, u, hu, -⟩ := (Runs.of_pinned (S := identity) hp).1 h
      exact ⟨s, u, hu⟩
    · by_cases hy : pinned y.stmt y.answer = true
      · obtain ⟨-, u, -, hr⟩ := (Runs.of_pinned (S := identity) hy).1 h
        exact ih hx hr
      · exact ih hx ((Runs.of_plain (S := identity) hy).1 h)

/-- An entry of a committed transaction is shown. -/
theorem runs_shows {aid : UUID} {entry : AuditEntry AuditState}
    (h : Runs (S := identity) now held did s t) (hmem : ⟨.insertAuditLog aid entry, ()⟩ ∈ did)
    (haction : entry.action = action) (hid : entry.entityId = some id) (hwhat : what (entry.row aid now)) :
    LogShows now did action id what t := by
  have hrow : entry.row aid now ∈ did.filterMap (entryRow? now) := List.mem_filterMap.2 ⟨_, hmem, rfl⟩
  refine ⟨entry.row aid now, hrow, ?_, haction, hid, hwhat⟩
  rw [runs_rows h]
  exact List.mem_append_right _ hrow

/-- What is made by a committed transaction is listed. -/
theorem runs_makes {x : Did identity} {b : Book} (h : Runs (S := identity) now held did s t)
    (hdid : BookedCommit did) (hx : x ∈ did) (hid : id ∈ b.made x.stmt x.answer) : b.Shows did id t := by
  have hmade : id ∈ b.madeBy did := List.mem_flatMap.2 ⟨x, hx, hid⟩
  exact ⟨hmade, (booked_listed hdid h b).symm.subset (List.mem_append_right _ hmade)⟩

/-- A credential that is made is active. -/
theorem runs_created {cid userId : UUID} {tokenHash : Digest} {tokenPrefix : Python.Text}
    {row : ApiCredentialRow} (h : Runs (S := identity) now held did s t)
    (hmem : ⟨.insertAdminCredential cid userId tokenHash tokenPrefix, row⟩ ∈ did) : row.active = true := by
  obtain ⟨u, v, hrow⟩ := runs_answer hmem rfl h
  have hrow : Effect now u v (.insertAdminCredential cid userId tokenHash tokenPrefix) row :=
    exec_effect hrow
  rw [hrow.1]
  rfl

/-- The row that a deactivation answers is that of its id, and inactive. -/
theorem runs_deactivated {cid : UUID} {after : ApiCredentialRow}
    (h : Runs (S := identity) now held did s t) (hmem : ⟨.deactivateAdminCredential cid, some after⟩ ∈ did) :
    after.id = cid ∧ after.active = false := by
  obtain ⟨u, v, hafter⟩ := runs_answer hmem rfl h
  obtain ⟨hafter, -⟩ := exec_effect hafter
  obtain ⟨r, hr, rfl⟩ := Option.map_eq_some_iff.1 hafter.symm
  exact ⟨(Table.get_eq_some.1 hr).2, rfl⟩

/-- The user that `UPSERT_ACTIVE_USER_SQL` answers has the email it was given, and the name where there
is one. -/
theorem exec_upsertActiveUser {userId : UUID} {email : String} {displayName : Option String}
    {user : Identity.UserRow}
    (h : exec (.upsertActiveUser userId email displayName) now s = some (some user, t)) :
    user.email = some email ∧ ∀ name ∈ displayName, user.displayName = some name := by
  obtain ⟨email', hemail, h⟩ := Option.bind_eq_some_iff.1 h
  obtain ⟨displayName', hname, h⟩ := Option.bind_eq_some_iff.1 h
  cases Sql.text_eq_some hemail
  cases Sql.nullable_text_eq_some hname
  split at h
  · obtain ⟨u, -, he⟩ := Option.map_eq_some_iff.1 h
    cases he
    exact ⟨rfl, fun _ hn => hn⟩
  · rename_i ownerId howner
    obtain ⟨r, hr, h⟩ := Option.bind_eq_some_iff.1 h
    obtain ⟨r', hr', hentry, hid⟩ := Table.owner_eq_some.1 howner
    -- the owner of the email
    have hsame : r' = r := by
      obtain ⟨hmem, hrid⟩ := Table.get_eq_some.1 hr
      exact Table.eq_of_id hr' hmem (hid.trans hrid.symm)
    split at h
    · obtain ⟨u, -, he⟩ := Option.map_eq_some_iff.1 h
      cases he
      refine ⟨?_, fun name hn => ?_⟩
      · rw [hsame] at hentry
        exact Option.mem_toList.1 hentry
      · rw [Option.mem_def.1 hn]
        rfl
    · cases h

/-- The row of a copy relationship has the id it was given. -/
theorem relationshipRow_id {payload : CopyRelationshipCreate} {record : CopyRelationshipRow}
    (h : relationshipRow? id now payload = some record) : record.id = id := by
  unfold relationshipRow? at h
  obtain ⟨sourceAccountId, -, h⟩ := Option.bind_eq_some_iff.1 h
  obtain ⟨sourceSymbol, -, h⟩ := Option.bind_eq_some_iff.1 h
  obtain ⟨followerAccountId, -, h⟩ := Option.bind_eq_some_iff.1 h
  obtain ⟨targetSymbol, -, h⟩ := Option.bind_eq_some_iff.1 h
  cases h
  rfl

/-- All that an update of an exchange account does where it is committed. -/
theorem runs_updateExchangeAccount {aid : UUID} {payload : ExchangeAccountUpdate}
    {before after : ExchangeAccountRecord} {principal : AuthenticatedPrincipal}
    (h : Runs (S := identity) now held [⟨.selectExchangeAccountByIdForUpdate id, some before⟩,
      ⟨.updateExchangeAccount id payload, some after⟩,
      ⟨.insertAuditLog aid (FoundationControls.exchangeAccountEntry principal "exchange_account.updated"
        (some before) after), ()⟩] s t) :
    s.exchangeAccounts.get id = some before ∧ after = assignAccount now payload before ∧
      t.exchangeAccounts.get id = some after := by
  obtain ⟨s₁, ⟨hbefore, rfl⟩, h₁⟩ := runs_effect rfl h
  obtain ⟨s₂, ⟨hafter, u, hu, rfl⟩, h₂⟩ := runs_effect rfl h₁
  obtain ⟨s₃, ⟨logs, hlogs, rfl⟩, h₃⟩ := runs_effect rfl h₂
  cases h₃
  rw [← hbefore] at hafter
  have heq : after = assignAccount now payload before := Option.some.inj hafter
  refine ⟨hbefore.symm, heq, ?_⟩
  show u.get id = some after
  rw [Table.get_update hu (keepsId_assignAccount now payload), ← hbefore, heq]
  rfl

theorem createExchangeAccount_stands {payload : ExchangeAccountCreate}
    (hdid : GuardedOperation.Commits crypto (.admin (.createExchangeAccount payload)) did)
    (h : Runs (S := identity) now held did s t) :
    GuardedOperation.Stands now did (.admin (.createExchangeAccount payload)) t := by
  have hbooked := booked_commits hdid
  obtain ⟨id, record, found, aid, principal, rfl⟩ := hdid
  obtain ⟨s₁, ⟨-, rfl, u, hu, rfl⟩, h₁⟩ := runs_effect rfl h
  refine ⟨id, runs_makes h hbooked List.mem_cons_self List.mem_cons_self, ?_⟩
  exact runs_shows h (List.mem_cons_of_mem _ (List.mem_cons_of_mem _ List.mem_cons_self)) rfl rfl
    ⟨rfl, rfl⟩

theorem updateExchangeAccount_stands {payload : ExchangeAccountUpdate}
    (hdid : GuardedOperation.Commits crypto (.admin (.updateExchangeAccount id payload)) did)
    (h : Runs (S := identity) now held did s t) :
    GuardedOperation.Stands now did (.admin (.updateExchangeAccount id payload)) t := by
  obtain ⟨before, after, aid, principal, rfl⟩ := hdid
  obtain ⟨-, hassigned, hget⟩ := runs_updateExchangeAccount h
  obtain ⟨hmem, hid⟩ := Table.get_eq_some.1 hget
  refine ⟨List.mem_map.2 ⟨after, hmem, hid⟩, ?_⟩
  refine runs_shows h (List.mem_cons_of_mem _ (List.mem_cons_of_mem _ List.mem_cons_self)) rfl
    (congrArg some hid) ⟨before, rfl, ?_⟩
  rw [hassigned]
  rfl

theorem createAdminCredential_stands {payload : AdminCredentials.AdminCredentialCreate}
    (hdid : GuardedOperation.Commits crypto (.admin (.createAdminCredential payload)) did)
    (h : Runs (S := identity) now held did s t) :
    GuardedOperation.Stands now did (.admin (.createAdminCredential payload)) t := by
  have hbooked := booked_commits hdid
  obtain ⟨ds, userId, cid, tokenHash, tokenPrefix, row, user, aid, principal, -, huser, -, hdid⟩ := hdid
  have hupsert : (⟨.upsertActiveUser userId payload.email payload.displayName, some user⟩ :
      Did identity) ∈ did := hdid ▸ List.mem_append_left _ huser
  have hinsert : (⟨.insertAdminCredential cid user.id tokenHash tokenPrefix, row⟩ : Did identity) ∈
      did := by simp [hdid]
  have hentry : (⟨.insertAuditLog aid (AdminCredentials.credentialEntry principal
      "admin_credential.created" row.id none (some (AdminCredentials.rowToRecord row user)) []), ()⟩ :
      Did identity) ∈ did := by simp [hdid]
  obtain ⟨u, v, hanswer⟩ := runs_answer hupsert rfl h
  obtain ⟨hemail, hname⟩ := exec_upsertActiveUser hanswer
  have hshows : ShowsCreated payload ((AdminCredentials.credentialEntry principal
      "admin_credential.created" row.id none (some (AdminCredentials.rowToRecord row user)) []).row aid
      now) :=
    ⟨_, rfl, runs_created h hinsert, congrArg strColumn hemail, hname⟩
  refine ⟨row.id, runs_makes h hbooked hinsert List.mem_cons_self, ?_⟩
  exact runs_shows h hentry rfl rfl hshows

theorem deactivateAdminCredential_stands
    (hdid : GuardedOperation.Commits crypto (.admin (.deactivateAdminCredential id)) did)
    (h : Runs (S := identity) now held did s t) :
    GuardedOperation.Stands now did (.admin (.deactivateAdminCredential id)) t := by
  have hbooked := booked_commits hdid
  obtain ⟨credential, user, ⟨hactive, hdid⟩ | ⟨after, aid, principal, hactive, hdid⟩⟩ := hdid
  · subst hdid
    obtain ⟨s₁, ⟨hfound, rfl⟩, h₁⟩ := runs_effect rfl h
    cases h₁
    obtain ⟨hmem, hid⟩ := Table.get_eq_some.1 (credentialById_get hfound)
    exact ⟨mem_retirements.2 ⟨credential.tokenHash, credential, hmem, hid, rfl, hactive⟩,
      Or.inl ⟨credential, user, hactive, rfl⟩⟩
  · have hmem : (⟨.deactivateAdminCredential id, some after⟩ : Did identity) ∈ did := by simp [hdid]
    have hentry : (⟨.insertAuditLog aid (AdminCredentials.credentialEntry principal
        "admin_credential.deactivated" after.id (some (AdminCredentials.rowToRecord credential user))
        (some (AdminCredentials.rowToRecord after user)) []), ()⟩ : Did identity) ∈ did := by simp [hdid]
    obtain ⟨hid, hinactive⟩ := runs_deactivated h hmem
    have hmade := runs_makes (b := .retirements) h hbooked hmem List.mem_cons_self
    rw [hid] at hmade
    exact ⟨hmade.2, Or.inr ⟨hmade.1, runs_shows h hentry rfl (congrArg some hid) ⟨_, rfl, hinactive⟩⟩⟩

theorem rotateAdminCredential_stands
    (hdid : GuardedOperation.Commits crypto (.admin (.rotateAdminCredential id)) did)
    (h : Runs (S := identity) now held did s t) :
    GuardedOperation.Stands now did (.admin (.rotateAdminCredential id)) t := by
  have hbooked := booked_commits hdid
  obtain ⟨credential, user, after, newId, tokenHash, tokenPrefix, row, a, b, principal, -, hdid⟩ := hdid
  have hdeactivate : (⟨.deactivateAdminCredential id, some after⟩ : Did identity) ∈ did := by
    simp [hdid]
  have hinsert : (⟨.insertAdminCredential newId credential.userId tokenHash tokenPrefix, row⟩ :
      Did identity) ∈ did := by simp [hdid]
  have hrotated : (⟨.insertAuditLog a (AdminCredentials.credentialEntry principal
      "admin_credential.rotated" after.id (some (AdminCredentials.rowToRecord credential user))
      (some (AdminCredentials.rowToRecord after user)) [("new_credential_id", row.id.str)]), ()⟩ :
      Did identity) ∈ did := by simp [hdid]
  have hcreated : (⟨.insertAuditLog b (AdminCredentials.credentialEntry principal
      "admin_credential.rotation_created" row.id none (some (AdminCredentials.rowToRecord row user))
      [("deactivated_credential_id", after.id.str)]), ()⟩ : Did identity) ∈ did := by simp [hdid]
  obtain ⟨hid, hinactive⟩ := runs_deactivated h hdeactivate
  have hmade := runs_makes (b := .retirements) h hbooked hdeactivate List.mem_cons_self
  rw [hid] at hmade
  refine ⟨hmade, runs_shows h hrotated rfl (congrArg some hid) ⟨_, rfl, hinactive⟩, row.id, ?_, ?_⟩
  · exact runs_makes h hbooked hinsert List.mem_cons_self
  · exact runs_shows h hcreated rfl rfl ⟨_, rfl, runs_created h hinsert⟩

theorem createCopyRelationship_stands {payload : CopyRelationshipCreate}
    (hdid : GuardedOperation.Commits crypto (.createCopyRelationship payload) did)
    (h : Runs (S := identity) now held did s t) :
    GuardedOperation.Stands now did (.createCopyRelationship payload) t := by
  have hbooked := booked_commits hdid
  obtain ⟨id, record, aid, principal, hdid⟩ := hdid
  have hinsert : (⟨.insertCopyRelationship id payload, record⟩ : Did identity) ∈ did := by simp [hdid]
  have hentry : (⟨.insertAuditLog aid (CopyRelationships.copyRelationshipEntry principal
      "copy_relationship.created" none record), ()⟩ : Did identity) ∈ did := by simp [hdid]
  obtain ⟨u, v, hanswer⟩ := runs_answer hinsert rfl h
  have heff : Effect now u v (.insertCopyRelationship id payload) record := exec_effect hanswer
  have hid := relationshipRow_id heff.1
  have hmade := runs_makes (b := .copyRelationships) h hbooked hinsert List.mem_cons_self
  rw [hid] at hmade
  exact ⟨id, hmade, runs_shows h hentry rfl (congrArg some hid) ⟨rfl, record, heff.1, rfl⟩⟩

theorem updateCopyRelationship_stands {payload : CopyRelationshipUpdate}
    (hdid : GuardedOperation.Commits crypto (.updateCopyRelationship id payload) did)
    (h : Runs (S := identity) now held did s t) :
    GuardedOperation.Stands now did (.updateCopyRelationship id payload) t := by
  obtain ⟨before, after, aid, principal, hdid⟩ := hdid
  have hentry : (⟨.insertAuditLog aid (CopyRelationships.copyRelationshipEntry principal
      "copy_relationship.updated" (some before) after), ()⟩ : Did identity) ∈ did := by simp [hdid]
  have h' := h
  rw [hdid] at h'
  obtain ⟨hbefore, hafter, hget, hlogged⟩ := runs_updateCopyRelationship h'
  obtain ⟨hmem, hid⟩ := Table.get_eq_some.1 hget
  exact ⟨List.mem_map.2 ⟨after, hmem, hid⟩,
    runs_shows h hentry rfl (congrArg some hid) ⟨before, rfl, congrArg _ (congrArg _ hafter)⟩⟩

/-- **What an operation commits** stands. -/
theorem commits_stand {tx : ℕ} {operation : GuardedOperation} (hdid : operation.Commits crypto did)
    (h : (Commit.transaction tx now did : Commit identity).Turns s t) : operation.Stands now did t := by
  obtain ⟨held, h⟩ := h
  cases operation with
  | admin operation =>
    cases operation with
    | createExchangeAccount payload => exact createExchangeAccount_stands hdid h
    | listExchangeAccounts userId status limit offset => trivial
    | updateExchangeAccount id payload => exact updateExchangeAccount_stands hdid h
    | createAdminCredential payload => exact createAdminCredential_stands hdid h
    | listAdminCredentials active limit offset => trivial
    | deactivateAdminCredential id => exact deactivateAdminCredential_stands hdid h
    | rotateAdminCredential id => exact rotateAdminCredential_stands hdid h
  | createCopyRelationship payload => exact createCopyRelationship_stands hdid h
  | updateCopyRelationship id payload => exact updateCopyRelationship_stands hdid h

/-- **What a login commits** stands. -/
theorem login_stands {tx : ℕ} {payload : LoginRequest} (hdid : LoginCommits payload did)
    (h : (Commit.transaction tx now did : Commit identity).Turns s t) : LoginStands payload now did t := by
  have hbooked := booked_login hdid
  obtain ⟨held, h⟩ := h
  obtain ⟨id, userId, sessionTokenHash, csrfTokenHash, expiresAt, credentialId, aid, roles, hdid⟩ := hdid
  have hinsert : (⟨.insertSession id userId sessionTokenHash csrfTokenHash expiresAt, ()⟩ :
      Did identity) ∈ did := by simp [hdid]
  refine ⟨id, runs_makes h hbooked hinsert List.mem_cons_self, ?_⟩
  rw [hdid] at h ⊢
  exact runs_shows h (List.mem_cons_of_mem _ (List.mem_cons_of_mem _ List.mem_cons_self)) rfl rfl rfl

end

/-! ## A logout -/

/-- The entry of a logout. -/
def logoutEntry (session : UUID × UUID) : AuditEntry AuditState where
  actorType := .user
  actorId := some session.2.str
  action := "auth.logout"
  entityType := "user_session"
  entityId := some session.1
  beforeState := none
  afterState := some .revoked

/-- The revocation was answered, and the entry inserted of the session that it revoked. -/
def HeardLogout (d : Digest) (heard : List (Sql.Heard identity)) : Prop :=
  ∃ found, ⟨.revokeSession d, found⟩ ∈ heard ∧
    ∀ session ∈ found, ∃ aid, ⟨.insertAuditLog aid (logoutEntry session), ()⟩ ∈ heard

theorem revokeSession_heard {heard : List (Sql.Heard identity)} (token : Python.Text) :
    (revokeSession crypto token).Obeys (Sql.hearing fun _ _ => True) heard
      (fun l _ => HeardLogout (crypto.hashApiToken token) l) fun _ _ => True := by
  refine Sql.hearing_withConnection (fun _ => trivial) (fun _ => trivial) ?_
  refine Prog.obeys_bind (Sql.hearing_query trivial (fun found => ?_) fun _ => trivial)
  cases found with
  | none => exact ⟨none, List.mem_cons_self, fun _ h => by cases h⟩
  | some session =>
    refine Prog.obeys_bind (obeys_uuid4 fun aid => Sql.hearing_query trivial (fun _ => ?_) fun _ => trivial)
    refine ⟨some session, List.mem_cons_of_mem _ List.mem_cons_self, ?_⟩
    rintro _ ⟨⟩
    exact ⟨aid, List.mem_cons_self⟩

/-- **A logout that returns** has heard so. -/
theorem logout_heard {settings : Settings} (sessionTtlMinutes : ℤ) (token : Python.Text)
    (csrfToken : Option Python.Text) :
    ((ApiRequest.logout (some token) csrfToken).program crypto settings sessionTtlMinutes).Obeys
      (Sql.hearing fun _ _ => True) [] (fun l _ => HeardLogout (crypto.hashApiToken token) l)
      fun _ _ => True := by
  refine Prog.obeys_bind (Prog.obeys_bind ?_)
  refine Prog.obeys_bind ((authenticateSession_shows (fun _ _ _ => trivial) token csrfToken true).mono
    (fun l session _ => ?_) fun _ _ _ => trivial)
  cases session with
  | none => trivial
  | some session => exact (revokeSession_heard token).mono (fun _ _ h => h) fun _ _ _ => trivial

/-! ## Any interleaving -/

/-- **What a request has answered** is its own commit, and stands. -/
def ApiRequest.Stands (crypto : Crypto) (w : Sql.Server identity Drawn) (xs : List (Input identityServer))
    (p : Pool identityServer) (i : ℕ) : ApiRequest → Prop
  | .login payload => ∃ tx began did p₁ p₂, OwnCommit w xs p i (.transaction tx began did) p₁ p₂ ∧
      LoginCommits payload did ∧ LoginStands payload began did p.state.db.current
  | .guarded _ operation => operation.actions ≠ [] → ∃ tx began did p₁ p₂,
      OwnCommit w xs p i (.transaction tx began did) p₁ p₂ ∧ operation.Commits crypto did ∧
      operation.Stands began did p.state.db.current
  | .logout sessionToken _ => ∀ token ∈ sessionToken, ∃ at_ found p₁ p₂,
      OwnCommit w xs p i (.query at_ (.revokeSession (crypto.hashApiToken token)) found) p₁ p₂ ∧
      Issued (crypto.hashApiToken token) p.state.db.current ∧
      Barred (crypto.hashApiToken token) p.state.db.current ∧
      ∀ session ∈ found, ∃ at_ aid p₃ p₄,
        OwnCommit w xs p i (.query at_ (.insertAuditLog aid (logoutEntry session)) ()) p₃ p₄ ∧
        (logoutEntry session).row aid at_ ∈ p.state.db.current.auditLogs
  | .session _ => True

section

variable {settings : Settings} {sessionTtlMinutes : ℤ} {s₀ : Tables} {supply : ℕ → Drawn}
  {xs : List (Input identityServer)} {p : Pool identityServer} {i : ℕ}

/-- **A request that returned** has committed what it was asked for. -/
theorem request_committed
    (h : (Pool.init (Sql.Server.start (S := identity) s₀ now supply)).run? xs = some p)
    {request : ApiRequest}
    (hi : (Async.begun xs)[i]? = some (request.program crypto settings sessionTtlMinutes))
    (hdone : p.running[i]? = some (.done ())) : request.Committed crypto (lastCommit p.trace i) := by
  have hplays : Async.Plays booking (none, none) (fun l _ => request.Committed crypto l.2)
      (fun _ _ => True) (Async.begun xs) p := Async.run_plays h
  obtain ⟨q, hq, hkeeps⟩ := hplays.keeps i _ hi (request.books sessionTtlMinutes)
  rw [hdone] at hq
  cases hq
  have hnote : (booking.at (none, none) p.trace i).2 = lastCommit p.trace i := by
    unfold lastCommit
    rw [Sql.noted_same]
  rw [← hnote]
  exact hkeeps

variable {token : Python.Text} {csrfToken : Option Python.Text}

/-- A logout revokes only after it has found a session. -/
theorem revoke_issued
    (h : (Pool.init (Sql.Server.start (S := identity) s₀ now supply)).run? xs = some p)
    (hi : (Async.begun xs)[i]? = some
      ((ApiRequest.logout (some token) csrfToken).program crypto settings sessionTtlMinutes))
    {p₁ p₂ : Pool identityServer} {at_ : Timestamp} {found : Option (UUID × UUID)}
    (hown : OwnCommit (Sql.Server.start (S := identity) s₀ now supply) xs p i
      (.query at_ (.revokeSession (crypto.hashApiToken token)) found) p₁ p₂) :
    Issued (crypto.hashApiToken token) p₁.state.db.current := by
  obtain ⟨newer, htr⟩ := hown.trace
  obtain ⟨q, hq, hcalling⟩ := Async.run_calling h htr
  have hprogram := Option.some.inj (hi.symm.trans hq)
  have hkeeps : q.Keeps (Sql.hearing ((ApiRequest.logout (some token) csrfToken).Permits crypto settings))
      [] := by
    rw [← hprogram]
    exact ApiRequest.keeps sessionTtlMinutes _
  obtain ⟨token', ⟨htoken, row, hrow, -⟩, -⟩ := hcalling _ [] hkeeps
  cases htoken
  -- the session was found in the run up to there
  obtain ⟨ys, f, zs, -, hys, -, -⟩ := hown.run
  obtain ⟨at_', p₃, p₄, hfound⟩ := Sql.own_heard hys hrow
  have hturns : query (.selectSession (crypto.hashApiToken token)) at_' p₃.state.db.current =
      some (some row, p₄.state.db.current) := hfound.turns
  have hissued : Issued (crypto.hashApiToken token) p₄.state.db.current := by
    obtain ⟨hrow', hsame⟩ := query_effect hturns
    obtain ⟨session, hmem, hhash, -⟩ := selectSession_found hrow'.symm
    rw [hsame]
    exact ⟨session, hmem, hhash⟩
  exact hfound.later hissued fun c s t hs hturns => (turns_sessions hturns).1 hs

/-- **A logout that returned** has revoked every session of its token, and entered what it revoked. -/
theorem logout_revokes
    (h : (Pool.init (Sql.Server.start (S := identity) s₀ now supply)).run? xs = some p)
    (hi : (Async.begun xs)[i]? = some
      ((ApiRequest.logout (some token) csrfToken).program crypto settings sessionTtlMinutes))
    (hdone : p.running[i]? = some (.done ())) :
    (ApiRequest.logout (some token) csrfToken).Stands crypto
      (Sql.Server.start (S := identity) s₀ now supply) xs p i := by
  have hplays : Async.Plays (Sql.hearing fun _ _ => True) []
      (fun l _ => HeardLogout (crypto.hashApiToken token) l) (fun _ _ => True) (Async.begun xs) p :=
    Async.run_plays h
  obtain ⟨q, hq, hkeeps⟩ := hplays.keeps i _ hi (logout_heard sessionTtlMinutes token csrfToken)
  rw [hdone] at hq
  cases hq
  obtain ⟨found, hrevoked, hentered⟩ := hkeeps
  rintro _ ⟨⟩
  obtain ⟨at_, p₁, p₂, hown⟩ := Sql.own_heard h hrevoked
  have hissued := revoke_issued h hi hown
  have hturns : query (.revokeSession (crypto.hashApiToken token)) at_ p₁.state.db.current =
      some (found, p₂.state.db.current) := hown.turns
  obtain ⟨hstill, -, hbars⟩ := query_sessions (d := crypto.hashApiToken token) hturns
  have hstands : Issued (crypto.hashApiToken token) p.state.db.current ∧
      Barred (crypto.hashApiToken token) p.state.db.current := by
    refine hown.later (J := fun s => Issued (crypto.hashApiToken token) s ∧
      Barred (crypto.hashApiToken token) s) ⟨hstill hissued, hbars rfl⟩ fun c s t hs hturns => ?_
    obtain ⟨hissued, hbarred⟩ := turns_sessions (d := crypto.hashApiToken token) hturns
    exact ⟨hissued hs.1, hbarred (Or.inl hs.1) hs.2⟩
  refine ⟨at_, found, p₁, p₂, hown, hstands.1, hstands.2, fun session hsession => ?_⟩
  obtain ⟨aid, hentry⟩ := hentered session hsession
  obtain ⟨at_', p₃, p₄, hlogged⟩ := Sql.own_heard h hentry
  refine ⟨at_', aid, p₃, p₄, hlogged, ?_⟩
  have hturns' : query (.insertAuditLog aid (logoutEntry session)) at_' p₃.state.db.current =
      some ((), p₄.state.db.current) := hlogged.turns
  have hin : (logoutEntry session).row aid at_' ∈ p₄.state.db.current.auditLogs := by
    obtain ⟨u, hu, hsame⟩ := query_effect hturns'
    rw [hsame]
    exact (Table.mem_insert hu).2 (Or.inr rfl)
  exact hlogged.later (J := fun s => (logoutEntry session).row aid at_' ∈ s.auditLogs) hin
    fun c s t hs hturns => (turns_retains hturns).rows hs

end

/-- **What the API has answered stands**, in any interleaving of its requests with any faults. Where a
request has returned, it has committed what it was asked for at a step of its own, and in every state from
then on the tables have what that commit made and the audit log has its entry. -/
theorem acknowledged_stands (crypto : Crypto) (settings : Settings) (sessionTtlMinutes : ℤ) (s₀ : Tables)
    (now : Timestamp) (supply : ℕ → Drawn) (xs : List (Input identityServer)) (p : Pool identityServer)
    (hx : ∀ q, Input.begin q ∈ xs → ∃ r : ApiRequest, q = r.program crypto settings sessionTtlMinutes)
    (h : (Pool.init (Sql.Server.start (S := identity) s₀ now supply)).run? xs = some p)
    (i : ℕ) (request : ApiRequest)
    (hi : (Async.begun xs)[i]? = some (request.program crypto settings sessionTtlMinutes))
    (hdone : p.running[i]? = some (.done ())) :
    request.Stands crypto (Sql.Server.start (S := identity) s₀ now supply) xs p i := by
  have hcommitted := request_committed h hi hdone
  cases request with
  | login payload =>
    obtain ⟨did, hnote, hdid⟩ := hcommitted
    obtain ⟨tx, began, p₁, p₂, hown⟩ := Sql.own_commit (requests_booked hx) h hnote
    refine ⟨tx, began, did, p₁, p₂, hown, hdid, ?_⟩
    exact hown.later (login_stands hdid hown.turns)
      fun c s t hs hturns => (turns_retains hturns).loginStands hs
  | session sessionToken => trivial
  | logout sessionToken csrfToken =>
    rintro token ⟨⟩
    exact logout_revokes h hi hdone token rfl
  | guarded request operation =>
    intro hwrites
    obtain ⟨did, hnote, hdid⟩ := hcommitted hwrites
    obtain ⟨tx, began, p₁, p₂, hown⟩ := Sql.own_commit (requests_booked hx) h hnote
    refine ⟨tx, began, did, p₁, p₂, hown, hdid, ?_⟩
    exact hown.later (commits_stand hdid hown.turns) fun c s t hs hturns => (turns_retains hturns).stands hs

/-- The copy relationship that the admin was answered with. -/
theorem acknowledged_stands_sample : ∃ p : Pool identityServer,
    (Pool.init (Sql.Server.start (S := identity) bookedAdmin 0 adminSupply)).run? adminRun = some p ∧
    (ApiRequest.guarded tokenRequest (.createCopyRelationship wildcardPayload)).Stands sampleCrypto
      (Sql.Server.start (S := identity) bookedAdmin 0 adminSupply) adminRun p 1 := by
  obtain ⟨p, hp, -, hdone, -⟩ := bookedRun_ends
  exact ⟨p, hp, acknowledged_stands sampleCrypto closedSettings 60 bookedAdmin 0 adminSupply adminRun p
    adminRun_requests hp 1 _ rfl hdone⟩

end CopyTrade
