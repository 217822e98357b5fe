import CopyTrade.Proof.Books
import CopyTrade.Proof.Linearity

/-!
# The books of any run

Any number of API requests on one server, interleaved at their awaited calls, with any faults.

* `GuardedOperation.Commits`, `LoginCommits`: what an operation, and a login, has committed when it
  returns.
* `ApiRequest.books`: every request keeps the books, and commits what it returns for.
* `books_balance`: the audit log balances with the tables.
-/

namespace CopyTrade

open Async (Input Pool Prog)
open Identity
open Python (Text)
open Sql (Did)

/-- The discipline of the requests. -/
abbrev booking : Async.Protocol IdentityApi (Sql.Note identity) :=
  Sql.noted (S := identity) BookedCommit QueryBooked

/-- The statements that register an admin. -/
def Registers : Did identity → Prop
  | ⟨.upsertActiveUser _ _ _, _⟩ => True
  | ⟨.selectAdminRoleId _, _⟩ => True
  | ⟨.insertUserRole _ _, _⟩ => True
  | ⟨.upsertPasswordCredential _ _ _, _⟩ => True
  | _ => False

/-- What an operation that writes has committed when it returns. A deactivation found the credential
inactive, or has deactivated it. -/
def GuardedOperation.Commits (crypto : Crypto) : GuardedOperation → List (Did identity) → Prop
  | .admin (.createExchangeAccount payload), did => ∃ id record found aid principal,
      did = [⟨.insertExchangeAccount id payload, record⟩, ⟨.userExists payload.userId, found⟩,
        ⟨.insertAuditLog aid (FoundationControls.exchangeAccountEntry principal
          "exchange_account.created" none record), ()⟩]
  | .admin (.updateExchangeAccount id payload), did => ∃ before after aid principal,
      did = [⟨.selectExchangeAccountByIdForUpdate id, some before⟩,
        ⟨.updateExchangeAccount id payload, some after⟩,
        ⟨.insertAuditLog aid (FoundationControls.exchangeAccountEntry principal
          "exchange_account.updated" (some before) after), ()⟩]
  | .admin (.createAdminCredential payload), did =>
    ∃ ds userId id tokenHash tokenPrefix row user aid principal, (∀ x ∈ ds, Registers x) ∧
      ⟨.upsertActiveUser userId payload.email payload.displayName, some user⟩ ∈ ds ∧
      (∀ password ∈ payload.password, ∃ pid salt,
        ⟨.upsertPasswordCredential pid user.id (crypto.hashPassword password salt), ()⟩ ∈ ds) ∧
      did = ds ++ [⟨.insertAdminCredential id user.id tokenHash tokenPrefix, row⟩,
        ⟨.insertAuditLog aid (AdminCredentials.credentialEntry principal "admin_credential.created" row.id
          none (some (AdminCredentials.rowToRecord row user)) []), ()⟩]
  | .admin (.deactivateAdminCredential id), did => ∃ credential user,
      (credential.active = false ∧
        did = [⟨.selectAdminCredentialByIdForUpdate id adminApiCredentialType, some (credential, user)⟩]) ∨
      ∃ after aid principal, credential.active = true ∧
        did = [⟨.selectAdminCredentialByIdForUpdate id adminApiCredentialType, some (credential, user)⟩,
          ⟨.deactivateAdminCredential id, some after⟩,
          ⟨.insertAuditLog aid (AdminCredentials.credentialEntry principal "admin_credential.deactivated"
            after.id (some (AdminCredentials.rowToRecord credential user))
            (some (AdminCredentials.rowToRecord after user)) []), ()⟩]
  | .admin (.rotateAdminCredential id), did =>
      ∃ credential user after newId tokenHash tokenPrefix row a b principal, credential.active = true ∧
        did = [⟨.selectAdminCredentialByIdForUpdate id adminApiCredentialType, some (credential, user)⟩,
          ⟨.deactivateAdminCredential id, some after⟩,
          ⟨.insertAdminCredential newId credential.userId tokenHash tokenPrefix, row⟩,
          ⟨.insertAuditLog a (AdminCredentials.credentialEntry principal "admin_credential.rotated" after.id
            (some (AdminCredentials.rowToRecord credential user))
            (some (AdminCredentials.rowToRecord after user)) [("new_credential_id", row.id.str)]), ()⟩,
          ⟨.insertAuditLog b (AdminCredentials.credentialEntry principal
            "admin_credential.rotation_created" row.id none (some (AdminCredentials.rowToRecord row user))
            [("deactivated_credential_id", after.id.str)]), ()⟩]
  | .createCopyRelationship payload, did => ∃ id record aid principal,
      did = [⟨.insertCopyRelationship id payload, record⟩,
        ⟨.insertAuditLog aid (CopyRelationships.copyRelationshipEntry principal
          "copy_relationship.created" none record), ()⟩]
  | .updateCopyRelationship id payload, did => ∃ before after aid principal,
      did = [⟨.selectCopyRelationshipByIdForUpdate id, some before⟩,
        ⟨.updateCopyRelationship id payload, some after⟩,
        ⟨.insertAuditLog aid (CopyRelationships.copyRelationshipEntry principal
          "copy_relationship.updated" (some before) after), ()⟩]
  | .admin (.listExchangeAccounts _ _ _ _), _ => False
  | .admin (.listAdminCredentials _ _ _), _ => False

/-- What a login has committed when it returns. -/
def LoginCommits (payload : LoginRequest) (did : List (Did identity)) : Prop :=
  ∃ id userId sessionTokenHash csrfTokenHash expiresAt credentialId aid roles,
    did = [⟨.insertSession id userId sessionTokenHash csrfTokenHash expiresAt, ()⟩,
      ⟨.updatePasswordLastUsed credentialId, ()⟩,
      ⟨.insertAuditLog aid {
        actorType := .user
        actorId := some userId.str
        action := "auth.login.succeeded"
        entityType := "user_session"
        entityId := some id
        beforeState := none
        afterState := some (.session userId roles)
        metadata := [("email", payload.email)] }, ()⟩]

/-! ## The transactions that they commit -/

/-- Statements that make nothing and log nothing. -/
theorem booked_idle {did : List (Did identity)} (h : ∀ x ∈ did, Idles x) : BookedCommit did := by
  have hquiet : ∀ x ∈ did, ¬ Retires x := by
    rintro ⟨c, a⟩ hx hr
    have hidle := h _ hx
    cases c with
    | deactivateAdminCredential id =>
      cases a with
      | none => exact hr.elim
      | some row => cases hidle
    | _ => exact hr.elim
  have hmade : ∀ b : Book, b.madeBy did = [] := by
    intro b
    refine List.flatMap_eq_nil_iff.2 fun x hx => ?_
    obtain ⟨c, a⟩ := x
    have hidle := h _ hx
    cases c with
    | selectAdminCredentialByIdForUpdate id credentialType => rfl
    | selectExchangeAccountByIdForUpdate id => rfl
    | selectCopyRelationshipByIdForUpdate id => rfl
    | _ => exact made_plain hidle b
  refine .plain hquiet fun b => ?_
  rw [hmade b, loggedEntry_idle h]
  exact List.Perm.refl _

theorem booked_login {payload : LoginRequest} {did : List (Did identity)} (h : LoginCommits payload did) :
    BookedCommit did := by
  obtain ⟨id, userId, sessionTokenHash, csrfTokenHash, expiresAt, credentialId, aid, roles, rfl⟩ := h
  refine .plain (by simp [Retires]) fun b => List.Perm.of_eq ?_
  cases b <;> rfl

/-- What registers an admin is in no book. -/
theorem made_registers {ds : List (Did identity)} (h : ∀ x ∈ ds, Registers x) :
    (∀ x ∈ ds, ¬ Retires x) ∧ ds.filterMap loggedEntry? = [] ∧ ∀ b : Book, b.madeBy ds = [] := by
  refine ⟨?_, List.filterMap_eq_nil_iff.2 ?_, fun b => List.flatMap_eq_nil_iff.2 ?_⟩
  · rintro ⟨c, a⟩ hx
    have hregisters := h _ hx
    cases c with
    | deactivateAdminCredential id => exact hregisters.elim
    | _ => exact id
  · rintro ⟨c, a⟩ hx
    have hregisters := h _ hx
    cases c with
    | insertAuditLog id entry => exact hregisters.elim
    | _ => rfl
  · rintro ⟨c, a⟩ hx
    have hregisters := h _ hx
    cases c with
    | upsertActiveUser id email displayName => rfl
    | selectAdminRoleId name => rfl
    | insertUserRole userId roleId => rfl
    | upsertPasswordCredential id userId passwordHash => rfl
    | _ => exact hregisters.elim

/-- **What an operation commits** keeps the books. -/
theorem booked_commits {crypto : Crypto} {operation : GuardedOperation} {did : List (Did identity)}
    (h : operation.Commits crypto did) : BookedCommit did := by
  cases operation with
  | admin operation =>
    cases operation with
    | createExchangeAccount payload =>
      obtain ⟨id, record, found, aid, principal, rfl⟩ := h
      refine .plain (by simp [Retires]) fun b => List.Perm.of_eq ?_
      cases b <;> rfl
    | listExchangeAccounts userId status limit offset => exact h.elim
    | updateExchangeAccount id payload =>
      obtain ⟨before, after, aid, principal, rfl⟩ := h
      refine .plain (by simp [Retires]) fun b => List.Perm.of_eq ?_
      cases b <;> rfl
    | createAdminCredential payload =>
      obtain ⟨ds, userId, id, tokenHash, tokenPrefix, row, user, aid, principal, hds, -, -, rfl⟩ := h
      obtain ⟨hquiet, hlogged, hmade⟩ := made_registers hds
      refine .plain (fun x hx => ?_) fun b => List.Perm.of_eq ?_
      · rcases List.mem_append.1 hx with hx | hx
        · exact hquiet x hx
        rcases List.mem_cons.1 hx with rfl | hx
        · exact fun h => h
        · rw [List.mem_singleton.1 hx]
          exact fun h => h
      · have hboth : b.madeBy (ds ++ [⟨.insertAdminCredential id user.id tokenHash tokenPrefix, row⟩,
            ⟨.insertAuditLog aid (AdminCredentials.credentialEntry principal "admin_credential.created"
              row.id none (some (AdminCredentials.rowToRecord row user)) []), ()⟩]) =
            b.madeBy ds ++ b.made (.insertAdminCredential id user.id tokenHash tokenPrefix) row := by
          unfold Book.madeBy
          rw [List.flatMap_append]
          cases b <;> rfl
        rw [List.filterMap_append, hlogged, hboth, hmade b]
        cases b <;> rfl
    | listAdminCredentials active limit offset => exact h.elim
    | deactivateAdminCredential id =>
      obtain ⟨credential, user, ⟨-, rfl⟩ | ⟨after, aid, principal, hactive, rfl⟩⟩ := h
      · exact booked_idle (by simp [Idles])
      · refine .retiring id _ credential user (some after) _ hactive (by simp [Retires])
          (fun b => List.Perm.of_eq ?_) rfl
        cases b <;> rfl
    | rotateAdminCredential id =>
      obtain ⟨credential, user, after, newId, tokenHash, tokenPrefix, row, a, b, principal, hactive,
        rfl⟩ := h
      refine .retiring id _ credential user (some after) _ hactive (by simp [Retires])
        (fun b => List.Perm.of_eq ?_) rfl
      cases b <;> rfl
  | createCopyRelationship payload =>
    obtain ⟨id, record, aid, principal, rfl⟩ := h
    refine .plain (by simp [Retires]) fun b => List.Perm.of_eq ?_
    cases b <;> rfl
  | updateCopyRelationship id payload =>
    obtain ⟨before, after, aid, principal, rfl⟩ := h
    refine .plain (by simp [Retires]) fun b => List.Perm.of_eq ?_
    cases b <;> rfl

/-! ## The programs -/

section

variable {crypto : Crypto} {settings : Settings} {tx : ℕ} {ds : List (Did identity)}
  {n : Option (List (Did identity))}

/-- A repository that writes in one transaction, on a connection of its own. -/
theorem books_method {α : Type} {body : ℕ → Prog IdentityApi α} {R : List (Did identity) → α → Prop}
    (h : ∀ tx, (body tx).Obeys booking (some (tx, []), none)
      (fun l a => ∃ ds, l = (some (tx, ds), none) ∧ BookedCommit ds ∧ R ds a) fun _ _ => True) :
    (Sql.withConnection (Sql.transaction body)).Obeys booking (none, none)
      (fun l a => ∃ ds, l.2 = some ds ∧ R ds a) fun _ _ => True :=
  Sql.noted_connection ((Sql.noted_transaction h).mono
    (fun _ _ ⟨ds, hl, hR⟩ => ⟨ds, by rw [hl], hR⟩) fun _ _ _ => trivial)

/-- The same with an `except` clause that only raises. -/
theorem books_method_except {α : Type} {body : ℕ → Prog IdentityApi α}
    {R : List (Did identity) → α → Prop} {raised : ApiError → ApiError}
    (h : ∀ tx, (body tx).Obeys booking (some (tx, []), none)
      (fun l a => ∃ ds, l = (some (tx, ds), none) ∧ BookedCommit ds ∧ R ds a) fun _ _ => True) :
    (Sql.withConnection ((Sql.transaction body).tryExcept fun e =>
      Prog.fail (σ := IdentityApi) (raised e))).Obeys booking (none, none)
      (fun l a => ∃ ds, l.2 = some ds ∧ R ds a) fun _ _ => True :=
  Sql.noted_connection (Prog.obeys_tryExcept ((Sql.noted_transaction h).mono
    (fun _ _ ⟨ds, hl, hR⟩ => ⟨ds, by rw [hl], hR⟩) fun _ _ _ => trivial))

theorem createExchangeAccount_books (payload : ExchangeAccountCreate) (principal : AuthenticatedPrincipal) :
    (FoundationControls.Repository.createExchangeAccount payload principal).Obeys booking (none, none)
      (fun l _ => ∃ did, l.2 = some did ∧
        GuardedOperation.Commits crypto (.admin (.createExchangeAccount payload)) did) fun _ _ => True := by
  refine books_method_except fun tx => Prog.obeys_bind (obeys_uuid4 fun id => ?_)
  refine Prog.obeys_bind (noted_fetchIn fun record => ?_)
  refine Prog.obeys_bind (noted_fetchIn fun found => ?_)
  cases found with
  | false => trivial
  | true =>
    refine Prog.obeys_bind (noted_insertAuditLog fun aid => ?_)
    have hdid : GuardedOperation.Commits crypto (.admin (.createExchangeAccount payload))
        [⟨.insertExchangeAccount id payload, record⟩, ⟨.userExists payload.userId, true⟩,
          ⟨.insertAuditLog aid (FoundationControls.exchangeAccountEntry principal
            "exchange_account.created" none record), ()⟩] := ⟨id, record, true, aid, principal, rfl⟩
    exact ⟨_, rfl, booked_commits hdid, hdid⟩

theorem updateExchangeAccount_books (accountId : UUID) (payload : ExchangeAccountUpdate)
    (principal : AuthenticatedPrincipal) :
    (FoundationControls.Repository.updateExchangeAccount accountId payload principal).Obeys booking
      (none, none) (fun l a => a ≠ none → ∃ did, l.2 = some did ∧
        GuardedOperation.Commits crypto (.admin (.updateExchangeAccount accountId payload)) did)
      fun _ _ => True := by
  unfold FoundationControls.Repository.updateExchangeAccount
  split
  · exact fun h => absurd rfl h
  refine (books_method (R := fun did a => a ≠ none →
    GuardedOperation.Commits crypto (.admin (.updateExchangeAccount accountId payload)) did) fun tx => ?_).mono
    (fun l a ⟨did, hl, hdid⟩ ha => ⟨did, hl, hdid ha⟩) fun _ _ _ => trivial
  refine Prog.obeys_bind (noted_fetchIn fun before => ?_)
  cases before with
  | none => exact ⟨_, rfl, booked_idle (by simp [Idles]), fun h => absurd rfl h⟩
  | some before =>
    refine Prog.obeys_bind (noted_fetchIn fun after => ?_)
    cases after with
    | none => exact ⟨_, rfl, booked_idle (by simp [Idles, pinned]), fun h => absurd rfl h⟩
    | some after =>
      refine Prog.obeys_bind (noted_insertAuditLog fun aid => ?_)
      have hdid : GuardedOperation.Commits crypto (.admin (.updateExchangeAccount accountId payload)) _ :=
        ⟨before, after, aid, principal, rfl⟩
      exact ⟨_, rfl, booked_commits hdid, fun _ => hdid⟩

theorem createCopyRelationship_books (payload : CopyRelationshipCreate)
    (principal : AuthenticatedPrincipal) :
    (CopyRelationships.create payload principal).Obeys booking (none, none)
      (fun l _ => ∃ did, l.2 = some did ∧
        GuardedOperation.Commits crypto (.createCopyRelationship payload) did)
      fun _ _ => True := by
  refine books_method_except fun tx => Prog.obeys_bind (obeys_uuid4 fun id => ?_)
  refine Prog.obeys_bind (noted_fetchIn fun record => ?_)
  refine Prog.obeys_bind (noted_insertAuditLog fun aid => ?_)
  have hdid : GuardedOperation.Commits crypto (.createCopyRelationship payload) _ :=
    ⟨id, record, aid, principal, rfl⟩
  exact ⟨_, rfl, booked_commits hdid, hdid⟩

theorem updateCopyRelationship_books (relationshipId : UUID) (payload : CopyRelationshipUpdate)
    (principal : AuthenticatedPrincipal) :
    (CopyRelationships.update relationshipId payload principal).Obeys booking (none, none)
      (fun l a => ∃ did, l.2 = some did ∧ (a ≠ none →
        GuardedOperation.Commits crypto (.updateCopyRelationship relationshipId payload) did))
      fun _ _ => True := by
  refine books_method_except fun tx => ?_
  refine Prog.obeys_bind (noted_fetchIn fun before => ?_)
  cases before with
  | none => exact ⟨_, rfl, booked_idle (by simp [Idles]), fun h => absurd rfl h⟩
  | some before =>
    refine Prog.obeys_bind (noted_fetchIn fun after => ?_)
    cases after with
    | none => exact ⟨_, rfl, booked_idle (by simp [Idles, pinned]), fun h => absurd rfl h⟩
    | some after =>
      refine Prog.obeys_bind (noted_insertAuditLog fun aid => ?_)
      have hdid : GuardedOperation.Commits crypto (.updateCopyRelationship relationshipId payload) _ :=
        ⟨before, after, aid, principal, rfl⟩
      exact ⟨_, rfl, booked_commits hdid, fun _ => hdid⟩

theorem createAdminCredential_books (payload : AdminCredentials.AdminCredentialCreate)
    (principal : AuthenticatedPrincipal) :
    (AdminCredentials.Repository.createAdminCredential crypto payload principal).Obeys booking
      (none, none) (fun l _ => ∃ did, l.2 = some did ∧
        GuardedOperation.Commits crypto (.admin (.createAdminCredential payload)) did) fun _ _ => True := by
  unfold AdminCredentials.Repository.createAdminCredential
  refine Prog.obeys_bind (obeys_generateAdminApiToken (fun token => ?_) fun _ => trivial)
  refine Prog.obeys_bind (obeys_uuid4 fun credentialId => Prog.obeys_bind ?_)
  refine (books_method (R := fun did _ =>
      GuardedOperation.Commits crypto (.admin (.createAdminCredential payload)) did)
    fun tx => ?_).mono (fun _ _ h => h) fun _ _ _ => trivial
  refine Prog.obeys_bind (obeys_uuid4 fun userId => ?_)
  refine Prog.obeys_bind (noted_fetchIn fun user => ?_)
  cases user with
  | none => trivial
  | some user =>
  refine Prog.obeys_bind (noted_fetchIn fun adminRoleId => ?_)
  cases adminRoleId with
  | none => trivial
  | some adminRoleId =>
  refine Prog.obeys_bind (noted_fetchIn fun granted => ?_)
  -- with a password or without
  have hrest : ∀ ds : List (Did identity), (∀ x ∈ ds, Registers x) →
      ⟨.upsertActiveUser userId payload.email payload.displayName, some user⟩ ∈ ds →
      (∀ password ∈ payload.password, ∃ pid salt,
        ⟨.upsertPasswordCredential pid user.id (crypto.hashPassword password salt), ()⟩ ∈ ds) →
      (AdminCredentials.Repository.insertAdminCredentialRow crypto tx credentialId user.id token >>=
        fun credential => do
        let record := AdminCredentials.rowToRecord credential user
        insertAuditLog tx (AdminCredentials.credentialEntry principal "admin_credential.created" record.id
          none (some record) [])
        pure record).Obeys booking (some (tx, ds), none)
        (fun l _ => ∃ ds, l = (some (tx, ds), none) ∧ BookedCommit ds ∧
          GuardedOperation.Commits crypto (.admin (.createAdminCredential payload)) ds)
        fun _ _ => True := by
    intro ds hds huser hpassword
    refine Prog.obeys_bind (noted_fetchIn fun row => Prog.obeys_bind (noted_insertAuditLog fun aid => ?_))
    have hdid : GuardedOperation.Commits crypto (.admin (.createAdminCredential payload)) _ :=
      ⟨ds, userId, credentialId, crypto.hashApiToken token,
        token.take AdminCredentials.tokenPrefixLength, row, user, aid, principal, hds, huser, hpassword, rfl⟩
    exact ⟨_, by rw [List.append_assoc]; rfl, booked_commits hdid, hdid⟩
  cases hpassword : payload.password with
  | none =>
    refine hrest _ (by simp [Registers]) List.mem_cons_self ?_
    rw [hpassword]
    exact fun _ hp => by cases hp
  | some password =>
    refine Prog.obeys_bind (Prog.obeys_bind (obeys_uuid4 fun pid => ?_))
    intro salt
    refine noted_fetchIn fun _ => hrest _ (by simp [Registers]) List.mem_cons_self ?_
    rw [hpassword]
    rintro _ ⟨⟩
    exact ⟨pid, salt.tokenBytes, List.mem_append_right _ (List.mem_singleton_self _)⟩

theorem deactivateAdminCredential_books (credentialId : UUID) (principal : AuthenticatedPrincipal) :
    (AdminCredentials.Repository.deactivateAdminCredential credentialId principal).Obeys booking
      (none, none) (fun l a => ∃ did, l.2 = some did ∧ (a ≠ none →
        GuardedOperation.Commits crypto (.admin (.deactivateAdminCredential credentialId)) did))
      fun _ _ => True := by
  refine books_method fun tx => ?_
  refine Prog.obeys_bind (noted_fetchIn fun row => ?_)
  cases row with
  | none => exact ⟨_, rfl, booked_idle (by simp [Idles]), fun h => absurd rfl h⟩
  | some row =>
  obtain ⟨credential, user⟩ := row
  have hrecord : (AdminCredentials.rowToRecord credential user).active = credential.active := rfl
  cases hactive : credential.active with
  | false =>
    simp only [hrecord, hactive, Bool.not_false, if_true]
    have hdid : GuardedOperation.Commits crypto (.admin (.deactivateAdminCredential credentialId)) _ :=
      ⟨credential, user, Or.inl ⟨hactive, rfl⟩⟩
    exact ⟨_, rfl, booked_commits hdid, fun _ => hdid⟩
  | true =>
    simp only [hrecord, hactive, Bool.not_true, Bool.false_eq_true, if_false]
    refine Prog.obeys_bind (noted_fetchIn fun after => ?_)
    cases after with
    | none => exact ⟨_, rfl, booked_idle (by simp [Idles, pinned]), fun h => absurd rfl h⟩
    | some after =>
      refine Prog.obeys_bind (noted_insertAuditLog fun aid => ?_)
      have hdid : GuardedOperation.Commits crypto (.admin (.deactivateAdminCredential credentialId)) _ :=
        ⟨credential, user, Or.inr ⟨after, aid, principal, hactive, rfl⟩⟩
      exact ⟨_, rfl, booked_commits hdid, fun _ => hdid⟩

theorem rotateAdminCredential_books (credentialId : UUID) (principal : AuthenticatedPrincipal) :
    (AdminCredentials.Repository.rotateAdminCredential crypto credentialId principal).Obeys booking
      (none, none) (fun l a => ∃ did, l.2 = some did ∧ (a ≠ none →
        GuardedOperation.Commits crypto (.admin (.rotateAdminCredential credentialId)) did))
      fun _ _ => True := by
  unfold AdminCredentials.Repository.rotateAdminCredential
  refine Prog.obeys_bind (obeys_generateAdminApiToken (fun token => ?_) fun _ => trivial)
  refine Prog.obeys_bind (obeys_uuid4 fun newId => ?_)
  refine books_method fun tx => ?_
  refine Prog.obeys_bind (noted_fetchIn fun row => ?_)
  cases row with
  | none => exact ⟨_, rfl, booked_idle (by simp [Idles]), fun h => absurd rfl h⟩
  | some row =>
  obtain ⟨credential, user⟩ := row
  have hrecord : (AdminCredentials.rowToRecord credential user).active = credential.active := rfl
  cases hactive : credential.active with
  | false =>
    simp only [hrecord, hactive, Bool.not_false, if_true]
    trivial
  | true =>
    simp only [hrecord, hactive, Bool.not_true, Bool.false_eq_true, if_false]
    refine Prog.obeys_bind (noted_fetchIn fun after => ?_)
    cases after with
    | none => exact ⟨_, rfl, booked_idle (by simp [Idles, pinned]), fun h => absurd rfl h⟩
    | some after =>
      refine Prog.obeys_bind (Prog.obeys_bind (noted_fetchIn fun newRow => ?_))
      refine Prog.obeys_bind (noted_insertAuditLog fun a => ?_)
      refine Prog.obeys_bind (noted_insertAuditLog fun b => ?_)
      have hdid : GuardedOperation.Commits crypto (.admin (.rotateAdminCredential credentialId)) _ :=
        ⟨credential, user, after, newId, crypto.hashApiToken token,
          token.take AdminCredentials.tokenPrefixLength, newRow, a, b, principal, hactive, rfl⟩
      exact ⟨_, rfl, booked_commits hdid, fun _ => hdid⟩

/-- What a request that writes has committed when it returns. -/
def ApiRequest.Committed (crypto : Crypto) : ApiRequest → Option (List (Did identity)) → Prop
  | .login payload, last => ∃ did, last = some did ∧ LoginCommits payload did
  | .guarded _ operation, last =>
    operation.actions ≠ [] → ∃ did, last = some did ∧ operation.Commits crypto did
  | .session _, _ => True
  | .logout _ _, _ => True

/-- The admission makes no statement in a transaction, and enters nothing. -/
theorem admission_books {α : Type} {p : Prog IdentityApi α} {Q : List (Sql.Heard identity) → α → Prop}
    {X : List (Sql.Heard identity) → ApiError → Prop}
    (h : p.Obeys (Sql.hearing fun _ c => AdmissionCall c) [] Q X) :
    p.Obeys booking (none, none) (fun l _ => l = (none, none)) fun _ _ => True := by
  have hallow : ∀ (l : List (Sql.Heard identity)) (c : Sql.Call identity),
      (Sql.hearing fun _ c => AdmissionCall c : Async.Protocol IdentityApi _).allow l c →
        booking.allow (none, none) c := by
    intro l c hc
    have hc : AdmissionCall c := hc
    cases c with
    | connect => trivial
    | close => trivial
    | query q =>
      cases q with
      | insertAuditLog id entry => exact hc.elim
      | _ => trivial
    | _ => exact hc.elim
  have hnext : ∀ (l : List (Sql.Heard identity)) (c : Sql.Call identity) (r : IdentityApi.Reply c),
      (Sql.hearing fun _ c => AdmissionCall c : Async.Protocol IdentityApi _).allow l c →
        booking.next (none, none) c r = (none, none) := by
    intro l c r hc
    have hc : AdmissionCall c := hc
    cases c with
    | connect => rfl
    | close => rfl
    | query q => rfl
    | _ => exact hc.elim
  exact (Async.obeys_unnoticed hallow hnext h).mono (fun _ _ hl => hl.1) fun _ _ _ => trivial

theorem insertAuditLogAlone_books {entry : AuditEntry AuditState} {l : Sql.Note identity}
    (h : ∀ b : Book, entry.action ∉ b.actions) :
    (insertAuditLogAlone entry).Obeys booking l (fun l' _ => l' = l) fun _ _ => True :=
  Prog.obeys_bind (obeys_uuid4 fun _ => Sql.noted_query h fun _ => rfl)

/-- The entries of a logout and of a login that failed are in no book. -/
theorem unbooked {action : String} (h : action = "auth.logout" ∨ action = "auth.login.failed")
    (b : Book) : action ∉ b.actions := by
  rcases h with rfl | rfl
  · cases b <;> simp [Book.actions]
  · cases b <;> simp [Book.actions]

theorem createSession_books (payload : LoginRequest) (userId sessionId credentialId : UUID)
    (roles : List String) (sessionToken csrfToken : Text) (expiresAt : Timestamp) :
    (createSession crypto payload.email userId sessionId credentialId roles sessionToken csrfToken
      expiresAt).Obeys booking (none, none)
      (fun l _ => ∃ did, l = (none, some did) ∧ LoginCommits payload did) fun l _ => l.1 = none := by
  refine Sql.noted_transaction fun tx => ?_
  refine Prog.obeys_bind (noted_fetchIn fun _ => Prog.obeys_bind (noted_fetchIn fun _ => ?_))
  refine noted_insertAuditLog fun aid => ?_
  have hdid : LoginCommits payload _ := ⟨sessionId, userId, crypto.hashApiToken sessionToken,
    crypto.hashApiToken csrfToken, expiresAt, credentialId, aid, roles, rfl⟩
  exact ⟨_, rfl, booked_login hdid, hdid⟩

/-- **A login** commits its session with the entry of it. -/
theorem login_books (sessionTtlMinutes : ℤ) (payload : LoginRequest) :
    (login crypto sessionTtlMinutes payload).Obeys booking (none, none)
      (fun l _ => ∃ did, l.2 = some did ∧ LoginCommits payload did) fun _ _ => True := by
  have hfailed : ∀ userId : Option UUID, (recordFailedLogin payload.email userId).Obeys booking
      (none, none) (fun l _ => l = (none, none)) fun _ _ => True := fun userId =>
    insertAuditLogAlone_books (unbooked (Or.inr rfl))
  refine Sql.noted_connection (Prog.obeys_bind (Sql.noted_query trivial fun row => ?_))
  cases row with
  | none => exact Prog.obeys_bind ((hfailed none).mono (fun _ _ _ => trivial) fun _ _ _ => trivial)
  | some row =>
    show Prog.Obeys _ (if !crypto.verifyPassword payload.password row.passwordHash then _ else _) _ _ _
    split
    · exact Prog.obeys_bind ((hfailed (some row.userId)).mono (fun _ _ _ => trivial) fun _ _ _ => trivial)
    intro session csrf n
    show Prog.Obeys booking (createSession crypto payload.email row.userId n.uuid4
      row.passwordCredentialId row.roles session.tokenUrlsafe csrf.tokenUrlsafe _ >>= _) _ _ _
    exact Prog.obeys_bind ((createSession_books payload row.userId n.uuid4 row.passwordCredentialId
      row.roles session.tokenUrlsafe csrf.tokenUrlsafe _).mono
      (fun l _ ⟨did, hl, hdid⟩ => ⟨did, by rw [hl], hdid⟩) fun _ _ _ => trivial)

theorem revokeSession_books (token : Text) (l : Sql.Note identity) :
    (revokeSession crypto token).Obeys booking l (fun _ _ => True) fun _ _ => True := by
  refine Sql.noted_connection (Prog.obeys_bind (Sql.noted_query trivial fun row => ?_))
  cases row with
  | none => trivial
  | some row =>
    exact (insertAuditLogAlone_books (unbooked (Or.inl rfl))).mono (fun _ _ _ => trivial)
      fun _ _ _ => trivial

/-- **An operation** keeps the books, and returns with what it has committed. -/
theorem handle_books (principal : AuthenticatedPrincipal) (operation : GuardedOperation) :
    (operation.handle crypto principal).Obeys booking (none, none)
      (fun l _ => operation.actions ≠ [] → ∃ did, l.2 = some did ∧ operation.Commits crypto did)
      fun _ _ => True := by
  cases operation with
  | admin operation =>
    refine Prog.obeys_bind ?_
    cases operation with
    | createExchangeAccount payload =>
      refine Prog.obeys_bind (Prog.obeys_bind (Prog.obeys_tryExcept ?_))
      exact (createExchangeAccount_books payload principal).mono (fun _ _ h _ => h) fun _ _ _ => trivial
    | listExchangeAccounts userId status limit offset =>
      refine Prog.obeys_bind (Prog.obeys_bind (Sql.noted_connection ?_))
      exact Sql.noted_query trivial fun _ h => absurd rfl h
    | updateExchangeAccount id payload =>
      refine Prog.obeys_bind (Prog.obeys_bind (Prog.obeys_tryExcept ?_))
      refine (@updateExchangeAccount_books crypto id payload principal).mono (fun l record h => ?_)
        fun _ _ _ => trivial
      cases record with
      | none => trivial
      | some record => exact fun _ => h (Option.some_ne_none record)
    | createAdminCredential payload =>
      refine Prog.obeys_bind (Prog.obeys_bind (Prog.obeys_tryExcept ?_))
      exact (createAdminCredential_books payload principal).mono (fun _ _ h _ => h) fun _ _ _ => trivial
    | listAdminCredentials active limit offset =>
      refine Prog.obeys_bind (Prog.obeys_bind (Prog.obeys_bind (Sql.noted_connection ?_)))
      exact Sql.noted_query trivial fun _ h => absurd rfl h
    | deactivateAdminCredential id =>
      refine Prog.obeys_bind (Prog.obeys_bind ?_)
      refine (@deactivateAdminCredential_books crypto id principal).mono (fun l record ⟨did, hl, h⟩ => ?_)
        fun _ _ _ => trivial
      cases record with
      | none => trivial
      | some record => exact fun _ => ⟨did, hl, h (Option.some_ne_none record)⟩
    | rotateAdminCredential id =>
      refine Prog.obeys_bind (Prog.obeys_bind (Prog.obeys_tryExcept ?_))
      refine (rotateAdminCredential_books id principal).mono (fun l created ⟨did, hl, h⟩ => ?_)
        fun _ _ _ => trivial
      cases created with
      | none => trivial
      | some created => exact fun _ => ⟨did, hl, h (Option.some_ne_none created)⟩
  | createCopyRelationship payload =>
    refine Prog.obeys_bind (Prog.obeys_tryExcept ?_)
    exact (createCopyRelationship_books payload principal).mono (fun _ _ h _ => h) fun _ _ _ => trivial
  | updateCopyRelationship id payload =>
    refine Prog.obeys_bind (Prog.obeys_bind (Prog.obeys_tryExcept ?_))
    refine (@updateCopyRelationship_books crypto id payload principal).mono (fun l record ⟨did, hl, h⟩ => ?_)
      fun _ _ _ => trivial
    cases record with
    | none => trivial
    | some record => exact fun _ => ⟨did, hl, h (Option.some_ne_none record)⟩

/-- **Every request** keeps the books, and returns with what it has committed. -/
theorem ApiRequest.books (sessionTtlMinutes : ℤ) (request : ApiRequest) :
    (request.program crypto settings sessionTtlMinutes).Obeys booking (none, none)
      (fun l _ => request.Committed crypto l.2) fun _ _ => True := by
  refine Prog.obeys_bind ?_
  cases request with
  | login payload =>
    refine Prog.obeys_bind (Prog.obeys_bind (Prog.obeys_tryExcept ?_))
    refine (login_books sessionTtlMinutes payload).mono (fun l created h => ?_) fun _ _ _ => trivial
    refine Prog.obeys_bind (Prog.obeys_bind ?_)
    unfold requireUserId
    split
    · trivial
    · exact h
  | session sessionToken =>
    refine Prog.obeys_bind ?_
    cases sessionToken with
    | none => trivial
    | some token =>
      refine Prog.obeys_bind ((admission_books (authenticateSession_shows (fun _ _ hc => hc) token none
        false)).mono (fun l session _ => ?_) fun _ _ _ => trivial)
      cases session with
      | none => trivial
      | some session =>
        show Prog.Obeys _ (requireUserId session.principal >>= _) _ _ _
        unfold requireUserId
        split
        · trivial
        · trivial
  | logout sessionToken csrfToken =>
    refine Prog.obeys_bind ?_
    cases sessionToken with
    | none => trivial
    | some token =>
      refine Prog.obeys_bind ((admission_books (authenticateSession_shows (fun _ _ hc => hc) token
        csrfToken true)).mono (fun l session _ => ?_) fun _ _ _ => trivial)
      cases session with
      | none => trivial
      | some session =>
        exact (revokeSession_books token l).mono (fun _ _ _ => trivial) fun _ _ _ => trivial
  | guarded request operation =>
    refine Prog.obeys_bind ((admission_books (requireAdminToken_shows fun _ _ hc => hc)).mono
      (fun l principal hl => ?_) fun _ _ _ => trivial)
    rw [hl]
    exact (handle_books principal operation).mono (fun _ _ h => h) fun _ _ _ => trivial

end

/-! ## Any interleaving -/

section

variable {crypto : Crypto} {settings : Settings} {sessionTtlMinutes : ℤ} {xs : List (Input identityServer)}

/-- The requests keep the books. -/
theorem requests_booked
    (hx : ∀ q, Input.begin q ∈ xs → ∃ r : ApiRequest, q = r.program crypto settings sessionTtlMinutes) :
    Async.Started (Sql.discipline (S := identity) BookedCommit QueryBooked) none xs := by
  intro q hq
  obtain ⟨r, rfl⟩ := hx q hq
  have hbooks : (r.program crypto settings sessionTtlMinutes).Obeys booking (none, none)
      (fun l _ => r.Committed crypto l.2) fun _ _ => True := r.books sessionTtlMinutes
  exact (Async.obeys_unnoted hbooks).mono (fun _ _ _ => trivial) fun _ _ _ => trivial

end

/-- **The books balance**, in any interleaving of API requests with any faults: the audit log has,
but for its order, one entry for each session, each admin credential, each that is inactive, each
exchange account and each copy relationship, and no other such entry. -/
theorem books_balance (crypto : Crypto) (settings : Settings) (sessionTtlMinutes : ℤ) (s₀ : Tables)
    (now : Timestamp) (supply : ℕ → Drawn) (xs : List (Input identityServer)) (p : Pool identityServer)
    (hs₀ : Balanced s₀)
    (hx : ∀ q, Input.begin q ∈ xs → ∃ r : ApiRequest, q = r.program crypto settings sessionTtlMinutes)
    (h : (Pool.init (Sql.Server.start (S := identity) s₀ now supply)).run? xs = some p) :
    Balanced p.state.db.current ∧ ∀ b : Book, (b.entered p.state.db.current).Nodup := by
  obtain ⟨hsound, hallowed⟩ := Sql.run_sound (requests_booked hx) h
  have hbalanced := serial_balanced hs₀ hallowed hsound.serial
  exact ⟨hbalanced, hbalanced.once⟩

/-! ### The run of an admin -/

/-- The tables of the admin, where the credential is entered. -/
def bookedAdmin : Tables :=
  { oneAdmin with
    auditLogs := .singleton ((AdminCredentials.credentialEntry environmentAdminPrincipal
      "admin_credential.created" ⟨3⟩ none none []).row ⟨5⟩ 0) }

theorem bookedAdmin_balanced : Balanced bookedAdmin := by
  intro b
  cases b with
  | sessions => exact List.Perm.refl _
  | credentials => exact List.Perm.refl _
  | retirements => exact List.Perm.refl _
  | exchangeAccounts => exact List.Perm.refl _
  | copyRelationships => exact List.Perm.refl _

/-- Both requests return, and the run makes a session and a copy relationship. -/
theorem bookedRun_ends : ∃ p : Pool identityServer,
    (Pool.init (Sql.Server.start (S := identity) bookedAdmin 0 adminSupply)).run? adminRun = some p ∧
    p.running[0]? = some (.done ()) ∧ p.running[1]? = some (.done ()) ∧
    Book.sessions.listed p.state.db.current = [⟨12⟩] ∧
    (Book.copyRelationships.listed p.state.db.current).length = 1 :=
  ⟨_, rfl, rfl, rfl, rfl, rfl⟩

theorem books_balance_sample : ∃ p : Pool identityServer,
    (Pool.init (Sql.Server.start (S := identity) bookedAdmin 0 adminSupply)).run? adminRun = some p ∧
    Book.sessions.listed p.state.db.current = [⟨12⟩] ∧ Balanced p.state.db.current := by
  obtain ⟨p, hp, -, -, hsessions, -⟩ := bookedRun_ends
  have hbalance := books_balance sampleCrypto closedSettings 60 bookedAdmin 0 adminSupply adminRun p
    bookedAdmin_balanced adminRun_requests hp
  exact ⟨p, hp, hsessions, hbalance.1⟩

end CopyTrade
