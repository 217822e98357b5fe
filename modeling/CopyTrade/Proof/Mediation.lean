import CopyTrade.Proof.Admission
import CopyTrade.Spec.ApiServer
import CopyTrade.Sql.Attributed

/-!
# What a request may do by what it was answered

The calls of each route, read against the answers that its execution has been given: no route
writes before its request has been authenticated, and then in the name of who was.

* `Shown`: the answers by which `require_admin_token` admits a principal.
* `ApiRequest.Permits`: what the answers permit. `ApiRequest.keeps`: **every route keeps to it**.
-/

namespace CopyTrade

open Async (Prog)
open Identity
open Python (Text)
open Sql (Heard)

/-- The principal of a credential. -/
def credentialPrincipal (row : AdminCredentialMatch) : AuthenticatedPrincipal where
  userId := some row.userId
  credentialId := some row.credentialId
  roles := row.roles
  actorType := .user
  actorId := some row.userId.str
  source := .database

/-- The principal that a request is admitted as, by the answers it was `found`. -/
inductive Shown (crypto : Crypto) (settings : Settings) (request : AdmissionRequest)
    (found : Heard identity → Prop) : AuthenticatedPrincipal → Prop where
  | environment (h : ByEnvironment settings request) :
    Shown crypto settings request found environmentAdminPrincipal
  | credential (token : Text) (row : AdminCredentialMatch) (htoken : request.token = some token)
      (hlength : 32 ≤ token.length)
      (hrow : found ⟨.selectAdminCredential adminApiCredentialType (crypto.hashApiToken token), some row⟩)
      (hrole : adminRole ∈ row.roles) :
    Shown crypto settings request found (credentialPrincipal row)
  | session (token : Text) (row : SessionMatch) (htoken : request.sessionToken = some token)
      (hrow : found ⟨.selectSession (crypto.hashApiToken token), some row⟩)
      (hcsrf : csrfPasses crypto request.csrfToken
        (decide (Python.upper request.method ∈ csrfProtectedMethods)) row.csrfTokenHash = true)
      (hrole : adminRole ∈ row.roles) :
    Shown crypto settings request found (sessionPrincipal row.userId row.sessionId row.roles)

theorem Shown.mono {crypto : Crypto} {settings : Settings} {request : AdmissionRequest}
    {found found' : Heard identity → Prop} {principal : AuthenticatedPrincipal}
    (hfound : ∀ x, found x → found' x) (h : Shown crypto settings request found principal) :
    Shown crypto settings request found' principal := by
  cases h with
  | environment h => exact .environment h
  | credential token row htoken hlength hrow hrole =>
    exact .credential token row htoken hlength (hfound _ hrow) hrole
  | session token row htoken hrow hcsrf hrole =>
    exact .session token row htoken (hfound _ hrow) hcsrf hrole

/-! ## The admission -/

section

variable {crypto : Crypto} {settings : Settings} {request : AdmissionRequest}
  {allow : List (Heard identity) → Sql.Call identity → Prop} {heard : List (Heard identity)}

/-- The discipline lets the admission make its calls. -/
def Lets (allow : List (Heard identity) → Sql.Call identity → Prop) : Prop :=
  ∀ l c, AdmissionCall c → allow l c

theorem authenticateAdminToken_shows (settings : Settings) (hallow : Lets allow) {token : Text}
    (htoken : request.token = some token) :
    (authenticateAdminToken crypto token).Obeys (Sql.hearing allow) heard
      (fun l a => ∀ p ∈ a, Shown crypto settings request (· ∈ l) p) fun _ _ => True := by
  unfold authenticateAdminToken
  split
  · intro p hp
    cases hp
  rename_i hlong
  have hlength : 32 ≤ token.length := by
    simpa [isAdminApiTokenCandidate, minAdminApiTokenLength] using hlong
  refine Sql.hearing_withConnection (fun l => hallow l _ trivial) (fun l => hallow l _ trivial) ?_
  refine Prog.obeys_bind (Sql.hearing_query (hallow _ _ trivial) (fun row => ?_) fun _ => trivial)
  cases row with
  | none =>
    intro p hp
    cases hp
  | some row =>
    by_cases hrole : adminRole ∈ row.roles
    · simp only [hrole, not_true_eq_false, if_false]
      refine Prog.obeys_bind (Sql.hearing_query (hallow _ _ trivial) (fun _ => ?_) fun _ => trivial)
      intro p hp
      cases hp
      exact .credential token row htoken hlength (List.mem_cons_of_mem _ List.mem_cons_self) hrole
    · simp only [hrole, not_false_eq_true, if_true]
      intro p hp
      cases hp

theorem authenticateSession_shows (hallow : Lets allow) (token : Text) (csrfToken : Option Text)
    (requireCsrf : Bool) :
    (authenticateSession crypto token csrfToken requireCsrf).Obeys (Sql.hearing allow) heard
      (fun l a => ∀ session ∈ a, ∃ row : SessionMatch,
        ⟨.selectSession (crypto.hashApiToken token), some row⟩ ∈ l ∧
        csrfPasses crypto csrfToken requireCsrf row.csrfTokenHash = true ∧
        session.principal = sessionPrincipal row.userId row.sessionId row.roles) fun _ _ => True := by
  unfold authenticateSession
  refine Sql.hearing_withConnection (fun l => hallow l _ trivial) (fun l => hallow l _ trivial) ?_
  refine Prog.obeys_bind (Sql.hearing_query (hallow _ _ trivial) (fun row => ?_) fun _ => trivial)
  cases row with
  | none =>
    intro session hs
    cases hs
  | some row =>
    by_cases hcsrf : csrfPasses crypto csrfToken requireCsrf row.csrfTokenHash = true
    · simp only [hcsrf, Bool.not_true, Bool.false_eq_true, if_false]
      refine Prog.obeys_bind (Sql.hearing_query (hallow _ _ trivial) (fun _ => ?_) fun _ => trivial)
      intro session hs
      cases hs
      exact ⟨row, List.mem_cons_of_mem _ List.mem_cons_self, hcsrf, rfl⟩
    · simp only [hcsrf, Bool.not_false, if_true]
      intro session hs
      cases hs

theorem requireSession_shows (hallow : Lets allow) :
    (requireSession (appState crypto) request).Obeys (Sql.hearing allow) heard
      (fun l p => Shown crypto settings request (· ∈ l) p) fun _ _ => True := by
  unfold requireSession
  cases hcookie : request.sessionToken with
  | none => trivial
  | some token =>
    refine Prog.obeys_bind (Prog.obeys_caught ?_)
    refine (authenticateSession_shows hallow token request.csrfToken _).mono (fun l a ha => ?_)
      fun _ _ _ => trivial
    cases a with
    | none => trivial
    | some session =>
      obtain ⟨row, hrow, hcsrf, hprincipal⟩ := ha session rfl
      show Prog.Obeys _ (if adminRole ∈ session.principal.roles then _ else _) _ _ _
      split
      · rename_i hrole
        rw [hprincipal] at hrole ⊢
        exact .session token row hcookie hrow hcsrf hrole
      · trivial

theorem raising_shows {token : Text} (htoken : request.token = some token)
    {Q : List (Heard identity) → Bool → Prop}
    (hQ : ∀ b, (b = true → ByEnvironment settings request) → Q heard b) :
    (raising (environmentAdminTokenMatches settings token)).Obeys (Sql.hearing allow) heard Q
      fun _ _ => True := by
  have hascii : Python.IsAscii token := request.token_ascii token htoken
  rcases environmentAdminTokenMatches_cases settings hascii with ⟨b, hb, hiff⟩ | ⟨⟨e, he⟩, -⟩
  · rw [hb]
    refine hQ b fun htrue => ?_
    obtain ⟨hopen, hne, hconf⟩ := hiff.1 htrue
    exact ⟨hopen, token, htoken, hne, hconf⟩
  · rw [he]
    trivial

theorem requireEnvironmentToken_shows (hallow : Lets allow) {token : Text}
    (htoken : request.token = some token) :
    (requireEnvironmentToken settings (appState crypto) request token).Obeys (Sql.hearing allow) heard
      (fun l p => Shown crypto settings request (· ∈ l) p) fun _ _ => True := by
  unfold requireEnvironmentToken
  refine Prog.obeys_bind (raising_shows htoken fun b hb => ?_)
  cases b with
  | true => exact .environment (hb rfl)
  | false => exact requireSession_shows hallow

/-- **Who is admitted** is shown by the answers. -/
theorem requireAdminToken_shows (hallow : Lets allow) :
    (requireAdminToken settings (appState crypto) request).Obeys (Sql.hearing allow) heard
      (fun l p => Shown crypto settings request (· ∈ l) p) fun _ _ => True := by
  unfold requireAdminToken
  cases htoken : request.token with
  | none => exact requireSession_shows hallow
  | some token =>
    refine Prog.obeys_bind (Prog.obeys_caught ?_)
    refine (authenticateAdminToken_shows settings hallow htoken).mono (fun l a ha => ?_)
      fun l e _ => ?_
    · cases a with
      | none => exact requireEnvironmentToken_shows hallow htoken
      | some principal =>
        show Prog.Obeys _ (if adminRole ∈ principal.roles then _ else _) _ _ _
        split
        · exact ha principal rfl
        · exact requireEnvironmentToken_shows hallow htoken
    · refine Prog.obeys_bind (raising_shows htoken fun b hb => ?_)
      cases b with
      | true => exact .environment (hb rfl)
      | false => trivial

end

/-! ## The operations -/

/-- The actions of the audit entries that an operation may insert. -/
def GuardedOperation.actions : GuardedOperation → List String
  | .admin (.createExchangeAccount _) => ["exchange_account.created"]
  | .admin (.listExchangeAccounts _ _ _ _) => []
  | .admin (.updateExchangeAccount _ _) => ["exchange_account.updated"]
  | .admin (.createAdminCredential _) => ["admin_credential.created"]
  | .admin (.listAdminCredentials _ _ _) => []
  | .admin (.deactivateAdminCredential _) => ["admin_credential.deactivated"]
  | .admin (.rotateAdminCredential _) => ["admin_credential.rotated", "admin_credential.rotation_created"]
  | .createCopyRelationship _ => ["copy_relationship.created"]
  | .updateCopyRelationship _ _ => ["copy_relationship.updated"]

/-- The entry of an operation of the principal. -/
def ActsFor (principal : AuthenticatedPrincipal) (actions : List String) (entry : AuditEntry AuditState) :
    Prop :=
  entry.actorType = principal.actorType ∧ entry.actorId = principal.actorId ∧ entry.action ∈ actions

/-- The statements of an operation: none where it only lists, and no session. -/
def StmtActsFor (principal : AuthenticatedPrincipal) (actions : List String) : Stmt → Prop
  | .insertAuditLog _ entry => ActsFor principal actions entry
  | .insertSession _ _ _ _ _ => False
  | _ => actions ≠ []

/-- The calls of an operation. -/
def CallActsFor (principal : AuthenticatedPrincipal) (actions : List String) : Sql.Call identity → Prop
  | .run _ c => StmtActsFor principal actions c
  | .query (.insertAuditLog _ _) => False
  | .query (.revokeSession _) => False
  | _ => True

abbrev acting (principal : AuthenticatedPrincipal) (actions : List String) : Async.Rely IdentityApi :=
  ⟨CallActsFor principal actions, fun _ _ => True⟩

section

variable {crypto : Crypto} {principal : AuthenticatedPrincipal} {actions : List String}

theorem ensures_uuid4 {A : Async.Rely IdentityApi} {Q : UUID → Prop} {X : ApiError → Prop}
    (h : ∀ u, Q u) : uuid4.Ensures A Q X :=
  fun n => h n.uuid4

/-- A statement of an operation. -/
theorem acts_fetchIn {tx : ℕ} {c : Stmt} (hc : StmtActsFor principal actions c) :
    (fetchIn tx c).Ensures (acting principal actions) (fun _ => True) fun _ => True :=
  Prog.ensures_call (A := acting principal actions) (c := .run tx c) hc (fun _ _ => trivial)
    fun _ _ => trivial

theorem acts_insertAuditLog {tx : ℕ} {entry : AuditEntry AuditState}
    (h : ActsFor principal actions entry) :
    (insertAuditLog tx entry).Ensures (acting principal actions) (fun _ => True) fun _ => True :=
  Prog.ensures_bind (ensures_uuid4 fun _ => acts_fetchIn h)

/-- A statement by itself of an operation. -/
theorem acts_fetch {q : Query} (hq : CallActsFor principal actions (.query q)) :
    (fetch q).Ensures (acting principal actions) (fun _ => True) fun _ => True :=
  Prog.ensures_call (A := acting principal actions) (c := .query q) hq (fun _ _ => trivial)
    fun _ _ => trivial

theorem acts_withConnection {α : Type} {body : Prog IdentityApi α}
    (h : body.Ensures (acting principal actions) (fun _ => True) fun _ => True) :
    (Sql.withConnection body).Ensures (acting principal actions) (fun _ => True) fun _ => True :=
  Sql.ensures_withConnection trivial trivial (fun _ _ _ => trivial) h

theorem acts_transaction {α : Type} {body : ℕ → Prog IdentityApi α}
    (h : ∀ tx, (body tx).Ensures (acting principal actions) (fun _ => True) fun _ => True) :
    (Sql.transaction body).Ensures (acting principal actions) (fun _ => True) fun _ => True :=
  Sql.ensures_transaction trivial (fun _ => trivial) (fun _ => trivial) (fun _ _ _ => trivial) h

/-- Sequencing, where the first part may end in any way. -/
theorem acts_bind {α β : Type} {p : Prog IdentityApi α} {f : α → Prog IdentityApi β}
    (hp : p.Ensures (acting principal actions) (fun _ => True) fun _ => True)
    (hf : ∀ a, (f a).Ensures (acting principal actions) (fun _ => True) fun _ => True) :
    (p >>= f).Ensures (acting principal actions) (fun _ => True) fun _ => True :=
  Prog.ensures_bind (hp.mono (fun a _ => hf a) fun _ h => h)

/-- The `except` clauses of the routes only raise. -/
theorem acts_except {α : Type} {p : Prog IdentityApi α} {raised : ApiError → ApiError}
    (hp : p.Ensures (acting principal actions) (fun _ => True) fun _ => True) :
    (p.tryExcept fun e => Prog.fail (σ := IdentityApi) (raised e)).Ensures (acting principal actions)
      (fun _ => True) fun _ => True :=
  Prog.ensures_tryExcept (hp.mono (fun _ h => h) fun _ h => h)

theorem createExchangeAccount_acts (payload : ExchangeAccountCreate) :
    (FoundationControls.createExchangeAccount payload principal).Ensures
      (acting principal ["exchange_account.created"]) (fun _ => True) fun _ => True := by
  refine acts_bind (acts_except (acts_withConnection (acts_except (acts_transaction fun tx => ?_))))
    fun _ => trivial
  refine Prog.ensures_bind (ensures_uuid4 fun id => ?_)
  refine acts_bind (acts_fetchIn (List.cons_ne_nil _ _)) fun record => ?_
  refine acts_bind (acts_fetchIn (List.cons_ne_nil _ _)) fun found => ?_
  cases found with
  | false => trivial
  | true =>
    exact acts_bind (acts_insertAuditLog ⟨rfl, rfl, List.mem_singleton_self _⟩) fun _ => trivial

theorem updateExchangeAccount_acts (accountId : UUID) (payload : ExchangeAccountUpdate) :
    (FoundationControls.updateExchangeAccount accountId payload principal).Ensures
      (acting principal ["exchange_account.updated"]) (fun _ => True) fun _ => True := by
  refine acts_bind (acts_except ?_) fun record => ?_
  · unfold FoundationControls.Repository.updateExchangeAccount
    split
    · trivial
    refine acts_withConnection (acts_transaction fun tx => ?_)
    refine acts_bind (acts_fetchIn (List.cons_ne_nil _ _)) fun before => ?_
    cases before with
    | none => trivial
    | some before =>
      refine acts_bind (acts_fetchIn (List.cons_ne_nil _ _)) fun after => ?_
      cases after with
      | none => trivial
      | some after =>
        exact acts_bind (acts_insertAuditLog ⟨rfl, rfl, List.mem_singleton_self _⟩) fun _ => trivial
  · cases record with
    | none => trivial
    | some record => trivial

theorem createAdminCredential_acts (payload : AdminCredentials.AdminCredentialCreate) :
    (AdminCredentials.createAdminCredential crypto payload principal).Ensures
      (acting principal ["admin_credential.created"]) (fun _ => True) fun _ => True := by
  have hne : ["admin_credential.created"] ≠ [] := List.cons_ne_nil _ _
  refine acts_bind (acts_except ?_) fun _ => trivial
  unfold AdminCredentials.Repository.createAdminCredential AdminCredentials.generateAdminApiToken
  refine acts_bind (fun drawn => ?_) fun token => Prog.ensures_bind (ensures_uuid4 fun credentialId => ?_)
  · show Prog.Ensures _ (if isAdminApiTokenCandidate drawn.tokenUrlsafe then _ else _) _ _
    split
    · trivial
    · trivial
  refine acts_bind (acts_withConnection (acts_transaction fun tx => ?_)) fun _ => trivial
  refine Prog.ensures_bind (ensures_uuid4 fun userId => ?_)
  refine acts_bind (acts_fetchIn hne) fun user => ?_
  cases user with
  | none => trivial
  | some user =>
    refine acts_bind (acts_fetchIn hne) fun adminRoleId => ?_
    cases adminRoleId with
    | none => trivial
    | some adminRoleId =>
      refine acts_bind (acts_fetchIn hne) fun _ => acts_bind ?_ fun _ => ?_
      · cases payload.password with
        | none => trivial
        | some password => exact Prog.ensures_bind (ensures_uuid4 fun _ => fun _ => acts_fetchIn hne)
      · refine acts_bind (acts_fetchIn hne) fun credential => ?_
        exact acts_bind (acts_insertAuditLog ⟨rfl, rfl, List.mem_singleton_self _⟩) fun _ => trivial

theorem deactivateAdminCredential_acts (credentialId : UUID) :
    (AdminCredentials.deactivateAdminCredential credentialId principal).Ensures
      (acting principal ["admin_credential.deactivated"]) (fun _ => True) fun _ => True := by
  have hne : ["admin_credential.deactivated"] ≠ [] := List.cons_ne_nil _ _
  refine acts_bind (acts_withConnection (acts_transaction fun tx => ?_)) fun record => ?_
  · refine acts_bind (acts_fetchIn hne) fun beforeRow => ?_
    cases beforeRow with
    | none => trivial
    | some beforeRow =>
      show Prog.Ensures _ (if !(AdminCredentials.rowToRecord beforeRow.1 beforeRow.2).active then _
        else _) _ _
      split
      · trivial
      refine acts_bind (acts_fetchIn hne) fun afterRow => ?_
      cases afterRow with
      | none => trivial
      | some afterRow =>
        exact acts_bind (acts_insertAuditLog ⟨rfl, rfl, List.mem_singleton_self _⟩) fun _ => trivial
  · cases record with
    | none => trivial
    | some record => trivial

theorem rotateAdminCredential_acts (credentialId : UUID) :
    (AdminCredentials.rotateAdminCredential crypto credentialId principal).Ensures
      (acting principal ["admin_credential.rotated", "admin_credential.rotation_created"])
      (fun _ => True) fun _ => True := by
  have hne : ["admin_credential.rotated", "admin_credential.rotation_created"] ≠ [] :=
    List.cons_ne_nil _ _
  refine acts_bind (acts_except ?_) fun created => ?_
  · unfold AdminCredentials.Repository.rotateAdminCredential AdminCredentials.generateAdminApiToken
    refine acts_bind (fun drawn => ?_) fun token => Prog.ensures_bind (ensures_uuid4 fun newId => ?_)
    · show Prog.Ensures _ (if isAdminApiTokenCandidate drawn.tokenUrlsafe then _ else _) _ _
      split
      · trivial
      · trivial
    refine acts_withConnection (acts_transaction fun tx => ?_)
    refine acts_bind (acts_fetchIn hne) fun beforeRow => ?_
    cases beforeRow with
    | none => trivial
    | some beforeRow =>
      show Prog.Ensures _ (if !(AdminCredentials.rowToRecord beforeRow.1 beforeRow.2).active then _
        else _) _ _
      split
      · trivial
      refine acts_bind (acts_fetchIn hne) fun deactivatedRow => ?_
      cases deactivatedRow with
      | none => trivial
      | some deactivatedRow =>
        refine acts_bind ?_ fun _ => trivial
        refine acts_bind (acts_fetchIn hne) fun newRow => ?_
        refine acts_bind (acts_insertAuditLog ⟨rfl, rfl, List.mem_cons_self⟩) fun _ => ?_
        refine acts_bind (acts_insertAuditLog ⟨rfl, rfl, ?_⟩) fun _ => trivial
        exact List.mem_cons_of_mem _ (List.mem_singleton_self _)
  · cases created with
    | none => trivial
    | some created => trivial

theorem createCopyRelationship_acts (payload : CopyRelationshipCreate) :
    (CopyRelationships.Router.createCopyRelationship payload principal).Ensures
      (acting principal ["copy_relationship.created"]) (fun _ => True) fun _ => True := by
  refine acts_except (acts_withConnection (acts_except (acts_transaction fun tx => ?_)))
  refine Prog.ensures_bind (ensures_uuid4 fun id => ?_)
  refine acts_bind (acts_fetchIn (List.cons_ne_nil _ _)) fun record => ?_
  exact acts_bind (acts_insertAuditLog ⟨rfl, rfl, List.mem_singleton_self _⟩) fun _ => trivial

theorem updateCopyRelationship_acts (relationshipId : UUID) (payload : CopyRelationshipUpdate) :
    (CopyRelationships.Router.updateCopyRelationship relationshipId payload principal).Ensures
      (acting principal ["copy_relationship.updated"]) (fun _ => True) fun _ => True := by
  refine acts_bind (acts_except ?_) fun record => ?_
  · refine acts_withConnection (acts_except (acts_transaction fun tx => ?_))
    refine acts_bind (acts_fetchIn (List.cons_ne_nil _ _)) fun before => ?_
    cases before with
    | none => trivial
    | some before =>
      refine acts_bind (acts_fetchIn (List.cons_ne_nil _ _)) fun after => ?_
      cases after with
      | none => trivial
      | some after =>
        exact acts_bind (acts_insertAuditLog ⟨rfl, rfl, List.mem_singleton_self _⟩) fun _ => trivial
  · cases record with
    | none => trivial
    | some record => trivial

/-- **Every operation** acts for its principal. -/
theorem handle_acts (operation : GuardedOperation) :
    (operation.handle crypto principal).Ensures (acting principal operation.actions) (fun _ => True)
      fun _ => True := by
  cases operation with
  | admin operation =>
    refine acts_bind ?_ fun _ => trivial
    cases operation with
    | createExchangeAccount payload => exact acts_bind (createExchangeAccount_acts payload) fun _ => trivial
    | listExchangeAccounts userId status limit offset =>
      refine acts_bind ?_ fun _ => trivial
      exact acts_bind (acts_withConnection (acts_fetch trivial)) fun _ => trivial
    | updateExchangeAccount accountId payload =>
      exact acts_bind (updateExchangeAccount_acts accountId payload) fun _ => trivial
    | createAdminCredential payload => exact acts_bind (createAdminCredential_acts payload) fun _ => trivial
    | listAdminCredentials active limit offset =>
      refine acts_bind (acts_bind ?_ fun _ => trivial) fun _ => trivial
      exact acts_bind (acts_withConnection (acts_fetch trivial)) fun _ => trivial
    | deactivateAdminCredential credentialId =>
      exact acts_bind (deactivateAdminCredential_acts credentialId) fun _ => trivial
    | rotateAdminCredential credentialId =>
      exact acts_bind (rotateAdminCredential_acts credentialId) fun _ => trivial
  | createCopyRelationship payload => exact acts_bind (createCopyRelationship_acts payload) fun _ => trivial
  | updateCopyRelationship relationshipId payload =>
    exact acts_bind (updateCopyRelationship_acts relationshipId payload) fun _ => trivial

end

/-! ## The routes -/

/-- The login of a payload found this user and its password. -/
structure Recognised (crypto : Crypto) (payload : LoginRequest) (found : Heard identity → Prop)
    (row : PasswordLoginMatch) : Prop where
  answered : found ⟨.selectPasswordLogin payload.email, some row⟩
  password : crypto.verifyPassword payload.password row.passwordHash = true

/-- The login found no such user, or another password. -/
def Rejected (crypto : Crypto) (payload : LoginRequest) (found : Heard identity → Prop) : Prop :=
  ∃ row : Option PasswordLoginMatch, found ⟨.selectPasswordLogin payload.email, row⟩ ∧
    ∀ r ∈ row, crypto.verifyPassword payload.password r.passwordHash = false

/-- What the answers permit a login: the session of the user that it recognised, with its entry;
or the entry of a login that failed. -/
def LoginPermits (crypto : Crypto) (payload : LoginRequest) (heard : List (Heard identity)) :
    Sql.Call identity → Prop
  | .run _ (.insertSession _ userId _ _ _) =>
    ∃ row, Recognised crypto payload (· ∈ heard) row ∧ userId = row.userId
  | .run _ (.updatePasswordLastUsed _) => True
  | .run _ (.insertAuditLog _ entry) => ∃ row, Recognised crypto payload (· ∈ heard) row ∧
      entry.actorType = .user ∧ entry.actorId = some row.userId.str ∧ entry.action = "auth.login.succeeded"
  | .run _ _ => False
  | .query (.insertAuditLog _ entry) => Rejected crypto payload (· ∈ heard) ∧
      entry.actorType = .system ∧ entry.actorId = none ∧ entry.action = "auth.login.failed"
  | .query (.revokeSession _) => False
  | _ => True

/-- The token is that of a session which the CSRF token belongs to. -/
def Authenticated (crypto : Crypto) (sessionToken csrfToken : Option Text) (found : Heard identity → Prop)
    (token : Text) : Prop :=
  sessionToken = some token ∧ ∃ row : SessionMatch,
    found ⟨.selectSession (crypto.hashApiToken token), some row⟩ ∧
    csrfPasses crypto csrfToken true row.csrfTokenHash = true

/-- What the answers permit a logout: to revoke the session that was authenticated with its CSRF
token, and the entry of the session that it revoked. -/
def LogoutPermits (crypto : Crypto) (sessionToken csrfToken : Option Text)
    (heard : List (Heard identity)) : Sql.Call identity → Prop
  | .run _ _ => False
  | .query (.revokeSession d) => ∃ token, Authenticated crypto sessionToken csrfToken (· ∈ heard) token ∧
      d = crypto.hashApiToken token
  | .query (.insertAuditLog _ entry) => ∃ token id userId,
      Authenticated crypto sessionToken csrfToken (· ∈ heard) token ∧
      ⟨.revokeSession (crypto.hashApiToken token), some (id, userId)⟩ ∈ heard ∧
      entry.actorType = .user ∧ entry.actorId = some userId.str ∧ entry.entityId = some id ∧
      entry.action = "auth.logout"
  | _ => True

/-- What the answers permit a route behind `require_admin_token`: what acts for the principal that
they show. -/
def GuardedPermits (crypto : Crypto) (settings : Settings) (request : AdmissionRequest)
    (actions : List String) (heard : List (Heard identity)) : Sql.Call identity → Prop
  | .run _ c => ∃ principal, Shown crypto settings request (· ∈ heard) principal ∧
      StmtActsFor principal actions c
  | .query (.insertAuditLog _ _) => False
  | .query (.revokeSession _) => False
  | _ => True

def ApiRequest.Permits (crypto : Crypto) (settings : Settings) :
    ApiRequest → List (Heard identity) → Sql.Call identity → Prop
  | .login payload => LoginPermits crypto payload
  | .session _ => fun _ c => AdmissionCall c
  | .logout sessionToken csrfToken => LogoutPermits crypto sessionToken csrfToken
  | .guarded request operation => GuardedPermits crypto settings request operation.actions

section

variable {crypto : Crypto} {settings : Settings}

theorem lets_logout {sessionToken csrfToken : Option Text} :
    Lets (LogoutPermits crypto sessionToken csrfToken) := by
  intro l c hc
  cases c with
  | query q =>
    cases q with
    | insertAuditLog id entry => exact hc.elim
    | revokeSession d => exact hc.elim
    | _ => trivial
  | run tx c => exact hc.elim
  | _ => trivial

theorem lets_guarded {request : AdmissionRequest} {actions : List String} :
    Lets (GuardedPermits crypto settings request actions) := by
  intro l c hc
  cases c with
  | query q =>
    cases q with
    | insertAuditLog id entry => exact hc.elim
    | revokeSession d => exact hc.elim
    | _ => trivial
  | run tx c => exact hc.elim
  | _ => trivial

/-- **A guarded route** writes nothing before its request is admitted, and then in the name of
its principal. -/
theorem guarded_keeps (request : AdmissionRequest) (operation : GuardedOperation) :
    (guarded crypto settings request operation).Obeys
      (Sql.hearing (GuardedPermits crypto settings request operation.actions)) [] (fun _ _ => True)
      fun _ _ => True := by
  refine Prog.obeys_bind ((requireAdminToken_shows lets_guarded).mono
    (fun l principal hshown => ?_) fun _ _ _ => trivial)
  have hcalls : ∀ l' c, l ⊆ l' → CallActsFor principal operation.actions c →
      GuardedPermits crypto settings request operation.actions l' c := by
    intro l' c hl hc
    cases c with
    | run tx c => exact ⟨principal, hshown.mono fun x hx => hl hx, hc⟩
    | query q =>
      cases q with
      | insertAuditLog id entry => exact hc
      | revokeSession d => exact hc
      | _ => trivial
    | _ => trivial
  exact (Sql.hearing_ensures hcalls (fun _ _ => trivial) (handle_acts operation)
    (List.Subset.refl l)).mono (fun _ _ _ => trivial) fun _ _ _ => trivial

theorem recordFailedLogin_keeps {payload : LoginRequest} {heard : List (Heard identity)}
    (h : Rejected crypto payload (· ∈ heard)) (userId : Option UUID) :
    (recordFailedLogin payload.email userId).Obeys (Sql.hearing (LoginPermits crypto payload)) heard
      (fun _ _ => True) fun _ _ => True :=
  fun _ => Prog.obeys_call (P := Sql.hearing (LoginPermits crypto payload)) (c := .query _)
    ⟨h, rfl, rfl, rfl⟩ (fun _ => trivial) fun _ => trivial

/-- What a login may call once it found the row. -/
abbrev recognising (crypto : Crypto) (payload : LoginRequest) (row : PasswordLoginMatch) :
    Async.Rely IdentityApi where
  calls c := ∀ l, [(⟨.selectPasswordLogin payload.email, some row⟩ : Heard identity)] ⊆ l →
    LoginPermits crypto payload l c
  answers _ _ := True

/-- **A login** inserts the session of the user whose password it verified. -/
theorem login_keeps (sessionTtlMinutes : ℤ) (payload : LoginRequest) :
    (login crypto sessionTtlMinutes payload).Obeys (Sql.hearing (LoginPermits crypto payload)) []
      (fun _ _ => True) fun _ _ => True := by
  unfold login
  refine Sql.hearing_withConnection (fun _ => trivial) (fun _ => trivial) ?_
  refine Prog.obeys_bind (Sql.hearing_query trivial (fun row => ?_) fun _ => trivial)
  cases row with
  | none =>
    have hrejected : Rejected crypto payload
        (· ∈ [(⟨.selectPasswordLogin payload.email, none⟩ : Heard identity)]) :=
      ⟨none, List.mem_singleton_self _, fun r hr => (by cases hr)⟩
    exact Prog.obeys_bind ((recordFailedLogin_keeps hrejected none).mono (fun _ _ _ => trivial)
      fun _ _ _ => trivial)
  | some row =>
    show Prog.Obeys _ (if !crypto.verifyPassword payload.password row.passwordHash then _ else _) _ _ _
    split
    · rename_i hpassword
      have hrejected : Rejected crypto payload
          (· ∈ [(⟨.selectPasswordLogin payload.email, some row⟩ : Heard identity)]) := by
        refine ⟨some row, List.mem_singleton_self _, fun r hr => ?_⟩
        cases hr
        simpa using hpassword
      exact Prog.obeys_bind ((recordFailedLogin_keeps hrejected (some row.userId)).mono
        (fun _ _ _ => trivial) fun _ _ _ => trivial)
    rename_i hpassword
    have hrecognised : ∀ l, [(⟨.selectPasswordLogin payload.email, some row⟩ : Heard identity)] ⊆ l →
        Recognised crypto payload (· ∈ l) row := fun l hl =>
      ⟨hl (List.mem_singleton_self _), by simpa using hpassword⟩
    intro session csrf n
    have hcreate : (createSession crypto payload.email row.userId n.uuid4 row.passwordCredentialId
        row.roles session.tokenUrlsafe csrf.tokenUrlsafe
        (csrf.utcNow + sessionTtlMinutes * 60000000)).Ensures (recognising crypto payload row)
        (fun _ => True) fun _ => True := by
      refine Sql.ensures_transaction (A := recognising crypto payload row) (fun _ _ => trivial)
        (fun _ _ _ => trivial) (fun _ _ _ => trivial) (fun _ _ _ => trivial) fun tx => ?_
      refine Prog.ensures_bind (Prog.ensures_call (A := recognising crypto payload row)
        (fun l hl => ⟨row, hrecognised l hl, rfl⟩) (fun _ _ => ?_) fun _ _ => trivial)
      refine Prog.ensures_bind (Prog.ensures_call (A := recognising crypto payload row)
        (fun _ _ => trivial) (fun _ _ => ?_) fun _ _ => trivial)
      refine Prog.ensures_bind (ensures_uuid4 fun _ => ?_)
      exact Prog.ensures_call (A := recognising crypto payload row)
        (fun l hl => ⟨row, hrecognised l hl, rfl, rfl, rfl⟩) (fun _ _ => trivial) fun _ _ => trivial
    show Prog.Obeys _ (createSession crypto payload.email row.userId n.uuid4 row.passwordCredentialId
      row.roles session.tokenUrlsafe csrf.tokenUrlsafe _ >>= _) _ _ _
    exact Prog.obeys_bind ((Sql.hearing_ensures (A := recognising crypto payload row)
      (fun l c hl hc => hc l hl) (fun _ _ => trivial) hcreate (List.Subset.refl _)).mono
      (fun _ _ _ => trivial) fun _ _ _ => trivial)

/-- **A logout** inserts the entry of the session that it authenticated and revoked. -/
theorem logout_keeps (sessionToken csrfToken : Option Text) :
    (logout crypto sessionToken csrfToken).Obeys
      (Sql.hearing (LogoutPermits crypto sessionToken csrfToken)) [] (fun _ _ => True)
      fun _ _ => True := by
  cases sessionToken with
  | none => trivial
  | some token =>
    refine Prog.obeys_bind ((authenticateSession_shows lets_logout token csrfToken true).mono
      (fun l session hs => ?_) fun _ _ _ => trivial)
    cases session with
    | none => trivial
    | some session =>
      obtain ⟨row, hrow, hcsrf, -⟩ := hs session rfl
      refine Sql.hearing_withConnection (fun _ => trivial) (fun _ => trivial) ?_
      refine Prog.obeys_bind (Sql.hearing_query ⟨token, ⟨rfl, row, hrow, hcsrf⟩, rfl⟩ (fun revoked => ?_)
        fun _ => trivial)
      cases revoked with
      | none => trivial
      | some revoked =>
        intro n
        refine Sql.hearing_query ?_ (fun _ => trivial) fun _ => trivial
        exact ⟨token, revoked.1, revoked.2, ⟨rfl, row, List.mem_cons_of_mem _ hrow, hcsrf⟩,
          List.mem_cons_self, rfl, rfl, rfl, rfl⟩

/-- **Every route** keeps to what the answers permit. -/
theorem ApiRequest.keeps (sessionTtlMinutes : ℤ) (request : ApiRequest) :
    (request.program crypto settings sessionTtlMinutes).Keeps
      (Sql.hearing (request.Permits crypto settings)) [] := by
  refine Prog.obeys_bind ?_
  cases request with
  | login payload =>
    refine Prog.obeys_bind (Prog.obeys_bind (Prog.obeys_tryExcept ?_))
    refine (login_keeps sessionTtlMinutes payload).mono (fun l created _ => ?_) fun _ _ _ => trivial
    refine Prog.obeys_bind (Prog.obeys_bind ?_)
    unfold requireUserId
    split
    · trivial
    · trivial
  | session sessionToken =>
    refine Prog.obeys_bind ?_
    cases sessionToken with
    | none => trivial
    | some token =>
      refine Prog.obeys_bind ((authenticateSession_shows (fun _ _ hc => hc) token none false).mono
        (fun l session _ => ?_) fun _ _ _ => trivial)
      cases session with
      | none => trivial
      | some session =>
        show Prog.Obeys _ (requireUserId session.principal >>= _) _ _ _
        unfold requireUserId
        split
        · trivial
        · trivial
  | logout sessionToken csrfToken =>
    exact Prog.obeys_bind ((logout_keeps sessionToken csrfToken).mono (fun _ _ _ => trivial)
      fun _ _ _ => trivial)
  | guarded request operation =>
    exact (guarded_keeps request operation).mono (fun _ _ _ => trivial) fun _ _ _ => trivial

end

end CopyTrade
