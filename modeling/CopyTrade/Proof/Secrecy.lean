import CopyTrade.Proof.Redaction
import CopyTrade.Sql.Alone

/-!
# Secrets do not reach responses

Two runs of one sequence of admin requests that differ in secrets only, side by side.

* `fetchIn_beside`: a statement of a transaction, beside one that differs in secrets only.
* `handle_beside`: the routes give responses that differ in the token only.
* `SecretsWithheld`: so do whole runs, and they write the same audit rows.
-/

namespace CopyTrade

open Async (Prog Lockstep)
open Identity
open Python (Text)
open Sql (Between Inside)

variable {F F' : List Digest} {now : Timestamp} {s t : Tables} {h h' : Digest}

/-! ## The repositories -/

/-- Draws that differ in the token after its 8th character, and in the salt. -/
structure SameDrawn (a b : Drawn) : Prop where
  uuid4 : a.uuid4 = b.uuid4
  utcNow : a.utcNow = b.utcNow
  length : a.tokenUrlsafe.length = b.tokenUrlsafe.length
  tokenPrefix : a.tokenUrlsafe.take AdminCredentials.tokenPrefixLength =
    b.tokenUrlsafe.take AdminCredentials.tokenPrefixLength

/-- A program of one run beside one of the other. -/
abbrev Beside {α β : Type} := Lockstep (α := α) (β := β) (Sql.server identity Drawn ApiError)
  (Sql.server identity Drawn ApiError) Identity.refusal

/-- Between two transactions. -/
abbrev Outside (F F' : List Digest) := Between (S := identity) SameDrawn (Low F F')

/-- In a transaction, whose tables differed like that when it began. -/
abbrev During (tx : ℕ) (G G' F F' : List Digest) :=
  Inside (S := identity) SameDrawn tx (Low G G') (Low F F')

/-- In a transaction that will be rolled back. -/
abbrev Broken (tx : ℕ) (G G' : List Digest) (w w' : Sql.Server identity Drawn) : Prop :=
  ∃ L, Inside (S := identity) SameDrawn tx (Low G G') L w w'

variable {G G' K K' : List Digest} {tx : ℕ}

/-- **A statement of a transaction**, beside one that differs in secrets only. -/
theorem fetchIn_beside {c d : Stmt} {Q : Ret c → Ret d → Prop} (href : c.Fits ↔ d.Fits)
    (h : ∀ now s t, Low F F' s t → Option.Rel (fun a b => Q a.1 b.1 ∧ Low K K' a.2 b.2)
      (exec c now s) (exec d now t)) :
    Beside (During tx G G' F F') (fetchIn tx c) (fetchIn tx d)
      (fun a b w w' => Q a b ∧ During tx G G' K K' w w') fun _ => Broken tx G G' := by
  have hraise : refusal (.run tx c) = refusal (.run tx d) := by
    simp only [refusal, href]
  exact (Sql.lockstep_run hraise h).mono (fun _ _ hin => hin) (fun _ _ _ _ hab => hab)
    fun _ _ _ hin => ⟨_, hin⟩

/-- **A statement by itself**, in both. -/
theorem fetch_beside {q : Query} {Q : Answer q → Answer q → Prop}
    (h : ∀ now s t, Low F F' s t → Option.Rel (fun a b => Q a.1 b.1 ∧ Low F F' a.2 b.2)
      (query q now s) (query q now t)) :
    Beside (Outside F F') (fetch q) (fetch q) (fun a b w w' => Q a b ∧ Outside F F' w w')
      fun _ => Outside F F' :=
  Sql.lockstep_query rfl h

theorem uuid4_beside : Beside (During tx G G' F F') uuid4 uuid4
    (fun a b w w' => a = b ∧ During tx G G' F F' w w') fun _ => Broken tx G G' := by
  unfold uuid4
  refine Async.lockstep_bind (Sql.lockstep_name_inside.mono (fun _ _ hin => hin)
    (fun _ _ _ _ hab => hab) fun _ _ _ hin => ⟨_, hin⟩) fun a b => Async.lockstep_given fun hab => ?_
  exact Async.lockstep_done fun _ _ hin => ⟨hab.uuid4, hin⟩

theorem uuid4_outside : Beside (Outside F F') uuid4 uuid4
    (fun a b w w' => a = b ∧ Outside F F' w w') fun _ => Outside F F' := by
  unfold uuid4
  refine Async.lockstep_bind Sql.lockstep_name_between fun a b => Async.lockstep_given fun hab => ?_
  exact Async.lockstep_done fun _ _ hin => ⟨hab.uuid4, hin⟩

/-- **The same audit entry** in both. -/
theorem insertAuditLog_beside {e e' : AuditEntry AuditState} (he : e = e') :
    Beside (During tx G G' F F') (insertAuditLog tx e) (insertAuditLog tx e')
      (fun _ _ => During tx G G' F F') fun _ => Broken tx G G' := by
  subst he
  unfold insertAuditLog
  refine Async.lockstep_bind uuid4_beside fun id id' => Async.lockstep_given fun hid => ?_
  subst hid
  exact (fetchIn_beside Iff.rfl fun now s t hl => insertAuditLog_low hl id e).mono
    (fun _ _ hin => hin) (fun _ _ _ _ hab => hab.2) fun _ _ _ hin => hin

/-! ### Exchange accounts -/

theorem exchangeAccountEntry_same {principal : AuthenticatedPrincipal} {action : String}
    {x y : Option ExchangeAccountRecord} {a b : ExchangeAccountRecord}
    (hxy : Option.Rel SameAccount x y) (hab : SameAccount a b) :
    FoundationControls.exchangeAccountEntry principal action x a =
      FoundationControls.exchangeAccountEntry principal action y b := by
  have hid : a.id = b.id := sameAccount_id hab
  cases hxy with
  | none => simp only [FoundationControls.exchangeAccountEntry, hab.1, hid, Option.map_none]
  | some hxy => simp only [FoundationControls.exchangeAccountEntry, hab.1, hid, Option.map_some, hxy.1]

theorem createExchangeAccount_repository {p q : ExchangeAccountCreate} (hpq : SameCreate p q)
    (hstore : p.Storable ↔ q.Storable) (principal : AuthenticatedPrincipal) :
    Beside (Outside F F') (FoundationControls.Repository.createExchangeAccount p principal)
      (FoundationControls.Repository.createExchangeAccount q principal)
      (fun a b w w' => SameAccount a b ∧ Outside F F' w w') fun _ => Outside F F' := by
  unfold FoundationControls.Repository.createExchangeAccount
  refine Sql.lockstep_withConnection (Async.lockstep_tryExcept
    (Sql.lockstep_transaction fun tx => ?_) fun e => Async.lockstep_fail fun _ _ hin => hin)
  refine Async.lockstep_bind uuid4_beside fun id id' => Async.lockstep_given fun hid => ?_
  subst hid
  refine Async.lockstep_bind (fetchIn_beside hstore fun now s t hl =>
    insertExchangeAccount_low hl hpq hstore id) fun a b => Async.lockstep_given fun hab => ?_
  rw [hpq.userId]
  refine Async.lockstep_bind (fetchIn_beside Iff.rfl fun now s t hl => userExists_low hl q.userId)
    fun found found' => Async.lockstep_given fun hfound => ?_
  subst hfound
  cases found with
  | false => exact Async.lockstep_fail fun _ _ hin => ⟨_, hin⟩
  | true =>
    refine Async.lockstep_bind (insertAuditLog_beside (exchangeAccountEntry_same .none hab))
      fun _ _ => ?_
    exact Async.lockstep_done fun _ _ hin => ⟨hab, hin⟩

theorem hasAssignments_same {p q : ExchangeAccountUpdate} (hpq : SameUpdate p q) :
    FoundationControls.Repository.HasAssignments p ↔
      FoundationControls.Repository.HasAssignments q := by
  have hreference : p.secretReference = none ↔ q.secretReference = none := by
    rw [← Option.map_eq_none_iff (f := Option.isSome), hpq.secretReference, Option.map_eq_none_iff]
  have hfingerprint : p.secretFingerprint = none ↔ q.secretFingerprint = none := by
    rw [← Option.map_eq_none_iff (f := fingerprintPrefix), hpq.secretFingerprint,
      Option.map_eq_none_iff]
  unfold FoundationControls.Repository.HasAssignments
  simp only [ne_eq, hpq.label, hpq.status, hreference, hfingerprint]

theorem updateExchangeAccount_repository {p q : ExchangeAccountUpdate} (hpq : SameUpdate p q)
    (hstore : p.Storable ↔ q.Storable) (accountId : UUID) (principal : AuthenticatedPrincipal) :
    Beside (Outside F F') (FoundationControls.Repository.updateExchangeAccount accountId p principal)
      (FoundationControls.Repository.updateExchangeAccount accountId q principal)
      (fun a b w w' => Option.Rel SameAccount a b ∧ Outside F F' w w') fun _ => Outside F F' := by
  unfold FoundationControls.Repository.updateExchangeAccount
  by_cases hp : FoundationControls.Repository.HasAssignments p
  case neg =>
    rw [if_pos hp, if_pos fun hq => hp ((hasAssignments_same hpq).2 hq)]
    exact Async.lockstep_done fun _ _ hin => ⟨.none, hin⟩
  rw [if_neg (not_not.2 hp), if_neg (not_not.2 ((hasAssignments_same hpq).1 hp))]
  refine Sql.lockstep_withConnection (Sql.lockstep_transaction fun tx => ?_)
  refine Async.lockstep_bind (fetchIn_beside Iff.rfl fun now s t hl =>
    selectExchangeAccountByIdForUpdate_low hl accountId) fun x y => Async.lockstep_given fun hxy => ?_
  cases hxy with
  | none => exact Async.lockstep_done fun _ _ hin => ⟨.none, hin⟩
  | some hbefore =>
    refine Async.lockstep_bind (fetchIn_beside hstore fun now s t hl =>
      updateExchangeAccount_low hl hpq hstore accountId) fun a b => Async.lockstep_given fun hab => ?_
    cases hab with
    | none => exact Async.lockstep_done fun _ _ hin => ⟨.none, hin⟩
    | some hafter =>
      refine Async.lockstep_bind
        (insertAuditLog_beside (exchangeAccountEntry_same (.some hbefore) hafter)) fun _ _ => ?_
      exact Async.lockstep_done fun _ _ hin => ⟨.some hafter, hin⟩

/-! ### Credentials -/

theorem rowToRecord_same {a b : ApiCredentialRow} (hab : SameCredential a b) (user : Identity.UserRow) :
    AdminCredentials.rowToRecord a user = AdminCredentials.rowToRecord b user := by
  obtain ⟨h, rfl⟩ := hab
  rfl

variable {crypto : Crypto}

theorem upsertPassword_beside (userId : UUID) {p q : Option Text} (hpq : p.isSome = q.isSome) :
    Beside (During tx G G' F F') (AdminCredentials.Repository.upsertPassword crypto tx userId p)
      (AdminCredentials.Repository.upsertPassword crypto tx userId q)
      (fun _ _ => During tx G G' F F') fun _ => Broken tx G G' := by
  cases p with
  | none =>
    cases q with
    | none => exact Async.lockstep_done fun _ _ hin => hin
    | some q => cases hpq
  | some p =>
    cases q with
    | none => cases hpq
    | some q =>
      refine Async.lockstep_bind uuid4_beside fun id id' => Async.lockstep_given fun hid => ?_
      subst hid
      refine Async.lockstep_bind (Sql.lockstep_name_inside.mono (fun _ _ hin => hin)
        (fun _ _ _ _ hab => hab) fun _ _ _ hin => ⟨_, hin⟩) fun a b =>
          Async.lockstep_given fun _ => ?_
      have hupsert : Beside (During tx G G' F F')
          (fetchIn tx (.upsertPasswordCredential id userId (crypto.hashPassword p a.tokenBytes)))
          (fetchIn tx (.upsertPasswordCredential id userId (crypto.hashPassword q b.tokenBytes)))
          (fun a b w w' => a = b ∧ During tx G G' F F' w w') fun _ => Broken tx G G' :=
        fetchIn_beside Iff.rfl fun now s t hl => upsertPasswordCredential_low hl id userId _ _
      exact hupsert.mono (fun _ _ hin => hin) (fun _ _ _ _ hab => hab.2) fun _ _ _ hin => hin

/-- **A new credential** for a token that is fresh in its run. -/
theorem insertAdminCredentialRow_beside {token token' : Text}
    (hshown : token.take AdminCredentials.tokenPrefixLength =
      token'.take AdminCredentials.tokenPrefixLength)
    (hF : crypto.hashApiToken token ∉ F) (hF' : crypto.hashApiToken token' ∉ F') (id userId : UUID) :
    Beside (During tx G G' (crypto.hashApiToken token :: F) (crypto.hashApiToken token' :: F'))
      (AdminCredentials.Repository.insertAdminCredentialRow crypto tx id userId token)
      (AdminCredentials.Repository.insertAdminCredentialRow crypto tx id userId token')
      (fun a b w w' => SameCredential a b ∧ During tx G G' F F' w w') fun _ => Broken tx G G' := by
  unfold AdminCredentials.Repository.insertAdminCredentialRow
  rw [hshown]
  exact fetchIn_beside Iff.rfl fun now s t hl => insertAdminCredential_low hl hF hF' id userId _

theorem createFor_beside {p q : AdminCredentials.AdminCredentialCreate}
    (hpassword : p.password.isSome = q.password.isSome) {token token' : Text}
    (hshown : token.take AdminCredentials.tokenPrefixLength =
      token'.take AdminCredentials.tokenPrefixLength)
    (hF : crypto.hashApiToken token ∉ F) (hF' : crypto.hashApiToken token' ∉ F')
    (principal : AuthenticatedPrincipal) (credentialId : UUID) (user : Identity.UserRow) (adminRoleId : UUID) :
    Beside (During tx G G' (crypto.hashApiToken token :: F) (crypto.hashApiToken token' :: F'))
      (AdminCredentials.Repository.createFor crypto tx p principal token credentialId user adminRoleId)
      (AdminCredentials.Repository.createFor crypto tx q principal token' credentialId user adminRoleId)
      (fun a b w w' => a = b ∧ During tx G G' F F' w w') fun _ => Broken tx G G' := by
  unfold AdminCredentials.Repository.createFor
  refine Async.lockstep_bind (fetchIn_beside Iff.rfl fun now s t hl =>
    insertUserRole_low hl user.id adminRoleId) fun _ _ => Async.lockstep_given fun _ => ?_
  refine Async.lockstep_bind (upsertPassword_beside user.id hpassword) fun _ _ => ?_
  refine Async.lockstep_bind (insertAdminCredentialRow_beside hshown hF hF' credentialId user.id)
    fun a b => Async.lockstep_given fun hab => ?_
  rw [rowToRecord_same hab user]
  refine Async.lockstep_bind (insertAuditLog_beside rfl) fun _ _ => ?_
  exact Async.lockstep_done fun _ _ hin => ⟨rfl, hin⟩

/-- The next draws of the two runs. -/
def Next (d d' : Drawn) (w w' : Sql.Server identity Drawn) : Prop :=
  w.supply w.issued = d ∧ w'.supply w'.issued = d'

theorem generateAdminApiToken_beside {d d' : Drawn} :
    Beside (fun w w' => Next d d' w w' ∧ Outside F F' w w') AdminCredentials.generateAdminApiToken
      AdminCredentials.generateAdminApiToken
      (fun a b w w' => (a = d.tokenUrlsafe ∧ b = d'.tokenUrlsafe ∧ SameDrawn d d') ∧ Outside F F' w w')
      fun _ => Outside F F' := by
  unfold AdminCredentials.generateAdminApiToken
  have hname : Beside (fun w w' => Next d d' w w' ∧ Outside F F' w w')
      (Prog.name (σ := IdentityApi)) (Prog.name (σ := IdentityApi))
      (fun a b w w' => (a = d ∧ b = d' ∧ SameDrawn d d') ∧ Outside F F' w w')
      fun _ => Outside F F' := by
    refine Async.lockstep_name fun w w' hin => ?_
    obtain ⟨⟨rfl, rfl⟩, hlevel, s, t, hs, ht, hst⟩ := hin
    have hsame := hlevel.supply w.issued
    refine ⟨⟨rfl, rfl, by rw [← hlevel.issued]; exact hsame⟩,
      ⟨hlevel.clock, hlevel.opened, congrArg (· + 1) hlevel.issued, hlevel.supply⟩, s, t, hs, ht, hst⟩
  refine Async.lockstep_bind hname fun a b => Async.lockstep_given fun hab => ?_
  obtain ⟨rfl, rfl, hsame⟩ := hab
  have hcandidate : isAdminApiTokenCandidate a.tokenUrlsafe =
      isAdminApiTokenCandidate b.tokenUrlsafe := by
    unfold isAdminApiTokenCandidate
    rw [hsame.length]
  rw [hcandidate]
  split
  · exact Async.lockstep_done fun _ _ hin => ⟨⟨rfl, rfl, hsame⟩, hin⟩
  · exact Async.lockstep_fail fun _ _ hin => hin

/-- The same created credential, but for its token. -/
def SameCreated (a b : AdminCredentials.CreatedAdminCredential) : Prop := a.record = b.record

theorem Outside.tail {w w' : Sql.Server identity Drawn} (hw : Outside (h :: F) (h' :: F') w w') :
    Outside F F' w w' :=
  hw.mono fun _ _ => Low.tail

theorem createAdminCredential_repository {d d' : Drawn}
    {p q : AdminCredentials.AdminCredentialCreate} (hemail : p.email = q.email)
    (hname : p.displayName = q.displayName) (hpassword : p.password.isSome = q.password.isSome)
    (hF : crypto.hashApiToken d.tokenUrlsafe ∉ F) (hF' : crypto.hashApiToken d'.tokenUrlsafe ∉ F')
    (principal : AuthenticatedPrincipal) :
    Beside (fun w w' => Next d d' w w' ∧ Outside (crypto.hashApiToken d.tokenUrlsafe :: F)
        (crypto.hashApiToken d'.tokenUrlsafe :: F') w w')
      (AdminCredentials.Repository.createAdminCredential crypto p principal)
      (AdminCredentials.Repository.createAdminCredential crypto q principal)
      (fun a b w w' => SameCreated a b ∧ Outside F F' w w')
      fun _ => Outside (crypto.hashApiToken d.tokenUrlsafe :: F)
        (crypto.hashApiToken d'.tokenUrlsafe :: F') := by
  unfold AdminCredentials.Repository.createAdminCredential
  refine Async.lockstep_bind generateAdminApiToken_beside fun token token' =>
    Async.lockstep_given fun htokens => ?_
  obtain ⟨rfl, rfl, hsame⟩ := htokens
  refine Async.lockstep_bind uuid4_outside fun id id' => Async.lockstep_given fun hid => ?_
  subst hid
  refine Async.lockstep_bind (Q := fun a b w w' => a = b ∧ Outside F F' w w')
    (Sql.lockstep_withConnection (Sql.lockstep_transaction fun tx => ?_)) fun a b =>
      Async.lockstep_given fun hab => Async.lockstep_done fun _ _ hin => ⟨hab, hin⟩
  refine Async.lockstep_bind uuid4_beside fun userId userId' => Async.lockstep_given fun huser => ?_
  subst huser
  rw [hemail, hname]
  refine Async.lockstep_bind (fetchIn_beside Iff.rfl fun now s t hl =>
    upsertActiveUser_low hl userId q.email q.displayName) fun x y => Async.lockstep_given fun hxy => ?_
  subst hxy
  cases x with
  | none => exact Async.lockstep_fail fun _ _ hin => ⟨_, hin⟩
  | some user =>
    refine Async.lockstep_bind (fetchIn_beside Iff.rfl fun now s t hl =>
      selectAdminRoleId_low hl adminRole) fun r r' => Async.lockstep_given fun hr => ?_
    subst hr
    cases r with
    | none => exact Async.lockstep_fail fun _ _ hin => ⟨_, hin⟩
    | some adminRoleId =>
      exact createFor_beside hpassword hsame.tokenPrefix hF hF' principal id user adminRoleId

theorem deactivateAdminCredential_repository (credentialId : UUID)
    (principal : AuthenticatedPrincipal) :
    Beside (Outside F F') (AdminCredentials.Repository.deactivateAdminCredential credentialId principal)
      (AdminCredentials.Repository.deactivateAdminCredential credentialId principal)
      (fun a b w w' => a = b ∧ Outside F F' w w') fun _ => Outside F F' := by
  unfold AdminCredentials.Repository.deactivateAdminCredential
  refine Sql.lockstep_withConnection (Sql.lockstep_transaction fun tx => ?_)
  refine Async.lockstep_bind (fetchIn_beside Iff.rfl fun now s t hl =>
    selectAdminCredentialByIdForUpdate_low hl credentialId adminApiCredentialType) fun x y =>
      Async.lockstep_given fun hxy => ?_
  cases hxy with
  | none => exact Async.lockstep_done fun _ _ hin => ⟨rfl, hin⟩
  | @some a b hab =>
    obtain ⟨c, user⟩ := a
    obtain ⟨c', user'⟩ := b
    obtain ⟨hc, huser⟩ := hab
    cases huser
    dsimp only
    rw [rowToRecord_same hc user]
    split
    · exact Async.lockstep_done fun _ _ hin => ⟨rfl, hin⟩
    · refine Async.lockstep_bind (fetchIn_beside Iff.rfl fun now s t hl =>
        deactivateAdminCredential_low hl credentialId) fun x y => Async.lockstep_given fun hxy => ?_
      cases hxy with
      | none => exact Async.lockstep_done fun _ _ hin => ⟨rfl, hin⟩
      | some hafter =>
        dsimp only
        rw [rowToRecord_same hafter user]
        refine Async.lockstep_bind (insertAuditLog_beside rfl) fun _ _ => ?_
        exact Async.lockstep_done fun _ _ hin => ⟨rfl, hin⟩

theorem rotateTo_beside {token token' : Text}
    (hshown : token.take AdminCredentials.tokenPrefixLength =
      token'.take AdminCredentials.tokenPrefixLength)
    (hF : crypto.hashApiToken token ∉ F) (hF' : crypto.hashApiToken token' ∉ F')
    (principal : AuthenticatedPrincipal) (id : UUID) (before afterOld : AdminCredentialRecord)
    (user : Identity.UserRow) :
    Beside (During tx G G' (crypto.hashApiToken token :: F) (crypto.hashApiToken token' :: F'))
      (AdminCredentials.Repository.rotateTo crypto tx principal token id before afterOld user)
      (AdminCredentials.Repository.rotateTo crypto tx principal token' id before afterOld user)
      (fun a b w w' => a = b ∧ During tx G G' F F' w w') fun _ => Broken tx G G' := by
  unfold AdminCredentials.Repository.rotateTo
  refine Async.lockstep_bind (insertAdminCredentialRow_beside hshown hF hF' id before.userId)
    fun a b => Async.lockstep_given fun hab => ?_
  rw [rowToRecord_same hab user]
  refine Async.lockstep_bind (insertAuditLog_beside rfl) fun _ _ => ?_
  refine Async.lockstep_bind (insertAuditLog_beside rfl) fun _ _ => ?_
  exact Async.lockstep_done fun _ _ hin => ⟨rfl, hin⟩

theorem rotateAdminCredential_repository {d d' : Drawn}
    (hF : crypto.hashApiToken d.tokenUrlsafe ∉ F) (hF' : crypto.hashApiToken d'.tokenUrlsafe ∉ F')
    (credentialId : UUID) (principal : AuthenticatedPrincipal) :
    Beside (fun w w' => Next d d' w w' ∧ Outside (crypto.hashApiToken d.tokenUrlsafe :: F)
        (crypto.hashApiToken d'.tokenUrlsafe :: F') w w')
      (AdminCredentials.Repository.rotateAdminCredential crypto credentialId principal)
      (AdminCredentials.Repository.rotateAdminCredential crypto credentialId principal)
      (fun a b w w' => Option.Rel SameCreated a b ∧ Outside F F' w w')
      fun _ => Outside (crypto.hashApiToken d.tokenUrlsafe :: F)
        (crypto.hashApiToken d'.tokenUrlsafe :: F') := by
  unfold AdminCredentials.Repository.rotateAdminCredential
  refine Async.lockstep_bind generateAdminApiToken_beside fun token token' =>
    Async.lockstep_given fun htokens => ?_
  obtain ⟨rfl, rfl, hsame⟩ := htokens
  refine Async.lockstep_bind uuid4_outside fun id id' => Async.lockstep_given fun hid => ?_
  subst hid
  refine Sql.lockstep_withConnection (Sql.lockstep_transaction fun tx => ?_)
  refine Async.lockstep_bind (fetchIn_beside Iff.rfl fun now s t hl =>
    selectAdminCredentialByIdForUpdate_low hl credentialId adminApiCredentialType) fun x y =>
      Async.lockstep_given fun hxy => ?_
  cases hxy with
  | none => exact Async.lockstep_done fun _ _ hin => ⟨.none, hin.mono fun _ _ => Low.tail⟩
  | @some a b hab =>
    obtain ⟨c, user⟩ := a
    obtain ⟨c', user'⟩ := b
    obtain ⟨hc, huser⟩ := hab
    cases huser
    dsimp only
    rw [rowToRecord_same hc user]
    split
    · exact Async.lockstep_fail fun _ _ hin => ⟨_, hin⟩
    · refine Async.lockstep_bind (fetchIn_beside Iff.rfl fun now s t hl =>
        deactivateAdminCredential_low hl credentialId) fun x y => Async.lockstep_given fun hxy => ?_
      cases hxy with
      | none => exact Async.lockstep_done fun _ _ hin => ⟨.none, hin.mono fun _ _ => Low.tail⟩
      | some hafter =>
        dsimp only
        rw [rowToRecord_same hafter user]
        refine Async.lockstep_bind (rotateTo_beside hsame.tokenPrefix hF hF' principal id _ _ user)
          fun a b => Async.lockstep_given fun hab => ?_
        exact Async.lockstep_done fun _ _ hin => ⟨.some hab, hin⟩

/-! ## The routes -/

theorem createExchangeAccount_beside {p q : ExchangeAccountCreate} (hpq : SameCreate p q)
    (hstore : p.Storable ↔ q.Storable) (principal : AuthenticatedPrincipal) :
    Beside (Outside F F') (FoundationControls.createExchangeAccount p principal)
      (FoundationControls.createExchangeAccount q principal)
      (fun a b w w' => a = b ∧ Outside F F' w w') fun _ => Outside F F' := by
  unfold FoundationControls.createExchangeAccount
  refine Async.lockstep_bind (Async.lockstep_tryExcept
    (createExchangeAccount_repository hpq hstore principal) fun e =>
      Async.lockstep_fail fun _ _ hin => hin) fun a b => Async.lockstep_given fun hab => ?_
  exact Async.lockstep_done fun _ _ hin => ⟨hab.1, hin⟩

theorem listExchangeAccounts_beside (userId : Option UUID) (status : Option ExchangeAccountStatus)
    (limit offset : ℕ) :
    Beside (Outside F F') (FoundationControls.listExchangeAccounts userId status limit offset)
      (FoundationControls.listExchangeAccounts userId status limit offset)
      (fun a b w w' => a = b ∧ Outside F F' w w') fun _ => Outside F F' := by
  unfold FoundationControls.listExchangeAccounts FoundationControls.Repository.listExchangeAccounts
  refine Async.lockstep_bind (Sql.lockstep_withConnection (fetch_beside fun now s t hl =>
    selectExchangeAccounts_low hl userId status limit offset)) fun a b =>
      Async.lockstep_given fun hab => ?_
  refine Async.lockstep_done fun _ _ hin => ⟨?_, hin⟩
  have heq : List.Forall₂ (· = ·) (a.map exchangeAccountToResponse) (b.map exchangeAccountToResponse) :=
    List.rel_map (fun _ _ hab => hab.1) hab
  rwa [List.forall₂_eq_eq_eq] at heq

theorem updateExchangeAccount_beside {p q : ExchangeAccountUpdate} (hpq : SameUpdate p q)
    (hstore : p.Storable ↔ q.Storable) (accountId : UUID) (principal : AuthenticatedPrincipal) :
    Beside (Outside F F') (FoundationControls.updateExchangeAccount accountId p principal)
      (FoundationControls.updateExchangeAccount accountId q principal)
      (fun a b w w' => a = b ∧ Outside F F' w w') fun _ => Outside F F' := by
  unfold FoundationControls.updateExchangeAccount
  refine Async.lockstep_bind (Async.lockstep_tryExcept
    (updateExchangeAccount_repository hpq hstore accountId principal) fun e =>
      Async.lockstep_fail fun _ _ hin => hin) fun a b => Async.lockstep_given fun hab => ?_
  cases hab with
  | none => exact Async.lockstep_fail fun _ _ hin => hin
  | some hab => exact Async.lockstep_done fun _ _ hin => ⟨hab.1, hin⟩

/-- The same response, but for the token. -/
def SameCreatedResponse (a b : AdminCredentials.AdminCredentialCreateResponse) : Prop :=
  a.toAdminCredentialRecord = b.toAdminCredentialRecord

theorem createAdminCredential_beside {d d' : Drawn}
    {p q : AdminCredentials.AdminCredentialCreate} (hemail : p.email = q.email)
    (hname : p.displayName = q.displayName) (hpassword : p.password.isSome = q.password.isSome)
    (hF : crypto.hashApiToken d.tokenUrlsafe ∉ F) (hF' : crypto.hashApiToken d'.tokenUrlsafe ∉ F')
    (principal : AuthenticatedPrincipal) :
    Beside (fun w w' => Next d d' w w' ∧ Outside (crypto.hashApiToken d.tokenUrlsafe :: F)
        (crypto.hashApiToken d'.tokenUrlsafe :: F') w w')
      (AdminCredentials.createAdminCredential crypto p principal)
      (AdminCredentials.createAdminCredential crypto q principal)
      (fun a b w w' => SameCreatedResponse a b ∧ Outside F F' w w') fun _ => Outside F F' := by
  unfold AdminCredentials.createAdminCredential
  refine Async.lockstep_bind (Async.lockstep_tryExcept
    (createAdminCredential_repository hemail hname hpassword hF hF' principal) fun e =>
      Async.lockstep_fail fun _ _ hin => Outside.tail hin) fun a b => Async.lockstep_given fun hab => ?_
  exact Async.lockstep_done fun _ _ hin => ⟨hab, hin⟩

theorem listAdminCredentials_beside (active : Option Bool) (limit offset : ℕ) :
    Beside (Outside F F') (AdminCredentials.listAdminCredentials active limit offset)
      (AdminCredentials.listAdminCredentials active limit offset)
      (fun a b w w' => a = b ∧ Outside F F' w w') fun _ => Outside F F' := by
  unfold AdminCredentials.listAdminCredentials AdminCredentials.Repository.listAdminCredentials
  refine Async.lockstep_bind (Async.lockstep_bind (Sql.lockstep_withConnection
    (fetch_beside fun now s t hl =>
      selectAdminCredentials_low hl adminApiCredentialType active limit offset)) fun a b =>
        Async.lockstep_given fun hab => Async.lockstep_done fun _ _ hin => ⟨?_, hin⟩) fun a b =>
          Async.lockstep_given fun hab => Async.lockstep_done fun _ _ hin => ⟨congrArg _ hab, hin⟩
  have heq : List.Forall₂ (· = ·) (a.map fun row => AdminCredentials.rowToRecord row.1 row.2)
      (b.map fun row => AdminCredentials.rowToRecord row.1 row.2) :=
    List.rel_map (fun a b hrow => by rw [hrow.2, rowToRecord_same hrow.1]) hab
  rwa [List.forall₂_eq_eq_eq] at heq

theorem deactivateAdminCredential_beside (credentialId : UUID) (principal : AuthenticatedPrincipal) :
    Beside (Outside F F') (AdminCredentials.deactivateAdminCredential credentialId principal)
      (AdminCredentials.deactivateAdminCredential credentialId principal)
      (fun a b w w' => a = b ∧ Outside F F' w w') fun _ => Outside F F' := by
  unfold AdminCredentials.deactivateAdminCredential
  refine Async.lockstep_bind (deactivateAdminCredential_repository credentialId principal)
    fun a b => Async.lockstep_given fun hab => ?_
  subst hab
  cases a with
  | none => exact Async.lockstep_fail fun _ _ hin => hin
  | some a => exact Async.lockstep_done fun _ _ hin => ⟨rfl, hin⟩

theorem rotateAdminCredential_beside {d d' : Drawn}
    (hF : crypto.hashApiToken d.tokenUrlsafe ∉ F) (hF' : crypto.hashApiToken d'.tokenUrlsafe ∉ F')
    (credentialId : UUID) (principal : AuthenticatedPrincipal) :
    Beside (fun w w' => Next d d' w w' ∧ Outside (crypto.hashApiToken d.tokenUrlsafe :: F)
        (crypto.hashApiToken d'.tokenUrlsafe :: F') w w')
      (AdminCredentials.rotateAdminCredential crypto credentialId principal)
      (AdminCredentials.rotateAdminCredential crypto credentialId principal)
      (fun a b w w' => SameCreatedResponse a b ∧ Outside F F' w w') fun _ => Outside F F' := by
  unfold AdminCredentials.rotateAdminCredential
  refine Async.lockstep_bind (Async.lockstep_tryExcept
    (rotateAdminCredential_repository hF hF' credentialId principal) fun e =>
      Async.lockstep_fail fun _ _ hin => Outside.tail hin) fun a b => Async.lockstep_given fun hab => ?_
  cases hab with
  | none => exact Async.lockstep_fail fun _ _ hin => hin
  | some hab => exact Async.lockstep_done fun _ _ hin => ⟨hab, hin⟩

/-! ## Runs -/

/-- The operations differ in the strings of secret references, in fingerprints after the 8th
character, and in passwords. -/
inductive SameOperation : AdminOperation → AdminOperation → Prop where
  | createExchangeAccount {p q : ExchangeAccountCreate} (payload : SameCreate p q) :
    SameOperation (.createExchangeAccount p) (.createExchangeAccount q)
  | listExchangeAccounts (userId : Option UUID) (status : Option ExchangeAccountStatus)
      (limit offset : ℕ) : SameOperation (.listExchangeAccounts userId status limit offset)
        (.listExchangeAccounts userId status limit offset)
  | updateExchangeAccount (accountId : UUID) {p q : ExchangeAccountUpdate} (payload : SameUpdate p q) :
    SameOperation (.updateExchangeAccount accountId p) (.updateExchangeAccount accountId q)
  | createAdminCredential {p q : AdminCredentials.AdminCredentialCreate} (email : p.email = q.email)
      (displayName : p.displayName = q.displayName)
      (password : p.password.isSome = q.password.isSome) :
    SameOperation (.createAdminCredential p) (.createAdminCredential q)
  | listAdminCredentials (active : Option Bool) (limit offset : ℕ) :
    SameOperation (.listAdminCredentials active limit offset) (.listAdminCredentials active limit offset)
  | deactivateAdminCredential (credentialId : UUID) :
    SameOperation (.deactivateAdminCredential credentialId) (.deactivateAdminCredential credentialId)
  | rotateAdminCredential (credentialId : UUID) :
    SameOperation (.rotateAdminCredential credentialId) (.rotateAdminCredential credentialId)

/-- The `text` column takes the secret references of both, or of neither. -/
def SameText (x y : Option String) : Prop :=
  Sql.nullable Sql.text? x ≠ none ↔ Sql.nullable Sql.text? y ≠ none

/-- The secret references of the two operations are taken, or refused, together. -/
def SameStorable : AdminOperation → AdminOperation → Prop
  | .createExchangeAccount p, .createExchangeAccount q => SameText p.secretReference q.secretReference
  | .updateExchangeAccount _ p, .updateExchangeAccount _ q =>
    ∀ x ∈ p.secretReference, ∀ y ∈ q.secretReference, SameText x y
  | _, _ => True

/-- Two requests that differ in secrets only, and what the processes draw for them. -/
structure AdminCall.Same (c d : AdminCall) : Prop where
  principal : c.principal = d.principal
  elapsed : c.elapsed = d.elapsed
  drawn : ∀ n, SameDrawn (c.drawn n) (d.drawn n)
  operation : SameOperation c.operation d.operation

/-- The token that is generated for a request: its first draw. -/
def AdminCall.token? (c : AdminCall) : Option Text :=
  match c.operation with
  | .createAdminCredential _ => some (c.drawn 0).tokenUrlsafe
  | .rotateAdminCredential _ => some (c.drawn 0).tokenUrlsafe
  | _ => none

/-- The tokens of a run are distinct, SHA-256 tells them apart, and none is taken. -/
structure FreshTokens (crypto : Crypto) (s : Tables) (calls : List AdminCall) : Prop where
  distinct : (calls.filterMap AdminCall.token?).Nodup
  collisionFree : ∀ a ∈ calls.filterMap AdminCall.token?, ∀ b ∈ calls.filterMap AdminCall.token?,
    crypto.hashApiToken a = crypto.hashApiToken b → a = b
  unused : Unused ((calls.filterMap AdminCall.token?).map crypto.hashApiToken) s

/-- The response without its token. -/
def AdminResponse.withoutToken : AdminResponse → AdminResponse
  | .createdCredential created => .createdCredential { created with token := [] }
  | response => response

theorem withoutToken_created {a b : AdminCredentials.AdminCredentialCreateResponse}
    (hab : SameCreatedResponse a b) : (AdminResponse.createdCredential a).withoutToken =
      (AdminResponse.createdCredential b).withoutToken := by
  have hfields : a.toAdminCredentialRecord = b.toAdminCredentialRecord := hab
  simp only [AdminResponse.withoutToken, hfields]

theorem storable_create {p q : ExchangeAccountCreate} (hpq : SameCreate p q)
    (htext : SameText p.secretReference q.secretReference) : p.Storable ↔ q.Storable := by
  unfold ExchangeAccountCreate.Storable
  rw [hpq.accountId, hpq.label]
  exact and_congr_right fun _ => and_congr_right fun _ => htext

theorem storable_update {p q : ExchangeAccountUpdate} (hpq : SameUpdate p q)
    (htext : ∀ x ∈ p.secretReference, ∀ y ∈ q.secretReference, SameText x y) :
    p.Storable ↔ q.Storable := by
  unfold ExchangeAccountUpdate.Storable
  rw [hpq.label]
  refine and_congr_right fun _ => ?_
  have hreference := hpq.secretReference
  cases hp : p.secretReference with
  | none =>
    rw [hp] at hreference
    have hq : q.secretReference = none := Option.map_eq_none_iff.1 hreference.symm
    rw [hq]
  | some x =>
    rw [hp] at hreference
    obtain ⟨y, hq, -⟩ := Option.map_eq_some_iff.1 hreference.symm
    rw [hq]
    have hxy : SameText x y := htext x hp y hq
    simp only [Option.mem_some_iff, forall_eq']
    exact hxy

/-- The hashes of the tokens of a request. -/
def AdminCall.hashes (crypto : Crypto) (c : AdminCall) : List Digest :=
  (c.token?.map crypto.hashApiToken).toList

/-- **The routes give responses that differ in the token only**, and use up the token of the
request. -/
theorem handle_beside {c d : AdminCall} (hcd : c.Same d) (htext : SameStorable c.operation d.operation)
    (hF : ∀ h ∈ c.hashes crypto, h ∉ F) (hF' : ∀ h ∈ d.hashes crypto, h ∉ F') :
    Beside (fun w w' => Next (c.drawn 0) (d.drawn 0) w w' ∧
        Outside (c.hashes crypto ++ F) (d.hashes crypto ++ F') w w')
      (handle crypto c.principal c.operation) (handle crypto d.principal d.operation)
      (fun a b w w' => a.withoutToken = b.withoutToken ∧ Outside F F' w w')
      fun _ => Outside F F' := by
  obtain ⟨cp, ce, cdrawn, co⟩ := c
  obtain ⟨dp, de, ddrawn, dop⟩ := d
  obtain ⟨hp, -, -, hop⟩ := hcd
  cases hp
  -- a response without a token is the same
  have same : ∀ {α : Type} {p q : Prog IdentityApi α} (f : α → AdminResponse),
      Beside (Outside F F') p q (fun a b w w' => a = b ∧ Outside F F' w w') (fun _ => Outside F F') →
      Beside (fun w w' => Next (cdrawn 0) (ddrawn 0) w w' ∧ Outside F F' w w')
        (p >>= fun a => pure (f a)) (q >>= fun a => pure (f a))
        (fun a b w w' => a.withoutToken = b.withoutToken ∧ Outside F F' w w')
        fun _ => Outside F F' := by
    intro α p q f hpq
    refine Async.lockstep_bind (hpq.mono (fun _ _ hin => hin.2) (fun _ _ _ _ hab => hab)
      fun _ _ _ hin => hin) fun a b => Async.lockstep_given fun hab => ?_
    subst hab
    exact Async.lockstep_done fun _ _ hin => ⟨rfl, hin⟩
  cases hop with
  | createExchangeAccount payload =>
    exact same _ (createExchangeAccount_beside payload (storable_create payload htext) cp)
  | listExchangeAccounts userId status limit offset =>
    exact same _ (listExchangeAccounts_beside userId status limit offset)
  | updateExchangeAccount accountId payload =>
    exact same _ (updateExchangeAccount_beside payload (storable_update payload htext) accountId cp)
  | listAdminCredentials active limit offset =>
    exact same _ (listAdminCredentials_beside active limit offset)
  | deactivateAdminCredential credentialId =>
    exact same _ (deactivateAdminCredential_beside credentialId cp)
  | createAdminCredential email displayName password =>
    refine Async.lockstep_bind (createAdminCredential_beside email displayName password
      (hF _ List.mem_cons_self) (hF' _ List.mem_cons_self) cp) fun a b =>
        Async.lockstep_given fun hab => ?_
    exact Async.lockstep_done fun _ _ hin => ⟨withoutToken_created hab, hin⟩
  | rotateAdminCredential credentialId =>
    refine Async.lockstep_bind (rotateAdminCredential_beside (hF _ List.mem_cons_self)
      (hF' _ List.mem_cons_self) credentialId cp) fun a b => Async.lockstep_given fun hab => ?_
    exact Async.lockstep_done fun _ _ hin => ⟨withoutToken_created hab, hin⟩

/-- The hashes of the tokens to come. -/
def hashesOf (crypto : Crypto) (calls : List AdminCall) : List Digest :=
  (calls.filterMap AdminCall.token?).map crypto.hashApiToken

theorem hashesOf_cons (c : AdminCall) (calls : List AdminCall) :
    hashesOf crypto (c :: calls) = c.hashes crypto ++ hashesOf crypto calls := by
  unfold hashesOf AdminCall.hashes
  cases hc : c.token? with
  | none => simp [hc]
  | some token => simp [hc]

/-- A hash of the next token is none of the later ones. -/
theorem hashes_fresh {c : AdminCall} {calls : List AdminCall}
    (hnodup : (hashesOf crypto (c :: calls)).Nodup) :
    (∀ h ∈ c.hashes crypto, h ∉ hashesOf crypto calls) ∧ (hashesOf crypto calls).Nodup := by
  rw [hashesOf_cons, List.nodup_append'] at hnodup
  exact ⟨fun h hc hm => hnodup.2.2 hc hm, hnodup.2.1⟩

theorem FreshTokens.nodup {s : Tables} {calls : List AdminCall} (h : FreshTokens crypto s calls) :
    (hashesOf crypto calls).Nodup :=
  h.distinct.map_on h.collisionFree

theorem arrive_beside {c d : AdminCall} (hcd : c.Same d) {w w' : Sql.Server identity Drawn}
    (hw : Outside F F' w w') :
    Next (c.drawn 0) (d.drawn 0) (c.arrive w) (d.arrive w') ∧ Outside F F' (c.arrive w) (d.arrive w') := by
  obtain ⟨hlevel, s, t, hs, ht, hst⟩ := hw
  refine ⟨⟨rfl, rfl⟩, ⟨?_, hlevel.opened, rfl, hcd.drawn⟩, s, t, hs, ht, hst⟩
  show w.db.clock + c.elapsed = w'.db.clock + d.elapsed
  rw [hlevel.clock, hcd.elapsed]

/-- **Runs side by side**, from servers whose tables differ in secrets only. -/
theorem serve_beside {calls calls' : List AdminCall} (hcalls : List.Forall₂ AdminCall.Same calls calls')
    (htext : List.Forall₂ (fun c d => SameStorable c.operation d.operation) calls calls') :
    ∀ {w w' : Sql.Server identity Drawn}, (hashesOf crypto calls).Nodup →
      (hashesOf crypto calls').Nodup → Outside (hashesOf crypto calls) (hashesOf crypto calls') w w' →
      (serve crypto calls w).1.map AdminResponse.withoutToken =
          (serve crypto calls' w').1.map AdminResponse.withoutToken ∧
        Outside [] [] (serve crypto calls w).2 (serve crypto calls' w').2 := by
  induction hcalls with
  | nil =>
    intro w w' _ _ hw
    exact ⟨rfl, hw⟩
  | @cons c d calls calls' hcd _ ih =>
    intro w w' hnodup hnodup' hw
    obtain ⟨hcd', htext⟩ := List.forall₂_cons.1 htext
    obtain ⟨hF, hrest⟩ := hashes_fresh hnodup
    obtain ⟨hF', hrest'⟩ := hashes_fresh hnodup'
    rw [hashesOf_cons, hashesOf_cons] at hw
    have hends := handle_beside hcd hcd' hF hF' _ _ (arrive_beside hcd hw)
    simp only [serve]
    revert hends
    generalize (handle crypto c.principal c.operation).perform
      (Sql.server identity Drawn ApiError) refusal (c.arrive w) = x
    generalize (handle crypto d.principal d.operation).perform
      (Sql.server identity Drawn ApiError) refusal (d.arrive w') = y
    intro hends
    cases hends with
    | returned hab =>
      obtain ⟨hresponses, hw'⟩ := ih htext hrest hrest' hab.2
      simp only [List.map_cons, respond, hab.1, hresponses]
      exact ⟨trivial, hw'⟩
    | raised hw' =>
      obtain ⟨hresponses, hw'⟩ := ih htext hrest hrest' hw'
      simp only [List.map_cons, hresponses]
      exact ⟨trivial, hw'⟩

/-- The two runs give the same responses, but for the tokens, and leave the same audit rows. -/
def SecretsWithheld (crypto : Crypto) (calls calls' : List AdminCall)
    (w : Sql.Server identity Drawn) : Prop :=
  (serve crypto calls w).1.map AdminResponse.withoutToken =
      (serve crypto calls' w).1.map AdminResponse.withoutToken ∧
    (serve crypto calls w).2.db.current.auditLogs = (serve crypto calls' w).2.db.current.auditLogs

theorem SameDrawn.refl (d : Drawn) : SameDrawn d d := ⟨rfl, rfl, rfl, rfl⟩

/-- **Secrets reach neither audit rows nor responses**, in any two runs of one sequence of
requests whose secret references the column takes, or refuses, together. -/
theorem secrets_withheld (crypto : Crypto) (s : Tables) (now : Timestamp) (supply : ℕ → Drawn)
    {calls calls' : List AdminCall} (hcalls : List.Forall₂ AdminCall.Same calls calls')
    (htext : List.Forall₂ (fun c d => SameStorable c.operation d.operation) calls calls')
    (hfresh : FreshTokens crypto s calls) (hfresh' : FreshTokens crypto s calls') :
    SecretsWithheld crypto calls calls' (Sql.Server.start (S := identity) s now supply) := by
  have hshows : ShowsSame s s := by
    refine ⟨rfl, rfl, rfl, rfl, ?_, ?_, ?_⟩
    · exact List.forall₂_same.2 fun r _ => ⟨r.tokenHash, rfl⟩
    · exact List.forall₂_same.2 fun r _ => ⟨r.passwordHash, rfl⟩
    · exact List.forall₂_same.2 fun r _ => ⟨rfl, rfl⟩
  have hidle : Sql.Idle (S := identity) s (Sql.Server.start (S := identity) s now supply) :=
    ⟨rfl, fun i => rfl⟩
  have hstart : Outside (hashesOf crypto calls) (hashesOf crypto calls')
      (Sql.Server.start (S := identity) s now supply) (Sql.Server.start (S := identity) s now supply) :=
    ⟨⟨rfl, rfl, rfl, fun _ => SameDrawn.refl _⟩, s, s, hidle, hidle, hshows, hfresh.unused,
      hfresh'.unused⟩
  obtain ⟨hresponses, -, t, t', ht, ht', hlow⟩ :=
    serve_beside hcalls htext hfresh.nodup hfresh'.nodup hstart
  refine ⟨hresponses, ?_⟩
  rw [ht.1, ht'.1]
  exact hlow.shows.auditLogs

/-! ### Two secret references -/

/-- An exchange account with a secret reference. -/
def accountWith (reference : String) (h : 1 ≤ reference.length ∧ reference.length ≤ 256) :
    ExchangeAccountCreate where
  userId := ⟨1⟩
  exchange := .aster
  accountId := "main"
  secretReference := some reference
  accountId_length := by decide
  label_length := by simp
  secretReference_length := by simpa using h
  secretFingerprint_hex := by simp

def nulAccount : ExchangeAccountCreate := accountWith "\u0000" (by decide)

def vaultAccount : ExchangeAccountCreate := accountWith "vault" (by decide)

def safeAccount : ExchangeAccountCreate := accountWith "safe" (by decide)

/-- Tokens that differ in the last of their 43 characters. -/
def drawnWith (last : Char) (n : ℕ) : Drawn :=
  ⟨⟨n + 2⟩, List.replicate 42 (Python.ofChar 'A') ++ [Python.ofChar last], [], 0⟩

def accountCall (payload : ExchangeAccountCreate) : AdminCall :=
  ⟨environmentAdminPrincipal, 0, drawnWith 'A', .createExchangeAccount payload⟩

def rotationCall (last : Char) : AdminCall :=
  ⟨environmentAdminPrincipal, 5, drawnWith last, .rotateAdminCredential ⟨9⟩⟩

/-- One active user with one active credential. -/
def oneCredential : Tables where
  users := .singleton ⟨⟨1⟩, none, none, "active", active_status⟩
  roles := .empty
  userRoles := .empty
  apiCredentials := .singleton
    ⟨⟨9⟩, ⟨1⟩, "admin_api_token", 7, none, true, 0, none, adminApiCredentialType_check⟩
  passwordCredentials := .empty
  userSessions := .empty
  auditLogs := .empty

/-- A digest that no stored credential has. -/
def flatCrypto : Crypto := ⟨fun _ => 1, fun _ _ => "", fun _ _ => false⟩

def oneCredentialServer : Sql.Server identity Drawn :=
  Sql.Server.start (S := identity) oneCredential 0 (drawnWith 'A')

theorem accountCall_same {p q : ExchangeAccountCreate} (hpq : SameCreate p q) :
    (accountCall p).Same (accountCall q) :=
  ⟨rfl, rfl, fun _ => SameDrawn.refl _, .createExchangeAccount hpq⟩

/-- The column takes one of the two secret references only: that run responds 201, the other
500, and writes no audit row. -/
theorem nul_reference_shown : ¬ ∀ (crypto : Crypto) (s : Tables) (now : Timestamp)
    (supply : ℕ → Drawn) (calls calls' : List AdminCall), List.Forall₂ AdminCall.Same calls calls' →
      FreshTokens crypto s calls → FreshTokens crypto s calls' →
      SecretsWithheld crypto calls calls' (Sql.Server.start (S := identity) s now supply) := by
  intro hall
  have hfresh : ∀ p, FreshTokens flatCrypto oneCredential [accountCall p] := fun p =>
    ⟨List.nodup_nil, fun a ha => (by cases ha), fun r _ hm => (by cases hm)⟩
  have hsame : SameCreate nulAccount vaultAccount := ⟨rfl, rfl, rfl, rfl, rfl, rfl, rfl⟩
  obtain ⟨hresponses, -⟩ := hall flatCrypto oneCredential 0 (drawnWith 'A') [accountCall nulAccount]
    [accountCall vaultAccount] (.cons (accountCall_same hsame) .nil) (hfresh _) (hfresh _)
  have hnul : (serve flatCrypto [accountCall nulAccount] oneCredentialServer).1 =
      [.error 500 "Internal Server Error"] := rfl
  have hvault : ∃ r, (serve flatCrypto [accountCall vaultAccount] oneCredentialServer).1 =
      [.exchangeAccount r] := ⟨_, rfl⟩
  obtain ⟨r, hvault⟩ := hvault
  have heq : (serve flatCrypto [accountCall nulAccount] oneCredentialServer).1.map
      AdminResponse.withoutToken = (serve flatCrypto [accountCall vaultAccount]
        oneCredentialServer).1.map AdminResponse.withoutToken := hresponses
  rw [hnul, hvault] at heq
  cases heq

/-- Two runs with two secret references and two tokens. -/
theorem secrets_withheld_rotation :
    SecretsWithheld flatCrypto [accountCall vaultAccount, rotationCall 'B']
      [accountCall safeAccount, rotationCall 'C'] oneCredentialServer := by
  have hsame : SameCreate vaultAccount safeAccount := ⟨rfl, rfl, rfl, rfl, rfl, rfl, rfl⟩
  have hrotation : (rotationCall 'B').Same (rotationCall 'C') :=
    ⟨rfl, rfl, fun _ => ⟨rfl, rfl, rfl, rfl⟩, .rotateAdminCredential ⟨9⟩⟩
  have hfresh : ∀ p last, FreshTokens flatCrypto oneCredential [accountCall p, rotationCall last] := by
    intro p last
    refine ⟨List.nodup_singleton _, fun a ha b hb _ => ?_, fun r hr hm => ?_⟩
    · rw [List.mem_singleton.1 ha, List.mem_singleton.1 hb]
    · rw [List.mem_singleton.1 hr] at hm
      have hm : (7 : Digest) ∈ [1] := hm
      revert hm
      decide
  refine secrets_withheld flatCrypto oneCredential 0 (drawnWith 'A')
    (.cons (accountCall_same hsame) (.cons hrotation .nil)) (.cons ?_ (.cons trivial .nil))
    (hfresh _ _) (hfresh _ _)
  exact ⟨fun _ => by decide, fun _ => by decide⟩

end CopyTrade
