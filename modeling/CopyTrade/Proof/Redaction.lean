import CopyTrade.Spec.AdminApi
import CopyTrade.Sql.Related

/-!
# Tables that differ in secrets

* `ShowsSame`: the tables differ only in token hashes, password hashes and what responses
  leave out of an exchange account.
* `Low`: so they do, and the hashes of the tokens to come are in neither. Every statement of
  the admin repositories keeps it, beside one that differs in secrets only, and answers
  with rows that differ in no more.
-/

namespace CopyTrade

open Identity
open Python (Text)
open Sql (Related)

/-! ## What differs -/

/-- The rows differ in the hash of the token only. -/
def SameCredential (a b : ApiCredentialRow) : Prop := ∃ h, a = { b with tokenHash := h }

def SamePassword (a b : PasswordCredentialRow) : Prop := ∃ h, a = { b with passwordHash := h }

/-- The rows give one response, and have a secret reference both or neither. -/
def SameAccount (a b : ExchangeAccountRecord) : Prop :=
  exchangeAccountToResponse a = exchangeAccountToResponse b ∧
    a.secretReference.isSome = b.secretReference.isSome

/-- The tables differ in secrets only. -/
structure ShowsSame (s t : Tables) : Prop where
  users : s.users = t.users
  roles : s.roles = t.roles
  userRoles : s.userRoles = t.userRoles
  auditLogs : s.auditLogs = t.auditLogs
  apiCredentials : Related SameCredential s.apiCredentials t.apiCredentials
  passwordCredentials : Related SamePassword s.passwordCredentials t.passwordCredentials
  exchangeAccounts : Related SameAccount s.exchangeAccounts t.exchangeAccounts

/-- No credential has one of the hashes. -/
def Unused (hashes : List Digest) (s : Tables) : Prop :=
  ∀ r ∈ s.apiCredentials, r.tokenHash ∉ hashes

/-- The tables differ in secrets only, and the hashes to come are not taken. -/
structure Low (hashes hashes' : List Digest) (s t : Tables) : Prop where
  shows : ShowsSame s t
  unused : Unused hashes s
  unused' : Unused hashes' t

variable {F F' : List Digest} {now : Timestamp} {s t : Tables} {h h' : Digest}

theorem Low.tail (hl : Low (h :: F) (h' :: F') s t) : Low F F' s t :=
  ⟨hl.shows, fun r hr hm => hl.unused r hr (List.mem_cons_of_mem h hm),
    fun r hr hm => hl.unused' r hr (List.mem_cons_of_mem h' hm)⟩

/-! ## What each statement does -/

/-- The same statement on a table that the two have in common. -/
theorem rel_eq {α β γ : Type} {x : Option α} {f : α → β} {g : α → γ} {T : β → γ → Prop}
    (hfg : ∀ a, T (f a) (g a)) : Option.Rel T (x.map f) (x.map g) := by
  cases x with
  | none => exact .none
  | some a => exact .some (hfg a)

theorem upsertActiveUser_low (hl : Low F F' s t) (id : UUID) (email : String)
    (displayName : Option String) :
    Option.Rel (fun a b => a.1 = b.1 ∧ Low F F' a.2 b.2)
      (exec (.upsertActiveUser id email displayName) now s)
      (exec (.upsertActiveUser id email displayName) now t) := by
  have hput : ∀ u, Low F F' { s with users := u } { t with users := u } := fun u =>
    ⟨{ hl.shows with users := rfl }, hl.unused, hl.unused'⟩
  simp only [exec]
  cases Sql.text? email with
  | none => exact .none
  | some email =>
    cases Sql.nullable Sql.text? displayName with
    | none => exact .none
    | some displayName =>
      simp only [Option.bind_some, ← hl.shows.users]
      cases s.users.owner email with
      | none =>
        have hrel : Option.Rel (Low F F') (users.insert? (newUser id email displayName) s)
            (users.insert? (newUser id email displayName) t) := by
          unfold Sql.Component.insert?
          have hsame : users.table t = users.table s := hl.shows.users.symm
          rw [hsame]
          exact rel_eq hput
        exact Sql.rel_map (fun a b hab => ⟨rfl, hab⟩) hrel
      | some userId =>
        dsimp only
        cases s.users.get userId with
        | none => exact .none
        | some user =>
          simp only [Option.bind_some]
          split
          · have hrel : Option.Rel (Low F F') (users.update? userId (rename displayName) s)
                (users.update? userId (rename displayName) t) := by
              unfold Sql.Component.update?
              have hsame : users.table t = users.table s := hl.shows.users.symm
              rw [hsame]
              exact rel_eq hput
            exact Sql.rel_map (fun a b hab => ⟨rfl, hab⟩) hrel
          · exact .some ⟨rfl, hl⟩

theorem selectAdminRoleId_low (hl : Low F F' s t) (name : String) :
    Option.Rel (fun a b => a.1 = b.1 ∧ Low F F' a.2 b.2) (exec (.selectAdminRoleId name) now s)
      (exec (.selectAdminRoleId name) now t) :=
  .some ⟨congrArg (fun u => u.owner name) hl.shows.roles, hl⟩

theorem insertUserRole_low (hl : Low F F' s t) (userId roleId : UUID) :
    Option.Rel (fun a b => a.1 = b.1 ∧ Low F F' a.2 b.2) (exec (.insertUserRole userId roleId) now s)
      (exec (.insertUserRole userId roleId) now t) := by
  simp only [exec, ← hl.shows.userRoles]
  cases s.userRoles.get (userId, roleId) with
  | some r => exact .some ⟨rfl, hl⟩
  | none =>
    have hrel : Option.Rel (Low F F') (userRoles.insert? ⟨userId, roleId⟩ s)
        (userRoles.insert? ⟨userId, roleId⟩ t) := by
      unfold Sql.Component.insert?
      have hsame : userRoles.table t = userRoles.table s := hl.shows.userRoles.symm
      rw [hsame]
      exact rel_eq fun u => ⟨{ hl.shows with userRoles := rfl }, hl.unused, hl.unused'⟩
    exact Sql.rel_map (fun a b hab => ⟨rfl, hab⟩) hrel

theorem insertAuditLog_low (hl : Low F F' s t) (id : UUID) (entry : AuditEntry AuditState) :
    Option.Rel (fun a b => a.1 = b.1 ∧ Low F F' a.2 b.2) (exec (.insertAuditLog id entry) now s)
      (exec (.insertAuditLog id entry) now t) := by
  have hrel : Option.Rel (Low F F') (auditLogs.insert? (entry.row id now) s)
      (auditLogs.insert? (entry.row id now) t) := by
    unfold Sql.Component.insert?
    have hsame : auditLogs.table t = auditLogs.table s := hl.shows.auditLogs.symm
    rw [hsame]
    exact rel_eq fun u => ⟨{ hl.shows with auditLogs := rfl }, hl.unused, hl.unused'⟩
  exact Sql.rel_map (fun a b hab => ⟨rfl, hab⟩) hrel

theorem samePassword_id {a b : PasswordCredentialRow} (hab : SamePassword a b) :
    Sql.Keyed.id a = Sql.Keyed.id b := by
  obtain ⟨h, rfl⟩ := hab
  rfl

theorem samePassword_entries {a b : PasswordCredentialRow} (hab : SamePassword a b) :
    Sql.Keyed.entries a = Sql.Keyed.entries b := by
  obtain ⟨h, rfl⟩ := hab
  rfl

/-- The hashes of two passwords may differ. -/
theorem upsertPasswordCredential_low (hl : Low F F' s t) (id userId : UUID) (p q : String) :
    Option.Rel (fun a b => a.1 = b.1 ∧ Low F F' a.2 b.2)
      (exec (.upsertPasswordCredential id userId p) now s)
      (exec (.upsertPasswordCredential id userId q) now t) := by
  have howner : s.passwordCredentials.owner userId = t.passwordCredentials.owner userId :=
    hl.shows.passwordCredentials.owner (fun a b => samePassword_id) (fun a b => samePassword_entries) userId
  have hput : ∀ u v, Related SamePassword u v →
      Low F F' { s with passwordCredentials := u } { t with passwordCredentials := v } := fun u v huv =>
    ⟨{ hl.shows with passwordCredentials := huv }, hl.unused, hl.unused'⟩
  simp only [exec, howner]
  cases t.passwordCredentials.owner userId with
  | none =>
    have hsame : SamePassword ⟨id, userId, p, true, none⟩ ⟨id, userId, q, true, none⟩ := ⟨p, rfl⟩
    have hrel := hl.shows.passwordCredentials.insert hsame fun a _ b _ hab => by
      obtain ⟨h, rfl⟩ := hab
      exact Iff.rfl
    exact Sql.rel_map (fun a b hab => ⟨trivial, hab⟩) (Sql.rel_map hput hrel)
  | some pid =>
    have hrel := hl.shows.passwordCredentials.update (f := setPassword p) (g := setPassword q)
      (fun a b => samePassword_id) (fun a b hab => by obtain ⟨h, rfl⟩ := hab; exact ⟨p, rfl⟩)
      (keepsId_setPassword p) (keepsId_setPassword q) (fun _ => rfl) (fun _ => rfl) pid
    exact Sql.rel_map (fun a b hab => ⟨trivial, hab⟩) (Sql.rel_map hput hrel)

/-! ### Credentials -/

theorem sameCredential_id {a b : ApiCredentialRow} (hab : SameCredential a b) :
    Sql.Keyed.id a = Sql.Keyed.id b := by
  obtain ⟨h, rfl⟩ := hab
  rfl

theorem low_credentials (hl : Low F F' s t) {u v : Sql.Table ApiCredentialRow}
    {G G' : List Digest} (huv : Related SameCredential u v) (hu : ∀ r ∈ u, r.tokenHash ∉ G)
    (hv : ∀ r ∈ v, r.tokenHash ∉ G') :
    Low G G' { s with apiCredentials := u } { t with apiCredentials := v } :=
  ⟨{ hl.shows with apiCredentials := huv }, hu, hv⟩

/-- **A new credential**, for two tokens whose hashes are not taken and do not come again. -/
theorem insertAdminCredential_low (hl : Low (h :: F) (h' :: F') s t) (hF : h ∉ F) (hF' : h' ∉ F')
    (id userId : UUID) (tokenPrefix : Text) :
    Option.Rel (fun a b => SameCredential a.1 b.1 ∧ Low F F' a.2 b.2)
      (exec (.insertAdminCredential id userId h tokenPrefix) now s)
      (exec (.insertAdminCredential id userId h' tokenPrefix) now t) := by
  have hsame : SameCredential (newCredential id userId h tokenPrefix now)
      (newCredential id userId h' tokenPrefix now) := ⟨h, rfl⟩
  have hrel := hl.shows.apiCredentials.insert hsame fun a ha b hb hab => by
    have hid := sameCredential_id hab
    have hne : a.tokenHash ≠ h := fun he => hl.unused a ha (by rw [he]; exact List.mem_cons_self)
    have hne' : b.tokenHash ≠ h' := fun he => hl.unused' b hb (by rw [he]; exact List.mem_cons_self)
    have hiff : (a.id = id ∨ a.tokenHash = h) ↔ (b.id = id ∨ b.tokenHash = h') := by
      rw [or_iff_left hne, or_iff_left hne']
      exact Eq.congr_left hid
    exact hiff
  have hboth : Option.Rel (Low F F')
      (apiCredentials.insert? (newCredential id userId h tokenPrefix now) s)
      (apiCredentials.insert? (newCredential id userId h' tokenPrefix now) t) := by
    refine Sql.rel_map (fun u v huv => ?_) (Sql.rel_of hrel)
    obtain ⟨huv, hu, hv⟩ := huv
    refine low_credentials hl huv (fun r hr hm => ?_) fun r hr hm => ?_
    · rcases (Sql.Table.mem_insert hu).1 hr with hr | rfl
      · exact hl.unused r hr (List.mem_cons_of_mem h hm)
      · exact hF hm
    · rcases (Sql.Table.mem_insert hv).1 hr with hr | rfl
      · exact hl.unused' r hr (List.mem_cons_of_mem h' hm)
      · exact hF' hm
  exact Sql.rel_map (fun a b hab => ⟨hsame, hab⟩) hboth

/-- The rows of a credential and of its user. -/
def SameRow (a b : ApiCredentialRow × Identity.UserRow) : Prop := SameCredential a.1 b.1 ∧ a.2 = b.2

theorem selectAdminCredentialByIdForUpdate_low (hl : Low F F' s t) (id : UUID) (ct : String) :
    Option.Rel (fun a b => Option.Rel SameRow a.1 b.1 ∧ Low F F' a.2 b.2)
      (exec (.selectAdminCredentialByIdForUpdate id ct) now s)
      (exec (.selectAdminCredentialByIdForUpdate id ct) now t) := by
  refine .some ⟨?_, hl⟩
  have hget := hl.shows.apiCredentials.get (fun a b => sameCredential_id) id
  unfold credentialById
  rw [← hl.shows.users]
  revert hget
  generalize s.apiCredentials.get id = x
  generalize t.apiCredentials.get id = y
  intro hget
  cases hget with
  | none => exact .none
  | some hab =>
    obtain ⟨h, rfl⟩ := hab
    simp only [Option.bind_some]
    split
    · exact rel_eq fun user => ⟨⟨h, rfl⟩, rfl⟩
    · exact .none

theorem deactivateAdminCredential_low (hl : Low F F' s t) (id : UUID) :
    Option.Rel (fun a b => Option.Rel SameCredential a.1 b.1 ∧ Low F F' a.2 b.2)
      (exec (.deactivateAdminCredential id) now s) (exec (.deactivateAdminCredential id) now t) := by
  have hget := hl.shows.apiCredentials.get (fun a b => sameCredential_id) id
  have hrel := hl.shows.apiCredentials.update (f := deactivate) (g := deactivate)
    (fun a b => sameCredential_id) (fun a b hab => by obtain ⟨h, rfl⟩ := hab; exact ⟨h, rfl⟩)
    keepsId_deactivate keepsId_deactivate (fun _ => rfl) (fun _ => rfl) id
  have hboth : Option.Rel (Low F F') (apiCredentials.update? id deactivate s)
      (apiCredentials.update? id deactivate t) := by
    refine Sql.rel_map (fun u v huv => ?_) (Sql.rel_of hrel)
    obtain ⟨huv, hu, hv⟩ := huv
    refine low_credentials hl huv (fun r hr hm => ?_) fun r hr hm => ?_
    · obtain ⟨a, ha, rfl⟩ := (Sql.Table.mem_update hu).1 hr
      refine hl.unused a ha ?_
      split at hm <;> exact hm
    · obtain ⟨a, ha, rfl⟩ := (Sql.Table.mem_update hv).1 hr
      refine hl.unused' a ha ?_
      split at hm <;> exact hm
  simp only [exec]
  revert hget
  generalize s.apiCredentials.get id = x
  generalize t.apiCredentials.get id = y
  intro hget
  cases hget with
  | none => exact .some ⟨.none, hl⟩
  | some hab =>
    refine Sql.rel_map (fun a b hlow => ⟨.some ?_, hlow⟩) hboth
    obtain ⟨h, rfl⟩ := hab
    exact ⟨h, rfl⟩

theorem selectAdminCredentials_low (hl : Low F F' s t) (ct : String) (active : Option Bool)
    (limit offset : ℕ) :
    Option.Rel (fun a b => List.Forall₂ SameRow a.1 b.1 ∧ Low F F' a.2 b.2)
      (query (.selectAdminCredentials ct active limit offset) now s)
      (query (.selectAdminCredentials ct active limit offset) now t) := by
  refine .some ⟨?_, hl⟩
  unfold selectAdminCredentials page
  refine List.forall₂_take _ (List.forall₂_drop _ (Sql.forall₂_insertionSort ?_ ?_))
  · rintro a b a' b' ⟨⟨h, hab⟩, -⟩ ⟨⟨h', hab'⟩, -⟩
    dsimp only
    rw [hab, hab']
  · rw [← hl.shows.users]
    refine List.rel_filterMap (R := SameCredential) (fun a b hab => ?_)
      (Sql.forall₂_filter (fun a b hab => ?_) hl.shows.apiCredentials)
    · obtain ⟨h, rfl⟩ := hab
      exact rel_eq fun user => ⟨⟨h, rfl⟩, rfl⟩
    · obtain ⟨h, rfl⟩ := hab
      rfl

/-! ### Exchange accounts -/

/-- What a response shows of a fingerprint. -/
def fingerprintPrefix (s : Option String) : Option (List Char) := s.map fun s => s.toList.take 8

/-- The payloads differ in the strings of the secret reference, and in the fingerprint after
its 8th character. -/
structure SameCreate (p q : ExchangeAccountCreate) : Prop where
  userId : p.userId = q.userId
  exchange : p.exchange = q.exchange
  accountId : p.accountId = q.accountId
  label : p.label = q.label
  status : p.status = q.status
  secretReference : p.secretReference.isSome = q.secretReference.isSome
  secretFingerprint : fingerprintPrefix p.secretFingerprint = fingerprintPrefix q.secretFingerprint

/-- The same of two updates, which have the same fields. -/
structure SameUpdate (p q : ExchangeAccountUpdate) : Prop where
  label : p.label = q.label
  status : p.status = q.status
  secretReference : p.secretReference.map Option.isSome = q.secretReference.map Option.isSome
  secretFingerprint :
    p.secretFingerprint.map fingerprintPrefix = q.secretFingerprint.map fingerprintPrefix

theorem isSome_fingerprintPrefix (s : Option String) : (fingerprintPrefix s).isSome = s.isSome := by
  simp [fingerprintPrefix]

theorem low_accounts (hl : Low F F' s t) {u v : Sql.Table ExchangeAccountRecord}
    (huv : Related SameAccount u v) :
    Low F F' { s with exchangeAccounts := u } { t with exchangeAccounts := v } :=
  ⟨{ hl.shows with exchangeAccounts := huv }, hl.unused, hl.unused'⟩

theorem sameAccount_id {a b : ExchangeAccountRecord} (hab : SameAccount a b) :
    Sql.Keyed.id a = Sql.Keyed.id b :=
  congrArg ExchangeAccountResponse.id hab.1

theorem sameAccount_new {p q : ExchangeAccountCreate} (hpq : SameCreate p q) (id : UUID) :
    SameAccount (newExchangeAccount id now p) (newExchangeAccount id now q) := by
  refine ⟨?_, hpq.secretReference⟩
  have hsome : p.secretFingerprint.isSome = q.secretFingerprint.isSome := by
    rw [← isSome_fingerprintPrefix p.secretFingerprint, hpq.secretFingerprint,
      isSome_fingerprintPrefix]
  have hfingerprint := hpq.secretFingerprint
  unfold fingerprintPrefix at hfingerprint
  simp only [exchangeAccountToResponse, newExchangeAccount, hpq.userId, hpq.exchange, hpq.accountId,
    hpq.label, hpq.status, hpq.secretReference, hsome, hfingerprint]

/-- **A new exchange account.** -/
theorem insertExchangeAccount_low (hl : Low F F' s t) {p q : ExchangeAccountCreate}
    (hpq : SameCreate p q) (hstore : p.Storable ↔ q.Storable) (id : UUID) :
    Option.Rel (fun a b => SameAccount a.1 b.1 ∧ Low F F' a.2 b.2)
      (exec (.insertExchangeAccount id p) now s) (exec (.insertExchangeAccount id q) now t) := by
  simp only [exec]
  by_cases hp : p.Storable
  · rw [if_pos hp, if_pos (hstore.1 hp)]
    have hsame : SameAccount (newExchangeAccount id now p) (newExchangeAccount id now q) :=
      sameAccount_new hpq id
    have hrel := hl.shows.exchangeAccounts.insert hsame fun a _ b _ hab => by
      have hid : a.id = b.id := sameAccount_id hab
      have hexchange : a.exchange = b.exchange := congrArg ExchangeAccountResponse.exchange hab.1
      have haccount : a.accountId = b.accountId := congrArg ExchangeAccountResponse.accountId hab.1
      simp only [Sql.Clash, newExchangeAccount, hid, hexchange, haccount, hpq.exchange, hpq.accountId]
    exact Sql.rel_map (fun a b hab => ⟨hsame, hab⟩)
      (Sql.rel_map (fun u v huv => low_accounts hl huv) hrel)
  · rw [if_neg hp, if_neg fun hq => hp (hstore.2 hq)]
    exact .none

theorem userExists_low (hl : Low F F' s t) (id : UUID) :
    Option.Rel (fun a b => a.1 = b.1 ∧ Low F F' a.2 b.2) (exec (.userExists id) now s)
      (exec (.userExists id) now t) :=
  .some ⟨congrArg (fun u => (Sql.Table.get u id).isSome) hl.shows.users, hl⟩

theorem selectExchangeAccountByIdForUpdate_low (hl : Low F F' s t) (id : UUID) :
    Option.Rel (fun a b => Option.Rel SameAccount a.1 b.1 ∧ Low F F' a.2 b.2)
      (exec (.selectExchangeAccountByIdForUpdate id) now s)
      (exec (.selectExchangeAccountByIdForUpdate id) now t) :=
  .some ⟨hl.shows.exchangeAccounts.get (fun _ _ => sameAccount_id) id, hl⟩

/-- An assigned column, where it is assigned, and as it was where it is not. -/
theorem getD_congr {α β : Type} {f : α → β} {x y : Option α} {a b : α}
    (hxy : x.map f = y.map f) (hab : f a = f b) : f (x.getD a) = f (y.getD b) := by
  cases x with
  | none =>
    cases y with
    | none => exact hab
    | some y => cases hxy
  | some x =>
    cases y with
    | none => cases hxy
    | some y => exact Option.some.inj hxy

theorem sameAccount_assign {p q : ExchangeAccountUpdate} (hpq : SameUpdate p q)
    {a b : ExchangeAccountRecord} (hab : SameAccount a b) :
    SameAccount (assignAccount now p a) (assignAccount now q b) := by
  obtain ⟨hresponse, hreference⟩ := hab
  have hshown : fingerprintPrefix a.secretFingerprint = fingerprintPrefix b.secretFingerprint :=
    congrArg ExchangeAccountResponse.secretFingerprintPrefix hresponse
  have href := getD_congr hpq.secretReference hreference
  have hfinger := getD_congr hpq.secretFingerprint hshown
  refine ⟨?_, href⟩
  have hsome : (p.secretFingerprint.getD a.secretFingerprint).isSome =
      (q.secretFingerprint.getD b.secretFingerprint).isSome := by
    rw [← isSome_fingerprintPrefix, hfinger, isSome_fingerprintPrefix]
  have hid : a.id = b.id := congrArg ExchangeAccountResponse.id hresponse
  have huser : a.userId = b.userId := congrArg ExchangeAccountResponse.userId hresponse
  have hexchange : a.exchange = b.exchange := congrArg ExchangeAccountResponse.exchange hresponse
  have haccount : a.accountId = b.accountId := congrArg ExchangeAccountResponse.accountId hresponse
  have hlabel : a.label = b.label := congrArg ExchangeAccountResponse.label hresponse
  have hstatus : a.status = b.status := congrArg ExchangeAccountResponse.status hresponse
  have hcreated : a.createdAt = b.createdAt := congrArg ExchangeAccountResponse.createdAt hresponse
  unfold fingerprintPrefix at hfinger
  simp only [exchangeAccountToResponse, assignAccount, hid, huser, hexchange, haccount, hlabel,
    hstatus, hcreated, hpq.label, hpq.status, href, hsome, hfinger]

/-- **An update of an exchange account.** -/
theorem updateExchangeAccount_low (hl : Low F F' s t) {p q : ExchangeAccountUpdate}
    (hpq : SameUpdate p q) (hstore : p.Storable ↔ q.Storable) (id : UUID) :
    Option.Rel (fun a b => Option.Rel SameAccount a.1 b.1 ∧ Low F F' a.2 b.2)
      (exec (.updateExchangeAccount id p) now s) (exec (.updateExchangeAccount id q) now t) := by
  have hget := hl.shows.exchangeAccounts.get (fun _ _ => sameAccount_id) id
  have hrel := hl.shows.exchangeAccounts.update (f := assignAccount now p) (g := assignAccount now q)
    (fun _ _ => sameAccount_id) (fun _ _ => sameAccount_assign hpq) (keepsId_assignAccount now p)
    (keepsId_assignAccount now q) (fun _ => rfl) (fun _ => rfl) id
  simp only [exec]
  by_cases hp : p.Storable
  · rw [if_pos hp, if_pos (hstore.1 hp)]
    revert hget
    generalize s.exchangeAccounts.get id = x
    generalize t.exchangeAccounts.get id = y
    intro hget
    cases hget with
    | none => exact .some ⟨.none, hl⟩
    | some hab =>
      exact Sql.rel_map (fun a b hlow => ⟨.some (sameAccount_assign hpq hab), hlow⟩)
        (Sql.rel_map (fun u v huv => low_accounts hl huv) hrel)
  · rw [if_neg hp, if_neg fun hq => hp (hstore.2 hq)]
    exact .none

theorem selectExchangeAccounts_low (hl : Low F F' s t) (userId : Option UUID)
    (status : Option ExchangeAccountStatus) (limit offset : ℕ) :
    Option.Rel (fun a b => List.Forall₂ SameAccount a.1 b.1 ∧ Low F F' a.2 b.2)
      (query (.selectExchangeAccounts userId status limit offset) now s)
      (query (.selectExchangeAccounts userId status limit offset) now t) := by
  refine .some ⟨?_, hl⟩
  unfold selectExchangeAccounts page
  refine List.forall₂_take _ (List.forall₂_drop _ (Sql.forall₂_insertionSort ?_
    (Sql.forall₂_filter (fun a b hab => ?_) hl.shows.exchangeAccounts)))
  · intro a b a' b' hab hab'
    rw [show a.createdAt = b.createdAt from congrArg ExchangeAccountResponse.createdAt hab.1,
      show a'.createdAt = b'.createdAt from congrArg ExchangeAccountResponse.createdAt hab'.1]
  · rw [show a.userId = b.userId from congrArg ExchangeAccountResponse.userId hab.1,
      show a.status = b.status from congrArg ExchangeAccountResponse.status hab.1]

end CopyTrade
