import CopyTrade.Proof.Effects
import CopyTrade.Proof.Mediation
import CopyTrade.Proof.Revocation
import CopyTrade.Proof.Routes

/-!
# Who did what stands in the tables

Any number of API requests on one server, interleaved at their awaited calls, with any faults.

* `sessions_logged_in`: a new session is that of a login whose password the tables had verified.
* `sessions_logged_out`: a session is revoked only by a logout with its token and its CSRF token.
* `entries_accounted`: a new audit entry is that of a request, and names whom the tables had
  authenticated for it.
* `administered_mediated`: what admins administer changes only by requests that the tables, or the
  settings, had admitted.

Each of them speaks of a moment of the run before there was the session, the entry or the change.
-/

namespace CopyTrade

open Async (Input Pool Prog)
open Identity
open Python (Text)
open Sql (Before Heard)

variable {crypto : Crypto} {settings : Settings} {now : Timestamp} {s t : Tables}

/-! ## What the answers say of the tables -/

/-- The request is admitted as the principal by the tables, or by the settings. -/
def Identifies (crypto : Crypto) (settings : Settings) (request : AdmissionRequest)
    (principal : AuthenticatedPrincipal) (now : Timestamp) (s : Tables) : Prop :=
  Shown crypto settings request (fun x => x.AnsweredBy now s) principal

theorem answeredBy_selectAdminCredential {credentialType : String} {d : Digest}
    {row : Option AdminCredentialMatch}
    (h : (⟨.selectAdminCredential credentialType d, row⟩ : Heard identity).AnsweredBy now s) :
    selectAdminCredential credentialType d s = row := by
  obtain ⟨t, ht⟩ := h
  exact congrArg Prod.fst (Option.some.inj ht)

theorem answeredBy_selectSession {d : Digest} {row : Option SessionMatch}
    (h : (⟨.selectSession d, row⟩ : Heard identity).AnsweredBy now s) :
    selectSession d now s = row := by
  obtain ⟨t, ht⟩ := h
  exact congrArg Prod.fst (Option.some.inj ht)

theorem answeredBy_selectPasswordLogin {email : String} {row : Option PasswordLoginMatch}
    (h : (⟨.selectPasswordLogin email, row⟩ : Heard identity).AnsweredBy now s) :
    selectPasswordLogin email s = row := by
  obtain ⟨t, ht⟩ := h
  obtain ⟨email', hemail, he⟩ := Option.map_eq_some_iff.1 ht
  rw [Sql.text_eq_some hemail] at he
  exact congrArg Prod.fst he

theorem answeredBy_revokeSession {d : Digest} {id userId : UUID}
    (h : (⟨.revokeSession d, some (id, userId)⟩ : Heard identity).AnsweredBy now s) :
    ∃ r ∈ s.userSessions, r.sessionTokenHash = d ∧ r.revokedAt = none ∧ r.id = id ∧
      r.userId = userId := by
  obtain ⟨t, ht⟩ := h
  have ht : query (.revokeSession d) now s = some (some (id, userId), t) := ht
  cases hr : revocable? d s with
  | none =>
    simp only [query, hr] at ht
    cases ht
  | some r =>
    simp only [query, hr] at ht
    obtain ⟨he, -⟩ := Sql.Component.answers_eq_some ht
    have hfound := List.find?_some hr
    simp only [decide_eq_true_eq] at hfound
    have hids : id = r.id ∧ userId = r.userId := Prod.mk.inj (Option.some.inj he)
    exact ⟨r, List.mem_of_find?_eq_some hr, hfound.1, hfound.2, hids.1.symm, hids.2.symm⟩

/-- **Who is admitted** comes by one of the three ways. -/
theorem Identifies.ways {request : AdmissionRequest} {principal : AuthenticatedPrincipal}
    (h : Identifies crypto settings request principal now s) :
    ByCredential crypto s request ∨ ByEnvironment settings request ∨
      BySession crypto s now request := by
  cases h with
  | environment h => exact Or.inr (Or.inl h)
  | credential token row htoken hlength hrow hrole =>
    exact Or.inl ⟨token, htoken, hlength,
      selectAdminCredential_iff.1 ⟨row, answeredBy_selectAdminCredential hrow, hrole⟩⟩
  | session token row htoken hrow hcsrf hrole =>
    exact Or.inr (Or.inr ⟨token, htoken,
      sessionAdmits_iff.2 ⟨row, answeredBy_selectSession hrow, hrole, hcsrf⟩⟩)

/-- The password is that of the active user with the email, who holds a role. -/
def PasswordAdmits (crypto : Crypto) (s : Tables) (payload : LoginRequest) (userId : UUID) : Prop :=
  ∃ u ∈ s.users, u.id = userId ∧ u.email = some payload.email ∧ u.status = "active" ∧
    rolesOf userId s ≠ [] ∧ ∃ c ∈ s.passwordCredentials, c.userId = userId ∧ c.active = true ∧
      crypto.verifyPassword payload.password c.passwordHash = true

/-- The row of the one user with the email. -/
theorem selectPasswordLogin_eq {email : String} {u : Identity.UserRow} (hu : u ∈ s.users)
    (hemail : u.email = some email) : selectPasswordLogin email s = (activeUser? u.id s).bind fun a =>
      (s.passwordCredentials.rows.find? fun p => p.userId = u.id ∧ p.active = true).map fun p =>
        ⟨u.id, u.email, u.displayName, p.id, p.passwordHash, a.2⟩ := by
  unfold selectPasswordLogin
  rw [findSome_of_unique hu fun a ha b hab => ?_]
  · rw [if_pos hemail]
  · split at hab
    · rename_i he
      exact Sql.Table.eq_of_clash ha hu (Or.inr ⟨email, he, hemail⟩)
    · cases hab

theorem selectPasswordLogin_found {email : String} {row : PasswordLoginMatch}
    (h : selectPasswordLogin email s = some row) : ∃ u ∈ s.users, u.id = row.userId ∧
      u.email = some email ∧ u.status = "active" ∧ rolesOf u.id s ≠ [] ∧
      ∃ c ∈ s.passwordCredentials, c.userId = u.id ∧ c.active = true ∧ c.passwordHash = row.passwordHash := by
  obtain ⟨u, hu, h⟩ := List.exists_of_findSome?_eq_some h
  split at h
  case isFalse => cases h
  rename_i hemail
  obtain ⟨a, ha, h⟩ := Option.bind_eq_some_iff.1 h
  obtain ⟨c, hc, rfl⟩ := Option.map_eq_some_iff.1 h
  obtain ⟨v, hv, ha⟩ := Option.bind_eq_some_iff.1 ha
  split at ha
  case isFalse => cases ha
  rename_i hactive
  obtain ⟨hmem, hid⟩ := Sql.Table.get_eq_some.1 hv
  have hvu : v = u := Sql.Table.eq_of_id hmem hu hid
  have hcond := List.find?_some hc
  simp only [decide_eq_true_eq] at hcond
  rw [hvu] at hactive
  exact ⟨u, hu, rfl, hemail, hactive.1, hactive.2, c, List.mem_of_find?_eq_some hc, hcond.1, hcond.2, rfl⟩

/-- **What a login finds** is a password that admits. -/
theorem selectPasswordLogin_iff {payload : LoginRequest} {userId : UUID} :
    (∃ row, selectPasswordLogin payload.email s = some row ∧ row.userId = userId ∧
      crypto.verifyPassword payload.password row.passwordHash = true) ↔
      PasswordAdmits crypto s payload userId := by
  constructor
  · rintro ⟨row, hrow, rfl, hverify⟩
    obtain ⟨u, hu, hid, hemail, hactive, hroles, c, hc, hcu, hca, hhash⟩ := selectPasswordLogin_found hrow
    rw [← hhash] at hverify
    rw [hid] at hroles hcu
    exact ⟨u, hu, hid, hemail, hactive, hroles, c, hc, hcu, hca, hverify⟩
  · rintro ⟨u, hu, rfl, hemail, hactive, hroles, c, hc, hcu, hca, hverify⟩
    have huser : s.users.get u.id = some u := Sql.Table.get_eq_some.2 ⟨hu, rfl⟩
    have hjoin : activeUser? u.id s = some (u, rolesOf u.id s) := by
      unfold activeUser?
      rw [huser, Option.bind_some, if_pos ⟨hactive, hroles⟩]
    -- a user has one password
    have hfind : s.passwordCredentials.rows.find? (fun p => p.userId = u.id ∧ p.active = true) = some c := by
      cases hf : s.passwordCredentials.rows.find? fun p => p.userId = u.id ∧ p.active = true with
      | none =>
        have hnot := List.find?_eq_none.1 hf c hc
        simp [hcu, hca] at hnot
      | some c' =>
        have hcond := List.find?_some hf
        simp only [decide_eq_true_eq] at hcond
        have hmem : c' ∈ s.passwordCredentials := List.mem_of_find?_eq_some hf
        exact congrArg some (Sql.Table.eq_of_clash hmem hc (Or.inr (hcond.1.trans hcu.symm)))
    refine ⟨⟨u.id, u.email, u.displayName, c.id, c.passwordHash, rolesOf u.id s⟩, ?_, rfl, hverify⟩
    rw [selectPasswordLogin_eq hu hemail, hjoin, Option.bind_some, hfind]
    rfl

/-! ## What a statement writes -/

/-- The session stands in the tables, for this user. -/
def SessionOf (id userId : UUID) (s : Tables) : Prop :=
  ∃ r ∈ s.userSessions, r.id = id ∧ r.userId = userId

theorem sessionOf_update {sid id userId : UUID} {f : UserSessionRow → UserSessionRow}
    {u : Sql.Table UserSessionRow} (h : s.userSessions.update? sid f = some u)
    (hf : ∀ r, (f r).id = r.id ∧ (f r).userId = r.userId)
    (hr : SessionOf id userId { s with userSessions := u }) : SessionOf id userId s := by
  obtain ⟨r, hr, hid, huser⟩ := hr
  obtain ⟨a, ha, rfl⟩ := (Sql.Table.mem_update h).1 hr
  refine ⟨a, ha, ?_⟩
  split at hid
  · rename_i hsid
    rw [if_pos hsid] at huser
    exact ⟨(hf a).1.symm.trans hid, (hf a).2.symm.trans huser⟩
  · rename_i hsid
    rw [if_neg hsid] at huser
    exact ⟨hid, huser⟩

/-- **A session is made** by the insert of one and by nothing else. -/
theorem sessionOf_made {id userId : UUID} {c : Sql.Call identity}
    (h : c.Raises (SessionOf id userId)) : ∃ tx sessionTokenHash csrfTokenHash expiresAt,
      c = .run tx (.insertSession id userId sessionTokenHash csrfTokenHash expiresAt) := by
  cases c with
  | run tx c =>
    obtain ⟨now, s, a, t, hexec, hnot, hmade⟩ := h
    have hexec : exec c now s = some (a, t) := hexec
    by_cases hs : c.OnSessions
    · cases c with
      | insertSession sid uid sessionTokenHash csrfTokenHash expiresAt =>
        obtain ⟨u, hu, rfl⟩ := exec_effect hexec
        obtain ⟨r, hr, hid, huser⟩ := hmade
        rcases (Sql.Table.mem_insert hu).1 hr with hr | rfl
        · exact absurd ⟨r, hr, hid, huser⟩ hnot
        · have hid : sid = id := hid
          have huser : uid = userId := huser
          rw [hid, huser]
          exact ⟨tx, _, _, _, rfl⟩
      | _ => exact hs.elim
    · unfold SessionOf at hnot hmade
      rw [(exec_tables hexec).userSessions hs] at hmade
      exact absurd hmade hnot
  | query q =>
    obtain ⟨now, s, a, t, hquery, hnot, hmade⟩ := h
    have heff := query_effect hquery
    by_cases hs : q.OnSessions
    · cases q with
      | updateSessionLastSeen sid =>
        obtain ⟨u, hu, rfl⟩ := heff
        exact absurd (sessionOf_update hu (fun _ => ⟨rfl, rfl⟩) hmade) hnot
      | revokeSession d =>
        rcases heff with ⟨-, rfl⟩ | ⟨r, u, -, hu, rfl⟩
        · exact absurd hmade hnot
        · exact absurd (sessionOf_update hu (fun _ => ⟨rfl, rfl⟩) hmade) hnot
      | _ => exact hs.elim
    · unfold SessionOf at hnot hmade
      rw [(query_tables hquery).userSessions hs] at hmade
      exact absurd hmade hnot
  | _ => exact h.elim

/-- The session stands in the tables with this hash, revoked. -/
def RevokedWith (id : UUID) (sessionTokenHash : Digest) (s : Tables) : Prop :=
  ∃ r ∈ s.userSessions, r.id = id ∧ r.sessionTokenHash = sessionTokenHash ∧ r.revokedAt ≠ none

/-- **A session is revoked** by `REVOKE_SESSION_SQL` for its hash and by nothing else. -/
theorem revokedWith_made {id : UUID} {d : Digest} {c : Sql.Call identity}
    (h : c.Raises (RevokedWith id d)) : c = .query (.revokeSession d) := by
  cases c with
  | run tx c =>
    obtain ⟨now, s, a, t, hexec, hnot, hmade⟩ := h
    have hexec : exec c now s = some (a, t) := hexec
    by_cases hs : c.OnSessions
    · cases c with
      | insertSession sid uid sessionTokenHash csrfTokenHash expiresAt =>
        obtain ⟨u, hu, rfl⟩ := exec_effect hexec
        obtain ⟨r, hr, hid, hhash, hrevoked⟩ := hmade
        rcases (Sql.Table.mem_insert hu).1 hr with hr | rfl
        · exact absurd ⟨r, hr, hid, hhash, hrevoked⟩ hnot
        · exact absurd rfl hrevoked
      | _ => exact hs.elim
    · unfold RevokedWith at hnot hmade
      rw [(exec_tables hexec).userSessions hs] at hmade
      exact absurd hmade hnot
  | query q =>
    obtain ⟨now, s, a, t, hquery, hnot, hmade⟩ := h
    have hquery : query q now s = some (a, t) := hquery
    have heff := query_effect hquery
    by_cases hs : q.OnSessions
    · cases q with
      | updateSessionLastSeen sid =>
        obtain ⟨u, hu, rfl⟩ := heff
        obtain ⟨r, hr, hid, hhash, hrevoked⟩ := hmade
        obtain ⟨b, hb, rfl⟩ := (Sql.Table.mem_update hu).1 hr
        refine absurd ⟨b, hb, ?_⟩ hnot
        split at hid
        · rename_i hsid
          rw [if_pos hsid] at hhash hrevoked
          exact ⟨hid, hhash, hrevoked⟩
        · rename_i hsid
          rw [if_neg hsid] at hhash hrevoked
          exact ⟨hid, hhash, hrevoked⟩
      | revokeSession d' =>
        rcases heff with ⟨-, rfl⟩ | ⟨r₀, u, hr₀, hu, rfl⟩
        · exact absurd hmade hnot
        obtain ⟨r, hr, hid, hhash, hrevoked⟩ := hmade
        obtain ⟨b, hb, rfl⟩ := (Sql.Table.mem_update hu).1 hr
        by_cases hsid : Sql.Keyed.id b = r₀.id
        · -- the row that was revoked is the one that was found
          have hmem : r₀ ∈ s.userSessions := List.mem_of_find?_eq_some hr₀
          have hfound := List.find?_some hr₀
          simp only [decide_eq_true_eq] at hfound
          have hb' : b = r₀ := Sql.Table.eq_of_id hb hmem hsid
          rw [if_pos hsid] at hhash
          have hsame : d' = d := by
            rw [← hhash, hb']
            exact hfound.1.symm
          rw [hsame]
        · rw [if_neg hsid] at hid hhash hrevoked
          exact absurd ⟨b, hb, hid, hhash, hrevoked⟩ hnot
      | _ => exact hs.elim
    · unfold RevokedWith at hnot hmade
      rw [(query_tables hquery).userSessions hs] at hmade
      exact absurd hmade hnot
  | _ => exact h.elim

/-- **A row of the log is made** by the insert of its entry and by nothing else. -/
theorem entry_made {row : AuditLogRow AuditState} {c : Sql.Call identity}
    (h : c.Raises fun s : Tables => row ∈ s.auditLogs) :
    (∃ tx id, c = .run tx (.insertAuditLog id row.toAuditEntry)) ∨
      ∃ id, c = .query (.insertAuditLog id row.toAuditEntry) := by
  cases c with
  | run tx c =>
    obtain ⟨now, s, a, t, hexec, hnot, hmade⟩ := h
    have hexec : exec c now s = some (a, t) := hexec
    by_cases hs : c.OnAudit
    · cases c with
      | insertAuditLog id entry =>
        obtain ⟨u, hu, rfl⟩ := exec_effect hexec
        rcases (Sql.Table.mem_insert hu).1 hmade with hr | rfl
        · exact absurd hr hnot
        · exact Or.inl ⟨tx, id, rfl⟩
      | _ => exact hs.elim
    · rw [(exec_tables hexec).auditLogs hs] at hmade
      exact absurd hmade hnot
  | query q =>
    obtain ⟨now, s, a, t, hquery, hnot, hmade⟩ := h
    have hquery : query q now s = some (a, t) := hquery
    by_cases hs : q.OnAudit
    · cases q with
      | insertAuditLog id entry =>
        obtain ⟨u, hu, rfl⟩ := query_effect hquery
        rcases (Sql.Table.mem_insert hu).1 hmade with hr | rfl
        · exact absurd hr hnot
        · exact Or.inr ⟨id, rfl⟩
      | _ => exact hs.elim
    · rw [(query_tables hquery).auditLogs hs] at hmade
      exact absurd hmade hnot
  | _ => exact h.elim

/-- What admins administer: all but the sessions, the log and the times of the last use. -/
structure Administered where
  users : Sql.Table Identity.UserRow
  roles : Sql.Table RoleRow
  userRoles : Sql.Table UserRoleRow
  apiCredentials : List ApiCredentialRow
  passwordCredentials : List PasswordCredentialRow
  exchangeAccounts : Sql.Table ExchangeAccountRecord
  copyRelationships : Relationships

def administered (s : Tables) : Administered where
  users := s.users
  roles := s.roles
  userRoles := s.userRoles
  apiCredentials := s.apiCredentials.rows.map fun r => { r with lastUsedAt := none }
  passwordCredentials := s.passwordCredentials.rows.map fun r => { r with lastUsedAt := none }
  exchangeAccounts := s.exchangeAccounts
  copyRelationships := s.copyRelationships

/-- An update that no reader of `g` sees. -/
theorem map_update {Row Id Entry β : Type} [DecidableEq Id] [DecidableEq Entry] [Sql.Constrained Row]
    [Sql.Keyed Row Id Entry] {u v : Sql.Table Row} {i : Id} {f : Row → Row} {g : Row → β}
    (h : u.update? i f = some v) (hg : ∀ r, g (f r) = g r) : v.rows.map g = u.rows.map g := by
  rw [Sql.Table.updateWhere_eq_some.1 h, List.map_map]
  refine List.map_congr_left fun r _ => ?_
  simp only [Function.comp]
  split
  · exact hg r
  · rfl

/-- The statements of a login leave it as it is. -/
theorem exec_administered {c : Stmt} {a : Ret c} (h : exec c now s = some (a, t))
    (hne : administered t ≠ administered s) :
    (∀ id entry, c ≠ .insertAuditLog id entry) ∧ (∀ id, c ≠ .updatePasswordLastUsed id) ∧
      ∀ id userId sessionTokenHash csrfTokenHash expiresAt,
        c ≠ .insertSession id userId sessionTokenHash csrfTokenHash expiresAt := by
  refine ⟨?_, ?_, ?_⟩
  · rintro id entry rfl
    obtain ⟨u, -, rfl⟩ := exec_effect h
    exact hne rfl
  · rintro id rfl
    obtain ⟨u, hu, rfl⟩ := Sql.Component.update_eq_some (Sql.Component.answers_eq_some h).2
    refine hne ?_
    have hrows := map_update (g := fun r : PasswordCredentialRow => { r with lastUsedAt := none }) hu
      fun _ => rfl
    exact congrArg (fun rows => { administered s with passwordCredentials := rows }) hrows
  · rintro id userId sessionTokenHash csrfTokenHash expiresAt rfl
    obtain ⟨u, -, rfl⟩ := exec_effect h
    exact hne rfl

/-- So do the statements by themselves. -/
theorem query_administered {q : Query} {a : Answer q} (h : query q now s = some (a, t)) :
    administered t = administered s := by
  have heff := query_effect h
  cases q with
  | updateCredentialLastUsed id =>
    obtain ⟨u, hu, rfl⟩ := heff
    have hrows := map_update (g := fun r : ApiCredentialRow => { r with lastUsedAt := none }) hu
      fun _ => rfl
    exact congrArg (fun rows => { administered s with apiCredentials := rows }) hrows
  | updateSessionLastSeen id => obtain ⟨u, -, rfl⟩ := heff; rfl
  | revokeSession d =>
    obtain ⟨-, rfl⟩ | ⟨r, u, -, -, rfl⟩ := heff
    · rfl
    · rfl
  | insertAuditLog id entry => obtain ⟨u, -, rfl⟩ := heff; rfl
  | selectPasswordLogin email => cases heff; rfl
  | _ => obtain ⟨-, rfl⟩ := heff; rfl

/-! ## Any interleaving -/

/-- What accounts for an audit entry: the request, what the tables said of it `before`, and that the
entry names no other. -/
def ApiRequest.Accounts (crypto : Crypto) (settings : Settings)
    (before : (Timestamp → Tables → Prop) → Prop) (entry : AuditEntry AuditState) : ApiRequest → Prop
  | .login payload =>
    (∃ userId, before (fun _ s => PasswordAdmits crypto s payload userId) ∧ entry.actorType = .user ∧
      entry.actorId = some userId.str ∧ entry.action = "auth.login.succeeded") ∨
    (before (fun _ s => ¬ ∃ userId, PasswordAdmits crypto s payload userId) ∧
      entry.actorType = .system ∧ entry.actorId = none ∧ entry.action = "auth.login.failed")
  | .session _ => False
  | .logout sessionToken csrfToken => ∃ token, sessionToken = some token ∧
    before (fun now s => ∃ row, selectSession (crypto.hashApiToken token) now s = some row ∧
      csrfPasses crypto csrfToken true row.csrfTokenHash = true) ∧
    ∃ id userId, before (fun _ s => ∃ r ∈ s.userSessions, r.sessionTokenHash = crypto.hashApiToken token ∧
        r.revokedAt = none ∧ r.id = id ∧ r.userId = userId) ∧
      entry.actorType = .user ∧ entry.actorId = some userId.str ∧ entry.entityId = some id ∧
      entry.action = "auth.logout"
  | .guarded request operation => ∃ principal, before (Identifies crypto settings request principal) ∧
    ActsFor principal operation.actions entry

section

variable {R : Tables → Prop} {p₀ : Pool identityServer} {xs : List (Input identityServer)}

/-- What held at a moment, and what follows from it. -/
theorem before_mono {P Q : Timestamp → Tables → Prop} (hPQ : ∀ now s, P now s → Q now s)
    (h : Before R p₀ xs P) : Before R p₀ xs Q := by
  obtain ⟨ys, zs, p₁, hxs, hrun, hnot, hP⟩ := h
  exact ⟨ys, zs, p₁, hxs, hrun, hnot, hPQ _ _ hP⟩

/-- The answers that show a principal were given at one moment. -/
theorem Shown.before {request : AdmissionRequest} {principal : AuthenticatedPrincipal}
    (h0 : ¬ R p₀.state.db.current)
    (h : Shown crypto settings request (fun x => Before R p₀ xs x.AnsweredBy) principal) :
    Before R p₀ xs (Identifies crypto settings request principal) := by
  cases h with
  | environment h => exact ⟨[], xs, p₀, rfl, rfl, h0, .environment h⟩
  | credential token row htoken hlength hrow hrole =>
    exact before_mono (fun _ _ hx => .credential token row htoken hlength hx hrole) hrow
  | session token row htoken hrow hcsrf hrole =>
    exact before_mono (fun _ _ hx => .session token row htoken hx hcsrf hrole) hrow

end

variable {sessionTtlMinutes : ℤ} {s₀ : Tables} {supply : ℕ → Drawn}
  {xs : List (Input identityServer)} {p : Pool identityServer} {R : Tables → Prop}

/-- **What came about in a run of API requests** was brought about by a call that one of them makes
by what it had been answered before. -/
theorem requests_attributed
    (hx : ∀ q, Input.begin q ∈ xs → ∃ r : ApiRequest, q = r.program crypto settings sessionTtlMinutes)
    (h : (Pool.init (Sql.Server.start (S := identity) s₀ now supply)).run? xs = some p)
    (h0 : ¬ R s₀) (hR : R p.state.db.current) :
    ∃ (r : ApiRequest) (e : Async.Entry IdentityApi) (heard : List (Heard identity)), e ∈ p.trace ∧
      (Async.begun xs)[e.who]? = some (r.program crypto settings sessionTtlMinutes) ∧
      e.call.Raises R ∧ e.call.CommittedIn p.state.db.history ∧ r.Permits crypto settings heard e.call ∧
      ∀ x ∈ heard, Before R (Pool.init (Sql.Server.start (S := identity) s₀ now supply)) xs x.AnsweredBy := by
  obtain ⟨q, e, he, hq, hraises, hcommitted, hheard⟩ := Sql.run_attributed h0 h hR
  obtain ⟨r, rfl⟩ := hx q (Async.begun_input hq)
  obtain ⟨heard, hpermits, hbefore⟩ := hheard _ (r.keeps sessionTtlMinutes)
  exact ⟨r, e, heard, he, hq, hraises, hcommitted, hpermits, hbefore⟩

/-- The password that a login recognised. -/
theorem Recognised.before {R : Tables → Prop} {p₀ : Pool identityServer} {payload : LoginRequest}
    {heard : List (Heard identity)} {row : PasswordLoginMatch}
    (h : Recognised crypto payload (· ∈ heard) row)
    (hheard : ∀ x ∈ heard, Before R p₀ xs x.AnsweredBy) :
    Before R p₀ xs fun _ s => PasswordAdmits crypto s payload row.userId := by
  refine before_mono (fun now s hx => ?_) (hheard _ h.answered)
  exact selectPasswordLogin_iff.1 ⟨row, answeredBy_selectPasswordLogin hx, rfl, h.password⟩

/-- **A new session** is that of a login, whose insert of it is committed, and whose password was that of
the session's user. -/
theorem sessions_logged_in
    (hx : ∀ q, Input.begin q ∈ xs → ∃ r : ApiRequest, q = r.program crypto settings sessionTtlMinutes)
    (h : (Pool.init (Sql.Server.start (S := identity) s₀ now supply)).run? xs = some p)
    (id userId : UUID) (hnew : ¬ SessionOf id userId s₀)
    (hsession : SessionOf id userId p.state.db.current) :
    ∃ payload, ∃ e ∈ p.trace,
      (Async.begun xs)[e.who]? = some ((ApiRequest.login payload).program crypto settings sessionTtlMinutes) ∧
      (∃ tx sessionTokenHash csrfTokenHash expiresAt,
        e.call = .run tx (.insertSession id userId sessionTokenHash csrfTokenHash expiresAt)) ∧
      e.call.CommittedIn p.state.db.history ∧
      Before (SessionOf id userId) (Pool.init (Sql.Server.start (S := identity) s₀ now supply)) xs
        fun _ s => PasswordAdmits crypto s payload userId := by
  obtain ⟨r, e, heard, he, hr, hraises, hcommitted, hpermits, hbefore⟩ :=
    requests_attributed hx h hnew hsession
  obtain ⟨tx, sessionTokenHash, csrfTokenHash, expiresAt, hcall⟩ := sessionOf_made hraises
  rw [hcall] at hpermits
  cases r with
  | login payload =>
    obtain ⟨row, hrow, rfl⟩ := hpermits
    exact ⟨payload, e, he, hr, ⟨tx, sessionTokenHash, csrfTokenHash, expiresAt, hcall⟩, hcommitted,
      hrow.before hbefore⟩
  | session sessionToken => exact hpermits.elim
  | logout sessionToken csrfToken => exact hpermits.elim
  | guarded request operation =>
    obtain ⟨principal, -, hacts⟩ := hpermits
    exact hacts.elim

/-- **A new audit entry** is accounted for by a request of the run. -/
theorem entries_accounted
    (hx : ∀ q, Input.begin q ∈ xs → ∃ r : ApiRequest, q = r.program crypto settings sessionTtlMinutes)
    (h : (Pool.init (Sql.Server.start (S := identity) s₀ now supply)).run? xs = some p)
    (row : AuditLogRow AuditState) (hnew : row ∉ s₀.auditLogs)
    (hrow : row ∈ p.state.db.current.auditLogs) :
    ∃ r : ApiRequest, Input.begin (r.program crypto settings sessionTtlMinutes) ∈ xs ∧
      r.Accounts crypto settings (Before (fun s : Tables => row ∈ s.auditLogs)
        (Pool.init (Sql.Server.start (S := identity) s₀ now supply)) xs) row.toAuditEntry := by
  obtain ⟨r, e, heard, -, hr, hraises, -, hpermits, hbefore⟩ :=
    requests_attributed (R := fun s : Tables => row ∈ s.auditLogs) hx h hnew hrow
  refine ⟨r, Async.begun_input hr, ?_⟩
  rcases entry_made hraises with ⟨tx, id, hcall⟩ | ⟨id, hcall⟩
  all_goals rw [hcall] at hpermits
  · -- in a transaction: a login that succeeded, or an operation
    cases r with
    | login payload =>
      obtain ⟨found, hfound, htype, hid, haction⟩ := hpermits
      exact Or.inl ⟨found.userId, hfound.before hbefore, htype, hid, haction⟩
    | session sessionToken => exact hpermits.elim
    | logout sessionToken csrfToken => exact hpermits.elim
    | guarded request operation =>
      obtain ⟨principal, hshown, hacts⟩ := hpermits
      exact ⟨principal, (hshown.mono hbefore).before hnew, hacts⟩
  · -- by itself: a login that failed, or a logout
    cases r with
    | login payload =>
      obtain ⟨⟨found, hfound, hwrong⟩, htype, hid, haction⟩ := hpermits
      refine Or.inr ⟨before_mono (fun now s hs => ?_) (hbefore _ hfound), htype, hid, haction⟩
      rintro ⟨userId, hadmits⟩
      obtain ⟨r', hr', -, hverify⟩ := selectPasswordLogin_iff.2 hadmits
      have hsame : found = some r' := (answeredBy_selectPasswordLogin hs).symm.trans hr'
      rw [hwrong r' hsame] at hverify
      cases hverify
    | session sessionToken => exact hpermits.elim
    | logout sessionToken csrfToken =>
      obtain ⟨token, sid, userId, ⟨htoken, found, hfound, hcsrf⟩, hrevoked, htype, hid, hentity, haction⟩ :=
        hpermits
      refine ⟨token, htoken, before_mono (fun now s hs => ?_) (hbefore _ hfound), sid, userId,
        before_mono (fun now s hs => ?_) (hbefore _ hrevoked), htype, hid, hentity, haction⟩
      · exact ⟨found, answeredBy_selectSession hs, hcsrf⟩
      · exact answeredBy_revokeSession hs
    | guarded request operation => exact hpermits.elim

/-- **What admins administer** changes only by an operation of a request that was admitted by one
of the three ways, at a moment when it had not changed so. -/
theorem administered_mediated
    (hx : ∀ q, Input.begin q ∈ xs → ∃ r : ApiRequest, q = r.program crypto settings sessionTtlMinutes)
    (h : (Pool.init (Sql.Server.start (S := identity) s₀ now supply)).run? xs = some p)
    (hchanged : administered p.state.db.current ≠ administered s₀) :
    ∃ request operation, Input.begin
        ((ApiRequest.guarded request operation).program crypto settings sessionTtlMinutes) ∈ xs ∧
      operation.actions ≠ [] ∧
      Before (fun s => administered s = administered p.state.db.current)
        (Pool.init (Sql.Server.start (S := identity) s₀ now supply)) xs fun now s =>
          ByCredential crypto s request ∨ ByEnvironment settings request ∨
            BySession crypto s now request := by
  have h0 : ¬ administered s₀ = administered p.state.db.current := fun he => hchanged he.symm
  obtain ⟨r, ⟨i, c, reply⟩, heard, -, hr, hraises, -, hpermits, hbefore⟩ := requests_attributed
    (R := fun s => administered s = administered p.state.db.current) hx h h0 rfl
  cases c with
  | query q =>
    obtain ⟨now', s, a, t, hquery, hnot, hmade⟩ := hraises
    exact absurd ((query_administered hquery).symm.trans hmade) hnot
  | run tx c =>
    obtain ⟨now', s, a, t, hexec, hnot, hmade⟩ := hraises
    obtain ⟨haudit, hpassword, hsession⟩ := exec_administered hexec fun he => hnot (he.symm.trans hmade)
    cases r with
    | login payload =>
      -- a login writes sessions, entries and the time of the last use
      cases c with
      | insertSession id userId sessionTokenHash csrfTokenHash expiresAt =>
        exact absurd rfl (hsession id userId sessionTokenHash csrfTokenHash expiresAt)
      | updatePasswordLastUsed id => exact absurd rfl (hpassword id)
      | insertAuditLog id entry => exact absurd rfl (haudit id entry)
      | _ => exact hpermits.elim
    | session sessionToken => exact hpermits.elim
    | logout sessionToken csrfToken => exact hpermits.elim
    | guarded request operation =>
      obtain ⟨principal, hshown, hacts⟩ := hpermits
      have hactions : operation.actions ≠ [] := by
        cases c with
        | insertSession id userId sessionTokenHash csrfTokenHash expiresAt => exact hacts.elim
        | insertAuditLog id entry => exact absurd rfl (haudit id entry)
        | _ => exact hacts
      exact ⟨request, operation, Async.begun_input hr, hactions,
        before_mono (fun _ _ hid => hid.ways) ((hshown.mono hbefore).before h0)⟩
  | _ => exact hraises.elim

/-! ### A login, and an operation of an admin -/

/-- Every token has one digest, and the password is `open sesame`. -/
def sampleCrypto : Crypto where
  hashApiToken _ := 0
  hashPassword _ _ := "scrypt"
  verifyPassword password hash := password == Python.text "open sesame" && hash == "scrypt"

def closedSettings : Settings where
  env := Python.text "production"
  adminApiToken := none

/-- One active admin with a password and an API credential. -/
def oneAdmin : Tables where
  users := .singleton ⟨⟨1⟩, some "admin@example.org", none, "active", active_status⟩
  roles := .singleton ⟨⟨2⟩, "admin"⟩
  userRoles := .singleton ⟨⟨1⟩, ⟨2⟩⟩
  apiCredentials := .singleton
    ⟨⟨3⟩, ⟨1⟩, adminApiCredentialType, 0, none, true, 0, none, adminApiCredentialType_check⟩
  passwordCredentials := .singleton ⟨⟨4⟩, ⟨1⟩, "scrypt", true, none⟩
  userSessions := Sql.Table.empty
  auditLogs := Sql.Table.empty

theorem post_ascii : Python.IsAscii (Python.text "POST") := by
  simp [Python.IsAscii, Python.text]
  decide

theorem token_ascii : ∀ t ∈ some (Python.text "0123456789abcdef0123456789abcdef"), Python.IsAscii t := by
  simp [Python.IsAscii, Python.text]
  decide

theorem none_ascii : ∀ t ∈ (none : Option Text), Python.IsAscii t := fun _ h => nomatch h

/-- A request with the token of the credential. -/
def tokenRequest : AdmissionRequest where
  method := Python.text "POST"
  token := some (Python.text "0123456789abcdef0123456789abcdef")
  method_ascii := post_ascii
  token_ascii := token_ascii
  sessionToken_ascii := none_ascii
  csrfToken_ascii := none_ascii

/-- The login of the admin, and a request of it that creates a copy relationship. -/
def adminRequests : List ApiRequest :=
  [.login ⟨"admin@example.org", Python.text "open sesame"⟩,
    .guarded tokenRequest (.createCopyRelationship wildcardPayload)]

def adminRun : List (Input identityServer) :=
  adminRequests.map (fun r => .begin (r.program sampleCrypto closedSettings 60)) ++
    List.replicate 12 (.turn 0 .works) ++ List.replicate 12 (.turn 1 .works)

theorem adminRun_requests (q : Prog IdentityApi Unit) (hq : Input.begin q ∈ adminRun) :
    ∃ r : ApiRequest, q = r.program sampleCrypto closedSettings 60 := by
  have hmem : Input.begin q ∈ adminRequests.map fun r =>
      (.begin (r.program sampleCrypto closedSettings 60) : Input identityServer) := by
    simpa [adminRun] using hq
  obtain ⟨r, -, he⟩ := List.mem_map.1 hmem
  exact ⟨r, (Input.begin.inj he).symm⟩

def adminSupply : ℕ → Drawn := fun n => ⟨⟨10 + n⟩, [], [], 0⟩

/-- The run makes the session and both entries. -/
theorem adminRun_ends : ∃ p : Pool identityServer,
    (Pool.init (Sql.Server.start (S := identity) oneAdmin 0 adminSupply)).run? adminRun = some p ∧
    SessionOf ⟨12⟩ ⟨1⟩ p.state.db.current ∧
    (∃ row ∈ p.state.db.current.auditLogs, row.action = "copy_relationship.created") ∧
    p.state.db.current.copyRelationships.rows.length = 1 :=
  ⟨_, rfl, ⟨_, List.mem_singleton_self _, rfl, rfl⟩,
    ⟨_, List.mem_cons_of_mem _ (List.mem_singleton_self _), rfl⟩, rfl⟩

theorem sessions_logged_in_sample : ∃ p : Pool identityServer,
    (Pool.init (Sql.Server.start (S := identity) oneAdmin 0 adminSupply)).run? adminRun = some p ∧
    ∃ payload, ∃ e ∈ p.trace, (Async.begun adminRun)[e.who]? = some
        ((ApiRequest.login payload).program sampleCrypto closedSettings 60) ∧
      (∃ tx sessionTokenHash csrfTokenHash expiresAt,
        e.call = .run tx (.insertSession ⟨12⟩ ⟨1⟩ sessionTokenHash csrfTokenHash expiresAt)) ∧
      e.call.CommittedIn p.state.db.history ∧
      Before (SessionOf ⟨12⟩ ⟨1⟩) (Pool.init (Sql.Server.start (S := identity) oneAdmin 0 adminSupply))
        adminRun fun _ s => PasswordAdmits sampleCrypto s payload ⟨1⟩ := by
  obtain ⟨p, hp, hsession, -⟩ := adminRun_ends
  refine ⟨p, hp, sessions_logged_in adminRun_requests hp ⟨12⟩ ⟨1⟩ ?_ hsession⟩
  rintro ⟨r, hr, -⟩
  cases hr

/-- A logout of the one session. -/
def logoutRun : List (Input identityServer) :=
  .begin ((ApiRequest.logout (some (Python.text "session")) (some (Python.text "csrf"))).program
    sessionCrypto closedSettings 60) :: List.replicate 9 (.turn 0 .works)

theorem entries_accounted_sample : ∃ (row : AuditLogRow AuditState) (r : ApiRequest),
    row.action = "copy_relationship.created" ∧
    Input.begin (r.program sampleCrypto closedSettings 60) ∈ adminRun ∧
      r.Accounts sampleCrypto closedSettings (Before (fun s : Tables => row ∈ s.auditLogs)
        (Pool.init (Sql.Server.start (S := identity) oneAdmin 0 adminSupply)) adminRun)
        row.toAuditEntry := by
  obtain ⟨p, hp, -, ⟨row, hrow, haction⟩, -⟩ := adminRun_ends
  have hnew : row ∉ oneAdmin.auditLogs := fun h => by cases h
  obtain ⟨r, hr, haccounts⟩ := entries_accounted adminRun_requests hp row hnew hrow
  exact ⟨row, r, haction, hr, haccounts⟩

theorem administered_mediated_sample : ∃ p : Pool identityServer,
    administered p.state.db.current ≠ administered oneAdmin ∧
    ∃ request operation, Input.begin
        ((ApiRequest.guarded request operation).program sampleCrypto closedSettings 60) ∈ adminRun ∧
      operation.actions ≠ [] ∧
      Before (fun s => administered s = administered p.state.db.current)
        (Pool.init (Sql.Server.start (S := identity) oneAdmin 0 adminSupply)) adminRun fun now s =>
          ByCredential sampleCrypto s request ∨ ByEnvironment closedSettings request ∨
            BySession sampleCrypto s now request := by
  obtain ⟨p, hp, -, -, hone⟩ := adminRun_ends
  have hchanged : administered p.state.db.current ≠ administered oneAdmin := by
    intro he
    have hrows := congrArg (fun a => a.copyRelationships.rows.length) he
    exact absurd (hone.symm.trans hrows) (by decide)
  exact ⟨p, hchanged, administered_mediated adminRun_requests hp hchanged⟩

end CopyTrade
