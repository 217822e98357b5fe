import CopyTrade.Spec.Auth

/-!
# Who is admitted

The three ways into the admin API, read off the tables, and what `require_admin_token`
makes of them.

* `selectAdminCredential_iff`, `selectSession_iff`: what the two joins find.
* `requireAdminToken_ensures`: where no repository call raises, the request is admitted by
  one of the three ways, unless the configured token cannot be compared.
-/

namespace CopyTrade

open Async (Prog)
open Identity
open Python (Text)

/-- The user is active and holds role `admin`. -/
def ActiveAdmin (s : Tables) (userId : UUID) : Prop :=
  ∃ u ∈ s.users, u.id = userId ∧ u.status = "active" ∧
    ∃ ur ∈ s.userRoles, ur.userId = userId ∧ ∃ r ∈ s.roles, r.id = ur.roleId ∧ r.name = adminRole

/-- The token belongs to an active admin credential of an active admin. -/
def CredentialAdmits (crypto : Crypto) (s : Tables) (token : Text) : Prop :=
  32 ≤ token.length ∧ ∃ c ∈ s.apiCredentials, c.credentialType = adminApiCredentialType ∧
    c.tokenHash = crypto.hashApiToken token ∧ c.active = true ∧ ActiveAdmin s c.userId

/-- The CSRF token, where one is required, is that of the session. -/
def CsrfMatches (crypto : Crypto) (csrfToken : Option Text) (requireCsrf : Bool)
    (session : UserSessionRow) : Prop :=
  requireCsrf = true → ∃ t, csrfToken = some t ∧ crypto.hashApiToken t = session.csrfTokenHash

/-- The token belongs to an unrevoked, unexpired session of an active admin, and the CSRF
token to that session. -/
def SessionAdmits (crypto : Crypto) (s : Tables) (now : Timestamp) (sessionToken : Text)
    (csrfToken : Option Text) (requireCsrf : Bool) : Prop :=
  ∃ session ∈ s.userSessions, session.sessionTokenHash = crypto.hashApiToken sessionToken ∧
    session.revokedAt = none ∧ now < session.expiresAt ∧ ActiveAdmin s session.userId ∧
    CsrfMatches crypto csrfToken requireCsrf session

/-- The environment admits tokens from the settings. -/
def EnvironmentOpen (settings : Settings) : Prop :=
  settings.allowEnvironmentAdminToken = true ∧
    Python.lower settings.env ∈ environmentAdminTokenEnvs

/-! ## What the joins find -/

theorem mem_rolesOf {userId : UUID} {s : Tables} {name : String} : name ∈ rolesOf userId s ↔
    ∃ ur ∈ s.userRoles, ur.userId = userId ∧ ∃ r ∈ s.roles, r.id = ur.roleId ∧ r.name = name := by
  unfold rolesOf
  rw [List.mem_insertionSort, List.mem_filterMap]
  constructor
  · rintro ⟨ur, hur, hname⟩
    obtain ⟨hmem, huser⟩ := List.mem_filter.1 hur
    obtain ⟨r, hr, rfl⟩ := Option.map_eq_some_iff.1 hname
    obtain ⟨hrmem, hrid⟩ := Sql.Table.get_eq_some.1 hr
    exact ⟨ur, hmem, by simpa using huser, r, hrmem, hrid, rfl⟩
  · rintro ⟨ur, hmem, huser, r, hrmem, hrid, rfl⟩
    have hget : s.roles.get ur.roleId = some r := Sql.Table.get_eq_some.2 ⟨hrmem, hrid⟩
    exact ⟨ur, List.mem_filter.2 ⟨hmem, by simpa using huser⟩, by rw [hget]; rfl⟩

/-- The joins find the admin role of a user exactly where it is an active admin. -/
theorem activeUser_iff {userId : UUID} {s : Tables} :
    (∃ p, activeUser? userId s = some p ∧ adminRole ∈ p.2) ↔ ActiveAdmin s userId := by
  unfold activeUser?
  constructor
  · rintro ⟨p, hp, hrole⟩
    obtain ⟨user, huser, hp⟩ := Option.bind_eq_some_iff.1 hp
    obtain ⟨hmem, hid⟩ := Sql.Table.get_eq_some.1 huser
    split at hp
    · rename_i hactive
      cases hp
      exact ⟨user, hmem, hid, hactive.1, mem_rolesOf.1 hrole⟩
    · cases hp
  · rintro ⟨user, hmem, hid, hactive, hrole⟩
    have huser : s.users.get userId = some user := Sql.Table.get_eq_some.2 ⟨hmem, hid⟩
    have hadmin : adminRole ∈ rolesOf userId s := mem_rolesOf.2 hrole
    have hne : rolesOf userId s ≠ [] := List.ne_nil_of_mem hadmin
    exact ⟨(user, rolesOf userId s), by rw [huser, Option.bind_some, if_pos ⟨hactive, hne⟩], hadmin⟩

/-- Where at most one row can be picked, it is picked wherever it stands. -/
theorem findSome_of_unique {α β : Type} {l : List α} {f : α → Option β} {c : α} (hc : c ∈ l)
    (hunique : ∀ a ∈ l, ∀ b, f a = some b → a = c) : l.findSome? f = f c := by
  cases hf : l.findSome? f with
  | some b =>
    obtain ⟨a, ha, hab⟩ := List.exists_of_findSome?_eq_some hf
    rw [← hunique a ha b hab, hab]
  | none => exact (List.findSome?_eq_none_iff.1 hf c hc).symm

/-- **The credential join** finds an admin exactly where the token's hash belongs to an
active credential of one. -/
theorem selectAdminCredential_iff {s : Tables} {h : Digest} :
    (∃ row, selectAdminCredential adminApiCredentialType h s = some row ∧ adminRole ∈ row.roles) ↔
      ∃ c ∈ s.apiCredentials, c.credentialType = adminApiCredentialType ∧ c.tokenHash = h ∧
        c.active = true ∧ ActiveAdmin s c.userId := by
  unfold selectAdminCredential
  constructor
  · rintro ⟨row, hrow, hrole⟩
    obtain ⟨c, hc, hrow⟩ := List.exists_of_findSome?_eq_some hrow
    split at hrow
    · rename_i hcond
      obtain ⟨p, hp, rfl⟩ := Option.map_eq_some_iff.1 hrow
      have hadmin : ActiveAdmin s c.userId := activeUser_iff.1 ⟨p, hp, hrole⟩
      exact ⟨c, hc, hcond.1, hcond.2.1, hcond.2.2, hadmin⟩
    · cases hrow
  · rintro ⟨c, hc, htype, hhash, hactive, hadmin⟩
    obtain ⟨p, hp, hrole⟩ := activeUser_iff.2 hadmin
    refine ⟨⟨p.1.id, c.id, p.2⟩, ?_, hrole⟩
    rw [findSome_of_unique hc fun a ha b hab => ?_]
    · rw [if_pos ⟨htype, hhash, hactive⟩, hp]
      rfl
    · -- the hash is unique
      split at hab
      · rename_i hcond
        have hsame : a.tokenHash = c.tokenHash := hcond.2.1.trans hhash.symm
        exact Sql.Table.eq_of_clash ha hc (Or.inr hsame)
      · cases hab

/-- **The session join** finds a session exactly where the token's hash belongs to one that
is neither revoked nor expired, and its user is active and holds a role. -/
theorem selectSession_eq_some {s : Tables} {h : Digest} {now : Timestamp} {session : UserSessionRow}
    (hmem : session ∈ s.userSessions) (hhash : session.sessionTokenHash = h)
    (hlive : session.revokedAt = none) (hnow : now < session.expiresAt) :
    selectSession h now s = (activeUser? session.userId s).map fun u =>
      ⟨session.id, session.csrfTokenHash, session.expiresAt, u.1.id, u.1.email, u.1.displayName, u.2⟩ := by
  unfold selectSession
  rw [findSome_of_unique hmem fun a ha b hab => ?_]
  · rw [if_pos ⟨hhash, hlive, hnow⟩]
  · split at hab
    · rename_i hcond
      have hsame : a.sessionTokenHash = session.sessionTokenHash := hcond.1.trans hhash.symm
      exact Sql.Table.eq_of_clash ha hmem (Or.inr hsame)
    · cases hab

theorem selectSession_found {s : Tables} {h : Digest} {now : Timestamp} {row : SessionMatch}
    (hrow : selectSession h now s = some row) :
    ∃ session ∈ s.userSessions, session.sessionTokenHash = h ∧ session.revokedAt = none ∧
      now < session.expiresAt ∧ row.csrfTokenHash = session.csrfTokenHash ∧
      ∃ u, activeUser? session.userId s = some u ∧ row.roles = u.2 := by
  obtain ⟨session, hmem, hrow⟩ := List.exists_of_findSome?_eq_some hrow
  split at hrow
  · rename_i hcond
    obtain ⟨u, hu, rfl⟩ := Option.map_eq_some_iff.1 hrow
    exact ⟨session, hmem, hcond.1, hcond.2.1, hcond.2.2, rfl, u, hu, rfl⟩
  · cases hrow

theorem csrfPasses_iff {crypto : Crypto} {csrfToken : Option Text} {requireCsrf : Bool}
    {session : UserSessionRow} :
    csrfPasses crypto csrfToken requireCsrf session.csrfTokenHash = true ↔
      CsrfMatches crypto csrfToken requireCsrf session := by
  unfold csrfPasses CsrfMatches
  cases requireCsrf with
  | false => simp
  | true => cases csrfToken <;> simp

/-- **The session way**: the join finds a session of an admin, and the CSRF check passes. -/
theorem sessionAdmits_iff {crypto : Crypto} {s : Tables} {now : Timestamp} {sessionToken : Text}
    {csrfToken : Option Text} {requireCsrf : Bool} :
    SessionAdmits crypto s now sessionToken csrfToken requireCsrf ↔
      ∃ row, selectSession (crypto.hashApiToken sessionToken) now s = some row ∧
        adminRole ∈ row.roles ∧ csrfPasses crypto csrfToken requireCsrf row.csrfTokenHash = true := by
  constructor
  · rintro ⟨session, hmem, hhash, hlive, hnow, hadmin, hcsrf⟩
    obtain ⟨u, hu, hrole⟩ := activeUser_iff.2 hadmin
    refine ⟨_, by rw [selectSession_eq_some hmem hhash hlive hnow, hu]; rfl, hrole, ?_⟩
    exact csrfPasses_iff.2 hcsrf
  · rintro ⟨row, hrow, hrole, hcsrf⟩
    obtain ⟨session, hmem, hhash, hlive, hnow, hsame, u, hu, hroles⟩ := selectSession_found hrow
    rw [hroles] at hrole
    rw [hsame] at hcsrf
    have hadmin : ActiveAdmin s session.userId := activeUser_iff.1 ⟨u, hu, hrole⟩
    exact ⟨session, hmem, hhash, hlive, hnow, hadmin, csrfPasses_iff.1 hcsrf⟩

/-! ## What the dependency makes of them -/

/-- The calls of the admission. -/
def AdmissionCall : Sql.Call identity → Prop
  | .connect => True
  | .close => True
  | .query (.selectAdminCredential _ _) => True
  | .query (.updateCredentialLastUsed _) => True
  | .query (.selectSession _) => True
  | .query (.updateSessionLastSeen _) => True
  | _ => False

/-- No call raises, and the joins answer what stands in the tables. -/
def Answered (s : Tables) (now : Timestamp) :
    (c : Sql.Call identity) → IdentityApi.Reply c → Prop
  | .query (.selectAdminCredential credentialType tokenHash), r =>
    r = .ok (selectAdminCredential credentialType tokenHash s)
  | .query (.selectSession sessionTokenHash), r => r = .ok (selectSession sessionTokenHash now s)
  | _, r => ∃ a, r = .ok a

abbrev faithful (s : Tables) (now : Timestamp) : Async.Rely IdentityApi :=
  ⟨AdmissionCall, Answered s now⟩

theorem faithful_raises {s : Tables} {now : Timestamp} {X : ApiError → Prop} (c : Sql.Call identity)
    (e : ApiError) (h : (faithful s now).answers c (.error e)) : X e := by
  have h : Answered s now c (.error e) := h
  unfold Answered at h
  split at h
  · cases h
  · cases h
  · obtain ⟨a, ha⟩ := h
    cases ha

section

variable {crypto : Crypto} {s : Tables} {now : Timestamp}

theorem authenticateAdminToken_ensures (token : Text) {X : ApiError → Prop} :
    (authenticateAdminToken crypto token).Ensures (faithful s now)
      (fun a => (∃ p, a = some p ∧ adminRole ∈ p.roles ∧ CredentialAdmits crypto s token) ∨
        (a = none ∧ ¬ CredentialAdmits crypto s token)) X := by
  unfold authenticateAdminToken
  split
  · rename_i hshort
    have hlength : ¬ 32 ≤ token.length := by
      simpa [isAdminApiTokenCandidate, minAdminApiTokenLength] using hshort
    exact Or.inr ⟨rfl, fun h => hlength h.1⟩
  rename_i hlong
  have hlength : 32 ≤ token.length := by
    simpa [isAdminApiTokenCandidate, minAdminApiTokenLength] using hlong
  have hiff := selectAdminCredential_iff (s := s) (h := crypto.hashApiToken token)
  refine Sql.ensures_withConnection trivial trivial faithful_raises ?_
  refine Prog.ensures_bind (Prog.ensures_call trivial (fun row hrow => ?_) (faithful_raises _))
  have hrow : row = selectAdminCredential adminApiCredentialType (crypto.hashApiToken token) s :=
    Except.ok.inj hrow
  cases row with
  | none =>
    refine Or.inr ⟨rfl, fun h => ?_⟩
    obtain ⟨row, hr, -⟩ := hiff.2 h.2
    rw [← hrow] at hr
    cases hr
  | some row =>
    by_cases hrole : adminRole ∈ row.roles
    · simp only [hrole, not_true_eq_false, if_false]
      refine Prog.ensures_bind (Prog.ensures_call trivial (fun _ _ => ?_) (faithful_raises _))
      have hadmits : CredentialAdmits crypto s token := ⟨hlength, hiff.1 ⟨row, hrow.symm, hrole⟩⟩
      exact Or.inl ⟨_, rfl, hrole, hadmits⟩
    · simp only [hrole, not_false_eq_true, if_true]
      refine Or.inr ⟨rfl, fun h => ?_⟩
      obtain ⟨row', hr, hrole'⟩ := hiff.2 h.2
      rw [← hrow] at hr
      cases hr
      exact hrole hrole'

theorem authenticateSession_ensures (sessionToken : Text) (csrfToken : Option Text)
    (requireCsrf : Bool) {X : ApiError → Prop} :
    (authenticateSession crypto sessionToken csrfToken requireCsrf).Ensures (faithful s now)
      (fun a => (∃ x, a = some x ∧ (adminRole ∈ x.principal.roles ↔
          SessionAdmits crypto s now sessionToken csrfToken requireCsrf)) ∨
        (a = none ∧ ¬ SessionAdmits crypto s now sessionToken csrfToken requireCsrf)) X := by
  unfold authenticateSession
  refine Sql.ensures_withConnection trivial trivial faithful_raises ?_
  refine Prog.ensures_bind (Prog.ensures_call trivial (fun row hrow => ?_) (faithful_raises _))
  have hrow : row = selectSession (crypto.hashApiToken sessionToken) now s := Except.ok.inj hrow
  cases row with
  | none =>
    refine Or.inr ⟨rfl, fun h => ?_⟩
    obtain ⟨row, hr, -⟩ := sessionAdmits_iff.1 h
    rw [← hrow] at hr
    cases hr
  | some row =>
    -- the join found this row and no other
    have hsame : ∀ {row'}, selectSession (crypto.hashApiToken sessionToken) now s = some row' →
        row' = row := fun h => Option.some.inj (h.symm.trans hrow.symm)
    by_cases hcsrf : csrfPasses crypto csrfToken requireCsrf row.csrfTokenHash = true
    · simp only [hcsrf, Bool.not_true, Bool.false_eq_true, if_false]
      refine Prog.ensures_bind (Prog.ensures_call trivial (fun _ _ => ?_) (faithful_raises _))
      refine Or.inl ⟨_, rfl, fun hrole => ?_, fun h => ?_⟩
      · exact sessionAdmits_iff.2 ⟨row, hrow.symm, hrole, hcsrf⟩
      · obtain ⟨row', hr, hrole, -⟩ := sessionAdmits_iff.1 h
        rw [hsame hr] at hrole
        exact hrole
    · simp only [hcsrf, Bool.not_false, if_true]
      refine Or.inr ⟨rfl, fun h => ?_⟩
      obtain ⟨row', hr, -, hpass⟩ := sessionAdmits_iff.1 h
      rw [hsame hr] at hpass
      exact hcsrf hpass

end

/-! ### The three ways -/

/-- By an active admin credential. -/
def ByCredential (crypto : Crypto) (s : Tables) (request : AdmissionRequest) : Prop :=
  ∃ token, request.token = some token ∧ CredentialAdmits crypto s token

/-- By the token of the settings, in a development environment that allows it. -/
def ByEnvironment (settings : Settings) (request : AdmissionRequest) : Prop :=
  EnvironmentOpen settings ∧ ∃ token, request.token = some token ∧ token ≠ [] ∧
    settings.adminApiToken = some token

/-- By a session, with its CSRF token where the method asks for one. -/
def BySession (crypto : Crypto) (s : Tables) (now : Timestamp) (request : AdmissionRequest) : Prop :=
  ∃ token, request.sessionToken = some token ∧ SessionAdmits crypto s now token request.csrfToken
    (decide (Python.upper request.method ∈ csrfProtectedMethods))

/-- The request's token meets a configured one that is not ASCII, and so cannot be compared. -/
def Incomparable (settings : Settings) (request : AdmissionRequest) : Prop :=
  EnvironmentOpen settings ∧ request.token ≠ none ∧
    ∃ t, settings.adminApiToken = some t ∧ ¬ Python.IsAscii t

/-- **The comparison with the configured token**: it tells whether the tokens are equal, or
it raises. -/
theorem environmentAdminTokenMatches_cases (settings : Settings) {token : Text}
    (hascii : Python.IsAscii token) :
    (∃ b, environmentAdminTokenMatches settings token = .ok b ∧ (b = true ↔
      EnvironmentOpen settings ∧ token ≠ [] ∧ settings.adminApiToken = some token)) ∨
    (∃ e, environmentAdminTokenMatches settings token = .error e) ∧ EnvironmentOpen settings ∧
      ∃ t, settings.adminApiToken = some t ∧ ¬ Python.IsAscii t := by
  unfold environmentAdminTokenMatches
  by_cases hallow : settings.allowEnvironmentAdminToken = true
  case neg =>
    refine Or.inl ⟨false, by simp [hallow], ?_⟩
    simp [EnvironmentOpen, hallow]
  by_cases henv : Python.lower settings.env ∈ environmentAdminTokenEnvs
  case neg =>
    refine Or.inl ⟨false, by simp [hallow, henv], ?_⟩
    simp [EnvironmentOpen, henv]
  have hopen : EnvironmentOpen settings := ⟨hallow, henv⟩
  simp only [hallow, henv, Bool.not_true, Bool.false_eq_true, if_false, not_true_eq_false]
  cases hconf : settings.adminApiToken with
  | none => exact Or.inl ⟨false, rfl, by simp⟩
  | some t =>
    by_cases hempty : t = []
    · refine Or.inl ⟨false, by simp [hempty], ?_⟩
      constructor
      · intro h; cases h
      · rintro ⟨-, hne, he⟩
        exact absurd ((Option.some.inj he).symm.trans hempty) hne
    · by_cases ht : Python.IsAscii t
      · refine Or.inl ⟨token == t, by simp [hempty, compareDigest, hascii, ht], ?_⟩
        rw [beq_iff_eq]
        constructor
        · rintro rfl; exact ⟨hopen, hempty, rfl⟩
        · rintro ⟨-, -, he⟩; exact (Option.some.inj he).symm
      · -- `compare_digest` of a text that is not ASCII
        refine Or.inr ⟨⟨⟨"TypeError"⟩, by simp [hempty, compareDigest, ht]⟩, hopen, t, rfl, ht⟩

section

variable {crypto : Crypto} {settings : Settings} {request : AdmissionRequest} {s : Tables}
  {now : Timestamp}

theorem requireSession_ensures :
    (requireSession (appState crypto) request).Ensures (faithful s now)
      (fun _ => BySession crypto s now request) (fun _ => ¬ BySession crypto s now request) := by
  unfold requireSession
  cases hcookie : request.sessionToken with
  | none =>
    rintro ⟨token, htoken, -⟩
    rw [hcookie] at htoken
    cases htoken
  | some sessionToken =>
    have hiff : BySession crypto s now request ↔ SessionAdmits crypto s now sessionToken
        request.csrfToken (decide (Python.upper request.method ∈ csrfProtectedMethods)) := by
      unfold BySession
      rw [hcookie]
      simp
    refine Prog.ensures_bind (Prog.ensures_caught ?_)
    refine (authenticateSession_ensures sessionToken request.csrfToken _
      (X := fun _ => False)).mono (fun a ha => ?_) fun e he => he.elim
    rcases ha with ⟨x, rfl, hx⟩ | ⟨rfl, hnot⟩
    · show Prog.Ensures _ (if adminRole ∈ x.principal.roles then _ else _) _ _
      by_cases hrole : adminRole ∈ x.principal.roles
      · rw [if_pos hrole]
        exact hiff.2 (hx.1 hrole)
      · rw [if_neg hrole]
        exact fun h => hrole (hx.2 (hiff.1 h))
    · exact fun h => hnot (hiff.1 h)

/-- The comparison as part of the dependency. -/
theorem raising_ensures {A : Async.Rely IdentityApi} {token : Text} {Q : Bool → Prop}
    {X : ApiError → Prop} (htoken : request.token = some token)
    (hb : ∀ b, (b = true ↔ ByEnvironment settings request) → Q b)
    (he : ∀ e, Incomparable settings request → X e) :
    (raising (environmentAdminTokenMatches settings token)).Ensures A Q X := by
  have hascii : Python.IsAscii token := request.token_ascii token htoken
  rcases environmentAdminTokenMatches_cases settings hascii with
    ⟨b, hb', hiff⟩ | ⟨⟨e, he'⟩, hopen, ht⟩
  · rw [hb']
    refine hb b (hiff.trans ?_)
    unfold ByEnvironment
    rw [htoken]
    simp
  · rw [he']
    exact he _ ⟨hopen, by rw [htoken]; exact Option.some_ne_none _, ht⟩

theorem requireEnvironmentToken_ensures {token : Text} (htoken : request.token = some token) :
    (requireEnvironmentToken settings (appState crypto) request token).Ensures (faithful s now)
      (fun _ => ByEnvironment settings request ∨ BySession crypto s now request)
      (fun _ => Incomparable settings request ∨
        ¬ (ByEnvironment settings request ∨ BySession crypto s now request)) := by
  unfold requireEnvironmentToken
  refine Prog.ensures_bind (raising_ensures htoken (fun b hb => ?_) fun e he => Or.inl he)
  cases b with
  | true => exact Or.inl (hb.1 rfl)
  | false =>
    have hnot : ¬ ByEnvironment settings request := fun h => Bool.noConfusion (hb.2 h)
    refine requireSession_ensures.mono (fun _ h => Or.inr h) fun e h => Or.inr ?_
    rintro (henv | hsession)
    · exact hnot henv
    · exact h hsession

/-- **Where no call raises**, the request is admitted by one of the three ways, or the
configured token could not be compared and no credential had admitted it before. -/
theorem requireAdminToken_ensures :
    (requireAdminToken settings (appState crypto) request).Ensures (faithful s now)
      (fun _ => ByCredential crypto s request ∨ ByEnvironment settings request ∨
        BySession crypto s now request)
      (fun _ => (Incomparable settings request ∧ ¬ ByCredential crypto s request) ∨
        ¬ (ByCredential crypto s request ∨ ByEnvironment settings request ∨
          BySession crypto s now request)) := by
  unfold requireAdminToken
  cases htoken : request.token with
  | none =>
    have hcred : ¬ ByCredential crypto s request := by
      rintro ⟨t, ht, -⟩
      rw [htoken] at ht
      cases ht
    have henv : ¬ ByEnvironment settings request := by
      rintro ⟨-, t, ht, -⟩
      rw [htoken] at ht
      cases ht
    refine requireSession_ensures.mono (fun _ h => Or.inr (Or.inr h)) fun e h => Or.inr ?_
    rintro (h' | h' | h')
    · exact hcred h'
    · exact henv h'
    · exact h h'
  | some token =>
    refine Prog.ensures_bind (Prog.ensures_caught ?_)
    refine (authenticateAdminToken_ensures token (X := fun _ => False)).mono (fun a ha => ?_)
      fun e he => he.elim
    rcases ha with ⟨p, rfl, hrole, hadmits⟩ | ⟨rfl, hnot⟩
    · show Prog.Ensures _ (if adminRole ∈ p.roles then _ else _) _ _
      rw [if_pos hrole]
      exact Or.inl ⟨token, htoken, hadmits⟩
    · have hcred : ¬ ByCredential crypto s request := by
        rintro ⟨t, ht, hadmits⟩
        rw [htoken] at ht
        cases ht
        exact hnot hadmits
      refine (requireEnvironmentToken_ensures htoken).mono (fun _ h => Or.inr h) fun e h => ?_
      rcases h with h | h
      · exact Or.inl ⟨h, hcred⟩
      · refine Or.inr ?_
        rintro (h' | h')
        · exact hcred h'
        · exact h h'

/-! ### Where a call raises -/

/-- Whether every call so far was answered. -/
def answering : Async.Protocol IdentityApi Bool where
  allow _ c := AdmissionCall c
  next l _ r := l && r.isOk

/-- A call of a program that does not catch: where it goes on, the call was answered. -/
theorem obeys_answered {c : Sql.Call identity} {l : Bool} {Q : Bool → IdentityApi.Ret c → Prop}
    {X : Bool → ApiError → Prop} (hc : AdmissionCall c) (h : ∀ a, Q l a) (hX : ∀ l e, X l e) :
    (Prog.call (σ := IdentityApi) c).Obeys answering l Q X := by
  refine Prog.obeys_call (P := answering) hc (fun a => ?_) fun e => hX _ e
  have hnext : answering.next l c (.ok a) = l := Bool.and_true l
  rw [hnext]
  exact h a

theorem obeys_answering_connection {α : Type} {body : Prog IdentityApi α} {l : Bool}
    (h : body.Obeys answering l (fun l' _ => l' = l) fun _ _ => True) :
    (Sql.withConnection body).Obeys answering l (fun l' _ => l' = l) fun _ _ => True := by
  unfold Sql.withConnection
  refine Prog.obeys_bind (obeys_answered (c := .connect) trivial (fun _ => ?_) fun _ _ => trivial)
  refine Prog.obeys_bind (Prog.obeys_tryExcept ?_)
  refine h.mono (fun l' a hl => ?_) fun l' e _ => ?_
  · rw [hl]
    exact Prog.obeys_bind
      (obeys_answered (c := .close) trivial (fun _ => rfl) fun _ _ => trivial)
  · exact Prog.obeys_bind
      (obeys_answered (c := .close) trivial (fun _ => trivial) fun _ _ => trivial)

/-- The two repositories answer only where all their calls were answered. -/
theorem authenticateAdminToken_answering (token : Text) (l : Bool) :
    (authenticateAdminToken crypto token).Obeys answering l (fun l' _ => l' = l)
      fun _ _ => True := by
  unfold authenticateAdminToken
  split
  · rfl
  refine obeys_answering_connection (Prog.obeys_bind (obeys_answered
    (c := .query (.selectAdminCredential adminApiCredentialType (crypto.hashApiToken token)))
    trivial (fun row => ?_) fun _ _ => trivial))
  cases row with
  | none => rfl
  | some row =>
    by_cases hrole : adminRole ∈ row.roles
    · simp only [hrole, not_true_eq_false, if_false]
      exact Prog.obeys_bind (obeys_answered (c := .query (.updateCredentialLastUsed row.credentialId))
        trivial (fun _ => rfl) fun _ _ => trivial)
    · simp only [hrole, not_false_eq_true, if_true]
      rfl

theorem authenticateSession_answering (sessionToken : Text) (csrfToken : Option Text)
    (requireCsrf l : Bool) :
    (authenticateSession crypto sessionToken csrfToken requireCsrf).Obeys answering l
      (fun l' _ => l' = l) fun _ _ => True := by
  unfold authenticateSession
  refine obeys_answering_connection (Prog.obeys_bind (obeys_answered
    (c := .query (.selectSession (crypto.hashApiToken sessionToken))) trivial (fun row => ?_)
    fun _ _ => trivial))
  cases row with
  | none => rfl
  | some row =>
    by_cases hcsrf : csrfPasses crypto csrfToken requireCsrf row.csrfTokenHash = true
    · simp only [hcsrf, Bool.not_true, Bool.false_eq_true, if_false]
      exact Prog.obeys_bind (obeys_answered (c := .query (.updateSessionLastSeen row.sessionId))
        trivial (fun _ => rfl) fun _ _ => trivial)
    · simp only [hcsrf, Bool.not_false, if_true]
      rfl

theorem requireSession_answering (l : Bool) :
    (requireSession (appState crypto) request).Obeys answering l (fun l' _ => l' = l)
      fun _ _ => True := by
  unfold requireSession
  cases request.sessionToken with
  | none => trivial
  | some sessionToken =>
    refine Prog.obeys_bind (Prog.obeys_caught ?_)
    refine (authenticateSession_answering sessionToken request.csrfToken _ l).mono
      (fun l' a hl => ?_) fun _ _ _ => trivial
    cases a with
    | none => trivial
    | some x =>
      show Prog.Obeys _ (if adminRole ∈ x.principal.roles then _ else _) _ _ _
      by_cases hrole : adminRole ∈ x.principal.roles
      · rw [if_pos hrole]; exact hl
      · rw [if_neg hrole]; trivial

theorem raising_answering {token : Text} {l : Bool} {Q : Bool → Bool → Prop}
    (htoken : request.token = some token)
    (hQ : ∀ b, (b = true → ByEnvironment settings request) → Q l b) :
    (raising (environmentAdminTokenMatches settings token)).Obeys answering l Q
      fun _ _ => True := by
  have hascii : Python.IsAscii token := request.token_ascii token htoken
  rcases environmentAdminTokenMatches_cases settings hascii with ⟨b, hb, hiff⟩ | ⟨⟨e, he⟩, -⟩
  · rw [hb]
    exact hQ b fun h => ⟨(hiff.1 h).1, token, htoken, (hiff.1 h).2⟩
  · rw [he]
    trivial

theorem requireEnvironmentToken_answering {token : Text} (htoken : request.token = some token)
    (l : Bool) :
    (requireEnvironmentToken settings (appState crypto) request token).Obeys answering l
      (fun l' _ => l' = l ∨ ByEnvironment settings request) fun _ _ => True := by
  unfold requireEnvironmentToken
  refine Prog.obeys_bind (raising_answering htoken fun b hb => ?_)
  cases b with
  | true => exact Or.inr (hb rfl)
  | false => exact (requireSession_answering l).mono (fun _ _ h => Or.inl h) fun _ _ h => h

/-- **Where a call raised**, only the token of the settings admits the request. -/
theorem requireAdminToken_answering :
    (requireAdminToken settings (appState crypto) request).Obeys answering true
      (fun l _ => l = true ∨ ByEnvironment settings request) fun _ _ => True := by
  unfold requireAdminToken
  cases htoken : request.token with
  | none => exact (requireSession_answering true).mono (fun _ _ h => Or.inl h) fun _ _ h => h
  | some token =>
    refine Prog.obeys_bind (Prog.obeys_caught ?_)
    refine (authenticateAdminToken_answering token true).mono (fun l a hl => ?_) fun l e _ => ?_
    · cases hl
      cases a with
      | none => exact requireEnvironmentToken_answering htoken true
      | some p =>
        show Prog.Obeys _ (if adminRole ∈ p.roles then _ else _) _ _ _
        by_cases hrole : adminRole ∈ p.roles
        · rw [if_pos hrole]; exact Or.inl rfl
        · rw [if_neg hrole]; exact requireEnvironmentToken_answering htoken true
    · refine Prog.obeys_bind (raising_answering htoken fun b hb => ?_)
      cases b with
      | true => exact Or.inr (hb rfl)
      | false => trivial

end

end CopyTrade
