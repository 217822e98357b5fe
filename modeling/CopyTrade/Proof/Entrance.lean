import CopyTrade.Proof.Admission

/-!
# Admission is exact

`require_admin_token` by itself, from any state of the server.

* `Standing`: its own calls move neither the clock nor what the joins find.
* `Exact`: it admits by the three ways and no other, and by the first two where a
  repository call raised.
* `exact_iff`: so it does, unless a configured token that is not ASCII keeps it from
  reading the session.
-/

namespace CopyTrade

open Async (Prog Fault Outcome)
open Identity
open Python (Text)

/-- The machine of the identity tables. -/
abbrev identityServer : Async.Machine IdentityApi := Sql.server identity Drawn ApiError

/-! ## What the admission leaves as it is -/

/-- The clock stands, and the joins find what they found in `s`. -/
structure Standing (now : Timestamp) (s : Tables) (w : Sql.Server identity Drawn) : Prop where
  clock : w.db.clock = now
  credentials : ∀ t h, selectAdminCredential t h w.db.current = selectAdminCredential t h s
  sessions : ∀ h, selectSession h now w.db.current = selectSession h now s

variable {now : Timestamp} {s t : Tables}

theorem findSome_update {Row Id Entry α : Type} [DecidableEq Id] [DecidableEq Entry]
    [Sql.Constrained Row] [Sql.Keyed Row Id Entry] {t t' : Sql.Table Row} {i : Id} {f : Row → Row}
    {g : Row → Option α} (h : t.update? i f = some t') (hg : ∀ r, g (f r) = g r) :
    t'.rows.findSome? g = t.rows.findSome? g := by
  rw [Sql.Table.updateWhere_eq_some.1 h, List.findSome?_map]
  congr 1
  funext r
  simp only [Function.comp]
  split
  · exact hg r
  · rfl

/-- `last_used_at` of a credential is not read by the joins. -/
theorem standing_touchCredential {id : UUID} (h : apiCredentials.update? id (touchCredential now) s = some t) :
    (∀ ct d, selectAdminCredential ct d t = selectAdminCredential ct d s) ∧
      ∀ d, selectSession d now t = selectSession d now s := by
  obtain ⟨u, hu, rfl⟩ := Option.map_eq_some_iff.1 h
  exact ⟨fun ct d => findSome_update hu fun r => rfl, fun d => rfl⟩

/-- Nor is `last_seen_at` of a session. -/
theorem standing_touchSession {id : UUID} (h : userSessions.update? id (touchSession now) s = some t) :
    (∀ ct d, selectAdminCredential ct d t = selectAdminCredential ct d s) ∧
      ∀ d, selectSession d now t = selectSession d now s := by
  obtain ⟨u, hu, rfl⟩ := Option.map_eq_some_iff.1 h
  exact ⟨fun ct d => rfl, fun d => findSome_update hu fun r => rfl⟩

/-- The answers of the joins, where they answer. -/
def Joined (s : Tables) (now : Timestamp) (c : Sql.Call identity) (r : IdentityApi.Reply c) : Prop :=
  (∃ a, r = .ok a) → Answered s now c r

/-- **The calls of the admission leave the joins as they are.** -/
theorem Standing.serve {l : Bool} {c : Sql.Call identity} {f : Fault ApiError}
    {r : IdentityApi.Reply c} {w w' : Sql.Server identity Drawn} (hc : answering.allow l c)
    (h : Standing now s w) (hs : identityServer.serve c f w = some (r, w')) :
    Standing now s w' ∧ Joined s now c r := by
  have hc : AdmissionCall c := hc
  rcases Async.Machine.serve_cases hs with ⟨e, -, rfl, rfl⟩ | ⟨a, ha, hr⟩
  · exact ⟨h, fun ⟨a, ha⟩ => by cases ha⟩
  have joined : Answered s now c (.ok a) → Joined s now c r := by
    intro hans
    rcases hr with ⟨-, rfl⟩ | ⟨e, -, rfl⟩
    · exact fun _ => hans
    · exact fun ⟨b, hb⟩ => by cases hb
  cases c with
  | connect => cases ha; exact ⟨h, joined ⟨(), rfl⟩⟩
  | close => cases ha; exact ⟨h, joined ⟨(), rfl⟩⟩
  | start => exact hc.elim
  | run tx c => exact hc.elim
  | commit tx => exact hc.elim
  | rollback tx => exact hc.elim
  | query q =>
    obtain ⟨db, hq, rfl⟩ := Sql.effect_query ha
    obtain ⟨-, u, hu, rfl⟩ := Sql.Database.query_cases hq
    rw [h.clock] at hu
    cases q with
    | selectAdminCredential ct d =>
      cases hu
      exact ⟨⟨h.clock, h.credentials, h.sessions⟩, joined (congrArg Except.ok (h.credentials ct d))⟩
    | selectSession d =>
      cases hu
      exact ⟨⟨h.clock, h.credentials, h.sessions⟩, joined (congrArg Except.ok (h.sessions d))⟩
    -- the two stamps write times that neither join reads
    | updateCredentialLastUsed id =>
      obtain ⟨v, hv, he⟩ := Option.map_eq_some_iff.1 hu
      cases he
      obtain ⟨hcred, hsess⟩ := standing_touchCredential hv
      refine ⟨⟨h.clock, fun t d => ?_, fun d => ?_⟩, joined ⟨(), rfl⟩⟩
      · exact (hcred t d).trans (h.credentials t d)
      · exact (hsess d).trans (h.sessions d)
    | updateSessionLastSeen id =>
      obtain ⟨v, hv, he⟩ := Option.map_eq_some_iff.1 hu
      cases he
      obtain ⟨hcred, hsess⟩ := standing_touchSession hv
      refine ⟨⟨h.clock, fun t d => ?_, fun d => ?_⟩, joined ⟨(), rfl⟩⟩
      · exact (hcred t d).trans (h.credentials t d)
      · exact (hsess d).trans (h.sessions d)
    | revokeSession d => exact hc.elim
    | selectPasswordLogin email => exact hc.elim
    | insertAuditLog id entry => exact hc.elim
    | selectAdminCredentials credentialType active limit offset => exact hc.elim
    | selectExchangeAccounts userId status limit offset => exact hc.elim

/-! ## Where no call raises, and where one does -/

variable {crypto : Crypto} {settings : Settings} {request : AdmissionRequest}
  {w : Sql.Server identity Drawn} {o : Outcome identityServer AuthenticatedPrincipal}
  {fs : List (Fault ApiError)}

/-- A call that was answered. -/
def Worked (d : Async.Served IdentityApi) : Prop := ∃ a, d.reply = .ok a

/-- The request is admitted. -/
def Admitted (o : Outcome identityServer AuthenticatedPrincipal) : Prop := ∃ p, o.ending = .returned p

/-- The token of the settings is ASCII where a header equals it. -/
theorem not_byEnvironment (h : Incomparable settings request) : ¬ ByEnvironment settings request := by
  rintro ⟨-, token, htoken, -, hconf⟩
  obtain ⟨-, -, t, ht, hascii⟩ := h
  rw [hconf] at ht
  cases ht
  exact hascii (request.token_ascii token htoken)

/-- **Where no call raises**: who is admitted comes by one of the three ways, and who is
not comes by none, or by a session that the comparison kept from being read. -/
theorem admission_worked (h : (requireAdminToken settings (appState crypto) request).exec?
      identityServer fs w = some o) (hw : ∀ d ∈ o.calls, Worked d) :
    o.ending.Meets
      (fun _ => ByCredential crypto w.db.current request ∨ ByEnvironment settings request ∨
        BySession crypto w.db.current w.db.clock request)
      (fun _ => (Incomparable settings request ∧ ¬ ByCredential crypto w.db.current request) ∨
        ¬ (ByCredential crypto w.db.current request ∨ ByEnvironment settings request ∨
          BySession crypto w.db.current w.db.clock request)) := by
  have hstanding : Standing w.db.clock w.db.current w := ⟨rfl, fun _ _ => rfl, fun _ => rfl⟩
  have hinv : Standing w.db.clock w.db.current o.state ∧
      ∀ d ∈ o.calls, Joined w.db.current w.db.clock d.call d.reply :=
    Async.exec_inv (M := identityServer) (P := answering) (J := Standing w.db.clock w.db.current)
      (fun _ hs => ⟨hs.clock, hs.credentials, hs.sessions⟩)
      (fun l c f w₁ r w₂ hc hs hserve => hs.serve hc hserve) h requireAdminToken_answering hstanding
  obtain ⟨-, hans⟩ := hinv
  exact Async.exec_ensures h (fun d hd => hans d hd (hw d hd)) requireAdminToken_ensures

theorem answering_after {calls : List (Async.Served IdentityApi)} :
    ∀ {l : Bool}, answering.after l calls = true → ∀ d ∈ calls, Worked d := by
  induction calls with
  | nil => intro l _ d hd; cases hd
  | cons c calls ih =>
    intro l h
    have hl : answering.next l c.call c.reply = true := by
      cases hb : answering.next l c.call c.reply with
      | true => rfl
      | false =>
        have hfalse : ∀ cs : List (Async.Served IdentityApi), answering.after false cs = false := by
          intro cs
          induction cs with
          | nil => rfl
          | cons d cs ih => exact ih
        have : answering.after false calls = true := by rw [← hb]; exact h
        rw [hfalse] at this
        cases this
    refine List.forall_mem_cons.2 ⟨?_, ih h⟩
    have hok : c.reply.isOk = true := (Bool.and_eq_true_iff.1 hl).2
    unfold Worked
    cases hr : c.reply with
    | ok a => exact ⟨a, rfl⟩
    | error e => rw [hr] at hok; cases hok

/-- **Where a call raised**, a request is admitted only by the token of the settings. -/
theorem admission_raised (h : (requireAdminToken settings (appState crypto) request).exec?
      identityServer fs w = some o) (hw : ∃ d ∈ o.calls, ¬ Worked d) (hadm : Admitted o) :
    ByEnvironment settings request := by
  have hend : o.ending.Meets (fun _ => answering.after true o.calls = true ∨
      ByEnvironment settings request) fun _ => True :=
    Async.exec_obeys h requireAdminToken_answering
  obtain ⟨p, hp⟩ := hadm
  rw [hp] at hend
  rcases hend with hall | henv
  · obtain ⟨d, hd, hnot⟩ := hw
    exact absurd (answering_after hall d hd) hnot
  · exact henv

/-! ## The comparison that raises -/

/-- What `SELECT_ADMIN_CREDENTIAL_SQL` does on the server: it waits for no lock. -/
theorem effect_selectAdminCredential (ct : String) (d : Digest) (w : Sql.Server identity Drawn) :
    ∃ w', identityServer.effect (.query (.selectAdminCredential ct d)) w =
      some (selectAdminCredential ct d w.db.current, w') :=
  ⟨{ w with db := { w.db with
      history := .query w.db.clock (.selectAdminCredential ct d)
        (selectAdminCredential ct d w.db.current) :: w.db.history } }, rfl⟩

/-- A token that no credential admits is looked up in vain. -/
theorem exec_authenticateAdminToken {token : Text}
    (h : ¬ CredentialAdmits crypto w.db.current token) :
    ∃ (fs : List (Fault ApiError)) (o : Outcome identityServer (Option AuthenticatedPrincipal)),
      (authenticateAdminToken crypto token).exec? identityServer fs w = some o ∧
        o.ending = .returned none ∧ ∀ d ∈ o.calls, Worked d := by
  unfold authenticateAdminToken
  by_cases hshort : isAdminApiTokenCandidate token = true
  case neg =>
    refine ⟨[], ⟨.returned none, w, [], []⟩, ?_, rfl, fun d hd => by cases hd⟩
    simp only [hshort, Bool.not_false, if_true]
    exact Prog.exec_done none
  have hlength : 32 ≤ token.length := by
    simpa [isAdminApiTokenCandidate, minAdminApiTokenLength] using hshort
  simp only [hshort, Bool.not_true, Bool.false_eq_true, if_false]
  obtain ⟨w', hw'⟩ := effect_selectAdminCredential adminApiCredentialType (crypto.hashApiToken token) w
  -- the join finds no row, or one without the role
  have hnone : ∀ {row}, selectAdminCredential adminApiCredentialType (crypto.hashApiToken token)
      w.db.current = some row → adminRole ∉ row.roles := fun hrow hrole =>
    h ⟨hlength, selectAdminCredential_iff.1 ⟨_, hrow, hrole⟩⟩
  refine ⟨[.works, .works, .works], _, Sql.exec_withConnection (a := none)
    (o := Outcome.after [⟨.query (Query.selectAdminCredential adminApiCredentialType
      (crypto.hashApiToken token)), .ok _⟩] ⟨.returned none, w', [], [.works]⟩)
    (Prog.exec_call_works (M := identityServer) hw' ?_) rfl rfl, rfl, fun d hd => ?_⟩
  · cases hrow : selectAdminCredential adminApiCredentialType (crypto.hashApiToken token)
        w.db.current with
    | none => exact Prog.exec_done none
    | some row =>
      simp only [hnone hrow, not_false_eq_true, if_true]
      exact Prog.exec_done none
  · simp only [Outcome.after, List.append_nil, List.mem_cons, List.mem_append, List.not_mem_nil,
      or_false] at hd
    rcases hd with rfl | rfl | rfl
    · exact ⟨_, rfl⟩
    · exact ⟨_, rfl⟩
    · exact ⟨_, rfl⟩

/-- A configured token that is not ASCII cannot be compared. -/
theorem environmentAdminTokenMatches_incomparable (token : Text) {t : Text}
    (hopen : EnvironmentOpen settings) (ht : settings.adminApiToken = some t)
    (hnot : ¬ Python.IsAscii t) : ∃ e, environmentAdminTokenMatches settings token = .error e := by
  have hne : t ≠ [] := by
    rintro rfl
    exact hnot (by simp [Python.IsAscii])
  unfold environmentAdminTokenMatches
  exact ⟨⟨"TypeError"⟩, by simp [hopen.1, hopen.2, ht, hne, compareDigest, hnot]⟩

/-- **A comparison that raises ends the request**, whatever its session. -/
theorem exec_incomparable (hi : Incomparable settings request)
    (hc : ¬ ByCredential crypto w.db.current request) :
    ∃ (fs : List (Fault ApiError)) (o : Outcome identityServer AuthenticatedPrincipal) (e : ApiError),
      (requireAdminToken settings (appState crypto) request).exec? identityServer fs w = some o ∧
        o.ending = .raised e ∧ ∀ d ∈ o.calls, Worked d := by
  obtain ⟨hopen, htoken, t, ht, hnot⟩ := id hi
  obtain ⟨token, htoken⟩ := Option.ne_none_iff_exists'.1 htoken
  have hadmits : ¬ CredentialAdmits crypto w.db.current token := fun h => hc ⟨token, htoken, h⟩
  obtain ⟨e, he⟩ := environmentAdminTokenMatches_incomparable token hopen ht hnot
  obtain ⟨fs, o, ho, hend, hall⟩ := exec_authenticateAdminToken hadmits
  have hraise : (requireEnvironmentToken settings (appState crypto) request token).exec?
      identityServer o.rest o.state = some ⟨.raised (.python e), o.state, [], o.rest⟩ := by
    unfold requireEnvironmentToken
    rw [he]
    exact Prog.exec_fail (σ := IdentityApi) (ApiError.python e)
  refine ⟨fs, Outcome.after o.calls ⟨.raised (.python e), o.state, [], o.rest⟩, .python e, ?_, rfl,
    by simpa using hall⟩
  unfold requireAdminToken
  simp only [htoken]
  exact Prog.exec_bind_returned (M := identityServer) (Prog.exec_caught_returned ho hend) rfl hraise

/-! ## Exactness -/

/-- **Admission is exact** from this state of the server: where no repository call raises,
the request is admitted exactly by one of the three ways, and where one does, by the first
two only. -/
def Exact (crypto : Crypto) (settings : Settings) (request : AdmissionRequest)
    (w : Sql.Server identity Drawn) : Prop :=
  ∀ (fs : List (Fault ApiError)) (o : Outcome identityServer AuthenticatedPrincipal),
    (requireAdminToken settings (appState crypto) request).exec? identityServer fs w = some o →
    o.ending ≠ .stopped →
    ((∀ d ∈ o.calls, Worked d) → (Admitted o ↔ ByCredential crypto w.db.current request ∨
      ByEnvironment settings request ∨ BySession crypto w.db.current w.db.clock request)) ∧
    ((∃ d ∈ o.calls, ¬ Worked d) → Admitted o →
      ByCredential crypto w.db.current request ∨ ByEnvironment settings request)

/-- The request cannot be compared with the configured token, and only its session admits it. -/
def Shadowed (crypto : Crypto) (settings : Settings) (request : AdmissionRequest)
    (w : Sql.Server identity Drawn) : Prop :=
  Incomparable settings request ∧ ¬ ByCredential crypto w.db.current request ∧
    BySession crypto w.db.current w.db.clock request

/-- **Admission is exact, unless a comparison that raises hides a session that admits.** -/
theorem exact_iff : Exact crypto settings request w ↔ ¬ Shadowed crypto settings request w := by
  constructor
  · rintro hexact ⟨hi, hc, hsession⟩
    obtain ⟨fs, o, e, ho, hend, hall⟩ := exec_incomparable hi hc
    have hstop : o.ending ≠ .stopped := by rw [hend]; simp
    obtain ⟨p, hp⟩ := ((hexact fs o ho hstop).1 hall).2 (Or.inr (Or.inr hsession))
    rw [hend] at hp
    cases hp
  · intro hclear fs o ho hstop
    refine ⟨fun hall => ?_, fun hraised hadm => Or.inr (admission_raised ho hraised hadm)⟩
    have hmeets := admission_worked ho hall
    cases hend : o.ending with
    | stopped => exact absurd hend hstop
    | returned p =>
      rw [hend] at hmeets
      exact ⟨fun _ => hmeets, fun _ => ⟨p, hend⟩⟩
    | raised e =>
      rw [hend] at hmeets
      constructor
      · rintro ⟨p, hp⟩
        rw [hend] at hp
        cases hp
      · intro hway
        exfalso
        rcases hmeets with ⟨hi, hc⟩ | hnone
        · rcases hway with h | h | h
          · exact hc h
          · exact not_byEnvironment hi h
          · exact hclear ⟨hi, hc, h⟩
        · exact hnone hway

end CopyTrade
