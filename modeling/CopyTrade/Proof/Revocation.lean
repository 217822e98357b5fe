import CopyTrade.Proof.Effects
import CopyTrade.Proof.Entrance

/-!
# Revoked sessions stay out

* `Barred`: every session with the hash is revoked. No statement un-revokes a session, and
  the hash is unique, so no login makes another with it.
* `revokeSession_bars`: after `revoke_session`, amid any others.
* `requireAdminToken_barred`: a later request, amid any others, is admitted by no session.
-/

namespace CopyTrade

open Async (Prog Fault Pool Amid)
open Identity
open Python (Text)
open Sql (Commit Did Serial Runs)

/-- A session with the hash was issued. -/
def Issued (d : Digest) (s : Tables) : Prop := ∃ r ∈ s.userSessions, r.sessionTokenHash = d

/-- Every session with the hash is revoked. -/
def Barred (d : Digest) (s : Tables) : Prop :=
  ∀ r ∈ s.userSessions, r.sessionTokenHash = d → r.revokedAt ≠ none

/-- The statement makes a session with the hash. -/
def Issues (d : Digest) : Stmt → Prop
  | .insertSession _ _ sessionTokenHash _ _ => sessionTokenHash = d
  | _ => False

/-- The commit makes a session with the hash. -/
def CommitIssues (d : Digest) : Commit identity → Prop
  | .transaction _ _ did => ∃ x ∈ did, Issues d x.stmt
  | .query _ _ _ => False

variable {d : Digest} {now : Timestamp} {s t : Tables}

/-! ## What each statement keeps -/

/-- An update of a session that keeps its hash, and leaves a revoked one revoked. -/
theorem sessions_update {id : UUID} {f : UserSessionRow → UserSessionRow}
    {u : Sql.Table UserSessionRow} (h : s.userSessions.update? id f = some u)
    (hhash : ∀ r, (f r).sessionTokenHash = r.sessionTokenHash)
    (hrevoked : ∀ r, r.revokedAt ≠ none → (f r).revokedAt ≠ none) :
    (Issued d s → Issued d { s with userSessions := u }) ∧
      (Barred d s → Barred d { s with userSessions := u }) := by
  constructor
  · rintro ⟨r, hr, hd⟩
    refine ⟨_, (Sql.Table.mem_update h).2 ⟨r, hr, rfl⟩, ?_⟩
    split
    · exact (hhash r).trans hd
    · exact hd
  · intro hb r hr hd
    obtain ⟨a, ha, rfl⟩ := (Sql.Table.mem_update h).1 hr
    by_cases hid : Sql.Keyed.id a = id
    · rw [if_pos hid] at hd ⊢
      exact hrevoked a (hb a ha ((hhash a).symm.trans hd))
    · rw [if_neg hid] at hd ⊢
      exact hb a ha hd

/-- A statement on another table. -/
theorem sessions_same (h : t.userSessions = s.userSessions) :
    (Issued d s → Issued d t) ∧ (Barred d s → Barred d t) := by
  unfold Issued Barred
  rw [h]
  exact ⟨id, id⟩

/-- **A statement of a transaction.** The hash of a session that is there is taken. -/
theorem exec_sessions {c : Stmt} {a : Ret c} (h : exec c now s = some (a, t)) :
    (Issued d s → Issued d t) ∧ (Issued d s ∨ ¬ Issues d c → Barred d s → Barred d t) := by
  by_cases hc : c.OnSessions
  swap
  · obtain ⟨hi, hb⟩ := sessions_same (d := d) ((exec_tables h).userSessions hc)
    exact ⟨hi, fun _ => hb⟩
  have heff := exec_effect h
  cases c with
  | insertSession id userId sessionTokenHash csrfTokenHash expiresAt =>
    obtain ⟨u, hu, rfl⟩ := heff
    constructor
    · rintro ⟨r, hr, hd⟩
      exact ⟨r, (Sql.Table.mem_insert hu).2 (Or.inl hr), hd⟩
    · intro hor hb r hr hd
      rcases (Sql.Table.mem_insert hu).1 hr with hr | rfl
      · exact hb r hr hd
      · rcases hor with ⟨r', hr', hd'⟩ | hnot
        · -- the hash is unique
          have hclash : Sql.Clash r' (newSession id userId sessionTokenHash csrfTokenHash expiresAt) :=
            Or.inr (hd'.trans hd.symm)
          exact absurd hclash ((Sql.Table.insert_eq_some.1 hu).1 r' hr')
        · exact absurd hd hnot
  | _ => exact hc.elim

/-- **A statement by itself**, and what revoking makes. -/
theorem query_sessions {q : Query} {a : Answer q} (h : query q now s = some (a, t)) :
    (Issued d s → Issued d t) ∧ (Barred d s → Barred d t) ∧ (q = .revokeSession d → Barred d t) := by
  by_cases hq : q.OnSessions
  swap
  · obtain ⟨hi, hb⟩ := sessions_same (d := d) ((query_tables h).userSessions hq)
    exact ⟨hi, hb, fun he => (hq (by rw [he]; trivial)).elim⟩
  have heff := query_effect h
  cases q with
  | updateSessionLastSeen id =>
    obtain ⟨u, hu, rfl⟩ := heff
    obtain ⟨hi, hb⟩ := sessions_update (d := d) hu (fun _ => rfl) fun _ hr => hr
    exact ⟨hi, hb, Query.noConfusion⟩
  | revokeSession sessionTokenHash =>
    rcases heff with ⟨hnone, rfl⟩ | ⟨r, u, hr, hu, rfl⟩
    · refine ⟨id, id, fun he => ?_⟩
      cases he
      -- no session with the hash is unrevoked
      intro r hr hd hlive
      have := List.find?_eq_none.1 hnone r hr
      simp [hd, hlive] at this
    · obtain ⟨hi, hb⟩ := sessions_update (d := d) (f := revoke now) hu (fun _ => rfl)
        fun _ _ => Option.some_ne_none now
      refine ⟨hi, hb, fun he => ?_⟩
      cases he
      have hfound := List.find?_some hr
      have hrd : r.sessionTokenHash = d := by
        simp only [decide_eq_true_eq] at hfound
        exact hfound.1
      have hmem : r ∈ s.userSessions := List.mem_of_find?_eq_some hr
      intro b hbmem hbd
      obtain ⟨a, ha, rfl⟩ := (Sql.Table.mem_update hu).1 hbmem
      by_cases hid : Sql.Keyed.id a = r.id
      · rw [if_pos hid]
        exact Option.some_ne_none now
      · -- the hash is unique
        rw [if_neg hid] at hbd ⊢
        have har : a = r := Sql.Table.eq_of_clash ha hmem (Or.inr (hbd.trans hrd.symm))
        exact absurd (congrArg UserSessionRow.id har) hid
  | _ => exact hq.elim

/-! ## What others can do -/

/-- **A commit** that makes no session with the hash, where there was none. -/
theorem turns_sessions {c : Commit identity} (h : c.Turns s t) :
    (Issued d s → Issued d t) ∧ (Issued d s ∨ ¬ CommitIssues d c → Barred d s → Barred d t) := by
  cases c with
  | query at_ q a =>
    obtain ⟨hi, hb, -⟩ := query_sessions (d := d) h
    exact ⟨hi, fun _ => hb⟩
  | transaction tx began did =>
    obtain ⟨held, h⟩ := h
    induction did generalizing s with
    | nil => cases h; exact ⟨id, fun _ => id⟩
    | cons x did ih =>
      have hrest : ¬ CommitIssues d (.transaction tx began (x :: did)) →
          ¬ CommitIssues d (.transaction tx began did) := fun hn ⟨y, hy, hyd⟩ =>
        hn ⟨y, List.mem_cons_of_mem _ hy, hyd⟩
      by_cases hx : identity.pinned x.stmt x.answer = true
      · obtain ⟨-, u, hu, hr⟩ := (Runs.of_pinned hx).1 h
        obtain ⟨hi, hb⟩ := exec_sessions (d := d) hu
        obtain ⟨hi', hb'⟩ := ih hr
        refine ⟨fun h => hi' (hi h), fun hor h => hb' (hor.imp hi hrest) (hb (hor.imp_right ?_) h)⟩
        exact fun hn hxd => hn ⟨x, List.mem_cons_self, hxd⟩
      · obtain ⟨hi', hb'⟩ := ih ((Runs.of_plain hx).1 h)
        exact ⟨hi', fun hor => hb' (hor.imp_right hrest)⟩

/-- The server with the hash in view: once issued it stays issued, and once barred, barred. -/
structure Guarded (d : Digest) (issued : Prop) (s₀ : Tables) (barred : Bool)
    (w : Sql.Server identity Drawn) : Prop where
  sound : Sql.Sound (S := identity) s₀ w.db
  issued : issued → Issued d w.db.current
  barred : barred = true → Barred d w.db.current

/-- What the others may commit: no session with the hash, unless it was issued before (and
so is taken). -/
def NoReissue (d : Digest) (issued : Prop) (c : Commit identity) : Prop :=
  ¬ issued → ¬ CommitIssues d c

variable {issued : Prop} {s₀ : Tables} {l : Bool} {w w' : Sql.Server identity Drawn}

theorem Guarded.meanwhile (h : Guarded d issued s₀ l w)
    (hw : Sql.Meanwhile ApiError (NoReissue d issued) w w') : Guarded d issued s₀ l w' := by
  have hkeeps := hw.keeps (J := fun s => (issued → Issued d s) ∧ (l = true → Barred d s)) h.sound
    ⟨h.issued, h.barred⟩ fun c s t hc hJ hturn => ?_
  · obtain ⟨hsound, hi, hb⟩ := hkeeps
    exact ⟨hsound, hi, hb⟩
  · obtain ⟨hi, hb⟩ := turns_sessions (d := d) hturn
    have hor : Issued d s ∨ ¬ CommitIssues d c := by
      by_cases hissued : issued
      · exact Or.inl (hJ.1 hissued)
      · exact Or.inr (hc hissued)
    exact ⟨fun h => hi (hJ.1 h), fun hl => hb hor (hJ.2 hl)⟩

/-! ## The programs among them -/

/-- Whether the hash was revoked, along a program that commits no transaction. -/
def revoking (d : Digest) : Async.Protocol IdentityApi Bool where
  allow _
    | .connect => True
    | .close => True
    | .query _ => True
    | _ => False
  next l
    | .query (.revokeSession d'), .ok _ => l || decide (d' = d)
    | _, _ => l

/-- **Every such call keeps watch over the hash.** -/
theorem Guarded.serve {c : Sql.Call identity} {f : Fault ApiError} {r : IdentityApi.Reply c}
    (h : Guarded d issued s₀ l w) (hc : (revoking d).allow l c)
    (hs : identityServer.serve c f w = some (r, w')) :
    Guarded d issued s₀ ((revoking d).next l c r) w' := by
  rcases Async.Machine.serve_cases hs with ⟨e, -, rfl, rfl⟩ | ⟨a, ha, hr⟩
  · have hl : (revoking d).next l c (.error e) = l := by
      cases c with
      | query q => cases q <;> rfl
      | _ => rfl
    rw [hl]
    exact h
  cases c with
  | connect => cases ha; exact h
  | close => cases ha; exact h
  | start => exact hc.elim
  | run tx c => exact hc.elim
  | commit tx => exact hc.elim
  | rollback tx => exact hc.elim
  | query q =>
    obtain ⟨db, hq, rfl⟩ := Sql.effect_query ha
    have hsound := h.sound.query hq
    obtain ⟨-, u, hu, rfl⟩ := Sql.Database.query_cases hq
    obtain ⟨hi, hb, hrev⟩ := query_sessions (d := d) hu
    refine ⟨hsound, fun hissued => hi (h.issued hissued), fun hl => ?_⟩
    by_cases hl' : l = true
    · exact hb (h.barred hl')
    · -- the call revoked the hash
      refine hrev ?_
      have hl' : l = false := by simpa using hl'
      subst hl'
      cases q with
      | revokeSession d' =>
        rcases hr with ⟨-, rfl⟩ | ⟨e, -, rfl⟩
        · have hd : d' = d := by simpa [revoking] using hl
          rw [hd]
        · cases hl
      | _ => cases r <;> cases hl

variable {crypto : Crypto}

/-- A call other than the revocation. -/
theorem obeys_watched {c : Sql.Call identity} {Q : Bool → IdentityApi.Ret c → Prop}
    (hc : (revoking d).allow l c) (hnext : ∀ r, (revoking d).next l c r = l) (h : ∀ a, Q l a) :
    (Prog.call (σ := IdentityApi) c).Obeys (revoking d) l Q fun _ _ => True :=
  Prog.obeys_call (P := revoking d) hc (fun a => by rw [hnext]; exact h a) fun _ => trivial

/-- **`revoke_session` revokes**: where it returns, it has. -/
theorem revokeSession_obeys (token : Text) :
    (revokeSession crypto token).Obeys (revoking (crypto.hashApiToken token)) false
      (fun l _ => l = true) fun _ _ => True := by
  unfold revokeSession Sql.withConnection
  refine Prog.obeys_bind (obeys_watched (c := .connect) trivial (fun _ => rfl) fun _ => ?_)
  refine Prog.obeys_bind (Prog.obeys_tryExcept ?_)
  have hclose : ∀ l : Bool, ∀ e : ApiError, (Sql.closing e : Prog IdentityApi Unit).Obeys
      (revoking (crypto.hashApiToken token)) l (fun l a => (do
        Prog.call (σ := IdentityApi) .close
        pure a : Prog IdentityApi Unit).Obeys (revoking (crypto.hashApiToken token)) l
          (fun l _ => l = true) fun _ _ => True) fun _ _ => True := fun l e =>
    Prog.obeys_bind (obeys_watched (c := .close) trivial (fun _ => rfl) fun _ => trivial)
  refine Prog.obeys_bind (Prog.obeys_call (P := revoking (crypto.hashApiToken token))
    (c := .query (.revokeSession (crypto.hashApiToken token))) trivial (fun row => ?_)
    fun e => hclose _ e)
  have hrevoked : (revoking (crypto.hashApiToken token)).next false
      (.query (.revokeSession (crypto.hashApiToken token))) (.ok row) = true := by
    simp [revoking]
  rw [hrevoked]
  cases row with
  | none => exact Prog.obeys_bind (obeys_watched (c := .close) trivial (fun _ => rfl) fun _ => rfl)
  | some row =>
    intro n
    refine Prog.obeys_call (P := revoking (crypto.hashApiToken token))
      (c := .query (.insertAuditLog n.uuid4 _)) trivial (fun _ => ?_) fun e => hclose _ e
    exact Prog.obeys_bind (obeys_watched (c := .close) trivial (fun _ => rfl) fun _ => rfl)

/-- No session is found for the hash. -/
def Unseen (d : Digest) : (c : Sql.Call identity) → IdentityApi.Reply c → Prop
  | .query (.selectSession d'), r => d' = d → ∀ row, r ≠ .ok (some row)
  | _, _ => True

/-- A barred hash is looked up in vain. -/
theorem Barred.unseen (h : Barred d s) : selectSession d now s = none := by
  cases hrow : selectSession d now s with
  | none => rfl
  | some row =>
    obtain ⟨session, hmem, hd, hlive, -⟩ := selectSession_found hrow
    exact absurd hlive (h session hmem hd)

theorem Guarded.unseen {c : Sql.Call identity} {f : Fault ApiError} {r : IdentityApi.Reply c}
    (h : Guarded d issued s₀ true w) (hc : AdmissionCall c)
    (hs : identityServer.serve c f w = some (r, w')) :
    Guarded d issued s₀ true w' ∧ Unseen d c r := by
  have hallow : (revoking d).allow true c := by
    cases c with
    | connect => trivial
    | close => trivial
    | query q => trivial
    | start => exact hc
    | run tx c => exact hc
    | commit tx => exact hc
    | rollback tx => exact hc
  have hguard := h.serve hallow hs
  have hnext : (revoking d).next true c r = true := by
    unfold revoking
    dsimp only
    split
    · rfl
    · rfl
  rw [hnext] at hguard
  refine ⟨hguard, ?_⟩
  cases c with
  | query q =>
    cases q with
    | selectSession d' =>
      rintro rfl row rfl
      obtain ⟨-, ha⟩ := Async.Machine.serve_ok hs
      obtain ⟨db, hq, -⟩ := Sql.effect_query ha
      obtain ⟨-, u, hu, -⟩ := Sql.Database.query_cases hq
      have heff : QueryEffect w.db.clock w.db.current u (.selectSession d') (some row) :=
        query_effect hu
      obtain ⟨hrow, -⟩ := heff
      rw [(h.barred rfl).unseen] at hrow
      cases hrow
    | _ => trivial
  | _ => trivial

/-! ## A later request -/

/-- The calls of the admission, where the hash finds no session. -/
abbrev blind (d : Digest) : Async.Rely IdentityApi := ⟨AdmissionCall, Unseen d⟩

theorem authenticateSession_blind (token : Text) (csrfToken : Option Text) (requireCsrf : Bool) :
    (authenticateSession crypto token csrfToken requireCsrf).Ensures
      (blind (crypto.hashApiToken token)) (fun a => a = none) fun _ => True := by
  unfold authenticateSession
  refine Sql.ensures_withConnection trivial trivial (fun _ _ _ => trivial) ?_
  refine Prog.ensures_bind (Prog.ensures_call trivial (fun row hrow => ?_) fun _ _ => trivial)
  cases row with
  | none => rfl
  | some row => exact absurd rfl (hrow rfl row)

theorem authenticateAdminToken_blind (token : Text) :
    (authenticateAdminToken crypto token).Ensures (blind d)
      (fun a => ∀ p ∈ a, p.source ≠ .session) fun _ => True := by
  unfold authenticateAdminToken
  split
  · exact fun p hp => by cases hp
  refine Sql.ensures_withConnection trivial trivial (fun _ _ _ => trivial) ?_
  refine Prog.ensures_bind (Prog.ensures_call trivial (fun row _ => ?_) fun _ _ => trivial)
  cases row with
  | none => exact fun p hp => by cases hp
  | some row =>
    show Prog.Ensures _ (if adminRole ∉ row.roles then _ else _) _ _
    split
    · exact fun p hp => by cases hp
    · refine Prog.ensures_bind (Prog.ensures_call trivial (fun _ _ => ?_) fun _ _ => trivial)
      intro p hp
      cases hp
      simp

variable {settings : Settings} {request : AdmissionRequest} {token : Text}

theorem requireSession_blind (htoken : request.sessionToken = some token) :
    (requireSession (appState crypto) request).Ensures (blind (crypto.hashApiToken token))
      (fun p => p.source ≠ .session) fun _ => True := by
  unfold requireSession
  rw [htoken]
  refine Prog.ensures_bind (Prog.ensures_caught ?_)
  refine (authenticateSession_blind token request.csrfToken _).mono (fun a ha => ?_) fun _ _ => trivial
  subst ha
  trivial

theorem raising_ensures_any {α : Type} {A : Async.Rely IdentityApi} {a : Except PyException α}
    {Q : α → Prop} (h : ∀ b, Q b) : (raising a).Ensures A Q fun _ => True :=
  Prog.ensures_ofExcept (σ := IdentityApi) (fun b _ => h b) fun _ _ => trivial

theorem requireEnvironmentToken_blind (htoken : request.sessionToken = some token) (header : Text) :
    (requireEnvironmentToken settings (appState crypto) request header).Ensures
      (blind (crypto.hashApiToken token)) (fun p => p.source ≠ .session) fun _ => True := by
  unfold requireEnvironmentToken
  refine Prog.ensures_bind (raising_ensures_any fun b => ?_)
  cases b with
  | true => simp [environmentAdminPrincipal, Prog.Ensures]
  | false => exact requireSession_blind htoken

/-- **Where the hash finds no session**, the session token admits nothing. -/
theorem requireAdminToken_blind (htoken : request.sessionToken = some token) :
    (requireAdminToken settings (appState crypto) request).Ensures
      (blind (crypto.hashApiToken token)) (fun p => p.source ≠ .session) fun _ => True := by
  unfold requireAdminToken
  cases request.token with
  | none => exact requireSession_blind htoken
  | some header =>
    refine Prog.ensures_bind (Prog.ensures_caught ?_)
    refine (authenticateAdminToken_blind header).mono (fun a ha => ?_) fun e _ => ?_
    · cases a with
      | none => exact requireEnvironmentToken_blind htoken header
      | some p =>
        show Prog.Ensures _ (if adminRole ∈ p.roles then _ else _) _ _
        split
        · exact ha p rfl
        · exact requireEnvironmentToken_blind htoken header
    · refine Prog.ensures_bind (raising_ensures_any fun b => ?_)
      cases b with
      | true => simp [environmentAdminPrincipal, Prog.Ensures]
      | false => trivial

/-- **A revoked session admits no later request**, whatever others do meanwhile. -/
theorem requireAdminToken_revoked {u v : Sql.Server identity Drawn} {principal : AuthenticatedPrincipal}
    (hsound : Sql.Sound (S := identity) s₀ w.db)
    (hrevoke : Amid identityServer (Sql.Meanwhile ApiError (NoReissue (crypto.hashApiToken token)
      (Issued (crypto.hashApiToken token) w.db.current))) (revokeSession crypto token) w
      (.returned ()) u)
    (hlater : Amid identityServer (Sql.Meanwhile ApiError (NoReissue (crypto.hashApiToken token)
      (Issued (crypto.hashApiToken token) w.db.current)))
      (requireAdminToken settings (appState crypto) request) u (.returned principal) v)
    (htoken : request.sessionToken = some token) : principal.source ≠ .session := by
  have hstart : Guarded (crypto.hashApiToken token)
      (Issued (crypto.hashApiToken token) w.db.current) s₀ false w :=
    ⟨hsound, id, fun h => by cases h⟩
  obtain ⟨l, hguard, hend⟩ := hrevoke.obeys
    (J := Guarded (crypto.hashApiToken token) (Issued (crypto.hashApiToken token) w.db.current) s₀)
    (fun l s s' h hr => h.meanwhile hr) (fun l s h => ⟨h.sound, h.issued, h.barred⟩)
    (fun l c f s r s' hc h hs => h.serve hc hs) hstart (revokeSession_obeys token)
  have hl : l = true := hend
  subst hl
  exact hlater.ensures (fun s s' h hr => h.meanwhile hr) (fun s h => ⟨h.sound, h.issued, h.barred⟩)
    (fun c f s r s' hc h hs => h.unseen hc hs) hguard (requireAdminToken_blind htoken)

/-! ## The two together -/

/-- **Admission is exact and a revoked session stays out.** For every state the request is
admitted by the three ways and no other, unless a comparison that raises hides a session
that admits; and in every run, after `revoke_session`, amid others that do not issue the
token anew, no later request is admitted by that session token. -/
theorem admission_exact_and_final (crypto : Crypto) (settings : Settings)
    (request : AdmissionRequest) :
    (∀ w, Exact crypto settings request w ↔ ¬ Shadowed crypto settings request w) ∧
    ∀ (s₀ : Tables) (now : Timestamp) (supply : ℕ → Drawn) (xs : List (Async.Input identityServer))
      (p : Pool identityServer) (token : Text) (u v : Sql.Server identity Drawn)
      (principal : AuthenticatedPrincipal),
      (Pool.init (Sql.Server.start (S := identity) s₀ now supply)).run? xs = some p →
      Amid identityServer (Sql.Meanwhile ApiError (NoReissue (crypto.hashApiToken token)
        (Issued (crypto.hashApiToken token) p.state.db.current))) (revokeSession crypto token)
        p.state (.returned ()) u →
      Amid identityServer (Sql.Meanwhile ApiError (NoReissue (crypto.hashApiToken token)
        (Issued (crypto.hashApiToken token) p.state.db.current)))
        (requireAdminToken settings (appState crypto) request) u (.returned principal) v →
      request.sessionToken = some token → principal.source ≠ .session := by
  refine ⟨fun w => exact_iff, ?_⟩
  intro s₀ now supply xs p token u v principal hrun hrevoke hlater htoken
  have hsound : Sql.Sound (S := identity) s₀ p.state.db :=
    (Sql.grows_run hrun).sound s₀ (Sql.Sound.init now)
  exact requireAdminToken_revoked hsound hrevoke hlater htoken

/-! ### A configured token with an umlaut -/

/-- The digest of the session token `session`; its other functions are not asked. -/
def sessionCrypto : Crypto where
  hashApiToken t := if t = Python.text "session" then
      0x3f3af1ecebbd1410ab417ec0d27bbfcb5d340e177ae159b59fc8626c2dfd9175 else 0
  hashPassword _ _ := ""
  verifyPassword _ _ := false

def umlautSettings : Settings where
  env := Python.text "dev"
  adminApiToken := some (Python.text "schlüssel")
  allowEnvironmentAdminToken := true

/-- A request with a session cookie and another header. -/
def cookieRequest : AdmissionRequest where
  method := Python.text "GET"
  token := some (Python.text "x")
  sessionToken := some (Python.text "session")
  method_ascii := by simp [Python.IsAscii, Python.text]; decide
  token_ascii := by simp [Python.IsAscii, Python.text]; decide
  sessionToken_ascii := by simp [Python.IsAscii, Python.text]; decide
  csrfToken_ascii := by simp

/-- One active admin with a session that is neither revoked nor expired. -/
def oneSession : Tables where
  users := .singleton ⟨⟨1⟩, none, none, "active", active_status⟩
  roles := .singleton ⟨⟨2⟩, "admin"⟩
  userRoles := .singleton ⟨⟨1⟩, ⟨2⟩⟩
  apiCredentials := Sql.Table.empty
  passwordCredentials := Sql.Table.empty
  userSessions := .singleton
    ⟨⟨3⟩, ⟨1⟩, 0x3f3af1ecebbd1410ab417ec0d27bbfcb5d340e177ae159b59fc8626c2dfd9175, 0, 100, none, none⟩
  auditLogs := Sql.Table.empty

def oneSessionServer : Sql.Server identity Drawn :=
  Sql.Server.start (S := identity) oneSession 0 fun _ => ⟨⟨0⟩, [], [], 0⟩

/-- The session admits the request, and the comparison of `x` with `schlüssel` raises. -/
theorem umlaut_shadowed : Shadowed sessionCrypto umlautSettings cookieRequest oneSessionServer := by
  refine ⟨⟨⟨rfl, by decide⟩, by simp [cookieRequest], Python.text "schlüssel", rfl, fun h => ?_⟩, ?_, ?_⟩
  · have hmem : Python.ofChar 'ü' ∈ Python.text "schlüssel" := List.mem_map_of_mem (by decide)
    exact absurd (h _ hmem) (by decide)
  · rintro ⟨token, htoken, hlength, -⟩
    cases htoken
    revert hlength
    decide
  · refine ⟨Python.text "session", rfl, _, List.mem_singleton_self _, ?_, rfl, by decide, ?_, ?_⟩
    · rfl
    · exact ⟨_, List.mem_singleton_self _, rfl, rfl, _, List.mem_singleton_self _, rfl, _,
        List.mem_singleton_self _, rfl, rfl⟩
    · intro h
      revert h
      decide

theorem umlaut_not_exact : ¬ Exact sessionCrypto umlautSettings cookieRequest oneSessionServer :=
  fun h => exact_iff.1 h umlaut_shadowed

/-- A configured token that a header equals. -/
def asciiSettings : Settings where
  env := Python.text "dev"
  adminApiToken := some (Python.text "x")
  allowEnvironmentAdminToken := true

/-- The header `x` is too short for a credential and equals the configured token. -/
theorem header_admits : requireAdminToken asciiSettings (appState sessionCrypto) cookieRequest =
    .done environmentAdminPrincipal := by
  have hshort : authenticateAdminToken sessionCrypto (Python.text "x") = .done none := rfl
  have hmatch : environmentAdminTokenMatches asciiSettings (Python.text "x") = .ok true := by
    have hascii : Python.IsAscii (Python.text "x") := cookieRequest.token_ascii _ rfl
    have henv : Python.lower (Python.text "dev") ∈ environmentAdminTokenEnvs := by decide
    have hne : Python.text "x" ≠ [] := by decide
    simp [environmentAdminTokenMatches, asciiSettings, compareDigest, hascii, hne, henv]
  have hrest : requireEnvironmentToken asciiSettings (appState sessionCrypto) cookieRequest
      (Python.text "x") = .done environmentAdminPrincipal := by
    unfold requireEnvironmentToken
    rw [hmatch]
    rfl
  have htoken : cookieRequest.token = some (Python.text "x") := rfl
  have hrepo : (appState sessionCrypto).adminCredentialRepository =
      some (authenticateAdminToken sessionCrypto) := rfl
  unfold requireAdminToken
  rw [htoken, hrepo]
  dsimp only
  rw [hshort, Prog.caught, Prog.bind_done]
  exact hrest

/-- The revoked session next to a header that admits: the request is admitted by the header. -/
theorem admission_exact_and_final_header :
    environmentAdminPrincipal.source ≠ .session ∧
      Exact sessionCrypto asciiSettings cookieRequest oneSessionServer := by
  obtain ⟨hexact, hfinal⟩ := admission_exact_and_final sessionCrypto asciiSettings cookieRequest
  constructor
  · have hrun : ∃ o, (revokeSession sessionCrypto (Python.text "session")).exec? identityServer
        [.works, .works, .works, .works] oneSessionServer = some o ∧ o.ending = .returned () :=
      ⟨_, rfl, rfl⟩
    obtain ⟨o, ho, hend⟩ := hrun
    refine hfinal oneSession 0 (fun _ => ⟨⟨0⟩, [], [], 0⟩) [] _ (Python.text "session") o.state
      o.state environmentAdminPrincipal rfl ?_ ?_ rfl
    · rw [← hend]
      exact Async.exec_amid (Sql.Meanwhile.refl _) ho
    · rw [header_admits]
      exact .returned environmentAdminPrincipal o.state
  · refine (hexact oneSessionServer).2 ?_
    rintro ⟨⟨-, -, t, ht, hnot⟩, -⟩
    cases ht
    refine hnot ?_
    simp [Python.IsAscii, Python.text]
    decide

end CopyTrade
