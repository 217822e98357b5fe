import CopyTrade.Async.Begun
import CopyTrade.Proof.Effects
import CopyTrade.Proof.Entrance
import CopyTrade.Spec.AdminCredentials
import CopyTrade.Sql.Noted

/-!
# Rotation is linear and final

* `Retired`: a credential is inactive. No statement makes it active again.
* `Rotates`: the commit of a rotation. It finds its credential active, leaves it inactive,
  and makes an active one in its place.
-/

namespace CopyTrade

open Async (Prog)
open Identity
open Python (Text)
open Sql (Commit Did Runs Serial Table)

/-! ## Inactive credentials -/

/-- The credential of the id is inactive, and has the hash. -/
def Retired (id : UUID) (d : Digest) (s : Tables) : Prop :=
  ∃ r ∈ s.apiCredentials, r.id = id ∧ r.tokenHash = d ∧ r.active = false

variable {id : UUID} {d : Digest} {now : Timestamp} {s t : Tables}

theorem Retired.same (h : Retired id d s) (ht : t.apiCredentials = s.apiCredentials) :
    Retired id d t := by
  unfold Retired
  rw [ht]
  exact h

/-- An update that keeps the hashes and makes no credential active. -/
theorem Retired.update {i : UUID} {f : ApiCredentialRow → ApiCredentialRow}
    {u : Table ApiCredentialRow} (h : Retired id d s) (hu : s.apiCredentials.update? i f = some u)
    (hf : ∀ r, (f r).id = r.id ∧ (f r).tokenHash = r.tokenHash ∧ (r.active = false → (f r).active = false)) :
    Retired id d { s with apiCredentials := u } := by
  obtain ⟨r, hr, hid, hd, hactive⟩ := h
  obtain ⟨hfid, hfd, hfactive⟩ := hf r
  refine ⟨_, (Table.mem_update hu).2 ⟨r, hr, rfl⟩, ?_⟩
  split
  · exact ⟨hfid.trans hid, hfd.trans hd, hfactive hactive⟩
  · exact ⟨hid, hd, hactive⟩

theorem Retired.insert {a : ApiCredentialRow} {u : Table ApiCredentialRow} (h : Retired id d s)
    (hu : s.apiCredentials.insert? a = some u) : Retired id d { s with apiCredentials := u } := by
  obtain ⟨r, hr, hretired⟩ := h
  exact ⟨r, (Table.mem_insert hu).2 (Or.inl hr), hretired⟩

/-- **No statement of a transaction** makes a credential active again. -/
theorem exec_retired {c : Stmt} {a : Ret c} (h : exec c now s = some (a, t)) (hs : Retired id d s) :
    Retired id d t := by
  by_cases hc : c.OnCredentials
  swap
  · exact hs.same ((exec_tables h).apiCredentials hc)
  have heff := exec_effect h
  cases c with
  | insertAdminCredential cid userId tokenHash tokenPrefix =>
    obtain ⟨-, u, hu, rfl⟩ := heff
    exact hs.insert hu
  | deactivateAdminCredential cid =>
    obtain ⟨-, u, hu, rfl⟩ := heff
    exact hs.update hu fun r => ⟨rfl, rfl, fun _ => rfl⟩
  | _ => exact hc.elim

theorem query_retired {q : Query} {a : Answer q} (h : query q now s = some (a, t))
    (hs : Retired id d s) : Retired id d t := by
  by_cases hq : q.OnCredentials
  swap
  · exact hs.same ((query_tables h).apiCredentials hq)
  have heff := query_effect h
  cases q with
  | updateCredentialLastUsed cid =>
    obtain ⟨u, hu, rfl⟩ := heff
    exact hs.update hu fun r => ⟨rfl, rfl, fun hr => hr⟩
  | _ => exact hq.elim

/-- **No commit** makes a credential active again. -/
theorem turns_retired {c : Commit identity} (h : c.Turns s t) (hs : Retired id d s) :
    Retired id d t := by
  cases c with
  | query at_ q a => exact query_retired h hs
  | transaction tx began did =>
    obtain ⟨held, h⟩ := h
    induction did generalizing s with
    | nil => cases h; exact hs
    | cons x did ih =>
      by_cases hx : identity.pinned x.stmt x.answer = true
      · obtain ⟨-, u, hu, hr⟩ := (Runs.of_pinned hx).1 h
        exact ih (exec_retired hu hs) hr
      · exact ih hs ((Runs.of_plain hx).1 h)

/-! ## Rotations -/

/-- What a rotation did: it found the credential active. -/
def Rotated (id : UUID) (did : List (Did identity)) : Prop :=
  ∃ credential user after newId tokenHash tokenPrefix row a b entry entry',
    credential.active = true ∧ did =
      [⟨.selectAdminCredentialByIdForUpdate id adminApiCredentialType, some (credential, user)⟩,
        ⟨.deactivateAdminCredential id, some after⟩,
        ⟨.insertAdminCredential newId credential.userId tokenHash tokenPrefix, row⟩,
        ⟨.insertAuditLog a entry, ()⟩, ⟨.insertAuditLog b entry', ()⟩]

/-- The commit of a rotation. -/
def Rotates (id : UUID) : Commit identity → Prop
  | .transaction _ _ did => Rotated id did
  | .query _ _ _ => False

/-- **What the commit of a rotation does to the credentials.** -/
theorem rotates_turns {c : Commit identity} (hc : Rotates id c) (h : c.Turns s t) :
    ∃ credential u row, s.apiCredentials.get id = some credential ∧ credential.active = true ∧
      s.apiCredentials.update? id deactivate = some u ∧
      u.insert? row = some t.apiCredentials ∧ row.userId = credential.userId ∧ row.active = true := by
  cases c with
  | query at_ q a => exact hc.elim
  | transaction tx began did =>
    obtain ⟨credential, user, after, newId, tokenHash, tokenPrefix, row, a, b, entry, entry', hactive,
      rfl⟩ := hc
    obtain ⟨held, h₀⟩ := h
    obtain ⟨s₁, ⟨hfound, rfl⟩, h₁⟩ := runs_effect rfl h₀
    obtain ⟨s₂, ⟨-, u, hu, rfl⟩, h₂⟩ := runs_effect rfl h₁
    obtain ⟨s₃, ⟨rfl, v, hv, rfl⟩, h₃⟩ := runs_effect rfl h₂
    obtain ⟨s₄, ⟨w, -, rfl⟩, h₄⟩ := runs_effect rfl h₃
    obtain ⟨s₅, ⟨x, -, rfl⟩, h₅⟩ := runs_effect rfl h₄
    cases h₅
    have hget : s₁.apiCredentials.get id = some credential := by
      obtain ⟨c, hc, hrest⟩ := Option.bind_eq_some_iff.1 hfound.symm
      split at hrest
      · obtain ⟨user', -, he⟩ := Option.map_eq_some_iff.1 hrest
        cases he
        exact hc
      · cases hrest
    exact ⟨credential, u, _, hget, hactive, hu, hv, rfl, rfl⟩

/-- A credential that a rotation finds is not inactive, and is inactive after it. -/
theorem rotates_retires {c : Commit identity} (hc : Rotates id c) (h : c.Turns s t) :
    (∀ d, ¬ Retired id d s) ∧ ∃ d, Retired id d t := by
  obtain ⟨credential, u, row, hget, hactive, hu, hv, -⟩ := rotates_turns hc h
  obtain ⟨hmem, hid⟩ := Table.get_eq_some.1 hget
  constructor
  · rintro d ⟨r, hr, hrid, -, hinactive⟩
    have hsame : r = credential := Table.eq_of_id hr hmem (hrid.trans hid.symm)
    rw [hsame, hactive] at hinactive
    cases hinactive
  · refine ⟨credential.tokenHash, deactivate credential, ?_, hid, rfl, rfl⟩
    exact (Table.mem_insert hv).2 (Or.inl (Table.mem_update_self hu hget))

/-- After the commits, the credential of a rotation among them is inactive. -/
theorem serial_retired {s₀ : Tables} {cs : List (Commit identity)} {c : Commit identity}
    (hc : Rotates id c) (hmem : c ∈ cs) : ∀ {t : Tables}, Serial s₀ cs t → ∃ d, Retired id d t := by
  induction cs with
  | nil => cases hmem
  | cons c' cs ih =>
    intro t h
    obtain ⟨s, hs, hturns⟩ := h
    rcases List.mem_cons.1 hmem with rfl | hmem
    · exact (rotates_retires hc hturns).2
    · obtain ⟨d, hd⟩ := ih hmem hs
      exact ⟨d, turns_retired hturns hd⟩

/-- **A credential is rotated once**: no two commits of a serial history rotate it. -/
theorem serial_rotations {s₀ : Tables} {cs : List (Commit identity)} :
    ∀ {t : Tables}, Serial s₀ cs t → cs.Pairwise fun c c' => ∀ id, ¬ (Rotates id c ∧ Rotates id c') := by
  induction cs with
  | nil => intro t _; exact List.Pairwise.nil
  | cons c cs ih =>
    intro t h
    obtain ⟨s, hs, hturns⟩ := h
    refine List.pairwise_cons.2 ⟨fun c' hc' id hboth => ?_, ih hs⟩
    obtain ⟨d, hd⟩ := serial_retired hboth.2 hc' hs
    exact (rotates_retires hboth.1 hturns).1 d hd

/-- How many active credentials the user has. -/
def activeCount (userId : UUID) (s : Tables) : ℕ :=
  s.apiCredentials.rows.countP fun r => decide (r.userId = userId ∧ r.active = true)

/-- **A rotation leaves the number of active credentials as it is**, of its user and of every
other. -/
theorem rotates_activeCount {c : Commit identity} (hc : Rotates id c) (h : c.Turns s t)
    (userId : UUID) : activeCount userId t = activeCount userId s := by
  obtain ⟨credential, u, row, hget, hactive, hu, hv, huser, hrow⟩ := rotates_turns hc h
  have hupdate := Table.countP_update hu hget fun r => decide (r.userId = userId ∧ r.active = true)
  have hinsert : t.apiCredentials.rows = u.rows ++ [row] := (Table.insert_eq_some.1 hv).2
  unfold activeCount
  rw [hinsert, List.countP_append]
  have hgone : [deactivate credential].countP
      (fun r => decide (r.userId = userId ∧ r.active = true)) = 0 := by
    simp [deactivate]
  have hsame : [row].countP (fun r => decide (r.userId = userId ∧ r.active = true)) =
      [credential].countP fun r => decide (r.userId = userId ∧ r.active = true) := by
    simp [huser, hrow, hactive]
  omega

/-! ## The programs -/

/-- What a rotation may commit: that it is done, or nothing. -/
def RotationCommit (id : UUID) (did : List (Did identity)) : Prop :=
  Rotated id did ∨ ∀ x ∈ did, Idles x

/-- Any discipline of the clients. -/
abbrev clients : Async.Protocol IdentityApi (Sql.Note identity) :=
  Sql.noted (S := identity) (fun _ => True) fun _ => True

/-- The discipline of a rotation. -/
abbrev rotating (id : UUID) : Async.Protocol IdentityApi (Sql.Note identity) :=
  Sql.noted (S := identity) (RotationCommit id) fun _ => False

variable {crypto : Crypto}

/-- `POST …/rotate` -/
def rotation (crypto : Crypto) (id : UUID) (principal : AuthenticatedPrincipal) : Prog IdentityApi Unit :=
  AdminCredentials.rotateAdminCredential crypto id principal >>= fun _ => pure ()

/-- A request about admin credentials, or one that brings a token. -/
inductive CredentialRequest (crypto : Crypto) : Prog IdentityApi Unit → Prop where
  | create (payload : AdminCredentials.AdminCredentialCreate) (principal : AuthenticatedPrincipal) :
    CredentialRequest crypto
      (AdminCredentials.createAdminCredential crypto payload principal >>= fun _ => pure ())
  | rotate (id : UUID) (principal : AuthenticatedPrincipal) :
    CredentialRequest crypto (rotation crypto id principal)
  | deactivate (id : UUID) (principal : AuthenticatedPrincipal) :
    CredentialRequest crypto
      (AdminCredentials.deactivateAdminCredential id principal >>= fun _ => pure ())
  | authenticate (token : Text) :
    CredentialRequest crypto (authenticateAdminToken crypto token >>= fun _ => pure ())

section

variable {tx : ℕ} {ds : List (Did identity)} {n : Option (List (Did identity))}
  {C : List (Did identity) → Prop} {Qs : Query → Prop}

theorem noted_fetchIn {c : Stmt} {Q : Sql.Note identity → Ret c → Prop}
    (h : ∀ a, Q (some (tx, ds ++ [⟨c, a⟩]), n) a) :
    (fetchIn tx c).Obeys (Sql.noted C Qs) (some (tx, ds), n) Q fun _ _ => True :=
  Sql.noted_run h fun _ => trivial

theorem noted_insertAuditLog {entry : AuditEntry AuditState} {Q : Sql.Note identity → Unit → Prop}
    (h : ∀ id, Q (some (tx, ds ++ [⟨.insertAuditLog id entry, ()⟩]), n) ()) :
    (insertAuditLog tx entry).Obeys (Sql.noted C Qs) (some (tx, ds), n) Q fun _ _ => True := by
  intro drawn
  exact noted_fetchIn fun _ => h drawn.uuid4

end

theorem obeys_generateAdminApiToken {L : Type} {P : Async.Protocol IdentityApi L} {l : L}
    {Q : L → Text → Prop} {X : L → ApiError → Prop} (h : ∀ token, Q l token) (hX : ∀ e, X l e) :
    AdminCredentials.generateAdminApiToken.Obeys P l Q X := by
  intro n
  show Prog.Obeys _ (if isAdminApiTokenCandidate n.tokenUrlsafe then _ else _) _ _ _
  split
  · exact h _
  · exact hX _

/-- The transaction of a rotation that found the credential active. -/
theorem rotateTo_obeys {tx : ℕ} {n : Option (List (Did identity))} (principal : AuthenticatedPrincipal)
    (token : Text) (newId : UUID) (credential after : ApiCredentialRow) (user : Identity.UserRow)
    (hactive : credential.active = true) :
    (AdminCredentials.Repository.rotateTo crypto tx principal token newId
      (AdminCredentials.rowToRecord credential user) (AdminCredentials.rowToRecord after user) user).Obeys
      (rotating id) (some (tx, [⟨.selectAdminCredentialByIdForUpdate id adminApiCredentialType,
        some (credential, user)⟩, ⟨.deactivateAdminCredential id, some after⟩]), n)
      (fun l _ => ∃ did, l = (some (tx, did), n) ∧ Rotated id did) fun _ _ => True := by
  unfold AdminCredentials.Repository.rotateTo
  refine Prog.obeys_bind (noted_fetchIn fun row => ?_)
  refine Prog.obeys_bind (noted_insertAuditLog fun a => ?_)
  refine Prog.obeys_bind (noted_insertAuditLog fun b => ?_)
  exact ⟨_, rfl, credential, user, after, newId, _, _, row, a, b, _, _, hactive, rfl⟩

/-- **The transaction of a rotation**: what it returns a credential for is `Rotated`, and else
it commits nothing that changes the tables. -/
theorem rotateAdminCredential_repository_obeys (id : UUID) (principal : AuthenticatedPrincipal) :
    (AdminCredentials.Repository.rotateAdminCredential crypto id principal).Obeys (rotating id)
      (none, none) (fun l a => ∃ did, l = (none, some did) ∧ (a ≠ none → Rotated id did))
      fun _ _ => True := by
  unfold AdminCredentials.Repository.rotateAdminCredential
  refine Prog.obeys_bind (obeys_generateAdminApiToken (fun token => ?_) fun _ => trivial)
  refine Prog.obeys_bind (obeys_uuid4 fun newId => ?_)
  refine (Sql.noted_withConnection (Sql.noted_transaction fun tx => ?_)).mono (fun l a h => h)
    fun _ _ _ => trivial
  refine Prog.obeys_bind (noted_fetchIn fun row => ?_)
  cases row with
  | none => exact ⟨_, rfl, Or.inr (by simp [Idles, pinned]), fun h => absurd rfl h⟩
  | some row =>
    obtain ⟨credential, user⟩ := row
    have hrecord : (AdminCredentials.rowToRecord credential user).active = credential.active := rfl
    cases hactive : credential.active with
    | false =>
      simp only [hrecord, hactive, Bool.not_false, if_true]
      trivial
    | true =>
    simp only [hrecord, hactive, Bool.not_true, Bool.false_eq_true, if_false]
    refine Prog.obeys_bind (noted_fetchIn fun after => ?_)
    cases after with
    | none => exact ⟨_, rfl, Or.inr (by simp [Idles, pinned]), fun h => absurd rfl h⟩
    | some after =>
      refine Prog.obeys_bind ((rotateTo_obeys principal token newId credential after user hactive).mono
        (fun l _ h => ?_) fun _ _ _ => trivial)
      obtain ⟨did, rfl, hdid⟩ := h
      exact ⟨did, rfl, Or.inl hdid, fun _ => hdid⟩

/-- **A rotation that succeeds** has committed that it is done. -/
theorem rotation_obeys (id : UUID) (principal : AuthenticatedPrincipal) :
    (rotation crypto id principal).Obeys (rotating id) (none, none)
      (fun l _ => ∃ did, l.2 = some did ∧ Rotated id did) fun _ _ => True := by
  unfold rotation AdminCredentials.rotateAdminCredential
  refine Prog.obeys_bind (Prog.obeys_bind (Prog.obeys_tryExcept ?_))
  refine (rotateAdminCredential_repository_obeys id principal).mono (fun l a h => ?_) fun _ _ _ => trivial
  obtain ⟨did, rfl, hdid⟩ := h
  cases a with
  | none => trivial
  | some created => exact ⟨did, rfl, hdid (Option.some_ne_none created)⟩

/-- A lookup of a credential by itself. -/
theorem authenticateAdminToken_ensures_any {A : Async.Rely IdentityApi}
    (hA : ∀ c, AdmissionCall c → A.calls c) (token : Text) :
    (authenticateAdminToken crypto token).Ensures A (fun _ => True) fun _ => True := by
  unfold authenticateAdminToken
  split
  · trivial
  refine Sql.ensures_withConnection (hA _ trivial) (hA _ trivial) (fun _ _ _ => trivial) ?_
  refine Prog.ensures_bind (Prog.ensures_call (hA _ trivial) (fun row _ => ?_) fun _ _ => trivial)
  cases row with
  | none => trivial
  | some row =>
    show Prog.Ensures _ (if adminRole ∉ row.roles then _ else _) _ _
    split
    · trivial
    · exact Prog.ensures_bind (Prog.ensures_call (hA _ trivial) (fun _ _ => trivial) fun _ _ => trivial)

theorem createAdminCredential_repository_obeys (payload : AdminCredentials.AdminCredentialCreate)
    (principal : AuthenticatedPrincipal) :
    (AdminCredentials.Repository.createAdminCredential crypto payload principal).Obeys clients
      (none, none) (fun _ _ => True) fun _ _ => True := by
  unfold AdminCredentials.Repository.createAdminCredential
  refine Prog.obeys_bind (obeys_generateAdminApiToken (fun token => ?_) fun _ => trivial)
  refine Prog.obeys_bind (obeys_uuid4 fun credentialId => Prog.obeys_bind ?_)
  refine (Sql.noted_withConnection (R := fun _ _ => True) (Sql.noted_transaction fun tx => ?_)).mono
    (fun _ _ _ => trivial) fun _ _ _ => trivial
  refine Prog.obeys_bind (obeys_uuid4 fun userId => ?_)
  refine Prog.obeys_bind (noted_fetchIn fun user => ?_)
  cases user with
  | none => trivial
  | some user =>
  refine Prog.obeys_bind (noted_fetchIn fun adminRoleId => ?_)
  cases adminRoleId with
  | none => trivial
  | some adminRoleId =>
  refine Prog.obeys_bind (noted_fetchIn fun _ => ?_)
  have hrest : ∀ ds : List (Did identity),
      (AdminCredentials.Repository.insertAdminCredentialRow crypto tx credentialId user.id token >>=
        fun credential => do
        let record := AdminCredentials.rowToRecord credential user
        insertAuditLog tx (AdminCredentials.credentialEntry principal "admin_credential.created" record.id
          none (some record) [])
        pure record).Obeys clients (some (tx, ds), none)
        (fun l _ => ∃ ds, l = (some (tx, ds), none) ∧ True ∧ True) fun _ _ => True := fun ds =>
    Prog.obeys_bind (noted_fetchIn fun _ => Prog.obeys_bind (noted_insertAuditLog fun _ =>
      ⟨_, rfl, trivial, trivial⟩))
  cases payload.password with
  | none => exact hrest _
  | some password =>
    refine Prog.obeys_bind (Prog.obeys_bind (obeys_uuid4 fun _ => ?_))
    intro salt
    exact noted_fetchIn fun _ => hrest _

theorem deactivateAdminCredential_repository_obeys (id : UUID) (principal : AuthenticatedPrincipal) :
    (AdminCredentials.Repository.deactivateAdminCredential id principal).Obeys clients
      (none, none) (fun _ _ => True) fun _ _ => True := by
  unfold AdminCredentials.Repository.deactivateAdminCredential
  refine (Sql.noted_withConnection (R := fun _ _ => True) (Sql.noted_transaction fun tx => ?_)).mono
    (fun _ _ _ => trivial) fun _ _ _ => trivial
  refine Prog.obeys_bind (noted_fetchIn fun row => ?_)
  cases row with
  | none => exact ⟨_, rfl, trivial, trivial⟩
  | some row =>
    obtain ⟨credential, user⟩ := row
    show Prog.Obeys _ (if !(AdminCredentials.rowToRecord credential user).active then _ else _) _ _ _
    split
    · exact ⟨_, rfl, trivial, trivial⟩
    · refine Prog.obeys_bind (noted_fetchIn fun after => ?_)
      cases after with
      | none => exact ⟨_, rfl, trivial, trivial⟩
      | some after =>
        exact Prog.obeys_bind (noted_insertAuditLog fun _ => ⟨_, rfl, trivial, trivial⟩)

/-- **Every request** keeps the discipline of the clients. -/
theorem CredentialRequest.keeps {q : Prog IdentityApi Unit} (h : CredentialRequest crypto q) :
    q.Keeps clients (none, none) := by
  cases h with
  | create payload principal =>
    refine Prog.obeys_bind (Prog.obeys_bind (Prog.obeys_tryExcept ?_))
    exact (createAdminCredential_repository_obeys payload principal).mono (fun _ _ _ => trivial)
      fun _ _ _ => trivial
  | rotate id principal =>
    have hrotation : (rotation crypto id principal).Keeps (rotating id) (none, none) :=
      (rotation_obeys id principal).mono (fun _ _ _ => trivial) fun _ _ _ => trivial
    -- the discipline of a rotation says more of its commit
    have hallow : ∀ l c, (rotating id).allow l c → clients.allow l c := by
      intro l c hc
      cases c with
      | commit tx =>
        obtain ⟨ds, hds, -⟩ := hc
        exact ⟨ds, hds, trivial⟩
      | query q => trivial
      | _ => exact hc
    exact Async.obeys_weaken hallow (fun _ _ _ => rfl) hrotation
  | deactivate id principal =>
    refine Prog.obeys_bind (Prog.obeys_bind ?_)
    refine (deactivateAdminCredential_repository_obeys id principal).mono (fun _ record _ => ?_)
      fun _ _ _ => trivial
    cases record with
    | none => trivial
    | some record => trivial
  | authenticate token =>
    have hlookup : (authenticateAdminToken crypto token).Ensures ⟨AdmissionCall, fun _ _ => True⟩
        (fun _ => True) fun _ => True := authenticateAdminToken_ensures_any (fun _ hc => hc) token
    refine Prog.obeys_bind ((hlookup.obeys (P := clients) (l := (none, none)) (fun c hc => ?_)
      (fun c r hc => ?_) fun _ _ => trivial).mono (fun _ _ _ => trivial) fun _ _ _ => trivial)
    · cases c with
      | connect => trivial
      | close => trivial
      | query q => trivial
      | start => exact hc.elim
      | run tx c => exact hc.elim
      | commit tx => exact hc.elim
      | rollback tx => exact hc.elim
    · cases c with
      | connect => rfl
      | close => rfl
      | query q => rfl
      | start => exact hc.elim
      | run tx c => exact hc.elim
      | commit tx => exact hc.elim
      | rollback tx => exact hc.elim

end CopyTrade
