import CopyTrade.Proof.Revocation
import CopyTrade.Proof.Rotation

/-!
# Rotations in any interleaving

* `Once`: what the notes of the executions say of the tables. Two executions have not rotated
  one credential.
* `rotation_step`: all that a step of a rotation does to the tables.
* `authenticateAdminToken_retired`: the token of an inactive credential admits nobody later.
-/

namespace CopyTrade

open Async (Entry Fault Input Pool Prog Amid)
open Identity
open Python (Text)
open Sql (Commit Did Serial lastCommit)

variable {id : UUID} {d : Digest} {s₀ s t : Tables} {w w' : Sql.Server identity Drawn}
  {tr : List (Entry IdentityApi)} {crypto : Crypto}

/-! ## One credential, one rotation -/

/-- The discipline of all statements and commits. -/
abbrev anything : Async.Protocol IdentityApi (Sql.Mirror identity) :=
  Sql.discipline (fun _ => True) fun _ => True

/-- A rotation that is noted has been committed, has left its credential inactive, and is the
only one of it. -/
structure Once (s₀ : Tables) (w : Sql.Server identity Drawn) (tr : List (Entry IdentityApi)) : Prop where
  kept : Sql.Kept (S := identity) anything (fun _ => True) (fun _ => True) s₀ w tr
  committed : ∀ i did, lastCommit tr i = some did →
    ∃ tx began, Commit.transaction tx began did ∈ w.db.history
  retired : ∀ i did id, lastCommit tr i = some did → Rotated id did → ∃ d, Retired id d w.db.current
  alone : ∀ i j did did' id, lastCommit tr i = some did → lastCommit tr j = some did' →
    Rotated id did → Rotated id did' → i = j

/-- The server goes on and the notes stay. -/
theorem Once.goes_on {tr' : List (Entry IdentityApi)} (h : Once s₀ w tr)
    (hkept : Sql.Kept (S := identity) anything (fun _ => True) (fun _ => True) s₀ w' tr')
    (hgrows : Sql.Grows w w') (hnotes : ∀ j, lastCommit tr' j = lastCommit tr j) : Once s₀ w' tr' := by
  refine ⟨hkept, fun i did hi => ?_, fun i did id hi hdid => ?_, fun i j did did' id hi hj => ?_⟩
  · rw [hnotes] at hi
    obtain ⟨tx, began, hmem⟩ := h.committed i did hi
    exact ⟨tx, began, hgrows.history.subset hmem⟩
  · rw [hnotes] at hi
    obtain ⟨d, hd⟩ := h.retired i did id hi hdid
    exact ⟨d, hgrows.keeps h.kept.sound hd fun _ _ _ hs hc => turns_retired hc hs⟩
  · rw [hnotes] at hi hj
    exact h.alone i j did did' id hi hj

theorem Once.serve (h : Once s₀ w tr) {i : ℕ} {c : Sql.Call identity} {f : Fault ApiError}
    {r : IdentityApi.Reply c} (hc : clients.allow (clients.at (none, none) tr i) c)
    (hs : identityServer.serve c f w = some (r, w')) : Once s₀ w' (⟨i, c, r⟩ :: tr) := by
  have hallow : anything.allow (anything.at none tr i) c := by
    rw [← Sql.noted_at tr i]
    exact hc
  have hkept := h.kept.serve hallow hs
  have hgrows : Sql.Grows w w' := Sql.grows_serve hs
  rcases h.kept.note_serve hallow hs with hnotes | ⟨tx, began, ds, hself, -, hother, hist, hturns⟩
  · exact h.goes_on hkept hgrows hnotes
  -- a rotation just noted found its credential active: no other note is of it
  have hactive : ∀ id, Rotated id ds → ∀ j did, j ≠ i → lastCommit (⟨i, c, r⟩ :: tr) j = some did →
      ¬ Rotated id did := by
    intro id hds j did hj hnote hdid
    rw [hother j hj] at hnote
    obtain ⟨d, hd⟩ := h.retired j did id hnote hdid
    exact (rotates_retires (c := .transaction tx began ds) hds hturns).1 d hd
  refine ⟨hkept, fun j did hj => ?_, fun j did id hj hdid => ?_, fun j k did did' id hj hk hdid hdid' => ?_⟩
  · rcases eq_or_ne j i with rfl | hne
    · rw [hself] at hj
      cases hj
      exact ⟨tx, began, by rw [hist]; exact List.mem_cons_self⟩
    · rw [hother j hne] at hj
      obtain ⟨tx', began', hmem⟩ := h.committed j did hj
      exact ⟨tx', began', hgrows.history.subset hmem⟩
  · rcases eq_or_ne j i with rfl | hne
    · rw [hself] at hj
      cases hj
      exact (rotates_retires (c := .transaction tx began ds) hdid hturns).2
    · rw [hother j hne] at hj
      obtain ⟨d, hd⟩ := h.retired j did id hj hdid
      exact ⟨d, hgrows.keeps h.kept.sound hd fun _ _ _ hs hc => turns_retired hc hs⟩
  · rcases eq_or_ne j i with rfl | hji
    · rcases eq_or_ne k j with rfl | hkj
      · rfl
      · rw [hself] at hj
        cases hj
        exact absurd hdid' (hactive id hdid k did' hkj hk)
    · rcases eq_or_ne k i with rfl | hki
      · rw [hself] at hk
        cases hk
        exact absurd hdid (hactive id hdid' j did hji hj)
      · rw [hother j hji] at hj
        rw [hother k hki] at hk
        exact h.alone j k did did' id hj hk hdid hdid'

theorem once_invariant : Async.Invariant identityServer clients (none, none) (Once s₀) where
  draw w tr h := h.goes_on ⟨h.kept.sound, h.kept.allowed, h.kept.mirrors, h.kept.owner⟩
    ⟨fun _ hs => hs, List.suffix_refl _⟩ fun _ => rfl
  move w tr m w' h hm := by
    refine h.goes_on (h.kept.move hm) ?_ fun _ => rfl
    cases m with
    | elapse d => cases hm; exact ⟨fun _ hs => hs.elapse d, List.suffix_refl _⟩
    | lose tx => cases hm; exact ⟨fun _ hs => hs.rollback tx, List.suffix_refl _⟩
  serve w tr i c f r w' h hc hs := h.serve hc hs

theorem once_start (now : Timestamp) (supply : ℕ → Drawn) :
    Once s₀ (Sql.Server.start (S := identity) s₀ now supply) [] :=
  ⟨Sql.kept_start now supply, fun _ _ h => (by cases h), fun _ _ _ h => (by cases h),
    fun _ _ _ _ _ h => (by cases h)⟩

/-! ## What a rotation does to the tables -/

/-- A step of a rotation: the tables are as they were, or the rotation is committed. -/
def RotationStep (id : UUID) (w w' : Sql.Server identity Drawn) : Prop :=
  w'.db.current = w.db.current ∨ ∃ c, w'.db.history = c :: w.db.history ∧ Rotates id c ∧
    c.Turns w.db.current w'.db.current ∧
    ∀ userId, activeCount userId w'.db.current = activeCount userId w.db.current

variable {now : Timestamp} {supply : ℕ → Drawn} {xs : List (Input identityServer)}
  {p q : Pool identityServer}

/-- **All that a step of a rotation does to the tables.** -/
theorem rotation_step (hx : Async.Started clients (none, none) xs)
    (h : (Pool.init (Sql.Server.start (S := identity) s₀ now supply)).run? xs = some p) {i : ℕ}
    {f : Fault ApiError} {principal : AuthenticatedPrincipal}
    (hi : (Async.begun xs)[i]? = some (rotation crypto id principal))
    (hstep : p.step? (.turn i f) = some q) : RotationStep id p.state q.state := by
  have hplays : Async.Plays (rotating id) (none, none) (fun _ _ => True) (fun _ _ => True)
      (Async.begun xs) p := Async.run_plays h
  obtain ⟨q', hq', hkeeps⟩ := hplays.keeps i _ hi
    ((rotation_obeys id principal).mono (fun _ _ _ => trivial) fun _ _ _ => trivial)
  obtain ⟨honce, -⟩ := Pool.run_inv (M := identityServer) once_invariant hx (Pool.init_ok _)
    (once_start now supply) h
  rcases Pool.step_cases hstep with ⟨_, he, -⟩ | ⟨j, f', k, he, hj, rfl⟩ |
    ⟨j, f', c, k, r, w, he, hj, hs, rfl⟩ | ⟨_, _, he, -, -⟩
  · cases he
  · exact Or.inl rfl
  · cases he
    rw [hq'] at hj
    cases hj
    rcases honce.kept.commits hkeeps.1 hs with ⟨hsame, -⟩ | ⟨tx, began, ds, hds, hist, hturns⟩
    · exact Or.inl hsame
    · rcases hds with hdone | hidle
      · exact Or.inr ⟨_, hist, hdone, hturns, fun userId =>
          rotates_activeCount (c := .transaction tx began ds) hdone hturns userId⟩
      · obtain ⟨held, hruns⟩ := hturns
        exact Or.inl (runs_idle hidle hruns)
  · cases he

/-- **A rotation that succeeds** is noted. -/
theorem rotation_done (h : (Pool.init (Sql.Server.start (S := identity) s₀ now supply)).run? xs = some p)
    {i : ℕ} {principal : AuthenticatedPrincipal}
    (hi : (Async.begun xs)[i]? = some (rotation crypto id principal))
    (hdone : p.running[i]? = some (.done ())) :
    ∃ did, lastCommit p.trace i = some did ∧ Rotated id did := by
  have hplays : Async.Plays (rotating id) (none, none)
      (fun l _ => ∃ did, l.2 = some did ∧ Rotated id did) (fun _ _ => True) (Async.begun xs) p :=
    Async.run_plays h
  obtain ⟨q', hq', hkeeps⟩ := hplays.keeps i _ hi (rotation_obeys id principal)
  rw [hdone] at hq'
  cases hq'
  obtain ⟨did, hnote, hdid⟩ := hkeeps
  refine ⟨did, ?_, hdid⟩
  rw [← hnote]
  unfold lastCommit
  rw [Sql.noted_same]

/-! ## Inactive credentials admit nobody -/

/-- No credential is found for the hash. -/
def Withheld (d : Digest) : (c : Sql.Call identity) → IdentityApi.Reply c → Prop
  | .query (.selectAdminCredential _ d'), r => d' = d → ∀ row, r ≠ .ok (some row)
  | _, _ => True

/-- The hash of an inactive credential is looked up in vain. -/
theorem Retired.withheld (h : Retired id d s) (credentialType : String) :
    selectAdminCredential credentialType d s = none := by
  unfold selectAdminCredential
  rw [List.findSome?_eq_none_iff]
  intro c hc
  obtain ⟨r, hr, -, hd, hinactive⟩ := h
  split
  · rename_i hcond
    -- the hash is unique
    have hsame : c = r := Sql.Table.eq_of_clash hc hr (Or.inr (hcond.2.1.trans hd.symm))
    rw [hsame, hinactive] at hcond
    exact absurd hcond.2.2 (by simp)
  · rfl

theorem Retired.serve (hw : Sql.Sound (S := identity) s₀ w.db) (h : Retired id d w.db.current)
    {c : Sql.Call identity} {f : Fault ApiError} {r : IdentityApi.Reply c}
    (hs : identityServer.serve c f w = some (r, w')) :
    (Sql.Sound (S := identity) s₀ w'.db ∧ Retired id d w'.db.current) ∧ Withheld d c r := by
  have hgrows : Sql.Grows w w' := Sql.grows_serve hs
  refine ⟨⟨hgrows.sound s₀ hw, hgrows.keeps hw h fun _ _ _ hs hc => turns_retired hc hs⟩, ?_⟩
  cases c with
  | query q =>
    cases q with
    | selectAdminCredential credentialType d' =>
      rintro rfl row rfl
      obtain ⟨-, ha⟩ := Async.Machine.serve_ok hs
      obtain ⟨db, hq, -⟩ := Sql.effect_query ha
      obtain ⟨-, u, hu, -⟩ := Sql.Database.query_cases hq
      have heff : QueryEffect w.db.clock w.db.current u (.selectAdminCredential credentialType d')
          (some row) := query_effect hu
      obtain ⟨hrow, -⟩ := heff
      rw [h.withheld] at hrow
      cases hrow
    | _ => trivial
  | _ => trivial

theorem authenticateAdminToken_withheld (token : Text) :
    (authenticateAdminToken crypto token).Ensures ⟨fun _ => True, Withheld (crypto.hashApiToken token)⟩
      (fun a => a = none) fun _ => True := by
  unfold authenticateAdminToken
  split
  · rfl
  refine Sql.ensures_withConnection trivial trivial (fun _ _ _ => trivial) ?_
  refine Prog.ensures_bind (Prog.ensures_call trivial (fun row hrow => ?_) fun _ _ => trivial)
  cases row with
  | none => rfl
  | some row => exact absurd rfl (hrow rfl row)

/-- **The token of an inactive credential admits nobody later**, whatever others do meanwhile. -/
theorem authenticateAdminToken_retired {token : Text} {a : Option AuthenticatedPrincipal}
    (hw : Sql.Sound (S := identity) s₀ w.db) (h : Retired id (crypto.hashApiToken token) w.db.current)
    (hlater : Amid identityServer (Sql.Meanwhile ApiError fun _ => True)
      (authenticateAdminToken crypto token) w (.returned a) w') : a = none := by
  refine hlater.ensures
    (J := fun w : Sql.Server identity Drawn =>
      Sql.Sound (S := identity) s₀ w.db ∧ Retired id (crypto.hashApiToken token) w.db.current)
    (fun u v hu hr => ?_) (fun _ hu => hu) (fun c f u r v _ hu hs => hu.2.serve hu.1 hs) ⟨hw, h⟩
    (authenticateAdminToken_withheld token)
  exact hr.keeps hu.1 hu.2 fun _ _ _ _ hs hc => turns_retired hc hs

/-! ## The two together -/

/-- **Rotation is linear and final**, in any interleaving with any faults. No two commits of
the history rotate one credential, and no two rotations of one succeed; a step of a rotation
changes nothing, or commits it and leaves every user as many active credentials; and the token
of an inactive credential admits nobody from then on. -/
theorem rotations_linear_and_final (crypto : Crypto) (s₀ : Tables) (now : Timestamp)
    (supply : ℕ → Drawn) (xs : List (Input identityServer)) (p : Pool identityServer)
    (hx : ∀ q, Input.begin q ∈ xs → CredentialRequest crypto q)
    (h : (Pool.init (Sql.Server.start (S := identity) s₀ now supply)).run? xs = some p) :
    (p.state.db.history.Pairwise fun c c' => ∀ id, ¬ (Rotates id c ∧ Rotates id c')) ∧
    (∀ (i : ℕ) id principal, (Async.begun xs)[i]? = some (rotation crypto id principal) →
      p.running[i]? = some (.done ()) → ∃ c ∈ p.state.db.history, Rotates id c) ∧
    (∀ (i j : ℕ) id principal principal', (Async.begun xs)[i]? = some (rotation crypto id principal) →
      (Async.begun xs)[j]? = some (rotation crypto id principal') →
      p.running[i]? = some (.done ()) → p.running[j]? = some (.done ()) → i = j) ∧
    (∀ i f id principal q, (Async.begun xs)[i]? = some (rotation crypto id principal) →
      p.step? (.turn i f) = some q → RotationStep id p.state q.state) ∧
    ∀ r ∈ p.state.db.current.apiCredentials, r.active = false →
      ∀ token, crypto.hashApiToken token = r.tokenHash → ∀ a w,
        Amid identityServer (Sql.Meanwhile ApiError fun _ => True) (authenticateAdminToken crypto token)
          p.state (.returned a) w → a = none := by
  have hstarted : Async.Started clients (none, none) xs := fun q hq => (hx q hq).keeps
  obtain ⟨honce, -⟩ := Pool.run_inv (M := identityServer) once_invariant hstarted (Pool.init_ok _)
    (once_start now supply) h
  refine ⟨serial_rotations honce.kept.sound.serial, ?_, ?_, ?_, ?_⟩
  · intro i id principal hi hdone
    obtain ⟨did, hnote, hdid⟩ := rotation_done h hi hdone
    obtain ⟨tx, began, hmem⟩ := honce.committed i did hnote
    exact ⟨_, hmem, hdid⟩
  · intro i j id principal principal' hi hj hdone hdone'
    obtain ⟨did, hnote, hdid⟩ := rotation_done h hi hdone
    obtain ⟨did', hnote', hdid'⟩ := rotation_done h hj hdone'
    exact honce.alone i j did did' id hnote hnote' hdid hdid'
  · intro i f id principal q hi hstep
    exact rotation_step hstarted h hi hstep
  · intro r hr hinactive token htoken a w hlater
    exact authenticateAdminToken_retired honce.kept.sound ⟨r, hr, rfl, htoken.symm, hinactive⟩ hlater

/-! ### One credential, rotated by two -/

def oldToken : Text := List.replicate 32 (Python.ofChar 'a')

def newToken : Text := List.replicate 32 (Python.ofChar 'b')

/-- The digests of the two tokens; its other functions are not asked. -/
def rotationCrypto : Crypto where
  hashApiToken t := if t = oldToken then
      0x3ba3f5f43b92602683c19aee62a20342b084dd5971ddd33808d81a328879a547
    else if t = newToken then
      0xbdb339768bc5e4fecbe55a442056919b2b325907d49bcbf3bf8de13781996a83 else 0
  hashPassword _ _ := ""
  verifyPassword _ _ := false

/-- One active admin with one credential. -/
def contendedCredential : Tables := { oneSession with
  apiCredentials := .singleton ⟨⟨4⟩, ⟨1⟩, "admin_api_token",
    0x3ba3f5f43b92602683c19aee62a20342b084dd5971ddd33808d81a328879a547, none, true, 0, none,
    adminApiCredentialType_check⟩ }

/-- Two rotations of it. The one locks the row, and the other finds it inactive. -/
def contending : List (Input identityServer) :=
  [.begin (rotation rotationCrypto ⟨4⟩ environmentAdminPrincipal),
    .begin (rotation rotationCrypto ⟨4⟩ environmentAdminPrincipal)] ++
  List.replicate 5 (.turn 0 .works) ++ List.replicate 4 (.turn 1 .works) ++
  List.replicate 8 (.turn 0 .works) ++ List.replicate 3 (.turn 1 .works)

theorem contending_requests (q : Prog IdentityApi Unit) (hq : Input.begin q ∈ contending) :
    CredentialRequest rotationCrypto q := by
  have he : q = rotation rotationCrypto ⟨4⟩ environmentAdminPrincipal := by
    simpa [contending] using hq
  rw [he]
  exact .rotate _ _

/-- The one succeeds and the other is rejected; the old token admits nobody. -/
theorem rotations_linear_and_final_contending : ∃ p : Pool identityServer,
    (Pool.init (Sql.Server.start (S := identity) contendedCredential 0
      fun n => ⟨⟨10 + n⟩, newToken, [], 0⟩)).run? contending = some p ∧
    p.running[0]? = some (.done ()) ∧
    p.running[1]? = some (.fail (.http 409 "admin credential is inactive")) ∧
    ∀ a w, Amid identityServer (Sql.Meanwhile ApiError fun _ => True)
      (authenticateAdminToken rotationCrypto oldToken) p.state (.returned a) w → a = none := by
  have hrun : ∃ p : Pool identityServer,
      (Pool.init (Sql.Server.start (S := identity) contendedCredential 0
        fun n => ⟨⟨10 + n⟩, newToken, [], 0⟩)).run? contending = some p ∧
      p.running[0]? = some (.done ()) ∧
      p.running[1]? = some (.fail (.http 409 "admin credential is inactive")) ∧
      ∃ r ∈ p.state.db.current.apiCredentials, r.active = false ∧
        rotationCrypto.hashApiToken oldToken = r.tokenHash :=
    ⟨_, rfl, rfl, rfl, _, List.mem_cons_self, rfl, rfl⟩
  obtain ⟨p, hp, hone, hother, r, hr, hinactive, htoken⟩ := hrun
  refine ⟨p, hp, hone, hother, ?_⟩
  exact (rotations_linear_and_final rotationCrypto contendedCredential 0 _ _ p contending_requests hp).2.2.2.2
    r hr hinactive oldToken htoken

end CopyTrade
