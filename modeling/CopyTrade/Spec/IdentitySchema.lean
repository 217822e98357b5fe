import CopyTrade.Spec.Identity
import CopyTrade.Sql.Transactions

/-!
# The identity tables under locks

Every statement of the identity repositories is one insert or the update of one row, under
locks that say where it goes, or it changes nothing.

* `exec_frame`, `query_frame`: a statement changes nothing outside its locks.
* `exec_under`: what it answers and makes under them depends on nothing else.
* `identity`: the tables as a schema of transactions.
-/

namespace CopyTrade

open Sql (Table Component)

namespace Identity

theorem keepsId_touchCredential (now : Timestamp) : Table.KeepsId (touchCredential now) := fun _ => rfl

theorem keepsId_touchSession (now : Timestamp) : Table.KeepsId (touchSession now) := fun _ => rfl

theorem keepsId_touchPassword (now : Timestamp) : Table.KeepsId (touchPassword now) := fun _ => rfl

theorem keepsId_revoke (now : Timestamp) : Table.KeepsId (revoke now) := fun _ => rfl

theorem keepsId_rename (displayName : Option String) : Table.KeepsId (rename displayName) := fun _ => rfl

theorem keepsId_setPassword (passwordHash : String) : Table.KeepsId (setPassword passwordHash) :=
  fun _ => rfl

theorem keepsId_deactivate : Table.KeepsId deactivate := fun _ => rfl

theorem keepsId_assignAccount (now : Timestamp) (payload : ExchangeAccountUpdate) :
    Table.KeepsId (assignAccount now payload) := fun _ => rfl

theorem keepsId_assign (now : Timestamp) (payload : CopyRelationshipUpdate) :
    Table.KeepsId (assign now payload) := fun _ => rfl

/-- The time of an insert is in two columns of the row, and under no lock. -/
theorem relationshipRow_time {id : UUID} {now : Timestamp} {payload : CopyRelationshipCreate}
    {row : CopyRelationshipRow} (h : relationshipRow? id now payload = some row) :
    ∃ row₀, relationshipRow? id 0 payload = some row₀ ∧
      row = { row₀ with createdAt := now, updatedAt := now } := by
  unfold relationshipRow? at h ⊢
  obtain ⟨sourceAccountId, ha, h⟩ := Option.bind_eq_some_iff.1 h
  obtain ⟨sourceSymbol, hs, h⟩ := Option.bind_eq_some_iff.1 h
  obtain ⟨followerAccountId, hf, h⟩ := Option.bind_eq_some_iff.1 h
  obtain ⟨targetSymbol, ht, h⟩ := Option.bind_eq_some_iff.1 h
  cases h
  simp only [ha, hs, hf, ht]
  exact ⟨_, rfl, rfl⟩

theorem locks_insertCopyRelationship {id : UUID} {now : Timestamp} {payload : CopyRelationshipCreate}
    {row : CopyRelationshipRow} (h : relationshipRow? id now payload = some row) (s : Tables) :
    locks (.insertCopyRelationship id payload) s = copyRelationships.insertLocks row := by
  obtain ⟨row₀, h₀, rfl⟩ := relationshipRow_time h
  rw [locks, h₀]
  rfl

/-- An update moves the same entries at any time. -/
theorem updateLocks_assign (id : UUID) (now : Timestamp) (payload : CopyRelationshipUpdate)
    (s : Tables) : copyRelationships.updateLocks id (assign now payload) s =
      copyRelationships.updateLocks id (assign 0 payload) s := by
  unfold Component.updateLocks Table.updateLocks
  cases (copyRelationships.table s).get id <;> rfl

theorem query_frame {q : Query} {now : Timestamp} {s t : Tables} {a : Answer q} {k : Key}
    (h : query q now s = some (a, t)) (hk : k ∉ queryLocks q s) : cell t k = cell s k := by
  cases q with
  | selectAdminCredential credentialType tokenHash => cases h; rfl
  | selectSession sessionTokenHash => cases h; rfl
  | selectPasswordLogin email =>
    obtain ⟨_, -, he⟩ := Option.map_eq_some_iff.1 h
    cases he; rfl
  | updateCredentialLastUsed id =>
    exact Component.update_frame_row (Component.answers_eq_some h).2 (keepsId_touchCredential now) (fun _ => rfl)
      fun he => hk (List.mem_singleton.2 he)
  | updateSessionLastSeen id =>
    exact Component.update_frame_row (Component.answers_eq_some h).2 (keepsId_touchSession now) (fun _ => rfl)
      fun he => hk (List.mem_singleton.2 he)
  | revokeSession sessionTokenHash =>
    cases hr : revocable? sessionTokenHash s with
    | none => simp only [query, hr] at h; cases h; rfl
    | some r =>
      simp only [query, hr] at h
      rw [queryLocks, hr] at hk
      exact Component.update_frame_row (Component.answers_eq_some h).2 (keepsId_revoke now) (fun _ => rfl)
        fun he => hk (List.mem_singleton.2 he)
  | insertAuditLog id entry =>
    exact Component.insert_frame (Component.answers_eq_some h).2 hk
  | selectAdminCredentials credentialType active limit offset => cases h; rfl
  | selectExchangeAccounts userId status limit offset => cases h; rfl

/-- What a statement does in a state: nothing, an insert, or the update of a row. -/
theorem exec_frame {c : Stmt} {now : Timestamp} {s t : Tables} {a : Ret c} {k : Key}
    (h : exec c now s = some (a, t)) (hk : k ∉ locks c s) : cell t k = cell s k := by
  cases c with
  | upsertActiveUser id email displayName =>
    obtain ⟨email', hemail, h⟩ := Option.bind_eq_some_iff.1 h
    cases Sql.text_eq_some hemail
    obtain ⟨displayName', -, h⟩ := Option.bind_eq_some_iff.1 h
    cases ho : s.users.owner email with
    | none =>
      simp only [ho] at h
      rw [locks, ho] at hk
      exact Component.insert_frame (Component.answers_eq_some h).2 hk
    | some userId =>
      simp only [ho] at h
      obtain ⟨user, -, h⟩ := Option.bind_eq_some_iff.1 h
      rw [locks, ho] at hk
      split at h
      · exact Component.update_frame_row (Component.answers_eq_some h).2 (keepsId_rename displayName') (fun _ => rfl)
          fun he => hk (by rw [he]; exact List.mem_cons_self)
      · cases h; rfl
  | selectAdminRoleId name => cases h; rfl
  | insertUserRole userId roleId =>
    cases hg : s.userRoles.get (userId, roleId) with
    | none =>
      simp only [exec, hg] at h
      rw [locks, hg] at hk
      exact Component.insert_frame (Component.answers_eq_some h).2 hk
    | some r => simp only [exec, hg] at h; cases h; rfl
  | upsertPasswordCredential id userId passwordHash =>
    cases ho : s.passwordCredentials.owner userId with
    | none =>
      simp only [exec, ho] at h
      rw [locks, ho] at hk
      exact Component.insert_frame (Component.answers_eq_some h).2 hk
    | some pid =>
      simp only [exec, ho] at h
      rw [locks, ho] at hk
      exact Component.update_frame_row (Component.answers_eq_some h).2 (keepsId_setPassword passwordHash) (fun _ => rfl)
        fun he => hk (by rw [he]; exact List.mem_cons_self)
  | insertAdminCredential id userId tokenHash tokenPrefix =>
    exact Component.insert_frame (Component.answers_eq_some h).2 hk
  | selectAdminCredentialByIdForUpdate id credentialType => cases h; rfl
  | deactivateAdminCredential id =>
    cases hg : s.apiCredentials.get id with
    | none => simp only [exec, hg] at h; cases h; rfl
    | some r =>
      simp only [exec, hg] at h
      rw [locks, hg] at hk
      exact Component.update_frame_row (Component.answers_eq_some h).2 keepsId_deactivate (fun _ => rfl)
        fun he => hk (List.mem_singleton.2 he)
  | insertSession id userId sessionTokenHash csrfTokenHash expiresAt =>
    exact Component.insert_frame (Component.answers_eq_some h).2 hk
  | updatePasswordLastUsed id =>
    exact Component.update_frame_row (Component.answers_eq_some h).2 (keepsId_touchPassword now) (fun _ => rfl)
      fun he => hk (List.mem_singleton.2 he)
  | insertAuditLog id entry =>
    exact Component.insert_frame (Component.answers_eq_some h).2 hk
  | insertExchangeAccount id payload =>
    simp only [exec] at h
    split at h
    · exact Component.insert_frame (Component.answers_eq_some h).2 hk
    · cases h
  | userExists id => cases h; rfl
  | selectExchangeAccountByIdForUpdate id => cases h; rfl
  | updateExchangeAccount id payload =>
    simp only [exec] at h
    split at h
    case isFalse => cases h
    cases hg : s.exchangeAccounts.get id with
    | none => simp only [hg] at h; cases h; rfl
    | some r =>
      simp only [hg] at h
      rw [locks, hg] at hk
      exact Component.update_frame_row (Component.answers_eq_some h).2 (keepsId_assignAccount now payload) (fun _ => rfl)
        fun he => hk (List.mem_singleton.2 he)
  | insertCopyRelationship id payload =>
    obtain ⟨row, hrow, h⟩ := Option.bind_eq_some_iff.1 h
    rw [locks_insertCopyRelationship hrow] at hk
    exact Component.insert_frame (Component.answers_eq_some h).2 hk
  | selectCopyRelationshipByIdForUpdate id => cases h; rfl
  | updateCopyRelationship id payload =>
    cases hg : s.copyRelationships.get id with
    | none => simp only [exec, hg] at h; cases h; rfl
    | some r =>
      simp only [exec, hg] at h
      rw [locks, hg] at hk
      refine Component.update_frame (Component.answers_eq_some h).2 (keepsId_assign now payload) ?_
      rw [updateLocks_assign]
      exact hk

theorem exec_plain {c : Stmt} {now : Timestamp} {s t : Tables} {a : Ret c}
    (h : exec c now s = some (a, t)) (ha : pinned c a = false) : t = s := by
  cases c with
  | selectAdminRoleId name => cases h; rfl
  | insertUserRole userId roleId =>
    cases hg : s.userRoles.get (userId, roleId) with
    | none =>
      simp only [exec, hg] at h
      obtain ⟨rfl, -⟩ := Component.answers_eq_some h
      cases ha
    | some r => simp only [exec, hg] at h; cases h; rfl
  | selectAdminCredentialByIdForUpdate id credentialType => cases h; rfl
  | deactivateAdminCredential id =>
    cases hg : s.apiCredentials.get id with
    | none => simp only [exec, hg] at h; cases h; rfl
    | some r =>
      simp only [exec, hg] at h
      obtain ⟨rfl, -⟩ := Component.answers_eq_some h
      cases ha
  | upsertActiveUser id email displayName => cases ha
  | upsertPasswordCredential id userId passwordHash => cases ha
  | insertAdminCredential id userId tokenHash tokenPrefix => cases ha
  | insertSession id userId sessionTokenHash csrfTokenHash expiresAt => cases ha
  | updatePasswordLastUsed id => cases ha
  | insertAuditLog id entry => cases ha
  | insertExchangeAccount id payload => cases ha
  | insertCopyRelationship id payload => cases ha
  | userExists id => cases h; rfl
  | selectExchangeAccountByIdForUpdate id => cases h; rfl
  | selectCopyRelationshipByIdForUpdate id => cases h; rfl
  | updateExchangeAccount id payload =>
    simp only [exec] at h
    split at h
    case isFalse => cases h
    cases hg : s.exchangeAccounts.get id with
    | none => simp only [hg] at h; cases h; rfl
    | some r =>
      simp only [hg] at h
      obtain ⟨rfl, -⟩ := Component.answers_eq_some h
      cases ha
  | updateCopyRelationship id payload =>
    cases hg : s.copyRelationships.get id with
    | none => simp only [exec, hg] at h; cases h; rfl
    | some r =>
      simp only [exec, hg] at h
      obtain ⟨rfl, -⟩ := Component.answers_eq_some h
      cases ha

/-- A statement whose effect is one insert under locks that say where it goes. -/
theorem under_insert {Row Id Entry : Type} [DecidableEq Id] [DecidableEq Entry]
    [Sql.Constrained Row] [Sql.Keyed Row Id Entry] {C : Component Row cell} {c : Stmt} {r : Row}
    {now : Timestamp} {s t u : Tables} {a : Ret c}
    (hs : ∀ v : Tables, locks c v = locks c s → (∀ k ∈ locks c s, cell v k = cell s k) →
      exec c now v = (C.insert? r v).map fun v' => (a, v'))
    (h : exec c now s = some (a, t)) (hL : ∀ k ∈ C.insertLocks r, k ∈ locks c s)
    (hlocks : locks c u = locks c s) (hu : ∀ k ∈ locks c s, cell u k = cell s k) :
    locks c u = locks c s ∧
      ∃ t', exec c now u = some (a, t') ∧ ∀ k ∈ locks c s, cell t' k = cell t k := by
  rw [hs s rfl fun _ _ => rfl] at h
  obtain ⟨u', hu', hcell⟩ := Component.insert_under_of (Component.answers_eq_some h).2 hL hu
  exact ⟨hlocks, u', by rw [hs u hlocks hu, hu']; rfl, hcell⟩

/-- A statement whose effect is one update of a row under locks that say which. -/
theorem under_update {Row Id Entry : Type} [DecidableEq Id] [DecidableEq Entry]
    [Sql.Constrained Row] [Sql.Keyed Row Id Entry] {C : Component Row cell} {c : Stmt} {i : Id}
    {f : Row → Row} {now : Timestamp} {s t u : Tables} {a : Ret c}
    (hf : Table.KeepsId f) (he : ∀ r : Row, Sql.Keyed.entries (f r) = Sql.Keyed.entries r)
    (hs : ∀ v : Tables, locks c v = locks c s → (∀ k ∈ locks c s, cell v k = cell s k) →
      exec c now v = (C.update? i f v).map fun v' => (a, v'))
    (h : exec c now s = some (a, t)) (hL : C.key (.row i) ∈ locks c s)
    (hlocks : locks c u = locks c s) (hu : ∀ k ∈ locks c s, cell u k = cell s k) :
    locks c u = locks c s ∧
      ∃ t', exec c now u = some (a, t') ∧ ∀ k ∈ locks c s, cell t' k = cell t k := by
  rw [hs s rfl fun _ _ => rfl] at h
  obtain ⟨u', hu', hcell⟩ := Component.update_under_of (Component.answers_eq_some h).2 hf he hL hu
  exact ⟨hlocks, u', by rw [hs u hlocks hu, hu']; rfl, hcell⟩

/-- The owner of the email says which row is locked: that of a new user, or the one renamed. -/
theorem upsertActiveUser_under {id : UUID} {email : String} {displayName : Option String}
    {now : Timestamp} {s t u : Tables} {a : Option UserRow}
    (h : exec (.upsertActiveUser id email displayName) now s = some (a, t))
    (hu : ∀ k ∈ locks (.upsertActiveUser id email displayName) s, cell u k = cell s k) :
    locks (.upsertActiveUser id email displayName) u = locks (.upsertActiveUser id email displayName) s ∧
      ∃ t', exec (.upsertActiveUser id email displayName) now u = some (a, t') ∧
        ∀ k ∈ locks (.upsertActiveUser id email displayName) s, cell t' k = cell t k := by
  obtain ⟨email', hemail, h'⟩ := Option.bind_eq_some_iff.1 h
  cases Sql.text_eq_some hemail
  obtain ⟨displayName', hname, h'⟩ := Option.bind_eq_some_iff.1 h'
  cases ho : s.users.owner email with
  | none =>
    have hl : ∀ {v : Tables}, v.users.owner email = none →
        locks (.upsertActiveUser id email displayName) v =
          [.users (.row id), .users (.entry email)] := fun hv => by rw [locks, hv]
    have hunder : ∀ {v : Tables},
        (∀ k ∈ locks (.upsertActiveUser id email displayName) s, cell v k = cell s k) →
          v.users.owner email = none ∧ locks (.upsertActiveUser id email displayName) v =
            locks (.upsertActiveUser id email displayName) s := fun hv =>
      Component.owner_under (C := users) hl (List.mem_cons_of_mem _ List.mem_cons_self) ho hv
    simp only [ho] at h'
    obtain ⟨rfl, -⟩ := Component.answers_eq_some h'
    refine under_insert (C := users) (r := newUser id email displayName') (fun v _ hv => ?_) h
      (fun k hk => by rw [hl ho]; exact hk) (hunder hu).2 hu
    simp only [exec, hemail, hname, Option.bind_some, (hunder hv).1]
  | some userId =>
    have hl : ∀ {v : Tables}, v.users.owner email = some userId →
        locks (.upsertActiveUser id email displayName) v =
          [.users (.row userId), .users (.entry email)] := fun hv => by rw [locks, hv]
    have hunder : ∀ {v : Tables},
        (∀ k ∈ locks (.upsertActiveUser id email displayName) s, cell v k = cell s k) →
          v.users.owner email = some userId ∧ locks (.upsertActiveUser id email displayName) v =
            locks (.upsertActiveUser id email displayName) s := fun hv =>
      Component.owner_under (C := users) hl (List.mem_cons_of_mem _ List.mem_cons_self) ho hv
    have hrow : Key.users (.row userId) ∈ locks (.upsertActiveUser id email displayName) s := by
      rw [hl ho]
      exact List.mem_cons_self
    have hget : ∀ {v : Tables},
        (∀ k ∈ locks (.upsertActiveUser id email displayName) s, cell v k = cell s k) →
          v.users.get userId = s.users.get userId := fun hv =>
      Component.get_congr (C := users) (hv _ hrow)
    simp only [ho] at h'
    obtain ⟨user, huser, h'⟩ := Option.bind_eq_some_iff.1 h'
    by_cases hactive : user.status = "active"
    · rw [if_pos hactive] at h'
      obtain ⟨rfl, -⟩ := Component.answers_eq_some h'
      refine under_update (C := users) (keepsId_rename displayName') (fun _ => rfl)
        (fun v _ hv => ?_) h hrow (hunder hu).2 hu
      simp only [exec, hemail, hname, Option.bind_some, (hunder hv).1, (hget hv).trans huser,
        if_pos hactive]
    · -- a disabled user is locked and left as it is
      rw [if_neg hactive] at h'
      cases h'
      refine ⟨(hunder hu).2, u, ?_, hu⟩
      simp only [exec, hemail, hname, Option.bind_some, (hunder hu).1, (hget hu).trans huser,
        if_neg hactive]

theorem upsertPasswordCredential_under {id userId : UUID} {passwordHash : String}
    {now : Timestamp} {s t u : Tables}
    (h : exec (.upsertPasswordCredential id userId passwordHash) now s = some ((), t))
    (hu : ∀ k ∈ locks (.upsertPasswordCredential id userId passwordHash) s, cell u k = cell s k) :
    locks (.upsertPasswordCredential id userId passwordHash) u =
        locks (.upsertPasswordCredential id userId passwordHash) s ∧
      ∃ t', exec (.upsertPasswordCredential id userId passwordHash) now u = some ((), t') ∧
        ∀ k ∈ locks (.upsertPasswordCredential id userId passwordHash) s, cell t' k = cell t k := by
  cases ho : s.passwordCredentials.owner userId with
  | none =>
    have hl : ∀ {v : Tables}, v.passwordCredentials.owner userId = none →
        locks (.upsertPasswordCredential id userId passwordHash) v =
          [.passwordCredentials (.row id), .passwordCredentials (.entry userId)] :=
      fun hv => by rw [locks, hv]
    have hunder : ∀ {v : Tables},
        (∀ k ∈ locks (.upsertPasswordCredential id userId passwordHash) s, cell v k = cell s k) →
          v.passwordCredentials.owner userId = none ∧
            locks (.upsertPasswordCredential id userId passwordHash) v =
              locks (.upsertPasswordCredential id userId passwordHash) s := fun hv =>
      Component.owner_under (C := passwordCredentials) hl
        (List.mem_cons_of_mem _ List.mem_cons_self) ho hv
    refine under_insert (C := passwordCredentials) (r := ⟨id, userId, passwordHash, true, none⟩)
      (fun v _ hv => ?_) h (fun k hk => by rw [hl ho]; exact hk) (hunder hu).2 hu
    simp only [exec, (hunder hv).1]
  | some pid =>
    have hl : ∀ {v : Tables}, v.passwordCredentials.owner userId = some pid →
        locks (.upsertPasswordCredential id userId passwordHash) v =
          [.passwordCredentials (.row pid), .passwordCredentials (.entry userId)] :=
      fun hv => by rw [locks, hv]
    have hunder : ∀ {v : Tables},
        (∀ k ∈ locks (.upsertPasswordCredential id userId passwordHash) s, cell v k = cell s k) →
          v.passwordCredentials.owner userId = some pid ∧
            locks (.upsertPasswordCredential id userId passwordHash) v =
              locks (.upsertPasswordCredential id userId passwordHash) s := fun hv =>
      Component.owner_under (C := passwordCredentials) hl
        (List.mem_cons_of_mem _ List.mem_cons_self) ho hv
    refine under_update (C := passwordCredentials) (keepsId_setPassword passwordHash)
      (fun _ => rfl) (fun v _ hv => ?_) h (by rw [hl ho]; exact List.mem_cons_self)
      (hunder hu).2 hu
    simp only [exec, (hunder hv).1]

/-- A credential and its user are read under the locks of both rows. -/
theorem selectAdminCredentialById_under {id : UUID} {credentialType : String}
    {s u : Tables} {p : ApiCredentialRow × UserRow} (hb : credentialById id credentialType s = some p)
    (hu : ∀ k ∈ locks (.selectAdminCredentialByIdForUpdate id credentialType) s,
      cell u k = cell s k) : credentialById id credentialType u = some p := by
  obtain ⟨c, user⟩ := p
  obtain ⟨c', hc', hb'⟩ := Option.bind_eq_some_iff.1 hb
  split at hb'
  · rename_i htype
    obtain ⟨user', huser', he⟩ := Option.map_eq_some_iff.1 hb'
    cases he
    have hcid : c.id = id := (Table.get_eq_some.1 hc').2
    have huid : user.id = c.userId := (Table.get_eq_some.1 huser').2
    have hl : locks (.selectAdminCredentialByIdForUpdate id credentialType) s =
        [.apiCredentials (.row c.id), .users (.row user.id)] := by rw [locks, hb]
    rw [hl] at hu
    have hcell : u.apiCredentials.get c.id = s.apiCredentials.get c.id :=
      Component.get_congr (C := apiCredentials) (hu _ List.mem_cons_self)
    have hucell : u.users.get user.id = s.users.get user.id :=
      Component.get_congr (C := users) (hu _ (List.mem_cons_of_mem _ List.mem_cons_self))
    rw [hcid] at hcell
    rw [huid] at hucell
    rw [credentialById, hcell, hc', Option.bind_some, if_pos htype, hucell, huser']
    rfl
  · cases hb'

theorem exec_under {c : Stmt} {now : Timestamp} {s t u : Tables} {a : Ret c}
    (h : exec c now s = some (a, t)) (ha : pinned c a = true)
    (hu : ∀ k ∈ locks c s, cell u k = cell s k) :
    locks c u = locks c s ∧
      ∃ t', exec c now u = some (a, t') ∧ ∀ k ∈ locks c s, cell t' k = cell t k := by
  cases c with
  | upsertActiveUser id email displayName => exact upsertActiveUser_under h hu
  | selectAdminRoleId name => cases ha
  | insertUserRole userId roleId =>
    cases hg : s.userRoles.get (userId, roleId) with
    | some r => simp only [exec, hg] at h; cases h; cases ha
    | none =>
      have hl : ∀ {v : Tables}, v.userRoles.get (userId, roleId) = none →
          locks (.insertUserRole userId roleId) v = [.userRoles (.row (userId, roleId))] :=
        fun hv => by rw [locks, hv]
      have hat : a = true := ha
      subst hat
      have hunder : ∀ {v : Tables}, (∀ k ∈ locks (.insertUserRole userId roleId) s,
          cell v k = cell s k) → v.userRoles.get (userId, roleId) = none ∧
            locks (.insertUserRole userId roleId) v = locks (.insertUserRole userId roleId) s :=
        fun hv => Component.row_under (C := userRoles) hl (List.mem_singleton_self _) hg hv
      refine under_insert (C := userRoles) (r := ⟨userId, roleId⟩) (fun v _ hv => ?_) h
        (fun k hk => by rw [hl hg]; exact hk) (hunder hu).2 hu
      simp only [exec, (hunder hv).1]
  | upsertPasswordCredential id userId passwordHash => exact upsertPasswordCredential_under h hu
  | insertAdminCredential id userId tokenHash tokenPrefix =>
    obtain ⟨rfl, -⟩ := Component.answers_eq_some h
    exact under_insert (C := apiCredentials) (fun _ _ _ => rfl) h (fun _ hk => hk) rfl hu
  | selectAdminCredentialByIdForUpdate id credentialType =>
    cases h
    cases hb : credentialById id credentialType s with
    | none => rw [pinned, hb] at ha; cases ha
    | some p =>
      have hbu := selectAdminCredentialById_under hb hu
      exact ⟨by rw [locks, locks, hb, hbu], u, by rw [exec, hbu], hu⟩
  | deactivateAdminCredential id =>
    cases hg : s.apiCredentials.get id with
    | none => simp only [exec, hg] at h; cases h; cases ha
    | some c =>
      have hl : ∀ {v : Tables}, v.apiCredentials.get id = some c →
          locks (.deactivateAdminCredential id) v = [.apiCredentials (.row id)] :=
        fun hv => by rw [locks, hv]
      have hunder : ∀ {v : Tables}, (∀ k ∈ locks (.deactivateAdminCredential id) s,
          cell v k = cell s k) → v.apiCredentials.get id = some c ∧
            locks (.deactivateAdminCredential id) v = locks (.deactivateAdminCredential id) s :=
        fun hv => Component.row_under (C := apiCredentials) hl (List.mem_singleton_self _) hg hv
      have h' := h
      simp only [exec, hg] at h'
      obtain ⟨rfl, -⟩ := Component.answers_eq_some h'
      refine under_update (C := apiCredentials) keepsId_deactivate (fun _ => rfl)
        (fun v _ hv => ?_) h (by rw [hl hg]; exact List.mem_singleton_self _) (hunder hu).2 hu
      simp only [exec, (hunder hv).1]
  | insertSession id userId sessionTokenHash csrfTokenHash expiresAt =>
    exact under_insert (C := userSessions) (fun _ _ _ => rfl) h (fun _ hk => hk) rfl hu
  | updatePasswordLastUsed id =>
    exact under_update (C := passwordCredentials) (keepsId_touchPassword now) (fun _ => rfl)
      (fun _ _ _ => rfl) h (List.mem_singleton_self _) rfl hu
  | insertAuditLog id entry =>
    exact under_insert (C := auditLogs) (fun _ _ _ => rfl) h (fun _ hk => hk) rfl hu
  | insertExchangeAccount id payload =>
    have h' := h
    simp only [exec] at h'
    split at h'
    case isFalse => cases h'
    rename_i hstore
    obtain ⟨rfl, -⟩ := Component.answers_eq_some h'
    exact under_insert (C := exchangeAccounts) (r := newExchangeAccount id now payload)
      (fun _ _ _ => by simp only [exec, if_pos hstore]) h (fun _ hk => hk) rfl hu
  | userExists id => cases ha
  | selectExchangeAccountByIdForUpdate id =>
    cases h
    cases hg : s.exchangeAccounts.get id with
    | none => rw [pinned, hg] at ha; cases ha
    | some r =>
      have hl : ∀ {v : Tables}, v.exchangeAccounts.get id = some r →
          locks (.selectExchangeAccountByIdForUpdate id) v = [.exchangeAccounts (.row id)] :=
        fun hv => by rw [locks, hv]
      obtain ⟨hget, hlocks⟩ : u.exchangeAccounts.get id = some r ∧
          locks (.selectExchangeAccountByIdForUpdate id) u = locks (.selectExchangeAccountByIdForUpdate id) s :=
        Component.row_under (C := exchangeAccounts) hl (List.mem_singleton_self _) hg hu
      exact ⟨hlocks, u, by rw [exec, hget], hu⟩
  | updateExchangeAccount id payload =>
    have h' := h
    simp only [exec] at h'
    split at h'
    case isFalse => cases h'
    rename_i hstore
    cases hg : s.exchangeAccounts.get id with
    | none => simp only [hg] at h'; cases h'; cases ha
    | some r =>
      have hl : ∀ {v : Tables}, v.exchangeAccounts.get id = some r →
          locks (.updateExchangeAccount id payload) v = [.exchangeAccounts (.row id)] :=
        fun hv => by rw [locks, hv]
      have hunder : ∀ {v : Tables}, (∀ k ∈ locks (.updateExchangeAccount id payload) s,
          cell v k = cell s k) → v.exchangeAccounts.get id = some r ∧
            locks (.updateExchangeAccount id payload) v =
              locks (.updateExchangeAccount id payload) s :=
        fun hv => Component.row_under (C := exchangeAccounts) hl (List.mem_singleton_self _) hg hv
      simp only [hg] at h'
      obtain ⟨rfl, -⟩ := Component.answers_eq_some h'
      refine under_update (C := exchangeAccounts) (keepsId_assignAccount now payload) (fun _ => rfl)
        (fun v _ hv => ?_) h (by rw [hl hg]; exact List.mem_singleton_self _) (hunder hu).2 hu
      simp only [exec, if_pos hstore, (hunder hv).1]
  | insertCopyRelationship id payload =>
    obtain ⟨row, hrow, h'⟩ := Option.bind_eq_some_iff.1 h
    obtain ⟨rfl, -⟩ := Component.answers_eq_some h'
    exact under_insert (C := copyRelationships) (r := a)
      (fun _ _ _ => by simp only [exec, hrow, Option.bind_some]) h
      (fun k hk => by rw [locks_insertCopyRelationship hrow]; exact hk) rfl hu
  | selectCopyRelationshipByIdForUpdate id =>
    cases h
    cases hg : s.copyRelationships.get id with
    | none => rw [pinned, hg] at ha; cases ha
    | some r =>
      have hl : ∀ {v : Tables}, v.copyRelationships.get id = some r →
          locks (.selectCopyRelationshipByIdForUpdate id) v = [.copyRelationships (.row id)] :=
        fun hv => by rw [locks, hv]
      obtain ⟨hget, hlocks⟩ : u.copyRelationships.get id = some r ∧
          locks (.selectCopyRelationshipByIdForUpdate id) u = locks (.selectCopyRelationshipByIdForUpdate id) s :=
        Component.row_under (C := copyRelationships) hl (List.mem_singleton_self _) hg hu
      exact ⟨hlocks, u, by rw [exec, hget], hu⟩
  | updateCopyRelationship id payload =>
    cases hg : s.copyRelationships.get id with
    | none => simp only [exec, hg] at h; cases h; cases ha
    | some r =>
      have hl : ∀ {v : Tables}, v.copyRelationships.get id = some r →
          locks (.updateCopyRelationship id payload) v =
            copyRelationships.updateLocks id (assign now payload) v :=
        fun hv => by rw [updateLocks_assign, locks, hv]
      have hrow : Key.copyRelationships (.row id) ∈ locks (.updateCopyRelationship id payload) s := by
        rw [hl hg]
        exact List.mem_cons_self
      have hget : u.copyRelationships.get id = some r :=
        (Component.get_congr (C := copyRelationships) (hu _ hrow)).trans hg
      simp only [exec, hg] at h
      obtain ⟨rfl, hupdate⟩ := Component.answers_eq_some h
      rw [hl hg] at hu ⊢
      obtain ⟨hlocks, u', hu', hcell⟩ := Component.update_under hupdate (keepsId_assign now payload) hu
      exact ⟨(hl hget).trans hlocks, u', by simp only [exec, hget, hu', Option.map_some], hcell⟩

end Identity

open Identity in
/-- The tables as transactions see them. -/
abbrev identity : Sql.Schema where
  State := Tables
  Key := Key
  Cell := Cell
  cell := cell
  Stmt := Stmt
  Ret := Ret
  exec := exec
  locks := locks
  pinned := pinned
  Query := Query
  Answer := Answer
  query := query
  queryLocks := queryLocks
  frame := exec_frame
  plain := exec_plain
  under_locks := exec_under
  query_frame := query_frame

end CopyTrade
