import CopyTrade.Spec.IdentitySchema

/-!
# What the identity statements do

One case for each statement: the table it goes to, and what it makes of it and answers
where a result depends on that.

* `exec_effect`: the statements of transactions.
* `query_effect`: the statements by themselves.
* `exec_tables`, `query_tables`: the tables that neither changes.
* `runs_effect`, `runs_idle`: a row of statements, taken apart from its front.
-/

namespace CopyTrade

namespace Identity

open Sql (Component Table)

variable {now : Timestamp} {s t : Tables}

/-- What a statement of a transaction does. -/
def Effect (now : Timestamp) (s t : Tables) : (c : Stmt) → Ret c → Prop
  | .upsertActiveUser _ _ _, _ => ∃ u, t = { s with users := u }
  | .selectAdminRoleId _, _ => t = s
  | .insertUserRole _ _, _ => ∃ u, t = { s with userRoles := u }
  | .upsertPasswordCredential _ _ _, _ => ∃ u, t = { s with passwordCredentials := u }
  | .insertAdminCredential id userId tokenHash tokenPrefix, a =>
    a = newCredential id userId tokenHash tokenPrefix now ∧
      ∃ u, s.apiCredentials.insert? a = some u ∧ t = { s with apiCredentials := u }
  | .selectAdminCredentialByIdForUpdate id credentialType, a =>
    a = credentialById id credentialType s ∧ t = s
  | .deactivateAdminCredential id, a =>
    a = (s.apiCredentials.get id).map deactivate ∧
      ∃ u, s.apiCredentials.update? id deactivate = some u ∧ t = { s with apiCredentials := u }
  | .insertSession id userId sessionTokenHash csrfTokenHash expiresAt, _ =>
    ∃ u, s.userSessions.insert? (newSession id userId sessionTokenHash csrfTokenHash expiresAt) =
      some u ∧ t = { s with userSessions := u }
  | .updatePasswordLastUsed _, _ => ∃ u, t = { s with passwordCredentials := u }
  | .insertAuditLog id entry, _ =>
    ∃ u, s.auditLogs.insert? (entry.row id now) = some u ∧ t = { s with auditLogs := u }
  | .insertExchangeAccount id payload, a =>
    payload.Storable ∧ a = newExchangeAccount id now payload ∧
      ∃ u, s.exchangeAccounts.insert? a = some u ∧ t = { s with exchangeAccounts := u }
  | .userExists id, a => a = (s.users.get id).isSome ∧ t = s
  | .selectExchangeAccountByIdForUpdate id, a => a = s.exchangeAccounts.get id ∧ t = s
  | .updateExchangeAccount id payload, a =>
    a = (s.exchangeAccounts.get id).map (assignAccount now payload) ∧
      ∃ u, s.exchangeAccounts.update? id (assignAccount now payload) = some u ∧
        t = { s with exchangeAccounts := u }
  | .insertCopyRelationship id payload, a =>
    relationshipRow? id now payload = some a ∧
      ∃ u, s.copyRelationships.insert? a = some u ∧ t = { s with copyRelationships := u }
  | .selectCopyRelationshipByIdForUpdate id, a => a = s.copyRelationships.get id ∧ t = s
  | .updateCopyRelationship id payload, a =>
    a = (s.copyRelationships.get id).map (assign now payload) ∧
      ∃ u, s.copyRelationships.update? id (assign now payload) = some u ∧
        t = { s with copyRelationships := u }

/-- An update of a row that is not there changes nothing. -/
theorem update_of_none {Row Id Entry : Type} [DecidableEq Id] [DecidableEq Entry]
    [Sql.Constrained Row] [Sql.Keyed Row Id Entry] {t : Table Row} {i : Id} {f : Row → Row}
    (h : t.get i = none) : t.update? i f = some t := by
  refine Table.updateWhere_eq_some.2 ?_
  have hid : ∀ r ∈ t.rows, (if decide (Sql.Keyed.id r = i) then f r else r) = r := by
    intro r hr
    have hne : Sql.Keyed.id r ≠ i := Table.get_eq_none.1 h r hr
    simp [hne]
  exact (List.map_id'' (fun r => rfl) t.rows).symm.trans (List.map_congr_left fun r hr => (hid r hr).symm)

/-- **All that a statement of a transaction can do.** -/
theorem exec_effect {c : Stmt} {a : Ret c} (h : exec c now s = some (a, t)) : Effect now s t c a := by
  cases c with
  | upsertActiveUser id email displayName =>
    obtain ⟨email', -, h⟩ := Option.bind_eq_some_iff.1 h
    obtain ⟨displayName', -, h⟩ := Option.bind_eq_some_iff.1 h
    split at h
    · obtain ⟨u, -, rfl⟩ := Component.insert_eq_some (Component.answers_eq_some h).2
      exact ⟨u, rfl⟩
    · obtain ⟨user, -, h⟩ := Option.bind_eq_some_iff.1 h
      split at h
      · obtain ⟨u, -, rfl⟩ := Component.update_eq_some (Component.answers_eq_some h).2
        exact ⟨u, rfl⟩
      · cases h
        exact ⟨s.users, rfl⟩
  | selectAdminRoleId name => cases h; rfl
  | insertUserRole userId roleId =>
    cases hg : s.userRoles.get (userId, roleId) with
    | none =>
      simp only [exec, hg] at h
      obtain ⟨u, -, rfl⟩ := Component.insert_eq_some (Component.answers_eq_some h).2
      exact ⟨u, rfl⟩
    | some r =>
      simp only [exec, hg] at h
      cases h
      exact ⟨s.userRoles, rfl⟩
  | upsertPasswordCredential id userId passwordHash =>
    cases ho : s.passwordCredentials.owner userId with
    | none =>
      simp only [exec, ho] at h
      obtain ⟨u, -, rfl⟩ := Component.insert_eq_some (Component.answers_eq_some h).2
      exact ⟨u, rfl⟩
    | some pid =>
      simp only [exec, ho] at h
      obtain ⟨u, -, rfl⟩ := Component.update_eq_some (Component.answers_eq_some h).2
      exact ⟨u, rfl⟩
  | insertAdminCredential id userId tokenHash tokenPrefix =>
    obtain ⟨rfl, hu⟩ := Component.answers_eq_some h
    exact ⟨rfl, Component.insert_eq_some hu⟩
  | selectAdminCredentialByIdForUpdate id credentialType => cases h; exact ⟨rfl, rfl⟩
  | deactivateAdminCredential id =>
    cases hg : s.apiCredentials.get id with
    | none =>
      simp only [exec, hg] at h
      cases h
      exact ⟨by rw [hg]; rfl, s.apiCredentials, update_of_none hg, rfl⟩
    | some c =>
      simp only [exec, hg] at h
      obtain ⟨rfl, hu⟩ := Component.answers_eq_some h
      exact ⟨by rw [hg]; rfl, Component.update_eq_some hu⟩
  | insertSession id userId sessionTokenHash csrfTokenHash expiresAt =>
    exact Component.insert_eq_some (Component.answers_eq_some h).2
  | updatePasswordLastUsed id =>
    obtain ⟨u, -, rfl⟩ := Component.update_eq_some (Component.answers_eq_some h).2
    exact ⟨u, rfl⟩
  | insertAuditLog id entry => exact Component.insert_eq_some (Component.answers_eq_some h).2
  | insertExchangeAccount id payload =>
    simp only [exec] at h
    split at h
    case isFalse => cases h
    rename_i hstore
    obtain ⟨rfl, hu⟩ := Component.answers_eq_some h
    exact ⟨hstore, rfl, Component.insert_eq_some hu⟩
  | userExists id => cases h; exact ⟨rfl, rfl⟩
  | selectExchangeAccountByIdForUpdate id => cases h; exact ⟨rfl, rfl⟩
  | updateExchangeAccount id payload =>
    simp only [exec] at h
    split at h
    case isFalse => cases h
    cases hg : s.exchangeAccounts.get id with
    | none =>
      simp only [hg] at h
      cases h
      exact ⟨by rw [hg]; rfl, s.exchangeAccounts, update_of_none hg, rfl⟩
    | some r =>
      simp only [hg] at h
      obtain ⟨rfl, hu⟩ := Component.answers_eq_some h
      exact ⟨by rw [hg]; rfl, Component.update_eq_some hu⟩
  | insertCopyRelationship id payload =>
    obtain ⟨row, hrow, h⟩ := Option.bind_eq_some_iff.1 h
    obtain ⟨rfl, hu⟩ := Component.answers_eq_some h
    exact ⟨hrow, Component.insert_eq_some hu⟩
  | selectCopyRelationshipByIdForUpdate id => cases h; exact ⟨rfl, rfl⟩
  | updateCopyRelationship id payload =>
    cases hg : s.copyRelationships.get id with
    | none =>
      simp only [exec, hg] at h
      cases h
      exact ⟨by rw [hg]; rfl, s.copyRelationships, update_of_none hg, rfl⟩
    | some r =>
      simp only [exec, hg] at h
      obtain ⟨rfl, hu⟩ := Component.answers_eq_some h
      exact ⟨by rw [hg]; rfl, Component.update_eq_some hu⟩

/-- **The first of a row of statements**, where the locks keep its answer true. -/
theorem runs_effect {held : List Key} {c : Stmt} {a : Ret c} {ds : List (Sql.Did identity)}
    (hp : pinned c a = true) (h : Sql.Runs (S := identity) now held (⟨c, a⟩ :: ds) s t) :
    ∃ u, Effect now s u c a ∧ Sql.Runs (S := identity) now held ds u t := by
  obtain ⟨-, u, hu, hr⟩ := (Sql.Runs.of_pinned (S := identity) (d := ⟨c, a⟩) hp).1 h
  exact ⟨u, exec_effect hu, hr⟩

/-- A statement that changed nothing: it only locks, or no lock keeps its answer true. -/
def Idles : Sql.Did identity → Prop
  | ⟨.selectAdminCredentialByIdForUpdate _ _, _⟩ => True
  | ⟨.selectExchangeAccountByIdForUpdate _, _⟩ => True
  | ⟨.selectCopyRelationshipByIdForUpdate _, _⟩ => True
  | ⟨c, a⟩ => pinned c a = false

theorem exec_idle {x : Sql.Did identity} (hx : Idles x) (hp : pinned x.stmt x.answer = true)
    (h : exec x.stmt now s = some (x.answer, t)) : t = s := by
  obtain ⟨c, a⟩ := x
  have heff : Effect now s t c a := exec_effect h
  cases c with
  | selectAdminCredentialByIdForUpdate id credentialType => exact heff.2
  | selectExchangeAccountByIdForUpdate id => exact heff.2
  | selectCopyRelationshipByIdForUpdate id => exact heff.2
  | _ => exact absurd (hp.symm.trans hx) (by simp)

/-- **A row of statements that changed nothing.** -/
theorem runs_idle {held : List Key} {ds : List (Sql.Did identity)} (hds : ∀ x ∈ ds, Idles x) :
    ∀ {s : Tables}, Sql.Runs (S := identity) now held ds s t → t = s := by
  induction ds with
  | nil => intro s h; exact h
  | cons x ds ih =>
    intro s h
    have hrest := fun y hy => hds y (List.mem_cons_of_mem x hy)
    by_cases hp : pinned x.stmt x.answer = true
    · obtain ⟨-, u, hu, hr⟩ := (Sql.Runs.of_pinned (S := identity) hp).1 h
      rw [← exec_idle (hds x List.mem_cons_self) hp hu]
      exact ih hrest hr
    · exact ih hrest ((Sql.Runs.of_plain (S := identity) hp).1 h)

/-- What a statement by itself does. -/
def QueryEffect (now : Timestamp) (s t : Tables) : (q : Query) → Answer q → Prop
  | .selectAdminCredential credentialType tokenHash, a =>
    a = selectAdminCredential credentialType tokenHash s ∧ t = s
  | .updateCredentialLastUsed id, _ =>
    ∃ u, s.apiCredentials.update? id (touchCredential now) = some u ∧ t = { s with apiCredentials := u }
  | .selectSession sessionTokenHash, a => a = selectSession sessionTokenHash now s ∧ t = s
  | .updateSessionLastSeen id, _ =>
    ∃ u, s.userSessions.update? id (touchSession now) = some u ∧ t = { s with userSessions := u }
  | .revokeSession sessionTokenHash, _ =>
    (revocable? sessionTokenHash s = none ∧ t = s) ∨
      ∃ r u, revocable? sessionTokenHash s = some r ∧
        s.userSessions.update? r.id (revoke now) = some u ∧ t = { s with userSessions := u }
  | .selectPasswordLogin _, _ => t = s
  | .insertAuditLog id entry, _ =>
    ∃ u, s.auditLogs.insert? (entry.row id now) = some u ∧ t = { s with auditLogs := u }
  | .selectAdminCredentials credentialType active limit offset, a =>
    a = selectAdminCredentials credentialType active limit offset s ∧ t = s
  | .selectExchangeAccounts userId status limit offset, a =>
    a = selectExchangeAccounts userId status limit offset s ∧ t = s

/-- **All that a statement by itself can do.** -/
theorem query_effect {q : Query} {a : Answer q} (h : query q now s = some (a, t)) :
    QueryEffect now s t q a := by
  cases q with
  | selectAdminCredential credentialType tokenHash => cases h; exact ⟨rfl, rfl⟩
  | selectSession sessionTokenHash => cases h; exact ⟨rfl, rfl⟩
  | selectPasswordLogin email =>
    obtain ⟨_, -, he⟩ := Option.map_eq_some_iff.1 h
    cases he
    rfl
  | updateCredentialLastUsed id =>
    exact Component.update_eq_some (Component.answers_eq_some h).2
  | updateSessionLastSeen id =>
    exact Component.update_eq_some (Component.answers_eq_some h).2
  | revokeSession sessionTokenHash =>
    cases hr : revocable? sessionTokenHash s with
    | none =>
      simp only [query, hr] at h
      cases h
      exact Or.inl ⟨hr, rfl⟩
    | some r =>
      simp only [query, hr] at h
      obtain ⟨u, hu, rfl⟩ := Component.update_eq_some (Component.answers_eq_some h).2
      exact Or.inr ⟨r, u, hr, hu, rfl⟩
  | insertAuditLog id entry =>
    exact Component.insert_eq_some (Component.answers_eq_some h).2
  | selectAdminCredentials credentialType active limit offset => cases h; exact ⟨rfl, rfl⟩
  | selectExchangeAccounts userId status limit offset => cases h; exact ⟨rfl, rfl⟩

/-! ## The other tables -/

/-- The tables of the sessions, of the credentials and of the audit log stay, apart from those
that a statement is about. -/
structure TablesKept (onSessions onCredentials onAudit : Prop) (s t : Tables) : Prop where
  userSessions : ¬ onSessions → t.userSessions = s.userSessions
  apiCredentials : ¬ onCredentials → t.apiCredentials = s.apiCredentials
  auditLogs : ¬ onAudit → t.auditLogs = s.auditLogs

theorem TablesKept.same {p q r : Prop} (hs : t.userSessions = s.userSessions)
    (hc : t.apiCredentials = s.apiCredentials) (ha : t.auditLogs = s.auditLogs) :
    TablesKept p q r s t :=
  ⟨fun _ => hs, fun _ => hc, fun _ => ha⟩

def Stmt.OnSessions : Stmt → Prop
  | .insertSession _ _ _ _ _ => True
  | _ => False

def Stmt.OnCredentials : Stmt → Prop
  | .insertAdminCredential _ _ _ _ => True
  | .deactivateAdminCredential _ => True
  | _ => False

def Stmt.OnAudit : Stmt → Prop
  | .insertAuditLog _ _ => True
  | _ => False

theorem exec_tables {c : Stmt} {a : Ret c} (h : exec c now s = some (a, t)) :
    TablesKept c.OnSessions c.OnCredentials c.OnAudit s t := by
  have heff := exec_effect h
  cases c with
  | insertSession id userId sessionTokenHash csrfTokenHash expiresAt =>
    obtain ⟨u, -, rfl⟩ := heff
    exact ⟨fun hn => (hn trivial).elim, fun _ => rfl, fun _ => rfl⟩
  | insertAdminCredential id userId tokenHash tokenPrefix =>
    obtain ⟨-, u, -, rfl⟩ := heff
    exact ⟨fun _ => rfl, fun hn => (hn trivial).elim, fun _ => rfl⟩
  | deactivateAdminCredential id =>
    obtain ⟨-, u, -, rfl⟩ := heff
    exact ⟨fun _ => rfl, fun hn => (hn trivial).elim, fun _ => rfl⟩
  | insertAuditLog id entry =>
    obtain ⟨u, -, rfl⟩ := heff
    exact ⟨fun _ => rfl, fun _ => rfl, fun hn => (hn trivial).elim⟩
  | upsertActiveUser id email displayName => obtain ⟨u, rfl⟩ := heff; exact .same rfl rfl rfl
  | selectAdminRoleId name => cases heff; exact .same rfl rfl rfl
  | insertUserRole userId roleId => obtain ⟨u, rfl⟩ := heff; exact .same rfl rfl rfl
  | upsertPasswordCredential id userId passwordHash =>
    obtain ⟨u, rfl⟩ := heff; exact .same rfl rfl rfl
  | selectAdminCredentialByIdForUpdate id credentialType =>
    obtain ⟨-, rfl⟩ := heff; exact .same rfl rfl rfl
  | updatePasswordLastUsed id => obtain ⟨u, rfl⟩ := heff; exact .same rfl rfl rfl
  | insertExchangeAccount id payload => obtain ⟨-, -, u, -, rfl⟩ := heff; exact .same rfl rfl rfl
  | userExists id => obtain ⟨-, rfl⟩ := heff; exact .same rfl rfl rfl
  | selectExchangeAccountByIdForUpdate id => obtain ⟨-, rfl⟩ := heff; exact .same rfl rfl rfl
  | updateExchangeAccount id payload => obtain ⟨-, u, -, rfl⟩ := heff; exact .same rfl rfl rfl
  | insertCopyRelationship id payload => obtain ⟨-, u, -, rfl⟩ := heff; exact .same rfl rfl rfl
  | selectCopyRelationshipByIdForUpdate id => obtain ⟨-, rfl⟩ := heff; exact .same rfl rfl rfl
  | updateCopyRelationship id payload => obtain ⟨-, u, -, rfl⟩ := heff; exact .same rfl rfl rfl

def Query.OnSessions : Query → Prop
  | .updateSessionLastSeen _ => True
  | .revokeSession _ => True
  | _ => False

def Query.OnCredentials : Query → Prop
  | .updateCredentialLastUsed _ => True
  | _ => False

def Query.OnAudit : Query → Prop
  | .insertAuditLog _ _ => True
  | _ => False

theorem query_tables {q : Query} {a : Answer q} (h : query q now s = some (a, t)) :
    TablesKept q.OnSessions q.OnCredentials q.OnAudit s t := by
  have heff := query_effect h
  cases q with
  | updateCredentialLastUsed id =>
    obtain ⟨u, -, rfl⟩ := heff
    exact ⟨fun _ => rfl, fun hn => (hn trivial).elim, fun _ => rfl⟩
  | updateSessionLastSeen id =>
    obtain ⟨u, -, rfl⟩ := heff
    exact ⟨fun hn => (hn trivial).elim, fun _ => rfl, fun _ => rfl⟩
  | revokeSession sessionTokenHash =>
    obtain ⟨-, rfl⟩ | ⟨r, u, -, -, rfl⟩ := heff
    · exact .same rfl rfl rfl
    · exact ⟨fun hn => (hn trivial).elim, fun _ => rfl, fun _ => rfl⟩
  | insertAuditLog id entry =>
    obtain ⟨u, -, rfl⟩ := heff
    exact ⟨fun _ => rfl, fun _ => rfl, fun hn => (hn trivial).elim⟩
  | selectAdminCredential credentialType tokenHash =>
    obtain ⟨-, rfl⟩ := heff; exact .same rfl rfl rfl
  | selectSession sessionTokenHash => obtain ⟨-, rfl⟩ := heff; exact .same rfl rfl rfl
  | selectPasswordLogin email => cases heff; exact .same rfl rfl rfl
  | selectAdminCredentials credentialType active limit offset =>
    obtain ⟨-, rfl⟩ := heff; exact .same rfl rfl rfl
  | selectExchangeAccounts userId status limit offset =>
    obtain ⟨-, rfl⟩ := heff; exact .same rfl rfl rfl

end Identity

end CopyTrade
