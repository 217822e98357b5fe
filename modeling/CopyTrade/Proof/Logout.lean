import CopyTrade.Proof.Revocation

/-!
# Logouts and their audit entries

`revoke_session` sets `revoked_at` and inserts the audit entry in two statements, each of
which commits by itself.

* `SameLogouts`: what leaves the revoked sessions and the logout entries as they are. Of
  all statements only `REVOKE_SESSION_SQL` and the insert of a logout entry do not.
* `logging`: an execution inserts the entry of the session that it revoked, and once.
* `owing`: the executions that have revoked a session and not yet inserted its entry.
* `logouts_audited_iff`: in any interleaving, with any faults, **the revoked sessions are
  those with an entry, one each, exactly where no execution owes one**.
-/

namespace CopyTrade

open Async (Prog Protocol Fault Pool Input Entry)
open Identity
open Python (Text)
open Sql (Commit Did Runs)

/-- The session is revoked. -/
def Revoked (id : UUID) (s : Tables) : Prop :=
  ∃ r ∈ s.userSessions, r.id = id ∧ r.revokedAt ≠ none

/-- The entries of the session's logouts. -/
def logouts (id : UUID) (s : Tables) : List (AuditLogRow AuditState) :=
  s.auditLogs.rows.filter fun r => r.action = "auth.logout" ∧ r.entityId = some id

/-- **Every logout is audited once**: the revoked sessions are those with an `auth.logout`
entry, and each has one. -/
structure AuditedOnce (s : Tables) : Prop where
  revoked_iff : ∀ id, Revoked id s ↔ logouts id s ≠ []
  once : ∀ id, (logouts id s).length ≤ 1

/-! ## What each statement does -/

/-- The revoked sessions and the logout entries are the same. -/
structure SameLogouts (s t : Tables) : Prop where
  revoked : ∀ id, Revoked id t ↔ Revoked id s
  logouts : ∀ id, logouts id t = logouts id s

theorem SameLogouts.refl (s : Tables) : SameLogouts s s := ⟨fun _ => Iff.rfl, fun _ => rfl⟩

theorem SameLogouts.trans {s t u : Tables} (h : SameLogouts s t) (h' : SameLogouts t u) :
    SameLogouts s u :=
  ⟨fun id => (h'.revoked id).trans (h.revoked id), fun id => (h'.logouts id).trans (h.logouts id)⟩

/-- The statement inserts no logout entry. -/
def Unlogged : Stmt → Prop
  | .insertAuditLog _ entry => entry.action ≠ "auth.logout"
  | _ => True

variable {now : Timestamp} {s t : Tables} {id : UUID}

theorem sameLogouts_of_tables (hsessions : t.userSessions = s.userSessions)
    (hlogs : t.auditLogs = s.auditLogs) : SameLogouts s t := by
  refine ⟨fun id => ?_, fun id => ?_⟩
  · unfold Revoked
    rw [hsessions]
  · unfold logouts
    rw [hlogs]

/-- A session that is updated and not revoked. -/
theorem sameLogouts_update {sid : UUID} {f : UserSessionRow → UserSessionRow}
    {u : Sql.Table UserSessionRow} (h : s.userSessions.update? sid f = some u)
    (hid : ∀ r, (f r).id = r.id) (hrevoked : ∀ r, (f r).revokedAt = r.revokedAt) :
    SameLogouts s { s with userSessions := u } := by
  have hrow : ∀ r : UserSessionRow, (if Sql.Keyed.id r = sid then f r else r).id = r.id ∧
      (if Sql.Keyed.id r = sid then f r else r).revokedAt = r.revokedAt := by
    intro r
    split
    · exact ⟨hid r, hrevoked r⟩
    · exact ⟨rfl, rfl⟩
  refine ⟨fun id => ⟨?_, ?_⟩, fun id => rfl⟩
  · rintro ⟨r, hr, hrid, hrr⟩
    obtain ⟨a, ha, rfl⟩ := (Sql.Table.mem_update h).1 hr
    rw [(hrow a).1] at hrid
    rw [(hrow a).2] at hrr
    exact ⟨a, ha, hrid, hrr⟩
  · rintro ⟨r, hr, hrid, hrr⟩
    refine ⟨_, (Sql.Table.mem_update h).2 ⟨r, hr, rfl⟩, ?_, ?_⟩
    · rw [(hrow r).1]
      exact hrid
    · rw [(hrow r).2]
      exact hrr

/-- A session that is made is not revoked. -/
theorem sameLogouts_insert {r : UserSessionRow} {u : Sql.Table UserSessionRow}
    (h : s.userSessions.insert? r = some u) (hr : r.revokedAt = none) :
    SameLogouts s { s with userSessions := u } := by
  refine ⟨fun id => ⟨?_, ?_⟩, fun id => rfl⟩
  · rintro ⟨a, ha, haid, har⟩
    rcases (Sql.Table.mem_insert h).1 ha with ha | rfl
    · exact ⟨a, ha, haid, har⟩
    · exact absurd hr har
  · rintro ⟨a, ha, haid, har⟩
    exact ⟨a, (Sql.Table.mem_insert h).2 (Or.inl ha), haid, har⟩

/-- An entry among those of the session, where it is one. -/
theorem logouts_insert {entry : AuditEntry AuditState} {aid : UUID}
    {u : AuditLogs AuditState} (h : s.auditLogs.insert? (entry.row aid now) = some u) :
    logouts id { s with auditLogs := u } = logouts id s ++
      if entry.action = "auth.logout" ∧ entry.entityId = some id then [entry.row aid now] else [] := by
  unfold logouts
  rw [(Sql.Table.insert_eq_some.1 h).2, List.filter_append]
  congr 1
  split
  · rename_i hl
    exact List.filter_cons_of_pos (decide_eq_true hl)
  · rename_i hl
    exact List.filter_cons_of_neg fun h => hl (of_decide_eq_true h)

theorem sameLogouts_log {entry : AuditEntry AuditState} {aid : UUID} {u : AuditLogs AuditState}
    (h : s.auditLogs.insert? (entry.row aid now) = some u) (ha : entry.action ≠ "auth.logout") :
    SameLogouts s { s with auditLogs := u } := by
  refine ⟨fun id => Iff.rfl, fun id => ?_⟩
  have hnot : ¬ (entry.action = "auth.logout" ∧ entry.entityId = some id) := fun hl => ha hl.1
  rw [logouts_insert h, if_neg hnot, List.append_nil]

/-- **A statement of a transaction** revokes no session. -/
theorem exec_sameLogouts {c : Stmt} {a : Ret c} (h : exec c now s = some (a, t)) (hc : Unlogged c) :
    SameLogouts s t := by
  have heff := exec_effect h
  by_cases hs : c.OnSessions
  · cases c with
    | insertSession sid userId sessionTokenHash csrfTokenHash expiresAt =>
      obtain ⟨u, hu, rfl⟩ := heff
      exact sameLogouts_insert hu rfl
    | _ => exact hs.elim
  by_cases ha : c.OnAudit
  · cases c with
    | insertAuditLog aid entry =>
      obtain ⟨u, hu, rfl⟩ := heff
      exact sameLogouts_log hu hc
    | _ => exact ha.elim
  exact sameLogouts_of_tables ((exec_tables h).userSessions hs) ((exec_tables h).auditLogs ha)

/-- **A transaction** without logout entries. -/
theorem turns_sameLogouts {tx : ℕ} {began : Timestamp} {did : List (Did identity)}
    (hdid : ∀ d ∈ did, Unlogged d.stmt) (h : (Commit.transaction tx began did).Turns s t) :
    SameLogouts s t := by
  obtain ⟨held, h⟩ := h
  induction did generalizing s with
  | nil => cases h; exact SameLogouts.refl _
  | cons d did ih =>
    have hrest : ∀ d' ∈ did, Unlogged d'.stmt := fun d' hd' => hdid d' (List.mem_cons_of_mem _ hd')
    by_cases hp : identity.pinned d.stmt d.answer = true
    · obtain ⟨-, u, hu, hr⟩ := (Runs.of_pinned hp).1 h
      have hstep : SameLogouts s u := exec_sameLogouts hu (hdid d List.mem_cons_self)
      exact hstep.trans (ih hrest hr)
    · exact ih hrest ((Runs.of_plain hp).1 h)

/-- The statement by itself neither revokes a session nor inserts a logout entry. -/
def QueryUnlogged : Query → Prop
  | .revokeSession _ => False
  | .insertAuditLog _ entry => entry.action ≠ "auth.logout"
  | _ => True

theorem query_sameLogouts {q : Query} {a : Answer q} (h : query q now s = some (a, t))
    (hq : QueryUnlogged q) : SameLogouts s t := by
  have heff := query_effect h
  by_cases hs : q.OnSessions
  · cases q with
    | revokeSession d => exact hq.elim
    | updateSessionLastSeen sid =>
      obtain ⟨u, hu, rfl⟩ := heff
      exact sameLogouts_update hu (fun _ => rfl) fun _ => rfl
    | _ => exact hs.elim
  by_cases ha : q.OnAudit
  · cases q with
    | insertAuditLog aid entry =>
      obtain ⟨u, hu, rfl⟩ := heff
      exact sameLogouts_log hu hq
    | _ => exact ha.elim
  exact sameLogouts_of_tables ((query_tables h).userSessions hs) ((query_tables h).auditLogs ha)

/-- **`REVOKE_SESSION_SQL`** revokes the live session of the hash, which it names. -/
theorem query_revoke {d : Digest} {a : Option (UUID × UUID)}
    (h : query (.revokeSession d) now s = some (a, t)) :
    (revocable? d s = none ∧ a = none ∧ t = s) ∨ ∃ r, revocable? d s = some r ∧
      a = some (r.id, r.userId) ∧ ¬ Revoked r.id s ∧
      (∀ id, Revoked id t ↔ id = r.id ∨ Revoked id s) ∧ ∀ id, logouts id t = logouts id s := by
  cases hr : revocable? d s with
  | none =>
    simp only [query, hr] at h
    cases h
    exact Or.inl ⟨rfl, rfl, rfl⟩
  | some r =>
    simp only [query, hr] at h
    obtain ⟨rfl, hupdate⟩ := Sql.Component.answers_eq_some h
    obtain ⟨u, hu, rfl⟩ := Sql.Component.update_eq_some hupdate
    have hmem : r ∈ s.userSessions := List.mem_of_find?_eq_some hr
    have hlive : r.revokedAt = none := by
      have hfound := List.find?_some hr
      simp only [decide_eq_true_eq] at hfound
      exact hfound.2
    refine Or.inr ⟨r, rfl, rfl, ?_, fun id => ⟨?_, ?_⟩, fun id => rfl⟩
    · rintro ⟨b, hb, hbid, hbr⟩
      have hbr' : b = r := Sql.Table.eq_of_id hb hmem hbid
      rw [hbr'] at hbr
      exact hbr hlive
    · rintro ⟨b, hb, hbid, hbr⟩
      obtain ⟨c, hc, rfl⟩ := (Sql.Table.mem_update hu).1 hb
      by_cases hcid : Sql.Keyed.id c = r.id
      · rw [if_pos hcid] at hbid
        exact Or.inl (hbid.symm.trans hcid)
      · rw [if_neg hcid] at hbid hbr
        exact Or.inr ⟨c, hc, hbid, hbr⟩
    · have hself : revoke now r ∈ u := Sql.Table.mem_update_self hu (Sql.Table.get_eq_some.2 ⟨hmem, rfl⟩)
      rintro (rfl | ⟨b, hb, hbid, hbr⟩)
      · exact ⟨_, hself, rfl, Option.some_ne_none now⟩
      · by_cases hb' : b.id = r.id
        · exact ⟨_, hself, hb'.symm.trans hbid, Option.some_ne_none now⟩
        · exact ⟨b, (Sql.Table.mem_update_other hu (keepsId_revoke now) hb').2 hb, hbid, hbr⟩

/-- **The insert of a logout entry.** -/
theorem query_log {aid : UUID} {entry : AuditEntry AuditState} {a : Unit}
    (h : query (.insertAuditLog aid entry) now s = some (a, t)) {sid : UUID}
    (hentry : entry.action = "auth.logout") (hsid : entry.entityId = some sid) :
    (∀ id, Revoked id t ↔ Revoked id s) ∧ (logouts sid t).length = (logouts sid s).length + 1 ∧
      ∀ id, id ≠ sid → logouts id t = logouts id s := by
  obtain ⟨u, hu, rfl⟩ := query_effect h
  refine ⟨fun id => Iff.rfl, ?_, fun id hid => ?_⟩
  · rw [logouts_insert hu, if_pos ⟨hentry, hsid⟩, List.length_append, List.length_singleton]
  · have hnot : ¬ (entry.action = "auth.logout" ∧ entry.entityId = some id) := by
      rintro ⟨-, he⟩
      exact hid (Option.some.inj (he.symm.trans hsid))
    rw [logouts_insert hu, if_neg hnot, List.append_nil]

/-! ## Who owes an entry -/

/-- Where an execution stands with the session that it revokes. -/
inductive Stage where
  | fresh
  | owes (id : UUID)
  | ended

/-- Revoke once, and insert the entry of the session that you revoked. -/
def logging : Protocol IdentityApi Stage where
  allow l
    | .query (.revokeSession _) => l = .fresh
    | .query (.insertAuditLog _ entry) => entry.action = "auth.logout" →
        ∃ sid, l = .owes sid ∧ entry.entityId = some sid
    | _ => True
  next l
    | .query (.revokeSession _), .ok none => l
    | .query (.revokeSession _), .ok (some (id, _)) => .owes id
    | .query (.revokeSession _), .error _ => .ended
    | .query (.insertAuditLog _ entry), _ => if entry.action = "auth.logout" then .ended else l
    | _, _ => l

/-- **The debts after a call**: an execution whose `REVOKE_SESSION_SQL` takes effect on a
session owes its entry, until its own insert takes effect. -/
def debtsAfter (i : ℕ) (f : Fault ApiError) (s : Tables) (debts : List (ℕ × UUID)) :
    Sql.Call identity → List (ℕ × UUID)
  | .query (.revokeSession d) =>
    match revocable? d s with
    | some r => if f.Lands then (i, r.id) :: debts else debts
    | none => debts
  | .query (.insertAuditLog _ entry) =>
    if f.Lands ∧ entry.action = "auth.logout" then debts.filter fun o => o.1 ≠ i else debts
  | _ => debts

def owe (p : Pool identityServer) (x : Input identityServer) (debts : List (ℕ × UUID)) :
    List (ℕ × UUID) :=
  match x with
  | .turn i f =>
    match p.running[i]? with
    | some (.await c _) => debtsAfter i f p.state.db.current debts c
    | _ => debts
  | _ => debts

/-- The executions that owe an entry after a run, and of which session. -/
def owing (p : Pool identityServer) (xs : List (Input identityServer)) : List (ℕ × UUID) :=
  p.tally owe xs []

/-- The tables, the stages and the debts agree. -/
structure Owed (s : Tables) (stage : ℕ → Stage) (debts : List (ℕ × UUID)) : Prop where
  revoked : ∀ i sid, (i, sid) ∈ debts → Revoked sid s
  sole : ∀ i j sid, (i, sid) ∈ debts → (j, sid) ∈ debts → i = j
  single : ∀ i a b, (i, a) ∈ debts → (i, b) ∈ debts → a = b
  begun : ∀ i sid, (i, sid) ∈ debts → stage i ≠ .fresh
  owes : ∀ i sid, stage i = .owes sid → (i, sid) ∈ debts
  unlogged : ∀ sid, (¬ Revoked sid s ∨ ∃ i, (i, sid) ∈ debts) → logouts sid s = []
  logged : ∀ sid, Revoked sid s → (∀ i, (i, sid) ∉ debts) → (logouts sid s).length = 1

variable {stage stage' : ℕ → Stage} {debts : List (ℕ × UUID)}

/-- **Every logout is audited once exactly where no execution owes an entry.** -/
theorem Owed.audited_iff (h : Owed s stage debts) : AuditedOnce s ↔ debts = [] := by
  constructor
  · intro ha
    refine List.eq_nil_iff_forall_not_mem.2 fun o ho => ?_
    have hempty : logouts o.2 s = [] := h.unlogged o.2 (Or.inr ⟨o.1, ho⟩)
    exact (ha.revoked_iff o.2).1 (h.revoked o.1 o.2 ho) hempty
  · rintro rfl
    refine ⟨fun id => ⟨fun hr he => ?_, fun hne => ?_⟩, fun id => ?_⟩
    · have hone := h.logged id hr fun i => List.not_mem_nil
      rw [he] at hone
      cases hone
    · by_contra hr
      exact hne (h.unlogged id (Or.inl hr))
    · by_cases hr : Revoked id s
      · exact Nat.le_of_eq (h.logged id hr fun i => List.not_mem_nil)
      · rw [h.unlogged id (Or.inl hr)]
        exact Nat.zero_le 1

/-- Where every logout is audited and no execution has begun. -/
theorem AuditedOnce.owed (h : AuditedOnce s) : Owed s (fun _ => .fresh) [] := by
  refine ⟨fun i sid hm => ?_, fun i j sid hm => ?_, fun i a b hm => ?_, fun i sid hm => ?_,
    fun i sid he => ?_, fun sid hor => ?_, fun sid hr _ => ?_⟩
  · cases hm
  · cases hm
  · cases hm
  · cases hm
  · cases he
  · by_contra hne
    rcases hor with hr | ⟨i, hm⟩
    · exact hr ((h.revoked_iff sid).2 hne)
    · cases hm
  · have hne : logouts sid s ≠ [] := (h.revoked_iff sid).1 hr
    have hpos : 0 < (logouts sid s).length := List.length_pos_of_ne_nil hne
    have hone := h.once sid
    omega

theorem Owed.same (h : Owed s stage debts) (hs : SameLogouts s t) : Owed t stage debts := by
  refine ⟨fun i sid hm => (hs.revoked sid).2 (h.revoked i sid hm), h.sole, h.single, h.begun, h.owes,
    fun sid hor => ?_, fun sid hr hm => ?_⟩
  · rw [hs.logouts]
    exact h.unlogged sid (hor.imp_left fun hn hr => hn ((hs.revoked sid).2 hr))
  · rw [hs.logouts]
    exact h.logged sid ((hs.revoked sid).1 hr) hm

/-- An execution that goes no further owes what it owed. -/
theorem Owed.ended (h : Owed s stage debts) (hstage : ∀ j, stage' j = stage j ∨ stage' j = .ended) :
    Owed s stage' debts := by
  refine ⟨h.revoked, h.sole, h.single, fun i sid hm => ?_, fun i sid he => ?_, h.unlogged, h.logged⟩
  · rcases hstage i with hi | hi
    · rw [hi]; exact h.begun i sid hm
    · rw [hi]; exact Stage.noConfusion
  · rcases hstage i with hi | hi
    · exact h.owes i sid (hi.symm.trans he)
    · rw [hi] at he; cases he

/-- **A revocation that takes effect.** -/
theorem Owed.revoke (h : Owed s stage debts) {i : ℕ} (hi : stage i = .fresh)
    (hi' : stage' i = .owes id ∨ stage' i = .ended) (hj : ∀ j, j ≠ i → stage' j = stage j)
    (hnew : ¬ Revoked id s) (hrev : ∀ sid, Revoked sid t ↔ sid = id ∨ Revoked sid s)
    (hlog : ∀ sid, logouts sid t = logouts sid s) : Owed t stage' ((i, id) :: debts) := by
  -- a session that was not revoked is owed by nobody
  have hnone : ∀ j, (j, id) ∉ debts := fun j hm => hnew (h.revoked j id hm)
  have hidle : ∀ sid, (i, sid) ∉ debts := fun sid hm => h.begun i sid hm hi
  refine ⟨?_, ?_, ?_, ?_, ?_, ?_, ?_⟩
  · intro j sid hm
    rcases List.mem_cons.1 hm with he | hm
    · cases he
      exact (hrev id).2 (Or.inl rfl)
    · exact (hrev sid).2 (Or.inr (h.revoked j sid hm))
  · intro j k sid hm hm'
    rcases List.mem_cons.1 hm with he | hm
    · cases he
      rcases List.mem_cons.1 hm' with he | hm'
      · cases he; rfl
      · exact absurd hm' (hnone k)
    · rcases List.mem_cons.1 hm' with he | hm'
      · cases he; exact absurd hm (hnone j)
      · exact h.sole j k sid hm hm'
  · intro j a b hm hm'
    rcases List.mem_cons.1 hm with he | hm
    · cases he
      rcases List.mem_cons.1 hm' with he | hm'
      · cases he; rfl
      · exact absurd hm' (hidle b)
    · rcases List.mem_cons.1 hm' with he | hm'
      · cases he; exact absurd hm (hidle a)
      · exact h.single j a b hm hm'
  · intro j sid hm
    by_cases hji : j = i
    · rw [hji]
      rcases hi' with hi' | hi'
      · rw [hi']; exact Stage.noConfusion
      · rw [hi']; exact Stage.noConfusion
    · rw [hj j hji]
      rcases List.mem_cons.1 hm with he | hm
      · cases he; exact absurd rfl hji
      · exact h.begun j sid hm
  · intro j sid he
    by_cases hji : j = i
    · rw [hji] at he ⊢
      rcases hi' with hi' | hi'
      · rw [hi'] at he
        cases he
        exact List.mem_cons_self
      · rw [hi'] at he; cases he
    · rw [hj j hji] at he
      exact List.mem_cons_of_mem _ (h.owes j sid he)
  · -- the entry of the session is still to come
    intro sid hor
    rw [hlog]
    refine h.unlogged sid ?_
    rcases hor with hn | ⟨j, hm⟩
    · exact Or.inl fun hr => hn ((hrev sid).2 (Or.inr hr))
    · rcases List.mem_cons.1 hm with he | hm
      · cases he; exact Or.inl hnew
      · exact Or.inr ⟨j, hm⟩
  · intro sid hr hm
    rw [hlog]
    refine h.logged sid ?_ fun j hmj => hm j (List.mem_cons_of_mem _ hmj)
    rcases (hrev sid).1 hr with he | hr
    · exact absurd (by rw [he]; exact List.mem_cons_self) (hm i)
    · exact hr

/-- **A logout entry that is inserted.** -/
theorem Owed.log (h : Owed s stage debts) {i : ℕ} (hi : stage i = .owes id)
    (hi' : stage' i = .ended) (hj : ∀ j, j ≠ i → stage' j = stage j)
    (hrev : ∀ sid, Revoked sid t ↔ Revoked sid s)
    (hlog : (logouts id t).length = (logouts id s).length + 1)
    (hother : ∀ sid, sid ≠ id → logouts sid t = logouts sid s) :
    Owed t stage' (debts.filter fun o => o.1 ≠ i) := by
  have hm : (i, id) ∈ debts := h.owes i id hi
  have hleft : ∀ j sid, (j, sid) ∈ debts.filter (fun o => o.1 ≠ i) ↔ (j, sid) ∈ debts ∧ j ≠ i := by
    intro j sid
    simp [List.mem_filter]
  refine ⟨?_, ?_, ?_, ?_, ?_, ?_, ?_⟩
  · intro j sid hmj
    exact (hrev sid).2 (h.revoked j sid ((hleft j sid).1 hmj).1)
  · intro j k sid hmj hmk
    exact h.sole j k sid ((hleft j sid).1 hmj).1 ((hleft k sid).1 hmk).1
  · intro j a b hma hmb
    exact h.single j a b ((hleft j a).1 hma).1 ((hleft j b).1 hmb).1
  · intro j sid hmj
    obtain ⟨hmj, hji⟩ := (hleft j sid).1 hmj
    rw [hj j hji]
    exact h.begun j sid hmj
  · intro j sid he
    by_cases hji : j = i
    · rw [hji, hi'] at he; cases he
    · rw [hj j hji] at he
      exact (hleft j sid).2 ⟨h.owes j sid he, hji⟩
  · -- a session that is still owed is another one
    intro sid hor
    have hne : sid ≠ id := by
      rintro rfl
      rcases hor with hn | ⟨j, hmj⟩
      · exact hn ((hrev sid).2 (h.revoked i sid hm))
      · obtain ⟨hmj, hji⟩ := (hleft j sid).1 hmj
        exact hji (h.sole j i sid hmj hm)
    rw [hother sid hne]
    refine h.unlogged sid ?_
    rcases hor with hn | ⟨j, hmj⟩
    · exact Or.inl fun hr => hn ((hrev sid).2 hr)
    · exact Or.inr ⟨j, ((hleft j sid).1 hmj).1⟩
  · intro sid hr hnone
    by_cases hid : sid = id
    · rw [hid, hlog, h.unlogged id (Or.inr ⟨i, hm⟩)]
      rfl
    · rw [hother sid hid]
      refine h.logged sid ((hrev sid).1 hr) fun j hmj => ?_
      refine hnone j ((hleft j sid).2 ⟨hmj, ?_⟩)
      rintro rfl
      exact hid (h.single j sid id hmj hm)

/-! ## The calls of the session repository -/

/-- A call of the session repository, or of the route that logs out, whatever becomes of
its result. -/
inductive SessionCall (crypto : Crypto) : Prog IdentityApi Unit → Prop
  | login (sessionTtlMinutes payload) :
      SessionCall crypto (login crypto sessionTtlMinutes payload >>= fun _ => pure ())
  | authenticateSession (sessionToken csrfToken requireCsrf) :
      SessionCall crypto (authenticateSession crypto sessionToken csrfToken requireCsrf >>= fun _ => pure ())
  | revokeSession (sessionToken) : SessionCall crypto (revokeSession crypto sessionToken)
  | logout (sessionToken csrfToken) : SessionCall crypto (logout crypto sessionToken csrfToken)

/-- The call neither revokes a session nor, by itself, inserts a logout entry. -/
def CallUnlogged : Sql.Call identity → Prop
  | .query q => QueryUnlogged q
  | _ => True

/-- Transactions insert no logout entry. -/
def UnloggedAll (did : List (Did identity)) : Prop := ∀ d ∈ did, Unlogged d.stmt

/-- The discipline of the transactions. -/
abbrev unloggedCommits : Protocol IdentityApi (Sql.Mirror identity) :=
  Sql.discipline UnloggedAll fun _ => True

theorem logging_next {c : Sql.Call identity} (hc : CallUnlogged c) (l : Stage) (r : IdentityApi.Reply c) :
    logging.next l c r = l := by
  cases c with
  | query q =>
    cases q with
    | revokeSession d => exact hc.elim
    | insertAuditLog aid entry => exact if_neg hc
    | _ => rfl
  | _ => rfl

theorem logging_allow {c : Sql.Call identity} (hc : CallUnlogged c) (l : Stage) : logging.allow l c := by
  cases c with
  | query q =>
    cases q with
    | revokeSession d => exact hc.elim
    | insertAuditLog aid entry => exact fun ha => absurd ha hc
    | _ => trivial
  | _ => trivial

/-- Programs of such calls. -/
abbrev unlogged : Async.Rely IdentityApi := ⟨CallUnlogged, fun _ _ => True⟩

/-- Programs of statements by themselves. -/
abbrev untransacted : Async.Rely IdentityApi where
  calls
    | .connect => True
    | .close => True
    | .query _ => True
    | _ => False
  answers _ _ := True

variable {crypto : Crypto} {α : Type} {q : Prog IdentityApi α}

theorem obeys_logging {l : Stage} (h : q.Ensures unlogged (fun _ => True) fun _ => True) :
    q.Obeys logging l (fun l' _ => l' = l) fun _ _ => True :=
  (h.obeys (fun _ hc => logging_allow hc l) (fun _ r hc => logging_next hc l r) fun _ _ => trivial).mono
    (fun _ _ hl => hl.1) fun _ _ _ => trivial

theorem obeys_unloggedCommits (h : q.Ensures untransacted (fun _ => True) fun _ => True) :
    q.Obeys unloggedCommits none (fun l _ => l = none) fun _ _ => True := by
  have hobeys := h.obeys (P := unloggedCommits) (l := none) (fun c hc => ?_) (fun c r hc => ?_)
    fun _ _ => trivial
  · exact hobeys.mono (fun _ _ hl => hl.1) fun _ _ _ => trivial
  · cases c with
    | run tx c => exact hc.elim
    | commit tx => exact hc.elim
    | _ => trivial
  · cases c with
    | start => exact hc.elim
    | run tx c => exact hc.elim
    | commit tx => exact hc.elim
    | rollback tx => exact hc.elim
    | _ => rfl

theorem authenticateSession_idle {A : Async.Rely IdentityApi} (hconnect : A.calls .connect)
    (hclose : A.calls .close) (hq : ∀ q, QueryUnlogged q → A.calls (.query q)) (token : Text)
    (csrfToken : Option Text) (requireCsrf : Bool) :
    (authenticateSession crypto token csrfToken requireCsrf).Ensures A (fun _ => True)
      fun _ => True := by
  unfold authenticateSession
  refine Sql.ensures_withConnection hconnect hclose (fun _ _ _ => trivial) ?_
  refine Prog.ensures_bind (Prog.ensures_call (hq _ trivial) (fun row _ => ?_) fun _ _ => trivial)
  cases row with
  | none => trivial
  | some row =>
    show Prog.Ensures _ (if !csrfPasses crypto csrfToken requireCsrf row.csrfTokenHash then _ else _) _ _
    split
    · trivial
    · exact Prog.ensures_bind (Prog.ensures_call (hq _ trivial) (fun _ _ => trivial) fun _ _ => trivial)

theorem login_unlogged (sessionTtlMinutes : ℤ) (payload : LoginRequest) :
    (login crypto sessionTtlMinutes payload).Ensures unlogged (fun _ => True) fun _ => True := by
  have hfailed : ∀ userId : Option UUID, (recordFailedLogin payload.email userId).Ensures unlogged
      (fun _ => True) fun _ => True := by
    intro userId n
    exact Prog.ensures_call (A := unlogged) (by simp [QueryUnlogged, CallUnlogged])
      (fun _ _ => trivial) fun _ _ => trivial
  unfold login
  refine Sql.ensures_withConnection trivial trivial (fun _ _ _ => trivial) ?_
  refine Prog.ensures_bind (Prog.ensures_call trivial (fun row _ => ?_) fun _ _ => trivial)
  cases row with
  | none => exact Prog.ensures_bind ((hfailed none).mono (fun _ _ => trivial) fun _ _ => trivial)
  | some row =>
    show Prog.Ensures _ (if !crypto.verifyPassword payload.password row.passwordHash then _ else _) _ _
    split
    · exact Prog.ensures_bind ((hfailed (some row.userId)).mono (fun _ _ => trivial) fun _ _ => trivial)
    · intro session csrf n
      show Prog.Ensures unlogged (createSession crypto payload.email row.userId n.uuid4
        row.passwordCredentialId row.roles session.tokenUrlsafe csrf.tokenUrlsafe _ >>= _) _ _
      refine Prog.ensures_bind ?_
      refine Sql.ensures_transaction (A := unlogged) trivial (fun _ => trivial) (fun _ => trivial)
        (fun _ _ _ => trivial) fun tx => ?_
      refine Prog.ensures_bind (Prog.ensures_call trivial (fun _ _ => ?_) fun _ _ => trivial)
      refine Prog.ensures_bind (Prog.ensures_call trivial (fun _ _ => ?_) fun _ _ => trivial)
      intro n
      exact Prog.ensures_call (A := unlogged) trivial (fun _ _ => trivial) fun _ _ => trivial

/-- **`login`** commits a new session with the entry of its login. -/
theorem login_unloggedCommits (sessionTtlMinutes : ℤ) (payload : LoginRequest) :
    (login crypto sessionTtlMinutes payload).Obeys unloggedCommits none (fun l _ => l = none)
      fun _ _ => True := by
  have hfailed : ∀ userId : Option UUID, (recordFailedLogin payload.email userId).Obeys unloggedCommits
      none (fun l _ => l = none) fun l _ => l = none := by
    intro userId n
    exact Sql.obeys_query trivial (fun _ => rfl) fun _ => rfl
  unfold login
  refine (Sql.obeys_withConnection (R := fun _ => True) ?_).mono (fun _ _ hl => hl.1) fun _ _ _ => trivial
  refine Prog.obeys_bind (Sql.obeys_query trivial (fun row => ?_) fun _ => rfl)
  cases row with
  | none =>
    refine Prog.obeys_bind ((hfailed none).mono (fun l _ hl => ?_) fun _ _ hl => hl)
    exact hl
  | some row =>
    show Prog.Obeys _ (if !crypto.verifyPassword payload.password row.passwordHash then _ else _) _ _ _
    split
    · refine Prog.obeys_bind ((hfailed (some row.userId)).mono (fun l _ hl => ?_) fun _ _ hl => hl)
      exact hl
    · intro session csrf n
      show Prog.Obeys unloggedCommits (createSession crypto payload.email row.userId n.uuid4
        row.passwordCredentialId row.roles session.tokenUrlsafe csrf.tokenUrlsafe _ >>= _) _ _ _
      refine Prog.obeys_bind ((Sql.obeys_transaction (R := fun _ => True) fun tx => ?_).mono
        (fun l _ hl => ⟨hl.1, trivial⟩) fun _ _ hl => hl)
      refine Prog.obeys_bind (Sql.obeys_run (fun _ => ?_) fun _ => trivial)
      refine Prog.obeys_bind (Sql.obeys_run (fun _ => ?_) fun _ => trivial)
      intro n
      refine Sql.obeys_run (fun _ => ⟨_, rfl, ?_, trivial⟩) fun _ => trivial
      simp [UnloggedAll, Unlogged]

/-- **`revoke_session`** inserts the entry of the session that it revoked. -/
theorem revokeSession_logging (token : Text) :
    (revokeSession crypto token).Obeys logging .fresh (fun _ _ => True) fun _ _ => True := by
  have hclose : ∀ (l : Stage) (e : ApiError) (Q : Stage → Unit → Prop),
      (Sql.closing e : Prog IdentityApi Unit).Obeys logging l Q fun _ _ => True := fun l e Q =>
    Prog.obeys_bind (Prog.obeys_call (P := logging) (c := .close) trivial (fun _ => trivial)
      fun _ => trivial)
  have hdone : ∀ l : Stage, (Prog.call (σ := IdentityApi) .close >>= fun _ =>
      (pure () : Prog IdentityApi Unit)).Obeys logging l (fun _ _ => True) fun _ _ => True := fun l =>
    Prog.obeys_bind (Prog.obeys_call (P := logging) (c := .close) trivial (fun _ => trivial)
      fun _ => trivial)
  unfold revokeSession Sql.withConnection
  refine Prog.obeys_bind (Prog.obeys_call (P := logging) (c := .connect) trivial (fun _ => ?_)
    fun _ => trivial)
  refine Prog.obeys_bind (Prog.obeys_tryExcept ?_)
  refine Prog.obeys_bind (Prog.obeys_call (P := logging)
    (c := .query (.revokeSession (crypto.hashApiToken token))) rfl (fun row => ?_) fun e => hclose _ e _)
  cases row with
  | none => exact hdone _
  | some row =>
    intro n
    exact Prog.obeys_call (P := logging) (c := .query (.insertAuditLog n.uuid4 _))
      (fun _ => ⟨row.1, rfl, rfl⟩) (fun _ => hdone _) fun e => hclose _ e _

theorem revokeSession_untransacted (token : Text) :
    (revokeSession crypto token).Ensures untransacted (fun _ => True) fun _ => True := by
  unfold revokeSession
  refine Sql.ensures_withConnection trivial trivial (fun _ _ _ => trivial) ?_
  refine Prog.ensures_bind (Prog.ensures_call trivial (fun row _ => ?_) fun _ _ => trivial)
  cases row with
  | none => trivial
  | some row =>
    intro n
    exact Prog.ensures_call (A := untransacted) trivial (fun _ _ => trivial) fun _ _ => trivial

theorem SessionCall.keeps_logging {q : Prog IdentityApi Unit} (h : SessionCall crypto q) :
    q.Keeps logging .fresh := by
  cases h with
  | login sessionTtlMinutes payload =>
    exact Prog.obeys_bind ((obeys_logging (login_unlogged sessionTtlMinutes payload)).mono
      (fun _ _ _ => trivial) fun _ _ _ => trivial)
  | authenticateSession sessionToken csrfToken requireCsrf =>
    exact Prog.obeys_bind ((obeys_logging (authenticateSession_idle trivial trivial (fun _ hq => hq)
      sessionToken csrfToken requireCsrf)).mono (fun _ _ _ => trivial) fun _ _ _ => trivial)
  | revokeSession sessionToken => exact revokeSession_logging sessionToken
  | logout sessionToken csrfToken =>
    cases sessionToken with
    | none => trivial
    | some sessionToken =>
      refine Prog.obeys_bind ((obeys_logging (authenticateSession_idle trivial trivial (fun _ hq => hq)
        sessionToken csrfToken true)).mono (fun l session hl => ?_) fun _ _ _ => trivial)
      rw [hl]
      cases session with
      | none => trivial
      | some session => exact revokeSession_logging sessionToken

theorem SessionCall.keeps_unloggedCommits {q : Prog IdentityApi Unit} (h : SessionCall crypto q) :
    q.Keeps unloggedCommits none := by
  cases h with
  | login sessionTtlMinutes payload =>
    exact Prog.obeys_bind ((login_unloggedCommits sessionTtlMinutes payload).mono
      (fun _ _ _ => trivial) fun _ _ _ => trivial)
  | authenticateSession sessionToken csrfToken requireCsrf =>
    exact Prog.obeys_bind ((obeys_unloggedCommits (authenticateSession_idle trivial trivial
      (fun _ _ => trivial) sessionToken csrfToken requireCsrf)).mono (fun _ _ _ => trivial)
      fun _ _ _ => trivial)
  | revokeSession sessionToken =>
    exact (obeys_unloggedCommits (revokeSession_untransacted sessionToken)).mono
      (fun _ _ _ => trivial) fun _ _ _ => trivial
  | logout sessionToken csrfToken =>
    cases sessionToken with
    | none => trivial
    | some sessionToken =>
      refine Prog.obeys_bind ((obeys_unloggedCommits (authenticateSession_idle trivial trivial
        (fun _ _ => trivial) sessionToken csrfToken true)).mono (fun l session hl => ?_)
        fun _ _ _ => trivial)
      rw [hl]
      cases session with
      | none => trivial
      | some session =>
        exact (obeys_unloggedCommits (revokeSession_untransacted sessionToken)).mono
          (fun _ _ _ => trivial) fun _ _ _ => trivial

/-! ## Any interleaving -/

variable {s₀ : Tables} {w w' : Sql.Server identity Drawn} {tr : List (Entry IdentityApi)} {i : ℕ}
  {c : Sql.Call identity} {f : Fault ApiError} {r : IdentityApi.Reply c}

theorem debtsAfter_unlogged (hc : CallUnlogged c) : debtsAfter i f s debts c = debts := by
  cases c with
  | query q =>
    cases q with
    | revokeSession d => exact hc.elim
    | insertAuditLog aid entry => exact if_neg fun h => hc h.2
    | _ => rfl
  | _ => rfl

/-- A call that does not take effect. -/
theorem debtsAfter_refused (hf : ¬ f.Lands) : debtsAfter i f s debts c = debts := by
  unfold debtsAfter
  split
  · split
    · exact if_neg hf
    · rfl
  · exact if_neg fun h => hf h.1
  · rfl

/-- **A call that neither revokes nor logs** leaves the logouts as they are. -/
theorem serve_sameLogouts {tr' : List (Entry IdentityApi)} (hc : CallUnlogged c)
    (hsound : Sql.Sound (S := identity) s₀ w.db)
    (hkept : Sql.Kept unloggedCommits UnloggedAll (fun _ => True) s₀ w' tr')
    (hs : identityServer.serve c f w = some (r, w')) : SameLogouts w.db.current w'.db.current := by
  by_cases hq : ∃ q, c = .query q
  · obtain ⟨q, rfl⟩ := hq
    rcases Sql.serve_query hs with ⟨-, he, -⟩ | ⟨-, a, ha, -⟩
    · rw [he]
      exact SameLogouts.refl _
    · exact query_sameLogouts ha hc
  · rcases Sql.serve_turns hsound (fun q he => hq ⟨q, he⟩) hs with he | ⟨tx, began, did, hhist, hturn⟩
    · rw [he]
      exact SameLogouts.refl _
    · have hdid : UnloggedAll did :=
        hkept.allowed (.transaction tx began did) (by rw [hhist]; exact List.mem_cons_self)
      exact turns_sameLogouts hdid hturn

/-- **Every call keeps the debts.** -/
theorem Owed.serve {tr' : List (Entry IdentityApi)} (hsound : Sql.Sound (S := identity) s₀ w.db)
    (hkept : Sql.Kept unloggedCommits UnloggedAll (fun _ => True) s₀ w' tr')
    (h : Owed w.db.current (logging.at .fresh tr) debts)
    (hallow : logging.allow (logging.at .fresh tr i) c)
    (hs : identityServer.serve c f w = some (r, w')) :
    Owed w'.db.current (logging.at .fresh (⟨i, c, r⟩ :: tr))
      (debtsAfter i f w.db.current debts c) := by
  have hothers : ∀ j, j ≠ i →
      logging.at .fresh (⟨i, c, r⟩ :: tr) j = logging.at .fresh tr j := fun j hj =>
    Protocol.at_other tr (Ne.symm hj)
  have hself : logging.at .fresh (⟨i, c, r⟩ :: tr) i = logging.next (logging.at .fresh tr i) c r :=
    Protocol.at_self tr i c r
  by_cases hc : CallUnlogged c
  · rw [debtsAfter_unlogged hc]
    refine (h.same (serve_sameLogouts hc hsound hkept hs)).ended fun j => Or.inl ?_
    by_cases hj : j = i
    · rw [hj, hself, logging_next hc]
    · exact hothers j hj
  -- a revocation, or a logout entry
  have hend : logging.at .fresh (⟨i, c, r⟩ :: tr) i = .ended → ∀ j,
      logging.at .fresh (⟨i, c, r⟩ :: tr) j = logging.at .fresh tr j ∨
        logging.at .fresh (⟨i, c, r⟩ :: tr) j = .ended := by
    intro he j
    by_cases hj : j = i
    · rw [hj]
      exact Or.inr he
    · exact Or.inl (hothers j hj)
  cases c with
  | query q =>
    cases q with
    | revokeSession d =>
      have hfresh : logging.at .fresh tr i = .fresh := hallow
      rcases Sql.serve_query hs with ⟨hlands, he, e, rfl⟩ | ⟨hlands, a, ha, hr⟩
      · rw [he, debtsAfter_refused hlands]
        exact h.ended (hend hself)
      · rcases query_revoke ha with ⟨hnone, rfl, he⟩ | ⟨row, hrow, rfl, hnew, hrev, hlog⟩
        · have hdebts : debtsAfter i f w.db.current debts (.query (.revokeSession d)) = debts := by
            simp only [debtsAfter, hnone]
          rw [he, hdebts]
          rcases hr with rfl | ⟨e, rfl⟩
          · refine h.ended fun j => Or.inl ?_
            by_cases hj : j = i
            · rw [hj]
              exact hself
            · exact hothers j hj
          · exact h.ended (hend hself)
        · have hdebts : debtsAfter i f w.db.current debts (.query (.revokeSession d)) =
              (i, row.id) :: debts := by
            simp only [debtsAfter, hrow, if_pos hlands]
          rw [hdebts]
          refine h.revoke hfresh ?_ hothers hnew hrev hlog
          rcases hr with rfl | ⟨e, rfl⟩
          · exact Or.inl hself
          · exact Or.inr hself
    | insertAuditLog aid entry =>
      have hentry : entry.action = "auth.logout" := not_not.1 hc
      obtain ⟨sid, howes, hsid⟩ := hallow hentry
      have hended : logging.at .fresh (⟨i, .query (.insertAuditLog aid entry), r⟩ :: tr) i = .ended :=
        hself.trans (if_pos hentry)
      rcases Sql.serve_query hs with ⟨hlands, he, -⟩ | ⟨hlands, a, ha, -⟩
      · rw [he, debtsAfter_refused hlands]
        exact h.ended (hend hended)
      · have hdebts : debtsAfter i f w.db.current debts (.query (.insertAuditLog aid entry)) =
            debts.filter fun o => o.1 ≠ i := if_pos ⟨hlands, hentry⟩
        obtain ⟨hrev, hlog, hother⟩ := query_log ha hentry hsid
        rw [hdebts]
        exact h.log howes hended hothers hrev hlog hother
    | _ => exact absurd trivial hc
  | _ => exact absurd trivial hc

/-- The pool, what it keeps of transactions, and its debts. -/
structure Tallied (s₀ : Tables) (p : Pool identityServer) (debts : List (ℕ × UUID)) : Prop where
  kept : Sql.Kept unloggedCommits UnloggedAll (fun _ => True) s₀ p.state p.trace
  commits : p.OK unloggedCommits none
  stages : p.OK logging .fresh
  owed : Owed p.state.db.current (logging.at .fresh p.trace) debts

/-- **Every step keeps the debts.** -/
theorem Tallied.owed_step {p q : Pool identityServer} {x : Input identityServer}
    (h : Tallied s₀ p debts) (hstep : p.step? x = some q) :
    Owed q.state.db.current (logging.at .fresh q.trace) (owe p x debts) := by
  rcases Pool.step_cases hstep with ⟨g, rfl, rfl⟩ | ⟨i, f, k, rfl, hi, rfl⟩ |
    ⟨i, f, c, k, r, s, rfl, hi, hs, rfl⟩ | ⟨m, s, rfl, hm, rfl⟩
  · exact h.owed
  · simp only [owe, hi]
    exact h.owed
  · simp only [owe, hi]
    have hkept := h.kept.serve (h.commits.keeps i _ hi).1 hs
    exact h.owed.serve h.kept.sound hkept (h.stages.keeps i _ hi).1 hs
  · cases m with
    | elapse d => cases hm; exact h.owed
    | lose tx => cases hm; exact h.owed

theorem Tallied.step {p q : Pool identityServer} {x : Input identityServer}
    (hx : ∀ g, x = .begin g → SessionCall crypto g) (h : Tallied s₀ p debts)
    (hstep : p.step? x = some q) : Tallied s₀ q (owe p x debts) := by
  obtain ⟨hkept, hcommits⟩ := Pool.step_inv (M := identityServer) Sql.kept_invariant h.commits h.kept
    (fun g hg => (hx g hg).keeps_unloggedCommits) hstep
  have hstages := Pool.step_ok h.stages (fun g hg => (hx g hg).keeps_logging) hstep
  exact ⟨hkept, hcommits, hstages, h.owed_step hstep⟩

/-- The step revokes a session: its `REVOKE_SESSION_SQL` takes effect on one. -/
def Revokes (p : Pool identityServer) (x : Input identityServer) : Prop :=
  ∃ i f d k r, x = .turn i f ∧ f.Lands ∧
    p.running[i]? = some (.await (.query (.revokeSession d)) k) ∧
    revocable? d p.state.db.current = some r

/-- Only such a step makes the first debt. -/
theorem owe_nil_iff {p : Pool identityServer} {x : Input identityServer} :
    owe p x [] = [] ↔ ¬ Revokes p x := by
  constructor
  · rintro he ⟨i, f, d, k, r, rfl, hlands, hi, hr⟩
    simp [owe, hi, debtsAfter, hr, hlands] at he
  · intro hn
    unfold owe
    split
    · rename_i i f
      split
      · rename_i c k hi
        unfold debtsAfter
        split
        · split
          · rename_i d _ r hr
            refine if_neg fun hlands => hn ⟨i, f, d, k, r, rfl, hlands, hi, hr⟩
          · rfl
        · simp
        · rfl
      · rfl
    · rfl

/-- **Logouts and their entries**, in any interleaving with any faults. In every state that
is reached every logout is audited once exactly if each execution that has revoked a session
has inserted its entry. So it is in all states of a run exactly if none revokes a session. -/
theorem logouts_audited_iff (crypto : Crypto) (s₀ : Tables) (now : Timestamp) (supply : ℕ → Drawn)
    (xs : List (Input identityServer)) (p : Pool identityServer) (hs₀ : AuditedOnce s₀)
    (hx : ∀ q, Input.begin q ∈ xs → SessionCall crypto q)
    (h : (Pool.init (Sql.Server.start (S := identity) s₀ now supply)).run? xs = some p) :
    (AuditedOnce p.state.db.current ↔
      owing (Pool.init (Sql.Server.start (S := identity) s₀ now supply)) xs = []) ∧
    ((Pool.init (Sql.Server.start (S := identity) s₀ now supply)).Always
        (fun w : Sql.Server identity Drawn => AuditedOnce w.db.current) xs ↔
      (Pool.init (Sql.Server.start (S := identity) s₀ now supply)).Along
        (fun p x => ¬ Revokes p x) xs) := by
  have hstart : Tallied s₀ (Pool.init (Sql.Server.start (S := identity) s₀ now supply)) [] :=
    ⟨Sql.kept_start now supply, Pool.init_ok _, Pool.init_ok _, hs₀.owed⟩
  have hbegin : ∀ x ∈ xs, ∀ g, x = .begin g → SessionCall crypto g := by
    rintro x hxs g rfl
    exact hx g hxs
  constructor
  · have hend : Tallied s₀ p
        ((Pool.init (Sql.Server.start (S := identity) s₀ now supply)).tally owe xs []) :=
      Pool.run_tally
        (fun _ x _ _ (hok : ∀ g, x = .begin g → SessionCall crypto g) hI hstep => hI.step hok hstep)
        hbegin hstart h
    exact hend.owed.audited_iff
  · refine Pool.always_iff_along (I := fun p => ∃ debts, Tallied s₀ p debts) ?_ ?_ hbegin
      ⟨[], hstart⟩ hs₀ h
    · rintro p x q hok ⟨debts, hI⟩ hstep
      exact ⟨_, hI.step hok hstep⟩
    · rintro p x q ⟨debts, hI⟩ hJ hstep
      obtain rfl : debts = [] := hI.owed.audited_iff.1 hJ
      rw [← owe_nil_iff]
      exact (hI.owed_step hstep).audited_iff

/-! ### A logout whose entry is lost -/

/-- The names that a logout draws. -/
def logoutSupply : ℕ → Drawn := fun n => ⟨⟨10 + n⟩, [], [], 0⟩

/-- `revoke_session` for the one session, whose insert goes as `f`. -/
def loggingOut (f : Fault ApiError) : List (Input identityServer) :=
  [.begin (revokeSession sessionCrypto (Python.text "session")), .turn 0 .works, .turn 0 .works,
    .turn 0 .works, .turn 0 f, .turn 0 .works]

theorem loggingOut_calls (f : Fault ApiError) (q : Prog IdentityApi Unit)
    (hq : Input.begin q ∈ loggingOut f) : SessionCall sessionCrypto q := by
  have he : q = revokeSession sessionCrypto (Python.text "session") := by
    simpa [loggingOut] using hq
  rw [he]
  exact .revokeSession _

theorem oneSession_audited : AuditedOnce oneSession := by
  refine ⟨fun id => ⟨?_, fun h => absurd rfl h⟩, fun id => Nat.zero_le 1⟩
  rintro ⟨r, hr, -, hrevoked⟩
  rw [List.mem_singleton.1 hr] at hrevoked
  exact absurd rfl hrevoked

/-- The insert fails after the session is revoked, and the process ends: a revoked session
without an entry. -/
theorem lost_entry_not_audited : ¬ ∀ (crypto : Crypto) (s₀ : Tables) (now : Timestamp)
    (supply : ℕ → Drawn) (xs : List (Input identityServer)) (p : Pool identityServer),
    AuditedOnce s₀ → (∀ q, Input.begin q ∈ xs → SessionCall crypto q) →
    (Pool.init (Sql.Server.start (S := identity) s₀ now supply)).run? xs = some p →
    AuditedOnce p.state.db.current := by
  intro hall
  have hrun : ∃ p, (Pool.init (Sql.Server.start (S := identity) oneSession 0 logoutSupply)).run?
      (loggingOut (.before (.python ⟨"ConnectionDoesNotExistError"⟩))) = some p ∧
      (∃ r ∈ p.state.db.current.userSessions, r.id = ⟨3⟩ ∧ r.revokedAt ≠ none) ∧
      p.state.db.current.auditLogs.rows = [] :=
    ⟨_, rfl, ⟨_, List.mem_singleton_self _, rfl, Option.some_ne_none _⟩, rfl⟩
  obtain ⟨p, hp, hrevoked, hempty⟩ := hrun
  have haudited := hall sessionCrypto oneSession 0 logoutSupply _ p oneSession_audited
    (loggingOut_calls _) hp
  refine (haudited.revoked_iff ⟨3⟩).1 hrevoked ?_
  unfold logouts
  rw [hempty]
  rfl

/-- The logout of the one session, whose statements both take effect. -/
theorem logouts_audited_iff_logout : ∃ p : Pool identityServer,
    (Pool.init (Sql.Server.start (S := identity) oneSession 0 logoutSupply)).run?
      (loggingOut .works) = some p ∧
    Revoked ⟨3⟩ p.state.db.current ∧ AuditedOnce p.state.db.current := by
  have hrun : ∃ p, (Pool.init (Sql.Server.start (S := identity) oneSession 0 logoutSupply)).run?
      (loggingOut .works) = some p ∧ Revoked ⟨3⟩ p.state.db.current :=
    ⟨_, rfl, _, List.mem_singleton_self _, rfl, Option.some_ne_none _⟩
  obtain ⟨p, hp, hrevoked⟩ := hrun
  refine ⟨p, hp, hrevoked, ?_⟩
  exact (logouts_audited_iff sessionCrypto oneSession 0 logoutSupply _ p oneSession_audited
    (loggingOut_calls _) hp).1.2 rfl

end CopyTrade
