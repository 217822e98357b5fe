import CopyTrade.Proof.Trail
import CopyTrade.Sql.Noted

/-!
# The order of the audit log

`occurred_at` and `updated_at` are the start of a transaction, and the lock on the row decides
which of two updates comes first.

* `FirstIsCurrent`: what `GET /admin/audit-logs` lists first for a relationship is its current
  row. `first_turns`: a commit keeps this exactly where its update is `Later`.
* `audit_order_iff`: so it is throughout a run, and no `updated_at` decreases, exactly where
  every update that is committed is.
-/

namespace CopyTrade

open Async (Entry Fault Input Pool Prog)
open Identity
open Sql (Commit Did Latest Serial)

/-! ## What is listed first -/

theorem any_action : ∀ action ∈ (none : Option String),
    1 ≤ action.length ∧ action.length ≤ 128 := by simp

/-- `GET /admin/audit-logs?entity_type=copy_relationship&entity_id=…&limit=…` -/
def relationshipQuery (id : UUID) (limit : ℕ) (h : 1 ≤ limit ∧ limit ≤ 500) : AuditLogQuery where
  entityType := some "copy_relationship"
  entityId := some id
  limit := limit
  entityType_length := by simp; decide
  action_length := any_action
  limit_range := h

/-- The entry listed first for a relationship has its current row as `after_state`. -/
def FirstIsCurrent (s : Tables) : Prop :=
  ∀ id record, s.copyRelationships.get id = some record → ∀ limit h page,
    (relationshipQuery id limit h).Answers s.auditLogs page →
      ∃ row ∈ page.head?, row.afterState = some (.copyRelationship record)

/-- An entry of a relationship occurred when its row was updated. -/
def Stamped (s : Tables) : Prop :=
  ∀ row ∈ s.auditLogs, ∀ record, row.afterState = some (.copyRelationship record) →
    record.updatedAt = row.occurredAt

/-- The entries of an entity, in the order of the commits. -/
abbrev entriesOf (s : Tables) (k : Entity) : List (AuditLogRow AuditState) :=
  Sql.trail entityOf s.auditLogs.rows k

/-- The latest entries of an entity show its row. -/
def LatestShown (s : Tables) (k : Entity) : Prop :=
  Latest (fun row => row.occurredAt) (fun row => row.afterState) (entriesOf s k) (shown s k)

variable {now : Timestamp} {s t : Tables}

theorem selects_iff {id : UUID} {limit : ℕ} {h : 1 ≤ limit ∧ limit ≤ 500} {row : AuditLogRow AuditState} :
    (relationshipQuery id limit h).Selects row ↔ entityOf row = some (.copyRelationship id) := by
  unfold AuditLogQuery.Selects entityOf relationshipQuery
  cases hid : row.entityId with
  | none => simp
  | some i =>
    by_cases htype : row.entityType = "copy_relationship"
    · simp [htype]
    · by_cases haccount : row.entityType = "exchange_account"
      · simp [haccount]
      · simp [htype, haccount]

theorem listed_eq (id : UUID) (limit : ℕ) (h : 1 ≤ limit ∧ limit ≤ 500) :
    (s.auditLogs.rows.filter fun row => decide ((relationshipQuery id limit h).Selects row)) =
      entriesOf s (.copyRelationship id) := by
  unfold entriesOf Sql.trail
  refine List.filter_congr fun row _ => ?_
  rw [decide_eq_decide]
  exact selects_iff

/-- **What is listed first** is the row, where the latest entries show it. -/
theorem firstIsCurrent_iff (hs : AuditReplays s) :
    FirstIsCurrent s ↔ ∀ id, LatestShown s (.copyRelationship id) := by
  have head : ∀ {limit : ℕ} {ordered : List (AuditLogRow AuditState)}, 1 ≤ limit →
      ((ordered.drop 0).take limit).head? = ordered.head? := by
    intro limit ordered hlimit
    have hne : limit ≠ 0 := by omega
    simp [List.head?_take, hne]
  have nonempty : ∀ {id record}, s.copyRelationships.get id = some record →
      entriesOf s (.copyRelationship id) ≠ [] := by
    intro id record hget hnil
    have hlast : ((entriesOf s (.copyRelationship id)).getLast?.bind fun row => row.afterState) =
        shown s (.copyRelationship id) := (hs (.copyRelationship id)).last
    rw [hnil, shown, hget] at hlast
    cases hlast
  constructor
  · intro h id
    cases hget : s.copyRelationships.get id with
    | none =>
      have hnil := (hs (.copyRelationship id)).absent (by simp [shown, hget])
      intro row hrow
      rw [entriesOf, hnil] at hrow
      cases hrow
    | some record =>
      refine (Sql.latest_iff_listed (nonempty hget)).2 fun ordered hordered => ?_
      have hpage : ∃ row ∈ ((ordered.drop 0).take 1).head?,
          row.afterState = some (.copyRelationship record) :=
        h id record hget 1 (by omega) _ ⟨ordered, by rwa [listed_eq], rfl⟩
      rw [head (le_refl 1)] at hpage
      simpa [shown, hget] using hpage
  · rintro h id record hget limit hlimit page ⟨ordered, hordered, rfl⟩
    rw [listed_eq] at hordered
    have hfirst := (Sql.latest_iff_listed (nonempty hget)).1 (h id) ordered hordered
    show ∃ row ∈ ((ordered.drop 0).take limit).head?, _
    rw [head hlimit.1]
    simpa [shown, hget] using hfirst

/-! ## What a commit keeps -/

theorem Logged.entriesOf_self {k : Entity} {row : AuditLogRow AuditState} (h : Logged now k row s t) :
    entriesOf t k = entriesOf s k ++ [row] := by
  unfold entriesOf
  rw [h.log, Sql.trail_append, h.entity, if_pos rfl]

theorem Logged.latestShown_other {k j : Entity} {row : AuditLogRow AuditState} (h : Logged now k row s t)
    (hj : j ≠ k) : LatestShown t j ↔ LatestShown s j := by
  have hne : ¬ some k = some j := fun he => hj (Option.some.inj he).symm
  have hentries : entriesOf t j = entriesOf s j := by
    unfold entriesOf
    rw [h.log, Sql.trail_append, h.entity, if_neg hne, List.append_nil]
  unfold LatestShown
  rw [hentries, h.others j hj]

theorem Logged.stamp {k : Entity} {row : AuditLogRow AuditState} (h : Logged now k row s t)
    (hs : Stamped s) : Stamped t := by
  intro row' hrow' record hrecord
  have hmem : row' ∈ s.auditLogs.rows ++ [row] := by rw [← h.log]; exact hrow'
  rcases List.mem_append.1 hmem with hold | hnew
  · exact hs row' hold record hrecord
  · rw [List.mem_singleton.1 hnew] at hrecord ⊢
    exact (h.stamped record hrecord).trans h.occurred.symm

/-- **A serial history** stamps its entries. -/
theorem serial_stamped {s₀ : Tables} {cs : List (Commit identity)} (h₀ : Stamped s₀)
    (hcs : ∀ c ∈ cs, CommitAudited c) (h : Serial s₀ cs t) : Stamped t := by
  refine h.inv h₀ (fun c s t hc hs hturns => ?_) hcs
  cases c with
  | query now q a => exact hc.elim
  | transaction tx began did =>
    rcases audited_turns hc hturns with ⟨rfl, -⟩ | ⟨k, row, hlogged, -⟩
    · exact hs
    · exact hlogged.stamp hs

/-- The row that an update of a copy relationship found, and its payload. -/
def relationshipUpdate? : List (Did identity) → Option (CopyRelationshipRow × CopyRelationshipUpdate)
  | [⟨.selectCopyRelationshipByIdForUpdate _, some before⟩, ⟨.updateCopyRelationship _ payload, some _⟩, _] =>
    some (before, payload)
  | _ => none

/-- An update began after the row it found was updated, or it leaves the row as it is. -/
def Later (began : Timestamp) (did : List (Did identity)) : Prop :=
  ∀ u ∈ relationshipUpdate? did, u.1.updatedAt < began ∨ assign began u.2 u.1 = u.1

instance (began : Timestamp) (did : List (Did identity)) : Decidable (Later began did) :=
  inferInstanceAs (Decidable (∀ _ ∈ _, _))

theorem relationshipUpdate_idle {did : List (Did identity)} (h : ∀ x ∈ did, Idles x) :
    relationshipUpdate? did = none := by
  unfold relationshipUpdate?
  split
  · have hupdate := h _ (List.mem_cons_of_mem _ List.mem_cons_self)
    simp [Idles, pinned] at hupdate
  · rfl

/-- **All that a commit does to the relationships.** It leaves them, creates one, or updates one
that it found. -/
inductive RelationshipTurn (now : Timestamp) (did : List (Did identity)) (s t : Tables) : Prop where
  | same (hdid : relationshipUpdate? did = none)
      (hrows : ∀ id, t.copyRelationships.get id = s.copyRelationships.get id)
      (hlatest : ∀ id, LatestShown t (.copyRelationship id) ↔ LatestShown s (.copyRelationship id))
  | created (hdid : relationshipUpdate? did = none) (id : UUID) (row : AuditLogRow AuditState)
      (hnone : row.beforeState = none) (hlogged : Logged now (.copyRelationship id) row s t)
  | updated (id : UUID) (payload : CopyRelationshipUpdate) (before : CopyRelationshipRow)
      (row : AuditLogRow AuditState) (hdid : relationshipUpdate? did = some (before, payload))
      (hbefore : s.copyRelationships.get id = some before)
      (hafter : t.copyRelationships.get id = some (assign now payload before))
      (hlogged : Logged now (.copyRelationship id) row s t)

theorem Logged.get_other {k : Entity} {row : AuditLogRow AuditState} (h : Logged now k row s t)
    {id : UUID} (hid : Entity.copyRelationship id ≠ k) :
    t.copyRelationships.get id = s.copyRelationships.get id := by
  have hshown : (t.copyRelationships.get id).map AuditState.copyRelationship =
      (s.copyRelationships.get id).map AuditState.copyRelationship := h.others _ hid
  refine Option.map_injective (fun a b hab => ?_) hshown
  exact AuditState.copyRelationship.inj hab

/-- A change of an exchange account. -/
theorem Logged.same {k : Entity} {row : AuditLogRow AuditState} {did : List (Did identity)}
    (h : Logged now k row s t) (hdid : relationshipUpdate? did = none)
    (htype : row.entityType = "exchange_account") : RelationshipTurn now did s t := by
  have hk : ∀ id, Entity.copyRelationship id ≠ k := by
    rintro id rfl
    have hentity := h.entity
    obtain ⟨i, -, hi⟩ := Option.bind_eq_some_iff.1 hentity
    rw [if_pos htype] at hi
    cases hi
  exact .same hdid (fun id => h.get_other (hk id)) fun id => h.latestShown_other (hk id)

theorem relationship_turn {tx : ℕ} {did : List (Did identity)} (hdid : AuditedCommit did)
    (h : (Commit.transaction tx now did : Commit identity).Turns s t) : RelationshipTurn now did s t := by
  cases hdid with
  | idle hidle =>
    obtain ⟨held, hruns⟩ := h
    cases runs_idle hidle hruns
    exact .same (relationshipUpdate_idle hidle) (fun _ => rfl) fun _ => Iff.rfl
  | createExchangeAccount id payload record found aid principal =>
    rcases audited_turns (.createExchangeAccount id payload record found aid principal) h with
      ⟨-, hnil⟩ | ⟨k, row, hlogged, hentry⟩
    · cases hnil
    · have hrow := (List.cons.inj hentry).1
      exact hlogged.same rfl (by rw [← hrow]; rfl)
  | updateExchangeAccount id payload before after aid principal =>
    rcases audited_turns (.updateExchangeAccount id payload before after aid principal) h with
      ⟨-, hnil⟩ | ⟨k, row, hlogged, hentry⟩
    · cases hnil
    · have hrow := (List.cons.inj hentry).1
      exact hlogged.same rfl (by rw [← hrow]; rfl)
  | createCopyRelationship id payload record aid principal =>
    rcases audited_turns (.createCopyRelationship id payload record aid principal) h with
      ⟨-, hnil⟩ | ⟨k, row, hlogged, hentry⟩
    · cases hnil
    · have hrow := (List.cons.inj hentry).1
      have hk : k = .copyRelationship record.id := by
        have hentity := hlogged.entity
        unfold entityOf at hentity
        rw [← hrow] at hentity
        simpa [CopyRelationships.copyRelationshipEntry] using hentity.symm
      rw [hk] at hlogged
      exact .created rfl record.id row (by rw [← hrow]; rfl) hlogged
  | updateCopyRelationship id payload before after aid principal =>
    obtain ⟨held, hruns⟩ := h
    obtain ⟨hbefore, rfl, hafter, hlogged⟩ := runs_updateCopyRelationship hruns
    exact .updated id payload before _ rfl hbefore hafter hlogged

/-- **A commit keeps the first entry current exactly where its update is later.** -/
theorem first_turns {did : List (Did identity)} (h : RelationshipTurn now did s t)
    (hs : AuditReplays s) (hstamped : Stamped s)
    (hfirst : ∀ id, LatestShown s (.copyRelationship id)) :
    (∀ id, LatestShown t (.copyRelationship id)) ↔ Later now did := by
  cases h with
  | same hdid hrows hlatest =>
    unfold Later
    simp only [hdid, hlatest]
    simpa using hfirst
  | created hdid id row hnone hlogged =>
    have hempty : entriesOf s (.copyRelationship id) = [] :=
      (hs (.copyRelationship id)).absent (hlogged.before.symm.trans hnone)
    have hall : ∀ j, LatestShown t (.copyRelationship j) := by
      intro j
      by_cases hj : j = id
      · rw [hj]
        intro row' hrow' _
        rw [hlogged.entriesOf_self, hempty] at hrow'
        rw [List.mem_singleton.1 hrow']
        exact hlogged.after
      · exact (hlogged.latestShown_other fun he => hj (Entity.copyRelationship.inj he)).2 (hfirst j)
    refine ⟨fun _ => ?_, fun _ => hall⟩
    unfold Later
    simp [hdid]
  | updated id payload before row hdid hbefore hafter hlogged =>
    have hs' : shown s (.copyRelationship id) = some (.copyRelationship before) := by
      simp [shown, hbefore]
    have ht' : shown t (.copyRelationship id) = some (.copyRelationship (assign now payload before)) := by
      simp [shown, hafter]
    have hne : entriesOf s (.copyRelationship id) ≠ [] := by
      intro hnil
      have hlast : ((entriesOf s (.copyRelationship id)).getLast?.bind fun row => row.afterState) =
          shown s (.copyRelationship id) := (hs (.copyRelationship id)).last
      rw [hnil, hs'] at hlast
      cases hlast
    -- the latest entries are those of the time at which the row was updated
    have htime : ∀ e ∈ entriesOf s (.copyRelationship id), e.afterState = shown s (.copyRelationship id) →
        e.occurredAt = before.updatedAt := by
      intro e he hafter
      rw [hs'] at hafter
      have hmem : e ∈ s.auditLogs := List.mem_of_mem_filter he
      exact (hstamped e hmem before hafter).symm
    have hsnoc := Sql.latest_snoc (hfirst id) hne htime hlogged.after
    have hself : LatestShown t (.copyRelationship id) ↔
        before.updatedAt < now ∨ assign now payload before = before := by
      unfold LatestShown
      rw [hlogged.entriesOf_self, hsnoc, hs', ht', hlogged.occurred]
      simp [eq_comm]
    have hlater : Later now did ↔ before.updatedAt < now ∨ assign now payload before = before := by
      unfold Later
      simp [hdid]
    rw [hlater, ← hself]
    constructor
    · intro hall
      exact hall id
    · intro hid j
      by_cases hj : j = id
      · rw [hj]
        exact hid
      · exact (hlogged.latestShown_other fun he => hj (Entity.copyRelationship.inj he)).2 (hfirst j)

/-- No relationship was updated at an earlier time than before. -/
def NeverEarlier (s t : Tables) : Prop :=
  ∀ id record, s.copyRelationships.get id = some record →
    ∃ record', t.copyRelationships.get id = some record' ∧ record.updatedAt ≤ record'.updatedAt

theorem NeverEarlier.refl (s : Tables) : NeverEarlier s s := fun _ record h => ⟨record, h, le_refl _⟩

theorem NeverEarlier.trans {u : Tables} (h : NeverEarlier s t) (h' : NeverEarlier t u) :
    NeverEarlier s u := by
  intro id record hget
  obtain ⟨record', hget', hle⟩ := h id record hget
  obtain ⟨record'', hget'', hle'⟩ := h' id record' hget'
  exact ⟨record'', hget'', hle.trans hle'⟩

/-- **A later update** moves `updated_at` forward. -/
theorem neverEarlier_turns {did : List (Did identity)} (h : RelationshipTurn now did s t)
    (hlater : Later now did) : NeverEarlier s t := by
  intro id record hget
  cases h with
  | same hdid hrows hlatest => exact ⟨record, (hrows id).trans hget, le_refl _⟩
  | created hdid i row hnone hlogged =>
    have hne : Entity.copyRelationship id ≠ .copyRelationship i := by
      intro he
      have hbefore := hlogged.before
      rw [hnone, ← he, shown, hget] at hbefore
      cases hbefore
    exact ⟨record, (hlogged.get_other hne).trans hget, le_refl _⟩
  | updated i payload before row hdid hbefore hafter hlogged =>
    by_cases hi : id = i
    · rw [hi] at hget ⊢
      have hrecord : before = record := Option.some.inj (hbefore.symm.trans hget)
      rw [hrecord] at hdid hafter
      refine ⟨_, hafter, ?_⟩
      rcases hlater (record, payload) hdid with hlt | heq
      · exact le_of_lt hlt
      · have hsame : (assign now payload record).updatedAt = record.updatedAt := congrArg _ heq
        exact le_of_eq hsame.symm
    · have hne : Entity.copyRelationship id ≠ .copyRelationship i := fun he =>
        hi (Entity.copyRelationship.inj he)
      exact ⟨record, (hlogged.get_other hne).trans hget, le_refl _⟩

/-! ## Any interleaving -/

/-- The transaction that a call commits. -/
def committed? (w : Sql.Server identity Drawn) : Sql.Call identity → Option (Sql.Open identity)
  | .commit tx => w.db.at? tx
  | _ => none

/-- The transaction that a step commits. -/
def committing? (p : Pool identityServer) : Input identityServer → Option (Sql.Open identity)
  | .turn i f =>
    if f.Lands then
      match p.running[i]? with
      | some (.await c _) => committed? p.state c
      | _ => none
    else none
  | _ => none

/-- An update that the step commits began after the row it found was updated. -/
def InOrder (p : Pool identityServer) (x : Input identityServer) : Prop :=
  ∀ o ∈ committing? p x, Later o.began o.did

instance (p : Pool identityServer) (x : Input identityServer) : Decidable (InOrder p x) :=
  inferInstanceAs (Decidable (∀ _ ∈ _, _))

/-- The server and its clients keep the discipline. -/
structure Chronicle (s₀ : Tables) (p : Pool identityServer) : Prop where
  kept : Sql.Kept (S := identity) audited AuditedCommit (fun _ => False) s₀ p.state p.trace
  ok : p.OK audited none

variable {s₀ : Tables} {p q : Pool identityServer} {x : Input identityServer}

theorem Chronicle.step (h : Chronicle s₀ p) (hx : ∀ g, x = .begin g → ControlRequest g)
    (hstep : p.step? x = some q) : Chronicle s₀ q := by
  obtain ⟨hkept, hok⟩ := Pool.step_inv (M := identityServer) Sql.kept_invariant h.ok h.kept
    (fun g hg => (hx g hg).keeps) hstep
  exact ⟨hkept, hok⟩

/-- **All that a step does to the tables**: nothing, or it commits a transaction. -/
theorem Chronicle.turns (h : Chronicle s₀ p) (hstep : p.step? x = some q) :
    (committing? p x = none ∧ q.state.db.current = p.state.db.current) ∨
      ∃ o tx, committing? p x = some o ∧ AuditedCommit o.did ∧
        (Commit.transaction tx o.began o.did : Commit identity).Turns
          p.state.db.current q.state.db.current := by
  rcases Pool.step_cases hstep with ⟨g, rfl, rfl⟩ | ⟨i, f, k, rfl, hi, rfl⟩ |
    ⟨i, f, c, k, r, w, rfl, hi, hs, rfl⟩ | ⟨m, w, rfl, hm, rfl⟩
  · exact Or.inl ⟨rfl, rfl⟩
  · refine Or.inl ⟨?_, rfl⟩
    unfold committing?
    simp [hi]
  · have hallow := (h.ok.keeps i _ hi).1
    -- a call that does not land leaves the tables
    by_cases hf : f.Lands
    case neg =>
      rcases Async.Machine.serve_state hs with ⟨hland, -⟩ | ⟨-, rfl⟩
      · exact absurd hland hf
      · refine Or.inl ⟨?_, rfl⟩
        unfold committing?
        simp [hf]
    have hcommitting : committing? p (.turn i f) = committed? p.state c := by
      simp only [committing?, if_pos hf, hi]
    rcases Async.Machine.serve_state hs with ⟨-, a, ha⟩ | ⟨hland, -⟩
    case inr => exact absurd hf hland
    cases c with
    | connect => cases ha; exact Or.inl ⟨hcommitting, rfl⟩
    | close => cases ha; exact Or.inl ⟨hcommitting, rfl⟩
    | start => cases ha; exact Or.inl ⟨hcommitting, rfl⟩
    | rollback tx => cases ha; exact Or.inl ⟨hcommitting, rfl⟩
    | run tx c =>
      obtain ⟨⟨b, db⟩, hrun, he⟩ := Option.map_eq_some_iff.1 ha
      cases he
      obtain ⟨o, s, t, -, -, -, -, rfl⟩ := Sql.Database.run_cases hrun
      exact Or.inl ⟨hcommitting, rfl⟩
    | commit tx =>
      obtain ⟨db, hcom, he⟩ := Option.map_eq_some_iff.1 ha
      cases he
      obtain ⟨ds, hds, hcomplete⟩ := hallow
      obtain ⟨o, s, ho, -, hdb⟩ := Sql.Database.commit_cases hcom
      obtain ⟨began, hist, hturns⟩ := h.kept.committed hds hcom
      rw [hdb] at hist
      have hsame : o.began = began ∧ o.did = ds := by
        have hcons := (List.cons.inj hist).1
        simpa using hcons
      rw [← hsame.1, ← hsame.2] at hturns
      rw [← hsame.2] at hcomplete
      exact Or.inr ⟨o, tx, hcommitting.trans ho, hcomplete, hturns⟩
    | query q => exact hallow.elim
  · refine Or.inl ⟨rfl, ?_⟩
    cases m with
    | elapse d => cases hm; rfl
    | lose tx => cases hm; rfl

/-- **Audit order matches history exactly where every update is in order.** In any interleaving
with any faults, the entry listed first for each relationship shows its current row and no
`updated_at` decreases, throughout the run, exactly if every update that is committed began
after the row it found was updated, or at that time and with nothing to change. -/
theorem audit_order_iff (s₀ : Tables) (now : Timestamp) (supply : ℕ → Drawn)
    (xs : List (Input identityServer)) (p : Pool identityServer) (hs₀ : AuditReplays s₀)
    (hstamped : Stamped s₀) (hfirst : FirstIsCurrent s₀)
    (hx : ∀ q, Input.begin q ∈ xs → ControlRequest q)
    (h : (Pool.init (Sql.Server.start (S := identity) s₀ now supply)).run? xs = some p) :
    ((Pool.init (Sql.Server.start (S := identity) s₀ now supply)).Always
        (fun w : Sql.Server identity Drawn => FirstIsCurrent w.db.current) xs ∧
      (Pool.init (Sql.Server.start (S := identity) s₀ now supply)).Throughout
        (fun w w' : Sql.Server identity Drawn => NeverEarlier w.db.current w'.db.current) xs) ↔
    (Pool.init (Sql.Server.start (S := identity) s₀ now supply)).Along InOrder xs := by
  have hstart : Chronicle s₀ (Pool.init (Sql.Server.start (S := identity) s₀ now supply)) :=
    ⟨Sql.kept_start now supply, Pool.init_ok _⟩
  have hbegin : ∀ x ∈ xs, ∀ g, x = .begin g → ControlRequest g := by
    rintro x hxs g rfl
    exact hx g hxs
  have hreplays : ∀ {p : Pool identityServer}, Chronicle s₀ p → AuditReplays p.state.db.current :=
    fun hp => serial_replays hs₀ hp.kept.allowed hp.kept.sound.serial
  have hstamps : ∀ {p : Pool identityServer}, Chronicle s₀ p → Stamped p.state.db.current :=
    fun hp => serial_stamped hstamped hp.kept.allowed hp.kept.sound.serial
  -- a turn that commits keeps the first entry current exactly where it is in order
  have halways := Pool.always_iff_along (M := identityServer) (I := Chronicle s₀)
    (J := fun w : Sql.Server identity Drawn => FirstIsCurrent w.db.current) (C := InOrder)
    (fun p x q (hok : ∀ g, x = .begin g → ControlRequest g) hI hstep => hI.step hok hstep)
    (fun p x q hI hJ hstep => ?_) hbegin hstart hfirst h
  · have hthroughout := (Pool.throughout_iff_along (M := identityServer)
      (R := fun w w' : Sql.Server identity Drawn => NeverEarlier w.db.current w'.db.current)
      (fun w => NeverEarlier.refl _) (fun _ _ _ h h' => h.trans h') h).2
    rw [halways]
    refine ⟨fun hboth => hboth.1, fun hal => ⟨hal, hthroughout ?_⟩⟩
    refine Pool.along_of_inv (I := Chronicle s₀)
      (fun p x q (hok : ∀ g, x = .begin g → ControlRequest g) hI hstep => hI.step hok hstep)
      (fun p x hI hC q hstep => ?_) hbegin hstart hal
    rcases hI.turns hstep with ⟨-, hsame⟩ | ⟨o, tx, ho, hdid, hturns⟩
    · rw [hsame]
      exact NeverEarlier.refl _
    · exact neverEarlier_turns (relationship_turn hdid hturns) (hC o ho)
  · have hC : ∀ {o}, committing? p x = some o → (InOrder p x ↔ Later o.began o.did) := by
      intro o ho
      unfold InOrder
      simp [ho]
    rcases hI.turns hstep with ⟨hnone, hsame⟩ | ⟨o, tx, ho, hdid, hturns⟩
    · rw [hsame]
      unfold InOrder
      simp [hnone, hJ]
    · rw [hC ho, firstIsCurrent_iff (replays_turns hdid hturns (hreplays hI))]
      exact first_turns (relationship_turn hdid hturns) (hreplays hI) (hstamps hI)
        ((firstIsCurrent_iff (hreplays hI)).1 hJ)

/-! ### Two orders -/

theorem emptyTables_stamped : Stamped emptyTables := fun _ hrow => absurd hrow (Sql.Table.not_mem_empty _)

theorem emptyTables_first : FirstIsCurrent emptyTables := fun id record hget => by cases hget

/-- The update that began first is committed last: `updated_at` decreases, and the entry of the
other is listed before that of the current row. -/
theorem overtaking_out_of_order : (∀ q, Input.begin q ∈ overtaking → ControlRequest q) ∧
    ∃ p : Pool identityServer,
      (Pool.init (Sql.Server.start (S := identity) emptyTables 0 overtakingSupply)).run? overtaking = some p ∧
      ¬ FirstIsCurrent p.state.db.current ∧
      ¬ (Pool.init (Sql.Server.start (S := identity) emptyTables 0 overtakingSupply)).Throughout
        (fun w w' : Sql.Server identity Drawn => NeverEarlier w.db.current w'.db.current) overtaking := by
  refine ⟨overtaking_requests, ?_⟩
  have hrun : ∃ (p : Pool identityServer) (a b c : AuditLogRow AuditState) (r r' : CopyRelationshipRow),
      (Pool.init (Sql.Server.start (S := identity) emptyTables 0 overtakingSupply)).run? overtaking = some p ∧
      entriesOf p.state.db.current (.copyRelationship ⟨10⟩) = [a, b, c] ∧
      (a.occurredAt = 0 ∧ b.occurredAt = 2 ∧ c.occurredAt = 1) ∧
      p.state.db.current.copyRelationships.get ⟨10⟩ = some r ∧
      b.afterState = some (.copyRelationship r') ∧ r.updatedAt = 1 ∧ r'.updatedAt = 2 :=
    ⟨_, _, _, _, _, _, rfl, rfl, ⟨rfl, rfl, rfl⟩, rfl, rfl, rfl, rfl⟩
  obtain ⟨p, a, b, c, r, r', hp, hentries, ⟨ha, hb, hc⟩, hget, hafter, hr, hr'⟩ := hrun
  refine ⟨p, hp, fun hfirst => ?_, fun hthroughout => ?_⟩
  · have hdescending : Sql.Descending AuditLogRow.occurredAt [a, b, c] [b, c, a] := by
      have hperm : ([b, c] ++ [a]).Perm ([a] ++ [b, c]) := List.perm_append_comm
      refine ⟨hperm, ?_⟩
      simp [ha, hb, hc]
    obtain ⟨row, hrow, hshown⟩ := hfirst ⟨10⟩ r hget 100 (by omega) [b, c, a]
      ⟨[b, c, a], by rwa [listed_eq, hentries], rfl⟩
    have heq : b = row := by simpa using hrow
    rw [← heq, hafter] at hshown
    have hsame : r' = r := AuditState.copyRelationship.inj (Option.some.inj hshown)
    rw [hsame, hr] at hr'
    cases hr'
  · have hsplit : ∃ (p₁ p₂ : Pool identityServer) (r₁ r₂ : CopyRelationshipRow),
        (Pool.init (Sql.Server.start (S := identity) emptyTables 0 overtakingSupply)).run?
          (overtaking.take 23) = some p₁ ∧ p₁.run? (overtaking.drop 23) = some p₂ ∧
        p₁.state.db.current.copyRelationships.get ⟨10⟩ = some r₁ ∧
        p₂.state.db.current.copyRelationships.get ⟨10⟩ = some r₂ ∧
        r₁.updatedAt = 2 ∧ r₂.updatedAt = 1 := ⟨_, _, _, _, rfl, rfl, rfl, rfl, rfl, rfl⟩
    obtain ⟨p₁, p₂, r₁, r₂, h₁, h₂, hget₁, hget₂, hr₁, hr₂⟩ := hsplit
    have hnever := hthroughout (overtaking.take 23) (overtaking.drop 23) [] p₁ p₂
      (by rw [List.append_nil, List.take_append_drop]) h₁ h₂
    obtain ⟨r₃, hget₃, hle⟩ := hnever ⟨10⟩ r₁ hget₁
    have heq : r₃ = r₂ := Option.some.inj (hget₃.symm.trans hget₂)
    rw [heq, hr₁, hr₂] at hle
    exact absurd hle (by decide)

/-- A relationship is created, and updated later. -/
def following : List (Input identityServer) :=
  .begin (CopyRelationships.create wildcardPayload environmentAdminPrincipal >>= fun _ => pure ()) ::
  List.replicate 8 (.turn 0 .works) ++
  [.begin (CopyRelationships.update ⟨10⟩ slippagePayload environmentAdminPrincipal >>= fun _ => pure ()),
    .move (.elapse 1)] ++ List.replicate 8 (.turn 1 .works)

theorem following_requests (q : Prog IdentityApi Unit) (hq : Input.begin q ∈ following) :
    ControlRequest q := by
  have hq : q = (CopyRelationships.create wildcardPayload environmentAdminPrincipal >>= fun _ => pure ()) ∨
      q = (CopyRelationships.update ⟨10⟩ slippagePayload environmentAdminPrincipal >>= fun _ => pure ()) := by
    simpa [following] using hq
  rcases hq with rfl | rfl
  · exact .createCopyRelationship _ _
  · exact .updateCopyRelationship _ _ _

theorem audit_order_iff_following :
    (Pool.init (Sql.Server.start (S := identity) emptyTables 0 overtakingSupply)).Always
        (fun w : Sql.Server identity Drawn => FirstIsCurrent w.db.current) following ∧
      (Pool.init (Sql.Server.start (S := identity) emptyTables 0 overtakingSupply)).Throughout
        (fun w w' : Sql.Server identity Drawn => NeverEarlier w.db.current w'.db.current) following := by
  have hrun : ∃ p : Pool identityServer,
      (Pool.init (Sql.Server.start (S := identity) emptyTables 0 overtakingSupply)).run? following = some p :=
    ⟨_, rfl⟩
  obtain ⟨p, hp⟩ := hrun
  refine (audit_order_iff emptyTables 0 overtakingSupply following p emptyTables_replays
    emptyTables_stamped emptyTables_first following_requests hp).2 ?_
  decide

end CopyTrade
