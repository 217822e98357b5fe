import CopyTrade.Proof.Durability

/-!
# No update is lost

Updates of a copy relationship, or of an exchange account, that overlap in any way: each that has
returned was applied to the row as the commits before it left it, and the row is what the commits
since have made of that.

* `exec_rows`: what a statement does to the two tables.
* `relationships`, `accounts`: what of it is the update of a row.
* `UpdateStands`, `update_stands`: what became of an update that was answered, of a row of any such
  table; `updates_stand`: of both.
-/

namespace CopyTrade

open Async (Input Pool Prog)
open Identity
open Sql (Commit Did OwnCommit RowStep Updating)

/-! ## What a statement does to the two tables -/

/-- The copy relationship that a statement updates. -/
def relationshipUpdate (now : Timestamp) :
    Did identity → Option (UUID × (CopyRelationshipRow → CopyRelationshipRow))
  | ⟨.updateCopyRelationship id payload, some _⟩ => some (id, assign now payload)
  | _ => none

/-- The exchange account that a statement updates. -/
def accountUpdate (now : Timestamp) :
    Did identity → Option (UUID × (ExchangeAccountRecord → ExchangeAccountRecord))
  | ⟨.updateExchangeAccount id payload, some _⟩ => some (id, assignAccount now payload)
  | _ => none

variable {now : Timestamp} {s t : Tables} {id : UUID}

/-- Neither table is touched. -/
theorem rows_same {d : Did identity} (hr : relationshipUpdate now d = none)
    (ha : accountUpdate now d = none) (hrows : t.copyRelationships = s.copyRelationships)
    (hrows' : t.exchangeAccounts = s.exchangeAccounts) :
    RowStep (relationshipUpdate now d) s.copyRelationships t.copyRelationships ∧
      RowStep (accountUpdate now d) s.exchangeAccounts t.exchangeAccounts :=
  ⟨.same hr hrows, .same ha hrows'⟩

/-- **A statement** inserts a row into one of them, or updates one, or touches neither. -/
theorem exec_rows {d : Did identity} (h : exec d.stmt now s = some (d.answer, t)) :
    RowStep (relationshipUpdate now d) s.copyRelationships t.copyRelationships ∧
      RowStep (accountUpdate now d) s.exchangeAccounts t.exchangeAccounts := by
  obtain ⟨c, a⟩ := d
  have heff : Effect now s t c a := exec_effect h
  cases c with
  | insertCopyRelationship id payload =>
    obtain ⟨-, u, hu, rfl⟩ := heff
    exact ⟨.inserted a rfl hu, .same rfl rfl⟩
  | updateCopyRelationship id payload =>
    cases a with
    | none => exact rows_same rfl rfl (exec_plain h rfl ▸ rfl) (exec_plain h rfl ▸ rfl)
    | some after =>
      obtain ⟨-, u, hu, rfl⟩ := heff
      exact ⟨.updated id _ rfl (keepsId_assign now payload) hu, .same rfl rfl⟩
  | insertExchangeAccount id payload =>
    obtain ⟨-, -, u, hu, rfl⟩ := heff
    exact ⟨.same rfl rfl, .inserted a rfl hu⟩
  | updateExchangeAccount id payload =>
    cases a with
    | none => exact rows_same rfl rfl (exec_plain h rfl ▸ rfl) (exec_plain h rfl ▸ rfl)
    | some after =>
      obtain ⟨-, u, hu, rfl⟩ := heff
      exact ⟨.same rfl rfl, .updated id _ rfl (keepsId_assignAccount now payload) hu⟩
  | insertAdminCredential id userId tokenHash tokenPrefix =>
    obtain ⟨-, u, -, rfl⟩ := heff
    exact rows_same rfl rfl rfl rfl
  | deactivateAdminCredential id =>
    obtain ⟨-, u, -, rfl⟩ := heff
    exact rows_same rfl rfl rfl rfl
  | insertSession id userId sessionTokenHash csrfTokenHash expiresAt =>
    obtain ⟨u, -, rfl⟩ := heff
    exact rows_same rfl rfl rfl rfl
  | insertAuditLog id entry =>
    obtain ⟨u, -, rfl⟩ := heff
    exact rows_same rfl rfl rfl rfl
  | upsertActiveUser id email displayName =>
    obtain ⟨u, rfl⟩ := heff
    exact rows_same rfl rfl rfl rfl
  | insertUserRole userId roleId =>
    obtain ⟨u, rfl⟩ := heff
    exact rows_same rfl rfl rfl rfl
  | upsertPasswordCredential id userId passwordHash =>
    obtain ⟨u, rfl⟩ := heff
    exact rows_same rfl rfl rfl rfl
  | updatePasswordLastUsed id =>
    obtain ⟨u, rfl⟩ := heff
    exact rows_same rfl rfl rfl rfl
  | selectAdminRoleId name =>
    cases heff
    exact rows_same rfl rfl rfl rfl
  | _ =>
    obtain ⟨-, rfl⟩ := heff
    exact rows_same rfl rfl rfl rfl

/-- The statement that updates a copy relationship, and what it assigns. -/
theorem relationshipUpdate_eq_some {d : Did identity} {f : CopyRelationshipRow → CopyRelationshipRow}
    (h : relationshipUpdate now d = some (id, f)) : ∃ payload after,
      d = ⟨.updateCopyRelationship id payload, some after⟩ ∧ f = assign now payload := by
  obtain ⟨c, a⟩ := d
  cases c with
  | updateCopyRelationship id' payload =>
    cases a with
    | none => cases h
    | some after =>
      cases h
      exact ⟨payload, after, rfl, rfl⟩
  | _ => cases h

/-- The statement that updates an exchange account, and what it assigns. -/
theorem accountUpdate_eq_some {d : Did identity} {f : ExchangeAccountRecord → ExchangeAccountRecord}
    (h : accountUpdate now d = some (id, f)) : ∃ payload after,
      d = ⟨.updateExchangeAccount id payload, some after⟩ ∧ f = assignAccount now payload := by
  obtain ⟨c, a⟩ := d
  cases c with
  | updateExchangeAccount id' payload =>
    cases a with
    | none => cases h
    | some after =>
      cases h
      exact ⟨payload, after, rfl, rfl⟩
  | _ => cases h

theorem relationshipUpdate_plain (now : Timestamp) (d : Did identity)
    (hd : ¬ identity.pinned d.stmt d.answer = true) : relationshipUpdate now d = none := by
  cases h : relationshipUpdate now d with
  | none => rfl
  | some update =>
    obtain ⟨payload, after, rfl, -⟩ := relationshipUpdate_eq_some h
    exact absurd rfl hd

theorem accountUpdate_plain (now : Timestamp) (d : Did identity)
    (hd : ¬ identity.pinned d.stmt d.answer = true) : accountUpdate now d = none := by
  cases h : accountUpdate now d with
  | none => rfl
  | some update =>
    obtain ⟨payload, after, rfl, -⟩ := accountUpdate_eq_some h
    exact absurd rfl hd

/-- The copy relationships. -/
def relationships : Updating identity CopyRelationshipRow UUID where
  table := Tables.copyRelationships
  update := relationshipUpdate
  plain := relationshipUpdate_plain
  step h := (exec_rows h).1
  query h := congrArg Administered.copyRelationships (query_administered h)

/-- The exchange accounts. -/
def accounts : Updating identity ExchangeAccountRecord UUID where
  table := Tables.exchangeAccounts
  update := accountUpdate
  plain := accountUpdate_plain
  step h := (exec_rows h).2
  query h := congrArg Administered.exchangeAccounts (query_administered h)

/-! ## What the commit of an update does to its row -/

section

variable {crypto : Crypto} {k : UUID} {did : List (Did identity)} {tx : ℕ} {began : Timestamp}

theorem relationship_assigned {payload : CopyRelationshipUpdate}
    (hdid : GuardedOperation.Commits crypto (.updateCopyRelationship k payload) did)
    (hturns : (Commit.transaction tx began did : Commit identity).Turns s t) :
    ∃ before, s.copyRelationships.get k = some before ∧
      t.copyRelationships.get k = some (assign began payload before) := by
  obtain ⟨before, after, aid, principal, rfl⟩ := hdid
  obtain ⟨held, hruns⟩ := hturns
  obtain ⟨hget, hafter, hput, -⟩ := runs_updateCopyRelationship hruns
  rw [hafter] at hput
  exact ⟨before, hget, hput⟩

theorem account_assigned {payload : ExchangeAccountUpdate}
    (hdid : GuardedOperation.Commits crypto (.admin (.updateExchangeAccount k payload)) did)
    (hturns : (Commit.transaction tx began did : Commit identity).Turns s t) :
    ∃ before, s.exchangeAccounts.get k = some before ∧
      t.exchangeAccounts.get k = some (assignAccount began payload before) := by
  obtain ⟨before, after, aid, principal, rfl⟩ := hdid
  obtain ⟨held, hruns⟩ := hturns
  obtain ⟨hget, hafter, hput⟩ := runs_updateExchangeAccount hruns
  rw [hafter] at hput
  exact ⟨before, hget, hput⟩

end

/-! ## Any interleaving -/

section

variable {Row Entry : Type} [Sql.Constrained Row] [Sql.Keyed Row UUID Entry]
  {crypto : Crypto} {settings : Settings} {sessionTtlMinutes : ℤ} {s₀ : Tables}
  {supply : ℕ → Drawn} {xs : List (Input identityServer)} {p : Pool identityServer} {i : ℕ}
  {request : AdmissionRequest} {operation : GuardedOperation}

/-- What became of an update of the row `k` that execution `i` was answered: it is a commit of its own, was
applied to the row as the commits before it left it, and the row is what the commits since have made of
that. -/
def UpdateStands (U : Updating identity Row UUID) (k : UUID) (assigned : Timestamp → Row → Row)
    (commits : List (Did identity) → Prop) (w : Sql.Server identity Drawn)
    (xs : List (Input identityServer)) (p : Pool identityServer) (i : ℕ) : Prop :=
  ∃ newer tx began did p₁ p₂ before, OwnCommit w xs p i (.transaction tx began did) p₁ p₂ ∧ commits did ∧
    p.state.db.history = newer ++ .transaction tx began did :: p₁.state.db.history ∧
    (U.table p₁.state.db.current).get k = some before ∧
    (U.table p₂.state.db.current).get k = some (assigned began before) ∧
    (U.amending k).Stands newer (assigned began before) p.state.db.current

/-- **An update that has returned**, where its commit assigns the row. -/
theorem update_stands {U : Updating identity Row UUID} {k : UUID} {assigned : Timestamp → Row → Row}
    (hassigns : ∀ did tx began s t, operation.Commits crypto did →
      (Commit.transaction tx began did : Commit identity).Turns s t →
      ∃ before, (U.table s).get k = some before ∧ (U.table t).get k = some (assigned began before))
    (hwrites : operation.actions ≠ [])
    (hx : ∀ q, Input.begin q ∈ xs → ∃ r : ApiRequest, q = r.program crypto settings sessionTtlMinutes)
    (h : (Pool.init (Sql.Server.start (S := identity) s₀ now supply)).run? xs = some p)
    (hi : (Async.begun xs)[i]? = some
      ((ApiRequest.guarded request operation).program crypto settings sessionTtlMinutes))
    (hdone : p.running[i]? = some (.done ())) :
    UpdateStands U k assigned (operation.Commits crypto)
      (Sql.Server.start (S := identity) s₀ now supply) xs p i := by
  obtain ⟨did, hnote, hdid⟩ := request_committed h hi hdone hwrites
  obtain ⟨tx, began, p₁, p₂, hown⟩ := Sql.own_commit (requests_booked hx) h hnote
  obtain ⟨before, hbefore, hafter⟩ := hassigns did tx began _ _ hdid hown.turns
  have hread : (U.amending k).read p₂.state.db.current = some (assigned began before) := hafter
  obtain ⟨newer, hist, hstands⟩ := hown.stands hread
  exact ⟨newer, tx, began, did, p₁, p₂, before, hown, hdid, hist, hbefore, hafter, hstands⟩

end

/-- **No update is lost**, in any interleaving of API requests with any faults. An update of a copy
relationship, or of an exchange account, that has returned is a commit of its own execution: it was applied
to the row as the commits before it left it, and the row is what the commits since, in their order, have
made of that; what none of them changes is as the update left it. -/
theorem updates_stand (crypto : Crypto) (settings : Settings) (sessionTtlMinutes : ℤ) (s₀ : Tables)
    (now : Timestamp) (supply : ℕ → Drawn) (xs : List (Input identityServer)) (p : Pool identityServer)
    (hx : ∀ q, Input.begin q ∈ xs → ∃ r : ApiRequest, q = r.program crypto settings sessionTtlMinutes)
    (h : (Pool.init (Sql.Server.start (S := identity) s₀ now supply)).run? xs = some p) (i : ℕ)
    (request : AdmissionRequest) (k : UUID) (hdone : p.running[i]? = some (.done ())) :
    (∀ payload, (Async.begun xs)[i]? = some ((ApiRequest.guarded request
        (.updateCopyRelationship k payload)).program crypto settings sessionTtlMinutes) →
      UpdateStands relationships k (fun began => assign began payload)
        (GuardedOperation.Commits crypto (.updateCopyRelationship k payload))
        (Sql.Server.start (S := identity) s₀ now supply) xs p i) ∧
    ∀ payload, (Async.begun xs)[i]? = some ((ApiRequest.guarded request
        (.admin (.updateExchangeAccount k payload))).program crypto settings sessionTtlMinutes) →
      UpdateStands accounts k (fun began => assignAccount began payload)
        (GuardedOperation.Commits crypto (.admin (.updateExchangeAccount k payload)))
        (Sql.Server.start (S := identity) s₀ now supply) xs p i := by
  refine ⟨fun payload hi => ?_, fun payload hi => ?_⟩
  · exact update_stands (fun did tx began s t => relationship_assigned) (List.cons_ne_nil _ _) hx h hi hdone
  · exact update_stands (fun did tx began s t => account_assigned) (List.cons_ne_nil _ _) hx h hi hdone

/-! ### One update waits for another -/

/-- A copy relationship is created, and updated twice. -/
def updateRequests : List ApiRequest :=
  [.guarded tokenRequest (.createCopyRelationship wildcardPayload),
    .guarded tokenRequest (.updateCopyRelationship ⟨10⟩ slippagePayload),
    .guarded tokenRequest (.updateCopyRelationship ⟨10⟩ pausePayload)]

/-- The first update has begun its transaction when the second one overtakes it. -/
def updateRun : List (Input identityServer) :=
  updateRequests.map (fun r => .begin (r.program sampleCrypto closedSettings 60)) ++
    List.replicate 12 (.turn 0 .works) ++ List.replicate 6 (.turn 1 .works) ++ [.move (.elapse 1)] ++
    List.replicate 12 (.turn 2 .works) ++ List.replicate 6 (.turn 1 .works)

theorem updateRun_requests (q : Prog IdentityApi Unit) (hq : Input.begin q ∈ updateRun) :
    ∃ r : ApiRequest, q = r.program sampleCrypto closedSettings 60 := by
  have hmem : Input.begin q ∈ updateRequests.map fun r =>
      (.begin (r.program sampleCrypto closedSettings 60) : Input identityServer) := by
    simpa [updateRun] using hq
  obtain ⟨r, -, he⟩ := List.mem_map.1 hmem
  exact ⟨r, (Input.begin.inj he).symm⟩

theorem updates_stand_sample : ∃ p : Pool identityServer,
    (Pool.init (Sql.Server.start (S := identity) bookedAdmin 0 adminSupply)).run? updateRun = some p ∧
    UpdateStands relationships ⟨10⟩ (fun began => assign began pausePayload)
      (GuardedOperation.Commits sampleCrypto (.updateCopyRelationship ⟨10⟩ pausePayload))
      (Sql.Server.start (S := identity) bookedAdmin 0 adminSupply) updateRun p 2 := by
  have hrun : ∃ p : Pool identityServer,
      (Pool.init (Sql.Server.start (S := identity) bookedAdmin 0 adminSupply)).run? updateRun = some p ∧
      p.running[2]? = some (.done ()) := ⟨_, rfl, rfl⟩
  obtain ⟨p, hp, hdone⟩ := hrun
  have hstands := updates_stand sampleCrypto closedSettings 60 bookedAdmin 0 adminSupply updateRun p
    updateRun_requests hp 2 tokenRequest ⟨10⟩ hdone
  exact ⟨p, hp, hstands.1 pausePayload rfl⟩

end CopyTrade
