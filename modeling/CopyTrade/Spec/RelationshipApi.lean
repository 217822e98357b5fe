import CopyTrade.Spec.Events
import CopyTrade.Sql.Column
import CopyTrade.Sql.Table

/-!
# The relationship endpoints

The table `copy_relationships` with its unique index, and `POST` and `PATCH` of
`/admin/copy-relationships` as steps on it. There is no endpoint that deletes a row.

* `reachable_rows`: what the payload checks leave true of every stored row, along every
  sequence of requests.
* `unique_active_route`: two active rows of one table that agree in source, follower and
  target differ in their symbol, and the index counts a missing symbol as one more.

A refused request rolls its transaction back, the audit row included, and leaves the
table as it was. The audit log, which no relationship statement reads, is left out.
-/

namespace CopyTrade

/-- A row of `copy_relationships`, and the columns of a `CopyRelationshipRecord`. -/
structure CopyRelationshipRow where
  id : UUID
  sourceExchange : Exchange
  sourceAccountId : String
  sourceSymbol : Option String
  followerAccountId : String
  targetExchange : Exchange
  targetSymbol : String
  maxSlippageBps : ℤ
  active : Bool
  effectiveFrom : Timestamp
  createdAt : Timestamp
  updatedAt : Timestamp
  max_slippage_non_negative : 0 ≤ maxSlippageBps
  deriving DecidableEq

namespace CopyRelationshipRow

/-- The columns of `uq_copy_relationships_active_route`. -/
def route (r : CopyRelationshipRow) : Exchange × String × String × String × Exchange × String :=
  (r.sourceExchange, r.sourceAccountId, r.sourceSymbol.getD "", r.followerAccountId,
    r.targetExchange, r.targetSymbol)

/-- The account and symbol an order of the follower goes to. -/
def target (r : CopyRelationshipRow) : Exchange × String × String :=
  (r.targetExchange, r.followerAccountId, r.targetSymbol)

end CopyRelationshipRow

instance : Sql.Constrained CopyRelationshipRow where
  Clash a b := a.id = b.id ∨ (a.active = true ∧ b.active = true ∧ a.route = b.route)
  clash_symm h := h.imp Eq.symm fun ⟨ha, hb, hr⟩ => ⟨hb, ha, hr.symm⟩
  decidable _ _ := inferInstanceAs (Decidable (_ ∨ _))

abbrev Relationships := Sql.Table CopyRelationshipRow

/-- The unique index, with a missing symbol as one more value of its column. -/
theorem unique_active_route {t : Relationships} {a b : CopyRelationshipRow} (ha : a ∈ t) (hb : b ∈ t)
    (haa : a.active = true) (hba : b.active = true) (he : a.sourceExchange = b.sourceExchange)
    (hs : a.sourceAccountId = b.sourceAccountId) (ht : a.target = b.target)
    (hsym : a.sourceSymbol = b.sourceSymbol) : a = b := by
  refine Sql.Table.eq_of_clash ha hb (Or.inr ⟨haa, hba, ?_⟩)
  simp only [CopyRelationshipRow.target, Prod.mk.injEq] at ht
  simp only [CopyRelationshipRow.route, Prod.mk.injEq]
  exact ⟨he, hs, by rw [hsym], ht.2.1, ht.1, ht.2.2⟩

/-! ## Payloads -/

structure CopyRelationshipCreate where
  sourceExchange : Exchange
  sourceAccountId : String
  sourceSymbol : Option String := none
  followerAccountId : String
  targetExchange : Exchange
  targetSymbol : String
  maxSlippageBps : ℤ := 100
  active : Bool := true
  effectiveFrom : Timestamp
  sourceAccountId_length : 1 ≤ sourceAccountId.length ∧ sourceAccountId.length ≤ 128
  sourceSymbol_length : ∀ s ∈ sourceSymbol, 1 ≤ s.length ∧ s.length ≤ 64
  followerAccountId_length : 1 ≤ followerAccountId.length ∧ followerAccountId.length ≤ 128
  targetSymbol_length : 1 ≤ targetSymbol.length ∧ targetSymbol.length ≤ 64
  maxSlippageBps_range : 0 ≤ maxSlippageBps ∧ maxSlippageBps ≤ 1000

structure CopyRelationshipUpdate where
  active : Option Bool := none
  maxSlippageBps : Option ℤ := none
  maxSlippageBps_range : ∀ m ∈ maxSlippageBps, 0 ≤ m ∧ m ≤ 1000
  at_least_one_change : active ≠ none ∨ maxSlippageBps ≠ none

/-! ## `PostgresCopyRelationshipRepository` -/

def duplicateCopyRelationshipError : PyException := ⟨"DuplicateCopyRelationshipError"⟩

/-- What PostgreSQL raises for U+0000 in a text. -/
def characterNotInRepertoireError : PyException := ⟨"CharacterNotInRepertoireError"⟩

/-- The row of `CREATE_COPY_RELATIONSHIP_SQL`; `none` where a column refuses its value. -/
def relationshipRow? (uuid4 : UUID) (now : Timestamp) (payload : CopyRelationshipCreate) :
    Option CopyRelationshipRow := do
  let sourceAccountId ← Sql.text? payload.sourceAccountId
  let sourceSymbol ← Sql.nullable Sql.text? payload.sourceSymbol
  let followerAccountId ← Sql.text? payload.followerAccountId
  let targetSymbol ← Sql.text? payload.targetSymbol
  some {
    id := uuid4
    sourceExchange := payload.sourceExchange
    sourceAccountId := sourceAccountId
    sourceSymbol := sourceSymbol
    followerAccountId := followerAccountId
    targetExchange := payload.targetExchange
    targetSymbol := targetSymbol
    maxSlippageBps := payload.maxSlippageBps
    active := payload.active
    effectiveFrom := payload.effectiveFrom
    createdAt := now
    updatedAt := now
    max_slippage_non_negative := payload.maxSlippageBps_range.1 }

/-- `create`: the record, and the table after it. -/
def create (uuid4 : UUID) (now : Timestamp) (payload : CopyRelationshipCreate)
    (t : Relationships) : Except PyException (CopyRelationshipRow × Relationships) :=
  match relationshipRow? uuid4 now payload with
  | none => .error characterNotInRepertoireError
  | some row =>
    match t.insert? row with
    | none => .error duplicateCopyRelationshipError
    | some t' => .ok (row, t')

/-- The assignments of an update, on one row. -/
def assign (now : Timestamp) (payload : CopyRelationshipUpdate) (r : CopyRelationshipRow) :
    CopyRelationshipRow :=
  { r with
    active := payload.active.getD r.active
    maxSlippageBps := payload.maxSlippageBps.getD r.maxSlippageBps
    updatedAt := now
    max_slippage_non_negative := by
      cases h : payload.maxSlippageBps with
      | none => exact r.max_slippage_non_negative
      | some m => exact (payload.maxSlippageBps_range m h).1 }

def get (relationshipId : UUID) (t : Relationships) : Option CopyRelationshipRow :=
  t.rows.find? fun r => r.id == relationshipId

/-- `update`: the record, or `none` where there is none with this id. -/
def update (now : Timestamp) (relationshipId : UUID) (payload : CopyRelationshipUpdate)
    (t : Relationships) : Except PyException (Option CopyRelationshipRow × Relationships) :=
  if payload.active = none ∧ payload.maxSlippageBps = none then .ok (get relationshipId t, t)
  else
    match get relationshipId t with
    | none => .ok (none, t)
    | some _before =>
      match t.updateWhere? (fun r => r.id == relationshipId) (assign now payload) with
      | none => .error duplicateCopyRelationshipError
      | some t' => .ok (get relationshipId t', t')

/-! ## The router -/

structure Response where
  statusCode : ℕ
  detail : Option String := none
  record : Option CopyRelationshipRow := none

def internalServerError : Response := { statusCode := 500 }

/-- How both endpoints answer what the repository raised. -/
def errorResponse (e : PyException) : Response :=
  if e = duplicateCopyRelationshipError then
    { statusCode := 409, detail := some "active copy relationship already exists" }
  else internalServerError

def createCopyRelationship (uuid4 : UUID) (now : Timestamp) (payload : CopyRelationshipCreate)
    (t : Relationships) : Response × Relationships :=
  match create uuid4 now payload t with
  | .ok (record, t') => ({ statusCode := 201, record := some record }, t')
  | .error e => (errorResponse e, t)

def updateCopyRelationship (now : Timestamp) (relationshipId : UUID)
    (payload : CopyRelationshipUpdate) (t : Relationships) : Response × Relationships :=
  match update now relationshipId payload t with
  | .ok (some record, t') => ({ statusCode := 200, record := some record }, t')
  | .ok (none, t') => ({ statusCode := 404, detail := some "copy relationship not found" }, t')
  | .error e => (errorResponse e, t)

/-- A request to one of the two endpoints. -/
inductive AdminRequest where
  | create (uuid4 : UUID) (now : Timestamp) (payload : CopyRelationshipCreate)
  | update (now : Timestamp) (relationshipId : UUID) (payload : CopyRelationshipUpdate)

def AdminRequest.handle (t : Relationships) : AdminRequest → Response × Relationships
  | .create uuid4 now payload => createCopyRelationship uuid4 now payload t
  | .update now relationshipId payload => updateCopyRelationship now relationshipId payload t

/-- The table after a sequence of requests. -/
def afterRequests (requests : List AdminRequest) (t : Relationships) : Relationships :=
  requests.foldl (fun t request => (request.handle t).2) t

/-- What the two endpoints can make of the empty table. -/
def Reachable (t : Relationships) : Prop := ∃ requests, t = afterRequests requests .empty

/-! ## What every stored row satisfies -/

/-- The payload checks, as they show in a row. -/
structure Checked (r : CopyRelationshipRow) : Prop where
  sourceSymbol : ∀ s ∈ r.sourceSymbol, 1 ≤ s.length
  followerAccountId : 1 ≤ r.followerAccountId.length
  targetSymbol : 1 ≤ r.targetSymbol.length

theorem checked_relationshipRow {uuid4 : UUID} {now : Timestamp} {payload : CopyRelationshipCreate}
    {row : CopyRelationshipRow} (h : relationshipRow? uuid4 now payload = some row) :
    Checked row := by
  unfold relationshipRow? at h
  obtain ⟨sourceAccountId, -, h⟩ := Option.bind_eq_some_iff.1 h
  obtain ⟨sourceSymbol, hs, h⟩ := Option.bind_eq_some_iff.1 h
  obtain ⟨followerAccountId, hf, h⟩ := Option.bind_eq_some_iff.1 h
  obtain ⟨targetSymbol, ht, h⟩ := Option.bind_eq_some_iff.1 h
  cases h
  have hs := Sql.nullable_text_eq_some hs
  have hf := Sql.text_eq_some hf
  have ht := Sql.text_eq_some ht
  subst hs hf ht
  exact ⟨fun s h => (payload.sourceSymbol_length s h).1, payload.followerAccountId_length.1,
    payload.targetSymbol_length.1⟩

/-- An update moves no column that the payload of a create was checked on. -/
theorem Checked.assign {r : CopyRelationshipRow} (h : Checked r) (now : Timestamp)
    (payload : CopyRelationshipUpdate) : Checked (assign now payload r) :=
  ⟨h.sourceSymbol, h.followerAccountId, h.targetSymbol⟩

/-- **All that a create can do to the table.** -/
theorem createCopyRelationship_cases (uuid4 : UUID) (now : Timestamp)
    (payload : CopyRelationshipCreate) (t : Relationships) :
    (createCopyRelationship uuid4 now payload t).2 = t ∨
      ∃ row, relationshipRow? uuid4 now payload = some row ∧
        (createCopyRelationship uuid4 now payload t).2.rows = t.rows ++ [row] := by
  unfold createCopyRelationship create
  cases hrow : relationshipRow? uuid4 now payload with
  | none => exact Or.inl rfl
  | some row =>
    cases hins : t.insert? row with
    | none => exact Or.inl (by simp only [hins])
    | some t' =>
      refine Or.inr ⟨row, rfl, ?_⟩
      simp only [hins]
      exact (Sql.Table.insert_eq_some.1 hins).2

/-- **All that an update can do to the table.** -/
theorem updateCopyRelationship_cases (now : Timestamp) (relationshipId : UUID)
    (payload : CopyRelationshipUpdate) (t : Relationships) :
    (updateCopyRelationship now relationshipId payload t).2 = t ∨
      (updateCopyRelationship now relationshipId payload t).2.rows =
        t.rows.map fun r => if r.id == relationshipId then assign now payload r else r := by
  unfold updateCopyRelationship update
  by_cases hp : payload.active = none ∧ payload.maxSlippageBps = none
  · -- nothing to update: the record is only read
    refine Or.inl ?_
    rw [if_pos hp]
    cases get relationshipId t <;> rfl
  rw [if_neg hp]
  cases get relationshipId t with
  | none => exact Or.inl rfl
  | some before =>
    cases hu : t.updateWhere? (fun r => r.id == relationshipId) (assign now payload) with
    | none => exact Or.inl rfl
    | some t' =>
      have hrows := Sql.Table.updateWhere_eq_some.1 hu
      refine Or.inr ?_
      cases hg : get relationshipId t' with
      | none => simp only [hg]; exact hrows
      | some after => simp only [hg]; exact hrows

/-- One request keeps the checks. -/
theorem checked_handle {t : Relationships} (request : AdminRequest) (h : ∀ r ∈ t, Checked r) :
    ∀ r ∈ (request.handle t).2, Checked r := by
  intro r hr
  cases request with
  | create uuid4 now payload =>
    rcases createCopyRelationship_cases uuid4 now payload t with he | ⟨row, hrow, he⟩
    · exact h r (he ▸ hr)
    · have hr : r ∈ t.rows ++ [row] := he ▸ hr
      rcases List.mem_append.1 hr with hr | hr
      · exact h r hr
      · rw [List.mem_singleton.1 hr]; exact checked_relationshipRow hrow
  | update now relationshipId payload =>
    rcases updateCopyRelationship_cases now relationshipId payload t with he | he
    · exact h r (he ▸ hr)
    · have hr : r ∈ (updateCopyRelationship now relationshipId payload t).2.rows := hr
      rw [he] at hr
      obtain ⟨r₀, hr₀, rfl⟩ := List.mem_map.1 hr
      split
      · exact (h r₀ hr₀).assign now payload
      · exact h r₀ hr₀

/-- **Every row of a reachable table passed the checks of the endpoints.** -/
theorem reachable_rows {t : Relationships} (h : Reachable t) : ∀ r ∈ t, Checked r := by
  obtain ⟨requests, rfl⟩ := h
  suffices ∀ requests (t : Relationships), (∀ r ∈ t, Checked r) →
      ∀ r ∈ afterRequests requests t, Checked r from
    this requests .empty fun r hr => absurd hr (Sql.Table.not_mem_empty r)
  intro requests
  induction requests with
  | nil => intro t h; exact h
  | cons request requests ih => intro t h; exact ih _ (checked_handle request h)

end CopyTrade
