import CopyTrade.Spec.World
import CopyTrade.Sql.Column

/-!
# The execution ledger

The tables `copy_execution_requests` and `copy_execution_results` with their
constraints, and the statements of `PostgresCopyExecutionRequestRecorder` and
`PostgresCopyExecutionResultRecorder` on them. A CHECK of the migration is a field of
its row, a foreign key a field of the ledger, so a ledger that exists satisfies them.

* `record_cases`, `insertResult_cases`: all that the two inserts can do.
* `statusOf_markPublished`, `statusOf_updateRequestFromResult`: what the two updates do.
  They are never refused.
* `statusOf_step`, `results_step`: all that any statement can do to the status of a
  request, and to the results.

The columns `created_at` and `raw_response`, which no modelled statement reads, are left
out.
-/

namespace CopyTrade

inductive RequestStatus where
  | requested
  | published
  | accepted
  | rejected
  | filled
  | failed
  deriving DecidableEq, Repr

/-- The text of a result status is one of a request status. -/
def CopyExecutionStatus.toRequestStatus : CopyExecutionStatus → RequestStatus
  | .accepted => .accepted
  | .rejected => .rejected
  | .filled => .filled
  | .failed => .failed

/-- A row of `copy_execution_requests`. -/
structure RequestRow where
  id : UUID
  schemaVersion : String
  occurredAt : Timestamp
  observedAt : Timestamp
  sourceExchange : Exchange
  sourceAccountId : String
  idempotencyKey : String
  traceId : String
  sourceEventId : UUID
  copyRelationshipId : UUID
  followerAccountId : String
  targetExchange : Exchange
  targetSymbol : String
  orderType : OrderType
  side : OrderSide
  positionSide : PositionSide
  quantity : Decimal
  price : Option Decimal
  triggerPrice : Option Decimal
  reduceOnly : Bool
  postOnly : Bool
  maxSlippageBps : ℤ
  dryRun : Bool
  requestStatus : RequestStatus
  quantity_positive : 0 < quantity
  price_positive : ∀ p ∈ price, 0 < p
  trigger_price_positive : ∀ p ∈ triggerPrice, 0 < p
  max_slippage_non_negative : 0 ≤ maxSlippageBps

/-- A row of `copy_execution_results`. -/
structure ResultRow where
  id : UUID
  schemaVersion : String
  occurredAt : Timestamp
  observedAt : Timestamp
  sourceExchange : Exchange
  sourceAccountId : String
  idempotencyKey : String
  traceId : String
  requestId : UUID
  status : CopyExecutionStatus
  exchangeOrderId : Option String
  rejectReason : Option String
  deriving DecidableEq

instance : Sql.Constrained RequestRow where
  Clash a b := a.id = b.id ∨ a.idempotencyKey = b.idempotencyKey
  clash_symm h := h.imp Eq.symm Eq.symm
  decidable _ _ := inferInstance

instance : Sql.Constrained ResultRow where
  Clash a b := a.id = b.id ∨ a.idempotencyKey = b.idempotencyKey
  clash_symm h := h.imp Eq.symm Eq.symm
  decidable _ _ := inferInstance

/-- The two tables. `relationshipIds` are the ids in `copy_relationships`. -/
structure Postgres where
  relationshipIds : List UUID
  requests : Sql.Table RequestRow
  results : Sql.Table ResultRow
  requests_relationship : ∀ r ∈ requests, r.copyRelationshipId ∈ relationshipIds
  results_request : ∀ r ∈ results, ∃ q ∈ requests, q.id = r.requestId

namespace Postgres

def empty (relationshipIds : List UUID) : Postgres :=
  ⟨relationshipIds, .empty, .empty, fun _ h => absurd h (Sql.Table.not_mem_empty _),
    fun _ h => absurd h (Sql.Table.not_mem_empty _)⟩

/-! ## Rows as the inserts build them -/

/-- The row of `INSERT_COPY_EXECUTION_REQUEST_SQL`; `none` where a column or a CHECK
refuses it. -/
def requestRow? (q : CopyExecutionRequest) : Option RequestRow := do
  let schemaVersion ← Sql.text? q.schemaVersion
  let sourceAccountId ← Sql.text? q.sourceAccountId
  let idempotencyKey ← Sql.text? q.idempotencyKey
  let traceId ← Sql.text? q.traceId
  let followerAccountId ← Sql.text? q.followerAccountId
  let targetSymbol ← Sql.text? q.targetSymbol
  let quantity ← Sql.numeric? 38 18 q.quantity
  let price ← Sql.nullable (Sql.numeric? 38 18) q.price
  let triggerPrice ← Sql.nullable (Sql.numeric? 38 18) q.triggerPrice
  let maxSlippageBps ← Sql.integer? q.maxSlippageBps
  if h : 0 < quantity ∧ (∀ p ∈ price, 0 < p) ∧ (∀ p ∈ triggerPrice, 0 < p) ∧ 0 ≤ maxSlippageBps then
    some {
      id := q.eventId
      schemaVersion := schemaVersion
      occurredAt := q.occurredAt
      observedAt := q.observedAt
      sourceExchange := q.sourceExchange
      sourceAccountId := sourceAccountId
      idempotencyKey := idempotencyKey
      traceId := traceId
      sourceEventId := q.sourceEventId
      copyRelationshipId := q.copyRelationshipId
      followerAccountId := followerAccountId
      targetExchange := q.targetExchange
      targetSymbol := targetSymbol
      orderType := q.orderType
      side := q.side
      positionSide := q.positionSide
      quantity := quantity
      price := price
      triggerPrice := triggerPrice
      reduceOnly := q.reduceOnly
      postOnly := q.postOnly
      maxSlippageBps := maxSlippageBps
      dryRun := q.dryRun
      requestStatus := .requested
      quantity_positive := h.1
      price_positive := h.2.1
      trigger_price_positive := h.2.2.1
      max_slippage_non_negative := h.2.2.2 }
  else none

/-- The row of `INSERT_COPY_EXECUTION_RESULT_SQL`. -/
def resultRow? (r : CopyExecutionResult) : Option ResultRow := do
  let schemaVersion ← Sql.text? r.schemaVersion
  let sourceAccountId ← Sql.text? r.sourceAccountId
  let idempotencyKey ← Sql.text? r.idempotencyKey
  let traceId ← Sql.text? r.traceId
  let exchangeOrderId ← Sql.nullable Sql.text? r.exchangeOrderId
  let rejectReason ← Sql.nullable Sql.text? r.rejectReason
  some {
    id := r.eventId
    schemaVersion := schemaVersion
    occurredAt := r.occurredAt
    observedAt := r.observedAt
    sourceExchange := r.sourceExchange
    sourceAccountId := sourceAccountId
    idempotencyKey := idempotencyKey
    traceId := traceId
    requestId := r.requestId
    status := r.status
    exchangeOrderId := exchangeOrderId
    rejectReason := rejectReason }

/-- What a request row has of its request. -/
structure RowOf (q : CopyExecutionRequest) (row : RequestRow) : Prop where
  id : row.id = q.eventId
  idempotencyKey : row.idempotencyKey = q.idempotencyKey
  copyRelationshipId : row.copyRelationshipId = q.copyRelationshipId
  requestStatus : row.requestStatus = .requested

theorem rowOf_requestRow {q : CopyExecutionRequest} {row : RequestRow}
    (h : requestRow? q = some row) : RowOf q row := by
  -- column by column, in the order of the INSERT
  obtain ⟨_, -, h⟩ := Option.bind_eq_some_iff.1 h
  obtain ⟨_, -, h⟩ := Option.bind_eq_some_iff.1 h
  obtain ⟨key, hkey, h⟩ := Option.bind_eq_some_iff.1 h
  obtain ⟨_, -, h⟩ := Option.bind_eq_some_iff.1 h
  obtain ⟨_, -, h⟩ := Option.bind_eq_some_iff.1 h
  obtain ⟨_, -, h⟩ := Option.bind_eq_some_iff.1 h
  obtain ⟨_, -, h⟩ := Option.bind_eq_some_iff.1 h
  obtain ⟨_, -, h⟩ := Option.bind_eq_some_iff.1 h
  obtain ⟨_, -, h⟩ := Option.bind_eq_some_iff.1 h
  obtain ⟨_, -, h⟩ := Option.bind_eq_some_iff.1 h
  split at h
  · cases h
    exact ⟨rfl, Sql.text_eq_some hkey, rfl, rfl⟩
  · cases h

theorem resultRow_spec {r : CopyExecutionResult} {row : ResultRow} (h : resultRow? r = some row) :
    row.idempotencyKey = r.idempotencyKey ∧ row.requestId = r.requestId ∧ row.status = r.status := by
  simp only [resultRow?, Option.bind_eq_bind, Option.bind_eq_some_iff] at h
  obtain ⟨_, -, _, -, key, hkey, _, -, _, -, _, -, h⟩ := h
  cases h
  exact ⟨Sql.text_eq_some hkey, rfl, rfl⟩

/-! ## Statements -/

/-- The end of a statement: refused where a foreign key breaks. -/
def commit? (requests : Sql.Table RequestRow) (results : Sql.Table ResultRow) (b : Postgres) :
    Option Postgres :=
  if h : (∀ r ∈ requests.rows, r.copyRelationshipId ∈ b.relationshipIds) ∧
      ∀ r ∈ results.rows, ∃ q ∈ requests.rows, q.id = r.requestId then
    some ⟨b.relationshipIds, requests, results, h.1, h.2⟩
  else none

/-- `INSERT_COPY_EXECUTION_REQUEST_SQL`. -/
def record (q : CopyExecutionRequest) (b : Postgres) : Option Postgres := do
  let row ← requestRow? q
  let (requests, _) ← b.requests.insertOrIgnore? (·.idempotencyKey) row
  b.commit? requests b.results

/-- `UPDATE copy_execution_requests SET request_status = …`. -/
def setStatus (p : RequestRow → Bool) (status : RequestStatus) (b : Postgres) : Option Postgres := do
  let requests ← b.requests.updateWhere? p fun r => { r with requestStatus := status }
  b.commit? requests b.results

/-- `MARK_COPY_EXECUTION_REQUEST_PUBLISHED_SQL`. -/
def markPublished (q : CopyExecutionRequest) (b : Postgres) : Option Postgres :=
  b.setStatus (fun r => r.id == q.eventId && r.requestStatus == .requested) .published

/-- `INSERT_COPY_EXECUTION_RESULT_SQL`. -/
def insertResult (r : CopyExecutionResult) (b : Postgres) : Option Postgres := do
  let row ← resultRow? r
  let (results, _) ← b.results.insertOrIgnore? (·.idempotencyKey) row
  b.commit? b.requests results

/-- `UPDATE_COPY_EXECUTION_REQUEST_FROM_RESULT_SQL`. -/
def updateRequestFromResult (requestId : UUID) (status : CopyExecutionStatus) (b : Postgres) :
    Option Postgres :=
  b.setStatus (·.id == requestId) status.toRequestStatus

instance : Ledger Postgres where
  record := record
  markPublished := markPublished
  insertResult := insertResult
  updateRequestFromResult := updateRequestFromResult

/-! ## What a reader sees -/

/-- The status of a request. -/
def statusOf (b : Postgres) (id : UUID) : Option RequestStatus :=
  (b.requests.rows.find? (·.id == id)).map (·.requestStatus)

/-- The results table holds a row for this request with this status. -/
def HasResult (b : Postgres) (id : UUID) (status : RequestStatus) : Prop :=
  ∃ r ∈ b.results, r.requestId = id ∧ r.status.toRequestStatus = status

instance (b : Postgres) (id : UUID) (status : RequestStatus) : Decidable (b.HasResult id status) :=
  inferInstanceAs (Decidable (∃ r ∈ b.results.rows, _))

theorem statusOf_eq_some {b : Postgres} {id : UUID} {status : RequestStatus} :
    b.statusOf id = some status ↔ ∃ r ∈ b.requests, r.id = id ∧ r.requestStatus = status := by
  unfold statusOf
  rw [Option.map_eq_some_iff]
  constructor
  · rintro ⟨r, hr, hs⟩
    exact ⟨r, List.mem_of_find?_eq_some hr, by simpa using List.find?_some hr, hs⟩
  · rintro ⟨r, hr, hid, hs⟩
    cases hf : b.requests.rows.find? (·.id == id) with
    | none => exact absurd (List.find?_eq_none.1 hf r hr) (by simp [hid])
    | some r' =>
      have hid' : r'.id = id := by simpa using List.find?_some hf
      have heq : r' = r := Sql.Table.eq_of_clash (List.mem_of_find?_eq_some hf) hr
        (Or.inl (hid'.trans hid.symm))
      exact ⟨r', rfl, heq ▸ hs⟩

theorem statusOf_eq_none {b : Postgres} {id : UUID} :
    b.statusOf id = none ↔ ∀ r ∈ b.requests, r.id ≠ id := by
  unfold statusOf
  rw [Option.map_eq_none_iff, List.find?_eq_none]
  simp only [beq_iff_eq, Sql.Table.mem_def, ne_eq]

theorem commit_eq_some {b b' : Postgres} {requests : Sql.Table RequestRow}
    {results : Sql.Table ResultRow} (h : b.commit? requests results = some b') :
    b'.requests = requests ∧ b'.results = results := by
  unfold commit? at h
  split at h
  · cases h; exact ⟨rfl, rfl⟩
  · cases h

/-- **All that `record` can do**: it ignores the request, where its key has a row, or
inserts it under its id. -/
theorem record_cases {q : CopyExecutionRequest} {b b' : Postgres} (h : b.record q = some b') :
    b'.results = b.results ∧
      (((∃ r ∈ b.requests, r.idempotencyKey = q.idempotencyKey) ∧ b'.requests = b.requests) ∨
        ((∀ r ∈ b.requests, r.idempotencyKey ≠ q.idempotencyKey ∧ r.id ≠ q.eventId) ∧
          ∃ row, RowOf q row ∧ b'.requests.rows = b.requests.rows ++ [row])) := by
  simp only [record, Option.bind_eq_bind, Option.bind_eq_some_iff] at h
  obtain ⟨row, hrow, ⟨requests, n⟩, hins, hc⟩ := h
  obtain ⟨h1, h2⟩ := commit_eq_some hc
  have hof := rowOf_requestRow hrow
  refine ⟨h2, ?_⟩
  rw [h1]
  rcases Sql.Table.insertOrIgnore_cases hins with ⟨⟨r, hr, hk⟩, he, -⟩ | ⟨hk, hclash, hrows, -⟩
  · exact Or.inl ⟨⟨r, hr, hk.trans hof.idempotencyKey⟩, he⟩
  · refine Or.inr ⟨fun r hr => ⟨fun he => ?_, fun he => ?_⟩, row, hof, hrows⟩
    · exact hk r hr (he.trans hof.idempotencyKey.symm)
    · exact hclash r hr (Or.inl (he.trans hof.id.symm))

/-- **All that `INSERT` of a result can do.** -/
theorem insertResult_cases {r : CopyExecutionResult} {b b' : Postgres}
    (h : b.insertResult r = some b') :
    b'.requests = b.requests ∧
      (((∃ s ∈ b.results, s.idempotencyKey = r.idempotencyKey) ∧ b'.results = b.results) ∨
        ((∀ s ∈ b.results, s.idempotencyKey ≠ r.idempotencyKey) ∧
          ∃ row, resultRow? r = some row ∧ b'.results.rows = b.results.rows ++ [row])) := by
  simp only [insertResult, Option.bind_eq_bind, Option.bind_eq_some_iff] at h
  obtain ⟨row, hrow, ⟨results, n⟩, hins, hc⟩ := h
  obtain ⟨h1, h2⟩ := commit_eq_some hc
  obtain ⟨hkey, -, -⟩ := resultRow_spec hrow
  refine ⟨h1, ?_⟩
  rw [h2]
  rcases Sql.Table.insertOrIgnore_cases hins with ⟨⟨s, hs, hk⟩, he, -⟩ | ⟨hk, -, hrows, -⟩
  · exact Or.inl ⟨⟨s, hs, hk.trans hkey⟩, he⟩
  · exact Or.inr ⟨fun s hs he => hk s hs (he.trans hkey.symm), row, hrow, hrows⟩

/-- **An update of statuses is never refused**, and changes statuses only. -/
theorem setStatus_rows (p : RequestRow → Bool) (status : RequestStatus) (b : Postgres) :
    ∃ b', b.setStatus p status = some b' ∧ b'.results = b.results ∧
      b'.requests.rows =
        b.requests.rows.map fun r => if p r then { r with requestStatus := status } else r := by
  set f : RequestRow → RequestRow := fun r => { r with requestStatus := status }
  have hid : ∀ r, (if p r then f r else r).id = r.id := fun r => by split <;> rfl
  have hkey : ∀ r, (if p r then f r else r).idempotencyKey = r.idempotencyKey :=
    fun r => by split <;> rfl
  have hrel : ∀ r, (if p r then f r else r).copyRelationshipId = r.copyRelationshipId :=
    fun r => by split <;> rfl
  obtain ⟨t, ht⟩ : ∃ t, b.requests.updateWhere? p f = some t := by
    refine Sql.Table.updateWhere_isSome fun x y hc => ?_
    rcases hc with hc | hc
    · exact Or.inl (by rwa [hid, hid] at hc)
    · exact Or.inr (by rwa [hkey, hkey] at hc)
  have hrows := Sql.Table.updateWhere_eq_some.1 ht
  -- no id and no relationship changed, so the foreign keys hold as before
  have hfk : (∀ r ∈ t.rows, r.copyRelationshipId ∈ b.relationshipIds) ∧
      ∀ r ∈ b.results.rows, ∃ q ∈ t.rows, q.id = r.requestId := by
    rw [hrows]
    refine ⟨fun r hr => ?_, fun r hr => ?_⟩
    · obtain ⟨r', hr', rfl⟩ := List.mem_map.1 hr
      rw [hrel]; exact b.requests_relationship r' hr'
    · obtain ⟨q, hq, hqid⟩ := b.results_request r hr
      exact ⟨_, List.mem_map.2 ⟨q, hq, rfl⟩, (hid q).trans hqid⟩
  refine ⟨⟨b.relationshipIds, t, b.results, hfk.1, hfk.2⟩, ?_, rfl, hrows⟩
  simp only [setStatus, Option.bind_eq_bind]
  rw [ht, Option.bind_some, commit?, dif_pos hfk]

/-- The status of a request after an update of statuses. -/
theorem statusOf_map {b b' : Postgres} {p : RequestRow → Bool} {status : RequestStatus}
    (h : b'.requests.rows =
      b.requests.rows.map fun r => if p r then { r with requestStatus := status } else r) (id : UUID) :
    b'.statusOf id = (b.requests.rows.find? (·.id == id)).map fun r =>
      if p r then status else r.requestStatus := by
  have hid : ∀ r : RequestRow, (if p r then { r with requestStatus := status } else r).id = r.id :=
    fun r => by split <;> rfl
  unfold statusOf
  rw [h, List.find?_map, Option.map_map]
  simp only [Function.comp_def, hid]
  congr 1
  funext r
  split <;> rfl

theorem statusOf_updateRequestFromResult (requestId : UUID) (status : CopyExecutionStatus)
    (b : Postgres) : ∃ b', b.updateRequestFromResult requestId status = some b' ∧
      b'.results = b.results ∧ ∀ id, b'.statusOf id =
        if id = requestId then (b.statusOf id).map fun _ => status.toRequestStatus
        else b.statusOf id := by
  obtain ⟨b', h, hres, hrows⟩ := setStatus_rows (·.id == requestId) status.toRequestStatus b
  refine ⟨b', h, hres, fun id => ?_⟩
  rw [statusOf_map hrows, statusOf]
  cases hf : b.requests.rows.find? (·.id == id) with
  | none => simp
  | some r =>
    have hid : r.id = id := by simpa using List.find?_some hf
    by_cases he : id = requestId
    · simp [hid, he]
    · simp [hid, he]

theorem statusOf_markPublished (q : CopyExecutionRequest) (b : Postgres) :
    ∃ b', b.markPublished q = some b' ∧ b'.results = b.results ∧ ∀ id, b'.statusOf id =
      if id = q.eventId ∧ b.statusOf id = some .requested then some .published
      else b.statusOf id := by
  obtain ⟨b', h, hres, hrows⟩ := setStatus_rows
    (fun r => r.id == q.eventId && r.requestStatus == .requested) .published b
  refine ⟨b', h, hres, fun id => ?_⟩
  rw [statusOf_map hrows, statusOf]
  cases hf : b.requests.rows.find? (·.id == id) with
  | none => simp
  | some r =>
    have hid : r.id = id := by simpa using List.find?_some hf
    by_cases he : id = q.eventId ∧ r.requestStatus = .requested
    · simp [hid, he.1, he.2]
    · rw [not_and] at he
      by_cases h1 : id = q.eventId
      · simp [hid, h1, he h1]
      · simp [hid, h1]

/-- A recorded request is new with status `REQUESTED`, or nothing changed. -/
theorem statusOf_record {q : CopyExecutionRequest} {b b' : Postgres} (h : b.record q = some b')
    (id : UUID) : b'.statusOf id = b.statusOf id ∨
      (id = q.eventId ∧ b.statusOf id = none ∧ b'.statusOf id = some .requested) := by
  rcases (record_cases h).2 with ⟨-, he⟩ | ⟨hnew, row, hrow, hrows⟩
  · exact Or.inl (by unfold statusOf; rw [he])
  · by_cases hid : id = q.eventId
    · subst hid
      have hmem : row ∈ b'.requests := by
        rw [Sql.Table.mem_def, hrows]; exact List.mem_append_right _ List.mem_cons_self
      exact Or.inr ⟨rfl, statusOf_eq_none.2 fun r hr => (hnew r hr).2,
        statusOf_eq_some.2 ⟨row, hmem, hrow.id, hrow.requestStatus⟩⟩
    · refine Or.inl ?_
      have hne : (row.id == id) = false := by
        rw [hrow.id]; exact beq_false_of_ne fun he => hid he.symm
      unfold statusOf
      rw [hrows, List.find?_append, List.find?_cons, hne, List.find?_nil, Option.or_none]

end Postgres

/-! ## Any statement -/

/-- **All that one statement can do to the status of a request**: nothing, or insert it,
mark it, or overwrite it with the status of a result. -/
theorem statusOf_step {c : Call} {b b' : Postgres} (h : ledgerStep c b = some b') (id : UUID) :
    b'.statusOf id = b.statusOf id ∨
      (b.statusOf id = none ∧ b'.statusOf id = some .requested) ∨
      (b.statusOf id = some .requested ∧ b'.statusOf id = some .published) ∨
      ∃ status, c = .updateRequestFromResult id status ∧ b.statusOf id ≠ none ∧
        b'.statusOf id = some status.toRequestStatus := by
  cases c with
  | record q =>
    rcases Postgres.statusOf_record h id with he | ⟨-, hnone, hnew⟩
    · exact Or.inl he
    · exact Or.inr (Or.inl ⟨hnone, hnew⟩)
  | markPublished q =>
    obtain ⟨b₁, h₁, -, hst⟩ := Postgres.statusOf_markPublished q b
    cases h₁.symm.trans h
    by_cases hcond : id = q.eventId ∧ b.statusOf id = some .requested
    · exact Or.inr (Or.inr (Or.inl ⟨hcond.2, by rw [hst, if_pos hcond]⟩))
    · exact Or.inl (by rw [hst, if_neg hcond])
  | insertResult r =>
    refine Or.inl ?_
    unfold Postgres.statusOf
    rw [(Postgres.insertResult_cases h).1]
  | updateRequestFromResult requestId status =>
    obtain ⟨b₁, h₁, -, hst⟩ := Postgres.statusOf_updateRequestFromResult requestId status b
    cases h₁.symm.trans h
    by_cases hid : id = requestId
    swap
    · exact Or.inl (by rw [hst, if_neg hid])
    subst hid
    rw [hst, if_pos rfl]
    -- an update of a request that is not there changes nothing
    cases hold : b.statusOf id with
    | none => exact Or.inl rfl
    | some old => exact Or.inr (Or.inr (Or.inr ⟨status, rfl, Option.some_ne_none old, rfl⟩))
  | listActiveForEvent _ | reserve _ | release _ | publishJson _ _ => cases h; exact Or.inl rfl

/-- **All that one statement can do to the results**: nothing, or insert a row. -/
theorem results_step {c : Call} {b b' : Postgres} (h : ledgerStep c b = some b') :
    b'.results = b.results ∨ ∃ r row, c = .insertResult r ∧ Postgres.resultRow? r = some row ∧
      b'.results.rows = b.results.rows ++ [row] := by
  cases c with
  | record q => exact Or.inl (Postgres.record_cases h).1
  | markPublished q =>
    obtain ⟨b₁, h₁, hres, -⟩ := Postgres.statusOf_markPublished q b
    cases h₁.symm.trans h
    exact Or.inl hres
  | insertResult r =>
    rcases (Postgres.insertResult_cases h).2 with ⟨-, he⟩ | ⟨-, row, hrow, he⟩
    · exact Or.inl he
    · exact Or.inr ⟨r, row, rfl, hrow, he⟩
  | updateRequestFromResult requestId status =>
    obtain ⟨b₁, h₁, hres, -⟩ := Postgres.statusOf_updateRequestFromResult requestId status b
    cases h₁.symm.trans h
    exact Or.inl hres
  | listActiveForEvent _ | reserve _ | release _ | publishJson _ _ => cases h; exact Or.inl rfl

/-- Results are never removed. -/
theorem results_stay {c : Call} {b b' : Postgres} (h : ledgerStep c b = some b') :
    ∀ s ∈ b.results, s ∈ b'.results := by
  intro s hs
  rcases results_step h with he | ⟨r, row, -, -, he⟩
  · rw [he]; exact hs
  · rw [Sql.Table.mem_def, he]; exact List.mem_append_left _ hs

theorem hasResult_step {c : Call} {b b' : Postgres} (h : ledgerStep c b = some b') {id : UUID}
    {status : RequestStatus} (hr : b.HasResult id status) : b'.HasResult id status := by
  obtain ⟨r, hr, hid⟩ := hr
  exact ⟨r, results_stay h r hr, hid⟩

/-- A result for a request. -/
def sampleResult (requestId : UUID) (status : CopyExecutionStatus) : CopyExecutionResult where
  eventId := ⟨900⟩
  occurredAt := 20
  observedAt := 21
  sourceExchange := .aster
  sourceAccountId := "follower"
  idempotencyKey := "result-01"
  traceId := "trace"
  requestId := requestId
  status := status
  sourceAccountId_min := by decide
  idempotencyKey_min := by decide

end CopyTrade
