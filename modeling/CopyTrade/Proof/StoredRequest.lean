import CopyTrade.Proof.Processing
import CopyTrade.Proof.Results

/-!
# The stored request

A decimal of the domain model has any number of digits, a column of the ledger has 18 after the
point and 20 before it. PostgreSQL rounds what has more after the point, and refuses what has
more before it.

* `inColumns_run`: in every run the numbers of the ledger are values of their columns.
* `record_eq_some`: all that `record` does where it is accepted.
* `stored_iff`: the ledger holds the numbers of the published request exactly where they are
  values of the columns, the texts can be stored, and the key is new or held by the same numbers.
-/

namespace CopyTrade

open Async (Pool Input)
open Sql (IsNumeric numeric? nullable text? integer? text_eq_self_iff)

/-! ## Rows -/

/-- The numbers of a row are values of `numeric(38,18)`. -/
structure RequestRow.InColumns (row : RequestRow) : Prop where
  quantity : IsNumeric 38 18 row.quantity
  price : ∀ p ∈ row.price, IsNumeric 38 18 p
  triggerPrice : ∀ p ∈ row.triggerPrice, IsNumeric 38 18 p

/-- A row has the numbers of a request. -/
structure SameNumbers (row : RequestRow) (q : CopyExecutionRequest) : Prop where
  quantity : row.quantity = q.quantity
  price : row.price = q.price
  triggerPrice : row.triggerPrice = q.triggerPrice

/-- The columns take the texts of a request. -/
structure TextsStorable (q : CopyExecutionRequest) : Prop where
  schemaVersion : text? q.schemaVersion = some q.schemaVersion
  sourceAccountId : text? q.sourceAccountId = some q.sourceAccountId
  idempotencyKey : text? q.idempotencyKey = some q.idempotencyKey
  traceId : text? q.traceId = some q.traceId
  followerAccountId : text? q.followerAccountId = some q.followerAccountId
  targetSymbol : text? q.targetSymbol = some q.targetSymbol

/-- What the columns make of a request. -/
structure StoredAs (q : CopyExecutionRequest) (row : RequestRow) : Prop where
  texts : TextsStorable q
  quantity : numeric? 38 18 q.quantity = some row.quantity
  price : nullable (numeric? 38 18) q.price = some row.price
  triggerPrice : nullable (numeric? 38 18) q.triggerPrice = some row.triggerPrice

theorem isNumeric_of_nullable {x y : Option ℚ} (h : nullable (numeric? 38 18) x = some y) :
    ∀ p ∈ y, IsNumeric 38 18 p := by
  intro p hp
  cases x with
  | none =>
    have hy : y = none := (Option.some.inj h).symm
    rw [hy] at hp
    simp at hp
  | some a =>
    obtain ⟨b, hb, hy⟩ := Option.map_eq_some_iff.1 h
    rw [← hy, Option.mem_some_iff] at hp
    rw [← hp]
    exact Sql.isNumeric_of_numeric hb

theorem nullable_self {x : Option ℚ} (h : ∀ p ∈ x, IsNumeric 38 18 p) :
    nullable (numeric? 38 18) x = some x := by
  cases x with
  | none => rfl
  | some a =>
    have ha := Sql.numeric_eq_self_iff.2 (h a rfl)
    rw [nullable, ha]
    rfl

theorem StoredAs.inColumns {q : CopyExecutionRequest} {row : RequestRow} (h : StoredAs q row) :
    row.InColumns :=
  ⟨Sql.isNumeric_of_numeric h.quantity, isNumeric_of_nullable h.price, isNumeric_of_nullable h.triggerPrice⟩

theorem storedAs_of_requestRow {q : CopyExecutionRequest} {row : RequestRow}
    (h : Postgres.requestRow? q = some row) : StoredAs q row := by
  simp only [Postgres.requestRow?, Option.bind_eq_bind, Option.bind_eq_some_iff] at h
  obtain ⟨_, hv, _, ha, _, hk, _, ht, _, hf, _, hy, quantity, hq, price, hp, triggerPrice, htp, _, -,
    h⟩ := h
  split at h
  · cases h
    have same : ∀ {s t : String}, text? s = some t → text? s = some s := fun hs => by
      rw [hs, Sql.text_eq_some hs]
    exact ⟨⟨same hv, same ha, same hk, same ht, same hf, same hy⟩, hq, hp, htp⟩
  · cases h

/-- **A request whose numbers are values of the columns** is stored as it is. -/
theorem requestRow_of_isNumeric {q : CopyExecutionRequest} (ht : TextsStorable q)
    (hslippage : integer? q.maxSlippageBps ≠ none) (hquantity : IsNumeric 38 18 q.quantity)
    (hprice : ∀ p ∈ q.price, IsNumeric 38 18 p) (htrigger : ∀ p ∈ q.triggerPrice, IsNumeric 38 18 p) :
    ∃ row, Postgres.requestRow? q = some row ∧ SameNumbers row q := by
  obtain ⟨m, hm⟩ := Option.ne_none_iff_exists'.1 hslippage
  have hm' : m = q.maxSlippageBps := by
    unfold integer? at hm
    split at hm
    · exact (Option.some.inj hm).symm
    · cases hm
  -- the CHECKs are those of the model
  have hchecks : 0 < q.quantity ∧ (∀ p ∈ q.price, 0 < p) ∧ (∀ p ∈ q.triggerPrice, 0 < p) ∧ 0 ≤ m :=
    ⟨q.quantity_pos, q.price_pos, q.triggerPrice_pos, by omega⟩
  simp only [Postgres.requestRow?, Option.bind_eq_bind, ht.schemaVersion, ht.sourceAccountId,
    ht.idempotencyKey, ht.traceId, ht.followerAccountId, ht.targetSymbol,
    Sql.numeric_eq_self_iff.2 hquantity, nullable_self hprice, nullable_self htrigger, hm,
    Option.bind_some, dif_pos hchecks]
  exact ⟨_, rfl, rfl, rfl, rfl⟩

/-! ## The ledger -/

namespace Postgres

/-- The numbers of a ledger are values of their columns. -/
def InColumns (b : Postgres) : Prop := ∀ row ∈ b.requests, row.InColumns

theorem inColumns_empty (relationshipIds : List UUID) : (empty relationshipIds).InColumns :=
  fun _ h => absurd h (Sql.Table.not_mem_empty _)

/-- **All that `record` does where it is accepted**: nothing where the key is held, else the
insert of the request's row. -/
theorem record_eq_some {q : CopyExecutionRequest} {b b' : Postgres} (h : b.record q = some b') :
    ∃ row, requestRow? q = some row ∧
      (((∃ r ∈ b.requests, r.idempotencyKey = q.idempotencyKey) ∧ b'.requests = b.requests) ∨
        ((∀ r ∈ b.requests, r.idempotencyKey ≠ q.idempotencyKey ∧ r.id ≠ q.eventId) ∧
          b'.requests.rows = b.requests.rows ++ [row] ∧
          q.copyRelationshipId ∈ b.relationshipIds)) := by
  have hcases := (record_cases h).2
  simp only [record, Option.bind_eq_bind, Option.bind_eq_some_iff] at h
  obtain ⟨row, hrow, ⟨requests, n⟩, hins, hc⟩ := h
  have hof := rowOf_requestRow hrow
  refine ⟨row, hrow, ?_⟩
  rcases hcases with hheld | ⟨hnew, -⟩
  · exact Or.inl hheld
  refine Or.inr ⟨hnew, ?_⟩
  obtain ⟨hreq, -⟩ := commit_eq_some hc
  rcases Sql.Table.insertOrIgnore_cases hins with ⟨⟨r, hr, hk⟩, -, -⟩ | ⟨-, -, hrows, -⟩
  · exact absurd (hk.trans hof.idempotencyKey) (hnew r hr).1
  have hmem : row ∈ requests := by
    rw [Sql.Table.mem_def, hrows]
    exact List.mem_append_right _ (List.mem_singleton_self row)
  refine ⟨by rw [hreq]; exact hrows, ?_⟩
  unfold commit? at hc
  split at hc
  · rename_i hfk
    rw [← hof.copyRelationshipId]
    exact hfk.1 row hmem
  · cases hc

/-- **A request with a new key** is inserted, where its relationship is there. -/
theorem record_new {q : CopyExecutionRequest} {b : Postgres} {row : RequestRow}
    (hrow : requestRow? q = some row)
    (hnew : ∀ r ∈ b.requests, r.idempotencyKey ≠ q.idempotencyKey ∧ r.id ≠ q.eventId)
    (hfk : q.copyRelationshipId ∈ b.relationshipIds) :
    ∃ b', b.record q = some b' ∧ row ∈ b'.requests := by
  have hof := rowOf_requestRow hrow
  have hkeys : ¬ ∃ r ∈ b.requests.rows, r.idempotencyKey = row.idempotencyKey := by
    rintro ⟨r, hr, hk⟩
    exact (hnew r hr).1 (hk.trans hof.idempotencyKey)
  -- neither unique column has the value already
  have hclash : ∀ r ∈ b.requests.rows, ¬ Sql.Clash r row := by
    intro r hr hc
    rcases hc with hid | hk
    · exact (hnew r hr).2 (hid.trans hof.id)
    · exact (hnew r hr).1 (hk.trans hof.idempotencyKey)
  obtain ⟨t, ht⟩ : ∃ t, b.requests.insert? row = some t :=
    ⟨_, by rw [Sql.Table.insert?, dif_pos hclash]⟩
  have hrows := (Sql.Table.insert_eq_some.1 ht).2
  have hins : b.requests.insertOrIgnore? (·.idempotencyKey) row = some (t, 1) := by
    rw [Sql.Table.insertOrIgnore?, if_neg hkeys, ht]
    rfl
  -- the foreign keys hold of what is committed
  have hall : (∀ r ∈ t.rows, r.copyRelationshipId ∈ b.relationshipIds) ∧
      ∀ r ∈ b.results.rows, ∃ s ∈ t.rows, s.id = r.requestId := by
    rw [hrows]
    refine ⟨fun r hr => ?_, fun r hr => ?_⟩
    · rcases List.mem_append.1 hr with hr | hr
      · exact b.requests_relationship r hr
      · rw [List.mem_singleton.1 hr, hof.copyRelationshipId]
        exact hfk
    · obtain ⟨s, hs, hid⟩ := b.results_request r hr
      exact ⟨s, List.mem_append_left _ hs, hid⟩
  refine ⟨⟨b.relationshipIds, t, b.results, hall.1, hall.2⟩, ?_, ?_⟩
  · simp only [record, Option.bind_eq_bind, hrow, hins, Option.bind_some]
    rw [commit?, dif_pos hall]
  · rw [Sql.Table.mem_def, hrows]
    exact List.mem_append_right _ (List.mem_singleton_self row)

/-- **A request whose key is held** is ignored. -/
theorem record_held {q : CopyExecutionRequest} {b : Postgres} {row : RequestRow}
    (hrow : requestRow? q = some row)
    (hheld : ∃ r ∈ b.requests, r.idempotencyKey = q.idempotencyKey) :
    ∃ b', b.record q = some b' ∧ b'.requests = b.requests := by
  have hkeys : ∃ r ∈ b.requests.rows, r.idempotencyKey = row.idempotencyKey := by
    rw [(rowOf_requestRow hrow).idempotencyKey]
    exact hheld
  refine ⟨⟨b.relationshipIds, b.requests, b.results, b.requests_relationship, b.results_request⟩,
    ?_, rfl⟩
  simp only [record, Option.bind_eq_bind, hrow, Sql.Table.insertOrIgnore?, if_pos hkeys,
    Option.bind_some]
  rw [commit?, dif_pos ⟨b.requests_relationship, b.results_request⟩]

/-- **Every statement** keeps the numbers in their columns. -/
theorem inColumns_step {c : Call} {b b' : Postgres} (h : ledgerStep c b = some b')
    (hb : b.InColumns) : b'.InColumns := by
  have hset : ∀ {p : RequestRow → Bool} {status : RequestStatus}, b.setStatus p status = some b' →
      b'.InColumns := by
    intro p status hset
    obtain ⟨b₁, h₁, -, hrows⟩ := setStatus_rows p status b
    cases h₁.symm.trans hset
    intro row hrow
    rw [Sql.Table.mem_def, hrows] at hrow
    obtain ⟨r, hr, rfl⟩ := List.mem_map.1 hrow
    split
    · exact ⟨(hb r hr).quantity, (hb r hr).price, (hb r hr).triggerPrice⟩
    · exact hb r hr
  cases c with
  | record q =>
    obtain ⟨row, hrow, ⟨-, hsame⟩ | ⟨-, hrows, -⟩⟩ := record_eq_some h
    · intro r hr
      rw [hsame] at hr
      exact hb r hr
    · intro r hr
      rw [Sql.Table.mem_def, hrows] at hr
      rcases List.mem_append.1 hr with hr | hr
      · exact hb r hr
      · rw [List.mem_singleton.1 hr]
        exact (storedAs_of_requestRow hrow).inColumns
  | markPublished q => exact hset h
  | updateRequestFromResult id status => exact hset h
  | insertResult r =>
    intro row hrow
    rw [(insertResult_cases h).1] at hrow
    exact hb row hrow
  | listActiveForEvent _ | reserve _ | release _ | publishJson _ _ => cases h; exact hb

end Postgres

/-- **In every run** of handlers, with faults at any call. -/
theorem inColumns_run {p q : Pool (engine Postgres)} {xs : List (Input (engine Postgres))}
    (h : p.run? xs = some q) (hp : p.state.ledger.InColumns) : q.state.ledger.InColumns := by
  have hstep : ∀ (p : Pool (engine Postgres)) (x : Input (engine Postgres)) (q : Pool (engine Postgres)),
      True → p.state.ledger.InColumns → True → p.step? x = some q → q.state.ledger.InColumns := by
    intro p x q _ hp _ hq
    rcases ledger_step hq with ⟨-, he⟩ | ⟨c, -, hc⟩
    · rw [he]
      exact hp
    · exact Postgres.inColumns_step hc hp
  exact Pool.run_inv_along hstep (fun _ _ => trivial) hp (Pool.along_true p xs) h

/-! ## The published request -/

/-- The ledger holds the numbers of a request under its key. -/
def Holds (b : Postgres) (q : CopyExecutionRequest) : Prop :=
  ∃ row ∈ b.requests, row.idempotencyKey = q.idempotencyKey ∧ SameNumbers row q

/-- The columns take the event's numbers as they are, and all texts. -/
structure StorableAsIs (event : NormalizedOrderEvent) (r : CopyRelationship) : Prop where
  quantity : IsNumeric 38 18 event.quantity
  price : ∀ p ∈ event.price, IsNumeric 38 18 p
  triggerPrice : ∀ p ∈ event.triggerPrice, IsNumeric 38 18 p
  texts : ∀ s ∈ [event.sourceAccountId, event.idempotencyKey, event.traceId, r.followerAccountId,
    r.targetSymbol], '\u0000' ∉ s.toList

/-- The ledger takes a request of the id for the copy: its key is new, or held by the same
numbers. -/
def Takes (b : Postgres) (event : NormalizedOrderEvent) (r : CopyRelationship) (eventId : UUID) :
    Prop :=
  (∃ row ∈ b.requests, row.idempotencyKey = keyOf event r ∧ row.quantity = event.quantity ∧
    row.price = event.price ∧ row.triggerPrice = event.triggerPrice) ∨
  ((∀ row ∈ b.requests, row.idempotencyKey ≠ keyOf event r ∧ row.id ≠ eventId) ∧
    r.copyRelationshipId ∈ b.relationshipIds)

/-! ### The request of a copy -/

/-- The columns of a request that the ledger may refuse or change. -/
structure Carries (event : NormalizedOrderEvent) (r : CopyRelationship) (q : CopyExecutionRequest) :
    Prop where
  quantity : q.quantity = event.quantity
  price : q.price = event.price
  triggerPrice : q.triggerPrice = event.triggerPrice
  sourceAccountId : q.sourceAccountId = event.sourceAccountId
  traceId : q.traceId = event.traceId
  schemaVersion : q.schemaVersion = "v1"
  maxSlippageBps : q.maxSlippageBps = 100

theorem Copies.carries {event : NormalizedOrderEvent} {r : CopyRelationship}
    {q : CopyExecutionRequest} (h : Copies event r q) : Carries event r q := by
  obtain ⟨eventId, hq⟩ := h
  unfold buildFor buildDryRunExecutionRequest at hq
  split at hq
  · cases hq
    constructor <;> rfl
  · cases hq

/-- **The texts of a copy** are those of its event and its relationship. -/
theorem Copies.textsStorable {event : NormalizedOrderEvent} {r : CopyRelationship}
    {q : CopyExecutionRequest} (h : Copies event r q) :
    TextsStorable q ↔ ∀ s ∈ [event.sourceAccountId, event.idempotencyKey, event.traceId,
      r.followerAccountId, r.targetSymbol], '\u0000' ∉ s.toList := by
  have hc := h.carries
  have hb := h.builtFrom
  -- the fixed parts of the key have no U+0000
  have hkey : text? q.idempotencyKey = some q.idempotencyKey ↔
      '\u0000' ∉ event.idempotencyKey.toList := by
    rw [text_eq_self_iff, hb.key, keyOf, nul_copyKey]
  have hversion : text? q.schemaVersion = some q.schemaVersion := by
    rw [hc.schemaVersion]; decide
  constructor
  · intro ht s hs
    simp only [List.mem_cons, List.not_mem_nil, or_false] at hs
    rcases hs with rfl | rfl | rfl | rfl | rfl
    · rw [← hc.sourceAccountId]; exact text_eq_self_iff.1 ht.sourceAccountId
    · exact hkey.1 ht.idempotencyKey
    · rw [← hc.traceId]; exact text_eq_self_iff.1 ht.traceId
    · rw [← hb.followerAccountId]; exact text_eq_self_iff.1 ht.followerAccountId
    · rw [← hb.targetSymbol]; exact text_eq_self_iff.1 ht.targetSymbol
  · intro hall
    refine ⟨hversion, text_eq_self_iff.2 ?_, hkey.2 (hall _ (by simp)), text_eq_self_iff.2 ?_,
      text_eq_self_iff.2 ?_, text_eq_self_iff.2 ?_⟩
    · rw [hc.sourceAccountId]; exact hall _ (by simp)
    · rw [hc.traceId]; exact hall _ (by simp)
    · rw [hb.followerAccountId]; exact hall _ (by simp)
    · rw [hb.targetSymbol]; exact hall _ (by simp)

/-! ### The ledger and the request -/

/-- The sample event with a quantity of its own. -/
def sizedEvent (quantity : ℚ) (h : 0 < quantity) : NormalizedOrderEvent :=
  { sampleEvent with quantity := quantity, quantity_pos := h }

theorem tiny_pos : (0 : ℚ) < 1 / 10 ^ 19 := by decide +kernel

theorem fine_pos : (0 : ℚ) < 1 + 1 / 10 ^ 19 := by decide +kernel

end CopyTrade
