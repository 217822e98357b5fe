import CopyTrade.Async.Pool
import CopyTrade.Broker.Log
import CopyTrade.Spec.CopyEngine
import CopyTrade.Sql.Column
import CopyTrade.Sql.Table

/-!
# What the copy engine's calls do

The shared state of all workers: the relationships the provider would list, the
idempotency table, the recorders' tables, the stream with its clock, and the source
of `uuid4()`. Every call of the engine is one atomic effect on it.

The recorders' tables are a parameter (`Ledger`): the engine never reads them, and
`NoopCopyExecutionRequestRecorder` keeps none.

* `reserve_cases`: the idempotency table is a set of keys, and refuses no other than
  those with a U+0000 (`reserve_isSome`).
* `serve_moved`: all that a call can do, one part of the state after the other.
-/

namespace CopyTrade

open Async (Machine Fault)

/-- A row of `copy_execution_idempotency`. -/
structure IdempotencyRow where
  idempotencyKey : String
  deriving DecidableEq

instance : Sql.Constrained IdempotencyRow where
  Clash a b := a.idempotencyKey = b.idempotencyKey
  clash_symm h := h.symm
  decidable _ _ := inferInstance

/-- The tables behind the request and the result recorder. A statement is `none` where
the tables refuse it. -/
class Ledger (B : Type) where
  record : CopyExecutionRequest → B → Option B
  markPublished : CopyExecutionRequest → B → Option B
  insertResult : CopyExecutionResult → B → Option B
  updateRequestFromResult : UUID → CopyExecutionStatus → B → Option B

/-- The `Noop…Recorder`s. -/
instance : Ledger Unit where
  record _ b := some b
  markPublished _ b := some b
  insertResult _ b := some b
  updateRequestFromResult _ _ b := some b

structure World (B : Type) where
  provider : NormalizedOrderEvent → List CopyRelationship
  idempotency : Sql.Table IdempotencyRow
  ledger : B
  stream : Broker.Log String CopyExecutionRequest
  now : ℚ
  uuid4 : ℕ → UUID
  issued : ℕ

namespace World

variable {B : Type}

/-- The key stands in `copy_execution_idempotency`. -/
def Reserved (w : World B) (key : String) : Prop := ⟨key⟩ ∈ w.idempotency

instance (w : World B) (key : String) : Decidable (w.Reserved key) :=
  inferInstanceAs (Decidable (_ ∈ w.idempotency.rows))

/-- `PostgresIdempotencyStore.reserve`: whether the insert reports `INSERT 0 1`. The key is a
parameter of type `text`. -/
def reserve (key : String) (w : World B) : Option (Bool × World B) :=
  (Sql.text? key).bind fun key =>
    (w.idempotency.insertOrIgnore? (·.idempotencyKey) ⟨key⟩).map fun a =>
      (a.2 == 1, { w with idempotency := a.1 })

/-- `PostgresIdempotencyStore.release`. -/
def release (key : String) (w : World B) : Option (World B) :=
  (Sql.text? key).map fun key =>
    { w with idempotency := w.idempotency.deleteWhere fun r => r.idempotencyKey == key }

/-- `NatsJetStreamEventBus.publish_json` on a stream made by `build_stream_config`. -/
def publishJson (_subject : String) (payload : CopyExecutionRequest) (w : World B) : World B :=
  { w with
    stream := w.stream.append (buildStreamConfig eventStream allEventSubjects).duplicateWindow
      w.now (buildPublishHeaders payload.idempotencyKey) payload }

/-! ### The idempotency table is a set of keys -/

/-- **`reserve` answers** whether the key was free, and takes it. -/
theorem reserve_cases {w w' : World B} {key : String} {b : Bool} (h : w.reserve key = some (b, w')) :
    (b = false ∧ w.Reserved key ∧ w' = w) ∨
      (b = true ∧ ¬ w.Reserved key ∧ (∀ k, w'.Reserved k ↔ w.Reserved k ∨ k = key) ∧
        w' = { w with idempotency := w'.idempotency }) := by
  obtain ⟨key', hkey, h⟩ := Option.bind_eq_some_iff.1 h
  cases Sql.text_eq_some hkey
  obtain ⟨⟨t', n⟩, ht, he⟩ := Option.map_eq_some_iff.1 h
  cases he
  rcases Sql.Table.insertOrIgnore_cases ht with ⟨⟨a, ha, hk⟩, rfl, rfl⟩ | ⟨hk, -, hrows, rfl⟩
  · refine Or.inl ⟨rfl, ?_, rfl⟩
    cases a; cases hk; exact ha
  · refine Or.inr ⟨rfl, fun hres => hk _ hres rfl, fun k => ?_, rfl⟩
    simp [Reserved, Sql.Table.mem_def, hrows]

/-- It is refused where the key is no `text`. -/
theorem reserve_isSome {w : World B} {key : String} :
    (w.reserve key).isSome ↔ Sql.text? key ≠ none := by
  unfold reserve
  cases htext : Sql.text? key with
  | none => simp
  | some key' =>
    obtain ⟨a, ha⟩ : ∃ a, w.idempotency.insertOrIgnore? (·.idempotencyKey) ⟨key'⟩ = some a :=
      Sql.Table.insertOrIgnore_isSome _ _ fun _ _ h => h
    simp [ha]

/-- **`release` takes out its own key** and no other. -/
theorem release_cases {w w' : World B} {key : String} (h : w.release key = some w') :
    (∀ k, w'.Reserved k ↔ w.Reserved k ∧ k ≠ key) ∧ w' = { w with idempotency := w'.idempotency } := by
  obtain ⟨key', hkey, rfl⟩ := Option.map_eq_some_iff.1 h
  cases Sql.text_eq_some hkey
  exact ⟨fun k => by simp [Reserved], rfl⟩

theorem release_isSome {w : World B} {key : String} :
    (w.release key).isSome ↔ Sql.text? key ≠ none := by
  unfold release
  rw [Option.isSome_map, Option.isSome_iff_ne_none]

@[simp] theorem reserved_publishJson (w : World B) (s : String) (q : CopyExecutionRequest)
    (k : String) : (w.publishJson s q).Reserved k ↔ w.Reserved k := Iff.rfl

/-- A request's key is never empty, so its message carries it as its id. -/
theorem stream_publishJson (w : World B) (s : String) (q : CopyExecutionRequest) :
    (w.publishJson s q).stream = w.stream.append 120 w.now (some q.idempotencyKey) q := by
  simp [publishJson, buildPublishHeaders_of_min q.idempotencyKey_min, buildStreamConfig]

end World

/-- What moves the state besides the engine: time, and changes to the relationships. -/
inductive Move where
  | elapse (seconds : ℚ)
  | relist (provider : NormalizedOrderEvent → List CopyRelationship)

variable {B : Type} [Ledger B]

def effect : (c : Call) → World B → Option (CopyEngine.Ret c × World B)
  | .listActiveForEvent event, w => some (w.provider event, w)
  | .reserve key, w => w.reserve key
  | .release key, w => (w.release key).map fun w => ((), w)
  | .record request, w => (Ledger.record request w.ledger).map fun l => ((), { w with ledger := l })
  | .markPublished request, w =>
    (Ledger.markPublished request w.ledger).map fun l => ((), { w with ledger := l })
  | .publishJson subject payload, w => some ((), w.publishJson subject payload)
  | .insertResult result, w =>
    (Ledger.insertResult result w.ledger).map fun l => ((), { w with ledger := l })
  | .updateRequestFromResult requestId status, w =>
    (Ledger.updateRequestFromResult requestId status w.ledger).map fun l =>
      ((), { w with ledger := l })

variable (B) in
/-- The machine all workers run on. -/
abbrev engine : Machine CopyEngine where
  State := World B
  effect := effect
  draw w := (w.uuid4 w.issued, { w with issued := w.issued + 1 })
  Move := Move
  move
    | .elapse seconds, w => if 0 ≤ seconds then some { w with now := w.now + seconds } else none
    | .relist provider, w => some { w with provider := provider }

/-- What a call does to the recorders' tables. -/
def ledgerStep : Call → B → Option B
  | .record request, b => Ledger.record request b
  | .markPublished request, b => Ledger.markPublished request b
  | .insertResult result, b => Ledger.insertResult result b
  | .updateRequestFromResult requestId status, b => Ledger.updateRequestFromResult requestId status b
  | _, b => some b

/-! ### What a call leaves alone -/

/-- The parts of the state a call that took effect may have moved. -/
structure Moved (c : Call) (w w' : World B) : Prop where
  provider : w'.provider = w.provider
  ledger : ledgerStep c w.ledger = some w'.ledger
  stream : (∀ s q, c ≠ .publishJson s q) → w'.stream = w.stream
  reserved : ∀ k, w.Reserved k → (∀ key, c = .release key → k ≠ key) → w'.Reserved k

/-- **All that a call can do**, call by call. -/
theorem effect_moved {c : Call} {w : World B} {a : CopyEngine.Ret c × World B}
    (h : effect c w = some a) : Moved c w a.2 := by
  -- a statement of a recorder moves the recorders' tables and nothing else
  have recorded : ∀ {l : Option B}, ledgerStep c w.ledger = l →
      (∃ l', l = some l' ∧ a.2 = { w with ledger := l' }) → Moved c w a.2 := by
    rintro l hl ⟨l', rfl, he⟩
    rw [he]
    exact ⟨rfl, hl, fun _ => rfl, fun _ hk _ => hk⟩
  cases c with
  | listActiveForEvent event => cases h; exact ⟨rfl, rfl, fun _ => rfl, fun _ hk _ => hk⟩
  | reserve key =>
    obtain ⟨b, w₁⟩ := a
    rcases World.reserve_cases h with ⟨-, -, rfl⟩ | ⟨-, -, hres, hw⟩
    · exact ⟨rfl, rfl, fun _ => rfl, fun _ hk _ => hk⟩
    · refine ⟨by rw [hw], by rw [hw]; rfl, fun _ => by rw [hw], fun k hk _ => ?_⟩
      exact (hres k).2 (Or.inl hk)
  | release key =>
    obtain ⟨w₁, hrelease, rfl⟩ := Option.map_eq_some_iff.1 h
    obtain ⟨hres, hw⟩ := World.release_cases hrelease
    refine ⟨by rw [hw], by rw [hw]; rfl, fun _ => by rw [hw], fun k hk hc => ?_⟩
    exact (hres k).2 ⟨hk, hc key rfl⟩
  | publishJson subject payload =>
    cases h
    exact ⟨rfl, rfl, fun hc => absurd rfl (hc subject payload), fun _ hk _ => hk⟩
  | record request =>
    obtain ⟨l, hl, rfl⟩ := Option.map_eq_some_iff.1 h
    exact recorded rfl ⟨l, hl, rfl⟩
  | markPublished request =>
    obtain ⟨l, hl, rfl⟩ := Option.map_eq_some_iff.1 h
    exact recorded rfl ⟨l, hl, rfl⟩
  | insertResult result =>
    obtain ⟨l, hl, rfl⟩ := Option.map_eq_some_iff.1 h
    exact recorded rfl ⟨l, hl, rfl⟩
  | updateRequestFromResult requestId status =>
    obtain ⟨l, hl, rfl⟩ := Option.map_eq_some_iff.1 h
    exact recorded rfl ⟨l, hl, rfl⟩

/-- **All that a served call can do**: where it does not land the state is as it was. -/
theorem serve_moved {c : Call} {f : Fault PyException} {w w' : World B} {r : CopyEngine.Reply c}
    (h : (engine B).serve c f w = some (r, w')) :
    (f.Lands ∧ Moved c w w') ∨ (¬ f.Lands ∧ w' = w) :=
  (Machine.serve_state h).imp_left fun ⟨hl, _, ha⟩ => ⟨hl, effect_moved ha⟩

/-- Only a release frees a key, and only its own. -/
theorem reserved_serve {c : Call} {f : Fault PyException} {w w' : World B} {r : CopyEngine.Reply c}
    {k : String} (h : (engine B).serve c f w = some (r, w')) (hk : w.Reserved k)
    (hc : ∀ key, c = .release key → k ≠ key) : w'.Reserved k := by
  rcases serve_moved h with ⟨-, hm⟩ | ⟨-, rfl⟩
  · exact hm.reserved k hk hc
  · exact hk

/-- Every key stays reserved and the relationships stay as they are. -/
structure Steady (w w' : World B) : Prop where
  keeps : ∀ k, w.Reserved k → w'.Reserved k
  provider : w'.provider = w.provider

omit [Ledger B] in
theorem Steady.refl (w : World B) : Steady w w := ⟨fun _ hk => hk, rfl⟩

omit [Ledger B] in
theorem Steady.trans {w w₁ w₂ : World B} (h : Steady w w₁) (h₁ : Steady w₁ w₂) : Steady w w₂ :=
  ⟨fun k hk => h₁.keeps k (h.keeps k hk), h₁.provider.trans h.provider⟩

/-- Only a release unsettles the keys, and no call changes the relationships. -/
theorem serve_steady {c : Call} {f : Fault PyException} {w w' : World B} {r : CopyEngine.Reply c}
    (h : (engine B).serve c f w = some (r, w')) (hc : ∀ key, c ≠ .release key) : Steady w w' := by
  refine ⟨fun k hk => reserved_serve h hk fun key he => absurd he (hc key), ?_⟩
  rcases serve_moved h with ⟨-, hm⟩ | ⟨-, rfl⟩
  · exact hm.provider
  · rfl

/-- A call changes the recorders' tables where it lands, and only there. -/
theorem ledger_serve {c : Call} {f : Fault PyException} {w w' : World B} {r : CopyEngine.Reply c}
    (h : (engine B).serve c f w = some (r, w')) :
    (f.Lands ∧ ledgerStep c w.ledger = some w'.ledger) ∨ (¬ f.Lands ∧ w' = w) :=
  (serve_moved h).imp_left fun ⟨hl, hm⟩ => ⟨hl, hm.ledger⟩

/-- Only a publish that lands moves the stream. -/
theorem stream_serve {c : Call} {f : Fault PyException} {w w' : World B} {r : CopyEngine.Reply c}
    (h : (engine B).serve c f w = some (r, w')) (hc : ∀ s q, c ≠ .publishJson s q) :
    w'.stream = w.stream := by
  rcases serve_moved h with ⟨-, hm⟩ | ⟨-, rfl⟩
  · exact hm.stream hc
  · rfl

/-- Time and changed relationships leave the tables and the stream alone. -/
theorem move_cases {m : Move} {w w' : World B} (h : (engine B).move m w = some w') :
    w'.ledger = w.ledger ∧ w'.idempotency = w.idempotency ∧ w'.stream = w.stream := by
  cases m with
  | elapse seconds =>
    simp only [engine] at h
    split at h
    · cases h; exact ⟨rfl, rfl, rfl⟩
    · cases h
  | relist provider => cases h; exact ⟨rfl, rfl, rfl⟩

/-- Time and changed relationships leave the recorders' tables alone. -/
theorem ledger_move {m : Move} {w w' : World B} (h : (engine B).move m w = some w') :
    w'.ledger = w.ledger := (move_cases h).1

/-- Time and changed relationships free no key. -/
theorem reserved_move {m : Move} {w w' : World B} (h : (engine B).move m w = some w') (k : String) :
    w'.Reserved k ↔ w.Reserved k := by
  unfold World.Reserved
  rw [(move_cases h).2.1]

/-- **All that a publish can do.** -/
theorem publish_serve {s : String} {q : CopyExecutionRequest} {f : Fault PyException}
    {w w' : World B} {r : CopyEngine.Reply (.publishJson s q)}
    (h : (engine B).serve (.publishJson s q) f w = some (r, w')) :
    (f.Lands ∧ w' = w.publishJson s q) ∨ (¬ f.Lands ∧ w' = w ∧ ∃ e, r = .error e) := by
  rcases Machine.serve_cases h with ⟨e, rfl, hr, rfl⟩ | ⟨a, ha, ⟨rfl, -⟩ | ⟨e, rfl, -⟩⟩
  · exact Or.inr ⟨id, rfl, e, hr⟩
  · cases ha; exact Or.inl ⟨trivial, rfl⟩
  · cases ha; exact Or.inl ⟨trivial, rfl⟩

/-! ## A small world -/

/-- Empty tables, an empty stream, and the same relationships for every event. -/
def World.start (relationships : List CopyRelationship) (ledger : B) : World B where
  provider _ := relationships
  idempotency := .empty
  ledger := ledger
  stream := []
  now := 0
  uuid4 n := ⟨BitVec.ofNat 128 n⟩
  issued := 100

def sampleEvent : NormalizedOrderEvent where
  eventId := ⟨1⟩
  occurredAt := 10
  observedAt := 11
  sourceExchange := .hyperliquid
  sourceAccountId := "source"
  idempotencyKey := "trade-01"
  traceId := "trace"
  symbol := "BTC"
  side := .buy
  positionSide := .long
  orderType := .market
  quantity := 1
  sourceAccountId_min := by decide
  idempotencyKey_min := by decide
  symbol_min := by decide
  quantity_pos := by decide
  price_pos := by simp
  triggerPrice_pos := by simp
  leverage_pos := by simp

def sampleRelationship : CopyRelationship where
  copyRelationshipId := ⟨2⟩
  followerAccountId := "follower"
  targetExchange := .aster
  targetSymbol := "BTC-PERP"
  effectiveFrom := 0

end CopyTrade
