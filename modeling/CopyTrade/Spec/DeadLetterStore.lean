import CopyTrade.Python.Decoded
import CopyTrade.Spec.Bus
import CopyTrade.Spec.Events
import CopyTrade.Sql.Table
import CopyTrade.Sql.Column

/-!
# The dead-letter store

A dead letter on its way from the bus to the operator: encoded, decoded again by the
consumer of its subject, recorded in `dead_letter_events`, and listed.

A `text` column takes what UTF-8 can encode, without `U+0000`. The `jsonb` column reads
a text as Python does, except for the tokens that are not JSON, escapes of `U+0000` and
surrogates without a partner. `asyncpg` hands a `jsonb` column back as its text
(`jsonbText`). The id is the one that `gen_random_uuid()` draws.
-/

namespace CopyTrade

open Python (Text text Json Runtime Floats FloatKind)

variable {F : Type}

/-! ## On the bus -/

def DeadLetter.toJson (letter : DeadLetter F) : List (Text × Json F) :=
  [(text "idempotency_key", .str letter.idempotencyKey),
    (text "failed_subject", .str letter.failedSubject),
    (text "delivery_attempt", .int letter.deliveryAttempt),
    (text "max_delivery_attempts", .int letter.maxDeliveryAttempts),
    (text "error_type", .str letter.errorType),
    (text "payload", letter.payload)]

/-- `encode_json_payload` of a mapping; `none` where it raises. -/
def encodeJsonPayload [Floats F] (payload : List (Text × Json F)) : Option (List UInt8) := do
  let serialized ← Python.dumps (.dict payload)
  Python.encodeUtf8 serialized

/-- `build_publish_headers` of a mapping: the message id. -/
def publishHeaders [Runtime F] (payload : List (Text × Json F)) : Option Text :=
  let idempotencyKey := Python.dictGet payload (text "idempotency_key")
  if idempotencyKey.truth then some idempotencyKey.toText else none

/-- What `publish_json` hands to the stream. -/
structure DeadLetterPublication where
  subject : Text
  data : Option (List UInt8)
  messageId : Option Text

/-- `publish_json` of a dead letter. -/
def publishDeadLetter [Floats F] (subject : Text) (letter : DeadLetter F) :
    DeadLetterPublication where
  subject := subject
  data := encodeJsonPayload letter.toJson
  messageId := publishHeaders letter.toJson

/-- The data that `handle_message` hands to the handler. -/
def receivedData [Runtime F] (data : List UInt8) : Option (List (Text × Json F)) :=
  match (decodePayload data : Except PyException (Json F)) with
  | .ok (.dict members) => some members
  | _ => none

/-! ## `dead_letter_events` -/

inductive DeadLetterStatus where
  | open
  | acknowledged
  | reprocessed
  | ignored
  deriving DecidableEq, Repr

/-- A text that a column takes. -/
def textStorable (s : Text) : Bool := (Python.encodeUtf8 s).isSome && s.all fun c => c.val ≠ 0

mutual

/-- A value that `jsonb` takes. -/
def jsonbStorable [Floats F] : Json F → Bool
  | .float x => Floats.kind x = .finite
  | .str s => textStorable s
  | .list items => itemsStorable items
  | .dict members => membersStorable members
  | _ => true

def itemsStorable [Floats F] : List (Json F) → Bool
  | [] => true
  | v :: vs => jsonbStorable v && itemsStorable vs

def membersStorable [Floats F] : List (Text × Json F) → Bool
  | [] => true
  | (key, v) :: ms => textStorable key && jsonbStorable v && membersStorable ms

end

/-- `text` -/
def textColumn? (s : Text) : Option Text := if textStorable s then some s else none

/-- `text::jsonb` -/
def jsonbColumn? [Floats F] (s : Text) : Option (Json F) :=
  match Python.loads s with
  | .ok v => if jsonbStorable v then some v else none
  | .error _ => none

structure DeadLetterEventRow (F : Type) where
  id : UUID
  idempotencyKey : Text
  failedSubject : Text
  deliveryAttempt : ℤ
  maxDeliveryAttempts : ℤ
  errorType : Text
  payload : Option (Json F)
  status : DeadLetterStatus
  createdAt : Timestamp
  updatedAt : Timestamp
  delivery_attempt_positive : 0 < deliveryAttempt
  max_delivery_attempts_positive : 0 < maxDeliveryAttempts

instance : Sql.Constrained (DeadLetterEventRow F) where
  Clash a b := a.id = b.id ∨ a.idempotencyKey = b.idempotencyKey
  clash_symm h := h.imp Eq.symm Eq.symm
  decidable _ _ := inferInstance

/-- The arguments of `INSERT_DEAD_LETTER_EVENT_SQL`. -/
structure DeadLetterArguments where
  idempotencyKey : Text
  failedSubject : Text
  deliveryAttempt : ℤ
  maxDeliveryAttempts : ℤ
  errorType : Text
  payload : Text

/-- The row of the insert; `none` where a column or a CHECK refuses it. -/
def deadLetterRow? [Floats F] (id : UUID) (now : Timestamp) (a : DeadLetterArguments) :
    Option (DeadLetterEventRow F) := do
  let idempotencyKey ← textColumn? a.idempotencyKey
  let failedSubject ← textColumn? a.failedSubject
  let deliveryAttempt ← Sql.integer? a.deliveryAttempt
  let maxDeliveryAttempts ← Sql.integer? a.maxDeliveryAttempts
  let errorType ← textColumn? a.errorType
  let payload ← jsonbColumn? a.payload
  if h : 0 < deliveryAttempt ∧ 0 < maxDeliveryAttempts then
    some {
      id := id
      idempotencyKey := idempotencyKey
      failedSubject := failedSubject
      deliveryAttempt := deliveryAttempt
      maxDeliveryAttempts := maxDeliveryAttempts
      errorType := errorType
      payload := some payload
      status := .open
      createdAt := now
      updatedAt := now
      delivery_attempt_positive := h.1
      max_delivery_attempts_positive := h.2 }
  else none

/-! ## Recording -/

/-- What goes wrong in `record`: an exception of Python, or a refused statement. -/
inductive RecordError where
  | raised (e : PyException)
  | refused

def keyError : PyException := ⟨"KeyError"⟩
def typeError : PyException := ⟨"TypeError"⟩
def overflowError : PyException := ⟨"OverflowError"⟩

/-- `payload[key]` -/
def getItem (payload : List (Text × Json F)) (key : Text) : Except RecordError (Json F) :=
  match payload.find? fun m => m.1 = key with
  | some m => .ok m.2
  | none => .error (.raised keyError)

/-- What `int` makes of a text and of a finite float. -/
class Conversions (F : Type) where
  intOfText : Text → Option ℤ
  intOfFloat : F → ℤ

instance : Conversions Unit where
  intOfText _ := none
  intOfFloat _ := 0

/-- `int(value)` -/
def toInt [Floats F] [Conversions F] : Json F → Except RecordError ℤ
  | .int n => .ok n
  | .bool b => .ok (if b then 1 else 0)
  | .float x =>
    match Floats.kind x with
    | .finite => .ok (Conversions.intOfFloat x)
    | .nan => .error (.raised valueError)
    | _ => .error (.raised overflowError)
  | .str s =>
    match Conversions.intOfText F s with
    | some n => .ok n
    | none => .error (.raised valueError)
  | _ => .error (.raised typeError)

section

variable [Floats F] [Conversions F]

/-- The arguments of `record`, in the order in which they are evaluated. -/
def recordArguments (payload : List (Text × Json F)) : Except RecordError DeadLetterArguments := do
  let idempotencyKey ← getItem payload (text "idempotency_key")
  let failedSubject ← getItem payload (text "failed_subject")
  let deliveryAttempt ← toInt (← getItem payload (text "delivery_attempt"))
  let maxDeliveryAttempts ← toInt (← getItem payload (text "max_delivery_attempts"))
  let errorType ← getItem payload (text "error_type")
  match Python.dumps (sanitizeDeadLetterPayload 0 (Python.dictGet payload (text "payload"))) with
  | none => .error (.raised valueError)
  | some dumped =>
    .ok {
      idempotencyKey := idempotencyKey.toText
      failedSubject := failedSubject.toText
      deliveryAttempt := deliveryAttempt
      maxDeliveryAttempts := maxDeliveryAttempts
      errorType := errorType.toText
      payload := dumped }

/-- `INSERT_DEAD_LETTER_EVENT_SQL` -/
def insertDeadLetterEvent (id : UUID) (now : Timestamp) (arguments : DeadLetterArguments)
    (events : Sql.Table (DeadLetterEventRow F)) :
    Except RecordError (Sql.Table (DeadLetterEventRow F)) :=
  match deadLetterRow? id now arguments with
  | none => .error .refused
  | some row =>
    match events.insertOrIgnore? DeadLetterEventRow.idempotencyKey row with
    | none => .error .refused
    | some (events', _) => .ok events'

/-- `PostgresDeadLetterEventRecorder.record` -/
def PostgresDeadLetterEventRecorder.record (id : UUID) (now : Timestamp)
    (payload : List (Text × Json F)) (events : Sql.Table (DeadLetterEventRow F)) :
    Except RecordError (Sql.Table (DeadLetterEventRow F)) := do
  let arguments ← recordArguments payload
  insertDeadLetterEvent id now arguments events

/-- A dead letter on its way into the store: encoded, decoded again, recorded. -/
def store (id : UUID) (now : Timestamp) (letter : DeadLetter F)
    (events : Sql.Table (DeadLetterEventRow F)) :
    Option (Except RecordError (Sql.Table (DeadLetterEventRow F))) := do
  let data ← encodeJsonPayload letter.toJson
  let payload ← receivedData data
  some (PostgresDeadLetterEventRecorder.record id now payload events)

end

/-! ## Listing -/

structure DeadLetterEventRecord (F : Type) where
  id : UUID
  idempotencyKey : Text
  failedSubject : Text
  deliveryAttempt : ℤ
  maxDeliveryAttempts : ℤ
  errorType : Text
  payload : Json F
  status : DeadLetterStatus
  createdAt : Timestamp
  updatedAt : Timestamp

/-- `DeadLetterEventResponse`, whose payload is a dictionary or `None`. -/
structure DeadLetterEventResponse (F : Type) where
  id : UUID
  idempotencyKey : Text
  failedSubject : Text
  deliveryAttempt : ℤ
  maxDeliveryAttempts : ℤ
  errorType : Text
  payload : Option (List (Text × Json F))
  status : DeadLetterStatus
  createdAt : Timestamp
  updatedAt : Timestamp

section

variable (jsonbText : Json F → Text)

/-- What `asyncpg` makes of a `jsonb` column. -/
def fetchJsonb : Option (Json F) → Json F
  | none => .null
  | some v => .str (jsonbText v)

/-- `_row_to_dead_letter_event` -/
def rowToDeadLetterEvent (row : DeadLetterEventRow F) : DeadLetterEventRecord F where
  id := row.id
  idempotencyKey := row.idempotencyKey
  failedSubject := row.failedSubject
  deliveryAttempt := row.deliveryAttempt
  maxDeliveryAttempts := row.maxDeliveryAttempts
  errorType := row.errorType
  payload := fetchJsonb jsonbText row.payload
  status := row.status
  createdAt := row.createdAt
  updatedAt := row.updatedAt

/-- `list_dead_letter_events` -/
def listDeadLetterEvents (statusFilter : Option DeadLetterStatus) (limit offset : ℕ)
    (events : Sql.Table (DeadLetterEventRow F)) : List (DeadLetterEventRecord F) :=
  let rows := events.rows.filter fun row => statusFilter.all (row.status = ·)
  let ordered := rows.mergeSort fun a b => b.createdAt ≤ a.createdAt
  ((ordered.drop offset).take limit).map (rowToDeadLetterEvent jsonbText)

end

/-- `dead_letter_event_to_response` -/
def deadLetterEventToResponse (record : DeadLetterEventRecord F) :
    Except PyException (DeadLetterEventResponse F) := do
  let payload ← match sanitizeDeadLetterPayload 0 record.payload with
    | .null => .ok none
    | .dict members => .ok (some members)
    | _ => .error validationError
  .ok {
    id := record.id
    idempotencyKey := record.idempotencyKey
    failedSubject := record.failedSubject
    deliveryAttempt := record.deliveryAttempt
    maxDeliveryAttempts := record.maxDeliveryAttempts
    errorType := record.errorType
    payload := payload
    status := record.status
    createdAt := record.createdAt
    updatedAt := record.updatedAt }

end CopyTrade
