import CopyTrade.Python.Json
import CopyTrade.Spec.Stream

/-!
# Dead letters

What `bus.py` puts into a dead letter: the sanitized payload and the key. The payload
that arrives here is whatever the decoding had produced when it failed, and only a
mapping has `get`.

* `build_dead_letter_cases`: the builder works exactly for a mapping or for none.
-/

namespace CopyTrade

open Python (Text text Json Runtime)

variable {F : Type}

/-! ## Sanitizing -/

def redactedValue : Json F := .str (text "[redacted]")
def truncatedValue : Json F := .str (text "[truncated]")

def maxDeadLetterPayloadDepth : ℕ := 8
def maxDeadLetterListItems : ℕ := 20

def sensitiveKeySubstrings : List Text :=
  ["authorization", "apikey", "apisecret", "cookie", "credential", "password", "privatekey",
    "secret", "signature", "token"].map text

def sensitiveKeyNames : List Text := ["raw_event", "raw_response"].map text

def isSensitivePayloadKey (key : Text) : Bool :=
  let normalized := Python.replace (Python.ofChar '-') (text "_") (Python.lower (Python.strip key))
  let compact := Python.replace (Python.ofChar '_') [] normalized
  sensitiveKeyNames.contains normalized || sensitiveKeySubstrings.any (Python.contains · compact)

mutual

def sanitizeDeadLetterPayload (depth : ℕ) : Json F → Json F
  | .null => .null
  | .dict members =>
    if depth ≥ maxDeadLetterPayloadDepth then truncatedValue
    else .dict (sanitizeMembers (depth + 1) members)
  | .list items =>
    if depth ≥ maxDeadLetterPayloadDepth then truncatedValue
    else
      .list ((sanitizeItems (depth + 1) items).take maxDeadLetterListItems ++
        if items.length > maxDeadLetterListItems then [truncatedValue] else [])
  | value => if depth ≥ maxDeadLetterPayloadDepth then truncatedValue else value

/-- The loop over a mapping's items. -/
def sanitizeMembers (depth : ℕ) : List (Text × Json F) → List (Text × Json F)
  | [] => []
  | (key, value) :: members =>
    (key, if isSensitivePayloadKey key then redactedValue else sanitizeDeadLetterPayload depth value) ::
      sanitizeMembers depth members

/-- The loop over a list. -/
def sanitizeItems (depth : ℕ) : List (Json F) → List (Json F)
  | [] => []
  | value :: items => sanitizeDeadLetterPayload depth value :: sanitizeItems depth items

end

/-! ## Building -/

/-- A `nats` message. Its attempt and its sequence are `none` where reading them raises. -/
structure Msg where
  subject : Text
  data : List UInt8
  numDelivered : Option ℤ := none
  streamSequence : Option ℤ := none

def getDeliveryAttempt (message : Msg) : ℤ := message.numDelivered.getD 1

def getStreamSequence (message : Msg) : Option ℤ := message.streamSequence

/-- The dictionary of `build_dead_letter_payload`. -/
structure DeadLetter (F : Type) where
  idempotencyKey : Text
  failedSubject : Text
  deliveryAttempt : ℤ
  maxDeliveryAttempts : ℤ
  errorType : Text
  payload : Json F

variable [Runtime F]

def buildDeadLetterIdempotencyKey (failedSubject : Text) (originalIdempotencyKey : Json F)
    (streamSequence : Option ℤ) : Text :=
  if originalIdempotencyKey.truth then
    text "dlq:" ++ failedSubject ++ text ":" ++ originalIdempotencyKey.toText
  else match streamSequence with
    | some sequence =>
      text "dlq:" ++ failedSubject ++ text ":seq:" ++ Python.decimal sequence
    | none => text "dlq:" ++ failedSubject ++ text ":unknown"

def attributeError : PyException := ⟨"AttributeError"⟩

/-- `payload.get(key)`, where only a mapping has `get`. -/
def getAttr (payload : Json F) (key : Text) : Except PyException (Json F) :=
  match payload with
  | .dict members => .ok (Python.dictGet members key)
  | _ => .error attributeError

/-- `payload` is `null` where there is none. -/
def buildDeadLetterPayload (message : Msg) (payload : Json F) (exc : PyException)
    (deliveryAttempt maxDeliveryAttempts : ℤ) : Except PyException (DeadLetter F) := do
  let originalIdempotencyKey ← match payload with
    | .null => .ok .null
    | payload => getAttr payload (text "idempotency_key")
  .ok {
    idempotencyKey := buildDeadLetterIdempotencyKey message.subject originalIdempotencyKey
      (getStreamSequence message)
    failedSubject := message.subject
    deliveryAttempt := deliveryAttempt
    maxDeliveryAttempts := maxDeliveryAttempts
    errorType := text exc.name
    payload := sanitizeDeadLetterPayload 0 payload }

/-- A payload that has `get`, or none. -/
def IsMapping : Json F → Prop
  | .null => True
  | .dict _ => True
  | _ => False

/-- **When the builder works.** -/
theorem build_dead_letter_cases (message : Msg) (payload : Json F) (exc : PyException)
    (attempt cap : ℤ) :
    (IsMapping payload ∧ ∃ letter, buildDeadLetterPayload message payload exc attempt cap = .ok letter) ∨
      (¬ IsMapping payload ∧
        buildDeadLetterPayload message payload exc attempt cap = .error attributeError) := by
  cases payload with
  | null => exact Or.inl ⟨trivial, _, rfl⟩
  | dict members => exact Or.inl ⟨trivial, _, rfl⟩
  | bool b => exact Or.inr ⟨id, rfl⟩
  | int n => exact Or.inr ⟨id, rfl⟩
  | float x => exact Or.inr ⟨id, rfl⟩
  | str s => exact Or.inr ⟨id, rfl⟩
  | list items => exact Or.inr ⟨id, rfl⟩

end CopyTrade
