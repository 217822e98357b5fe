import CopyTrade.Async.Solo
import CopyTrade.Spec.DeadLetter
import Mathlib.Data.Rat.Defs

/-!
# The subscribing side of the bus

`handle_message` of `bus.py` as a program of awaited calls: the handler, the dead-letter
publisher, and the acknowledgements. Where these calls go is the inbox of one message.

* `decodePayload_error`: the exceptions that a body can raise.
* `deliverAll?`: the broker delivers a message again until it is acked or its
  deliveries are used up.
-/

namespace CopyTrade

open Async (Sig Prog Machine Fault Served)
open Python (Text text Json Runtime LoadsError)

variable {F : Type}

structure EventBusMessage (F : Type) where
  subject : Text
  data : List (Text × Json F)

structure EventRetryPolicy where
  maxDeliver : ℤ := 3
  ackWaitSeconds : ℚ := 30
  deadLetterSubject : Text := text deadLetterEventCreated

inductive AckPolicy where
  | none
  | all
  | explicit
  deriving DecidableEq, Repr

structure ConsumerConfig where
  durableName : Text
  ackPolicy : AckPolicy
  ackWait : ℚ
  maxDeliver : ℤ
  filterSubject : Option Text
  deliverSubject : Option Text

def buildConsumerConfig (durable : Text) (retryPolicy : EventRetryPolicy)
    (subject deliverSubject : Option Text) : ConsumerConfig where
  durableName := durable
  ackPolicy := .explicit
  ackWait := retryPolicy.ackWaitSeconds
  maxDeliver := retryPolicy.maxDeliver
  filterSubject := subject
  deliverSubject := deliverSubject

/-! ## Awaited calls -/

inductive BusCall (F : Type) where
  | handler (message : EventBusMessage F)
  | deadLetterPublisher (subject : Text) (payload : DeadLetter F)
  | ack
  | nak

abbrev Bus (F : Type) : Sig where
  Name := Unit
  Call := BusCall F
  Ret _ := Unit
  Exn := PyException

def ack : Prog (Bus F) Unit := Prog.call (σ := Bus F) .ack

def nak : Prog (Bus F) Unit := Prog.call (σ := Bus F) .nak

/-! ## Decoding -/

def unicodeDecodeError : PyException := ⟨"UnicodeDecodeError"⟩
def jsonDecodeError : PyException := ⟨"JSONDecodeError"⟩
def valueError : PyException := ⟨"ValueError"⟩

def loadsException : LoadsError → PyException
  | .jsonDecodeError => jsonDecodeError
  | .valueError => valueError
  | .unfinished => ⟨"unfinished"⟩

variable [Runtime F]

/-- `json.loads(message.data.decode("utf-8"))` -/
def decodePayload (data : List UInt8) : Except PyException (Json F) :=
  match Python.decodeUtf8 data with
  | none => .error unicodeDecodeError
  | some s =>
    match Python.loads s with
    | .ok payload => .ok payload
    | .error e => .error (loadsException e)

/-- What decoding raises. -/
theorem decodePayload_error {data : List UInt8} {e : PyException}
    (h : (decodePayload data : Except PyException (Json F)) = .error e) :
    e = unicodeDecodeError ∨ e = jsonDecodeError ∨ e = valueError := by
  unfold decodePayload at h
  split at h
  · cases h; exact Or.inl rfl
  rename_i s _
  split at h
  · cases h
  rename_i e' he
  cases h
  cases e' with
  | jsonDecodeError => exact Or.inr (Or.inl rfl)
  | valueError => exact Or.inr (Or.inr rfl)
  | unfinished => exact absurd he (Python.loads_ne_unfinished s)

/-! ## `handle_message` -/

def maybeDeadLetterMessage (message : Msg) (payload : Json F) (exc : PyException)
    (retryPolicy : Option EventRetryPolicy) (deadLetterPublisher : Bool) : Prog (Bus F) Bool :=
  match retryPolicy, deadLetterPublisher with
  | some policy, true =>
    let deliveryAttempt := getDeliveryAttempt message
    if deliveryAttempt < policy.maxDeliver then pure false
    else do
      let deadLetter ← Prog.ofExcept (σ := Bus F)
        (buildDeadLetterPayload message payload exc deliveryAttempt policy.maxDeliver)
      Prog.call (σ := Bus F) (.deadLetterPublisher policy.deadLetterSubject deadLetter)
      pure true
  | _, _ => pure false

/-- The `except` block: `payload` is what the `try` block had assigned. -/
def handleFailure (message : Msg) (payload : Json F) (exc : PyException)
    (retryPolicy : Option EventRetryPolicy) (deadLetterPublisher : Bool) : Prog (Bus F) Unit := do
  let deadLettered ← maybeDeadLetterMessage message payload exc retryPolicy deadLetterPublisher
  if deadLettered then ack
  else do
    nak
    if retryPolicy.isSome then pure () else Prog.fail exc

/-- What follows a call of the handler. -/
def afterHandler (message : Msg) (members : List (Text × Json F))
    (retryPolicy : Option EventRetryPolicy) (deadLetterPublisher : Bool) :
    Except PyException Unit → Prog (Bus F) Unit
  | .error exc => handleFailure message (.dict members) exc retryPolicy deadLetterPublisher
  | .ok _ => ack

/-- `deadLetterPublisher` is whether there is one. -/
def handleMessage (message : Msg) (retryPolicy : Option EventRetryPolicy)
    (deadLetterPublisher : Bool) : Prog (Bus F) Unit :=
  match (decodePayload message.data : Except PyException (Json F)) with
  | .error exc => handleFailure message .null exc retryPolicy deadLetterPublisher
  | .ok (.dict members) => do
    let answer ← Prog.attempt (σ := Bus F) (.handler ⟨message.subject, members⟩)
    afterHandler message members retryPolicy deadLetterPublisher answer
  -- not an object: `payload` stays assigned when the `ValueError` is raised
  | .ok payload => handleFailure message payload valueError retryPolicy deadLetterPublisher

/-! ## One message -/

/-- What has been signalled about one message, and the dead letters published on its account. -/
structure Inbox (F : Type) where
  acked : Bool := false
  naks : ℕ := 0
  deadLetters : List (Text × DeadLetter F) := []

variable (F) in
omit [Runtime F] in
/-- The machine of one message's deliveries. What the handler does is not part of it. -/
abbrev inbox : Machine (Bus F) where
  State := Inbox F
  effect
    | .handler _, s => some ((), s)
    | .deadLetterPublisher subject payload, s =>
      some ((), { s with deadLetters := s.deadLetters ++ [(subject, payload)] })
    | .ack, s => some ((), { s with acked := true })
    | .nak, s => some ((), { s with naks := s.naks + 1 })
  draw s := ((), s)
  Move := Empty
  move m := nomatch m

/-- The broker delivers the message, counting from attempt `k`, until it is acked or the
scripts are used up. -/
def deliverAll? (retryPolicy : EventRetryPolicy) (message : Msg) :
    ℕ → List (List (Fault PyException)) → Inbox F → Option (Inbox F × List (Served (Bus F)))
  | _, [], s => some (s, [])
  | k, fs :: rest, s =>
    if s.acked then some (s, [])
    else do
      let o ← (handleMessage { message with numDelivered := some k } (some retryPolicy) true).exec?
        (inbox F) fs s
      let (s', calls) ← deliverAll? retryPolicy message (k + 1) rest o.state
      some (s', o.calls ++ calls)

end CopyTrade
