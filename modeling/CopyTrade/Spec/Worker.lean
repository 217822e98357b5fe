import CopyTrade.Async.Embed
import CopyTrade.Spec.Bus
import CopyTrade.Spec.CopyEngine
import CopyTrade.Spec.Startup
import CopyTrade.Spec.World

/-!
# The callbacks of a worker

`build_message_callback` around the handlers that `run()` subscribes: one delivery of a message,
as the awaited calls of the bus and, in place of the call of the handler, those of the handler.
-/

namespace CopyTrade

open Async (Sig Prog Machine Interpretation)
open Python (Text Json Runtime)

variable {F : Type}

/-- What a delivery awaits besides the calls of the copy engine. -/
inductive DeliveryCall (F : Type) where
  | recordDeadLetter (payload : List (Text × Json F))
  | deadLetterPublisher (subject : Text) (payload : DeadLetter F)
  | ack
  | nak

def DeliveryCall.isAck : DeliveryCall F → Bool
  | .ack => true
  | _ => false

abbrev Worker (F : Type) : Sig := CopyEngine.widen (DeliveryCall F) fun _ => Unit

/-- `model_validate` of the two event models. -/
structure EventModels (F : Type) where
  normalizedOrderEvent : List (Text × Json F) → Except PyException NormalizedOrderEvent
  copyExecutionResult : List (Text × Json F) → Except PyException CopyExecutionResult

/-- `handle_dead_letter_event` -/
def handleDeadLetterEvent (message : EventBusMessage F) : Prog (Worker F) Unit :=
  Prog.call (σ := Worker F) (.inr (.recordDeadLetter message.data))

/-- The handlers that `run()` subscribes. Where a recorder writes to is not theirs. -/
def Startup.EventHandler.handle (models : EventModels F) (message : EventBusMessage F) :
    Startup.EventHandler → Prog (Worker F) Unit
  | .normalizedTrade _ =>
    (handleNormalizedTradeEvent (models.normalizedOrderEvent message.data)).widen
  | .copyExecutionResult _ =>
    (handleCopyExecutionResultEvent (models.copyExecutionResult message.data)).widen
  | .deadLetter _ => handleDeadLetterEvent message

/-- The calls of `handle_message`. What the handler raises it answers. -/
def busCalls (models : EventModels F) (handler : Startup.EventHandler) :
    Interpretation (Bus F) (Worker F) where
  draw := pure ()
  raise exc := exc
  answer
    | .handler message => (handler.handle models message).caught
    | .deadLetterPublisher subject payload =>
      Prog.attempt (σ := Worker F) (.inr (.deadLetterPublisher subject payload))
    | .ack => Prog.attempt (σ := Worker F) (.inr .ack)
    | .nak => Prog.attempt (σ := Worker F) (.inr .nak)

/-- A delivery of a message to a subscription: its handler, its retry policy, and whether it has
a dead-letter publisher. -/
structure MessageDelivery where
  handler : Startup.EventHandler
  message : Msg
  retryPolicy : Option EventRetryPolicy
  deadLetterPublisher : Bool

/-- `wrapped` of `build_message_callback`. -/
def MessageDelivery.wrapped [Runtime F] (models : EventModels F) (d : MessageDelivery) : Prog (Worker F) Unit :=
  (handleMessage d.message d.retryPolicy d.deadLetterPublisher).interpret
    (busCalls models d.handler)

/-- The machine the callbacks run on. The signals to the broker and the dead letters leave the
world of the copy engine alone. -/
abbrev workers (F B : Type) [Ledger B] : Machine (Worker F) where
  State := World B
  effect
    | .inl c, w => effect c w
    | .inr _, w => some ((), w)
  draw := (engine B).draw
  Move := Move
  move := (engine B).move

end CopyTrade
