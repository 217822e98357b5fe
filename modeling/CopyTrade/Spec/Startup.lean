import CopyTrade.Async.Widen
import CopyTrade.Spec.Bus
import CopyTrade.Spec.EnsureStream

/-!
# The start of a worker

`run()` of `main.py`, and `subscribe_json`, `ensure_consumer_config` and `publish_json` of
`bus.py`, as programs of awaited calls on the JetStream server: the streams of
`Spec/EnsureStream`, and the consumers of these streams by their durable names.

The client library's `subscribe` is a parameter (`ClientLibrary`). A bus that is given to `run()`
is a `NatsJetStreamEventBus`. The log output is left out.
-/

namespace CopyTrade

open Async (Sig Prog Machine)
open Python (Text text)
open JetStream (notFoundError notConnectedError)

/-! ## `subjects.py` -/

def copyExecutionResultSubjects : List String :=
  [copyExecutionAccepted, copyExecutionRejected, copyExecutionFilled, copyExecutionFailed]

def copyEngineNormalizedTradesDurable : String := "copy_engine_normalized_trades"
def copyEngineExecutionAcceptedDurable : String := "copy_engine_execution_accepted"
def copyEngineExecutionRejectedDurable : String := "copy_engine_execution_rejected"
def copyEngineExecutionFilledDurable : String := "copy_engine_execution_filled"
def copyEngineExecutionFailedDurable : String := "copy_engine_execution_failed"
def copyEngineDeadLetterDurable : String := "copy_engine_dead_letters"

def copyEngineExecutionResultDurables : List (String × String) :=
  [(copyExecutionAccepted, copyEngineExecutionAcceptedDurable),
    (copyExecutionRejected, copyEngineExecutionRejectedDurable),
    (copyExecutionFilled, copyEngineExecutionFilledDurable),
    (copyExecutionFailed, copyEngineExecutionFailedDurable)]

namespace Startup

/-! ## Awaited calls -/

/-- Where a recorder comes from: it is given to `run()`, it writes to the pool, or it is one of
the `Noop…Recorder`s. -/
inductive Recorder where
  | given
  | postgres
  | noop
  deriving DecidableEq, Repr

/-- The handlers that `run()` builds, with their recorders. -/
inductive EventHandler where
  | normalizedTrade (requestRecorder : Recorder)
  | copyExecutionResult (resultRecorder : Recorder)
  | deadLetter (deadLetterRecorder : Recorder)
  deriving DecidableEq, Repr

/-- What a worker awaits besides the requests for streams. `listen` is the subscription of the
client to the inbox that a consumer delivers to. -/
inductive Call where
  | createPool
  | closePool
  | connect
  | close
  | consumerInfo (stream : String) (durable : Text)
  | addConsumer (stream : String) (config : ConsumerConfig)
  | listen (deliverSubject : Option Text) (handler : EventHandler)
  | publish (stream subject : String) (data : List UInt8) (msgId : Option Text)
  | wait

/-- The server answers a configuration, or the exception of its error. -/
abbrev Ret : Call → Type
  | .consumerInfo _ _ => Except PyException ConsumerConfig
  | .addConsumer _ _ => Except PyException ConsumerConfig
  | _ => Unit

abbrev Api : Sig := JetStream.Api.widen Call Ret

def call (c : Call) : Prog Api (Ret c) := Prog.callWide (σ := JetStream.Api) c

/-- The streams and the consumers of the server, these by their stream and durable name. -/
structure Broker where
  streams : JetStream.Streams
  consumers : String → Text → Option ConsumerConfig

def Broker.putConsumer (w : Broker) (stream : String) (config : ConsumerConfig) : Broker :=
  { w with
    consumers := Function.update w.consumers stream
      (Function.update (w.consumers stream) config.durableName (some config)) }

/-- What a call does. The server takes the configuration of a consumer, present or new, where
it has the stream. -/
def effect : (c : Api.Call) → Broker → Option (Api.Ret c × Broker)
  | .inl c, w => some ((JetStream.respond c w.streams).1, { w with streams := (JetStream.respond c w.streams).2 })
  | .inr (.consumerInfo stream durable), w =>
    some ((w.consumers stream durable).elim (.error notFoundError) .ok, w)
  | .inr (.addConsumer stream config), w =>
    match w.streams stream with
    | none => some (.error notFoundError, w)
    | some _ => some (.ok config, w.putConsumer stream config)
  | .inr .createPool, w => some ((), w)
  | .inr .closePool, w => some ((), w)
  | .inr .connect, w => some ((), w)
  | .inr .close, w => some ((), w)
  | .inr (.listen _ _), w => some ((), w)
  | .inr (.publish _ _ _ _), w => some ((), w)
  | .inr .wait, w => some ((), w)

abbrev broker : Machine Api where
  State := Broker
  effect := effect
  draw w := ((), w)
  Move := Empty
  move m := nomatch m

/-! ## `bus.py` -/

structure EventBus extends NatsJetStreamEventBus where
  retryPolicy : EventRetryPolicy := {}

/-- `JetStreamContext.subscribe(subject, cb=…, durable=…, stream=…, config=…)`, with the durable
and the subject of the configuration. -/
structure ClientLibrary where
  subscribe : String → ConsumerConfig → EventHandler → Prog Api Unit

namespace EventBus

variable (library : ClientLibrary) (bus : EventBus)

def requireJetstream : Prog Api Unit :=
  if bus.connected then pure () else Prog.fail (σ := Api) notConnectedError

/-- What `ensure_consumer_config` does with the consumer that there is. -/
def alignConsumer (subject durable : Text) (currentConfig : ConsumerConfig) : Prog Api Unit :=
  if currentConfig.maxDeliver = bus.retryPolicy.maxDeliver ∧
      currentConfig.ackWait = bus.retryPolicy.ackWaitSeconds ∧
      currentConfig.filterSubject = some subject then pure ()
  else do
    let answer ← call (.addConsumer bus.streamName
      (buildConsumerConfig durable bus.retryPolicy (some subject) currentConfig.deliverSubject))
    let _ ← Prog.ofExcept (σ := Api) answer
    pure ()

/-- What follows the request for the consumer, which raises where the server answers an error. -/
def afterConsumerInfo (subject durable : Text) :
    Except PyException (Except PyException ConsumerConfig) → Prog Api Unit
  | .error e => if e = notFoundError then pure () else Prog.fail (σ := Api) e
  | .ok (.error e) => if e = notFoundError then pure () else Prog.fail (σ := Api) e
  | .ok (.ok currentConfig) => bus.alignConsumer subject durable currentConfig

def ensureConsumerConfig (subject durable : Text) : Prog Api Unit := do
  bus.requireJetstream
  let consumerInfo ← (call (.consumerInfo bus.streamName durable)).caught
  bus.afterConsumerInfo subject durable consumerInfo

def subscribeJson (subject durable : Text) (handler : EventHandler) : Prog Api Unit := do
  bus.ensureStream.widen
  bus.ensureConsumerConfig subject durable
  bus.requireJetstream
  library.subscribe bus.streamName (buildConsumerConfig durable bus.retryPolicy (some subject) none)
    handler

/-- `publish_json`, of a payload that has been encoded. -/
def publishJson (subject : String) (data : List UInt8) (msgId : Option Text) : Prog Api Unit := do
  bus.ensureStream.widen
  bus.requireJetstream
  call (.publish bus.streamName subject data msgId)

end EventBus

/-! ## `main.py` -/

/-- What is given to `run()`: the bus, and which of its other arguments there are. -/
structure RunArguments where
  eventBus : Option EventBus := none
  processor : Bool := false
  databasePool : Bool := false
  requestRecorder : Bool := false
  resultRecorder : Bool := false
  deadLetterRecorder : Bool := false

namespace RunArguments

variable (args : RunArguments)

/-- `run()` makes its own processor, and gives the recorders it lacks the pool of it. -/
def chooseRecorder (given : Bool) : Recorder :=
  if given then .given else if args.processor then .noop else .postgres

def normalizedTradeHandler : EventHandler := .normalizedTrade (args.chooseRecorder args.requestRecorder)

def resultHandler : EventHandler := .copyExecutionResult (args.chooseRecorder args.resultRecorder)

def deadLetterHandler : EventHandler := .deadLetter (args.chooseRecorder args.deadLetterRecorder)

end RunArguments

/-- `owns_event_bus` and `owns_database_pool`. -/
structure Owns where
  eventBus : Bool := false
  databasePool : Bool := false
  deriving DecidableEq

/-- The `finally` clause. -/
def cleanUp (owns : Owns) : Prog Api Unit := do
  (if owns.eventBus then call .close else pure ())
  (if owns.databasePool then call .closePool else pure ())

section

variable (library : ClientLibrary) (args : RunArguments)

def keyError : PyException := ⟨"KeyError"⟩

/-- The loop over `COPY_EXECUTION_RESULT_SUBJECTS`. -/
def subscribeResults (eventBus : EventBus) : List String → Prog Api Unit
  | [] => pure ()
  | subject :: rest =>
    match copyEngineExecutionResultDurables.lookup subject with
    | none => Prog.fail (σ := Api) keyError
    | some durable => do
      eventBus.subscribeJson library (text subject) (text durable) args.resultHandler
      subscribeResults eventBus rest

/-- The subscriptions of `run()`, and its wait for the end. -/
def subscribeAndWait (eventBus : EventBus) : Prog Api Unit := do
  eventBus.subscribeJson library (text exchangeTradeEventNormalized)
    (text copyEngineNormalizedTradesDurable) args.normalizedTradeHandler
  subscribeResults library args eventBus copyExecutionResultSubjects
  eventBus.subscribeJson library (text deadLetterEventCreated) (text copyEngineDeadLetterDurable)
    args.deadLetterHandler
  call .wait

/-- `run()` from the event bus on, with a pool that it owns or not. -/
def runOnPool (ownsDatabasePool : Bool) : Prog Api Unit :=
  match args.eventBus with
  | some eventBus =>
    (subscribeAndWait library args eventBus).tryFinally (cleanUp ⟨false, ownsDatabasePool⟩)
  | none => do
    let connected ← (call .connect).caught
    match connected with
    | .error e => do
      cleanUp ⟨false, ownsDatabasePool⟩
      Prog.fail (σ := Api) e
    | .ok () =>
      (subscribeAndWait library args {}).tryFinally (cleanUp ⟨true, ownsDatabasePool⟩)

/-- `run()`. Where the pool cannot be made, nothing is owned yet. -/
def run : Prog Api Unit :=
  if args.processor || args.databasePool then runOnPool library args false
  else do
    call .createPool
    runOnPool library args true

end

end Startup

end CopyTrade
