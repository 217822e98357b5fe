import CopyTrade.Async.Solo
import CopyTrade.Spec.Stream
import Mathlib.Logic.Function.Basic

/-!
# Ensuring the stream

`ensure_stream` of `bus.py` as a program of awaited calls, on the configurations of the streams
that the JetStream server keeps. A request that the server refuses for a reason that is not in
them, as an overlap with another stream, is one that the environment lets raise.
-/

namespace CopyTrade

open Async (Sig Prog Machine)

namespace JetStream

def notFoundError : PyException := ⟨"NotFoundError"⟩

def badRequestError : PyException := ⟨"BadRequestError"⟩

def notConnectedError : PyException := ⟨"RuntimeError"⟩

/-! ## The server -/

inductive Request where
  | streamInfo (name : String)
  | addStream (config : StreamConfig)
  | updateStream (config : StreamConfig)
  deriving DecidableEq

/-- The server answers a configuration, or the exception of its error. -/
abbrev Api : Sig where
  Name := Unit
  Call := Request
  Ret _ := Except PyException StreamConfig
  Exn := PyException

/-- The configurations by the names of the streams. -/
abbrev Streams := String → Option StreamConfig

/-- A stream without subjects gets its name for one. -/
def stored (config : StreamConfig) : StreamConfig :=
  if config.subjects = [] then { config with subjects := [config.name] } else config

/-- The answer to a request, and the configurations after it. -/
def respond : Request → Streams → Except PyException StreamConfig × Streams
  | .streamInfo name, w => ((w name).elim (.error notFoundError) .ok, w)
  | .addStream config, w =>
    match w config.name with
    | none => (.ok (stored config), Function.update w config.name (some (stored config)))
    -- the name is in use, which is no error where the configuration is the same
    | some present => (if present = stored config then .ok present else .error badRequestError, w)
  | .updateStream config, w =>
    match w config.name with
    | none => (.error notFoundError, w)
    | some _ => (.ok (stored config), Function.update w config.name (some (stored config)))

abbrev server : Machine Api where
  State := Streams
  effect c w := some (respond c w)
  draw w := ((), w)
  Move := Empty
  move m := nomatch m

/-- `await` of a request, which raises where the server answers an error. -/
def request (c : Request) : Prog Api StreamConfig := do
  let answer ← Prog.call (σ := Api) c
  Prog.ofExcept answer

end JetStream

open JetStream

/-! ## `NatsJetStreamEventBus` -/

structure NatsJetStreamEventBus where
  streamName : String := eventStream
  streamSubjects : List String := allEventSubjects
  /-- `connect` has set `_jetstream`. -/
  connected : Bool := true
  deriving DecidableEq

namespace NatsJetStreamEventBus

variable (bus : NatsJetStreamEventBus)

def streamConfig : StreamConfig := buildStreamConfig bus.streamName bus.streamSubjects

def missingSubjects (streamInfo : StreamConfig) : List String :=
  bus.streamSubjects.filter fun subject => subject ∉ streamInfo.subjects

/-- What follows the request for the stream. -/
def afterStreamInfo : Except PyException StreamConfig → Prog JetStream.Api Unit
  | .error e =>
    if e = notFoundError then do
      let _ ← request (.addStream bus.streamConfig)
      pure ()
    else Prog.fail e
  | .ok streamInfo =>
    if bus.missingSubjects streamInfo = [] then pure ()
    else do
      let _ ← request (.updateStream bus.streamConfig)
      pure ()

def ensureStream : Prog JetStream.Api Unit :=
  if bus.connected then do
    let streamInfo ← (request (.streamInfo bus.streamName)).caught
    bus.afterStreamInfo streamInfo
  else Prog.fail (σ := JetStream.Api) notConnectedError

end NatsJetStreamEventBus

end CopyTrade
