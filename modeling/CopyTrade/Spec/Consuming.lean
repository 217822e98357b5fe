import CopyTrade.Async.Steps
import CopyTrade.Spec.DeadLetterStore

/-!
# Consumers and their messages

The consumers that `run()` subscribes, over one stream: every message goes to the consumer
of its subject, all of them with the same retry policy and with `publish_json` as the
dead-letter publisher. The dead letters are such messages themselves.

The broker delivers a message while it is not acked and has deliveries left, one delivery
after the other, in any order over the messages. How the awaited calls go is up to the
environment, except that an ack is not lost.

* `step_cases`: all that one step can do.
-/

namespace CopyTrade

open Async (Prog Fault Served Machine)
open Python (Text text Json Runtime Floats)

variable {F : Type}

/-- A message of the stream with its deliveries, the latest first. -/
structure Tracked (F : Type) where
  message : Msg
  /-- The place of the message on whose account this one was published; its own one if it
  is no dead letter. -/
  original : ℕ
  deadLetter : Bool
  acked : Bool := false
  deliveries : List (List (Served (Bus F))) := []
  current : Prog (Bus F) Unit := .done ()

/-- The message as its `k`-th delivery brings it. -/
def atAttempt (message : Msg) (k : ℕ) : Msg := { message with numDelivered := some (k : ℤ) }

def ended : Prog (Bus F) Unit → Bool
  | .done _ => true
  | .fail _ => true
  | _ => false

def isAck : BusCall F → Bool
  | .ack => true
  | _ => false

def isNak : BusCall F → Bool
  | .nak => true
  | _ => false

def isPublish : BusCall F → Bool
  | .deadLetterPublisher _ _ => true
  | _ => false

/-- A dead letter on the stream. -/
def publishedLetter (subject : Text) (data : List UInt8) (place original : ℕ) : Tracked F where
  message := { subject := subject, data := data, streamSequence := some (place + 1 : ℕ) }
  original := original
  deadLetter := true

namespace Tracked

/-- A message that a publisher other than these consumers put on the stream. -/
def arrived (message : Msg) (place : ℕ) : Tracked F where
  message := message
  original := place
  deadLetter := false

/-- The message at its next attempt. -/
def delivered [Runtime F] (policy : EventRetryPolicy) (t : Tracked F) : Tracked F :=
  { t with
    deliveries := [] :: t.deliveries
    current := handleMessage (atAttempt t.message (t.deliveries.length + 1)) (some policy) true }

/-- A call of the latest delivery is answered. -/
def answered (t : Tracked F) (c : Served (Bus F)) (rest : Prog (Bus F) Unit) : Tracked F :=
  { t with
    acked := t.acked || isAck c.call
    deliveries := match t.deliveries with
      | [] => []
      | calls :: past => (calls ++ [c]) :: past
    current := rest }

end Tracked

/-- What the environment may do next. -/
inductive Happens where
  | arrive (message : Msg)
  | deliver (i : ℕ)
  | turn (i : ℕ) (f : Fault PyException)

variable [Floats F]

/-- The calls of a delivery of the message at place `i`: a publish that takes effect puts a
message on the stream. -/
def consumer (i : ℕ) : Machine (Bus F) where
  State := List (Tracked F)
  effect
    | .deadLetterPublisher subject letter, s => do
      let data ← encodeJsonPayload letter.toJson
      let t ← s[i]?
      some ((), s ++ [publishedLetter subject data s.length t.original])
    | _, s => some ((), s)
  draw s := ((), s)
  Move := Empty
  move m := nomatch m

/-- One step of the consumers. -/
def consume? (policy : EventRetryPolicy) (s : List (Tracked F)) : Happens → Option (List (Tracked F))
  | .arrive message => some (s ++ [Tracked.arrived message s.length])
  | .deliver i =>
    match s[i]? with
    | none => none
    | some t =>
      if ended t.current ∧ t.acked = false ∧ (t.deliveries.length : ℤ) < policy.maxDeliver then
        some (s.set i (t.delivered policy))
      else none
  | .turn i f =>
    match s[i]? with
    | none => none
    | some t =>
      match t.current with
      | .await c k =>
        -- acks are not lost
        if isAck c ∧ ¬ f.Lands then none
        else
          ((consumer i).serve c f s).map fun a =>
            List.set a.2 i (t.answered ⟨c, a.1⟩ (k a.1))
      | .fresh k => some (s.set i { t with current := k () })
      | _ => none

/-- What a call leaves on the stream: a dead letter, if it is a publish that takes effect. -/
def Leaves (s : List (Tracked F)) (original : ℕ) (c : BusCall F) (f : Fault PyException)
    (more : List (Tracked F)) : Prop :=
  (isPublish c = true ∧ f.Lands ∧ ∃ subject letter data, c = .deadLetterPublisher subject letter ∧
      encodeJsonPayload letter.toJson = some data ∧
      more = [publishedLetter subject data s.length original]) ∨
    ((isPublish c = true → ¬ f.Lands) ∧ more = [])

theorem leaves_of_serve {s s' : List (Tracked F)} {i : ℕ} {t : Tracked F} {c : BusCall F}
    {f : Fault PyException} {r : Except PyException Unit} (ht : s[i]? = some t)
    (h : (consumer i).serve c f s = some (r, s')) :
    ∃ more, Leaves s t.original c f more ∧ s' = s ++ more := by
  rcases Machine.serve_state h with ⟨hlands, a, he⟩ | ⟨hlands, rfl⟩
  · cases c with
    | deadLetterPublisher subject letter =>
      obtain ⟨data, hdata, he⟩ := Option.bind_eq_some_iff.1 he
      obtain ⟨t', ht', he⟩ := Option.bind_eq_some_iff.1 he
      have heq : t' = t := Option.some.inj (ht'.symm.trans ht)
      subst heq
      cases he
      exact ⟨_, Or.inl ⟨rfl, hlands, subject, letter, data, rfl, hdata, rfl⟩, rfl⟩
    | handler handed =>
      cases he
      exact ⟨[], Or.inr ⟨(fun h => by cases h), rfl⟩, (List.append_nil _).symm⟩
    | ack =>
      cases he
      exact ⟨[], Or.inr ⟨(fun h => by cases h), rfl⟩, (List.append_nil _).symm⟩
    | nak =>
      cases he
      exact ⟨[], Or.inr ⟨(fun h => by cases h), rfl⟩, (List.append_nil _).symm⟩
  · exact ⟨[], Or.inr ⟨fun _ => hlands, rfl⟩, (List.append_nil _).symm⟩

/-- **All that one step can do.** -/
theorem consume_cases {policy : EventRetryPolicy} {s s' : List (Tracked F)} {x : Happens}
    (h : consume? policy s x = some s') :
    (∃ message, x = .arrive message ∧ s' = s ++ [Tracked.arrived message s.length]) ∨
    (∃ i t, x = .deliver i ∧ s[i]? = some t ∧ ended t.current = true ∧ t.acked = false ∧
      (t.deliveries.length : ℤ) < policy.maxDeliver ∧ s' = s.set i (t.delivered policy)) ∨
    (∃ i f t c k r more, x = .turn i f ∧ s[i]? = some t ∧ t.current = .await c k ∧
      (isAck c = true → f.Lands) ∧ Leaves s t.original c f more ∧
      s' = s.set i (t.answered ⟨c, r⟩ (k r)) ++ more) ∨
    (∃ i f t k, x = .turn i f ∧ s[i]? = some t ∧ t.current = .fresh k ∧
      s' = s.set i { t with current := k () }) := by
  cases x with
  | arrive message => cases h; exact Or.inl ⟨message, rfl, rfl⟩
  | deliver i =>
    right; left
    simp only [consume?] at h
    split at h
    · cases h
    rename_i t ht
    split at h
    · rename_i hcond
      cases h
      exact ⟨i, t, rfl, ht, hcond.1, hcond.2.1, hcond.2.2, rfl⟩
    · cases h
  | turn i f =>
    right; right
    simp only [consume?] at h
    split at h
    · cases h
    rename_i t ht
    split at h
    · rename_i c k hcurrent
      split at h
      · cases h
      rename_i hack
      obtain ⟨⟨r, s₁⟩, hs, rfl⟩ := Option.map_eq_some_iff.1 h
      obtain ⟨more, hleaves, rfl⟩ := leaves_of_serve ht hs
      have hlt : i < s.length := (List.getElem?_eq_some_iff.1 ht).1
      left
      refine ⟨i, f, t, c, k, r, more, rfl, ht, hcurrent, ?_, hleaves, ?_⟩
      · intro ha
        by_contra hl
        exact hack ⟨ha, hl⟩
      · exact List.set_append_left _ _ hlt
    · rename_i k hcurrent
      cases h
      exact Or.inr ⟨i, f, t, k, rfl, ht, hcurrent, rfl⟩
    · cases h

end CopyTrade
