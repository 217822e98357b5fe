import CopyTrade.Spec.Bus

/-!
# What becomes of a message

The `except` block of `handle_message` runs when the deliveries are used up, so nothing
that goes wrong inside it is tried again. It goes wrong in two ways: the publisher raises,
and the builder asks a payload for `get` that has none.

* `kept_iff_published`: a message with an object body is handled or dead-lettered,
  exactly when a handler returns or the one publish takes effect.
* `dead_lettered_iff_mapping`: a body that fails is dead-lettered, exactly when it does
  not decode, or to an object or null.
-/

namespace CopyTrade

open Async (Prog Fault Served Outcome Ending Machine)
open Python (Text text Json Runtime)

variable {F : Type} [Runtime F]

/-! ## The failure path -/

section

variable {message : Msg} {policy : EventRetryPolicy} (payload : Json F) (exc : PyException)

/-- Before the last attempt: ask for another delivery. -/
theorem handleFailure_retry (h : getDeliveryAttempt message < policy.maxDeliver) :
    handleFailure message payload exc (some policy) true = (nak >>= fun _ => pure ()) := by
  simp only [handleFailure, maybeDeadLetterMessage, h, if_true, Prog.pure_eq, Prog.bind_done]
  rfl

/-- On the last attempt: publish the letter that the builder makes, then ack. -/
theorem handleFailure_letter {letter : DeadLetter F}
    (h : policy.maxDeliver ≤ getDeliveryAttempt message)
    (hletter : buildDeadLetterPayload message payload exc (getDeliveryAttempt message)
      policy.maxDeliver = .ok letter) :
    handleFailure message payload exc (some policy) true =
      (Prog.call (σ := Bus F) (.deadLetterPublisher policy.deadLetterSubject letter) >>=
        fun _ => ack) := by
  have hlt : ¬ getDeliveryAttempt message < policy.maxDeliver := by omega
  simp only [handleFailure, maybeDeadLetterMessage, hlt, if_false, hletter, Prog.bind_assoc,
    Prog.pure_eq]
  rfl

/-- On the last attempt, for a mapping or none: publish, then ack. -/
theorem handleFailure_last (h : policy.maxDeliver ≤ getDeliveryAttempt message)
    (hmap : IsMapping payload) : ∃ letter, handleFailure message payload exc (some policy) true =
      (Prog.call (σ := Bus F) (.deadLetterPublisher policy.deadLetterSubject letter) >>=
        fun _ => ack) := by
  rcases build_dead_letter_cases message payload exc (getDeliveryAttempt message) policy.maxDeliver
    with ⟨-, letter, hletter⟩ | ⟨hn, -⟩
  · exact ⟨letter, handleFailure_letter payload exc h hletter⟩
  · exact absurd hmap hn

/-- On the last attempt, for any other payload: the builder raises. -/
theorem handleFailure_unreadable (h : policy.maxDeliver ≤ getDeliveryAttempt message)
    (hmap : ¬ IsMapping payload) :
    handleFailure message payload exc (some policy) true = Prog.fail attributeError := by
  have hlt : ¬ getDeliveryAttempt message < policy.maxDeliver := by omega
  rcases build_dead_letter_cases message payload exc (getDeliveryAttempt message) policy.maxDeliver
    with ⟨hm, -⟩ | ⟨-, he⟩
  · exact absurd hm hmap
  · simp only [handleFailure, maybeDeadLetterMessage, hlt, if_false, he]
    rfl

end

/-! ## Bodies that fail on the last attempt -/

/-- The handler raises, the publisher and the acknowledgements do not. -/
def Failing : Served (Bus F) → Prop
  | ⟨.handler _, reply⟩ => reply ≠ .ok ()
  | ⟨_, reply⟩ => reply = .ok ()

/-- One delivery of a message whose handler raises or is not reached, to its end. -/
structure Undelivered (message : Msg) (policy : EventRetryPolicy) (fs : List (Fault PyException))
    (o : Outcome (inbox F) Unit) : Prop where
  exec : (handleMessage message (some policy) true).exec? (inbox F) fs {} = some o
  fails : ∀ c ∈ o.calls, Failing c
  ends : o.ending ≠ .stopped

/-- Exactly one dead letter, an ack, and no exception. -/
def DeadLettered (o : Outcome (inbox F) Unit) : Prop :=
  o.ending = .returned () ∧ o.state.deadLetters.length = 1 ∧ o.state.acked = true

/-- The body does not decode, or to an object or null. -/
def BodyIsMapping (F : Type) [Runtime F] (data : List UInt8) : Prop :=
  ∀ payload : Json F, decodePayload data = .ok payload → IsMapping payload

omit [Runtime F] in
/-- Publishing and acking, where neither raises. -/
theorem published_exec {subject : Text} {letter : DeadLetter F} {fs : List (Fault PyException)}
    {s : Inbox F} {o : Outcome (inbox F) Unit}
    (ho : (Prog.call (σ := Bus F) (.deadLetterPublisher subject letter) >>= fun _ => ack).exec?
      (inbox F) fs s = some o)
    (hfails : ∀ c ∈ o.calls, Failing c) (hends : o.ending ≠ .stopped) :
    o.ending = .returned () ∧ o.state.deadLetters = s.deadLetters ++ [(subject, letter)] ∧
      o.state.acked = true := by
  rcases Prog.exec_call_bind ho with ⟨rfl, rfl⟩ | ⟨fs', a, s', o', rfl, he, h', rfl⟩ |
    ⟨f, fs', e, s', rfl, hf, hs, rfl⟩
  · exact absurd rfl hends
  · cases he
    rcases Prog.exec_call h' with ⟨rfl, rfl⟩ | ⟨fs'', a', s'', rfl, he', rfl⟩ |
      ⟨f, fs'', e, s'', rfl, hf, hs, rfl⟩
    · exact absurd rfl hends
    · cases he'; exact ⟨rfl, rfl, rfl⟩
    · have : Failing (⟨.ack, .error e⟩ : Served (Bus F)) := hfails _ (by simp)
      cases this
  · have : Failing (⟨.deadLetterPublisher subject letter, .error e⟩ : Served (Bus F)) :=
      hfails _ List.mem_cons_self
    cases this

omit [Runtime F] in
/-- The handler does not touch the message. -/
theorem handler_serve {message : EventBusMessage F} {f : Fault PyException} {s s' : Inbox F}
    {r : Except PyException Unit} (h : (inbox F).serve (.handler message) f s = some (r, s')) :
    s' = s := by
  rcases Machine.serve_state h with ⟨-, a, ha⟩ | ⟨-, rfl⟩
  · cases ha; rfl
  · rfl

omit [Runtime F] in
/-- There is such an execution. -/
theorem published_runs (subject : Text) (letter : DeadLetter F) (s : Inbox F) :
    ∃ o, (Prog.call (σ := Bus F) (.deadLetterPublisher subject letter) >>= fun _ => ack).exec?
      (inbox F) [.works, .works] s = some o ∧ (∀ c ∈ o.calls, Failing c) ∧ o.ending ≠ .stopped := by
  refine ⟨_, rfl, fun c hc => ?_, by intro h; cases h⟩
  rcases List.mem_cons.1 hc with rfl | hc
  · rfl
  · rw [List.mem_singleton.1 hc]; rfl

/-- An object goes to the handler, and to the failure path if the handler raises. -/
theorem handle_object {message : Msg} {members : List (Text × Json F)} (policy : EventRetryPolicy)
    (hd : decodePayload message.data = .ok (.dict members)) :
    handleMessage message (some policy) true =
      (Prog.attempt (σ := Bus F) (.handler ⟨message.subject, members⟩) >>=
        afterHandler message members (some policy) true) := by
  simp only [handleMessage, hd]

/-- The handler raises, and its exception leads to the failure path. -/
theorem handler_raises {message : Msg} {policy : EventRetryPolicy} {members : List (Text × Json F)}
    (hd : decodePayload message.data = .ok (.dict members)) {exc : PyException}
    {fs : List (Fault PyException)} {s : Inbox F} {o : Outcome (inbox F) Unit}
    (ho : (handleFailure message (.dict members) exc (some policy) true).exec? (inbox F) fs s =
      some o) :
    (handleMessage message (some policy) true).exec? (inbox F) (.before exc :: fs) s =
      some (o.after [(⟨.handler ⟨message.subject, members⟩, .error exc⟩ : Served (Bus F))]) := by
  rw [handle_object policy hd]
  unfold Prog.attempt
  rw [Prog.bind_await, Prog.exec_await_cons]
  show ((afterHandler message members (some policy) true (.error exc)).exec? (inbox F) fs s).map _ = _
  rw [afterHandler, ho]
  rfl

/-- **What `handle_message` does with a body**: it goes to the failure path with anything
but an object. -/
theorem handle_cases (message : Msg) (policy : EventRetryPolicy) :
    (∃ members : List (Text × Json F), decodePayload message.data = .ok (.dict members)) ∨
    ∃ (payload : Json F) (exc : PyException), handleMessage message (some policy) true =
        handleFailure message payload exc (some policy) true ∧
      (BodyIsMapping F message.data ↔ IsMapping payload) := by
  cases hd : (decodePayload message.data : Except PyException (Json F)) with
  | error exc =>
    refine Or.inr ⟨.null, exc, by unfold handleMessage; rw [hd], fun _ => trivial, fun _ => ?_⟩
    intro payload hp
    rw [hd] at hp; cases hp
  | ok payload =>
    have hbody : BodyIsMapping F message.data ↔ IsMapping payload := by
      constructor
      · intro h; exact h payload hd
      · intro h payload' hp
        rw [hd] at hp; cases hp; exact h
    cases payload with
    | dict members => exact Or.inl ⟨members, rfl⟩
    | null => exact Or.inr ⟨_, valueError, by unfold handleMessage; rw [hd], hbody⟩
    | bool b => exact Or.inr ⟨_, valueError, by unfold handleMessage; rw [hd], hbody⟩
    | int n => exact Or.inr ⟨_, valueError, by unfold handleMessage; rw [hd], hbody⟩
    | float x => exact Or.inr ⟨_, valueError, by unfold handleMessage; rw [hd], hbody⟩
    | str t => exact Or.inr ⟨_, valueError, by unfold handleMessage; rw [hd], hbody⟩
    | list items => exact Or.inr ⟨_, valueError, by unfold handleMessage; rw [hd], hbody⟩

/-- **Every undeliverable body is dead-lettered**, exactly when it is no array, string, number
or boolean: on the last attempt, with a handler that raises or is not reached and a
publisher that works. -/
theorem dead_lettered_iff_mapping {message : Msg} {policy : EventRetryPolicy}
    (hlast : policy.maxDeliver ≤ getDeliveryAttempt message) :
    (∃ fs, ∃ o : Outcome (inbox F) Unit, Undelivered message policy fs o) ∧
      ∀ fs (o : Outcome (inbox F) Unit), Undelivered message policy fs o →
        (DeadLettered o ↔ BodyIsMapping F message.data) := by
  -- an object reaches the handler, and any other body fails before it
  rcases handle_cases (F := F) message policy with ⟨members, hd⟩ | ⟨payload, exc, hprog, hbody⟩
  · have hprog := handle_object policy hd
    have hbody : BodyIsMapping F message.data := by
      intro payload hp
      rw [hd] at hp; cases hp; trivial
    constructor
    · obtain ⟨letter, hlater⟩ :=
        handleFailure_last (.dict members) valueError hlast trivial
      obtain ⟨o, ho, hfails, hends⟩ :=
        published_runs policy.deadLetterSubject letter ({} : Inbox F)
      have hrun : (handleFailure message (.dict members) valueError (some policy) true).exec?
          (inbox F) [.works, .works] {} = some o := by rw [hlater]; exact ho
      refine ⟨[.before valueError, .works, .works],
        o.after [⟨.handler ⟨message.subject, members⟩, .error valueError⟩], ?_, ?_, hends⟩
      · exact handler_raises hd hrun
      · intro c hc
        rcases List.mem_cons.1 hc with rfl | hc
        · intro h; cases h
        · exact hfails c hc
    · intro fs o h
      refine iff_of_true ?_ hbody
      have ho := h.exec
      rw [hprog] at ho
      rcases Prog.exec_attempt_bind ho with ⟨rfl, rfl⟩ | ⟨f, fs', r, s', o', rfl, hs, ho', rfl⟩
      · exact absurd rfl h.ends
      have hr : Failing (⟨.handler ⟨message.subject, members⟩, r⟩ : Served (Bus F)) :=
        h.fails _ List.mem_cons_self
      have hs' : s' = {} := handler_serve hs
      cases r with
      | ok a => exact absurd rfl hr
      | error e =>
        obtain ⟨letter, hlater⟩ :=
          handleFailure_last (.dict members) e hlast trivial
        rw [afterHandler, hlater] at ho'
        obtain ⟨h1, h2, h3⟩ := published_exec ho'
          (fun c hc => h.fails c (List.mem_cons_of_mem _ hc)) h.ends
        refine ⟨h1, ?_, h3⟩
        rw [Outcome.after_state, h2, hs']; rfl
  by_cases hmap : IsMapping payload
  · obtain ⟨letter, hlater⟩ := handleFailure_last payload exc hlast hmap
    rw [hlater] at hprog
    constructor
    · obtain ⟨o, ho, hfails, hends⟩ :=
        published_runs policy.deadLetterSubject letter ({} : Inbox F)
      exact ⟨_, o, by rw [hprog]; exact ho, hfails, hends⟩
    · intro fs o h
      have ho := h.exec
      rw [hprog] at ho
      obtain ⟨h1, h2, h3⟩ := published_exec ho h.fails h.ends
      exact iff_of_true ⟨h1, by rw [h2]; rfl, h3⟩ (hbody.2 hmap)
  · -- the builder asks a list, a text, a number or a boolean for `get`
    rw [handleFailure_unreadable payload exc hlast hmap] at hprog
    constructor
    · refine ⟨[], ⟨.raised attributeError, {}, [], []⟩, by rw [hprog]; rfl, ?_, ?_⟩
      · intro c hc; cases hc
      · intro h; cases h
    · intro fs o h
      have ho := h.exec
      rw [hprog, Prog.exec_fail] at ho
      cases ho
      refine iff_of_false ?_ fun hb => hmap (hbody.1 hb)
      rintro ⟨h1, -, -⟩
      cases h1

/-- The last attempt of a message. -/
def sampleMessage (body : String) : Msg where
  subject := text exchangeTradeEventNormalized
  data := Python.ascii body
  numDelivered := some 3
  streamSequence := some 42

/-- A body cut short is dead-lettered. -/
theorem dead_lettered_iff_mapping_cut_short :
    ∃ fs, ∃ o : Outcome (inbox Unit) Unit, Undelivered (sampleMessage "\x7b") {} fs o ∧ DeadLettered o := by
  have hlast : (EventRetryPolicy.mk 3 30 (text deadLetterEventCreated)).maxDeliver ≤
    getDeliveryAttempt (sampleMessage "\x7b") := by decide
  obtain ⟨⟨fs, o, h⟩, hiff⟩ := dead_lettered_iff_mapping (F := Unit) hlast
  refine ⟨fs, o, h, (hiff fs o h).2 ?_⟩
  have hd : decodePayload (sampleMessage "\x7b").data =
    (.error jsonDecodeError : Except PyException (Json Unit)) := rfl
  intro payload hp
  rw [hd] at hp; cases hp

/-- **An array is neither dead-lettered nor acked**: the builder raises out of the `except`
block. -/
theorem array_body_not_dead_lettered :
    ¬ ∀ (message : Msg) (policy : EventRetryPolicy) (fs : List (Fault PyException))
      (o : Outcome (inbox Unit) Unit), policy.maxDeliver ≤ getDeliveryAttempt message →
      Undelivered message policy fs o → DeadLettered o := by
  intro hall
  have hrun : (handleMessage (sampleMessage "[]") (some {}) true : Prog (Bus Unit) Unit).exec?
      (inbox Unit) [] {} = some ⟨.raised attributeError, {}, [], []⟩ := rfl
  have h := hall (sampleMessage "[]") {} [] _ (by decide)
    ⟨hrun, fun c hc => (by cases hc), fun h => (by cases h)⟩
  cases h.1

/-! ## All deliveries of one message -/

/-- The handler returns normally. -/
def handlerReturns : List (Fault PyException) → Bool
  | f :: _ => f = .works
  | [] => false

/-- The handler raises, and the dead letter is published. -/
def publishLands : List (Fault PyException) → Bool
  | f :: g :: _ => f ≠ .works && decide g.Lands
  | _ => false

/-- The handler returned normally on some delivery. -/
def Handled (calls : List (Served (Bus F))) : Prop :=
  ∃ message, ⟨.handler message, .ok ()⟩ ∈ calls

omit [Runtime F] in
theorem handled_append {a b : List (Served (Bus F))} : Handled (a ++ b) ↔ Handled a ∨ Handled b := by
  unfold Handled
  simp only [List.mem_append, exists_or]

/-- One delivery of an object, on attempt `k` of at most `max`. -/
structure Attempt (last : Bool) (fs : List (Fault PyException)) (s : Inbox F)
    (o : Outcome (inbox F) Unit) : Prop where
  handled : Handled o.calls ↔ handlerReturns fs = true
  published : o.state.deadLetters ≠ [] ↔
    s.deadLetters ≠ [] ∨ (last = true ∧ publishLands fs = true)
  retried : handlerReturns fs = false → last = false → o.state.acked = s.acked

omit [Runtime F] in
theorem not_handled_nil : ¬ Handled ([] : List (Served (Bus F))) := by
  rintro ⟨m, hm⟩
  cases hm

omit [Runtime F] in
theorem not_handled_singleton {c : Served (Bus F)} (h : ∀ m, c.call ≠ .handler m) :
    ¬ Handled [c] := by
  rintro ⟨m, hm⟩
  rw [← List.mem_singleton.1 hm] at h
  exact h m rfl

omit [Runtime F] in
/-- Acking touches no dead letter. -/
theorem ack_exec {fs : List (Fault PyException)} {s : Inbox F} {o : Outcome (inbox F) Unit}
    (ho : (ack : Prog (Bus F) Unit).exec? (inbox F) fs s = some o) :
    o.state.deadLetters = s.deadLetters ∧ ¬ Handled o.calls := by
  rcases Prog.exec_call ho with ⟨rfl, rfl⟩ | ⟨fs', a, s', rfl, he, rfl⟩ |
    ⟨f, fs', e, s', rfl, hf, hs, rfl⟩
  · exact ⟨rfl, not_handled_nil⟩
  · cases he
    exact ⟨rfl, not_handled_singleton fun m h => by cases h⟩
  · refine ⟨?_, not_handled_singleton fun m h => by cases h⟩
    rcases Machine.serve_state hs with ⟨-, a, ha⟩ | ⟨-, rfl⟩
    · cases ha; rfl
    · rfl

omit [Runtime F] in
/-- Asking for another delivery touches neither the ack nor a dead letter. -/
theorem nak_exec {fs : List (Fault PyException)} {s : Inbox F} {o : Outcome (inbox F) Unit}
    (ho : ((nak : Prog (Bus F) Unit) >>= fun _ => pure ()).exec? (inbox F) fs s = some o) :
    o.state.deadLetters = s.deadLetters ∧ o.state.acked = s.acked ∧ ¬ Handled o.calls := by
  rcases Prog.exec_call_bind ho with ⟨rfl, rfl⟩ | ⟨fs', a, s', o', rfl, he, h', rfl⟩ |
    ⟨f, fs', e, s', rfl, hf, hs, rfl⟩
  · exact ⟨rfl, rfl, not_handled_nil⟩
  · cases he
    rw [Prog.pure_eq, Prog.exec_done] at h'
    cases h'
    exact ⟨rfl, rfl, not_handled_singleton fun m h => by cases h⟩
  · have hnot : ¬ Handled [(⟨.nak, .error e⟩ : Served (Bus F))] :=
      not_handled_singleton fun m h => by cases h
    rcases Machine.serve_state hs with ⟨-, a, ha⟩ | ⟨-, rfl⟩
    · cases ha; exact ⟨rfl, rfl, hnot⟩
    · exact ⟨rfl, rfl, hnot⟩

omit [Runtime F] in
/-- A dead letter is there afterwards, exactly when the publish took effect or one was there
before. -/
theorem publish_exec {subject : Text} {letter : DeadLetter F} {fs : List (Fault PyException)}
    {s : Inbox F} {o : Outcome (inbox F) Unit}
    (ho : (Prog.call (σ := Bus F) (.deadLetterPublisher subject letter) >>= fun _ => ack).exec?
      (inbox F) fs s = some o) :
    (o.state.deadLetters ≠ [] ↔ s.deadLetters ≠ [] ∨ ∃ g fs', fs = g :: fs' ∧ g.Lands) ∧
      ¬ Handled o.calls := by
  rcases Prog.exec_call_bind ho with ⟨rfl, rfl⟩ | ⟨fs', a, s', o', rfl, he, h', rfl⟩ |
    ⟨f, fs', e, s', rfl, hf, hs, rfl⟩
  · refine ⟨⟨Or.inl, ?_⟩, not_handled_nil⟩
    rintro (h | ⟨g, fs', h, -⟩)
    · exact h
    · cases h
  · cases he
    obtain ⟨h1, h2⟩ := ack_exec h'
    refine ⟨⟨fun _ => Or.inr ⟨_, _, rfl, trivial⟩, fun _ => ?_⟩, ?_⟩
    · rw [Outcome.after_state, h1]
      simp
    · rw [Outcome.after_calls, handled_append]
      rintro (h | h)
      · exact not_handled_singleton (fun m h => by cases h) h
      · exact h2 h
  · have hnot : ¬ Handled [(⟨.deadLetterPublisher subject letter, .error e⟩ : Served (Bus F))] :=
      not_handled_singleton fun m h => by cases h
    rcases Machine.serve_state hs with ⟨hlands, a, ha⟩ | ⟨hlands, rfl⟩
    · cases ha
      refine ⟨⟨fun _ => Or.inr ⟨_, _, rfl, hlands⟩, fun _ => ?_⟩, hnot⟩
      simp
    · refine ⟨⟨Or.inl, ?_⟩, hnot⟩
      rintro (h | ⟨g, fs', h, hl⟩)
      · exact h
      · cases h; exact absurd hl hlands

/-- **All that one delivery of an object can do.** -/
theorem attempt_spec {message : Msg} {policy : EventRetryPolicy} {members : List (Text × Json F)}
    {fs : List (Fault PyException)} {s : Inbox F} {o : Outcome (inbox F) Unit}
    (hd : decodePayload message.data = .ok (.dict members))
    (ho : (handleMessage message (some policy) true).exec? (inbox F) fs s = some o) :
    Attempt (decide (policy.maxDeliver ≤ getDeliveryAttempt message)) fs s o := by
  rw [handle_object policy hd] at ho
  rcases Prog.exec_attempt_bind ho with ⟨rfl, rfl⟩ | ⟨f, fs', r, s', o', rfl, hs, ho', rfl⟩
  · -- the process stopped in the handler
    refine ⟨⟨fun h => absurd h not_handled_nil, fun h => by cases h⟩, ⟨Or.inl, ?_⟩, fun _ _ => rfl⟩
    rintro (h | ⟨-, h⟩)
    · exact h
    · cases h
  have hs' : s' = s := handler_serve hs
  have hhandled : Handled ((⟨.handler ⟨message.subject, members⟩, r⟩ : Served (Bus F)) :: o'.calls) ↔
      r = .ok () ∨ Handled o'.calls := by
    rw [← List.singleton_append, handled_append]
    refine or_congr_left ⟨?_, ?_⟩
    · rintro ⟨m, hm⟩
      cases List.mem_singleton.1 hm; rfl
    · rintro rfl
      exact ⟨_, List.mem_singleton_self _⟩
  cases r with
  | ok a =>
    -- the handler returned: the message is acked
    obtain ⟨rfl, -⟩ := Machine.serve_ok hs
    obtain ⟨h1, -⟩ := ack_exec ho'
    refine ⟨iff_of_true (hhandled.2 (Or.inl rfl)) rfl, ?_, fun h => by cases h⟩
    rw [Outcome.after_state, h1, hs']
    refine (or_iff_left ?_).symm
    rintro ⟨-, h⟩
    cases fs' <;> cases h
  | error e =>
    have hf : f ≠ .works := Machine.serve_error hs
    have hreturns : handlerReturns (f :: fs') = false := decide_eq_false hf
    have hnot : (Except.error e : Except PyException Unit) ≠ .ok () := by intro h; cases h
    by_cases hlast : policy.maxDeliver ≤ getDeliveryAttempt message
    · -- it raised on the last attempt: the dead letter is all that is left
      obtain ⟨letter, hlater⟩ := handleFailure_last (.dict members) e hlast trivial
      rw [afterHandler, hlater] at ho'
      obtain ⟨h1, h2⟩ := publish_exec ho'
      have hlands : publishLands (f :: fs') = true ↔ ∃ g fs'', fs' = g :: fs'' ∧ g.Lands := by
        cases fs' with
        | nil => exact iff_of_false (fun h => by cases h) fun ⟨_, _, h, _⟩ => by cases h
        | cons g fs'' =>
          simp only [publishLands, Bool.and_eq_true, decide_eq_true_eq]
          constructor
          · rintro ⟨-, h⟩; exact ⟨g, fs'', rfl, h⟩
          · rintro ⟨_, _, h, hl⟩; cases h; exact ⟨hf, hl⟩
      refine ⟨?_, ?_, fun _ h => ?_⟩
      · rw [hreturns]
        refine iff_of_false (fun h => ?_) (by decide)
        exact (hhandled.1 h).elim hnot h2
      · rw [Outcome.after_state, h1, hs', decide_eq_true hlast, hlands]
        simp
      · rw [decide_eq_true hlast] at h; cases h
    · rw [afterHandler, handleFailure_retry _ _ (by omega)] at ho'
      obtain ⟨h1, h2, h3⟩ := nak_exec ho'
      refine ⟨?_, ?_, fun _ _ => ?_⟩
      · rw [hreturns]
        refine iff_of_false (fun h => ?_) (by decide)
        exact (hhandled.1 h).elim hnot h3
      · rw [Outcome.after_state, h1, hs', decide_eq_false hlast]
        simp
      · rw [Outcome.after_state, h2, hs']

/-- The last delivery's dead letter is published, where its handler raises. -/
def lastPublishLands (scripts : List (List (Fault PyException))) : Bool :=
  scripts.getLast?.any publishLands

theorem deliverAll_isSome (policy : EventRetryPolicy) (message : Msg) :
    ∀ (scripts : List (List (Fault PyException))) (k : ℕ) (s : Inbox F),
      ∃ a, deliverAll? policy message k scripts s = some a := by
  intro scripts
  induction scripts with
  | nil => intro k s; exact ⟨_, rfl⟩
  | cons fs rest ih =>
    intro k s
    unfold deliverAll?
    split
    · exact ⟨_, rfl⟩
    · have htotal : ∀ c (s : Inbox F), ∃ a, (inbox F).effect c s = some a := by
        intro c s
        cases c <;> exact ⟨_, rfl⟩
      obtain ⟨o, ho⟩ := Prog.exec_isSome (M := inbox F) htotal
        (handleMessage { message with numDelivered := some (k : ℤ) } (some policy) true) fs s
      obtain ⟨a, ha⟩ := ih (k + 1) o.state
      exact ⟨_, by rw [ho, Option.bind_eq_bind, Option.bind_some, ha]; rfl⟩

/-- **A run of deliveries** from attempt `k`, of a message that is neither acked nor
dead-lettered yet. -/
theorem deliverAll_spec {policy : EventRetryPolicy} {message : Msg} {members : List (Text × Json F)}
    (hd : decodePayload message.data = .ok (.dict members)) :
    ∀ (scripts : List (List (Fault PyException))) (k : ℕ) (s : Inbox F)
      (s' : Inbox F) (calls : List (Served (Bus F))),
      (k : ℤ) + scripts.length = policy.maxDeliver + 1 → s.acked = false → s.deadLetters = [] →
      deliverAll? policy message k scripts s = some (s', calls) →
      ((Handled calls ∨ s'.deadLetters ≠ []) ↔
        (∃ fs ∈ scripts, handlerReturns fs = true) ∨ lastPublishLands scripts = true) := by
  intro scripts
  induction scripts with
  | nil =>
    intro k s s' calls _ _ hnone h
    cases h
    refine iff_of_false ?_ ?_
    · rintro (h | h)
      · exact not_handled_nil h
      · exact h hnone
    · rintro (⟨fs, hfs, -⟩ | h)
      · cases hfs
      · cases h
  | cons fs rest ih =>
    intro k s s' calls hk hacked hnone h
    unfold deliverAll? at h
    rw [hacked, if_neg (by decide)] at h
    obtain ⟨o, ho, h⟩ := Option.bind_eq_some_iff.1 h
    obtain ⟨⟨s₁, calls₁⟩, hrest, h⟩ := Option.bind_eq_some_iff.1 h
    cases h
    have hd' : decodePayload { message with numDelivered := some (k : ℤ) }.data =
      .ok (.dict members) := hd
    have ha := attempt_spec hd' ho
    rw [List.length_cons] at hk
    push_cast at hk
    by_cases hret : handlerReturns fs = true
    · refine iff_of_true (Or.inl ?_) (Or.inl ⟨fs, List.mem_cons_self, hret⟩)
      exact handled_append.2 (Or.inl (ha.handled.2 hret))
    have hno : ¬ Handled o.calls := fun h => hret (ha.handled.1 h)
    have hhere : Handled (o.calls ++ calls₁) ↔ Handled calls₁ := by
      rw [handled_append]; exact or_iff_right hno
    have hattempt : getDeliveryAttempt { message with numDelivered := some (k : ℤ) } = k := rfl
    rw [hhere]
    cases rest with
    | nil =>
      -- the last delivery: what its failure path does is all there is
      cases hrest
      rw [List.length_nil] at hk
      have hlast : policy.maxDeliver ≤ k := by push_cast at hk; omega
      have hpub := ha.published
      rw [hattempt, decide_eq_true hlast] at hpub
      rw [or_iff_right not_handled_nil, hpub, or_iff_right (fun h => h hnone)]
      have hsingle : ¬ ∃ fs' ∈ [fs], handlerReturns fs' = true := by
        rintro ⟨fs', hfs', h⟩
        rw [List.mem_singleton.1 hfs'] at h
        exact hret h
      rw [or_iff_right hsingle]
      simp [lastPublishLands]
    | cons fs₂ rest₂ =>
      -- a delivery before the last: the message is neither acked nor dead-lettered
      rw [List.length_cons] at hk
      have hnot : ¬ policy.maxDeliver ≤ k := by push_cast at hk; omega
      have hpub := ha.published
      have hretried := ha.retried (by simpa using hret)
      rw [hattempt, decide_eq_false hnot] at hpub hretried
      have hnone' : o.state.deadLetters = [] := by
        by_contra hne
        rcases hpub.1 hne with h | ⟨h, -⟩
        · exact h hnone
        · cases h
      have hlater := ih (k + 1) o.state s' calls₁ (by rw [List.length_cons]; push_cast at hk ⊢; omega)
        (by rw [hretried rfl, hacked]) hnone' hrest
      rw [hlater]
      refine or_congr ?_ Iff.rfl
      constructor
      · rintro ⟨fs', hfs', hr⟩
        exact ⟨fs', List.mem_cons_of_mem _ hfs', hr⟩
      · rintro ⟨fs', hfs', hr⟩
        rcases List.mem_cons.1 hfs' with rfl | hfs'
        · exact absurd hr hret
        · exact ⟨fs', hfs', hr⟩

/-- **No message disappears silently**, exactly when a handler returns or the one publish takes
effect: after the last delivery of a message with an object body, some delivery's handler
returned or a dead letter was published, if and only if some script lets the handler return,
or the last one lets it raise and the publish after it take effect. -/
theorem kept_iff_published {message : Msg} {members : List (Text × Json F)}
    {policy : EventRetryPolicy} {durable : Text} {subject deliverSubject : Option Text}
    {scripts : List (List (Fault PyException))}
    (hd : decodePayload message.data = .ok (.dict members))
    (hcap : (scripts.length : ℤ) =
      (buildConsumerConfig durable policy subject deliverSubject).maxDeliver) :
    ∃ s calls, deliverAll? policy message 1 scripts ({} : Inbox F) = some (s, calls) ∧
      ((Handled calls ∨ s.deadLetters ≠ []) ↔
        (∃ fs ∈ scripts, handlerReturns fs = true) ∨ lastPublishLands scripts = true) := by
  have hcap : (scripts.length : ℤ) = policy.maxDeliver := hcap
  obtain ⟨⟨s, calls⟩, h⟩ := deliverAll_isSome policy message scripts 1 ({} : Inbox F)
  refine ⟨s, calls, h, deliverAll_spec hd scripts 1 {} s calls ?_ rfl rfl h⟩
  push_cast
  omega

/-- The first handler raises and the second returns. -/
theorem kept_iff_published_second_attempt :
    ∃ s calls, deliverAll? {} (sampleMessage "\x7b\x7d") 1
        [[.before ⟨"RuntimeError"⟩, .works], [.works, .works], []] ({} : Inbox Unit) = some (s, calls) ∧
      (Handled calls ∨ s.deadLetters ≠ []) := by
  have hd : decodePayload (sampleMessage "\x7b\x7d").data =
    (.ok (.dict []) : Except PyException (Json Unit)) := rfl
  let scripts : List (List (Fault PyException)) :=
    [[.before ⟨"RuntimeError"⟩, .works], [.works, .works], []]
  have hcap : (scripts.length : ℤ) =
    (buildConsumerConfig (text "copy_engine") {} none none).maxDeliver := rfl
  obtain ⟨s, calls, h, hiff⟩ := kept_iff_published hd hcap
  exact ⟨s, calls, h, hiff.2 (by decide)⟩

/-- **A message that disappears**: every handler raises, and so does the only publish. -/
theorem publish_failure_loses_message :
    ¬ ∀ (message : Msg) (members : List (Text × Json Unit)) (policy : EventRetryPolicy)
      (durable : Text) (scripts : List (List (Fault PyException))) (s : Inbox Unit)
      (calls : List (Served (Bus Unit))),
      decodePayload message.data = .ok (.dict members) →
      (scripts.length : ℤ) = (buildConsumerConfig durable policy none none).maxDeliver →
      deliverAll? policy message 1 scripts {} = some (s, calls) →
      Handled calls ∨ s.deadLetters ≠ [] := by
  intro hall
  have hd : decodePayload (sampleMessage "\x7b\x7d").data =
    (.ok (.dict []) : Except PyException (Json Unit)) := rfl
  have hrun : ∃ letter, deliverAll? {} (sampleMessage "\x7b\x7d") 1
      [[.before ⟨"RuntimeError"⟩, .works], [.before ⟨"RuntimeError"⟩, .works],
        [.before ⟨"RuntimeError"⟩, .before ⟨"TimeoutError"⟩]] ({} : Inbox Unit) =
      some (⟨false, 2, []⟩,
        [⟨.handler ⟨(sampleMessage "").subject, []⟩, .error ⟨"RuntimeError"⟩⟩, ⟨.nak, .ok ()⟩,
          ⟨.handler ⟨(sampleMessage "").subject, []⟩, .error ⟨"RuntimeError"⟩⟩, ⟨.nak, .ok ()⟩,
          ⟨.handler ⟨(sampleMessage "").subject, []⟩, .error ⟨"RuntimeError"⟩⟩,
          ⟨.deadLetterPublisher (text deadLetterEventCreated) letter, .error ⟨"TimeoutError"⟩⟩]) :=
    ⟨_, rfl⟩
  obtain ⟨letter, hrun⟩ := hrun
  rcases hall _ [] {} [] _ _ _ hd rfl hrun with ⟨m, hm⟩ | h
  · simp only [List.mem_cons, List.not_mem_nil, or_false] at hm
    rcases hm with h | h | h | h | h | h <;> cases h
  · exact h rfl

end CopyTrade
