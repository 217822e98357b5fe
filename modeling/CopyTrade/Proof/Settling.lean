import CopyTrade.Proof.Building
import CopyTrade.Proof.Delivery
import CopyTrade.Spec.Worker

/-!
# What an acknowledgement stands for

A message leaves its consumer for good when it is acked. The callback acks after the handler
has returned or after a dead letter was published, and each handler returns only when it has
come to an end with all that its message asks for.

* `trade_settles`: what the trade handler has done when it returns.
* `wrapped_keeps`: what the callback around a handler keeps to; `wrapped_accounts`: what has been
  done when it acks.
* `acked_accounted`: the same for every ack of a run.
-/

namespace CopyTrade

open Async (Machine Prog Entry Pool Input Served Traced history made mem_made begun run_made)
open Python (Text Json Runtime)

/-! ## What a message asks for -/

section

variable (did : (c : Call) → CopyEngine.Ret c → Prop)

/-- The request is recorded, published and marked. -/
structure HandedOver (q : CopyExecutionRequest) : Prop where
  recorded : did (.record q) ()
  published : did (.publishJson copyExecutionRequested q) ()
  marked : did (.markPublished q) ()

/-- The copy of the event for the relationship: its key was taken, or it was reserved here and
its request handed over. -/
def Settled (event : NormalizedOrderEvent) (r : CopyRelationship) : Prop :=
  did (.reserve (keyOf event r)) false ∨
    (did (.reserve (keyOf event r)) true ∧ ∃ q, BuiltFrom event r q ∧ HandedOver did q)

/-- Every relationship that was listed for the event and passes the gates is settled. -/
def TradeSettled (event : NormalizedOrderEvent) : Prop :=
  ∃ relationships, did (.listActiveForEvent event) relationships ∧
    ∀ r ∈ relationships, passesGates event r = true → Settled did event r

/-- Both statements of the result recorder are done. -/
structure ResultSettled (result : CopyExecutionResult) : Prop where
  inserted : did (.insertResult result) ()
  updated : did (.updateRequestFromResult result.requestId result.status) ()

end

section

variable {did did' : (c : Call) → CopyEngine.Ret c → Prop}

theorem TradeSettled.mono (hdid : ∀ c a, did c a → did' c a) {event : NormalizedOrderEvent}
    (h : TradeSettled did event) : TradeSettled did' event := by
  obtain ⟨relationships, hlist, hall⟩ := h
  refine ⟨relationships, hdid _ _ hlist, fun r hr hg => ?_⟩
  rcases hall r hr hg with htaken | ⟨hreserved, q, hbuilt, hq⟩
  · exact Or.inl (hdid _ _ htaken)
  · exact Or.inr ⟨hdid _ _ hreserved, q, hbuilt, hdid _ _ hq.recorded, hdid _ _ hq.published,
      hdid _ _ hq.marked⟩

end

/-- The calls that a history has answered normally. -/
def Replied (l : List (Served CopyEngine)) (c : Call) (a : CopyEngine.Ret c) : Prop :=
  (⟨c, .ok a⟩ : Served CopyEngine) ∈ l

/-! ## What the handlers have done when they return -/

/-- Where a relationship stands when the reserving loop is through with it. -/
def KeyAsked (event : NormalizedOrderEvent) (l : List (Served CopyEngine))
    (requests : List CopyExecutionRequest) (r : CopyRelationship) : Prop :=
  Replied l (.reserve (keyOf event r)) false ∨
    (Replied l (.reserve (keyOf event r)) true ∧ ∃ q ∈ requests, BuiltFrom event r q)

/-- **The reserving loop** goes through every relationship that passes the gates. -/
theorem build_settles (event : NormalizedOrderEvent) : ∀ (rels : List CopyRelationship)
    {l : List (Served CopyEngine)} {acc : ProcessingResult},
    (buildRequestsForRelationships event rels acc).Obeys (Traced CopyEngine) l
      (fun l' res => l ⊆ l' ∧ acc.requests ⊆ res.requests ∧
        ∀ r ∈ rels, passesGates event r = true → KeyAsked event l' res.requests r)
      (fun _ _ => True) := by
  intro rels
  induction rels with
  | nil =>
    intro l acc
    exact ⟨List.Subset.refl l, List.Subset.refl _, fun r hr => absurd hr List.not_mem_nil⟩
  | cons r rest ih =>
    intro l acc
    rcases build_cons event r rest acc with ⟨hg, heq⟩ | ⟨hg, heq⟩
    · rw [heq]
      refine Prog.obeys_bind fun eventId => Prog.obeys_bind (Prog.obeys_ofExcept ?_ fun _ _ => trivial)
      intro q hq
      obtain ⟨-, -, hbuilt⟩ := builtFrom_of_ok hq
      refine Prog.obeys_bind (Prog.obeys_call trivial (fun reserved => ?_) fun _ => trivial)
      -- the reservation is the latest call, and whatever it answered settles the relationship
      have hkey : ∀ {l' : List (Served CopyEngine)},
          (⟨.reserve q.idempotencyKey, .ok reserved⟩ :: l : List (Served CopyEngine)) ⊆ l' →
          Replied l' (.reserve (keyOf event r)) reserved := by
        intro l' hsub
        rw [← hbuilt.key]
        exact hsub List.mem_cons_self
      cases reserved with
      | false =>
        refine Prog.Obeys.mono ?_ (fun _ _ h => h) ih
        rintro l' res ⟨hsub, hreqs, hall⟩
        refine ⟨fun c hc => hsub (List.mem_cons_of_mem _ hc), hreqs, fun r' hr' hg' => ?_⟩
        rcases List.mem_cons.1 hr' with rfl | hr'
        · exact Or.inl (hkey hsub)
        · exact hall r' hr' hg'
      | true =>
        refine Prog.Obeys.mono ?_ (fun _ _ h => h) ih
        rintro l' res ⟨hsub, hreqs, hall⟩
        refine ⟨fun c hc => hsub (List.mem_cons_of_mem _ hc),
          fun q' hq' => hreqs (List.mem_append_left _ hq'), fun r' hr' hg' => ?_⟩
        rcases List.mem_cons.1 hr' with rfl | hr'
        · exact Or.inr ⟨hkey hsub, q, hreqs (List.mem_append_right _ (List.mem_singleton_self q)), hbuilt⟩
        · exact hall r' hr' hg'
    · rw [heq]
      refine Prog.Obeys.mono ?_ (fun _ _ h => h) ih
      rintro l' res ⟨hsub, hreqs, hall⟩
      rw [skip_requests] at hreqs
      refine ⟨hsub, hreqs, fun r' hr' hg' => ?_⟩
      rcases List.mem_cons.1 hr' with rfl | hr'
      · rw [hg] at hg'; cases hg'
      · exact hall r' hr' hg'

/-- **The publishing loop** hands every request over. -/
theorem handOver_settles : ∀ (requests : List CopyExecutionRequest) {l : List (Served CopyEngine)},
    (handOver requests).Obeys (Traced CopyEngine) l
      (fun l' _ => l ⊆ l' ∧ ∀ q ∈ requests, HandedOver (Replied l') q) (fun _ _ => True) := by
  intro requests
  induction requests with
  | nil =>
    intro l
    exact ⟨List.Subset.refl l, fun q hq => absurd hq List.not_mem_nil⟩
  | cons q rest ih =>
    intro l
    refine Prog.obeys_bind (Prog.obeys_call trivial (fun _ => ?_) fun _ => trivial)
    refine Prog.obeys_bind (Prog.obeys_tryExcept (Prog.obeys_call trivial (fun _ => ?_) fun e => ?_))
    · refine Prog.obeys_bind (Prog.obeys_call trivial (fun _ => ?_) fun _ => trivial)
      refine Prog.Obeys.mono ?_ (fun _ _ h => h) ih
      rintro l' - ⟨hsub, hall⟩
      refine ⟨fun c hc => hsub (by simp [history, hc]), fun q' hq' => ?_⟩
      rcases List.mem_cons.1 hq' with rfl | hq'
      · exact ⟨hsub (by simp [history]), hsub (by simp [history]), hsub (by simp [history])⟩
      · exact hall q' hq'
    · -- after a publish that raised the loop raises
      exact Prog.obeys_bind (Prog.obeys_call trivial (fun _ => trivial) fun _ => trivial)

/-- **The trade handler** returns only when its event is settled. -/
theorem trade_settles (validated : Except PyException NormalizedOrderEvent) :
    (handleNormalizedTradeEvent validated).Obeys (Traced CopyEngine) []
      (fun l _ => ∃ event, validated = .ok event ∧ TradeSettled (Replied l) event)
      (fun _ _ => True) := by
  refine Prog.obeys_bind (Prog.obeys_ofExcept (fun event hevent => ?_) fun _ _ => trivial)
  refine Prog.obeys_bind (Prog.obeys_bind (Prog.obeys_call trivial (fun rels => ?_) fun _ => trivial))
  refine Prog.Obeys.mono ?_ (fun _ _ h => h) (build_settles event rels)
  rintro l res ⟨hlisted, -, hall⟩
  refine Prog.Obeys.mono ?_ (fun _ _ h => h) (handOver_settles res.requests)
  rintro l' - ⟨hsub, hover⟩
  refine ⟨event, hevent, rels, hsub (hlisted List.mem_cons_self), fun r hr hg => ?_⟩
  rcases hall r hr hg with htaken | ⟨hreserved, q, hq, hbuilt⟩
  · exact Or.inl (hsub htaken)
  · exact Or.inr ⟨hsub hreserved, q, hbuilt, hover q hq⟩

/-- **The result handler** returns only when both statements are done. -/
theorem result_settles (validated : Except PyException CopyExecutionResult) :
    (handleCopyExecutionResultEvent validated).Obeys (Traced CopyEngine) []
      (fun l _ => ∃ result, validated = .ok result ∧ ResultSettled (Replied l) result)
      (fun _ _ => True) := by
  refine Prog.obeys_bind (Prog.obeys_ofExcept (fun result hresult => ?_) fun _ _ => trivial)
  refine Prog.obeys_bind (Prog.obeys_call trivial (fun _ => ?_) fun _ => trivial)
  refine Prog.obeys_call trivial (fun _ => ?_) fun _ => trivial
  refine ⟨result, hresult, ?_, ?_⟩
  · show _ ∈ _
    simp [history]
  · show _ ∈ _
    simp [history]

/-! ## When the callback acks -/

variable {F : Type}

namespace MessageDelivery

variable (models : EventModels F) (d : MessageDelivery)

/-- The handler has done what the message asks for. -/
def Handled (members : List (Text × Json F))
    (did : (c : (Worker F).Call) → (Worker F).Ret c → Prop) : Prop :=
  match d.handler with
  | .normalizedTrade _ => ∃ event, models.normalizedOrderEvent members = .ok event ∧
      TradeSettled (fun c a => did (.inl c) a) event
  | .copyExecutionResult _ => ∃ result, models.copyExecutionResult members = .ok result ∧
      ResultSettled (fun c a => did (.inl c) a) result
  | .deadLetter _ => did (.inr (.recordDeadLetter members)) ()

/-- A dead letter about the message was published, on its last attempt. -/
def DeadLettered [Runtime F] (did : (c : (Worker F).Call) → (Worker F).Ret c → Prop) : Prop :=
  ∃ policy payload exc letter, d.retryPolicy = some policy ∧
    policy.maxDeliver ≤ getDeliveryAttempt d.message ∧
    buildDeadLetterPayload d.message payload exc (getDeliveryAttempt d.message) policy.maxDeliver =
      .ok letter ∧
    did (.inr (.deadLetterPublisher policy.deadLetterSubject letter)) ()

/-- The message is accounted for. -/
def Accounted [Runtime F] (did : (c : (Worker F).Call) → (Worker F).Ret c → Prop) : Prop :=
  d.DeadLettered did ∨
    ∃ members, decodePayload d.message.data = .ok (.dict members) ∧ d.Handled models members did

end MessageDelivery

/-- The calls that a history has answered normally. -/
def Responded (l : List (Served (Worker F))) (c : (Worker F).Call) (a : (Worker F).Ret c) : Prop :=
  (⟨c, .ok a⟩ : Served (Worker F)) ∈ l

variable [Runtime F] {models : EventModels F} {d : MessageDelivery}

/-- Ack only what is accounted for. -/
abbrev accounting (models : EventModels F) (d : MessageDelivery) :
    Async.Protocol (Worker F) (List (Served (Worker F))) :=
  history fun l c => c = .inr .ack → d.Accounted models (Responded l)

/-- The handler returns only when it has done what the message asks for. -/
theorem handler_accounts (message : EventBusMessage F) :
    (d.handler.handle models message).Obeys (accounting models d) []
      (fun l _ => d.Handled models message.data (Responded l)) (fun _ _ => True) := by
  have hquiet : ∀ (l : List (Served (Worker F))) (c : Call),
      (Sum.inl c : (Worker F).Call) = .inr .ack → d.Accounted models (Responded l) := by
    intro l c hc; cases hc
  -- what a lifted history has answered
  have hreplied : ∀ {own : List (Served CopyEngine)} (c : Call) (a : CopyEngine.Ret c),
      Replied own c a →
        Responded (own.map Prog.widenServed ++ [] : List (Served (Worker F))) (.inl c) a := by
    intro own c a h
    exact List.mem_append_left _ (List.mem_map_of_mem (f := Prog.widenServed) h)
  unfold MessageDelivery.Handled
  cases d.handler with
  | normalizedTrade recorder =>
    refine Prog.Obeys.mono ?_ (fun _ _ _ => trivial)
      (Prog.widen_history hquiet (trade_settles (models.normalizedOrderEvent message.data)))
    rintro l - ⟨own, rfl, event, hevent, hsettled⟩
    exact ⟨event, hevent, hsettled.mono hreplied⟩
  | copyExecutionResult recorder =>
    refine Prog.Obeys.mono ?_ (fun _ _ _ => trivial)
      (Prog.widen_history hquiet (result_settles (models.copyExecutionResult message.data)))
    rintro l - ⟨own, rfl, result, hresult, hsettled⟩
    exact ⟨result, hresult, hreplied _ _ hsettled.inserted, hreplied _ _ hsettled.updated⟩
  | deadLetter recorder =>
    refine Prog.obeys_call ?_ (fun _ => List.mem_cons_self) fun _ => trivial
    intro hc; cases hc

/-- The handler raised, or was not reached: the callback asks for another delivery, or it
publishes a dead letter and acks. -/
theorem failure_keeps {L : Type} {P : Async.Protocol (Worker F) L}
    (hnak : ∀ l, P.allow l (.inr .nak))
    (hpublish : ∀ l subject letter, P.allow l (.inr (.deadLetterPublisher subject letter)))
    (hack : ∀ l policy payload exc letter, d.retryPolicy = some policy →
      policy.maxDeliver ≤ getDeliveryAttempt d.message →
      buildDeadLetterPayload d.message payload exc (getDeliveryAttempt d.message)
        policy.maxDeliver = .ok letter →
      P.allow (P.next l (.inr (.deadLetterPublisher policy.deadLetterSubject letter)) (.ok ()))
        (.inr .ack))
    (payload : Json F) (exc : PyException) (l : L) :
    ((handleFailure d.message payload exc d.retryPolicy d.deadLetterPublisher).interpret
      (busCalls models d.handler)).Keeps P l := by
  -- without a dead letter
  have hretry : ∀ l', (((nak : Prog (Bus F) Unit) >>= fun _ => if d.retryPolicy.isSome then pure ()
      else (Prog.fail exc : Prog (Bus F) Unit)).interpret (busCalls models d.handler)).Keeps P l' := by
    intro l'
    refine ⟨hnak l', fun r => ?_⟩
    cases r with
    | error e => trivial
    | ok _ =>
      show Prog.Obeys _ (Prog.interpret _ (if d.retryPolicy.isSome then pure () else _)) _ _ _
      split <;> trivial
  unfold handleFailure maybeDeadLetterMessage
  split
  · rename_i policy hpolicy hpublisher
    by_cases hlast : getDeliveryAttempt d.message < policy.maxDeliver
    · simp only [hlast, if_true, Prog.pure_eq, Prog.bind_done, Bool.false_eq_true, if_false]
      exact hretry l
    simp only [hlast, if_false]
    cases hletter : buildDeadLetterPayload d.message payload exc (getDeliveryAttempt d.message)
      policy.maxDeliver with
    | error e => trivial
    | ok letter =>
      refine ⟨hpublish l _ letter, fun r => ?_⟩
      cases r with
      | error e => trivial
      | ok _ =>
        have hattempt : policy.maxDeliver ≤ getDeliveryAttempt d.message := by omega
        refine ⟨hack l policy payload exc letter hpolicy hattempt hletter, fun r => ?_⟩
        cases r <;> trivial
  · exact hretry l

/-- **The callback around a handler** keeps a discipline that lets it signal and publish, if the
handler keeps it and returns only where the discipline lets the callback ack. -/
theorem wrapped_keeps {L : Type} {P : Async.Protocol (Worker F) L} {l₀ : L}
    (hnak : ∀ l, P.allow l (.inr .nak))
    (hpublish : ∀ l subject letter, P.allow l (.inr (.deadLetterPublisher subject letter)))
    (hack : ∀ l policy payload exc letter, d.retryPolicy = some policy →
      policy.maxDeliver ≤ getDeliveryAttempt d.message →
      buildDeadLetterPayload d.message payload exc (getDeliveryAttempt d.message)
        policy.maxDeliver = .ok letter →
      P.allow (P.next l (.inr (.deadLetterPublisher policy.deadLetterSubject letter)) (.ok ()))
        (.inr .ack))
    (hhandler : ∀ members, decodePayload d.message.data = .ok (.dict members) →
      (d.handler.handle models ⟨d.message.subject, members⟩).Obeys P l₀
        (fun l _ => P.allow l (.inr .ack)) (fun _ _ => True)) :
    (d.wrapped models).Keeps P l₀ := by
  unfold MessageDelivery.wrapped handleMessage
  split
  · exact failure_keeps hnak hpublish hack _ _ _
  · rename_i members hbody
    rw [Prog.interpret_bind, Prog.interpret_attempt]
    refine Prog.obeys_bind (Prog.obeys_caught ?_)
    refine Prog.Obeys.mono ?_ ?_ (hhandler members hbody)
    · rintro l - hallowed
      refine ⟨hallowed, fun r => ?_⟩
      cases r <;> trivial
    · rintro l exc -
      exact failure_keeps hnak hpublish hack (.dict members) exc l
  · exact failure_keeps hnak hpublish hack _ _ _

/-- **The callback acks only what is accounted for.** -/
theorem wrapped_accounts : (d.wrapped models).Keeps (accounting models d) [] := by
  apply wrapped_keeps
  · intro l hc; cases hc
  · intro l subject letter hc; cases hc
  · intro l policy payload exc letter hpolicy hattempt hletter _
    exact Or.inl ⟨policy, payload, exc, letter, hpolicy, hattempt, hletter, List.mem_cons_self⟩
  · intro members hbody
    refine Prog.Obeys.mono ?_ (fun _ _ h => h) (handler_accounts ⟨d.message.subject, members⟩)
    intro l _ hhandled _
    exact Or.inr ⟨members, hbody, hhandled⟩

/-- An ack of a run comes after a history that accounts for the message. -/
theorem ack_history {M : Machine (Worker F)} {s : M.State} {xs : List (Input M)} {p : Pool M}
    {ds : List MessageDelivery} (hx : begun xs = ds.map (·.wrapped models))
    (h : (Pool.init s).run? xs = some p) {newer : List (Entry (Worker F))} {i : ℕ}
    {r : (Worker F).Reply (.inr .ack)} {older : List (Entry (Worker F))}
    (htr : p.trace = newer ++ ⟨i, .inr .ack, r⟩ :: older) :
    ∃ d, ds[i]? = some d ∧ d.Accounted models (Responded (made older i)) := by
  obtain ⟨q, hq, hcalls⟩ := run_made h htr
  rw [hx, List.getElem?_map] at hq
  obtain ⟨d, hd, rfl⟩ := Option.map_eq_some_iff.1 hq
  exact ⟨d, hd, hcalls (fun l c => c = .inr .ack → d.Accounted models (Responded l)) wrapped_accounts rfl⟩

omit [Runtime F] in
/-- What a history has answered stands in the trace. -/
theorem responded_made (tr : List (Entry (Worker F))) (i : ℕ) :
    Responded (made tr i) = fun c a => ⟨i, c, .ok a⟩ ∈ tr :=
  funext fun _ => funext fun _ => propext mem_made

/-- **No message is acknowledged before it is accounted for.** In any run of deliveries of any
messages to the handlers of `run()`, by any number of workers, interleaved at their awaited calls
and whatever these answer or raise: when a delivery acks its message, it has published a dead
letter about it on its last attempt, or its handler has come to an end with it. For a trade that
is: every relationship that this delivery listed for the event and that passes the gates has its
key taken by another, or has its request recorded, published and marked by this delivery. -/
theorem acked_accounted {M : Machine (Worker F)} {s : M.State} {xs : List (Input M)} {p : Pool M}
    {ds : List MessageDelivery} (hx : begun xs = ds.map (·.wrapped models))
    (h : (Pool.init s).run? xs = some p) {newer : List (Entry (Worker F))} {i : ℕ}
    {r : (Worker F).Reply (.inr .ack)} {older : List (Entry (Worker F))}
    (htr : p.trace = newer ++ ⟨i, .inr .ack, r⟩ :: older) :
    ∃ d, ds[i]? = some d ∧ d.Accounted models fun c a => ⟨i, c, .ok a⟩ ∈ older := by
  obtain ⟨d, hd, haccounted⟩ := ack_history hx h htr
  rw [responded_made] at haccounted
  exact ⟨d, hd, haccounted⟩

/-- A delivery of an empty object, which the sample models read as the sample event. -/
def sampleModels : EventModels Unit where
  normalizedOrderEvent _ := .ok sampleEvent
  copyExecutionResult _ := .error validationError

def sampleDelivery : MessageDelivery where
  handler := .normalizedTrade .noop
  message := sampleMessage "\x7b\x7d"
  retryPolicy := some {}
  deadLetterPublisher := true

def ackedRun : List (Input (workers Unit Unit)) :=
  .begin (sampleDelivery.wrapped sampleModels) :: List.replicate 7 (.turn 0 .works)

/-- The entry is an ack of the execution. -/
def acksOf (i : ℕ) (e : Entry (Worker F)) : Bool :=
  e.who == i && e.call.elim (fun _ => false) DeliveryCall.isAck

omit [Runtime F] in
theorem acksOf_eq {i : ℕ} {e : Entry (Worker F)} (h : acksOf i e = true) :
    ∃ r, e = ⟨i, .inr .ack, r⟩ := by
  obtain ⟨j, c | c, r⟩ := e
  · simp [acksOf] at h
  · cases c with
    | ack =>
      obtain rfl : j = i := by simpa [acksOf, DeliveryCall.isAck] using h
      exact ⟨r, rfl⟩
    | nak => simp [acksOf, DeliveryCall.isAck] at h
    | recordDeadLetter payload => simp [acksOf, DeliveryCall.isAck] at h
    | deadLetterPublisher subject payload => simp [acksOf, DeliveryCall.isAck] at h

/-- The last call of the sample is its ack. -/
theorem ackedRun_acks : ∃ p r older,
    (Pool.init (World.start [sampleRelationship] ())).run? ackedRun = some p ∧
      p.trace = ⟨0, .inr .ack, r⟩ :: older := by
  have hrun : ((Pool.init (World.start [sampleRelationship] ())).run? ackedRun).map
      (fun p => p.trace.head?.any (acksOf 0)) = some true := by decide +kernel
  obtain ⟨p, hp, hlast⟩ := Option.map_eq_some_iff.1 hrun
  obtain ⟨e, he, hack⟩ := (Option.any_eq_true _ _).1 hlast
  obtain ⟨older, htr⟩ := List.head?_eq_some_iff.1 he
  obtain ⟨r, rfl⟩ := acksOf_eq hack
  exact ⟨p, r, older, hp, htr⟩

theorem acked_accounted_sample : ∃ p r older,
    (Pool.init (World.start [sampleRelationship] ())).run? ackedRun = some p ∧
      p.trace = ⟨0, .inr .ack, r⟩ :: older ∧
      ∃ d, [sampleDelivery][0]? = some d ∧
        d.Accounted sampleModels fun c a => ⟨0, c, .ok a⟩ ∈ older := by
  obtain ⟨p, r, older, hp, htr⟩ := ackedRun_acks
  have htr' : p.trace = [] ++ ⟨0, .inr .ack, r⟩ :: older := htr
  have hx : begun ackedRun = [sampleDelivery].map (·.wrapped sampleModels) := rfl
  exact ⟨p, r, older, hp, htr, acked_accounted hx hp htr'⟩

end CopyTrade
