import CopyTrade.Proof.Delivery
import CopyTrade.Spec.Consuming

/-!
# When messages are acked

A delivery makes its calls in one order: the handler, then an ack; or, where decoding or
the handler failed, a nak, or on the last attempt the publish and then an ack. The broker
delivers again only what is not acked, so every earlier delivery of a message has failed.

* `handle_obeys`: the calling discipline of one delivery.
* `run_kept`: what holds of every message, over any interleaving of deliveries.
* `run_disciplined`: acks, naks and dead letters of any number of messages.
-/

namespace CopyTrade

open Async (Prog Fault Served Protocol)
open Python (Text text Json Runtime Floats)

variable {F : Type}

/-! ## The calls of one delivery -/

/-- The body is no object, or the handler raised. -/
def Failed [Runtime F] (message : Msg) (calls : List (Served (Bus F))) : Prop :=
  (∀ members : List (Text × Json F), decodePayload message.data ≠ .ok (.dict members)) ∨
    ∃ handed e, ⟨.handler handed, .error e⟩ ∈ calls

/-- A dead-letter publish returned normally. -/
def PublishReturned (calls : List (Served (Bus F))) : Prop :=
  ∃ subject letter, ⟨.deadLetterPublisher subject letter, .ok ()⟩ ∈ calls

def signals (calls : List (Served (Bus F))) : ℕ := calls.countP fun c => isAck c.call || isNak c.call

def publishes (calls : List (Served (Bus F))) : ℕ := calls.countP fun c => isPublish c.call

def Acks (calls : List (Served (Bus F))) : Prop := ∃ c ∈ calls, isAck c.call = true

def Naks (calls : List (Served (Bus F))) : Prop := ∃ c ∈ calls, isNak c.call = true

section

variable {calls more : List (Served (Bus F))} {c : Served (Bus F)}

theorem signals_append : signals (calls ++ more) = signals calls + signals more :=
  List.countP_append

theorem publishes_append : publishes (calls ++ more) = publishes calls + publishes more :=
  List.countP_append

theorem acks_append : Acks (calls ++ more) ↔ Acks calls ∨ Acks more := by
  simp only [Acks, List.mem_append, or_and_right, exists_or]

theorem naks_append : Naks (calls ++ more) ↔ Naks calls ∨ Naks more := by
  simp only [Naks, List.mem_append, or_and_right, exists_or]

@[simp] theorem acks_singleton : Acks [c] ↔ isAck c.call = true := by simp [Acks]

@[simp] theorem naks_singleton : Naks [c] ↔ isNak c.call = true := by simp [Naks]

theorem Failed.append [Runtime F] {message : Msg} (h : Failed message calls) :
    Failed message (calls ++ more) := by
  rcases h with h | ⟨handed, e, h⟩
  · exact Or.inl h
  · exact Or.inr ⟨handed, e, List.mem_append_left _ h⟩

theorem PublishReturned.append (h : PublishReturned calls) : PublishReturned (calls ++ more) := by
  obtain ⟨subject, letter, h⟩ := h
  exact ⟨subject, letter, List.mem_append_left _ h⟩

/-- A call that is not the handler's handles nothing. -/
theorem not_handled_append (h : ¬ Handled calls) (hc : ∀ m, c.call ≠ .handler m) :
    ¬ Handled (calls ++ [c]) := by
  rw [handled_append]
  rintro (hcalls | hlast)
  · exact h hcalls
  · exact not_handled_singleton hc hlast

end

/-! ## The discipline -/

variable [Floats F]

/-- What the calls of attempt `k` have to be, given the calls before them. -/
def discipline (policy : EventRetryPolicy) (message : Msg) (k : ℕ) :
    Protocol (Bus F) (List (Served (Bus F))) where
  allow calls
    | .handler _ => calls = []
    | .deadLetterPublisher _ _ =>
      policy.maxDeliver ≤ k ∧ Failed message calls ∧ ¬ Handled calls ∧ publishes calls = 0
    | .ack => (Handled calls ∨ PublishReturned calls) ∧ signals calls = 0
    | .nak => (k : ℤ) < policy.maxDeliver ∧ Failed message calls ∧ signals calls = 0
  next calls c r := calls ++ [⟨c, r⟩]

/-- The calls of a delivery that came to its end. -/
def Ends (message : Msg) (calls : List (Served (Bus F))) : Prop :=
  Acks calls ∨ (Failed message calls ∧ ¬ Handled calls)

section

variable {policy : EventRetryPolicy} {message : Msg} {k : ℕ}

/-- The failure path keeps the discipline. -/
theorem handleFailure_obeys {calls : List (Served (Bus F))} (payload : Json F) (exc : PyException)
    (hfailed : Failed message calls) (hhandled : ¬ Handled calls) (hsignals : signals calls = 0)
    (hpublishes : publishes calls = 0) :
    (handleFailure (atAttempt message k) payload exc (some policy) true).Obeys
      (discipline policy message k) calls (fun calls _ => Ends message calls)
      (fun calls _ => Ends message calls) := by
  have hends : ∀ c : Served (Bus F), (∀ m, c.call ≠ .handler m) → Ends message (calls ++ [c]) :=
    fun c hc => Or.inr ⟨hfailed.append, not_handled_append hhandled hc⟩
  by_cases hlast : policy.maxDeliver ≤ getDeliveryAttempt (atAttempt message k)
  · by_cases hmap : IsMapping payload
    · obtain ⟨letter, hprog⟩ := handleFailure_last payload exc hlast hmap
      rw [hprog]
      refine Prog.obeys_bind (Prog.obeys_call ⟨hlast, hfailed, hhandled, hpublishes⟩ ?_ ?_)
      · -- published: only the ack is left
        intro a
        refine Prog.obeys_call ⟨Or.inr ⟨_, _, List.mem_append_right _ List.mem_cons_self⟩, ?_⟩ ?_ ?_
        · show signals (calls ++ _) = 0
          rw [signals_append, hsignals]
          rfl
        · intro a
          exact Or.inl (acks_append.2 (Or.inr (acks_singleton.2 rfl)))
        · intro e
          exact Or.inl (acks_append.2 (Or.inr (acks_singleton.2 rfl)))
      · intro e
        exact hends _ fun m h => by cases h
    · rw [handleFailure_unreadable payload exc hlast hmap]
      exact Or.inr ⟨hfailed, hhandled⟩
  · have hlt : getDeliveryAttempt (atAttempt message k) < policy.maxDeliver := by omega
    rw [handleFailure_retry payload exc hlt]
    refine Prog.obeys_bind (Prog.obeys_call ⟨hlt, hfailed, hsignals⟩ ?_ ?_)
    · intro a
      exact hends _ fun m h => by cases h
    · intro e
      exact hends _ fun m h => by cases h

/-- **One delivery keeps the discipline**, whatever its calls answer. -/
theorem handle_obeys : (handleMessage (atAttempt message k) (some policy) true :
      Prog (Bus F) Unit).Obeys (discipline policy message k) []
      (fun calls _ => Ends message calls) (fun calls _ => Ends message calls) := by
  by_cases hbody : ∃ members : List (Text × Json F), decodePayload message.data = .ok (.dict members)
  · obtain ⟨members, hd⟩ := hbody
    have hd' : decodePayload (atAttempt message k).data = .ok (.dict members) := hd
    rw [handle_object policy hd']
    refine ⟨rfl, fun r => ?_⟩
    cases r with
    | ok a =>
      -- handled: only the ack is left
      refine Prog.obeys_call ⟨Or.inl ⟨_, List.mem_singleton_self _⟩, rfl⟩ ?_ ?_
      · intro a
        exact Or.inl (acks_append.2 (Or.inr (acks_singleton.2 rfl)))
      · intro e
        exact Or.inl (acks_append.2 (Or.inr (acks_singleton.2 rfl)))
    | error e =>
      refine handleFailure_obeys _ _ (Or.inr ⟨_, e, List.mem_singleton_self _⟩) ?_ rfl rfl
      rintro ⟨m, hm⟩
      cases List.mem_singleton.1 hm
  · rcases handle_cases (F := F) (atAttempt message k) policy with
      ⟨members, hd⟩ | ⟨payload, exc, hprog, -⟩
    · exact absurd ⟨members, hd⟩ hbody
    · rw [hprog]
      have hfailed : Failed message ([] : List (Served (Bus F))) :=
        Or.inl fun members hd => hbody ⟨members, hd⟩
      exact handleFailure_obeys _ _ hfailed not_handled_nil rfl rfl

end

/-! ## The deliveries of one message -/

/-- What holds of the calls of attempt `k`. -/
structure Sound (policy : EventRetryPolicy) (message : Msg) (k : ℕ) (calls : List (Served (Bus F))) :
    Prop where
  attempt : (k : ℤ) ≤ policy.maxDeliver
  one_signal : signals calls ≤ 1
  acks : Acks calls → Handled calls ∨ PublishReturned calls
  naks : Naks calls → (k : ℤ) < policy.maxDeliver ∧ Failed message calls
  one_publish : publishes calls ≤ 1
  publishes : publishes calls ≠ 0 → policy.maxDeliver ≤ k ∧ Failed message calls ∧ ¬ Handled calls

section

variable {policy : EventRetryPolicy} {message : Msg} {k : ℕ}

theorem sound_nil (h : (k : ℤ) ≤ policy.maxDeliver) :
    Sound policy message k ([] : List (Served (Bus F))) where
  attempt := h
  one_signal := Nat.zero_le _
  acks := by rintro ⟨c, hc, -⟩; cases hc
  naks := by rintro ⟨c, hc, -⟩; cases hc
  one_publish := Nat.zero_le _
  publishes h := absurd rfl h

/-- **An allowed call keeps what holds of the calls before it.** -/
theorem Sound.append {calls : List (Served (Bus F))} (h : Sound policy message k calls)
    {c : BusCall F} (hc : (discipline policy message k).allow calls c) (r : Except PyException Unit) :
    Sound policy message k (calls ++ [(⟨c, r⟩ : Served (Bus F))]) := by
  have hone := h.one_signal
  have hpub := h.one_publish
  have hhandled : Handled calls → Handled (calls ++ [(⟨c, r⟩ : Served (Bus F))]) :=
    fun hh => handled_append.2 (Or.inl hh)
  cases c with
  | handler handed =>
    -- the first call of the delivery
    have hnil : calls = [] := hc
    subst hnil
    exact ⟨h.attempt, Nat.zero_le _, (fun ha => by simp [isAck] at ha),
      (fun hn => by simp [isNak] at hn), Nat.zero_le _, fun hp => absurd rfl hp⟩
  | deadLetterPublisher subject letter =>
    obtain ⟨hlast, hfailed, hnot, hzero⟩ := hc
    refine ⟨h.attempt, ?_, fun ha => ?_, fun hn => ?_, ?_, fun _ => ?_⟩
    · rw [signals_append]; simpa [signals, isAck, isNak] using hone
    · have hacks : Acks calls := by simpa [acks_append, isAck] using ha
      exact (h.acks hacks).imp hhandled PublishReturned.append
    · have hnaks : Naks calls := by simpa [naks_append, isNak] using hn
      exact ⟨(h.naks hnaks).1, hfailed.append⟩
    · rw [publishes_append, hzero]; simp [CopyTrade.publishes, isPublish]
    · exact ⟨hlast, hfailed.append, not_handled_append hnot fun m h => by cases h⟩
  | ack =>
    obtain ⟨hcause, hzero⟩ := hc
    refine ⟨h.attempt, ?_, fun _ => hcause.imp hhandled PublishReturned.append, fun hn => ?_, ?_,
      fun hp => ?_⟩
    · rw [signals_append, hzero]; simp [signals, isAck]
    · have hnaks : Naks calls := by simpa [naks_append, isNak] using hn
      exact ⟨(h.naks hnaks).1, (h.naks hnaks).2.append⟩
    · rw [publishes_append]; simpa [CopyTrade.publishes, isPublish] using hpub
    · have hp' : CopyTrade.publishes calls ≠ 0 := by
        rw [publishes_append] at hp; simpa [CopyTrade.publishes, isPublish] using hp
      obtain ⟨h1, h2, h3⟩ := h.publishes hp'
      exact ⟨h1, h2.append, not_handled_append h3 fun m h => by cases h⟩
  | nak =>
    obtain ⟨hlt, hfailed, hzero⟩ := hc
    refine ⟨h.attempt, ?_, fun ha => ?_, fun _ => ⟨hlt, hfailed.append⟩, ?_, fun hp => ?_⟩
    · rw [signals_append, hzero]; simp [signals, isAck, isNak]
    · have hacks : Acks calls := by simpa [acks_append, isAck] using ha
      exact (h.acks hacks).imp hhandled PublishReturned.append
    · rw [publishes_append]; simpa [CopyTrade.publishes, isPublish] using hpub
    · have hp' : CopyTrade.publishes calls ≠ 0 := by
        rw [publishes_append] at hp; simpa [CopyTrade.publishes, isPublish] using hp
      obtain ⟨h1, h2, h3⟩ := h.publishes hp'
      exact ⟨h1, h2.append, not_handled_append h3 fun m h => by cases h⟩

/-- A delivery that calls for another one. -/
def Unsettled (message : Msg) (calls : List (Served (Bus F))) : Prop :=
  Failed message calls ∧ ¬ Handled calls ∧ ¬ Acks calls

/-- What holds of the deliveries of a message, the latest first. -/
def Attempts (policy : EventRetryPolicy) (message : Msg) : List (List (Served (Bus F))) → Prop
  | [] => True
  | calls :: past => Sound policy message (past.length + 1) calls ∧
    (∀ earlier ∈ past, Unsettled message earlier) ∧ Attempts policy message past

theorem Attempts.sound {deliveries : List (List (Served (Bus F)))}
    (h : Attempts policy message deliveries) {later past : List (List (Served (Bus F)))}
    {calls : List (Served (Bus F))} (hd : deliveries = later ++ calls :: past) :
    Sound policy message (past.length + 1) calls := by
  induction later generalizing deliveries with
  | nil => subst hd; exact h.1
  | cons d later ih => subst hd; exact ih h.2.2 rfl

/-- **At most one dead letter**, and only after every attempt has failed. -/
theorem Attempts.publishes {deliveries : List (List (Served (Bus F)))}
    (h : Attempts policy message deliveries) :
    publishes deliveries.flatten ≤ 1 ∧ (CopyTrade.publishes deliveries.flatten ≠ 0 →
      (deliveries.length : ℤ) = policy.maxDeliver ∧
        ∀ calls ∈ deliveries, Failed message calls ∧ ¬ Handled calls) := by
  induction deliveries with
  | nil => exact ⟨Nat.zero_le _, fun hn => absurd rfl hn⟩
  | cons calls past ih =>
    obtain ⟨hsound, hpast, hattempts⟩ := h
    obtain ⟨-, hlast⟩ := ih hattempts
    have hattempt := hsound.attempt
    -- the earlier attempts were not the last one
    have hzero : CopyTrade.publishes past.flatten = 0 := by
      by_contra hn
      have := (hlast hn).1
      omega
    have hsplit : CopyTrade.publishes (calls :: past).flatten = CopyTrade.publishes calls := by
      rw [List.flatten_cons, publishes_append, hzero, Nat.add_zero]
    rw [hsplit]
    refine ⟨hsound.one_publish, fun hn => ?_⟩
    obtain ⟨h1, h2, h3⟩ := hsound.publishes hn
    refine ⟨?_, ?_⟩
    · rw [List.length_cons]
      push_cast at h1 hattempt ⊢
      omega
    · intro d hd
      rcases List.mem_cons.1 hd with rfl | hd
      · exact ⟨h2, h3⟩
      · exact ⟨(hpast d hd).1, (hpast d hd).2.1⟩

end

/-! ## Runs -/

/-- What a step keeps of one message. -/
structure Kept (policy : EventRetryPolicy) (t : Tracked F) : Prop where
  attempts : Attempts policy t.message t.deliveries
  idle : t.deliveries = [] → ended t.current = true
  obeys : ∀ calls past, t.deliveries = calls :: past →
    t.current.Obeys (discipline policy t.message (past.length + 1)) calls
      (fun calls _ => Ends t.message calls) (fun calls _ => Ends t.message calls)
  acked : t.acked = true ↔ ∃ calls ∈ t.deliveries, Acks calls

variable {policy : EventRetryPolicy}

omit [Floats F] in
theorem ended_obeys {p : Prog (Bus F) Unit} {P : Protocol (Bus F) (List (Served (Bus F)))}
    {calls : List (Served (Bus F))} {E : List (Served (Bus F)) → Prop} (h : ended p = true)
    (ho : p.Obeys P calls (fun calls _ => E calls) (fun calls _ => E calls)) : E calls := by
  cases p with
  | done a => exact ho
  | fail e => exact ho
  | fresh k => cases h
  | await c k => cases h

theorem kept_new {t : Tracked F} (hd : t.deliveries = []) (hc : t.current = .done ())
    (ha : t.acked = false) : Kept policy t where
  attempts := by rw [hd]; trivial
  idle _ := by rw [hc]; rfl
  obeys calls past h := by rw [hd] at h; cases h
  acked := by rw [hd, ha]; simp

/-- The next delivery starts where the ones before have failed. -/
theorem Kept.delivered {t : Tracked F} (h : Kept policy t) (hended : ended t.current = true)
    (hacked : t.acked = false) (hlt : (t.deliveries.length : ℤ) < policy.maxDeliver) :
    Kept policy (t.delivered policy) := by
  have hnot : ∀ calls ∈ t.deliveries, ¬ Acks calls := by
    intro calls hcalls ha
    have := h.acked.2 ⟨calls, hcalls, ha⟩
    rw [hacked] at this; cases this
  have hunsettled : ∀ calls ∈ t.deliveries, Unsettled t.message calls := by
    intro calls hcalls
    cases hd : t.deliveries with
    | nil => rw [hd] at hcalls; cases hcalls
    | cons latest past =>
      have hattempts := h.attempts
      rw [hd] at hcalls hattempts
      rcases List.mem_cons.1 hcalls with rfl | hpast
      · have hnack : ¬ Acks calls := hnot calls (by rw [hd]; exact List.mem_cons_self)
        rcases ended_obeys hended (h.obeys calls past hd) with hack | ⟨hfailed, hhandled⟩
        · exact absurd hack hnack
        · exact ⟨hfailed, hhandled, hnack⟩
      · exact hattempts.2.1 calls hpast
  have hnext : ((t.deliveries.length + 1 : ℕ) : ℤ) ≤ policy.maxDeliver := by push_cast; omega
  refine ⟨⟨sound_nil hnext, hunsettled, h.attempts⟩, (fun hd => by cases hd), ?_, ?_⟩
  · intro calls past hd
    cases hd
    exact handle_obeys
  · show t.acked = true ↔ ∃ calls ∈ [] :: t.deliveries, Acks calls
    rw [h.acked]
    constructor
    · rintro ⟨calls, hcalls, ha⟩
      exact ⟨calls, List.mem_cons_of_mem _ hcalls, ha⟩
    · rintro ⟨calls, hcalls, ha⟩
      rcases List.mem_cons.1 hcalls with rfl | hcalls
      · obtain ⟨c, hc, -⟩ := ha; cases hc
      · exact ⟨calls, hcalls, ha⟩

/-- **One answered call.** -/
theorem Kept.answered {t : Tracked F} (h : Kept policy t) {c : BusCall F}
    {k : Except PyException Unit → Prog (Bus F) Unit} (hcurrent : t.current = .await c k)
    (r : Except PyException Unit) : Kept policy (t.answered ⟨c, r⟩ (k r)) := by
  cases hd : t.deliveries with
  | nil =>
    have hidle := h.idle hd
    rw [hcurrent] at hidle; cases hidle
  | cons calls past =>
    have hobeys := h.obeys calls past hd
    rw [hcurrent] at hobeys
    obtain ⟨hallow, hrest⟩ := hobeys
    have hattempts := h.attempts
    rw [hd] at hattempts
    obtain ⟨hsound, hpast, hearlier⟩ := hattempts
    have hnew : (t.answered ⟨c, r⟩ (k r)).deliveries = (calls ++ [⟨c, r⟩]) :: past := by
      simp only [Tracked.answered, hd]
    refine ⟨?_, fun hn => ?_, fun calls' past' hcons => ?_, ?_⟩
    · rw [hnew]
      exact ⟨hsound.append hallow r, hpast, hearlier⟩
    · rw [hnew] at hn; cases hn
    · rw [hnew] at hcons
      cases hcons
      exact hrest r
    · rw [hnew]
      show (t.acked || isAck c) = true ↔ _
      rw [Bool.or_eq_true, h.acked, hd]
      simp only [List.mem_cons, exists_eq_or_imp, acks_append, acks_singleton]
      exact or_right_comm

/-- **One step keeps what holds of every message.** -/
theorem step_kept {s s' : List (Tracked F)} {x : Happens} (h : ∀ t ∈ s, Kept policy t)
    (hs : consume? policy s x = some s') : ∀ t ∈ s', Kept policy t := by
  intro t ht
  rcases consume_cases hs with ⟨message, -, rfl⟩ | ⟨i, u, -, hu, hended, hacked, hlt, rfl⟩ |
    ⟨i, f, u, c, k, r, more, -, hu, hcurrent, -, hleaves, rfl⟩ | ⟨i, f, u, k, -, hu, hcurrent, rfl⟩
  · rcases List.mem_append.1 ht with ht | ht
    · exact h t ht
    · rw [List.mem_singleton.1 ht]
      exact kept_new rfl rfl rfl
  · rcases List.mem_or_eq_of_mem_set ht with ht | rfl
    · exact h t ht
    · exact (h u (List.mem_of_getElem? hu)).delivered hended hacked hlt
  · rcases List.mem_append.1 ht with ht | ht
    · rcases List.mem_or_eq_of_mem_set ht with ht | rfl
      · exact h t ht
      · exact (h u (List.mem_of_getElem? hu)).answered hcurrent r
    · rcases hleaves with ⟨-, -, subject, letter, data, -, -, rfl⟩ | ⟨-, rfl⟩
      · rw [List.mem_singleton.1 ht]
        exact kept_new rfl rfl rfl
      · cases ht
  · rcases List.mem_or_eq_of_mem_set ht with ht | rfl
    · exact h t ht
    · have hu := h u (List.mem_of_getElem? hu)
      refine ⟨hu.attempts, fun hn => ?_, fun calls past hcons => ?_, hu.acked⟩
      · have hidle := hu.idle hn
        rw [hcurrent] at hidle; cases hidle
      · have hobeys := hu.obeys calls past hcons
        rw [hcurrent] at hobeys
        exact hobeys ()

/-- **What holds of every message of a run**, over any interleaving of deliveries. -/
theorem run_kept {inputs : List Happens} {s : List (Tracked F)}
    (h : Steps.run? (consume? policy) [] inputs = some s) : ∀ t ∈ s, Kept policy t :=
  Steps.run_inv (J := fun s : List (Tracked F) => ∀ t ∈ s, Kept policy t)
    (fun _ _ _ hs hstep => step_kept hs hstep) (fun t ht => by cases ht) h

/-- What the deliveries of a message have signalled and published. -/
structure Disciplined (policy : EventRetryPolicy) (t : Tracked F) : Prop where
  one_signal : ∀ calls ∈ t.deliveries, signals calls ≤ 1
  acked : t.acked = true → ∃ calls ∈ t.deliveries, Acks calls
  acks : ∀ calls ∈ t.deliveries, Acks calls → Handled calls ∨ PublishReturned calls
  naks : ∀ later calls past, t.deliveries = later ++ calls :: past → Naks calls →
    ((past.length + 1 : ℕ) : ℤ) < policy.maxDeliver ∧ Failed t.message calls
  one_publish : publishes t.deliveries.flatten ≤ 1
  published : publishes t.deliveries.flatten ≠ 0 →
    (t.deliveries.length : ℤ) = policy.maxDeliver ∧
      ∀ calls ∈ t.deliveries, Failed t.message calls ∧ ¬ Handled calls

/-- **The acknowledgement discipline**, in every state of every run: each delivery signals at
most once; what is acked was handled or dead-lettered by the acking delivery; a nak is for a
failed attempt that is not the last; and a message has at most one dead letter, after all
attempts have failed and none was handled. -/
theorem run_disciplined {inputs : List Happens} {s : List (Tracked F)}
    (h : Steps.run? (consume? policy) [] inputs = some s) : ∀ t ∈ s, Disciplined policy t := by
  intro t ht
  have hkept := run_kept h t ht
  have hsound : ∀ calls ∈ t.deliveries, ∃ k, Sound policy t.message k calls := by
    intro calls hcalls
    obtain ⟨later, past, hd⟩ := List.append_of_mem hcalls
    exact ⟨_, hkept.attempts.sound hd⟩
  obtain ⟨hone, hlast⟩ := hkept.attempts.publishes
  refine ⟨fun calls hcalls => ?_, hkept.acked.1, fun calls hcalls => ?_, ?_, hone, hlast⟩
  · obtain ⟨k, hk⟩ := hsound calls hcalls
    exact hk.one_signal
  · obtain ⟨k, hk⟩ := hsound calls hcalls
    exact hk.acks
  · intro later calls past hd
    exact (hkept.attempts.sound hd).naks

/-- A message that is handled at its first delivery. -/
theorem run_disciplined_handled :
    ∃ s : List (Tracked Unit), Steps.run? (consume? {}) []
        [.arrive (sampleMessage "\x7b\x7d"), .deliver 0, .turn 0 .works, .turn 0 .works] = some s ∧
      ∀ t ∈ s, Disciplined {} t := by
  have hrun : ∃ s : List (Tracked Unit), Steps.run? (consume? {}) []
      [.arrive (sampleMessage "\x7b\x7d"), .deliver 0, .turn 0 .works, .turn 0 .works] = some s :=
    ⟨_, rfl⟩
  obtain ⟨s, hs⟩ := hrun
  exact ⟨s, hs, run_disciplined hs⟩

end CopyTrade
