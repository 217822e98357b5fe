import CopyTrade.Proof.Ownership
import CopyTrade.Proof.Settling

/-!
# From the message to the order

The disciplines of the engine's handlers hold for them inside the callbacks, and so do the
invariants that rest on them. With what an ack stands for this says how often a trade is copied,
from its first delivery to its ack.

* `wrapped_lift`: a discipline of the handlers is one of the callbacks.
* `copied_once`: an acked trade has each of its orders handed over once.
-/

namespace CopyTrade

open Async (Prog Protocol Entry Pool Input Started Invariant begun inner mem_inner)
open Python (Text Json Runtime)

variable {F : Type} [Runtime F] {models : EventModels F} {d : MessageDelivery} {B : Type} [Ledger B]

/-- **A discipline of the engine's handlers is one of the callbacks around them.** -/
theorem wrapped_lift {L : Type} {P : Protocol CopyEngine L} {l₀ : L}
    (h : ∀ q, Handler q → q.Keeps P l₀) : (d.wrapped models).Keeps P.widen l₀ := by
  apply wrapped_keeps
  · intro l; trivial
  · intro l subject letter; trivial
  · intro l policy payload exc letter _ _ _; trivial
  · intro members _
    unfold Startup.EventHandler.handle
    cases d.handler with
    | normalizedTrade recorder => exact Prog.obeys_widen (h _ (.trade _))
    | copyExecutionResult recorder => exact Prog.obeys_widen (h _ (.result _))
    | deadLetter recorder => exact Prog.obeys_call trivial (fun _ => trivial) fun _ => trivial

omit [Runtime F] in
/-- **An invariant of the engine holds of the callbacks' engine calls.** -/
theorem workers_invariant {L : Type} {P : Protocol CopyEngine L} {l₀ : L}
    {I : World B → List (Entry CopyEngine) → Prop} (hI : Invariant (engine B) P l₀ I) :
    Invariant (workers F B) P.widen l₀ fun w tr => I w (inner tr) := by
  apply hI.widen (N := workers F B) fun w => w
  · intro w; rfl
  · intro m w w' hm; exact ⟨m, hm⟩
  · intro c w a w' ha; exact ha
  · intro c w a w' ha; cases ha; rfl

/-- The relationships that the delivery listed for its event and that pass the gates have their
orders handed over once in the whole run, or their keys were taken already. -/
def CopiedOnce (tr : List (Entry CopyEngine)) (did : (c : Call) → CopyEngine.Ret c → Prop)
    (event : NormalizedOrderEvent) : Prop :=
  ∃ relationships, did (.listActiveForEvent event) relationships ∧
    ∀ r ∈ relationships, passesGates event r = true →
      (handedOver tr).count (keyOf event r) = 1 ∨ did (.reserve (keyOf event r)) false

/-- **From the message to the order, once.** In any run of deliveries, redeliveries included, by
any number of workers over one idempotency store: no key is handed over twice; and a trade that is
acked was dead-lettered, or every relationship that was listed for it and passes the gates has its
order handed over, exactly once, or its key was taken already. -/
theorem copied_once {w : World B} {xs : List (Input (workers F B))} {p : Pool (workers F B)}
    {ds : List MessageDelivery} (hx : begun xs = ds.map (·.wrapped models))
    (h : (Pool.init w).run? xs = some p) :
    (∀ key, (handedOver (inner p.trace)).count key ≤ 1) ∧
      ∀ newer i r older, p.trace = newer ++ ⟨i, .inr .ack, r⟩ :: older →
        ∀ d, ds[i]? = some d → ∀ recorder, d.handler = .normalizedTrade recorder →
          d.DeadLettered (F := F) (fun c a => ⟨i, c, .ok a⟩ ∈ older) ∨
          ∃ members event, decodePayload d.message.data = .ok (.dict members) ∧
            models.normalizedOrderEvent members = .ok event ∧
            CopiedOnce (inner p.trace) (fun c a => ⟨i, .inl c, .ok a⟩ ∈ older) event := by
  have hstarted : Started ownership.widen {} xs := by
    intro q hq
    have hbegun : q ∈ begun xs := List.mem_filterMap.2 ⟨_, hq, rfl⟩
    rw [hx] at hbegun
    obtain ⟨d, -, rfl⟩ := List.mem_map.1 hbegun
    exact wrapped_lift fun q hq => hq.keeps_ownership
  obtain ⟨hexclusive, -⟩ := Pool.run_inv (workers_invariant exclusive) hstarted
    (Pool.init_ok (M := workers F B) w) (exclusive_init _) h
  have honce : (handedOver (inner p.trace)).Nodup := hexclusive.once
  refine ⟨List.nodup_iff_count_le_one.1 honce, ?_⟩
  intro newer i r older htr d hd recorder hhandler
  obtain ⟨d', hd', haccounted⟩ := ack_history hx h htr
  cases hd.symm.trans hd'
  rw [responded_made] at haccounted
  rcases haccounted with hletter | ⟨members, hbody, hhandled⟩
  · exact Or.inl hletter
  unfold MessageDelivery.Handled at hhandled
  rw [hhandler] at hhandled
  obtain ⟨event, hevent, relationships, hlist, hall⟩ := hhandled
  refine Or.inr ⟨members, event, hbody, hevent, relationships, hlist, fun r hr hg => ?_⟩
  rcases hall r hr hg with htaken | ⟨-, q, hbuilt, hover⟩
  · exact Or.inr htaken
  left
  -- the publish stands in the trace, and no other with its key does
  have hpublish : ⟨i, .publishJson copyExecutionRequested q, .ok ()⟩ ∈ inner p.trace := by
    rw [mem_inner, htr]
    exact List.mem_append_right _ (List.mem_cons_of_mem _ hover.published)
  have hkey : keyOf event r ∈ handedOver (inner p.trace) :=
    List.mem_filterMap.2 ⟨_, hpublish, by rw [← hbuilt.key]; rfl⟩
  exact List.count_eq_one_of_mem honce hkey

theorem copied_once_sample : ∃ p r older,
    (Pool.init (World.start [sampleRelationship] ())).run? ackedRun = some p ∧
      p.trace = ⟨0, .inr .ack, r⟩ :: older ∧
      (∀ key, (handedOver (inner p.trace)).count key ≤ 1) ∧
      (sampleDelivery.DeadLettered (F := Unit) (fun c a => ⟨0, c, .ok a⟩ ∈ older) ∨
        ∃ members event, decodePayload sampleDelivery.message.data = .ok (.dict members) ∧
          sampleModels.normalizedOrderEvent members = .ok event ∧
          CopiedOnce (inner p.trace) (fun c a => ⟨0, .inl c, .ok a⟩ ∈ older) event) := by
  obtain ⟨p, r, older, hp, htr⟩ := ackedRun_acks
  have htr' : p.trace = [] ++ ⟨0, .inr .ack, r⟩ :: older := htr
  have hx : begun ackedRun = [sampleDelivery].map (·.wrapped sampleModels) := rfl
  obtain ⟨honce, hacked⟩ := copied_once hx hp
  exact ⟨p, r, older, hp, htr, honce, hacked [] 0 r older htr' sampleDelivery rfl .noop rfl⟩

end CopyTrade
