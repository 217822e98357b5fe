import CopyTrade.Spec.World
import Mathlib.Data.Finset.Basic

/-!
# The stores of the processor

`idempotency.py`. The processor sees its store through two calls, and what it may rely on
is the same for both implementations: a set of keys, where `reserve` adds a key unless it
is there and `release` takes one out (`IdempotencyStore`). They differ in the keys they take.

* `InMemoryIdempotencyStore`: the set of a process, with a processor on it (`inMemory`). It
  takes every key (`RefusesNone`).
* `PostgresIdempotencyStore` is the table of `World`, a set of keys by `reserve_cases`. It
  takes the keys that are a `text`.
-/

namespace CopyTrade

open Async (Machine)

structure InMemoryIdempotencyStore where
  reservedKeys : Finset String := ∅

namespace InMemoryIdempotencyStore

def reserve (key : String) (store : InMemoryIdempotencyStore) : Bool × InMemoryIdempotencyStore :=
  if key ∈ store.reservedKeys then (false, store)
  else (true, { reservedKeys := insert key store.reservedKeys })

def release (key : String) (store : InMemoryIdempotencyStore) : InMemoryIdempotencyStore :=
  { reservedKeys := store.reservedKeys.erase key }

end InMemoryIdempotencyStore

/-- A `CopyEventProcessor` with its provider, its store and the source of `uuid4()`. -/
structure CopyEventProcessor where
  relationshipProvider : NormalizedOrderEvent → List CopyRelationship
  idempotencyStore : InMemoryIdempotencyStore := {}
  uuid4 : ℕ → UUID := fun n => ⟨BitVec.ofNat 128 n⟩
  issued : ℕ := 0

/-- The machine of a processor alone: its recorders and its bus keep nothing. -/
abbrev inMemory : Machine CopyEngine where
  State := CopyEventProcessor
  effect
    | .listActiveForEvent event, p => some (p.relationshipProvider event, p)
    | .reserve key, p =>
      let (reserved, store) := p.idempotencyStore.reserve key
      some (reserved, { p with idempotencyStore := store })
    | .release key, p =>
      some ((), { p with idempotencyStore := p.idempotencyStore.release key })
    | .record _, p => some ((), p)
    | .markPublished _, p => some ((), p)
    | .publishJson _ _, p => some ((), p)
    | .insertResult _, p => some ((), p)
    | .updateRequestFromResult _ _, p => some ((), p)
  draw p := (p.uuid4 p.issued, { p with issued := p.issued + 1 })
  Move := NormalizedOrderEvent → List CopyRelationship
  move provider p := some { p with relationshipProvider := provider }

/-- **What the processor relies on.** The provider answers from the state, and the store is
a set of keys that only its own two calls change. -/
class IdempotencyStore (M : Machine CopyEngine) where
  listed : M.State → NormalizedOrderEvent → List CopyRelationship
  Reserved : M.State → String → Prop
  Accepts : String → Prop
  decidable : ∀ s, DecidablePred (Reserved s)
  acceptsDecidable : DecidablePred Accepts
  list : ∀ event s, M.effect (.listActiveForEvent event) s = some (listed s event, s)
  accepts : ∀ key s, (M.effect (.reserve key) s).isSome ↔ Accepts key
  reserve : ∀ {key s b s'}, M.effect (.reserve key) s = some (b, s') →
    (b = false ∧ Reserved s key ∧ s' = s) ∨ (b = true ∧ ¬ Reserved s key ∧
      (∀ k, Reserved s' k ↔ Reserved s k ∨ k = key) ∧ listed s' = listed s)
  release : ∀ {key s a s'}, M.effect (.release key) s = some (a, s') →
    (∀ k, Reserved s' k ↔ Reserved s k ∧ k ≠ key) ∧ listed s' = listed s
  others : ∀ c s a, (∀ key, c ≠ .reserve key) → (∀ key, c ≠ .release key) →
    M.effect c s = some a → ∀ k, Reserved a.2 k ↔ Reserved s k
  draw : ∀ s, (∀ k, Reserved (M.draw s).2 k ↔ Reserved s k) ∧ listed (M.draw s).2 = listed s
  move : ∀ m s s', M.move m s = some s' → ∀ k, Reserved s' k ↔ Reserved s k

attribute [reducible, instance] IdempotencyStore.decidable IdempotencyStore.acceptsDecidable

/-- Only a release frees a key, and only its own. -/
theorem IdempotencyStore.keeps {M : Machine CopyEngine} [IdempotencyStore M] {c : Call}
    {f : Async.Fault PyException} {s s' : M.State} {r : CopyEngine.Reply c} {k : String}
    (h : M.serve c f s = some (r, s')) (hk : Reserved s k) (hc : ∀ key, c = .release key → k ≠ key) :
    Reserved s' k := by
  rcases Machine.serve_state h with ⟨-, a, ha⟩ | ⟨-, rfl⟩
  swap
  · exact hk
  by_cases hreserve : ∃ key, c = .reserve key
  · obtain ⟨key, rfl⟩ := hreserve
    rcases IdempotencyStore.reserve ha with ⟨-, -, rfl⟩ | ⟨-, -, hres, -⟩
    · exact hk
    · exact (hres k).2 (Or.inl hk)
  by_cases hrelease : ∃ key, c = .release key
  · obtain ⟨key, rfl⟩ := hrelease
    exact ((IdempotencyStore.release ha).1 k).2 ⟨hk, hc key rfl⟩
  · exact (IdempotencyStore.others c s (a, s') (fun key he => hreserve ⟨key, he⟩)
      (fun key he => hrelease ⟨key, he⟩) ha k).2 hk

/-- A store that takes every key. -/
class RefusesNone (M : Machine CopyEngine) [IdempotencyStore M] : Prop where
  accepts : ∀ key, IdempotencyStore.Accepts M key

instance : IdempotencyStore inMemory where
  listed p := p.relationshipProvider
  Reserved p key := key ∈ p.idempotencyStore.reservedKeys
  Accepts _ := True
  decidable _ _ := inferInstance
  acceptsDecidable _ := inferInstance
  list _ _ := rfl
  accepts _ _ := ⟨fun _ => trivial, fun _ => rfl⟩
  reserve {key p b p'} h := by
    by_cases hmem : key ∈ p.idempotencyStore.reservedKeys
    · simp only [InMemoryIdempotencyStore.reserve, hmem, if_true] at h
      cases h
      exact Or.inl ⟨rfl, hmem, rfl⟩
    · simp only [InMemoryIdempotencyStore.reserve, hmem, if_false] at h
      cases h
      exact Or.inr ⟨rfl, hmem, fun k => by simp [or_comm], rfl⟩
  release h := by
    cases h
    exact ⟨fun k => by simp [InMemoryIdempotencyStore.release, and_comm], rfl⟩
  others c p a hreserve hrelease h k := by
    cases c with
    | reserve key => exact absurd rfl (hreserve key)
    | release key => exact absurd rfl (hrelease key)
    | listActiveForEvent event => cases h; exact Iff.rfl
    | record request => cases h; exact Iff.rfl
    | markPublished request => cases h; exact Iff.rfl
    | publishJson subject payload => cases h; exact Iff.rfl
    | insertResult result => cases h; exact Iff.rfl
    | updateRequestFromResult requestId status => cases h; exact Iff.rfl
  draw _ := ⟨fun _ => Iff.rfl, rfl⟩
  move _ _ _ h _ := by cases h; exact Iff.rfl

instance : RefusesNone inMemory := ⟨fun _ => trivial⟩

variable {B : Type} [Ledger B]

instance : IdempotencyStore (engine B) where
  listed w := w.provider
  Reserved := World.Reserved
  Accepts key := Sql.text? key ≠ none
  decidable _ _ := inferInstance
  acceptsDecidable _ := inferInstance
  list _ _ := rfl
  accepts _ _ := World.reserve_isSome
  reserve h := by
    rcases World.reserve_cases h with hheld | ⟨hb, hfree, hres, hw⟩
    · exact Or.inl hheld
    · exact Or.inr ⟨hb, hfree, hres, by rw [hw]⟩
  release {key w a w'} h := by
    obtain ⟨w₁, hrelease, he⟩ := Option.map_eq_some_iff.1 h
    cases he
    obtain ⟨hres, hw⟩ := World.release_cases hrelease
    exact ⟨hres, by rw [hw]⟩
  others c w a hreserve hrelease h k := by
    have hsame : a.2.idempotency = w.idempotency := by
      cases c with
      | reserve key => exact absurd rfl (hreserve key)
      | release key => exact absurd rfl (hrelease key)
      | listActiveForEvent event => cases h; rfl
      | publishJson subject payload => cases h; rfl
      | record request => obtain ⟨l, -, rfl⟩ := Option.map_eq_some_iff.1 h; rfl
      | markPublished request => obtain ⟨l, -, rfl⟩ := Option.map_eq_some_iff.1 h; rfl
      | insertResult result => obtain ⟨l, -, rfl⟩ := Option.map_eq_some_iff.1 h; rfl
      | updateRequestFromResult id status => obtain ⟨l, -, rfl⟩ := Option.map_eq_some_iff.1 h; rfl
    unfold World.Reserved
    rw [hsame]
  draw _ := ⟨fun _ => Iff.rfl, rfl⟩
  move _ _ _ h k := reserved_move h k

end CopyTrade
