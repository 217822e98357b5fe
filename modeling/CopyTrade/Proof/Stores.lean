import CopyTrade.Async.Moments
import CopyTrade.Async.Simulation
import CopyTrade.Proof.Ownership
import CopyTrade.Spec.Idempotency

/-!
# The two idempotency stores

`InMemoryIdempotencyStore` and `PostgresIdempotencyStore` are one set of keys, kept in a
process or in a table. The table takes no key that is not a text of the database, and the
workers can tell the two apart by such a key only: each simulates the other where the calls
on it raised.

* `postgres_simulated`: what a worker can come to with the table, whatever its recorders keep
  and refuse, it can come to with the set.
* `inMemory_simulated`: and back, with the recorders that keep nothing.
* `stores_alike`: the two together, for whole runs.
* `inMemory_hands_over_once`: one hand-over per key, on the set too.
-/

namespace CopyTrade

open Async (Machine Prog Entry Pool Input Started Simulates Reaches begun serve_of_effect)

variable {B : Type}

/-- A processor and a world with the same relationships, the same names to draw and the same
keys among those that the table can hold. -/
structure SameKeys (p : CopyEventProcessor) (w : World B) : Prop where
  provider : w.provider = p.relationshipProvider
  uuid4 : w.uuid4 = p.uuid4
  issued : w.issued = p.issued
  keys : ∀ key, Sql.text? key ≠ none → (w.Reserved key ↔ key ∈ p.idempotencyStore.reservedKeys)

/-- A call that keeps the relationships, the names and the keys of the world. -/
theorem SameKeys.kept {p : CopyEventProcessor} {w w' : World B} (h : SameKeys p w)
    (hw : w'.provider = w.provider ∧ w'.uuid4 = w.uuid4 ∧ w'.issued = w.issued ∧
      w'.idempotency = w.idempotency) : SameKeys p w' := by
  obtain ⟨hprovider, huuid, hissued, htable⟩ := hw
  refine ⟨hprovider.trans h.provider, huuid.trans h.uuid4, hissued.trans h.issued, fun key htext => ?_⟩
  unfold World.Reserved
  rw [htable]
  exact h.keys key htext

/-- The answer of `reserve` and the keys after it are the same. -/
theorem SameKeys.reserve {p : CopyEventProcessor} {w : World B} (h : SameKeys p w) {key : String}
    (htext : Sql.text? key ≠ none) : ∃ answer store w',
      p.idempotencyStore.reserve key = (answer, store) ∧ w.reserve key = some (answer, w') ∧
        SameKeys { p with idempotencyStore := store } w' := by
  obtain ⟨⟨answer, w'⟩, hw⟩ := Option.isSome_iff_exists.1 (World.reserve_isSome (w := w).2 htext)
  rcases World.reserve_cases hw with ⟨rfl, hres, rfl⟩ | ⟨rfl, hfree, hkeys, hrest⟩
  · have hin := (h.keys key htext).1 hres
    refine ⟨false, p.idempotencyStore, w', ?_, hw, h⟩
    simp only [InMemoryIdempotencyStore.reserve, hin, if_true]
  · have hout : key ∉ p.idempotencyStore.reservedKeys := fun hin => hfree ((h.keys key htext).2 hin)
    refine ⟨true, ⟨insert key p.idempotencyStore.reservedKeys⟩, w', ?_, hw, ?_⟩
    · simp only [InMemoryIdempotencyStore.reserve, hout, if_false]
    · refine ⟨?_, ?_, ?_, fun k hk => ?_⟩
      · rw [hrest]; exact h.provider
      · rw [hrest]; exact h.uuid4
      · rw [hrest]; exact h.issued
      · rw [hkeys k, h.keys k hk, Finset.mem_insert, or_comm]

/-- The keys after `release` are the same. -/
theorem SameKeys.release {p : CopyEventProcessor} {w : World B} (h : SameKeys p w) {key : String}
    (htext : Sql.text? key ≠ none) : ∃ w', w.release key = some w' ∧
      SameKeys { p with idempotencyStore := p.idempotencyStore.release key } w' := by
  obtain ⟨w', hw⟩ := Option.isSome_iff_exists.1 (World.release_isSome (w := w).2 htext)
  obtain ⟨hkeys, hrest⟩ := World.release_cases hw
  refine ⟨w', hw, ?_, ?_, ?_, fun k hk => ?_⟩
  · rw [hrest]; exact h.provider
  · rw [hrest]; exact h.uuid4
  · rw [hrest]; exact h.issued
  · rw [hkeys k, h.keys k hk]
    simp [InMemoryIdempotencyStore.release, and_comm]

/-- A call that only the table refuses: on a key that is no text of the database. -/
def OnRefusedKey : Call → Prop
  | .reserve key => Sql.text? key = none
  | .release key => Sql.text? key = none
  | _ => False

/-- Where the call is one that the table refuses, it raised. -/
def RefusedRaises (c : Call) (r : CopyEngine.Reply c) : Prop :=
  OnRefusedKey c → ∃ e, r = .error e

/-- The set may change by such a key, and is the same among the others. -/
theorem SameKeys.refused {p p' : CopyEventProcessor} {w : World B} (h : SameKeys p w) {c : Call}
    {a : CopyEngine.Ret c} (hc : OnRefusedKey c) (heffect : inMemory.effect c p = some (a, p')) :
    SameKeys p' w := by
  have other : ∀ {key k}, Sql.text? key = none → Sql.text? k ≠ none → k ≠ key := by
    rintro key k hkey hk rfl
    exact hk hkey
  cases c with
  | reserve key =>
    rcases IdempotencyStore.reserve heffect with ⟨-, -, rfl⟩ | ⟨-, -, hkeys, -⟩
    · exact h
    · cases heffect
      refine ⟨h.provider, h.uuid4, h.issued, fun k hk => (h.keys k hk).trans ?_⟩
      rw [show k ∈ _ ↔ _ from hkeys k]
      exact (or_iff_left (other hc hk)).symm
  | release key =>
    cases heffect
    refine ⟨h.provider, h.uuid4, h.issued, fun k hk => (h.keys k hk).trans ?_⟩
    simp [InMemoryIdempotencyStore.release, other hc hk]
  | listActiveForEvent event => exact absurd hc id
  | record q => exact absurd hc id
  | markPublished q => exact absurd hc id
  | publishJson subject q => exact absurd hc id
  | insertResult result => exact absurd hc id
  | updateRequestFromResult requestId status => exact absurd hc id

/-- A draw gives both the same name. -/
theorem SameKeys.draw {p : CopyEventProcessor} {w : World B} (h : SameKeys p w) :
    w.uuid4 w.issued = p.uuid4 p.issued ∧
      SameKeys { p with issued := p.issued + 1 } { w with issued := w.issued + 1 } := by
  refine ⟨by rw [h.uuid4, h.issued], h.provider, h.uuid4, ?_, h.keys⟩
  show w.issued + 1 = p.issued + 1
  rw [h.issued]

variable [Ledger B]

/-- The table refuses it. -/
theorem effect_refused {c : Call} (hc : OnRefusedKey c) (w : World B) :
    (engine B).effect c w = none := by
  cases c with
  | reserve key =>
    have hsome : ¬ (w.reserve key).isSome = true := mt World.reserve_isSome.1 (not_not.2 hc)
    exact Option.not_isSome_iff_eq_none.1 hsome
  | release key =>
    have hsome : ¬ (w.release key).isSome = true := mt World.release_isSome.1 (not_not.2 hc)
    have hnone : w.release key = none := Option.not_isSome_iff_eq_none.1 hsome
    show (w.release key).map _ = none
    rw [hnone]
    rfl
  | listActiveForEvent event => exact absurd hc id
  | record q => exact absurd hc id
  | markPublished q => exact absurd hc id
  | publishJson subject q => exact absurd hc id
  | insertResult result => exact absurd hc id
  | updateRequestFromResult requestId status => exact absurd hc id

/-- **The set can do what the table does**, whatever the recorders keep and refuse. -/
theorem postgres_simulated :
    Simulates (engine B) inMemory (fun w p => SameKeys p w) fun _ _ => True where
  draw h := ⟨h.draw.1.symm, h.draw.2⟩
  serve := by
    intro c f w p r w' h hserve _
    refine serve_of_effect (M := engine B) (N := inMemory) (R := fun w p => SameKeys p w) h
      (fun {a w'} heffect => ?_) hserve
    have htext : ¬ OnRefusedKey c := by
      intro hc
      rw [effect_refused hc w] at heffect
      cases heffect
    -- a statement of a recorder moves nothing that the processor sees
    have recorded : ∀ {l : Option B}, (l.map fun l' => ((), { w with ledger := l' })) =
        some ((), w') → SameKeys p w' := by
      intro l hl
      obtain ⟨l', -, he⟩ := Option.map_eq_some_iff.1 hl
      cases he
      exact h.kept ⟨rfl, rfl, rfl, rfl⟩
    cases c with
    | listActiveForEvent event =>
      cases heffect
      exact ⟨p, by rw [h.provider], h⟩
    | reserve key =>
      obtain ⟨answer, store, w₁, hstore, hw, hsame⟩ := h.reserve htext
      cases hw.symm.trans heffect
      refine ⟨{ p with idempotencyStore := store }, ?_, hsame⟩
      simp only [hstore]
    | release key =>
      obtain ⟨w₁, hw, hsame⟩ := h.release htext
      have heffect : (w.release key).map (fun w => ((), w)) = some ((), w') := heffect
      rw [hw] at heffect
      cases heffect
      exact ⟨_, rfl, hsame⟩
    | publishJson subject q => cases heffect; exact ⟨p, rfl, h.kept ⟨rfl, rfl, rfl, rfl⟩⟩
    | record q => exact ⟨p, rfl, recorded heffect⟩
    | markPublished q => exact ⟨p, rfl, recorded heffect⟩
    | insertResult result => exact ⟨p, rfl, recorded heffect⟩
    | updateRequestFromResult id status => exact ⟨p, rfl, recorded heffect⟩
  move := by
    intro m w p w' h hm
    cases m with
    | elapse seconds =>
      -- the process has no clock
      simp only [engine] at hm
      split at hm
      · cases hm; exact Or.inl (h.kept ⟨rfl, rfl, rfl, rfl⟩)
      · cases hm
    | relist provider =>
      cases hm
      exact Or.inr ⟨provider, _, rfl, rfl, h.uuid4, h.issued, h.keys⟩

/-- **The table can do what the set does**, next to recorders that keep nothing, where the
calls that it refuses raised. -/
theorem inMemory_simulated :
    Simulates inMemory (engine Unit) (fun p w => SameKeys p w) RefusedRaises where
  draw h := h.draw
  serve := by
    intro c f p w r p' h hserve hraises
    by_cases hc : OnRefusedKey c
    · -- the table raises where it is, whether or not the set moved
      obtain ⟨e, rfl⟩ := hraises hc
      refine ⟨.before e, w, rfl, ?_⟩
      rcases Machine.serve_state hserve with ⟨-, a, heffect⟩ | ⟨-, rfl⟩
      · exact h.refused hc heffect
      · exact h
    refine serve_of_effect (M := inMemory) (N := engine Unit) (R := fun p w => SameKeys p w) h
      (fun {a p'} heffect => ?_) hserve
    cases c with
    | listActiveForEvent event =>
      cases heffect
      refine ⟨w, ?_, h⟩
      rw [← h.provider]
      rfl
    | reserve key =>
      obtain ⟨answer, store, w', hstore, hw, hsame⟩ := h.reserve hc
      simp only [hstore] at heffect
      cases heffect
      exact ⟨w', hw, hsame⟩
    | release key =>
      cases heffect
      obtain ⟨w', hw, hsame⟩ := h.release hc
      refine ⟨w', ?_, hsame⟩
      show (w.release key).map (fun w => ((), w)) = some ((), w')
      rw [hw]
      rfl
    | publishJson subject q => cases heffect; exact ⟨_, rfl, h.kept ⟨rfl, rfl, rfl, rfl⟩⟩
    | record q => cases heffect; exact ⟨_, rfl, h.kept ⟨rfl, rfl, rfl, rfl⟩⟩
    | markPublished q => cases heffect; exact ⟨_, rfl, h.kept ⟨rfl, rfl, rfl, rfl⟩⟩
    | insertResult result => cases heffect; exact ⟨_, rfl, h.kept ⟨rfl, rfl, rfl, rfl⟩⟩
    | updateRequestFromResult id status =>
      cases heffect; exact ⟨_, rfl, h.kept ⟨rfl, rfl, rfl, rfl⟩⟩
  move := by
    intro provider p w p' h hm
    cases hm
    exact Or.inr ⟨.relist provider, _, rfl, rfl, h.uuid4, h.issued, h.keys⟩

/-- In a run on the table the calls that it refuses raised. -/
theorem refused_raises {w : World B} {qs rs : List (Prog CopyEngine Unit)} {tr : List (Entry CopyEngine)}
    (h : Reaches (engine B) w qs rs tr) : ∀ e ∈ tr, RefusedRaises e.call e.reply := by
  obtain ⟨xs, p, hrun, -, -, rfl⟩ := h
  intro e he hc
  obtain ⟨newer, older, htrace⟩ := List.append_of_mem he
  obtain ⟨-, f, -, p₁, -, w', -, -, -, -, hserve⟩ := Pool.run_entry hrun htrace
  rcases Machine.serve_cases hserve with ⟨exc, -, hr, -⟩ | ⟨a, heffect, -⟩
  · exact ⟨exc, hr⟩
  · rw [effect_refused hc p₁.state] at heffect
    cases heffect

/-- **The workers can tell the stores apart by a refused key only.** Whatever programs they
run, in any interleaving and with any faults, and however the relationships change: the calls,
the answers and what is still to run that they can come to with the table are those that they
can come to with the set and in which every call that the table refuses raised. Recorders that
refuse a statement only take something away. -/
theorem stores_alike {p : CopyEventProcessor} {w : World Unit} (h : SameKeys p w)
    (qs rs : List (Prog CopyEngine Unit)) (tr : List (Entry CopyEngine)) :
    (Reaches (engine Unit) w qs rs tr ↔
        Reaches inMemory p qs rs tr ∧ ∀ e ∈ tr, RefusedRaises e.call e.reply) ∧
      ∀ (B : Type) [Ledger B] (v : World B), SameKeys p v → Reaches (engine B) v qs rs tr →
        Reaches inMemory p qs rs tr ∧ ∀ e ∈ tr, RefusedRaises e.call e.reply := by
  have forward : ∀ (B : Type) [Ledger B] (v : World B), SameKeys p v →
      Reaches (engine B) v qs rs tr →
        Reaches inMemory p qs rs tr ∧ ∀ e ∈ tr, RefusedRaises e.call e.reply := by
    intro B _ v hv hreaches
    exact ⟨postgres_simulated.reaches hv hreaches fun _ _ => trivial, refused_raises hreaches⟩
  refine ⟨⟨forward Unit w h, ?_⟩, forward⟩
  rintro ⟨hreaches, hraises⟩
  exact inMemory_simulated.reaches h hreaches hraises

/-- A processor and a world that start with the sample relationship and no key. -/
def sampleProcessor : CopyEventProcessor := { relationshipProvider := fun _ => [sampleRelationship] }

def sampleWorld : World Unit := { World.start [sampleRelationship] () with issued := 0 }

theorem sample_sameKeys : SameKeys sampleProcessor sampleWorld := by
  refine ⟨rfl, rfl, rfl, fun key _ => ⟨fun h => ?_, fun h => ?_⟩⟩
  · exact absurd h (Sql.Table.not_mem_empty _)
  · exact absurd h (Finset.notMem_empty key)

/-- Two deliveries of one event, and a publish that raises: the set comes to it as well. -/
theorem stores_alike_sample : ∃ rs tr,
    Reaches inMemory sampleProcessor [handleNormalizedTradeEvent (.ok sampleEvent),
      handleNormalizedTradeEvent (.ok sampleEvent)] rs tr ∧ tr.length = 7 := by
  let run : List (Input (engine Unit)) :=
    [.begin (handleNormalizedTradeEvent (.ok sampleEvent)),
      .begin (handleNormalizedTradeEvent (.ok sampleEvent)), .turn 0 .works, .turn 1 .works,
      .turn 0 .works, .turn 0 .works, .turn 1 .works, .turn 1 .works, .turn 0 .works,
      .turn 0 (.after ⟨"TimeoutError"⟩), .turn 0 .works]
  have hout : ((Pool.init sampleWorld).run? run).map (fun q => q.trace.length) = some 7 := by
    decide +kernel
  obtain ⟨q, hq, hlength⟩ := Option.map_eq_some_iff.1 hout
  have hreaches : Reaches (engine Unit) sampleWorld (begun run) q.running q.trace :=
    ⟨run, q, hq, rfl, rfl, rfl⟩
  exact ⟨q.running, q.trace, ((stores_alike sample_sameKeys _ _ _).1.1 hreaches).1, hlength⟩

/-- **One hand-over per key**, for any number of handlers over one `InMemoryIdempotencyStore`. -/
theorem inMemory_hands_over_once {p : CopyEventProcessor} {xs : List (Input inMemory)}
    {q : Pool inMemory} (hx : ∀ b, Input.begin b ∈ xs → Handler b)
    (h : (Pool.init p).run? xs = some q) : (handedOver q.trace).Nodup := by
  have hstarted : Started ownership {} xs := fun b hb => (hx b hb).keeps_ownership
  obtain ⟨hexclusive, -⟩ := Pool.run_inv exclusive hstarted (Pool.init_ok (M := inMemory) p)
    (exclusive_init _) h
  exact hexclusive.once

end CopyTrade
