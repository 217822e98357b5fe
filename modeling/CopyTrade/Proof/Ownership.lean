import CopyTrade.Proof.Building
import CopyTrade.Spec.Idempotency

/-!
# Who may publish or release a key

Reservation, publishing and release of a key happen in different places and are
separated by the work on other keys, so the proof follows the keys an execution
*holds*: those it reserved and has not published, and the one whose publish just
raised. Its own calls and their answers alone say which these are (`ownership`).

* `trade_keeps_ownership`: the handler publishes only keys it holds, and releases only
  the key whose publish raised.
* `exclusive`: in any interleaving no two executions hold one key, every held key is
  reserved, and a key that was handed over is reserved and held by nobody, on any store.
* `handed_over_once`: hence one successful hand-over per key.
-/

namespace CopyTrade

open Async (Prog Protocol Entry Pool Input Invariant Started Machine Fault)

/-! ## The discipline -/

/-- The keys an execution holds. -/
structure Holding where
  owned : List String := []
  failed : Option String := none

def Holding.keys (l : Holding) : List String := l.failed.toList ++ l.owned

/-- Publish what you own, release what failed. -/
def ownership : Protocol CopyEngine Holding where
  allow l
    | .publishJson _ q => q.idempotencyKey ∈ l.owned
    | .release key => l.failed = some key
    | _ => True
  next l
    | .reserve key, .ok true => { l with owned := l.owned ++ [key] }
    | .publishJson _ q, .ok _ => { l with owned := l.owned.erase q.idempotencyKey }
    | .publishJson _ q, .error _ =>
      { owned := l.owned.erase q.idempotencyKey, failed := some q.idempotencyKey }
    | .release _, _ => { l with failed := none }
    | _, _ => l

/-- **The trade handler keeps the discipline.** While it reserves, it owns the keys of
the requests collected so far; while it publishes, those of the requests left. -/
theorem trade_keeps_ownership (validated : Except PyException NormalizedOrderEvent) :
    (handleNormalizedTradeEvent validated).Keeps ownership {} := by
  apply trade_keeps (I := fun _ _ l reqs => l.owned = reqs.map (·.idempotencyKey))
    (J := fun l reqs => l.owned = reqs.map (·.idempotencyKey))
  · intro event
    exact ⟨trivial, fun _ => rfl⟩
  · intro event rels l reqs r eventId q _ _ _ h
    refine ⟨trivial, ?_, h⟩
    simp only [ownership, h, List.map_append, List.map_cons, List.map_nil]
  · intro event rels l reqs h
    exact h
  · intro l q rest h
    have hmem : q.idempotencyKey ∈ l.owned := by rw [h]; exact List.mem_cons_self
    have hrest : l.owned.erase q.idempotencyKey = rest.map (·.idempotencyKey) := by
      rw [h, List.map_cons, List.erase_cons_head]
    exact ⟨trivial, hmem, fun _ => rfl, trivial, hrest⟩

/-- The result handler touches no key. -/
theorem result_keeps_ownership (validated : Except PyException CopyExecutionResult) :
    (handleCopyExecutionResultEvent validated).Keeps ownership {} :=
  result_keeps (fun _ => ⟨trivial, trivial⟩) validated

/-- The handlers the engine subscribes. -/
inductive Handler : Prog CopyEngine Unit → Prop
  | trade (validated) : Handler (handleNormalizedTradeEvent validated)
  | result (validated) : Handler (handleCopyExecutionResultEvent validated)

theorem Handler.keeps_ownership {q : Prog CopyEngine Unit} (h : Handler q) :
    q.Keeps ownership {} := by
  cases h with
  | trade v => exact trade_keeps_ownership v
  | result v => exact result_keeps_ownership v

/-! ## The invariant -/

/-- The keys execution `i` holds after a trace. -/
def holds (tr : List (Entry CopyEngine)) (i : ℕ) : List String := (ownership.at {} tr i).keys

/-- The key of an entry that is a publish which returned normally. -/
def handedOver? : Entry CopyEngine → Option String
  | ⟨_, .publishJson _ q, .ok _⟩ => some q.idempotencyKey
  | _ => none

/-- The keys whose publish returned normally, one for each such publish. -/
def handedOver (tr : List (Entry CopyEngine)) : List String := tr.filterMap handedOver?

variable {stored stored' : String → Prop}

/-- What the holdings are to the keys that the store has. -/
structure Exclusive (stored : String → Prop) (tr : List (Entry CopyEngine)) : Prop where
  nodup : ∀ i, (holds tr i).Nodup
  apart : ∀ i j k, k ∈ holds tr i → k ∈ holds tr j → i = j
  reserved : ∀ i, ∀ k ∈ holds tr i, stored k
  once : (handedOver tr).Nodup
  gone : ∀ k ∈ handedOver tr, stored k ∧ ∀ i, k ∉ holds tr i

/-- Before the first call nobody holds a key. -/
theorem exclusive_init (stored : String → Prop) : Exclusive stored [] :=
  ⟨fun _ => List.nodup_nil, fun _ _ _ hk => absurd hk List.not_mem_nil,
    fun _ _ hk => absurd hk List.not_mem_nil, List.nodup_nil,
    fun _ hk => absurd hk List.not_mem_nil⟩

theorem holds_other {tr : List (Entry CopyEngine)} {i j : ℕ} {c : Call} {r : CopyEngine.Reply c}
    (h : i ≠ j) : holds (⟨i, c, r⟩ :: tr) j = holds tr j := by
  unfold holds; rw [ownership.at_other tr h]

/-- A call after which its execution holds no new key, and which frees no key but one
its execution gave up. A key handed over by it is one given up. -/
theorem Exclusive.narrow {tr : List (Entry CopyEngine)} {i : ℕ} {c : Call}
    {r : CopyEngine.Reply c} (h : Exclusive stored tr) (hnodup : (holds (⟨i, c, r⟩ :: tr) i).Nodup)
    (hsub : ∀ k ∈ holds (⟨i, c, r⟩ :: tr) i, k ∈ holds tr i)
    (hres : ∀ k, stored k → (k ∈ holds tr i → k ∈ holds (⟨i, c, r⟩ :: tr) i) → stored' k)
    (hout : ∀ k, handedOver? ⟨i, c, r⟩ = some k →
      k ∈ holds tr i ∧ k ∉ holds (⟨i, c, r⟩ :: tr) i ∧ stored' k) :
    Exclusive stored' (⟨i, c, r⟩ :: tr) := by
  have hsub' : ∀ j, ∀ k ∈ holds (⟨i, c, r⟩ :: tr) j, k ∈ holds tr j := by
    intro j k hk
    by_cases hij : i = j
    · subst hij; exact hsub k hk
    · rwa [holds_other hij] at hk
  have hgone : ∀ k ∈ handedOver tr, stored' k ∧ ∀ j, k ∉ holds (⟨i, c, r⟩ :: tr) j := by
    intro k hk
    obtain ⟨h1, h2⟩ := h.gone k hk
    exact ⟨hres k h1 fun hi => absurd hi (h2 i), fun j hj => h2 j (hsub' j k hj)⟩
  refine ⟨fun j => ?_, fun j₁ j₂ k h1 h2 => h.apart j₁ j₂ k (hsub' _ k h1) (hsub' _ k h2),
    fun j k hk => ?_, ?_, ?_⟩
  · by_cases hij : i = j
    · subst hij; exact hnodup
    · rw [holds_other hij]; exact h.nodup j
  · refine hres k (h.reserved j k (hsub' j k hk)) fun hi => ?_
    have hij := h.apart i j k hi (hsub' j k hk)
    subst hij; exact hk
  · cases ho : handedOver? ⟨i, c, r⟩ with
    | none => unfold handedOver; rw [List.filterMap_cons_none ho]; exact h.once
    | some k =>
      unfold handedOver
      rw [List.filterMap_cons_some ho]
      exact List.nodup_cons.2 ⟨fun hk => (h.gone k hk).2 i (hout k ho).1, h.once⟩
  · intro k hk
    cases ho : handedOver? ⟨i, c, r⟩ with
    | none => unfold handedOver at hk; rw [List.filterMap_cons_none ho] at hk; exact hgone k hk
    | some k' =>
      unfold handedOver at hk
      rw [List.filterMap_cons_some ho] at hk
      rcases List.mem_cons.1 hk with rfl | hk
      · obtain ⟨h1, h2, h3⟩ := hout k ho
        refine ⟨h3, fun j hj => ?_⟩
        have hij := h.apart i j k h1 (hsub' j k hj)
        subst hij; exact h2 hj
      · exact hgone k hk

/-- A call that changes no holding and frees no key. -/
theorem Exclusive.idle {tr : List (Entry CopyEngine)} {i : ℕ} {c : Call}
    {r : CopyEngine.Reply c} (h : Exclusive stored tr)
    (hnext : ownership.next (ownership.at {} tr i) c r = ownership.at {} tr i)
    (hout : handedOver? ⟨i, c, r⟩ = none) (hres : ∀ k, stored k → stored' k) :
    Exclusive stored' (⟨i, c, r⟩ :: tr) := by
  have hi : holds (⟨i, c, r⟩ :: tr) i = holds tr i := by
    unfold holds; rw [ownership.at_self, hnext]
  refine h.narrow (hi ▸ h.nodup i) (fun k hk => hi ▸ hk) (fun k hk _ => hres k hk) fun k hk => ?_
  rw [hout] at hk; cases hk

/-- A successful reservation of a key that was free. -/
theorem Exclusive.take {tr : List (Entry CopyEngine)} {i : ℕ} {key : String}
    (h : Exclusive stored tr) (hfree : ¬ stored key)
    (hres : ∀ k, stored' k ↔ stored k ∨ k = key) :
    Exclusive stored' (⟨i, .reserve key, .ok true⟩ :: tr) := by
  have hi : holds (⟨i, .reserve key, .ok true⟩ :: tr) i = holds tr i ++ [key] := by
    unfold holds; rw [ownership.at_self]; simp [ownership, Holding.keys]
  have hmem : ∀ j k, k ∈ holds (⟨i, .reserve key, .ok true⟩ :: tr) j →
      k ∈ holds tr j ∨ (k = key ∧ j = i) := by
    intro j k hk
    by_cases hij : i = j
    · subst hij
      rw [hi, List.mem_append, List.mem_singleton] at hk
      exact hk.imp_right fun h => ⟨h, rfl⟩
    · rw [holds_other hij] at hk; exact Or.inl hk
  refine ⟨fun j => ?_, fun j₁ j₂ k h1 h2 => ?_, fun j k hk => ?_, h.once, fun k hk => ?_⟩
  · by_cases hij : i = j
    · subst hij
      rw [hi]
      refine (h.nodup i).append (List.nodup_singleton _) (List.disjoint_singleton.2 fun hk => ?_)
      exact hfree (h.reserved i key hk)
    · rw [holds_other hij]; exact h.nodup j
  · rcases hmem _ _ h1 with h1' | ⟨hk, hj₁⟩ <;> rcases hmem _ _ h2 with h2' | ⟨hk', hj₂⟩
    · exact h.apart _ _ k h1' h2'
    · exact absurd (h.reserved _ _ h1') (hk' ▸ hfree)
    · exact absurd (h.reserved _ _ h2') (hk ▸ hfree)
    · rw [hj₁, hj₂]
  · rcases hmem _ _ hk with hk | ⟨rfl, -⟩
    · exact (hres k).2 (Or.inl (h.reserved j k hk))
    · exact (hres k).2 (Or.inr rfl)
  · obtain ⟨h1, h2⟩ := h.gone k hk
    refine ⟨(hres k).2 (Or.inl h1), fun j hj => ?_⟩
    rcases hmem _ _ hj with hj | ⟨rfl, -⟩
    · exact h2 j hj
    · exact hfree h1

/-- A publish, whatever it answers: the key is no longer owned. -/
theorem Exclusive.publish {tr : List (Entry CopyEngine)} {i : ℕ}
    {subject : String} {q : CopyExecutionRequest} {r : CopyEngine.Reply (.publishJson subject q)}
    (h : Exclusive stored tr) (hq : q.idempotencyKey ∈ (ownership.at {} tr i).owned)
    (hres : ∀ k, stored k → stored' k) :
    Exclusive stored' (⟨i, .publishJson subject q, r⟩ :: tr) := by
  have hmem : q.idempotencyKey ∈ holds tr i := List.mem_append_right _ hq
  have hnd : ((ownership.at {} tr i).owned).Nodup := (h.nodup i).of_append_right
  have herase : ∀ k, k ∈ ((ownership.at {} tr i).owned.erase q.idempotencyKey) ↔
      k ≠ q.idempotencyKey ∧ k ∈ (ownership.at {} tr i).owned := fun k => hnd.mem_erase_iff
  cases r with
  | ok u =>
    have hi : holds (⟨i, .publishJson subject q, .ok u⟩ :: tr) i =
        (ownership.at {} tr i).failed.toList ++
          (ownership.at {} tr i).owned.erase q.idempotencyKey := by
      unfold holds; rw [ownership.at_self]; rfl
    have hsub : List.Sublist (holds (⟨i, .publishJson subject q, .ok u⟩ :: tr) i) (holds tr i) := by
      rw [hi]; exact (List.Sublist.refl _).append List.erase_sublist
    refine h.narrow ((h.nodup i).sublist hsub) (fun k hk => hsub.subset hk)
      (fun k hk _ => hres k hk) fun k hk => ?_
    cases hk
    refine ⟨hmem, fun hk => ?_, hres _ (h.reserved i _ hmem)⟩
    rw [hi, List.mem_append, herase] at hk
    -- the key is not the one that failed before: what an execution holds has no repetition
    rcases hk with hk | hk
    · exact List.disjoint_of_nodup_append (h.nodup i) hk hq
    · exact hk.1 rfl
  | error e =>
    have hi : holds (⟨i, .publishJson subject q, .error e⟩ :: tr) i =
        q.idempotencyKey :: (ownership.at {} tr i).owned.erase q.idempotencyKey := by
      unfold holds; rw [ownership.at_self]; rfl
    refine h.narrow ?_ (fun k hk => ?_) (fun k hk _ => hres k hk) fun k hk => by cases hk
    · rw [hi]
      exact List.nodup_cons.2 ⟨fun hk => ((herase _).1 hk).1 rfl, hnd.erase _⟩
    · rw [hi] at hk
      rcases List.mem_cons.1 hk with rfl | hk
      · exact hmem
      · exact List.mem_append_right _ ((herase k).1 hk).2

/-- A release, whatever it answers: the key whose publish raised is no longer held. -/
theorem Exclusive.giveUp {tr : List (Entry CopyEngine)} {i : ℕ} {key : String}
    {r : CopyEngine.Reply (.release key)} (h : Exclusive stored tr)
    (hkey : (ownership.at {} tr i).failed = some key)
    (hres : ∀ k, stored k → k ≠ key → stored' k) :
    Exclusive stored' (⟨i, .release key, r⟩ :: tr) := by
  have hi : holds (⟨i, .release key, r⟩ :: tr) i = (ownership.at {} tr i).owned := by
    unfold holds; rw [ownership.at_self]; rfl
  have hold : holds tr i = key :: (ownership.at {} tr i).owned := by
    unfold holds Holding.keys; rw [hkey]; rfl
  have hnd := h.nodup i
  rw [hold] at hnd
  refine h.narrow (hi ▸ (List.nodup_cons.1 hnd).2)
    (fun k hk => by rw [hold]; rw [hi] at hk; exact List.mem_cons_of_mem _ hk)
    (fun k hk hkeep => hres k hk fun he => ?_) fun k hk => by cases hk
  subst he
  rw [hi, hold] at hkeep
  exact (List.nodup_cons.1 hnd).1 (hkeep List.mem_cons_self)

open IdempotencyStore (Reserved)

/-- **Every call the discipline allows keeps the invariant.** -/
theorem exclusive {M : Machine CopyEngine} [IdempotencyStore M] :
    Invariant M ownership {} fun s tr => Exclusive (Reserved s) tr := by
  have same : ∀ {s s' : M.State} {tr}, (∀ k, Reserved s' k ↔ Reserved s k) →
      Exclusive (Reserved s) tr → Exclusive (Reserved s') tr := by
    intro s s' tr hres h
    exact ⟨h.nodup, h.apart, fun i k hk => (hres k).2 (h.reserved i k hk), h.once,
      fun k hk => ⟨(hres k).2 (h.gone k hk).1, (h.gone k hk).2⟩⟩
  refine ⟨fun s tr h => same (IdempotencyStore.draw s).1 h,
    fun s tr m s' h hm => same (IdempotencyStore.move m s s' hm) h, fun s tr i c f r s' h ha hs => ?_⟩
  -- what is neither reserved nor released is as it was
  have still : (∀ key, c ≠ .release key) → ∀ k, Reserved s k → Reserved s' k := fun hc k hk =>
    IdempotencyStore.keeps hs hk fun key he => absurd he (hc key)
  cases c with
  | reserve key =>
    rcases Machine.serve_cases hs with ⟨e, -, rfl, rfl⟩ | ⟨a, he, hr⟩
    · exact h.idle rfl rfl fun _ hk => hk
    rcases IdempotencyStore.reserve he with ⟨rfl, -, rfl⟩ | ⟨rfl, hfree, hres, -⟩
    · rcases hr with ⟨-, rfl⟩ | ⟨e, -, rfl⟩
      · exact h.idle rfl rfl fun _ hk => hk
      · exact h.idle rfl rfl fun _ hk => hk
    · rcases hr with ⟨-, rfl⟩ | ⟨e, -, rfl⟩
      · exact h.take hfree hres
      · exact h.idle rfl rfl fun k hk => (hres k).2 (Or.inl hk)
  | release key =>
    exact h.giveUp ha fun k hk hne => IdempotencyStore.keeps hs hk fun _ he => by cases he; exact hne
  | publishJson subject q => exact h.publish ha (still fun _ he => by cases he)
  | listActiveForEvent event => exact h.idle rfl rfl (still fun _ he => by cases he)
  | record q => exact h.idle rfl rfl (still fun _ he => by cases he)
  | markPublished q => exact h.idle rfl rfl (still fun _ he => by cases he)
  | insertResult q => exact h.idle rfl rfl (still fun _ he => by cases he)
  | updateRequestFromResult id st => exact h.idle rfl rfl (still fun _ he => by cases he)

/-! ## Where a holding comes from -/

/-- A key an execution owns was reserved by its own call. -/
theorem owned_source {tr : List (Entry CopyEngine)} {i : ℕ} {k : String}
    (h : k ∈ (ownership.at {} tr i).owned) : ⟨i, .reserve k, .ok true⟩ ∈ tr := by
  induction tr with
  | nil => cases h
  | cons e tr ih =>
    by_cases hi : e.who = i
    swap
    · rw [ownership.at_other tr hi] at h; exact List.mem_cons_of_mem _ (ih h)
    subst hi
    obtain ⟨i, c, r⟩ := e
    rw [ownership.at_self] at h
    -- only a reservation that answered `True` adds a key
    cases c with
    | reserve key =>
      rcases r with e | _ | _
      · exact List.mem_cons_of_mem _ (ih h)
      · exact List.mem_cons_of_mem _ (ih h)
      · rcases List.mem_append.1 h with h | h
        · exact List.mem_cons_of_mem _ (ih h)
        · cases List.mem_singleton.1 h; exact List.mem_cons_self
    | publishJson subject q =>
      cases r <;> exact List.mem_cons_of_mem _ (ih (List.mem_of_mem_erase h))
    | release key => exact List.mem_cons_of_mem _ (ih h)
    | listActiveForEvent event => exact List.mem_cons_of_mem _ (ih h)
    | record q => exact List.mem_cons_of_mem _ (ih h)
    | markPublished q => exact List.mem_cons_of_mem _ (ih h)
    | insertResult q => exact List.mem_cons_of_mem _ (ih h)
    | updateRequestFromResult id st => exact List.mem_cons_of_mem _ (ih h)

/-- The key an execution may release was reserved by its own call, and after that its
own publish of it raised. -/
theorem failed_source {tr : List (Entry CopyEngine)} {i : ℕ} {k : String}
    (hal : ownership.Allowed {} tr) (h : (ownership.at {} tr i).failed = some k) :
    ∃ s q e, q.idempotencyKey = k ∧
      List.Sublist [⟨i, .publishJson s q, .error e⟩, ⟨i, .reserve k, .ok true⟩] tr := by
  induction tr with
  | nil => cases h
  | cons e tr ih =>
    have older : (ownership.at {} tr i).failed = some k → ∃ s q e', q.idempotencyKey = k ∧
        List.Sublist [⟨i, .publishJson s q, .error e'⟩, ⟨i, .reserve k, .ok true⟩] (e :: tr) := by
      intro h
      obtain ⟨s, q, e', hq, hsub⟩ := ih hal.2 h
      exact ⟨s, q, e', hq, hsub.cons e⟩
    by_cases hi : e.who = i
    swap
    · rw [ownership.at_other tr hi] at h; exact older h
    subst hi
    obtain ⟨i, c, r⟩ := e
    rw [ownership.at_self] at h
    cases c with
    | reserve key => rcases r with e | _ | _ <;> exact older h
    | publishJson subject q =>
      rcases r with e | _
      · cases h
        exact ⟨subject, q, e, rfl, (List.singleton_sublist.2 (owned_source hal.1)).cons_cons _⟩
      · exact older h
    | release key => cases h
    | listActiveForEvent event => exact older h
    | record q => exact older h
    | markPublished q => exact older h
    | insertResult q => exact older h
    | updateRequestFromResult id st => exact older h

/-! ## One hand-over per key -/

variable {B : Type} [Ledger B]

/-- **At most one successful hand-over per copy**, for any number of executions of the
engine's handlers over one idempotency store, interleaved in any way, any call of which
may raise and any of which may stop: a key is handed over at most once; a key is released
only by the execution whose own reservation took it and whose own publish of it then
raised; and a key handed over is reserved in every later state. -/
theorem handed_over_once {w : World B} {xs ys : List (Input (engine B))} {p p' : Pool (engine B)}
    (hx : ∀ q, Input.begin q ∈ xs ++ ys → Handler q) (h : (Pool.init w).run? xs = some p)
    (h' : p.run? ys = some p') :
    (∀ key, (handedOver p.trace).count key ≤ 1) ∧
      (∀ newer i key r older, p.trace = newer ++ ⟨i, .release key, r⟩ :: older →
        ∃ s q e, q.idempotencyKey = key ∧
          List.Sublist [⟨i, .publishJson s q, .error e⟩, ⟨i, .reserve key, .ok true⟩] older) ∧
      ∀ key ∈ handedOver p.trace, p'.state.Reserved key := by
  have hkeep : Started ownership {} (xs ++ ys) := fun q hq => (hx q hq).keeps_ownership
  have hkeep₁ : Started ownership {} xs := fun q hq => hkeep q (List.mem_append_left _ hq)
  have hrun : (Pool.init w).run? (xs ++ ys) = some p' := by rw [Pool.run_append, h]; exact h'
  obtain ⟨h₁, -⟩ := Pool.run_inv exclusive hkeep₁ (Pool.init_ok (M := engine B) w)
    (exclusive_init _) h
  obtain ⟨h₂, -⟩ := Pool.run_inv exclusive hkeep (Pool.init_ok (M := engine B) w)
    (exclusive_init _) hrun
  refine ⟨List.nodup_iff_count_le_one.1 h₁.once, fun newer i key r older ht => ?_, fun key hk => ?_⟩
  · have hal : ownership.Allowed {} (newer ++ ⟨i, .release key, r⟩ :: older) := by
      rw [← ht]; exact Pool.run_allowed hkeep₁ h
    obtain ⟨hfailed, holder⟩ := hal.of_append
    exact failed_source holder hfailed
  · have hsub : handedOver p.trace ⊆ handedOver p'.trace := fun k hk => by
      obtain ⟨e, he, hek⟩ := List.mem_filterMap.1 hk
      exact List.mem_filterMap.2 ⟨e, (Pool.run_trace h').subset he, hek⟩
    exact (h₂.gone key (hsub hk)).1

/-- Two workers handle one event at once: the first publish raises and its key is released,
the second worker reserves the key anew and publishes. -/
theorem handed_over_once_two_workers :
    let run : List (Input (engine Unit)) :=
      [.begin (handleNormalizedTradeEvent (.ok sampleEvent)),
        .begin (handleNormalizedTradeEvent (.ok sampleEvent)), .turn 0 .works, .turn 1 .works,
        .turn 0 .works, .turn 0 .works, .turn 0 .works, .turn 0 (.before ⟨"TimeoutError"⟩),
        .turn 0 .works, .turn 1 .works, .turn 1 .works, .turn 1 .works, .turn 1 .works]
    let key := keyOf sampleEvent sampleRelationship
    ∃ p, (Pool.init (World.start [sampleRelationship] ())).run? run = some p ∧
      handedOver p.trace = [key] ∧ (handedOver p.trace).count key ≤ 1 ∧ p.state.Reserved key := by
  intro run key
  have hout : ((Pool.init (World.start [sampleRelationship] ())).run? run).map
      (fun p => handedOver p.trace) = some [key] := by decide
  obtain ⟨p, hp, hkey⟩ := Option.map_eq_some_iff.1 hout
  have hx : ∀ q, Input.begin q ∈ run ++ [] → Handler q := by
    intro q hq
    simp only [run, List.append_nil, List.mem_cons, Input.begin.injEq, reduceCtorEq, or_false,
      List.not_mem_nil, or_self] at hq
    subst hq
    exact .trade _
  obtain ⟨h1, -, h3⟩ := handed_over_once hx hp rfl
  exact ⟨p, hp, hkey, h1 key, h3 key (hkey ▸ List.mem_singleton_self _)⟩

end CopyTrade
