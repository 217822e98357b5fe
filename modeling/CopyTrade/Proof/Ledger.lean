import CopyTrade.Proof.Results

/-!
# Published requests in the ledger

A retry builds its request anew, with a new id, while the ledger keeps the row of the
first attempt under the same key; and a row leaves `REQUESTED` only by the call after the
publish.

* `recording`: the handler publishes what it recorded and marks what it published.
* `findable_step`: what one step does to published requests, if it neither publishes
  under a row of an earlier attempt nor loses a mark.
* `published_requests_findable`: so in every run of such steps every published request is
  in the ledger, and marked when its event is delivered again.
-/

namespace CopyTrade

open Async (Prog Protocol Entry Pool Input Started Machine Fault)

/-! ## The discipline -/

/-- What an execution has recorded, and what it published without having called
`mark_published` for it. -/
structure Recording where
  recorded : List CopyExecutionRequest := []
  unmarked : Option CopyExecutionRequest := none

/-- Publish what you recorded, then mark it. -/
def recording : Protocol CopyEngine Recording where
  allow l
    | .publishJson _ q => q ∈ l.recorded ∧ l.unmarked = none
    | .markPublished q => l.unmarked = some q
    | _ => True
  next l
    | .record q, .ok _ => { l with recorded := q :: l.recorded }
    | .publishJson _ q, .ok _ => { l with unmarked := some q }
    | .markPublished _, _ => { l with unmarked := none }
    | _, _ => l

theorem Handler.keeps_recording {q : Prog CopyEngine Unit} (h : Handler q) : q.Keeps recording {} := by
  cases h with
  | trade v =>
    apply trade_keeps (I := fun _ _ l _ => l.unmarked = none) (J := fun l _ => l.unmarked = none)
    · intro event
      exact ⟨trivial, fun _ => rfl⟩
    · intro event rels l reqs r eventId q _ _ _ h
      exact ⟨trivial, h, h⟩
    · intro event rels l reqs h
      exact h
    · intro l q rest h
      exact ⟨trivial, ⟨List.mem_cons_self, h⟩, fun _ => trivial, rfl, rfl⟩
  | result v => exact result_keeps (fun _ => ⟨trivial, trivial⟩) v

/-! ## What statements leave alone -/

/-- A request that is past `REQUESTED`. -/
def Marked (b : Postgres) (id : UUID) : Prop :=
  ∃ status, b.statusOf id = some status ∧ status ≠ .requested

/-- No statement takes a request back to `REQUESTED`. -/
theorem marked_step {c : Call} {b b' : Postgres} {id : UUID} (h : ledgerStep c b = some b')
    (hm : Marked b id) : Marked b' id := by
  obtain ⟨status, hs, hne⟩ := hm
  rcases statusOf_step h id with he | ⟨hnone, -⟩ | ⟨hreq, -⟩ | ⟨st, -, -, he⟩
  · exact ⟨status, he.trans hs, hne⟩
  · rw [hs] at hnone; cases hnone
  · rw [hs] at hreq; exact absurd (Option.some.inj hreq) hne
  · exact ⟨st.toRequestStatus, he, by cases st <;> decide⟩

/-- A row under this key. -/
def HasKey (b : Postgres) (key : String) : Prop := ∃ r ∈ b.requests, r.idempotencyKey = key

theorem hasKey_step {c : Call} {b b' : Postgres} {key : String} (h : ledgerStep c b = some b')
    (hk : HasKey b key) : HasKey b' key := by
  obtain ⟨r, hr, hkey⟩ := hk
  have updated : ∀ {p status}, b.setStatus p status = some b' → HasKey b' key := by
    intro p status hset
    obtain ⟨b₁, h₁, -, hrows⟩ := Postgres.setStatus_rows p status b
    cases h₁.symm.trans hset
    refine ⟨if p r then { r with requestStatus := status } else r, ?_, ?_⟩
    · rw [Sql.Table.mem_def, hrows]; exact List.mem_map.2 ⟨r, hr, rfl⟩
    · split <;> exact hkey
  cases c with
  | record q =>
    rcases (Postgres.record_cases h).2 with ⟨-, he⟩ | ⟨-, row, -, he⟩
    · exact ⟨r, by rw [he]; exact hr, hkey⟩
    · exact ⟨r, by rw [Sql.Table.mem_def, he]; exact List.mem_append_left _ hr, hkey⟩
  | markPublished q => exact updated h
  | insertResult res => exact ⟨r, by rw [(Postgres.insertResult_cases h).1]; exact hr, hkey⟩
  | updateRequestFromResult rid st => exact updated h
  | _ => cases h; exact ⟨r, hr, hkey⟩

/-- After a record that answered there is a row under the request's key. -/
theorem hasKey_record {q : CopyExecutionRequest} {b b' : Postgres} (h : b.record q = some b') :
    HasKey b' q.idempotencyKey := by
  rcases (Postgres.record_cases h).2 with ⟨⟨r, hr, hk⟩, he⟩ | ⟨-, row, hrow, he⟩
  · exact ⟨r, by rw [he]; exact hr, hk⟩
  · refine ⟨row, ?_, hrow.idempotencyKey⟩
    rw [Sql.Table.mem_def, he]; exact List.mem_append_right _ List.mem_cons_self

/-! ## Published requests -/

/-- A publish of the request returned normally. -/
def Published (tr : List (Entry CopyEngine)) (q : CopyExecutionRequest) : Prop :=
  ∃ i s u, ⟨i, .publishJson s q, .ok u⟩ ∈ tr

/-- What the ledger holds for what was recorded and published. -/
structure Findable (w : World Postgres) (tr : List (Entry CopyEngine)) : Prop where
  keyed : ∀ i, ∀ q ∈ (recording.at {} tr i).recorded, HasKey w.ledger q.idempotencyKey
  found : ∀ i s q u, ⟨i, .publishJson s q, .ok u⟩ ∈ tr → ∃ status, w.ledger.statusOf q.eventId = some status
  marked : ∀ i s q u, ⟨i, .publishJson s q, .ok u⟩ ∈ tr →
    (recording.at {} tr i).unmarked = some q ∨ Marked w.ledger q.eventId

/-- This input does not publish a request under the ledger row of an earlier attempt, does
not lose a mark, and does not deliver an event again while a published copy of it still
waits for its mark. -/
def KeepsFindable (p : Pool (engine Postgres)) : Input (engine Postgres) → Prop
  | .turn i f => ∀ c k, p.running[i]? = some (.await c k) →
    match c with
    | .publishJson _ q => f = .works → ∀ row ∈ p.state.ledger.requests,
        row.idempotencyKey = q.idempotencyKey → row.id = q.eventId
    | .markPublished _ => f.Lands
    | _ => True
  | .begin g => ∀ event, g = handleNormalizedTradeEvent (.ok event) →
    ∀ i q, (recording.at {} p.trace i).unmarked = some q → q.sourceEventId ≠ event.eventId
  | .move _ => True

theorem statusOf_of_row {b : Postgres} {row : RequestRow} (h : row ∈ b.requests) :
    b.statusOf row.id = some row.requestStatus :=
  Postgres.statusOf_eq_some.2 ⟨row, h, rfl, rfl⟩

/-- What holds of published requests survives any statement. -/
theorem Findable.ledger {w w' : World Postgres} {tr : List (Entry CopyEngine)} (h : Findable w tr)
    (hstep : w'.ledger = w.ledger ∨ ∃ c, ledgerStep c w.ledger = some w'.ledger) :
    Findable w' tr := by
  rcases hstep with he | ⟨c, hc⟩
  · refine ⟨?_, ?_, ?_⟩
    · rw [he]; exact h.keyed
    · rw [he]; exact h.found
    · rw [he]; exact h.marked
  · refine ⟨fun i q hq => hasKey_step hc (h.keyed i q hq), fun i s q u hm => ?_,
      fun i s q u hm => (h.marked i s q u hm).imp_right (marked_step hc)⟩
    obtain ⟨st, hst⟩ := h.found i s q u hm
    exact rowsStay_step hc _ st hst

/-- A further entry that neither publishes nor marks. -/
theorem Findable.idle {w : World Postgres} {tr : List (Entry CopyEngine)} {i : ℕ} {c : Call}
    {r : CopyEngine.Reply c} (h : Findable w tr)
    (hrec : ∀ q ∈ (recording.next (recording.at {} tr i) c r).recorded, HasKey w.ledger q.idempotencyKey)
    (hun : (recording.next (recording.at {} tr i) c r).unmarked = (recording.at {} tr i).unmarked)
    (hpub : ∀ s q u, (⟨i, c, r⟩ : Entry CopyEngine) ≠ ⟨i, .publishJson s q, .ok u⟩) :
    Findable w (⟨i, c, r⟩ :: tr) := by
  have older : ∀ {j s q u}, ⟨j, .publishJson s q, .ok u⟩ ∈ (⟨i, c, r⟩ :: tr : List (Entry CopyEngine)) →
      ⟨j, .publishJson s q, .ok u⟩ ∈ tr := by
    intro j s q u hm
    rcases List.mem_cons.1 hm with he | hm
    · have hij : j = i := congrArg Entry.who he
      subst hij; exact absurd he.symm (hpub s q u)
    · exact hm
  have hunmarked : ∀ j, (recording.at {} (⟨i, c, r⟩ :: tr) j).unmarked = (recording.at {} tr j).unmarked := by
    intro j
    by_cases hij : i = j
    · subst hij; rw [recording.at_self]; exact hun
    · rw [recording.at_other tr hij]
  refine ⟨fun j q hq => ?_, fun j s q u hm => h.found j s q u (older hm), fun j s q u hm => ?_⟩
  · by_cases hij : i = j
    · subst hij; rw [recording.at_self] at hq; exact hrec q hq
    · rw [recording.at_other tr hij] at hq; exact h.keyed j q hq
  · rw [hunmarked]; exact h.marked j s q u (older hm)

/-- A publish that answered, under its own ledger row. -/
theorem Findable.publish {w : World Postgres} {tr : List (Entry CopyEngine)} {i : ℕ} {s : String}
    {q : CopyExecutionRequest} {u : Unit} (h : Findable w tr)
    (hallow : q ∈ (recording.at {} tr i).recorded ∧ (recording.at {} tr i).unmarked = none)
    (hown : ∀ row ∈ w.ledger.requests, row.idempotencyKey = q.idempotencyKey → row.id = q.eventId) :
    Findable w (⟨i, .publishJson s q, .ok u⟩ :: tr) := by
  obtain ⟨row, hrow, hkey⟩ := h.keyed i q hallow.1
  have hst : w.ledger.statusOf q.eventId = some row.requestStatus :=
    hown row hrow hkey ▸ statusOf_of_row hrow
  refine ⟨fun j q' hq' => ?_, fun j s' q' u' hm => ?_, fun j s' q' u' hm => ?_⟩
  · by_cases hij : i = j
    · subst hij; rw [recording.at_self] at hq'; exact h.keyed i q' hq'
    · rw [recording.at_other tr hij] at hq'; exact h.keyed j q' hq'
  · rcases List.mem_cons.1 hm with he | hm
    · cases he; exact ⟨_, hst⟩
    · exact h.found j s' q' u' hm
  · rcases List.mem_cons.1 hm with he | hm
    · cases he
      exact Or.inl (by rw [recording.at_self]; rfl)
    · -- the same execution has marked what it published before
      by_cases hij : i = j
      · subst hij
        refine Or.inr ((h.marked i s' q' u' hm).resolve_left fun hun => ?_)
        rw [hallow.2] at hun; cases hun
      · rw [recording.at_other tr hij]; exact h.marked j s' q' u' hm

/-- A mark that took effect. -/
theorem Findable.mark {w w' : World Postgres} {tr : List (Entry CopyEngine)} {i : ℕ}
    {q : CopyExecutionRequest} {r : CopyEngine.Reply (.markPublished q)} (h : Findable w tr)
    (hallow : (recording.at {} tr i).unmarked = some q)
    (hstep : ledgerStep (.markPublished q) w.ledger = some w'.ledger) :
    Findable w' (⟨i, .markPublished q, r⟩ :: tr) := by
  have h' := h.ledger (Or.inr ⟨_, hstep⟩)
  have older : ∀ {j s q' u}, ⟨j, .publishJson s q', .ok u⟩ ∈
      (⟨i, .markPublished q, r⟩ :: tr : List (Entry CopyEngine)) → ⟨j, .publishJson s q', .ok u⟩ ∈ tr := by
    intro j s q' u hm
    rcases List.mem_cons.1 hm with he | hm
    · cases he
    · exact hm
  refine ⟨fun j q' hq' => ?_, fun j s q' u hm => h'.found j s q' u (older hm), fun j s q' u hm => ?_⟩
  · by_cases hij : i = j
    · subst hij; rw [recording.at_self] at hq'; exact h'.keyed i q' hq'
    · rw [recording.at_other tr hij] at hq'; exact h'.keyed j q' hq'
  · by_cases hij : i = j
    swap
    · rw [recording.at_other tr hij]; exact h'.marked j s q' u (older hm)
    subst hij
    refine Or.inr ((h'.marked i s q' u (older hm)).elim (fun hun => ?_) id)
    rw [hallow] at hun; cases hun
    -- its row was found, so the update took it out of `REQUESTED`
    obtain ⟨st, hst⟩ := h.found i s q u (older hm)
    obtain ⟨b₁, h₁, -, hafter⟩ := Postgres.statusOf_markPublished q w.ledger
    cases h₁.symm.trans hstep
    unfold Marked
    rw [hafter, hst]
    by_cases hreq : st = .requested
    · subst hreq; exact ⟨.published, by simp, by decide⟩
    · exact ⟨st, by simp [hreq], hreq⟩

/-- **One step** of a run keeps what the ledger holds for published requests. -/
theorem findable_step {p p' : Pool (engine Postgres)} {x : Input (engine Postgres)}
    (hp : p.OK recording {}) (hf : Findable p.state p.trace) (hc : KeepsFindable p x)
    (h : p.step? x = some p') : Findable p'.state p'.trace := by
  rcases Pool.step_cases h with ⟨g, rfl, rfl⟩ | ⟨i, f, k, rfl, hi, rfl⟩ |
    ⟨i, f, c, k, r, s, rfl, hi, hs, rfl⟩ | ⟨m, s, rfl, hm, rfl⟩
  · exact hf
  · exact hf.ledger (Or.inl rfl)
  swap
  · exact hf.ledger (Or.inl (ledger_move hm))
  have hallow := (hp.keeps i _ hi).1
  have hcond := hc c k hi
  have hf' : Findable s p.trace := hf.ledger ((ledger_serve hs).elim (fun h => Or.inr ⟨c, h.2⟩)
    fun h => Or.inl (by rw [h.2]))
  cases c with
  | record q =>
    refine hf'.idle (fun q' hq' => ?_) ?_ (fun _ _ _ he => by cases he)
    · cases r with
      | error e => exact hf'.keyed i q' hq'
      | ok u =>
        rcases List.mem_cons.1 hq' with rfl | hq'
        · obtain ⟨-, heff⟩ := Machine.serve_ok hs
          obtain ⟨l, hl, he⟩ := Option.map_eq_some_iff.1 heff
          cases he; exact hasKey_record hl
        · exact hf'.keyed i q' hq'
    · cases r <;> rfl
  | publishJson subject q =>
    cases r with
    | error e => exact hf'.idle (hf'.keyed i) rfl fun _ _ _ he => by cases he
    | ok u =>
      obtain ⟨rfl, heff⟩ := Machine.serve_ok hs
      cases heff
      exact hf'.publish hallow (hcond rfl)
  | markPublished q =>
    rcases ledger_serve hs with ⟨-, hstep⟩ | ⟨hl, -⟩
    · exact hf.mark hallow hstep
    · exact absurd hcond hl
  | insertResult _ | updateRequestFromResult _ _ | listActiveForEvent _ | reserve _ | release _ =>
    exact hf'.idle (hf'.keyed i) rfl fun _ _ _ he => by cases he

/-- **Every published request is findable in the ledger**, in every state of a run whose
steps keep it so: there is a row under its id, and from the next delivery of its event on
that row is past `REQUESTED`. -/
theorem published_requests_findable {w : World Postgres} {xs : List (Input (engine Postgres))}
    {p : Pool (engine Postgres)} (hx : ∀ q, Input.begin q ∈ xs → Handler q)
    (hal : (Pool.init w).Along KeepsFindable xs) (h : (Pool.init w).run? xs = some p) :
    (∀ q, Published p.trace q → ∃ row ∈ p.state.ledger.requests, row.id = q.eventId) ∧
      ∀ ys event zs p₁, xs = ys ++ .begin (handleNormalizedTradeEvent (.ok event)) :: zs →
        (Pool.init w).run? ys = some p₁ →
        ∀ q, Published p₁.trace q → q.sourceEventId = event.eventId →
          ∃ row ∈ p.state.ledger.requests, row.id = q.eventId ∧ row.requestStatus ≠ .requested := by
  have hstart : Findable (Pool.init (M := engine Postgres) w).state [] := by
    refine ⟨fun i q hq => ?_, fun i s q u hm => ?_, fun i s q u hm => ?_⟩
    · cases hq
    · cases hm
    · cases hm
  have main : ∀ {xs : List (Input (engine Postgres))} {p : Pool (engine Postgres)},
      (∀ q, Input.begin q ∈ xs → Handler q) → (Pool.init w).Along KeepsFindable xs →
      (Pool.init w).run? xs = some p → Findable p.state p.trace := by
    intro xs p hx hal h
    have hok : ∀ x ∈ xs, ∀ q : Prog CopyEngine Unit, x = .begin q → q.Keeps recording {} := by
      intro x hxs q he
      subst he
      exact (hx q hxs).keeps_recording
    refine (Pool.run_inv_along (I := fun p => Findable p.state p.trace ∧ p.OK recording {})
      (fun p x q hbegin hp hc hq => ⟨findable_step hp.2 hp.1 hc hq, ?_⟩) hok
      ⟨hstart, Pool.init_ok (M := engine Postgres) w⟩ hal h).1
    exact Pool.step_ok hp.2 hbegin hq
  refine ⟨fun q ⟨i, s, u, hm⟩ => ?_, fun ys event zs p₁ hsplit h₁ q ⟨i, s, u, hm⟩ hev => ?_⟩
  · obtain ⟨st, hst⟩ := (main hx hal h).found i s q u hm
    obtain ⟨row, hrow, hid, -⟩ := Postgres.statusOf_eq_some.1 hst
    exact ⟨row, hrow, hid⟩
  · subst hsplit
    obtain ⟨hal₁, hal₂⟩ := Pool.along_append h₁ hal
    have hf := main (fun q hq => hx q (List.mem_append_left _ hq)) hal₁ h₁
    have hmarked : Marked p₁.state.ledger q.eventId :=
      (hf.marked i s q u hm).resolve_left fun hun => hal₂.1 event rfl i q hun hev
    rw [Pool.run_append, h₁] at h
    have hstay := throughout_of_statements (R := fun b b' => ∀ id, Marked b id → Marked b' id)
      (fun _ _ hm => hm) (fun a b c h₁ h₂ id hm => h₂ id (h₁ id hm))
      (fun c b b' hc id hm => marked_step hc hm) h
    obtain ⟨st, hst, hne⟩ := hstay [] _ [] p₁ p (by rw [List.append_nil]; rfl) rfl h _ hmarked
    obtain ⟨row, hrow, hid, rfl⟩ := Postgres.statusOf_eq_some.1 hst
    exact ⟨row, hrow, hid, hne⟩

/-- A check of `KeepsFindable` that does not look at the event: nothing waits for its mark
when a delivery starts. -/
def keepsFindable? (p : Pool (engine Postgres)) : Input (engine Postgres) → Bool
  | .turn i f =>
    match p.running[i]? with
    | some (.await (.publishJson _ q) _) => decide (f = .works → ∀ row ∈ p.state.ledger.requests.rows,
        row.idempotencyKey = q.idempotencyKey → row.id = q.eventId)
    | some (.await (.markPublished _) _) => decide f.Lands
    | _ => true
  | .begin _ => p.trace.all fun e => (recording.at {} p.trace e.who).unmarked.isNone
  | .move _ => true

theorem keepsFindable_of_check {p : Pool (engine Postgres)} {x : Input (engine Postgres)}
    (h : keepsFindable? p x = true) : KeepsFindable p x := by
  cases x with
  | move m => trivial
  | begin g =>
    intro event _ i q hun
    by_cases hi : ∃ e ∈ p.trace, e.who = i
    · obtain ⟨e, he, rfl⟩ := hi
      have := List.all_eq_true.1 h e he
      rw [hun] at this; cases this
    · rw [recording.at_idle fun e he hei => hi ⟨e, he, hei⟩] at hun
      cases hun
  | turn i f =>
    intro c k hi
    simp only [keepsFindable?, hi] at h
    cases c with
    | publishJson s q => exact of_decide_eq_true h
    | markPublished q => exact of_decide_eq_true h
    | _ => trivial

/-- Delivered twice; the first attempt's publish goes as `f` says. -/
def redelivered (f : Fault PyException) : List (Input (engine Postgres)) :=
  [.begin (handleNormalizedTradeEvent (.ok sampleEvent)), .turn 0 .works, .turn 0 .works,
    .turn 0 .works, .turn 0 .works, .turn 0 f, .turn 0 .works,
    .begin (handleNormalizedTradeEvent (.ok sampleEvent)), .turn 1 .works, .turn 1 .works,
    .turn 1 .works]

theorem redelivered_handlers {f : Fault PyException} {zs : List (Input (engine Postgres))}
    (hz : ∀ g, Input.begin g ∉ zs) {q : Prog CopyEngine Unit}
    (h : Input.begin q ∈ redelivered f ++ zs) : q = handleNormalizedTradeEvent (.ok sampleEvent) := by
  rcases List.mem_append.1 h with h | h
  · simpa [redelivered] using h
  · exact absurd h (hz q)

/-- The ids of the requests whose publish answered. -/
def publishedIds (tr : List (Entry CopyEngine)) : List UUID :=
  tr.filterMap fun
    | ⟨_, .publishJson _ q, .ok _⟩ => some q.eventId
    | _ => none

/-- A clean delivery, and a redelivery that finds a duplicate. -/
theorem published_requests_findable_redelivered :
    ∃ p, (Pool.init ledgerStart).run? (redelivered .works) = some p ∧
      publishedIds p.trace = [⟨100⟩] ∧
      ∀ q, Published p.trace q → ∃ row ∈ p.state.ledger.requests, row.id = q.eventId := by
  have hrun : ((Pool.init ledgerStart).run? (redelivered .works)).map
      (fun p => publishedIds p.trace) = some [⟨100⟩] := by decide +kernel
  have hcheck : (Pool.init ledgerStart).Along (fun p x => keepsFindable? p x = true)
      (redelivered .works) := by decide +kernel
  obtain ⟨p, hp, hids⟩ := Option.map_eq_some_iff.1 hrun
  have hx : ∀ q, Input.begin q ∈ redelivered .works → Handler q := fun q hq =>
    @redelivered_handlers _ [] (by simp) _ (by rwa [List.append_nil]) ▸ Handler.trade _
  exact ⟨p, hp, hids, (published_requests_findable hx
    (Pool.along_mono (fun _ _ => keepsFindable_of_check) hcheck) hp).1⟩

/-- **A published request without a row**: the first publish raises and its key is released;
the retry builds a new id, its record is swallowed, and its publish answers. -/
theorem retried_request_not_found :
    ¬ ∀ (xs : List (Input (engine Postgres))) (p : Pool (engine Postgres)),
      (∀ q, Input.begin q ∈ xs → ∃ event, q = handleNormalizedTradeEvent (.ok event)) →
      (Pool.init ledgerStart).run? xs = some p →
      ∀ q, Published p.trace q → ∃ row ∈ p.state.ledger.requests, row.id = q.eventId := by
  intro hall
  have hrun : ((Pool.init ledgerStart).run?
      (redelivered (.before ⟨"TimeoutError"⟩) ++ [.turn 1 .works, .turn 1 .works])).map
        (fun p : Pool (engine Postgres) =>
          (publishedIds p.trace, p.state.ledger.statusOf ⟨101⟩)) =
      some ([⟨101⟩], none) := by decide +kernel
  obtain ⟨p, hp, hboth⟩ := Option.map_eq_some_iff.1 hrun
  obtain ⟨hids, hnone⟩ := Prod.mk.inj hboth
  have hmem : (⟨101⟩ : UUID) ∈ publishedIds p.trace := by rw [hids]; exact List.mem_cons_self
  obtain ⟨⟨i, c, r⟩, he, hid⟩ := List.mem_filterMap.1 hmem
  cases c with
  | publishJson s q =>
    cases r with
    | error e => cases hid
    | ok u =>
      obtain ⟨row, hrow, hrid⟩ := hall _ p
        (fun q hq => ⟨_, redelivered_handlers (by simp) hq⟩) hp q ⟨i, s, u, he⟩
      rw [← Option.some.inj hid] at hnone
      exact Postgres.statusOf_eq_none.1 hnone row hrow hrid
  | _ => cases hid

end CopyTrade
