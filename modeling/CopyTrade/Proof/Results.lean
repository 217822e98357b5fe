import CopyTrade.Proof.Ownership
import CopyTrade.Spec.Postgres

/-!
# Results and the request status

Two statements write the status of an existing request: `mark_published`, which looks
at the status it finds, and the update from a result, which does not.

* `keepsFinished_step`: the only statement that reopens a finished request is the
  update from an `ACCEPTED` result.
* `finished_iff_no_late_accepted`: a run never reopens a request exactly when no such
  update comes late.
* `agree_step`, `agree_iff_swallowed_backed`: statuses and results agree exactly as long
  as every update whose insert was swallowed is backed by another row.
-/

namespace CopyTrade

open Async (Prog Protocol Entry Pool Input Invariant Started Machine Fault)

/-! ## Finished requests -/

/-- `FILLED`, `REJECTED` and `FAILED` end a request. -/
def RequestStatus.finished : RequestStatus → Bool
  | .rejected | .filled | .failed => true
  | .requested | .published | .accepted => false

/-- A request that is finished in `b` is so in `b'`. -/
def KeepsFinished (b b' : Postgres) : Prop :=
  ∀ id status, b.statusOf id = some status → status.finished = true →
    ∃ status', b'.statusOf id = some status' ∧ status'.finished = true

/-- A request that is finished in `b` is not unfinished in `b'`. -/
def NeverReopened (b b' : Postgres) : Prop :=
  ∀ id status status', b.statusOf id = some status → status.finished = true →
    b'.statusOf id = some status' → status'.finished = true

/-- A request that has a row in `b` has one in `b'`. -/
def RowsStay (b b' : Postgres) : Prop :=
  ∀ id status, b.statusOf id = some status → ∃ status', b'.statusOf id = some status'

/-- The call overwrites the status of a finished request with `ACCEPTED`. -/
def Reopens (c : Call) (b : Postgres) : Prop :=
  ∃ id status, c = .updateRequestFromResult id .accepted ∧ b.statusOf id = some status ∧
    status.finished = true

/-- No statement removes a request. -/
theorem rowsStay_step {c : Call} {b b' : Postgres} (h : ledgerStep c b = some b') :
    RowsStay b b' := by
  intro id status hs
  rcases statusOf_step h id with he | ⟨hnone, -⟩ | ⟨-, he⟩ | ⟨st, -, -, he⟩
  · exact ⟨status, he.trans hs⟩
  · rw [hs] at hnone; cases hnone
  · exact ⟨_, he⟩
  · exact ⟨_, he⟩

/-- **One statement** keeps finished requests finished, except the update from an
`ACCEPTED` result. -/
theorem keepsFinished_step {c : Call} {b b' : Postgres} (h : ledgerStep c b = some b') :
    KeepsFinished b b' ↔ ¬ Reopens c b := by
  constructor
  · rintro hkeep ⟨id, status, rfl, hs, hf⟩
    obtain ⟨b₁, h₁, -, hst⟩ := Postgres.statusOf_updateRequestFromResult id .accepted b
    cases h₁.symm.trans h
    obtain ⟨status', hs', hf'⟩ := hkeep id status hs hf
    rw [hst, if_pos rfl, hs] at hs'
    cases hs'; cases hf'
  · intro hno id status hs hf
    rcases statusOf_step h id with he | ⟨hnone, -⟩ | ⟨hreq, -⟩ | ⟨st, rfl, -, he⟩
    · exact ⟨status, he.trans hs, hf⟩
    · rw [hs] at hnone; cases hnone
    · -- the guard of `mark_published`: a finished request is not `REQUESTED`
      rw [hs] at hreq
      cases hreq; cases hf
    · refine ⟨st.toRequestStatus, he, ?_⟩
      cases st with
      | accepted => exact absurd ⟨id, status, rfl, hs, hf⟩ hno
      | rejected => rfl
      | filled => rfl
      | failed => rfl

/-- The call that this input makes take effect. -/
def landingCall (p : Pool (engine Postgres)) : Input (engine Postgres) → Option Call
  | .turn i f =>
    match p.running[i]? with
    | some (.await c _) => if f.Lands then some c else none
    | _ => none
  | _ => none

/-- **All that a step does to the ledger**: nothing, or the statement of its call. -/
theorem ledger_step {p q : Pool (engine Postgres)} {x : Input (engine Postgres)}
    (h : p.step? x = some q) :
    (landingCall p x = none ∧ q.state.ledger = p.state.ledger) ∨
      ∃ c, landingCall p x = some c ∧ ledgerStep c p.state.ledger = some q.state.ledger := by
  rcases Pool.step_cases h with ⟨g, rfl, rfl⟩ | ⟨i, f, k, rfl, hi, rfl⟩ |
    ⟨i, f, c, k, r, s, rfl, hi, hs, rfl⟩ | ⟨m, s, rfl, hm, rfl⟩
  · exact Or.inl ⟨rfl, rfl⟩
  · exact Or.inl ⟨by simp only [landingCall, hi], rfl⟩
  · rcases ledger_serve hs with ⟨hl, hstep⟩ | ⟨hl, rfl⟩
    · exact Or.inr ⟨c, by simp only [landingCall, hi, hl, if_true], hstep⟩
    · exact Or.inl ⟨by simp only [landingCall, hi, hl, if_false], rfl⟩
  · exact Or.inl ⟨rfl, ledger_move hm⟩

/-- This input does not let the update from an `ACCEPTED` result take effect on a
finished request. -/
def NoLateAccepted (p : Pool (engine Postgres)) (x : Input (engine Postgres)) : Prop :=
  ∀ c, landingCall p x = some c → ¬ Reopens c p.state.ledger

/-- A preorder on ledgers that every statement respects holds throughout every run. -/
theorem throughout_of_statements {R : Postgres → Postgres → Prop} (hrefl : ∀ b, R b b)
    (htrans : ∀ a b c, R a b → R b c → R a c)
    (hstep : ∀ c b b', ledgerStep c b = some b' → R b b') {p p' : Pool (engine Postgres)}
    {xs : List (Input (engine Postgres))} (h : p.run? xs = some p') :
    p.Throughout (fun v v' : World Postgres => R v.ledger v'.ledger) xs := by
  refine (Pool.throughout_iff_along (R := fun v v' : World Postgres => R v.ledger v'.ledger)
    (fun s => hrefl _) (fun s t u h₁ h₂ => htrans _ _ _ h₁ h₂) h).2
    ((Pool.along_congr (fun p q x _ => iff_true_intro ?_) h).2 (Pool.along_true p xs))
  intro q' hq'
  rcases ledger_step hq' with ⟨-, he⟩ | ⟨c, -, hc⟩
  · rw [he]; exact hrefl _
  · exact hstep c _ _ hc

/-- No run removes a request. -/
theorem rows_stay {p p' : Pool (engine Postgres)} {xs : List (Input (engine Postgres))}
    (h : p.run? xs = some p') :
    p.Throughout (fun v v' : World Postgres => RowsStay v.ledger v'.ledger) xs := by
  refine throughout_of_statements (fun b id st hs => ⟨st, hs⟩) (fun a b c h₁ h₂ id st hs => ?_)
    (fun c b b' hc => rowsStay_step hc) h
  obtain ⟨st', hs'⟩ := h₁ id st hs
  exact h₂ id st' hs'

/-- As rows stay, not to be reopened is to be kept finished. -/
theorem throughout_neverReopened {p p' : Pool (engine Postgres)}
    {xs : List (Input (engine Postgres))} (h : p.run? xs = some p') :
    p.Throughout (fun v v' : World Postgres => NeverReopened v.ledger v'.ledger) xs ↔
      p.Throughout (fun v v' : World Postgres => KeepsFinished v.ledger v'.ledger) xs := by
  constructor
  · intro hall ys zs rest p₁ p₂ hx h₁ h₂ id st hs hf
    obtain ⟨st', hs'⟩ := rows_stay h ys zs rest p₁ p₂ hx h₁ h₂ id st hs
    exact ⟨st', hs', hall ys zs rest p₁ p₂ hx h₁ h₂ id st st' hs hf hs'⟩
  · intro hall ys zs rest p₁ p₂ hx h₁ h₂ id st st' hs hf hs'
    obtain ⟨st'', hs'', hf''⟩ := hall ys zs rest p₁ p₂ hx h₁ h₂ id st hs hf
    rw [hs'] at hs''; cases hs''; exact hf''

/-- **A finished request never becomes unfinished again**, in any run of any executions,
exactly when no `ACCEPTED` result is applied to a request that is finished. -/
theorem finished_iff_no_late_accepted {w : World Postgres} {xs : List (Input (engine Postgres))}
    {p : Pool (engine Postgres)} (h : (Pool.init w).run? xs = some p) :
    (Pool.init w).Throughout (fun v v' : World Postgres => NeverReopened v.ledger v'.ledger) xs ↔
      (Pool.init w).Along NoLateAccepted xs := by
  rw [throughout_neverReopened h,
    Pool.throughout_iff_along (fun s id st hs hf => ⟨st, hs, hf⟩) ?_ h]
  · refine Pool.along_congr (fun p q x hq => ?_) h
    rcases ledger_step hq with ⟨hnone, he⟩ | ⟨c, hc, hstep⟩
    · refine ⟨fun _ c hc => ?_, fun _ q' hq' id st hs hf => ?_⟩
      · rw [hnone] at hc; cases hc
      · rw [hq] at hq'; cases hq'
        rw [he]; exact ⟨st, hs, hf⟩
    · refine ⟨fun hall c' hc' => ?_, fun hall q' hq' => ?_⟩
      · rw [hc] at hc'; cases hc'
        exact (keepsFinished_step hstep).1 (hall q hq)
      · rw [hq] at hq'; cases hq'
        exact (keepsFinished_step hstep).2 (hall c hc)
  · intro s t u h₁ h₂ id st hs hf
    obtain ⟨st', hs', hf'⟩ := h₁ id st hs hf
    exact h₂ id st' hs' hf'

/-- One relationship, and an empty ledger that knows it. -/
def ledgerStart : World Postgres := World.start [sampleRelationship] (.empty [⟨2⟩])

/-- One request is published; then a first and a second result for it are processed. -/
def twoResults (first second : CopyExecutionStatus) : List (Input (engine Postgres)) :=
  [.begin (handleNormalizedTradeEvent (.ok sampleEvent)), .turn 0 .works, .turn 0 .works,
    .turn 0 .works, .turn 0 .works, .turn 0 .works, .turn 0 .works,
    .begin (handleCopyExecutionResultEvent (.ok (sampleResult ⟨100⟩ first))),
    .turn 1 .works, .turn 1 .works,
    .begin (handleCopyExecutionResultEvent (.ok
      { sampleResult ⟨100⟩ second with eventId := ⟨901⟩, idempotencyKey := "result-02"
                                       idempotencyKey_min := by decide })),
    .turn 2 .works, .turn 2 .works]

theorem twoResults_handlers {first second : CopyExecutionStatus} {q : Prog CopyEngine Unit}
    (h : Input.begin q ∈ twoResults first second) : Handler q := by
  simp only [twoResults, List.mem_cons, Input.begin.injEq, reduceCtorEq, or_false, false_or,
    List.not_mem_nil] at h
  rcases h with rfl | rfl | rfl
  · exact .trade _
  · exact .result _
  · exact .result _

theorem finished_iff_no_late_accepted_in_order :
    ∃ p, (Pool.init ledgerStart).run? (twoResults .accepted .filled) = some p ∧
      p.state.ledger.statusOf ⟨100⟩ = some .filled ∧
      ((Pool.init ledgerStart).Throughout
          (fun v v' : World Postgres => NeverReopened v.ledger v'.ledger)
          (twoResults .accepted .filled) ↔
        (Pool.init ledgerStart).Along NoLateAccepted (twoResults .accepted .filled)) := by
  have hrun : ((Pool.init ledgerStart).run? (twoResults .accepted .filled)).map
      (fun p => p.state.ledger.statusOf ⟨100⟩) = some (some .filled) := by decide +kernel
  obtain ⟨p, hp, hs⟩ := Option.map_eq_some_iff.1 hrun
  exact ⟨p, hp, hs, finished_iff_no_late_accepted hp⟩

/-- **A finished request is reopened**: its `ACCEPTED` result is processed after its
`FILLED` result. -/
theorem accepted_after_filled :
    ¬ ∀ (xs : List (Input (engine Postgres))) (p : Pool (engine Postgres)),
      (∀ q, Input.begin q ∈ xs → Handler q) →
      (Pool.init ledgerStart).run? xs = some p →
      (Pool.init ledgerStart).Throughout
        (fun v v' : World Postgres => NeverReopened v.ledger v'.ledger) xs := by
  intro hall
  have hrun : (((Pool.init ledgerStart).run? ((twoResults .filled .accepted).take 10)).bind fun p₁ =>
      (p₁.run? ((twoResults .filled .accepted).drop 10)).map fun p₂ =>
        (p₁.state.ledger.statusOf ⟨100⟩, p₂.state.ledger.statusOf ⟨100⟩)) =
      some (some .filled, some .accepted) := by decide +kernel
  obtain ⟨p₁, h₁, hrun⟩ := Option.bind_eq_some_iff.1 hrun
  obtain ⟨p₂, h₂, hst⟩ := Option.map_eq_some_iff.1 hrun
  obtain ⟨hs₁, hs₂⟩ := Prod.mk.inj hst
  have hsplit : twoResults .filled .accepted =
      (twoResults .filled .accepted).take 10 ++ ((twoResults .filled .accepted).drop 10 ++ []) := by
    rw [List.append_nil, List.take_append_drop]
  have h : (Pool.init ledgerStart).run? (twoResults .filled .accepted) = some p₂ := by
    rw [← List.take_append_drop 10 (twoResults .filled .accepted), Pool.run_append, h₁]
    exact h₂
  have := hall _ p₂ (fun q hq => twoResults_handlers hq) h _ _ [] p₁ p₂ hsplit h₁ h₂ ⟨100⟩ .filled
    .accepted hs₁ rfl hs₂
  cases this

/-! ## Statuses and results -/

/-- A result's status. -/
def RequestStatus.isResult : RequestStatus → Bool
  | .accepted | .rejected | .filled | .failed => true
  | .requested | .published => false

/-- For every request: its status is a result's exactly when the results table holds a
row for it with that status. -/
def Agree (b : Postgres) : Prop :=
  ∀ id status, b.statusOf id = some status → (status.isResult = true ↔ b.HasResult id status)

theorem isResult_toRequestStatus (status : CopyExecutionStatus) :
    status.toRequestStatus.isResult = true := by
  cases status <;> rfl

/-- Only a result's status stands in the results table. -/
theorem isResult_of_hasResult {b : Postgres} {id : UUID} {status : RequestStatus}
    (h : b.HasResult id status) : status.isResult = true := by
  obtain ⟨r, -, -, rfl⟩ := h
  exact isResult_toRequestStatus _

/-- The update of a request that exists has no row in the results table behind it. -/
def Unbacked (c : Call) (b : Postgres) : Prop :=
  ∃ id status, c = .updateRequestFromResult id status ∧ b.statusOf id ≠ none ∧
    ¬ b.HasResult id status.toRequestStatus

/-- **One statement** keeps statuses and results in agreement, except an unbacked update. -/
theorem agree_step {c : Call} {b b' : Postgres} (ha : Agree b) (h : ledgerStep c b = some b') :
    Agree b' ↔ ¬ Unbacked c b := by
  -- a status that is no result's stays outside the agreement
  have plain : ∀ {id status}, status.isResult = false →
      (status.isResult = true ↔ b'.HasResult id status) := by
    intro id status hf
    refine ⟨fun ht => ?_, fun hr => ?_⟩
    · rw [hf] at ht; cases ht
    · rw [isResult_of_hasResult hr] at hf; cases hf
  constructor
  · rintro hagree ⟨id, status, rfl, hrow, hno⟩
    obtain ⟨b₁, h₁, hres, hst⟩ := Postgres.statusOf_updateRequestFromResult id status b
    cases h₁.symm.trans h
    obtain ⟨old, hold⟩ := Option.ne_none_iff_exists'.1 hrow
    have hs : b'.statusOf id = some status.toRequestStatus := by rw [hst, if_pos rfl, hold]; rfl
    have hback := (hagree id _ hs).1 (isResult_toRequestStatus status)
    rw [Postgres.HasResult, hres] at hback
    exact hno hback
  · intro hback id status hs
    rcases statusOf_step h id with he | ⟨-, he⟩ | ⟨-, he⟩ | ⟨st, rfl, hrow, he⟩
    · rw [he] at hs
      exact ⟨fun hr => hasResult_step h ((ha id status hs).1 hr), fun hr => isResult_of_hasResult hr⟩
    · rw [he] at hs; cases hs; exact plain rfl
    · rw [he] at hs; cases hs; exact plain rfl
    · rw [he] at hs; cases hs
      refine iff_of_true (isResult_toRequestStatus st) (hasResult_step h ?_)
      by_contra hno
      exact hback ⟨id, st, rfl, hrow, hno⟩

/-! ### Swallowed inserts -/

/-- Update only from the result you inserted. The local state is that result. -/
def storing : Protocol CopyEngine (Option CopyExecutionResult) where
  allow l
    | .updateRequestFromResult id status => ∃ r, l = some r ∧ r.requestId = id ∧ r.status = status
    | _ => True
  next l
    | .insertResult r, .ok _ => some r
    | _, _ => l

theorem Handler.keeps_storing {q : Prog CopyEngine Unit} (h : Handler q) : q.Keeps storing none := by
  cases h with
  | trade v =>
    -- the trade handler makes none of the calls the discipline is about
    apply trade_keeps (I := fun _ _ _ _ => True) (J := fun _ _ => True)
    · intro event
      exact ⟨trivial, fun _ => trivial⟩
    · intro event rels l reqs r eventId q _ _ _ _
      exact ⟨trivial, trivial, trivial⟩
    · intro event rels l reqs _
      trivial
    · intro l q rest _
      exact ⟨trivial, trivial, fun _ => trivial, trivial, trivial⟩
  | result v =>
    apply result_keeps
    intro r
    exact ⟨trivial, r, rfl, rfl, rfl⟩

/-- After an execution's insert there is a row under its result's key. -/
def Stored (w : World Postgres) (tr : List (Entry CopyEngine)) : Prop :=
  ∀ i r, storing.at none tr i = some r → ∃ s ∈ w.ledger.results, s.idempotencyKey = r.idempotencyKey

/-- That row is the one of another outcome: the insert was swallowed. -/
def Swallowed (b : Postgres) (r : CopyExecutionResult) : Prop :=
  ∃ s ∈ b.results, s.idempotencyKey = r.idempotencyKey ∧
    ¬ (s.requestId = r.requestId ∧ s.status = r.status)

/-- **Every call keeps the results of past inserts findable by key.** -/
theorem stored : Invariant (engine Postgres) storing none Stored := by
  refine ⟨fun w tr h => h, fun w tr m w' h hm => ?_, fun w tr i c f r w' h _ hs => ?_⟩
  · unfold Stored
    rw [ledger_move hm]; exact h
  have hstay : ∀ s ∈ w.ledger.results, s ∈ w'.ledger.results := by
    rcases ledger_serve hs with ⟨-, hstep⟩ | ⟨-, rfl⟩
    · exact results_stay hstep
    · exact fun s hs => hs
  have older : ∀ j res, storing.at none tr j = some res →
      ∃ s ∈ w'.ledger.results, s.idempotencyKey = res.idempotencyKey := by
    intro j res hj
    obtain ⟨s, hs', hk⟩ := h j res hj
    exact ⟨s, hstay s hs', hk⟩
  intro j res hj
  by_cases hij : i = j
  swap
  · rw [storing.at_other tr hij] at hj; exact older j res hj
  subst hij
  rw [storing.at_self] at hj
  cases c with
  | insertResult r₀ =>
    cases r with
    | error e => exact older i res hj
    | ok u =>
      cases hj
      obtain ⟨-, heff⟩ := Machine.serve_ok hs
      obtain ⟨l, hl, he⟩ := Option.map_eq_some_iff.1 heff
      cases he
      rcases (Postgres.insertResult_cases hl).2 with ⟨⟨s, hs', hk⟩, heq⟩ | ⟨-, row, hrow, heq⟩
      · exact ⟨s, by show s ∈ l.results; rw [heq]; exact hs', hk⟩
      · refine ⟨row, ?_, (Postgres.resultRow_spec hrow).1⟩
        show row ∈ l.results
        rw [Sql.Table.mem_def, heq]; exact List.mem_append_right _ List.mem_cons_self
  | _ => exact older i res hj

/-- If this input lets the update of a request that exists take effect, from a result
whose insert was swallowed, then the results table holds another row for that request with
that status. -/
def SwallowedBacked (p : Pool (engine Postgres)) (x : Input (engine Postgres)) : Prop :=
  ∀ i f r id status k, x = .turn i f → storing.at none p.trace i = some r →
    p.running[i]? = some (.await (.updateRequestFromResult id status) k) → f.Lands →
    p.state.ledger.statusOf id ≠ none → Swallowed p.state.ledger r →
    p.state.ledger.HasResult id status.toRequestStatus

/-- **One step** keeps the agreement exactly when it is no unbacked update from a
swallowed result. -/
theorem agree_step_iff {p q : Pool (engine Postgres)} {x : Input (engine Postgres)}
    (hp : p.OK storing none) (hst : Stored p.state p.trace) (ha : Agree p.state.ledger)
    (h : p.step? x = some q) : Agree q.state.ledger ↔ SwallowedBacked p x := by
  rcases ledger_step h with ⟨hnone, he⟩ | ⟨c, hc, hstep⟩
  · rw [he]
    refine iff_of_true ha fun i f r id status k hx _ hi hl _ _ => ?_
    subst hx
    simp only [landingCall, hi, hl, if_true] at hnone
    cases hnone
  rw [agree_step ha hstep]
  -- the input is the turn of an execution at its call `c`
  obtain ⟨i, f, k, rfl, hi, hl⟩ : ∃ i f k, x = .turn i f ∧
      p.running[i]? = some (.await c k) ∧ f.Lands := by
    cases x with
    | begin g => cases hc
    | move m => cases hc
    | turn i f =>
      simp only [landingCall] at hc
      split at hc
      · rename_i c' k hi
        split at hc
        · rename_i hl; cases hc; exact ⟨i, f, k, rfl, hi, hl⟩
        · cases hc
      · cases hc
  constructor
  · rintro hback i' f' r id status k' hx - hi' - hrow -
    cases hx
    rw [hi] at hi'; cases hi'
    by_contra hno
    exact hback ⟨id, status, rfl, hrow, hno⟩
  · rintro hall ⟨id, status, rfl, hrow, hno⟩
    obtain ⟨r, hr, rfl, rfl⟩ := (hp.keeps i _ hi).1
    obtain ⟨s, hs, hk⟩ := hst i r hr
    by_cases hsame : s.requestId = r.requestId ∧ s.status = r.status
    · exact hno ⟨s, hs, hsame.1, by rw [hsame.2]⟩
    · exact hno (hall i f r _ _ k rfl hr hi hl hrow ⟨s, hs, hk, hsame⟩)

/-- **Request status and result ledger agree** in every state of a run exactly when every
update from a swallowed result is backed by another row of the results table. -/
theorem agree_iff_swallowed_backed {w : World Postgres} {xs : List (Input (engine Postgres))}
    {p : Pool (engine Postgres)} (hx : ∀ q, Input.begin q ∈ xs → Handler q) (hw : Agree w.ledger)
    (h : (Pool.init w).run? xs = some p) :
    (Pool.init w).Always (fun v : World Postgres => Agree v.ledger) xs ↔
      (Pool.init w).Along SwallowedBacked xs := by
  have hok : ∀ x ∈ xs, ∀ q : Prog CopyEngine Unit, x = .begin q → q.Keeps storing none := by
    intro x hxs q he
    subst he
    exact (hx q hxs).keeps_storing
  refine Pool.always_iff_along (I := fun p => Stored p.state p.trace ∧ p.OK storing none)
    (fun p x q hbegin hp hq => Pool.step_inv stored hp.2 hp.1 hbegin hq)
    (fun p x q hp ha hq => agree_step_iff hp.2 hp.1 ha hq) hok ⟨fun i r hr => ?_, ?_⟩ hw h
  · cases hr
  · exact Pool.init_ok (M := engine Postgres) w

/-- Two results under one idempotency key, recorded one after the other. -/
def sameKey (first second : CopyExecutionStatus) : List (Input (engine Postgres)) :=
  [.begin (handleNormalizedTradeEvent (.ok sampleEvent)), .turn 0 .works, .turn 0 .works,
    .turn 0 .works, .turn 0 .works, .turn 0 .works, .turn 0 .works,
    .begin (handleCopyExecutionResultEvent (.ok (sampleResult ⟨100⟩ first))),
    .turn 1 .works, .turn 1 .works,
    .begin (handleCopyExecutionResultEvent (.ok (sampleResult ⟨100⟩ second))),
    .turn 2 .works, .turn 2 .works]

theorem sameKey_handlers {first second : CopyExecutionStatus} {q : Prog CopyEngine Unit}
    (h : Input.begin q ∈ sameKey first second) : Handler q := by
  simp only [sameKey, List.mem_cons, Input.begin.injEq, reduceCtorEq, or_false, false_or,
    List.not_mem_nil] at h
  rcases h with rfl | rfl | rfl
  · exact .trade _
  · exact .result _
  · exact .result _

theorem agree_start : Agree ledgerStart.ledger := by
  intro id status hs
  cases hs

/-- A redelivered result: its insert is swallowed, and its own row backs the update. -/
theorem agree_iff_swallowed_backed_redelivery :
    ∃ p, (Pool.init ledgerStart).run? (sameKey .filled .filled) = some p ∧
      p.state.ledger.statusOf ⟨100⟩ = some .filled ∧ p.state.ledger.HasResult ⟨100⟩ .filled ∧
      ((Pool.init ledgerStart).Always (fun v : World Postgres => Agree v.ledger)
          (sameKey .filled .filled) ↔
        (Pool.init ledgerStart).Along SwallowedBacked (sameKey .filled .filled)) := by
  have hrun : ((Pool.init ledgerStart).run? (sameKey .filled .filled)).map
      (fun p => (p.state.ledger.statusOf ⟨100⟩, decide (p.state.ledger.HasResult ⟨100⟩ .filled))) =
        some (some .filled, true) := by decide +kernel
  obtain ⟨p, hp, hboth⟩ := Option.map_eq_some_iff.1 hrun
  obtain ⟨hs, hr⟩ := Prod.mk.inj hboth
  exact ⟨p, hp, hs, of_decide_eq_true hr,
    agree_iff_swallowed_backed (fun q hq => sameKey_handlers hq) agree_start hp⟩

/-- **Status and results part**: the second result's insert is swallowed, its update is not. -/
theorem swallowed_result_updates :
    ¬ ∀ (xs : List (Input (engine Postgres))) (p : Pool (engine Postgres)),
      (∀ q, Input.begin q ∈ xs → Handler q) → (Pool.init ledgerStart).run? xs = some p →
      Agree p.state.ledger := by
  intro hall
  have hrun : ((Pool.init ledgerStart).run? (sameKey .accepted .filled)).map
      (fun p => (p.state.ledger.statusOf ⟨100⟩, decide (p.state.ledger.HasResult ⟨100⟩ .filled))) =
        some (some .filled, false) := by decide +kernel
  obtain ⟨p, hp, hboth⟩ := Option.map_eq_some_iff.1 hrun
  obtain ⟨hs, hr⟩ := Prod.mk.inj hboth
  have := (hall _ p (fun q hq => sameKey_handlers hq) hp ⟨100⟩ .filled hs).1 rfl
  exact of_decide_eq_false hr this

end CopyTrade
