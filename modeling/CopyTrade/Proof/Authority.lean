import CopyTrade.Async.Moments
import CopyTrade.Proof.Gate
import CopyTrade.Proof.Limits
import CopyTrade.Spec.BackedWorld

/-!
# What authorises an order

The gates are checked once, when a handler lists the relationships for its event. Between that
moment and the publication the tables may change, so an order is authorised by the tables as
they were at one moment of the run, the listing of the execution that publishes it.

* `publish_listed`: a publish goes back to the listing of its own execution.
* `orders_authorised`: at the moment of that listing the tables held an eligible relationship,
  and the order carries its columns.
* `brought_in`: who brings in an order where such orders are blocked.
* `switched_off`: once no relationship with an id is eligible any more, only executions that
  had listed it before and are still under way publish for it, and once these have ended none.
-/

namespace CopyTrade

open Async (Prog Entry Pool Input Fault begun run_known)

variable {B : Type} [Ledger B]

/-- The moment that authorises the order `q` of execution `i`: the listing of `i` is its next
call, and the tables hold an eligible relationship whose columns the order carries. -/
structure Authorises (s : BackedWorld B) (i : ℕ) (ys : List (Input (backed B)))
    (q : CopyExecutionRequest) (event : NormalizedOrderEvent) (row : CopyRelationshipRow)
    (p : Pool (backed B)) : Prop where
  run : (Pool.init s).run? ys = some p
  listing : ∃ k, p.running[i]? = some (.await (.listActiveForEvent event) k)
  row_mem : row ∈ p.state.tables.relationships
  eligible : Eligible p.state.tables event row
  built : BuiltFrom event (p.state.tables.relationshipOf row) q

/-- A publish goes back to the listing of its own execution, for a relationship that passed
the gates. -/
theorem publish_listed {s : BackedWorld B} {xs : List (Input (backed B))} {p : Pool (backed B)}
    (hx : ∀ q, Input.begin q ∈ xs → Handler q) (h : (Pool.init s).run? xs = some p)
    {newer : List (Entry CopyEngine)} {i : ℕ} {subject : String} {q : CopyExecutionRequest}
    {r : CopyEngine.Reply (.publishJson subject q)} {older : List (Entry CopyEngine)}
    (htr : p.trace = newer ++ ⟨i, .publishJson subject q, r⟩ :: older) :
    ∃ event relationships, ⟨i, .listActiveForEvent event, .ok relationships⟩ ∈ older ∧
      ∃ relationship ∈ relationships, passesGates event relationship = true ∧
        BuiltFrom event relationship q := by
  have hal : listing.Allowed [] p.trace := Pool.run_allowed (fun q hq => (hx q hq).keeps_listing) h
  rw [htr] at hal
  obtain ⟨hallow, -⟩ := hal.of_append
  obtain ⟨⟨event, relationship⟩, hm, hgates, hbuilt⟩ := hallow q rfl
  obtain ⟨relationships, hlist, hrel⟩ := listing_source hm
  exact ⟨event, relationships, hlist, relationship, hrel, hgates, hbuilt⟩

/-- **A listing reads the tables of its moment**: what it answered and what passes the gates
is a row that was eligible there. -/
theorem listing_authorises {s : BackedWorld B} {xs : List (Input (backed B))} {p : Pool (backed B)}
    (h : (Pool.init s).run? xs = some p) {i : ℕ} {event : NormalizedOrderEvent}
    {relationships : List CopyRelationship}
    (hlist : ⟨i, .listActiveForEvent event, .ok relationships⟩ ∈ p.trace)
    {relationship : CopyRelationship} (hrel : relationship ∈ relationships)
    (hgates : passesGates event relationship = true) {q : CopyExecutionRequest}
    (hbuilt : BuiltFrom event relationship q) :
    ∃ ys zs p₁ row, xs = ys ++ .turn i .works :: zs ∧ Authorises s i ys q event row p₁ := by
  obtain ⟨newer, older, htr⟩ := List.append_of_mem hlist
  obtain ⟨ys, f, zs, p₁, k, s', hxs, hrun, -, hi, hserve⟩ := Pool.run_entry h htr
  obtain ⟨rfl, hlists⟩ := backed_lists hserve
  obtain ⟨row, hrow, hwhere, rfl⟩ := (Directory.mem_lists hlists).1 hrel
  exact ⟨ys, zs, p₁, row, hxs, hrun, ⟨k, hi⟩, hrow, eligible_iff.1 ⟨hwhere, hgates⟩, hbuilt⟩

/-- **The stream grows by publishes only**: a message that a run brought into the stream was
published by one of its calls. -/
theorem stream_published {p p' : Pool (backed B)} {ys : List (Input (backed B))}
    (h : p.run? ys = some p') {m : Broker.Message String CopyExecutionRequest}
    (hm : m ∈ p'.state.world.stream) (hnew : m ∉ p.state.world.stream) :
    ∃ us i f vs p₁ p₂ subject r, ys = us ++ .turn i f :: vs ∧ p.run? us = some p₁ ∧
      p₁.step? (.turn i f) = some p₂ ∧
      (m ∉ p₁.state.world.stream ∧ m ∈ p₂.state.world.stream ∧ p₂.run? vs = some p') ∧
      p₂.trace = ⟨i, .publishJson subject m.body, r⟩ :: p₁.trace ∧
      ∃ k, p₁.running[i]? = some (.await (.publishJson subject m.body) k) := by
  obtain ⟨us, x, vs, p₁, p₂, hys, hus, hx, hvs, hnot, hal⟩ :=
    Pool.run_rise (R := fun t : BackedWorld B => m ∈ t.world.stream) hnew h hm
  have hin : m ∈ p₂.state.world.stream := hal [] vs p₂ rfl rfl
  rcases Pool.step_cases hx with ⟨q, -, rfl⟩ | ⟨i, f, k, -, -, rfl⟩ |
    ⟨i, f, c, k, r, t, rfl, hi, hserve, rfl⟩ | ⟨move, t, -, hmove, rfl⟩
  · exact absurd hin hnot
  · exact absurd hin hnot
  · rcases backed_stream hserve hin with hold | ⟨subject, rfl⟩
    · exact absurd hold hnot
    · exact ⟨us, i, f, vs, p₁, _, subject, r, hys, hus, hx, ⟨hnot, hin, hvs⟩, rfl, k, hi⟩
  · have hsame : t.world.stream = p₁.state.world.stream := backed_move hmove
    have hin : m ∈ t.world.stream := hin
    rw [hsame] at hin
    exact absurd hin hnot

/-- The call that brought a message into the stream goes back to a listing before it. -/
theorem message_listed {s : BackedWorld B} {us : List (Input (backed B))} {p₁ p₂ : Pool (backed B)}
    (hx : ∀ q, Input.begin q ∈ us → Handler q) (hus : (Pool.init s).run? us = some p₁) {i : ℕ}
    {f : Fault PyException} (hstep : p₁.step? (.turn i f) = some p₂) {subject : String}
    {q : CopyExecutionRequest} {r : CopyEngine.Reply (.publishJson subject q)}
    (htr : p₂.trace = ⟨i, .publishJson subject q, r⟩ :: p₁.trace) :
    ∃ event relationships, ⟨i, .listActiveForEvent event, .ok relationships⟩ ∈ p₁.trace ∧
      ∃ relationship ∈ relationships, passesGates event relationship = true ∧
        BuiltFrom event relationship q := by
  have hrun : (Pool.init s).run? (us ++ [.turn i f]) = some p₂ := by
    rw [Pool.run_append, hus, Option.bind_some, Pool.run?, hstep]
    rfl
  have hbegin : ∀ q, Input.begin q ∈ us ++ [.turn i f] → Handler q := by
    intro q hq
    rcases List.mem_append.1 hq with hq | hq
    · exact hx q hq
    · cases List.mem_singleton.1 hq
  have htr' : p₂.trace = [] ++ ⟨i, .publishJson subject q, r⟩ :: p₁.trace := htr
  exact publish_listed hbegin hrun htr'

/-- **Every order was authorised.** A message that stands in the stream and did not at the
start was published by an execution whose own listing was made at a moment at which the tables
held an eligible relationship, and the order carries the columns of that relationship as the
tables then had them, whatever the operators did before and after. -/
theorem orders_authorised {s : BackedWorld B} {xs : List (Input (backed B))} {p : Pool (backed B)}
    (hx : ∀ q, Input.begin q ∈ xs → Handler q) (h : (Pool.init s).run? xs = some p)
    {m : Broker.Message String CopyExecutionRequest} (hm : m ∈ p.state.world.stream)
    (hnew : m ∉ s.world.stream) :
    ∃ ys i zs p₁ event row, xs = ys ++ .turn i .works :: zs ∧
      Authorises s i ys m.body event row p₁ ∧
      ∃ subject r, ⟨i, .publishJson subject m.body, r⟩ ∈ p.trace := by
  obtain ⟨us, i, f, vs, p₁, p₂, subject, r, rfl, hus, hstep, ⟨-, -, hvs⟩, htr, -⟩ :=
    stream_published h hm hnew
  have hbegin : ∀ q, Input.begin q ∈ us → Handler q := fun q hq => hx q (List.mem_append_left _ hq)
  obtain ⟨event, relationships, hlist, relationship, hrel, hgates, hbuilt⟩ :=
    message_listed hbegin hus hstep htr
  obtain ⟨ys, zs, p₀, row, rfl, hauth⟩ := listing_authorises hus hlist hrel hgates hbuilt
  refine ⟨ys, i, zs ++ .turn i f :: vs, p₀, event, row, by simp, hauth, subject, r, ?_⟩
  exact (Pool.run_trace hvs).subset (htr ▸ List.mem_cons_self)

/-! ### One order from the sample tables -/

/-- The sample tables behind a world without recorders. -/
def backedSample : BackedWorld Unit :=
  ⟨sampleRoutes (), sampleDirectory, fun event hs hy => sample_lists event () hs hy⟩

/-- The sample event is handled as far as the publication of its first order. -/
def backedRun : List (Input (backed Unit)) :=
  [.begin (handleNormalizedTradeEvent (.ok sampleEvent)), .turn 0 .works, .turn 0 .works,
    .turn 0 .works, .turn 0 .works, .turn 0 .works, .turn 0 .works, .turn 0 .works]

theorem backedRun_handlers {q : Prog CopyEngine Unit} (hq : Input.begin q ∈ backedRun) : Handler q := by
  have : q = handleNormalizedTradeEvent (.ok sampleEvent) := by simpa [backedRun] using hq
  rw [this]
  exact .trade _

theorem orders_authorised_sample : ∃ p, (Pool.init backedSample).run? backedRun = some p ∧
    ∃ m ∈ p.state.world.stream, ∃ ys i zs p₁ event row, backedRun = ys ++ .turn i .works :: zs ∧
      Authorises backedSample i ys m.body event row p₁ ∧
      ∃ subject r, ⟨i, .publishJson subject m.body, r⟩ ∈ p.trace := by
  have hrun : ((Pool.init backedSample).run? backedRun).map (fun p => p.state.world.stream.length) =
      some 1 := by decide +kernel
  obtain ⟨p, hp, hlength⟩ := Option.map_eq_some_iff.1 hrun
  obtain ⟨m, hm⟩ := List.length_eq_one_iff.1 hlength
  have hin : m ∈ p.state.world.stream := by rw [hm]; exact List.mem_singleton_self m
  exact ⟨p, hp, m, hin, orders_authorised (fun q hq => backedRun_handlers hq) hp hin (List.not_mem_nil)⟩

/-! ## Switching off -/

/-- No relationship with the id is eligible, for any event. -/
def SwitchedOff (id : UUID) (s : BackedWorld B) : Prop :=
  ∀ event, ∀ row ∈ s.tables.relationships, row.id = id → ¬ Eligible s.tables event row

/-- Execution `i` was answered the relationship for the event, and it passes the gates. -/
def Listed (tr : List (Entry CopyEngine)) (i : ℕ) (event : NormalizedOrderEvent)
    (relationship : CopyRelationship) : Prop :=
  ∃ relationships, ⟨i, .listActiveForEvent event, .ok relationships⟩ ∈ tr ∧
    relationship ∈ relationships ∧ passesGates event relationship = true

/-- A publish of execution `i`, in the run `ys` from `p`, brings the message into the stream. -/
def BringsIn (p : Pool (backed B)) (ys : List (Input (backed B))) (i : ℕ)
    (m : Broker.Message String CopyExecutionRequest) : Prop :=
  ∃ us f vs p₁ p₂ subject r, ys = us ++ .turn i f :: vs ∧ p.run? us = some p₁ ∧
    p₁.step? (.turn i f) = some p₂ ∧ p₂.trace = ⟨i, .publishJson subject m.body, r⟩ :: p₁.trace ∧
    m ∉ p₁.state.world.stream ∧ m ∈ p₂.state.world.stream

/-- Execution `i` has begun and has neither returned nor raised. -/
def UnderWay (p : Pool (backed B)) (i : ℕ) : Prop := ∃ q, p.running[i]? = some q ∧ ¬ q.Ended

/-- No relationship is eligible from which an order that `K` concerns would be built. -/
def Blocked (K : NormalizedOrderEvent → CopyExecutionRequest → Prop) (s : BackedWorld B) : Prop :=
  ∀ event, ∀ row ∈ s.tables.relationships, Eligible s.tables event row →
    ∀ q, BuiltFrom event (s.tables.relationshipOf row) q → ¬ K event q

/-- **A message that is new** was brought in by an execution that had listed a relationship for it;
where `K` concerns it, and orders of its kind were blocked throughout, the execution was under way
before and had listed the relationship then. -/
theorem brought_in {s : BackedWorld B} {xs ys : List (Input (backed B))} {p p' : Pool (backed B)}
    (hx : ∀ q, Input.begin q ∈ xs ++ ys → Handler q) (h : (Pool.init s).run? xs = some p)
    (h' : p.run? ys = some p') {K : NormalizedOrderEvent → CopyExecutionRequest → Prop}
    (hoff : p.Always (Blocked K) ys) {m : Broker.Message String CopyExecutionRequest}
    (hm : m ∈ p'.state.world.stream) (hnew : m ∉ p.state.world.stream) :
    ∃ i event relationship, BringsIn p ys i m ∧ Listed p'.trace i event relationship ∧
      BuiltFrom event relationship m.body ∧
      (K event m.body → UnderWay p i ∧ Listed p.trace i event relationship) := by
  obtain ⟨us, i, f, vs, p₁, p₂, subject, r, rfl, hus, hstep, ⟨hnot, hin, hvs⟩, htr, k, hi⟩ :=
    stream_published h' hm hnew
  have hrun : (Pool.init s).run? (xs ++ us) = some p₁ := by
    rw [Pool.run_append, h, Option.bind_some, hus]
  have hbegin : ∀ q, Input.begin q ∈ xs ++ us → Handler q := by
    intro q hq
    refine hx q ?_
    rw [← List.append_assoc]
    exact List.mem_append_left _ hq
  obtain ⟨event, relationships, hlist, relationship, hrel, hgates, hbuilt⟩ :=
    message_listed hbegin hrun hstep htr
  have htrace : ⟨i, .listActiveForEvent event, .ok relationships⟩ ∈ p'.trace := by
    refine (Pool.run_trace hvs).subset ?_
    rw [htr]
    exact List.mem_cons_of_mem _ hlist
  refine ⟨i, event, relationship, ⟨us, f, vs, p₁, p₂, subject, r, rfl, hus, hstep, htr, hnot, hin⟩,
    ⟨relationships, htrace, hrel, hgates⟩, hbuilt, fun hconcerns => ?_⟩
  -- made after the moment, the listing would have found an eligible row
  have hbefore : ⟨i, .listActiveForEvent event, .ok relationships⟩ ∈ p.trace := by
    rcases Pool.run_since hus hlist with hold | ⟨as, f', bs, p₀, k', s', rfl, has, -, hserve⟩
    · exact hold
    exfalso
    obtain ⟨-, hlists⟩ := backed_lists hserve
    obtain ⟨row, hrow, hwhere, rfl⟩ := (Directory.mem_lists hlists).1 hrel
    have hblocked : Blocked K p₀.state := by
      apply hoff as (.turn i f' :: (bs ++ .turn i f :: vs)) p₀ _ has
      simp
    exact hblocked event row hrow (eligible_iff.1 ⟨hwhere, hgates⟩) m.body hbuilt hconcerns
  obtain ⟨q, hq⟩ := run_known h hbefore
  have hunder : ¬ q.Ended := by
    intro hended
    have hstill : p₁.running[i]? = some q := Pool.run_ended hended hq hus
    rw [hi] at hstill
    cases hstill
    exact hended
  exact ⟨⟨q, hq, hunder⟩, relationships, hbefore, hrel, hgates⟩

/-- **A message for what is switched off** was brought in by an execution that was still under
way at that moment and had listed the relationship before it. -/
theorem brought_in_under_way {s : BackedWorld B} {xs ys : List (Input (backed B))}
    {p p' : Pool (backed B)} (hx : ∀ q, Input.begin q ∈ xs ++ ys → Handler q)
    (h : (Pool.init s).run? xs = some p) (h' : p.run? ys = some p') {id : UUID}
    (hoff : p.Always (SwitchedOff id) ys) {m : Broker.Message String CopyExecutionRequest}
    (hm : m ∈ p'.state.world.stream) (hnew : m ∉ p.state.world.stream)
    (hid : m.body.copyRelationshipId = id) :
    ∃ i, BringsIn p ys i m ∧ UnderWay p i ∧ ∃ event relationship,
      Listed p.trace i event relationship ∧ BuiltFrom event relationship m.body := by
  have hblocked : p.Always (Blocked fun _ q => q.copyRelationshipId = id) ys := by
    intro us vs p₁ hys hus event row hrow heligible q hbuilt hq
    exact hoff us vs p₁ hys hus event row hrow (hbuilt.copyRelationshipId.symm.trans hq) heligible
  obtain ⟨i, event, relationship, hbrings, -, hbuilt, hconcerned⟩ :=
    brought_in hx h h' hblocked hm hnew
  obtain ⟨hunder, hlisted⟩ := hconcerned hid
  exact ⟨i, hbrings, hunder, event, relationship, hlisted, hbuilt⟩

/-- **Switching off works.** Let no relationship with the id be eligible from some moment on:
it is inactive, or an account, the user, the subscription or the risk settings no longer let it
pass. A message for it that comes into the stream from there on is brought in by a publish of an
execution that was still under way at that moment and had listed the relationship before it;
where those that had listed it have ended at that moment, none comes. -/
theorem switched_off {s : BackedWorld B} {xs ys : List (Input (backed B))} {p p' : Pool (backed B)}
    (hx : ∀ q, Input.begin q ∈ xs ++ ys → Handler q) (h : (Pool.init s).run? xs = some p)
    (h' : p.run? ys = some p') {id : UUID} (hoff : p.Always (SwitchedOff id) ys) :
    (∀ m ∈ p'.state.world.stream, m ∉ p.state.world.stream → m.body.copyRelationshipId = id →
      ∃ i, BringsIn p ys i m ∧ UnderWay p i ∧ ∃ event relationship,
        Listed p.trace i event relationship ∧ BuiltFrom event relationship m.body) ∧
    ((∀ i event relationship, Listed p.trace i event relationship →
        relationship.copyRelationshipId = id → ¬ UnderWay p i) →
      ∀ m ∈ p'.state.world.stream, m.body.copyRelationshipId = id → m ∈ p.state.world.stream) := by
  refine ⟨fun m hm hnew hid => brought_in_under_way hx h h' hoff hm hnew hid, fun hended m hm hid => ?_⟩
  by_contra hnew
  obtain ⟨i, -, hunder, event, relationship, hlisted, hbuilt⟩ :=
    brought_in_under_way hx h h' hoff hm hnew hid
  exact hended i event relationship hlisted (hbuilt.copyRelationshipId.symm.trans hid) hunder

/-- Only the operators change the tables. -/
theorem tables_still {p : Pool (backed B)} {ys : List (Input (backed B))}
    (hys : ∀ move, Input.move move ∉ ys) {p' : Pool (backed B)} (h : p.run? ys = some p') :
    p'.state.tables = p.state.tables := by
  induction ys generalizing p with
  | nil => cases h; rfl
  | cons y ys ih =>
    obtain ⟨q, hq, hr⟩ := Pool.run_cons h
    rw [ih (fun move hm => hys move (List.mem_cons_of_mem y hm)) hr]
    rcases Pool.step_cases hq with ⟨_, -, rfl⟩ | ⟨_, _, _, -, -, rfl⟩ |
      ⟨i, f, c, k, r, s, -, -, hserve, rfl⟩ | ⟨move, s, rfl, -, rfl⟩
    · rfl
    · rfl
    · exact (backed_serve hserve).2.1
    · exact absurd List.mem_cons_self (hys move)

theorem slippage_untouched : ∀ m ∈ (none : Option ℤ), 0 ≤ m ∧ m ≤ 1000 := by simp

theorem deactivation_changes : (some false : Option Bool) ≠ none ∨ (none : Option ℤ) ≠ none :=
  Or.inl (Option.some_ne_none false)

def deactivation : CopyRelationshipUpdate :=
  ⟨some false, none, slippage_untouched, deactivation_changes⟩

/-- The sample tables after the operator has deactivated one of the two relationships. -/
def deactivatedDirectory : Directory :=
  { sampleDirectory with
    relationships := afterRequests [.update 3 ⟨20⟩ deactivation] sampleDirectory.relationships
    riskSettings_relationship := by decide }

/-- What the query then answers. -/
def deactivatedAnswers (event : NormalizedOrderEvent) : List CopyRelationship :=
  (deactivatedDirectory.fromClause.filter fun row => whereClause event row.relationships).map
    rowToRelationship

theorem deactivated_lists (event : NormalizedOrderEvent)
    (hs : Sql.text? event.sourceAccountId ≠ none) (hy : Sql.text? event.symbol ≠ none) :
    deactivatedDirectory.Lists event (deactivatedAnswers event) := by
  refine ⟨hs, hy, _, List.Perm.refl _, List.Pairwise.filter _ ?_, rfl⟩
  rw [Directory.fromClause_eq, List.pairwise_map]
  decide

/-- The operator deactivates a relationship between the listing and the publication of its order;
a second delivery of the event comes after it. -/
def beforeSwitch : List (Input (backed Unit)) :=
  [.begin (handleNormalizedTradeEvent (.ok sampleEvent)), .turn 0 .works, .turn 0 .works,
    .turn 0 .works, .turn 0 .works, .turn 0 .works, .turn 0 .works,
    .move (.retable deactivatedDirectory deactivatedAnswers deactivated_lists)]

def afterSwitch : List (Input (backed Unit)) :=
  [.begin (handleNormalizedTradeEvent (.ok sampleEvent)), .turn 1 .works, .turn 0 .works]

theorem beforeSwitch_tables {p : Pool (backed Unit)}
    (h : (Pool.init backedSample).run? beforeSwitch = some p) :
    p.state.tables = deactivatedDirectory := by
  have hsplit : beforeSwitch = beforeSwitch.dropLast ++
      [.move (.retable deactivatedDirectory deactivatedAnswers deactivated_lists)] := rfl
  rw [hsplit, Pool.run_append] at h
  obtain ⟨q, -, hq⟩ := Option.bind_eq_some_iff.1 h
  obtain ⟨q', hstep, hnil⟩ := Pool.run_cons hq
  cases hnil
  cases hstep
  rfl

theorem switched_off_sample : ∃ p p' m, (Pool.init backedSample).run? beforeSwitch = some p ∧
    p.run? afterSwitch = some p' ∧ m ∈ p'.state.world.stream ∧ m ∉ p.state.world.stream ∧
    ∃ i, BringsIn p afterSwitch i m ∧ UnderWay p i ∧ ∃ event relationship,
      Listed p.trace i event relationship ∧ BuiltFrom event relationship m.body := by
  have hrun : (((Pool.init backedSample).run? beforeSwitch).bind fun p =>
      (p.run? afterSwitch).map fun p' =>
        (p.state.world.stream.length, p'.state.world.stream.map (·.body.copyRelationshipId))) =
      some (0, [⟨20⟩]) := by decide +kernel
  obtain ⟨p, hp, hrun⟩ := Option.bind_eq_some_iff.1 hrun
  obtain ⟨p', hp', hstreams⟩ := Option.map_eq_some_iff.1 hrun
  obtain ⟨hlength, hids⟩ := Prod.mk.inj hstreams
  have hempty : p.state.world.stream = [] := List.length_eq_zero_iff.1 hlength
  obtain ⟨m, hm, hid⟩ := List.map_eq_singleton_iff.1 hids
  have hin : m ∈ p'.state.world.stream := by rw [hm]; exact List.mem_singleton_self m
  have hnew : m ∉ p.state.world.stream := by rw [hempty]; exact List.not_mem_nil
  have hx : ∀ q, Input.begin q ∈ beforeSwitch ++ afterSwitch → Handler q := by
    intro q hq
    have : q = handleNormalizedTradeEvent (.ok sampleEvent) := by
      simpa [beforeSwitch, afterSwitch] using hq
    rw [this]
    exact .trade _
  have hoff : p.Always (SwitchedOff ⟨20⟩) afterSwitch := by
    intro ys zs p₁ hsplit hys event row hrow hrowid heligible
    have hmoves : ∀ move, Input.move move ∉ ys := by
      intro move hmove
      have : Input.move move ∈ afterSwitch := by
        rw [hsplit]
        exact List.mem_append_left _ hmove
      simp [afterSwitch] at this
    have htables : p₁.state.tables = deactivatedDirectory :=
      (tables_still hmoves hys).trans (beforeSwitch_tables hp)
    rw [htables] at hrow
    have hinactive : ∀ r ∈ deactivatedDirectory.relationships.rows, r.id = ⟨20⟩ → r.active = false := by
      decide
    have hactive := heligible.active
    rw [hinactive row hrow hrowid] at hactive
    cases hactive
  exact ⟨p, p', m, hp, hp', hin, hnew, (switched_off hx hp hp' hoff).1 m hin hnew hid⟩

end CopyTrade
