import CopyTrade.Proof.Processing
import Mathlib.Data.List.TakeWhile

/-!
# Copies do not suppress each other

The store sees one text for each copy, and the text tells relationships and event keys
apart (`copyKey_inj`). So a copy is counted as a duplicate only on account of the same copy.

* `copying`: a processor reserves only keys of entries it listed, and no key twice unless a
  relationship is listed twice.
* `refused_after_reserved`: a refused reservation goes back to one step of the run that
  reserved the key for the same relationship and event key.
* `handles_commute`: events with different keys can be processed in either order.
* `suppressed_only_by_itself`: all of it.
-/

namespace CopyTrade

open Async (Machine Prog Protocol Entry Pool Input Started Fault Ending Outcome Served)
open IdempotencyStore (Reserved)

/-! ## The discipline -/

/-- What an execution listed last, and the keys it tried to reserve. -/
structure Copying where
  listed : List (NormalizedOrderEvent × CopyRelationship) := []
  tried : List String := []

/-- Reserve only keys of entries you listed, and each once where the entries are distinct. -/
def copying : Protocol CopyEngine Copying where
  allow l
    | .reserve key =>
      (∃ p ∈ l.listed, passesGates p.1 p.2 = true ∧ key = keyOf p.1 p.2) ∧
        ((l.listed.map (·.2.copyRelationshipId)).Nodup → key ∉ l.tried)
    | _ => True
  next l
    | .listActiveForEvent event, .ok relationships =>
      { l with listed := relationships.map (event, ·) }
    | .reserve key, _ => { l with tried := key :: l.tried }
    | _, _ => l

/-- The calls of a processor, whatever becomes of their results. -/
inductive ProcessorCall : Prog CopyEngine Unit → Prop
  | process (event) : ProcessorCall (processNormalizedOrderEvent event >>= fun _ => pure ())
  | release (key) : ProcessorCall (releaseIdempotencyKey key)

/-- **The loop keeps the discipline**: what it tried are keys of entries it is through with. -/
theorem build_keeps_copying (event : NormalizedOrderEvent) : ∀ (rest done : List CopyRelationship)
    (acc : ProcessingResult) {l : Copying}, l.listed = (done ++ rest).map (event, ·) →
    (∀ k ∈ l.tried, k ∈ done.map (keyOf event)) →
    (buildRequestsForRelationships event rest acc).Obeys copying l (fun _ _ => True)
      fun _ _ => True := by
  intro rest
  induction rest with
  | nil => intro done acc l _ _; trivial
  | cons r rest ih =>
    intro done acc l hlisted htried
    have hlisted' : l.listed = ((done ++ [r]) ++ rest).map (event, ·) := by
      rw [hlisted, List.append_assoc, List.singleton_append]
    have hmore : ∀ k ∈ done.map (keyOf event), k ∈ (done ++ [r]).map (keyOf event) := by
      intro k hk
      rw [List.map_append]
      exact List.mem_append_left _ hk
    rcases build_cons event r rest acc with ⟨hg, heq⟩ | ⟨-, heq⟩
    swap
    · rw [heq]
      exact ih (done ++ [r]) _ hlisted' fun k hk => hmore k (htried k hk)
    rw [heq]
    refine Prog.obeys_bind fun eventId => Prog.obeys_bind (Prog.obeys_ofExcept ?_ fun _ _ => trivial)
    intro q hq
    have hkey : q.idempotencyKey = keyOf event r := (builtFrom_of_ok hq).2.2.key
    have hallow : copying.allow l (.reserve q.idempotencyKey) := by
      refine ⟨⟨(event, r), ?_, hg, hkey⟩, fun hnodup hmem => ?_⟩
      · rw [hlisted]
        exact List.mem_map_of_mem (List.mem_append_right _ List.mem_cons_self)
      · -- the key of an entry before is the key of another relationship
        obtain ⟨r', hr', hk⟩ := List.mem_map.1 (htried _ hmem)
        have hid := keyOf_inj (hk.trans hkey)
        rw [hlisted, List.map_map, List.map_append, List.nodup_append] at hnodup
        exact hnodup.2.2 _ (List.mem_map_of_mem hr') _ (List.mem_map_of_mem List.mem_cons_self) hid
    have htried' : ∀ k ∈ q.idempotencyKey :: l.tried, k ∈ (done ++ [r]).map (keyOf event) := by
      intro k hk
      rcases List.mem_cons.1 hk with rfl | hk
      · rw [hkey]
        exact List.mem_map_of_mem (List.mem_append_right _ List.mem_cons_self)
      · exact hmore k (htried k hk)
    refine Prog.obeys_bind (Prog.obeys_call hallow (fun reserved => ?_) fun _ => trivial)
    cases reserved with
    | false => exact ih (done ++ [r]) _ hlisted' htried'
    | true => exact ih (done ++ [r]) _ hlisted' htried'

theorem ProcessorCall.keeps {q : Prog CopyEngine Unit} (h : ProcessorCall q) : q.Keeps copying {} := by
  cases h with
  | process event =>
    refine Prog.obeys_bind (Prog.obeys_bind (Prog.obeys_call trivial (fun rels => ?_) fun _ => trivial))
    have hloop := build_keeps_copying event rels [] {}
      (l := { listed := rels.map (event, ·) }) rfl (by simp)
    exact hloop.mono (fun _ _ _ => trivial) fun _ _ h => h
  | release key => exact Prog.obeys_call trivial (fun _ => trivial) fun _ => trivial

/-- What stands in the list was listed by a call of the trace, and is all that it listed. -/
theorem copying_listed {tr : List (Entry CopyEngine)} {i : ℕ}
    {p : NormalizedOrderEvent × CopyRelationship} (h : p ∈ (copying.at {} tr i).listed) :
    ∃ rels, ⟨i, .listActiveForEvent p.1, .ok rels⟩ ∈ tr ∧ p.2 ∈ rels ∧
      (copying.at {} tr i).listed = rels.map (p.1, ·) := by
  induction tr with
  | nil => cases h
  | cons e tr ih =>
    have older : (copying.at {} (e :: tr) i).listed = (copying.at {} tr i).listed →
        ∃ rels, ⟨i, .listActiveForEvent p.1, .ok rels⟩ ∈ e :: tr ∧ p.2 ∈ rels ∧
          (copying.at {} (e :: tr) i).listed = rels.map (p.1, ·) := by
      intro heq
      rw [heq] at h ⊢
      obtain ⟨rels, hm, hp, hl⟩ := ih h
      exact ⟨rels, List.mem_cons_of_mem _ hm, hp, hl⟩
    by_cases hi : e.who = i
    swap
    · exact older (by rw [copying.at_other tr hi])
    subst hi
    obtain ⟨i, c, r⟩ := e
    rw [copying.at_self] at h older ⊢
    cases c with
    | listActiveForEvent event =>
      rcases r with e | rels
      · exact older rfl
      · obtain ⟨r, hr, rfl⟩ := List.mem_map.1 h
        exact ⟨rels, List.mem_cons_self, hr, rfl⟩
    | reserve key => exact older rfl
    | release key => exact older rfl
    | record q => exact older rfl
    | markPublished q => exact older rfl
    | publishJson s q => exact older rfl
    | insertResult q => exact older rfl
    | updateRequestFromResult id st => exact older rfl

/-- A reservation of the trace was tried. -/
theorem copying_tried {tr : List (Entry CopyEngine)} {i : ℕ} {key : String}
    {r : CopyEngine.Reply (.reserve key)} (h : ⟨i, .reserve key, r⟩ ∈ tr) :
    key ∈ (copying.at {} tr i).tried := by
  induction tr with
  | nil => cases h
  | cons e tr ih =>
    rcases List.mem_cons.1 h with rfl | h
    · rw [copying.at_self]
      exact List.mem_cons_self
    · have hold := ih h
      by_cases hi : e.who = i
      swap
      · rwa [copying.at_other tr hi]
      subst hi
      obtain ⟨i, c, r⟩ := e
      rw [copying.at_self]
      cases c with
      | listActiveForEvent event =>
        rcases r with e | rels
        · exact hold
        · exact hold
      | reserve k => exact List.mem_cons_of_mem _ hold
      | release k => exact hold
      | record q => exact hold
      | markPublished q => exact hold
      | publishJson s q => exact hold
      | insertResult q => exact hold
      | updateRequestFromResult id st => exact hold

/-! ## Where a reserved key comes from -/

variable {M : Machine CopyEngine} [IdempotencyStore M]

/-- **Only a reservation reserves a key.** -/
theorem rise_is_reserve {p p' : Pool M} {x : Input M} {key : String} (h : p.step? x = some p')
    (hfree : ¬ Reserved p.state key) (hheld : Reserved p'.state key) :
    ∃ j f k, x = .turn j f ∧ p.running[j]? = some (.await (.reserve key) k) ∧
      ∃ r, p'.trace = ⟨j, .reserve key, r⟩ :: p.trace := by
  rcases Pool.step_cases h with ⟨q, -, rfl⟩ | ⟨i, f, k, -, -, rfl⟩ |
    ⟨j, f, c, k, r, s, rfl, hj, hs, rfl⟩ | ⟨m, s, -, hm, rfl⟩
  · exact absurd hheld hfree
  · exact absurd (((IdempotencyStore.draw p.state).1 key).1 hheld) hfree
  · rcases Machine.serve_state hs with ⟨-, a, ha⟩ | ⟨-, rfl⟩
    swap
    · exact absurd hheld hfree
    by_cases hreserve : ∃ k', c = .reserve k'
    · obtain ⟨k', rfl⟩ := hreserve
      rcases IdempotencyStore.reserve ha with ⟨-, -, rfl⟩ | ⟨-, -, hres, -⟩
      · exact absurd hheld hfree
      · rcases (hres key).1 hheld with hold | rfl
        · exact absurd hold hfree
        · exact ⟨j, f, k, rfl, hj, r, rfl⟩
    by_cases hrelease : ∃ k', c = .release k'
    · obtain ⟨k', rfl⟩ := hrelease
      have hkept := ((IdempotencyStore.release ha).1 key).1 hheld
      exact absurd hkept.1 hfree
    · have hsame := IdempotencyStore.others c p.state (a, s) (fun k' hc => hreserve ⟨k', hc⟩)
        (fun k' hc => hrelease ⟨k', hc⟩) ha key
      exact absurd (hsame.1 hheld) hfree
  · exact absurd ((IdempotencyStore.move m p.state s hm key).1 hheld) hfree

/-- The next turn of execution `i` is a reservation for the relationship that the store answers
`False`: the loop counts a duplicate. -/
def CountsDuplicate (p : Pool M) (i : ℕ) (event : NormalizedOrderEvent) (r : CopyRelationship) :
    Prop :=
  ∃ p', p.step? (.turn i .works) = some p' ∧
    p'.trace = ⟨i, .reserve (keyOf event r), .ok false⟩ :: p.trace

/-- **Reserved before**: step `ys.length` of the run reserved the key, for an entry with the
relationship's id and an event with the event's key, and it has been reserved ever since. -/
structure ReservedBefore (s : M.State) (xs : List (Input M)) (event : NormalizedOrderEvent)
    (r : CopyRelationship) (j : ℕ) (ys : List (Input M)) (p₁ p₂ : Pool M) : Prop where
  earlier : ∃ f zs, xs = ys ++ .turn j f :: zs ∧ (Pool.init s).run? ys = some p₁ ∧
    p₁.step? (.turn j f) = some p₂ ∧ p₂.Always (Reserved · (keyOf event r)) zs
  free : ¬ Reserved p₁.state (keyOf event r)
  source : ∃ event' rels r', ⟨j, .listActiveForEvent event', .ok rels⟩ ∈ p₁.trace ∧ r' ∈ rels ∧
    passesGates event' r' = true ∧ r'.copyRelationshipId = r.copyRelationshipId ∧
    event'.idempotencyKey = event.idempotencyKey
  reserves : ∃ reply, p₂.trace = ⟨j, .reserve (keyOf event r), reply⟩ :: p₁.trace

/-- Execution `i` listed distinct entries. -/
def ListsDistinct (tr : List (Entry CopyEngine)) (i : ℕ) : Prop :=
  ∀ event rels, ⟨i, .listActiveForEvent event, .ok rels⟩ ∈ tr →
    (rels.map (·.copyRelationshipId)).Nodup

/-- A refused key is reserved. -/
theorem reserved_of_refused {p : Pool M} {i : ℕ} {event : NormalizedOrderEvent}
    {r : CopyRelationship} (h : CountsDuplicate p i event r) :
    Reserved p.state (keyOf event r) ∧
      ∃ k, p.running[i]? = some (.await (.reserve (keyOf event r)) k) := by
  obtain ⟨p', hstep, htrace⟩ := h
  rcases Pool.step_cases hstep with ⟨q, hx, -⟩ | ⟨j, f, k, -, -, rfl⟩ |
    ⟨j, f, c, k, reply, s', hx, hj, hs, rfl⟩ | ⟨m, s', hx, -⟩
  · cases hx
  · simp at htrace
  · cases hx
    obtain ⟨hentry, -⟩ := List.cons.inj htrace
    cases hentry
    obtain ⟨-, he⟩ := Machine.serve_ok hs
    rcases IdempotencyStore.reserve he with ⟨-, hheld, -⟩ | ⟨hfalse, -⟩
    · exact ⟨hheld, k, hj⟩
    · cases hfalse
  · cases hx

/-- **A refused reservation goes back to one for the same copy.** Where its execution listed
distinct entries, it is one of another execution. -/
theorem refused_after_reserved {s : M.State} (hempty : ∀ k, ¬ Reserved s k) {xs : List (Input M)}
    (hcalls : ∀ q : Prog CopyEngine Unit, Input.begin q ∈ xs → ProcessorCall q) {p : Pool M}
    (hrun : (Pool.init s).run? xs = some p) {i : ℕ} {event : NormalizedOrderEvent}
    {r : CopyRelationship} (hdup : CountsDuplicate p i event r) :
    ∃ j ys p₁ p₂, ReservedBefore s xs event r j ys p₁ p₂ ∧ (ListsDistinct p.trace i → j ≠ i) := by
  obtain ⟨hheld, k, hi⟩ := reserved_of_refused hdup
  obtain ⟨ys, x, zs, p₁, p₂, rfl, hys, hx, hzs, hfree, hal⟩ :=
    Pool.run_rise (R := fun t => Reserved t (keyOf event r)) (p := Pool.init s) (hempty _) hrun hheld
  have hstarted : ∀ {ws : List (Input M)}, (∀ y ∈ ws, y ∈ ys ++ x :: zs) → Started copying {} ws :=
    fun hws q hq => (hcalls q (hws _ hq)).keeps
  have hok : ∀ {ws : List (Input M)} {q : Pool M}, (∀ y ∈ ws, y ∈ ys ++ x :: zs) →
      (Pool.init s).run? ws = some q → q.OK copying {} := by
    intro ws q hws hq
    have hinv : Async.Invariant M copying {} fun _ _ => True :=
      ⟨fun _ _ h => h, fun _ _ _ _ h _ => h, fun _ _ _ _ _ _ _ h _ _ => h⟩
    exact (Pool.run_inv hinv (hstarted hws) (Pool.init_ok s) trivial hq).2
  have hheld₂ : Reserved p₂.state (keyOf event r) := hal [] zs p₂ rfl rfl
  obtain ⟨j, f, k₁, rfl, hj, reply, htrace⟩ := rise_is_reserve hx hfree hheld₂
  have hok₁ : p₁.OK copying {} := hok (fun y hy => List.mem_append_left _ hy) hys
  obtain ⟨⟨⟨⟨event', r'⟩, hmem, hg, hkey⟩, -⟩, -⟩ := hok₁.keeps j _ hj
  obtain ⟨rels, hlist, hr', -⟩ := copying_listed hmem
  obtain ⟨hid, hevent⟩ := copyKey_inj hkey
  refine ⟨j, ys, p₁, p₂, ⟨⟨f, zs, rfl, hys, hx, hal⟩, hfree,
    ⟨event', rels, r', hlist, hr', hg, hid.symm, hevent.symm⟩, reply, htrace⟩, ?_⟩
  -- an execution that lists distinct entries tries each key once
  rintro hdistinct rfl
  have hokp : p.OK copying {} := hok (fun y hy => hy) hrun
  obtain ⟨⟨⟨q, hq, -⟩, honce⟩, -⟩ := hokp.keeps j _ hi
  obtain ⟨rels', hlist', -, heq⟩ := copying_listed hq
  have htried : keyOf event r ∈ (copying.at {} p.trace j).tried := by
    have hsuffix : p₂.trace <:+ p.trace := Pool.run_trace hzs
    refine copying_tried (r := reply) (hsuffix.mem ?_)
    rw [htrace]
    exact List.mem_cons_self
  refine honce ?_ htried
  rw [heq, List.map_map]
  exact hdistinct _ _ hlist'

/-! ## The counter -/

/-- A reservation that the store refused. -/
def refused : Served CopyEngine → Bool
  | ⟨.reserve _, .ok false⟩ => true
  | _ => false

omit [IdempotencyStore M] in
/-- **The counter of duplicates** counts the refused reservations of its execution. -/
theorem duplicates_counted (event : NormalizedOrderEvent) : ∀ (rels : List CopyRelationship)
    {acc res : ProcessingResult} {fs : List (Fault PyException)} {s : M.State}
    {o : Outcome M ProcessingResult},
    (buildRequestsForRelationships event rels acc).exec? M fs s = some o → o.ending = .returned res →
      res.skippedDuplicates = acc.skippedDuplicates + o.calls.countP refused := by
  intro rels
  induction rels with
  | nil =>
    intro acc res fs s o h hend
    have h : (Prog.done acc : Prog CopyEngine ProcessingResult).exec? M fs s = some o := h
    rw [Prog.exec_done] at h
    cases h; cases hend
    simp
  | cons r rest ih =>
    intro acc res fs s o h hend
    rcases build_cons event r rest acc with ⟨-, heq⟩ | ⟨-, heq⟩
    swap
    · rw [heq] at h
      rw [ih h hend, (skip_spec event r acc).2.1]
    rw [heq] at h
    simp only [reserveFor, Prog.name, Prog.bind_fresh, Prog.bind_done, Prog.exec_fresh] at h
    cases hq : buildFor event (M.draw s).1 r with
    | error e =>
      rw [hq, Prog.ofExcept_error, Prog.bind_fail, Prog.exec_fail] at h
      cases h; cases hend
    | ok q =>
      rw [hq, Prog.ofExcept_ok, Prog.bind_done] at h
      rcases Prog.exec_call_bind h with ⟨-, rfl⟩ | ⟨fs', a, s', o', -, -, h', rfl⟩ |
        ⟨f, fs', e, s', -, -, -, rfl⟩
      · cases hend
      · cases a with
        | false =>
          rw [ih h' hend, Outcome.after_calls, List.countP_append]
          show acc.skippedDuplicates + 1 + _ = acc.skippedDuplicates + (1 + _)
          omega
        | true =>
          rw [ih h' hend, Outcome.after_calls, List.countP_append]
          show acc.skippedDuplicates + _ = acc.skippedDuplicates + (0 + _)
          omega
      · cases hend

/-! ## Two events -/

/-- A processing of an event, with what the provider lists, on a store that works: a
reservation raises where the store refuses the key, and no other call does. -/
def Handles (refusal : PyException) (event : NormalizedOrderEvent) (s : M.State)
    (ending : Ending PyException ProcessingResult) (s' : M.State) : Prop :=
  ending ≠ .stopped ∧ ∃ fs calls rest,
    (processNormalizedOrderEvent event).exec? M fs s = some ⟨ending, s', calls, rest⟩ ∧
      RaisesRefused M refusal calls

/-- The same requests up to their fresh ids, or the same exception. -/
def SameRequests : Ending PyException ProcessingResult → Ending PyException ProcessingResult → Prop
  | .returned res, .returned res' => res.requests.map (·.withoutId) = res'.requests.map (·.withoutId)
  | .raised e, .raised e' => e = e'
  | _, _ => False

variable (M) in
/-- The entries before the first one that passes the gates and cannot be reserved. -/
def valid (event : NormalizedOrderEvent) (rels : List CopyRelationship) : List CopyRelationship :=
  rels.takeWhile fun r => !passesGates event r || Reservable M event r

variable {refusal : PyException} {event event' : NormalizedOrderEvent} {s s' : M.State}
  {ending : Ending PyException ProcessingResult}

theorem handles_exec (refusal : PyException) (event : NormalizedOrderEvent) (s : M.State) : ∃ ending s',
    Handles refusal event s ending s' ∧
      LoopEnds refusal event (IdempotencyStore.listed s event) {} s ending s' ∧
      IdempotencyStore.listed s' = IdempotencyStore.listed s := by
  obtain ⟨fs, o, ho, -, hraises, hends, hlisted⟩ := build_exec refusal event
    (IdempotencyStore.listed s event) {} (IdempotencyStore.listed s event).length s le_rfl
  have hrun := Prog.exec_call_works (c := Call.listActiveForEvent event)
    (k := fun rels => buildRequestsForRelationships event rels {}) (IdempotencyStore.list event s) ho
  refine ⟨_, _, ⟨?_, _, _, _, hrun, hraises.works⟩, hends, hlisted⟩
  intro hstopped
  have hstopped : o.ending = .stopped := hstopped
  rw [hstopped] at hends
  exact hends

theorem reservable_of_pass {l : List CopyRelationship} (h : ∀ r ∈ passing event l, Reservable M event r) :
    ∀ r ∈ l, (!passesGates event r || Reservable M event r) = true := by
  intro r hr
  by_cases hg : passesGates event r = true
  · have hres := h r (List.mem_filter.2 ⟨hr, hg⟩)
    simp [hres]
  · simp [hg]

/-- The entries before the one that the loop ended at. -/
theorem valid_of_ends {pre post : List CopyRelationship} {r : CopyRelationship} {e : PyException}
    (hpre : ∀ r' ∈ passing event pre, Reservable M event r') (hg : passesGates event r = true)
    (he : EndsAt M refusal event r e) : valid M event (pre ++ r :: post) = pre := by
  have hr := he.not_reservable
  unfold valid
  rw [List.takeWhile_append_of_pos (reservable_of_pass hpre),
    List.takeWhile_cons_of_neg (by simp [hg, hr]), List.append_nil]

theorem LoopEnds.keys {rels : List CopyRelationship} {acc : ProcessingResult}
    (h : LoopEnds refusal event rels acc s ending s') : KeysAfter event (valid M event rels) s s' := by
  cases ending with
  | returned res =>
    obtain ⟨hres, -, -, hk⟩ := h
    unfold valid
    rwa [List.takeWhile_eq_self_iff.2 (reservable_of_pass hres)]
  | raised e =>
    obtain ⟨pre, r, post, rfl, hpre, hg, he, hk⟩ := h
    rwa [valid_of_ends hpre hg he]
  | stopped => exact absurd h id

/-- What a loop ends with depends on the keys of its own event. -/
theorem LoopEnds.same {rels : List CopyRelationship} {t t' : M.State}
    {ending' : Ending PyException ProcessingResult} (h : LoopEnds refusal event rels {} s ending s')
    (h' : LoopEnds refusal event rels {} t ending' t')
    (hsame : chosen event (Reserved t) rels = chosen event (Reserved s) rels) :
    SameRequests ending ending' := by
  have hbad : ∀ {pre post : List CopyRelationship} {r : CopyRelationship} {e : PyException},
      passesGates event r = true → EndsAt M refusal event r e →
      ¬ ∀ r' ∈ passing event (pre ++ r :: post), Reservable M event r' := by
    intro pre post r e hg he hall
    exact he.not_reservable (hall r (by simp [passing, hg]))
  cases ending with
  | returned res =>
    cases ending' with
    | returned res' =>
      have hbuilt := h.processed.built
      have hbuilt' := h'.processed.built
      rw [hsame] at hbuilt'
      exact (copies_withoutId hbuilt).trans (copies_withoutId hbuilt').symm
    | raised e' =>
      obtain ⟨pre, r, post, rfl, -, hg, he, -⟩ := h'
      exact absurd h.1 (hbad hg he)
    | stopped => exact absurd h' id
  | raised e =>
    cases ending' with
    | returned res' =>
      obtain ⟨pre, r, post, rfl, -, hg, he, -⟩ := h
      exact absurd h'.1 (hbad hg he)
    | raised e' =>
      obtain ⟨pre, r, post, rfl, hpre, hg, he, -⟩ := h
      obtain ⟨pre', r', post', hsplit, hpre', hg', he', -⟩ := h'
      -- both ended at the first entry that cannot be reserved
      have hvalid : valid M event (pre ++ r :: post) = pre := valid_of_ends hpre hg he
      have hlen : pre = pre' := by
        rw [← hvalid, hsplit, valid_of_ends hpre' hg' he']
      subst hlen
      obtain ⟨rfl, -⟩ := List.cons.inj (List.append_cancel_left hsplit)
      exact he.unique he'
    | stopped => exact absurd h' id
  | stopped => exact absurd h id

/-- **Another event's keys** do not matter. -/
theorem chosen_independent (hkey : event.idempotencyKey ≠ event'.idempotencyKey)
    {rels : List CopyRelationship} (h : KeysAfter event rels s s') (rels' : List CopyRelationship) :
    chosen event' (Reserved s') rels' = chosen event' (Reserved s) rels' := by
  have hsame : ∀ r, Reserved s' (keyOf event' r) ↔ Reserved s (keyOf event' r) := by
    intro r
    rw [h]
    refine or_iff_left fun hmem => ?_
    obtain ⟨r', -, hk⟩ := List.mem_map.1 hmem
    exact hkey (copyKey_inj hk).2
  unfold chosen
  simp only [hsame]

/-- **Processing commutes** for events with different keys. -/
theorem handles_commute (refusal : PyException) (hkey : event.idempotencyKey ≠ event'.idempotencyKey)
    (s : M.State) : ∃ a b b' a' s₁ s₂ t₁ t₂, Handles refusal event s a s₁ ∧
      Handles refusal event' s₁ b s₂ ∧ Handles refusal event' s b' t₁ ∧
      Handles refusal event t₁ a' t₂ ∧ SameRequests a a' ∧ SameRequests b b' ∧
      ∀ k, Reserved s₂ k ↔ Reserved t₂ k := by
  obtain ⟨a, s₁, ha, haends, halist⟩ := handles_exec refusal event s
  obtain ⟨b, s₂, hb, hbends, -⟩ := handles_exec refusal event' s₁
  obtain ⟨b', t₁, hb', hb'ends, hb'list⟩ := handles_exec refusal event' s
  obtain ⟨a', t₂, ha', ha'ends, -⟩ := handles_exec refusal event t₁
  rw [halist] at hbends
  rw [hb'list] at ha'ends
  have hsame := chosen_independent hkey haends.keys
  have hsame' := chosen_independent (Ne.symm hkey) hb'ends.keys
  refine ⟨a, b, b', a', s₁, s₂, t₁, t₂, ha, hb, hb', ha', haends.same ha'ends (hsame' _),
    hbends.same hb'ends (hsame _).symm, fun k => ?_⟩
  rw [hbends.keys k, haends.keys k, ha'ends.keys k, hb'ends.keys k, hsame, hsame', or_right_comm]

/-- **Copies never suppress each other**, on any store that keeps a set of keys. -/
theorem suppressed_only_by_itself (M : Machine CopyEngine) [IdempotencyStore M] :
    (∀ (s : M.State) (xs : List (Input M)) (p : Pool M) (i : ℕ) (event : NormalizedOrderEvent)
      (r : CopyRelationship), (∀ k, ¬ Reserved s k) →
      (∀ q : Prog CopyEngine Unit, Input.begin q ∈ xs → ProcessorCall q) →
      (Pool.init s).run? xs = some p → CountsDuplicate p i event r →
      ∃ j ys p₁ p₂, ReservedBefore s xs event r j ys p₁ p₂ ∧ (ListsDistinct p.trace i → j ≠ i)) ∧
    (∀ (event : NormalizedOrderEvent) (rels : List CopyRelationship) (fs : List (Fault PyException))
      (s : M.State) (o : Outcome M ProcessingResult) (res : ProcessingResult),
      (buildRequestsForRelationships event rels {}).exec? M fs s = some o →
      o.ending = .returned res → res.skippedDuplicates = o.calls.countP refused) ∧
    (∀ (a b : UUID) (k l : String), copyKey a k = copyKey b l → a = b ∧ k = l) ∧
    ∀ (refusal : PyException) (event event' : NormalizedOrderEvent) (s : M.State),
      event.idempotencyKey ≠ event'.idempotencyKey →
      ∃ a b b' a' s₁ s₂ t₁ t₂, Handles refusal event s a s₁ ∧ Handles refusal event' s₁ b s₂ ∧
        Handles refusal event' s b' t₁ ∧ Handles refusal event t₁ a' t₂ ∧ SameRequests a a' ∧
        SameRequests b b' ∧ ∀ k, Reserved s₂ k ↔ Reserved t₂ k := by
  refine ⟨?_, ?_, fun a b k l h => copyKey_inj h,
    fun refusal event event' s hkey => handles_commute refusal hkey s⟩
  · intro s xs p i event r hempty hcalls hrun hdup
    exact refused_after_reserved hempty hcalls hrun hdup
  · intro event rels fs s o res h hend
    have hcount := duplicates_counted event rels h hend
    rw [hcount]
    exact Nat.zero_add _

/-- The sample event, processed twice up to its second reservation. -/
def processedTwice : List (Input (engine Unit)) :=
  [.begin (processNormalizedOrderEvent sampleEvent >>= fun _ => pure ()), .turn 0 .works,
    .turn 0 .works, .turn 0 .works,
    .begin (processNormalizedOrderEvent sampleEvent >>= fun _ => pure ()), .turn 1 .works,
    .turn 1 .works]

/-- The second processing of an event counts a duplicate on account of the first. -/
theorem suppressed_only_by_itself_twice : ∃ j ys p₁ p₂,
    ReservedBefore (M := engine Unit) (World.start [sampleRelationship] ()) processedTwice sampleEvent
      sampleRelationship j ys p₁ p₂ ∧ j ≠ 1 := by
  have hcalls : ∀ q : Prog CopyEngine Unit, Input.begin q ∈ processedTwice → ProcessorCall q := by
    intro q hq
    have hq : q = (processNormalizedOrderEvent sampleEvent >>= fun _ => pure ()) := by
      simpa [processedTwice] using hq
    rw [hq]
    exact .process sampleEvent
  have hdup : ∃ p, (Pool.init (World.start [sampleRelationship] ())).run? processedTwice = some p ∧
      CountsDuplicate p 1 sampleEvent sampleRelationship ∧ ListsDistinct p.trace 1 := by
    refine ⟨_, rfl, ⟨_, rfl, rfl⟩, fun event rels hlist => ?_⟩
    rcases List.mem_cons.1 hlist with h | h
    · cases h
      decide
    · rcases List.mem_cons.1 h with h | h
      · cases h
      · rcases List.mem_cons.1 h with h | h
        · cases h
        · cases h
  obtain ⟨p, hrun, hdup, hdistinct⟩ := hdup
  obtain ⟨j, ys, p₁, p₂, hbefore, hj⟩ := (suppressed_only_by_itself (engine Unit)).1
    (World.start [sampleRelationship] ()) processedTwice p 1 sampleEvent sampleRelationship
    (fun k hk => Sql.Table.not_mem_empty _ hk) hcalls hrun hdup
  exact ⟨j, ys, p₁, p₂, hbefore, hj hdistinct⟩

end CopyTrade
