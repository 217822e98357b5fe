import CopyTrade.Proof.Building
import CopyTrade.Spec.Idempotency
import Mathlib.Data.List.Perm.Basic

/-!
# What processing an event comes to

The loop changes the store while it runs, so what it does with an entry depends on the
entries before it. What it comes to does not: of each relationship the first entry that
passes the gates is copied, unless its key was reserved before the loop began.

* `firstOfEach_filter`: taking a key away later is the same as not listing its entries.
* `build_exec`: the loop on any store that does not fail, by induction over the list. It ends
  at the first entry whose request cannot be built or whose key the store refuses.
* `processing_exact`: the result, the counters and the store of one processing, on a store
  that refuses no key.
-/

namespace CopyTrade

open Async (Machine Prog Fault Ending Outcome Served)

/-! ## The specification -/

/-- Of each relationship the first entry. -/
def firstOfEach : List CopyRelationship → List CopyRelationship
  | [] => []
  | r :: rest =>
    r :: (firstOfEach rest).filter fun r' => r'.copyRelationshipId ≠ r.copyRelationshipId

/-- The entries that are copied: of each relationship whose key is not reserved, the first
entry that passes the gates. -/
def chosen (event : NormalizedOrderEvent) (reserved : String → Prop) [DecidablePred reserved]
    (rels : List CopyRelationship) : List CopyRelationship :=
  firstOfEach ((passing event rels).filter fun r => ¬ reserved (keyOf event r))

theorem mem_ids_firstOfEach {rels : List CopyRelationship} {id : UUID} :
    id ∈ (firstOfEach rels).map (·.copyRelationshipId) ↔ id ∈ rels.map (·.copyRelationshipId) := by
  induction rels with
  | nil => exact Iff.rfl
  | cons r rest ih =>
    rw [firstOfEach, List.map_cons, List.mem_cons, List.map_cons, List.mem_cons]
    by_cases hid : id = r.copyRelationshipId
    · simp [hid]
    · rw [← ih]
      simp only [hid, false_or, List.mem_map, List.mem_filter]
      constructor
      · rintro ⟨r', ⟨hr', -⟩, rfl⟩
        exact ⟨r', hr', rfl⟩
      · rintro ⟨r', hr', rfl⟩
        exact ⟨r', ⟨hr', by simpa using hid⟩, rfl⟩

theorem nodup_firstOfEach (rels : List CopyRelationship) :
    ((firstOfEach rels).map (·.copyRelationshipId)).Nodup := by
  induction rels with
  | nil => exact List.nodup_nil
  | cons r rest ih =>
    rw [firstOfEach, List.map_cons, List.nodup_cons]
    refine ⟨fun hmem => ?_, ih.sublist (List.filter_sublist.map _)⟩
    obtain ⟨r', hr', hid⟩ := List.mem_map.1 hmem
    have hne := (List.mem_filter.1 hr').2
    simp [hid] at hne

/-- Distinct entries are all first. -/
theorem firstOfEach_eq_self {rels : List CopyRelationship}
    (h : (rels.map (·.copyRelationshipId)).Nodup) : firstOfEach rels = rels := by
  induction rels with
  | nil => rfl
  | cons r rest ih =>
    rw [List.map_cons, List.nodup_cons] at h
    rw [firstOfEach, ih h.2]
    congr 1
    refine List.filter_eq_self.2 fun r' hr' => ?_
    have hne : r'.copyRelationshipId ≠ r.copyRelationshipId := by
      intro hid
      exact h.1 (hid ▸ List.mem_map_of_mem hr')
    simpa using hne

/-- Relationships can be left out before or after. -/
theorem firstOfEach_filter {p : CopyRelationship → Bool}
    (hp : ∀ a b : CopyRelationship, a.copyRelationshipId = b.copyRelationshipId → p a = p b)
    (rels : List CopyRelationship) : firstOfEach (rels.filter p) = (firstOfEach rels).filter p := by
  induction rels with
  | nil => rfl
  | cons r rest ih =>
    by_cases hr : p r = true
    · rw [List.filter_cons_of_pos hr, firstOfEach, firstOfEach, List.filter_cons_of_pos hr, ih]
      congr 1
      rw [List.filter_filter, List.filter_filter]
      exact List.filter_congr fun r' _ => Bool.and_comm _ _
    · rw [List.filter_cons_of_neg hr, firstOfEach, List.filter_cons_of_neg hr, ih, List.filter_filter]
      refine List.filter_congr fun r' _ => ?_
      by_cases hid : r'.copyRelationshipId = r.copyRelationshipId
      · simp [hp r' r hid, hr]
      · simp [hid]

variable {event : NormalizedOrderEvent} {reserved reserved' : String → Prop}
  [DecidablePred reserved] [DecidablePred reserved']

theorem chosen_skip {r : CopyRelationship} (hg : passesGates event r = false)
    (rest : List CopyRelationship) : chosen event reserved (r :: rest) = chosen event reserved rest := by
  unfold chosen passing
  rw [List.filter_cons_of_neg (by simp [hg])]

theorem chosen_taken {r : CopyRelationship} (hg : passesGates event r = true)
    (hheld : reserved (keyOf event r)) (rest : List CopyRelationship) :
    chosen event reserved (r :: rest) = chosen event reserved rest := by
  unfold chosen passing
  rw [List.filter_cons_of_pos hg, List.filter_cons_of_neg (by simpa using hheld)]

/-- A relationship is copied, and from then on its key is reserved. -/
theorem chosen_took {r : CopyRelationship} (hg : passesGates event r = true)
    (hfree : ¬ reserved (keyOf event r))
    (hres : ∀ k, reserved' k ↔ reserved k ∨ k = keyOf event r) (rest : List CopyRelationship) :
    chosen event reserved (r :: rest) = r :: chosen event reserved' rest := by
  unfold chosen passing
  rw [List.filter_cons_of_pos hg, List.filter_cons_of_pos (by simpa using hfree), firstOfEach]
  congr 1
  rw [← firstOfEach_filter (by intro a b h; simp [h]), List.filter_filter]
  congr 1
  refine List.filter_congr fun r' _ => ?_
  have hkey : keyOf event r' = keyOf event r ↔ r'.copyRelationshipId = r.copyRelationshipId :=
    ⟨keyOf_inj, fun h => by unfold keyOf; rw [h]⟩
  by_cases hid : r'.copyRelationshipId = r.copyRelationshipId
  · simp [hres, hkey, hid]
  · simp [hres, hkey, hid]

/-! ## The loop -/

open IdempotencyStore (Reserved Accepts)

variable {M : Machine CopyEngine} [IdempotencyStore M]

variable (M) in
/-- The request of an entry can be built, and its key is one that the store takes. -/
def Reservable (event : NormalizedOrderEvent) (r : CopyRelationship) : Prop :=
  Buildable r ∧ Accepts M (keyOf event r)

instance (event : NormalizedOrderEvent) (r : CopyRelationship) : Decidable (Reservable M event r) :=
  inferInstanceAs (Decidable (_ ∧ _))

/-- **One turn of the loop** on a store that works. -/
theorem reserveFor_works (event : NormalizedOrderEvent) {r : CopyRelationship} (hr : Reservable M event r)
    (rest : List CopyRelationship) (acc : ProcessingResult) (s : M.State) :
    (Reserved s (keyOf event r) ∧
      ∀ fs o, (buildRequestsForRelationships event rest
          { acc with skippedDuplicates := acc.skippedDuplicates + 1 }).exec? M fs (M.draw s).2 = some o →
        (reserveFor event r rest acc).exec? M (.works :: fs) s =
          some (o.after [⟨Call.reserve (keyOf event r), .ok false⟩])) ∨
    (¬ Reserved s (keyOf event r) ∧ ∃ q s', buildFor event (M.draw s).1 r = .ok q ∧
      (∀ k, Reserved s' k ↔ Reserved s k ∨ k = keyOf event r) ∧
      IdempotencyStore.listed s' = IdempotencyStore.listed s ∧
      ∀ fs o, (buildRequestsForRelationships event rest
          { acc with requests := acc.requests ++ [q] }).exec? M fs s' = some o →
        (reserveFor event r rest acc).exec? M (.works :: fs) s =
          some (o.after [⟨Call.reserve (keyOf event r), .ok true⟩])) := by
  obtain ⟨hdraw, hlist⟩ := IdempotencyStore.draw s
  rcases build_spec event (M.draw s).1 r with ⟨-, q, hq, -, hbuilt⟩ | ⟨hnot, -⟩
  swap
  · exact absurd hr.1 hnot
  have hkey : q.idempotencyKey = keyOf event r := hbuilt.key
  simp only [reserveFor, Prog.name, Prog.bind_fresh, Prog.bind_done, Prog.exec_fresh]
  rw [hq, Prog.ofExcept_ok, Prog.bind_done]
  have htaken : Accepts M q.idempotencyKey := hkey ▸ hr.2
  obtain ⟨⟨b, s'⟩, he⟩ :=
    Option.isSome_iff_exists.1 ((IdempotencyStore.accepts q.idempotencyKey (M.draw s).2).2 htaken)
  rcases IdempotencyStore.reserve he with ⟨rfl, hheld, rfl⟩ | ⟨rfl, hfree, hres, hl⟩
  · rw [hdraw, hkey] at hheld
    exact Or.inl ⟨hheld, fun fs o ho => hkey ▸ Prog.exec_call_works he ho⟩
  · rw [hdraw, hkey] at hfree
    refine Or.inr ⟨hfree, q, s', rfl, fun k => ?_, hl.trans hlist,
      fun fs o ho => hkey ▸ Prog.exec_call_works he ho⟩
    rw [hres, hdraw, hkey]

omit [IdempotencyStore M] in
/-- A relationship without an account or a symbol ends the loop. -/
theorem reserveFor_invalid (event : NormalizedOrderEvent) {r : CopyRelationship} (hb : ¬ Buildable r)
    (rest : List CopyRelationship) (acc : ProcessingResult) (fs : List (Fault PyException))
    (s : M.State) : (reserveFor event r rest acc).exec? M fs s =
      some ⟨.raised validationError, (M.draw s).2, [], fs⟩ := by
  simp only [reserveFor, Prog.name, Prog.bind_fresh, Prog.bind_done, Prog.exec_fresh]
  rcases build_spec event (M.draw s).1 r with ⟨hyes, -⟩ | ⟨-, he⟩
  · exact absurd hyes hb
  · rw [he, Prog.ofExcept_error, Prog.bind_fail, Prog.exec_fail]

omit [IdempotencyStore M] in
/-- A reservation that raises ends the loop. -/
theorem reserveFor_raises (event : NormalizedOrderEvent) {r : CopyRelationship} (hb : Buildable r)
    (rest : List CopyRelationship) (acc : ProcessingResult) (e : PyException)
    (fs : List (Fault PyException)) (s : M.State) :
    (reserveFor event r rest acc).exec? M (.before e :: fs) s =
      some ⟨.raised e, (M.draw s).2, [⟨.reserve (keyOf event r), .error e⟩], fs⟩ := by
  rcases build_spec event (M.draw s).1 r with ⟨-, q, hq, -, hbuilt⟩ | ⟨hnot, -⟩
  swap
  · exact absurd hb hnot
  simp only [reserveFor, Prog.name, Prog.bind_fresh, Prog.bind_done, Prog.exec_fresh]
  rw [hq, Prog.ofExcept_ok, Prog.bind_done, hbuilt.key]
  rfl

/-- The request is the entry's, with an id of its own. -/
def Copies (event : NormalizedOrderEvent) (r : CopyRelationship) (q : CopyExecutionRequest) : Prop :=
  ∃ eventId, buildFor event eventId r = .ok q

/-- The keys after a loop are those before it and those of what was copied. -/
def KeysAfter (event : NormalizedOrderEvent) (rels : List CopyRelationship) (s s' : M.State) : Prop :=
  ∀ k, Reserved s' k ↔ Reserved s k ∨ k ∈ (chosen event (Reserved s) rels).map (keyOf event)

/-- Why the loop ended at an entry that passes the gates. -/
def EndsAt (M : Machine CopyEngine) [IdempotencyStore M] (refusal : PyException)
    (event : NormalizedOrderEvent) (r : CopyRelationship) (e : PyException) : Prop :=
  (e = validationError ∧ ¬ Buildable r) ∨
    (e = refusal ∧ Buildable r ∧ ¬ Accepts M (keyOf event r))

theorem EndsAt.not_reservable {refusal e : PyException} {r : CopyRelationship}
    (h : EndsAt M refusal event r e) : ¬ Reservable M event r := by
  rcases h with ⟨-, hb⟩ | ⟨-, -, ha⟩
  · exact fun hr => hb hr.1
  · exact fun hr => ha hr.2

/-- What is raised at an entry depends on the entry. -/
theorem EndsAt.unique {refusal e e' : PyException} {r : CopyRelationship}
    (h : EndsAt M refusal event r e) (h' : EndsAt M refusal event r e') : e = e' := by
  rcases h with ⟨rfl, hb⟩ | ⟨rfl, hb, -⟩
  · rcases h' with ⟨rfl, -⟩ | ⟨-, hb', -⟩
    · rfl
    · exact absurd hb' hb
  · rcases h' with ⟨-, hb'⟩ | ⟨rfl, -, -⟩
    · exact absurd hb hb'
    · rfl

/-- **How the loop ends**, from the result `acc`: with all requests where each entry that
passes the gates can be reserved, or at the first one that cannot. -/
def LoopEnds (refusal : PyException) (event : NormalizedOrderEvent) (rels : List CopyRelationship)
    (acc : ProcessingResult) (s : M.State) : Ending PyException ProcessingResult → M.State → Prop
  | .returned res, s' => (∀ r ∈ passing event rels, Reservable M event r) ∧
      (∃ qs, res.requests = acc.requests ++ qs ∧
        List.Forall₂ (Copies event) (chosen event (Reserved s) rels) qs) ∧
      res.considered = acc.considered + rels.length ∧ KeysAfter event rels s s'
  | .raised e, s' => ∃ pre r post, rels = pre ++ r :: post ∧
      (∀ r' ∈ passing event pre, Reservable M event r') ∧ passesGates event r = true ∧
      EndsAt M refusal event r e ∧ KeysAfter event pre s s'
  | .stopped, _ => False

variable {refusal : PyException} {r : CopyRelationship} {rest : List CopyRelationship}
  {acc : ProcessingResult} {s s₁ s' : M.State} {ending : Ending PyException ProcessingResult}

theorem passing_of_skip (hg : passesGates event r = false) (rels : List CopyRelationship) :
    passing event (r :: rels) = passing event rels := List.filter_cons_of_neg (by simp [hg])

theorem LoopEnds.skip (h : LoopEnds refusal event rest (skip event r acc) s ending s')
    (hg : passesGates event r = false) : LoopEnds refusal event (r :: rest) acc s ending s' := by
  obtain ⟨hrequests, -, hcount⟩ := skip_spec event r acc
  cases ending with
  | returned res =>
    obtain ⟨hb, hqs, hn, hk⟩ := h
    refine ⟨by rwa [passing_of_skip hg], ?_, ?_, ?_⟩
    · rwa [chosen_skip hg, ← hrequests]
    · rw [hn, hcount, List.length_cons]
      omega
    · unfold KeysAfter
      rwa [chosen_skip hg]
  | raised e =>
    obtain ⟨pre, r', post, rfl, hb, hg', he, hk⟩ := h
    refine ⟨r :: pre, r', post, rfl, by rwa [passing_of_skip hg], hg', he, ?_⟩
    unfold KeysAfter
    rwa [chosen_skip hg]
  | stopped => exact h

theorem passing_of_pass {Q : CopyRelationship → Prop} (hg : passesGates event r = true) (hr : Q r)
    {rels : List CopyRelationship} (h : ∀ r' ∈ passing event rels, Q r') :
    ∀ r' ∈ passing event (r :: rels), Q r' := by
  have hcons : passing event (r :: rels) = r :: passing event rels := List.filter_cons_of_pos hg
  rw [hcons]
  exact List.forall_mem_cons.2 ⟨hr, h⟩

/-- The key was reserved: a duplicate. -/
theorem LoopEnds.taken
    (h : LoopEnds refusal event rest { acc with skippedDuplicates := acc.skippedDuplicates + 1 } s₁
      ending s') (hg : passesGates event r = true) (hr : Reservable M event r)
    (hheld : Reserved s (keyOf event r)) (hsame : ∀ k, Reserved s₁ k ↔ Reserved s k) :
    LoopEnds refusal event (r :: rest) acc s ending s' := by
  have hchosen : ∀ rels, chosen event (Reserved s₁) rels = chosen event (Reserved s) (r :: rels) := by
    intro rels
    rw [chosen_taken hg hheld]
    unfold chosen
    simp only [hsame]
  have hkeys : ∀ {rels}, KeysAfter event rels s₁ s' → KeysAfter event (r :: rels) s s' := by
    intro rels hk k
    rw [hk k, hsame, hchosen]
  cases ending with
  | returned res =>
    obtain ⟨hall, hqs, hn, hk⟩ := h
    refine ⟨passing_of_pass hg hr hall, ?_, ?_, hkeys hk⟩
    · rwa [← hchosen]
    · rw [hn, List.length_cons]
      unfold ProcessingResult.considered
      dsimp only
      omega
  | raised e =>
    obtain ⟨pre, r', post, rfl, hall, hg', he, hk⟩ := h
    exact ⟨r :: pre, r', post, rfl, passing_of_pass hg hr hall, hg', he, hkeys hk⟩
  | stopped => exact h

/-- The key was free: a request. -/
theorem LoopEnds.took {q : CopyExecutionRequest}
    (h : LoopEnds refusal event rest { acc with requests := acc.requests ++ [q] } s₁ ending s')
    (hg : passesGates event r = true) (hr : Reservable M event r) (hq : Copies event r q)
    (hfree : ¬ Reserved s (keyOf event r))
    (hres : ∀ k, Reserved s₁ k ↔ Reserved s k ∨ k = keyOf event r) :
    LoopEnds refusal event (r :: rest) acc s ending s' := by
  have hchosen : ∀ rels, chosen event (Reserved s) (r :: rels) =
      r :: chosen event (Reserved s₁) rels := fun rels => chosen_took hg hfree hres rels
  have hkeys : ∀ {rels}, KeysAfter event rels s₁ s' → KeysAfter event (r :: rels) s s' := by
    intro rels hk k
    rw [hk k, hres, hchosen, List.map_cons, List.mem_cons, or_assoc]
  cases ending with
  | returned res =>
    obtain ⟨hall, ⟨qs, hqs, hcopies⟩, hn, hk⟩ := h
    refine ⟨passing_of_pass hg hr hall, ⟨q :: qs, ?_, ?_⟩, ?_, hkeys hk⟩
    · rw [hqs, List.append_assoc, List.singleton_append]
    · rw [hchosen]
      exact List.Forall₂.cons hq hcopies
    · rw [hn, List.length_cons]
      unfold ProcessingResult.considered
      simp only [List.length_append, List.length_singleton]
      omega
  | raised e =>
    obtain ⟨pre, r', post, rfl, hall, hg', he, hk⟩ := h
    exact ⟨r :: pre, r', post, rfl, passing_of_pass hg hr hall, hg', he, hkeys hk⟩
  | stopped => exact h

/-- The calls of an execution raised where the store refused a key, and nowhere else. -/
def RaisesRefused (M : Machine CopyEngine) [IdempotencyStore M] (refusal : PyException)
    (calls : List (Served CopyEngine)) : Prop :=
  ∀ c e, ⟨c, .error e⟩ ∈ calls → e = refusal ∧ ∃ key, c = .reserve key ∧ ¬ Accepts M key

theorem RaisesRefused.nil : RaisesRefused M refusal [] := fun _ _ h => absurd h List.not_mem_nil

theorem RaisesRefused.works {c : Call} {a : CopyEngine.Ret c} {calls : List (Served CopyEngine)}
    (h : RaisesRefused M refusal calls) : RaisesRefused M refusal (⟨c, .ok a⟩ :: calls) := by
  intro c' e hmem
  rcases List.mem_cons.1 hmem with heq | hmem
  · cases heq
  · exact h c' e hmem

/-- **The loop on a store that works**: some script lets every call work that the store does
not refuse, and it is the one without faults where the store takes every key. -/
theorem build_exec (refusal : PyException) (event : NormalizedOrderEvent) :
    ∀ (rels : List CopyRelationship) (acc : ProcessingResult) (n : ℕ) (s : M.State), rels.length ≤ n →
    ∃ fs o, (buildRequestsForRelationships event rels acc).exec? M fs s = some o ∧
      ((∀ r ∈ passing event rels, Accepts M (keyOf event r)) → fs = List.replicate n .works) ∧
      RaisesRefused M refusal o.calls ∧ LoopEnds refusal event rels acc s o.ending o.state ∧
        IdempotencyStore.listed o.state = IdempotencyStore.listed s := by
  intro rels
  induction rels with
  | nil =>
    intro acc n s _
    refine ⟨List.replicate n .works, _, Prog.exec_done acc, fun _ => rfl, .nil,
      ⟨by simp [passing], ⟨[], by simp, List.Forall₂.nil⟩, rfl, fun k => ?_⟩, rfl⟩
    simp [chosen, passing, firstOfEach]
  | cons r rest ih =>
    intro acc n s hn
    rw [List.length_cons] at hn
    rcases build_cons event r rest acc with ⟨hg, heq⟩ | ⟨hg, heq⟩
    swap
    · obtain ⟨fs, o, ho, hworks, hraises, hends, hlisted⟩ := ih (skip event r acc) n s (by omega)
      rw [heq, passing_of_skip hg]
      exact ⟨fs, o, ho, hworks, hraises, hends.skip hg, hlisted⟩
    obtain ⟨n, rfl⟩ : ∃ m, n = m + 1 := ⟨n - 1, by omega⟩
    obtain ⟨hdraw, hlist⟩ := IdempotencyStore.draw s
    have hcons : passing event (r :: rest) = r :: passing event rest := List.filter_cons_of_pos hg
    -- where the loop ends at this entry, the keys are those from before it
    have hnone : ∀ {e}, EndsAt M refusal event r e →
        LoopEnds refusal event (r :: rest) acc s (.raised e) (M.draw s).2 := by
      intro e he
      refine ⟨[], r, rest, rfl, by simp [passing], hg, he, fun k => ?_⟩
      rw [hdraw]
      simp [chosen, passing, firstOfEach]
    rw [heq, hcons]
    by_cases hb : Buildable r
    swap
    · exact ⟨_, _, reserveFor_invalid event hb rest acc (List.replicate (n + 1) .works) s,
        fun _ => rfl, .nil, hnone (Or.inl ⟨rfl, hb⟩), hlist⟩
    by_cases ha : Accepts M (keyOf event r)
    swap
    · refine ⟨_, _, reserveFor_raises event hb rest acc refusal [] s,
        fun hall => absurd (hall r List.mem_cons_self) ha, fun c e h => ?_,
        hnone (Or.inr ⟨rfl, hb, ha⟩), hlist⟩
      cases List.mem_singleton.1 h
      exact ⟨rfl, _, rfl, ha⟩
    have hscript : ∀ {fs : List (Fault PyException)}, ((∀ r ∈ passing event rest, Accepts M (keyOf event r)) →
        fs = List.replicate n .works) → (∀ r' ∈ r :: passing event rest, Accepts M (keyOf event r')) →
          Fault.works :: fs = List.replicate (n + 1) .works := by
      intro fs hfs hall
      rw [hfs fun r' hr' => hall r' (List.mem_cons_of_mem _ hr')]
      rfl
    rcases reserveFor_works event ⟨hb, ha⟩ rest acc s with
      ⟨hheld, hrun⟩ | ⟨hfree, q, s', hq, hres, hkept, hrun⟩
    · obtain ⟨fs, o, ho, hworks, hraises, hends, hlisted⟩ :=
        ih { acc with skippedDuplicates := acc.skippedDuplicates + 1 } n (M.draw s).2 (by omega)
      exact ⟨_, _, hrun fs o ho, hscript hworks, hraises.works, hends.taken hg ⟨hb, ha⟩ hheld hdraw,
        hlisted.trans hlist⟩
    · obtain ⟨fs, o, ho, hworks, hraises, hends, hlisted⟩ :=
        ih { acc with requests := acc.requests ++ [q] } n s' (by omega)
      exact ⟨_, _, hrun fs o ho, hscript hworks, hraises.works,
        hends.took hg ⟨hb, ha⟩ ⟨_, hq⟩ hfree hres, hlisted.trans hkept⟩

/-- **A loop that returned**, under any script, could reserve each entry that passes the gates. -/
theorem reservable_of_returned (event : NormalizedOrderEvent) : ∀ (rels : List CopyRelationship)
    {acc res : ProcessingResult} {fs : List (Fault PyException)} {s : M.State}
    {o : Outcome M ProcessingResult},
    (buildRequestsForRelationships event rels acc).exec? M fs s = some o → o.ending = .returned res →
      ∀ r ∈ passing event rels, Reservable M event r := by
  intro rels
  induction rels with
  | nil => intro acc res fs s o _ _ r hr; cases hr
  | cons r rest ih =>
    intro acc res fs s o h hend
    rcases build_cons event r rest acc with ⟨hg, heq⟩ | ⟨hg, heq⟩
    swap
    · rw [heq] at h
      rw [passing_of_skip hg]
      exact ih h hend
    rw [heq] at h
    simp only [reserveFor, Prog.name, Prog.bind_fresh, Prog.bind_done, Prog.exec_fresh] at h
    rcases build_spec event (M.draw s).1 r with ⟨hb, q, hq, -, hbuilt⟩ | ⟨-, he⟩
    swap
    · rw [he, Prog.ofExcept_error, Prog.bind_fail, Prog.exec_fail] at h
      cases h; cases hend
    rw [hq, Prog.ofExcept_ok, Prog.bind_done] at h
    rcases Prog.exec_call_bind h with ⟨-, rfl⟩ | ⟨fs', a, s', o', -, he, h', rfl⟩ |
      ⟨f, fs', e, s', -, -, -, rfl⟩
    · cases hend
    · -- the reservation worked, so the store takes the key
      have htaken : Accepts M (keyOf event r) := by
        have hsome := (IdempotencyStore.accepts q.idempotencyKey (M.draw s).2).1 (by rw [he]; rfl)
        rwa [hbuilt.key] at hsome
      refine passing_of_pass hg ⟨hb, htaken⟩ ?_
      cases a with
      | false => exact ih h' hend
      | true => exact ih h' hend
    · cases hend

/-! ## One processing -/

/-- A processing on a store that works, and how it ends. -/
def Processes (event : NormalizedOrderEvent) (rels : List CopyRelationship) (s : M.State)
    (ending : Ending PyException ProcessingResult) (s' : M.State) : Prop :=
  ∃ calls rest, (buildRequestsForRelationships event rels {}).exec? M
    (List.replicate rels.length .works) s = some ⟨ending, s', calls, rest⟩

/-- **What a processing returns**: in list order one request for each relationship with an
entry that passes and a key that is not reserved; their keys are reserved afterwards, and
every entry is accounted for. -/
structure Processed (event : NormalizedOrderEvent) (rels : List CopyRelationship) (s : M.State)
    (res : ProcessingResult) (s' : M.State) : Prop where
  built : List.Forall₂ (Copies event) (chosen event (Reserved s) rels) res.requests
  once : (res.requests.map (·.copyRelationshipId)).Nodup
  complete : ∀ id, id ∈ res.requests.map (·.copyRelationshipId) ↔ ∃ r ∈ rels,
    r.copyRelationshipId = id ∧ passesGates event r = true ∧ ¬ Reserved s (keyOf event r)
  keys : ∀ k, Reserved s' k ↔ Reserved s k ∨ k ∈ res.requests.map (·.idempotencyKey)
  counted : res.considered = rels.length

theorem Copies.builtFrom {q : CopyExecutionRequest} (h : Copies event r q) : BuiltFrom event r q := by
  obtain ⟨eventId, hq⟩ := h
  exact (builtFrom_of_ok hq).2.2

theorem map_of_copies {α : Type} {f : CopyRelationship → α} {g : CopyExecutionRequest → α}
    (hfg : ∀ r q, BuiltFrom event r q → g q = f r) {rels : List CopyRelationship}
    {qs : List CopyExecutionRequest} (h : List.Forall₂ (Copies event) rels qs) :
    qs.map g = rels.map f := by
  induction h with
  | nil => rfl
  | cons hq _ ih => rw [List.map_cons, List.map_cons, ih, hfg _ _ hq.builtFrom]

theorem mem_ids_chosen {rels : List CopyRelationship} {id : UUID} :
    id ∈ (chosen event reserved rels).map (·.copyRelationshipId) ↔ ∃ r ∈ rels,
      r.copyRelationshipId = id ∧ passesGates event r = true ∧ ¬ reserved (keyOf event r) := by
  unfold chosen passing
  rw [mem_ids_firstOfEach, List.mem_map]
  constructor
  · rintro ⟨r, hr, hid⟩
    simp only [List.mem_filter, decide_eq_true_eq] at hr
    exact ⟨r, hr.1.1, hid, hr.1.2, hr.2⟩
  · rintro ⟨r, hr, hid, hg, hfree⟩
    exact ⟨r, by simp [hr, hg, hfree], hid⟩

theorem LoopEnds.processed {rels : List CopyRelationship} {res : ProcessingResult}
    (h : LoopEnds refusal event rels {} s (.returned res) s') : Processed event rels s res s' := by
  obtain ⟨-, ⟨qs, hqs, hcopies⟩, hn, hk⟩ := h
  have hrequests : res.requests = qs := hqs.trans (List.nil_append qs)
  have hids : res.requests.map (·.copyRelationshipId) =
      (chosen event (Reserved s) rels).map (·.copyRelationshipId) := by
    rw [hrequests]
    exact map_of_copies (fun _ _ hq => hq.copyRelationshipId) hcopies
  have hkeys : res.requests.map (·.idempotencyKey) =
      (chosen event (Reserved s) rels).map (keyOf event) := by
    rw [hrequests]
    exact map_of_copies (fun _ _ hq => hq.key) hcopies
  refine ⟨by rwa [hrequests], ?_, fun id => ?_, fun k => ?_, ?_⟩
  · rw [hids]
    exact nodup_firstOfEach _
  · rw [hids]
    exact mem_ids_chosen
  · rw [hkeys]
    exact hk k
  · rw [hn]
    exact Nat.zero_add _

/-- A request up to its fresh id. -/
def CopyExecutionRequest.withoutId (q : CopyExecutionRequest) : CopyExecutionRequest :=
  { q with eventId := ⟨0⟩ }

theorem buildFor_withoutId {q : CopyExecutionRequest} (h : Copies event r q) :
    buildFor event ⟨0⟩ r = .ok q.withoutId := by
  obtain ⟨eventId, hq⟩ := h
  have hb : 1 ≤ r.followerAccountId.length ∧ 1 ≤ r.targetSymbol.length := (builtFrom_of_ok hq).1
  unfold buildFor buildDryRunExecutionRequest at hq ⊢
  rw [dif_pos hb] at hq ⊢
  cases hq
  rfl

theorem copies_withoutId {rels : List CopyRelationship} {qs : List CopyExecutionRequest}
    (h : List.Forall₂ (Copies event) rels qs) :
    qs.map (·.withoutId) = rels.filterMap fun r => (buildFor event ⟨0⟩ r).toOption := by
  induction h with
  | nil => rfl
  | cons hq _ ih =>
    have hsome := buildFor_withoutId hq
    rw [List.map_cons, List.filterMap_cons, hsome, ih]
    rfl

/-- The copies of distinct entries do not depend on their order. -/
theorem chosen_perm {rels rels' : List CopyRelationship} (h : rels'.Perm rels)
    (hids : (rels.map (·.copyRelationshipId)).Nodup) :
    (chosen event reserved rels').Perm (chosen event reserved rels) := by
  have hself : ∀ l : List CopyRelationship, (l.map (·.copyRelationshipId)).Nodup →
      chosen event reserved l = (passing event l).filter fun r => ¬ reserved (keyOf event r) := by
    intro l hl
    exact firstOfEach_eq_self (hl.sublist ((List.filter_sublist.trans List.filter_sublist).map _))
  rw [hself rels hids, hself rels' ((h.map _).nodup_iff.2 hids)]
  exact (h.filter _).filter _

/-- **Processing is exact.** It returns what its specification says, whatever the order and the
repetitions of the list, and a permutation of distinct entries permutes the requests. Where an
entry that passes the gates has no follower account or no symbol, it raises there, and the keys
of the copies before it stay reserved. -/
theorem processing_exact [RefusesNone M] (event : NormalizedOrderEvent) (rels : List CopyRelationship)
    (s : M.State) :
    ((∀ r ∈ passing event rels, Buildable r) →
      (∃ res s', Processes event rels s (.returned res) s' ∧ Processed event rels s res s') ∧
      ∀ rels' res res' s' s'', rels'.Perm rels → (rels.map (·.copyRelationshipId)).Nodup →
        Processes event rels s (.returned res) s' → Processes event rels' s (.returned res') s'' →
        (res'.requests.map (·.withoutId)).Perm (res.requests.map (·.withoutId))) ∧
    ((¬ ∀ r ∈ passing event rels, Buildable r) → ∃ pre r post s', rels = pre ++ r :: post ∧
      (∀ r' ∈ passing event pre, Buildable r') ∧ passesGates event r = true ∧ ¬ Buildable r ∧
      Processes event rels s (.raised validationError) s' ∧ KeysAfter event pre s s') := by
  have hreturns : ∀ rels, ∃ ending s', Processes event rels s ending s' ∧
      LoopEnds validationError event rels {} s ending s' := by
    intro rels
    obtain ⟨fs, ⟨ending, s', calls, rest⟩, ho, hworks, -, hends, -⟩ :=
      build_exec validationError event rels {} rels.length s le_rfl
    rw [hworks fun r _ => RefusesNone.accepts _] at ho
    exact ⟨ending, s', ⟨calls, rest, ho⟩, hends⟩
  have hspec : ∀ rels {ending s'}, Processes event rels s ending s' →
      LoopEnds validationError event rels {} s ending s' := by
    rintro rels ending s' ⟨calls, rest, hrun⟩
    obtain ⟨ending', t, ⟨calls', rest', ho⟩, hends⟩ := hreturns rels
    rw [hrun] at ho
    cases ho
    exact hends
  obtain ⟨ending, s', hrun, hends⟩ := hreturns rels
  refine ⟨fun hall => ⟨?_, ?_⟩, fun hnot => ?_⟩
  · cases ending with
    | returned res => exact ⟨res, s', hrun, hends.processed⟩
    | raised e =>
      obtain ⟨pre, r, post, rfl, -, hg, he, -⟩ := hends
      have hb : Buildable r := hall r (by simp [passing, hg])
      exact absurd ⟨hb, RefusesNone.accepts _⟩ he.not_reservable
    | stopped => exact absurd hends id
  · intro rels' res res' t t' hperm hids h h'
    have hbuilt := (hspec rels h).processed.built
    have hbuilt' := (hspec rels' h').processed.built
    rw [copies_withoutId hbuilt, copies_withoutId hbuilt']
    exact (chosen_perm hperm hids).filterMap _
  · cases ending with
    | returned res => exact absurd (fun r hr => (hends.1 r hr).1) hnot
    | raised e =>
      obtain ⟨pre, r, post, heq, hb, hg, ⟨rfl, hr⟩ | ⟨-, -, ha⟩, hk⟩ := hends
      · exact ⟨pre, r, post, s', heq, fun r' hr' => (hb r' hr').1, hg, hr, hrun, hk⟩
      · exact absurd (RefusesNone.accepts _) ha
    | stopped => exact absurd hends id

/-- A processor whose provider lists the relationships for every event. -/
def CopyEventProcessor.start (rels : List CopyRelationship) : CopyEventProcessor :=
  { relationshipProvider := fun _ => rels }

/-- The sample relationship, listed twice. -/
theorem processing_exact_twice : ∃ res s', Processes (M := inMemory) sampleEvent
    [sampleRelationship, sampleRelationship] (CopyEventProcessor.start []) (.returned res) s' ∧
      Processed (M := inMemory) sampleEvent [sampleRelationship, sampleRelationship]
        (CopyEventProcessor.start []) res s' :=
  ((processing_exact (M := inMemory) sampleEvent [sampleRelationship, sampleRelationship]
    (CopyEventProcessor.start [])).1 (by decide)).1

/-- **A relationship without a symbol**: the processing returns nothing. -/
theorem blank_symbol_raises :
    ¬ ∀ (event : NormalizedOrderEvent) (rels : List CopyRelationship) (s : CopyEventProcessor),
      ∃ res s', Processes (M := inMemory) event rels s (.returned res) s' := by
  intro hall
  obtain ⟨res, s', calls, rest, hrun⟩ :=
    hall sampleEvent [{ sampleRelationship with targetSymbol := "" }] (CopyEventProcessor.start [])
  have hraised := reserveFor_invalid (M := inMemory) sampleEvent
    (r := { sampleRelationship with targetSymbol := "" }) (by decide) [] {} [.works]
    (CopyEventProcessor.start [])
  rcases build_cons sampleEvent { sampleRelationship with targetSymbol := "" } [] {} with
    ⟨-, heq⟩ | ⟨hg, -⟩
  · rw [heq] at hrun
    cases hraised.symm.trans hrun
  · exact absurd hg (by decide)

end CopyTrade
