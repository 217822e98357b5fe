import CopyTrade.Proof.Acknowledgement
import CopyTrade.Proof.Storing

/-!
# Dead letters of dead letters

The dead letters come back to the consumers that publish them. A message has at most one
dead letter of its own; what is published on its account goes on where one of its dead
letters is dead-lettered in turn.

* `lineage_cases`: what one step adds to the accounts.
* `at_most_one_iff`: every message has at most one dead letter on its account, exactly when no
  publish about a dead letter takes effect.
* `generations`: a recorder that always fails has any number of them, and `key_grows` tells
  one from the next.
-/

namespace CopyTrade

open Async (Prog Fault Served Machine)
open Python (Text text Json Runtime Floats Scalar)

variable {F : Type}

/-! ## Accounts -/

/-- Whether the message is a dead letter, and on whose account. -/
def Tracked.lineage (t : Tracked F) : Bool × ℕ := (t.deadLetter, t.original)

/-- The dead letters on account of the message at a place. -/
def deadLettersOf (s : List (Tracked F)) (place : ℕ) : ℕ := (s.map Tracked.lineage).count (true, place)

/-- The next call publishes. -/
def publishesNext (t : Tracked F) : Bool :=
  match t.current with
  | .await c _ => isPublish c
  | _ => false

/-- The step is a publish about a dead letter, and it takes effect. -/
def Republishes (s : List (Tracked F)) : Happens → Prop
  | .turn i f => ∃ t, s[i]? = some t ∧ t.deadLetter = true ∧ publishesNext t = true ∧ f.Lands
  | _ => False

variable [Floats F] {policy : EventRetryPolicy}

omit [Floats F] in
theorem lineage_set {s : List (Tracked F)} {i : ℕ} {t t' : Tracked F} (ht : s[i]? = some t)
    (h : t'.lineage = t.lineage) : (s.set i t').map Tracked.lineage = s.map Tracked.lineage := by
  obtain ⟨hlt, hget⟩ := List.getElem?_eq_some_iff.1 ht
  have hlen : i < (s.map Tracked.lineage).length := by rw [List.length_map]; exact hlt
  have hi : (s.map Tracked.lineage)[i] = t.lineage := by rw [List.getElem_map, hget]
  rw [List.map_set, h, ← hi, List.set_getElem_self]

/-- **What one step adds to the accounts**: a message of its own for an arrival, a dead letter for a
publish that takes effect, nothing otherwise. -/
theorem lineage_cases {s s' : List (Tracked F)} {x : Happens} (h : consume? policy s x = some s') :
    (∃ message, x = .arrive message ∧ s' = s ++ [Tracked.arrived message s.length]) ∨
    (∃ i f t, x = .turn i f ∧ s[i]? = some t ∧ publishesNext t = true ∧ f.Lands ∧
      s'.map Tracked.lineage = s.map Tracked.lineage ++ [(true, t.original)]) ∨
    (¬ Republishes s x ∧ s'.map Tracked.lineage = s.map Tracked.lineage) := by
  rcases consume_cases h with ⟨message, rfl, rfl⟩ | ⟨i, t, rfl, ht, -, -, -, rfl⟩ |
    ⟨i, f, t, c, k, r, more, rfl, ht, hcurrent, -, hleaves, rfl⟩ | ⟨i, f, t, k, rfl, ht, hcurrent, rfl⟩
  · exact Or.inl ⟨message, rfl, rfl⟩
  · exact Or.inr (Or.inr ⟨id, lineage_set ht rfl⟩)
  · have hset : (s.set i (t.answered ⟨c, r⟩ (k r))).map Tracked.lineage = s.map Tracked.lineage :=
      lineage_set ht rfl
    have hnext : publishesNext t = isPublish c := by unfold publishesNext; rw [hcurrent]
    rcases hleaves with ⟨hpublish, hlands, subject, letter, data, -, -, rfl⟩ | ⟨hnot, rfl⟩
    · right; left
      refine ⟨i, f, t, rfl, ht, by rw [hnext]; exact hpublish, hlands, ?_⟩
      rw [List.map_append, hset]
      rfl
    · right; right
      refine ⟨?_, by rw [List.append_nil]; exact hset⟩
      rintro ⟨t', ht', -, hpublish, hlands⟩
      rw [ht, Option.some.injEq] at ht'
      rw [← ht', hnext] at hpublish
      exact hnot hpublish hlands
  · right; right
    refine ⟨?_, lineage_set ht rfl⟩
    rintro ⟨t', ht', -, hpublish, -⟩
    rw [ht, Option.some.injEq] at ht'
    unfold publishesNext at hpublish
    rw [← ht', hcurrent] at hpublish
    cases hpublish

/-- No step takes a dead letter away. -/
theorem deadLettersOf_mono {s s' : List (Tracked F)} {x : Happens} (h : consume? policy s x = some s')
    (place : ℕ) : deadLettersOf s place ≤ deadLettersOf s' place := by
  unfold deadLettersOf
  rcases lineage_cases h with ⟨message, -, rfl⟩ | ⟨i, f, t, -, -, -, -, hl⟩ | ⟨-, hl⟩
  · rw [List.map_append, List.count_append]; omega
  · rw [hl, List.count_append]; omega
  · rw [hl]

theorem run_deadLettersOf_mono {s s' : List (Tracked F)} {inputs : List Happens}
    (h : Steps.run? (consume? policy) s inputs = some s') (place : ℕ) :
    deadLettersOf s place ≤ deadLettersOf s' place :=
  Steps.run_le (R := fun s s' : List (Tracked F) => deadLettersOf s place ≤ deadLettersOf s' place)
    (fun _ => le_refl _) (fun _ _ _ h1 h2 => le_trans h1 h2)
    (fun _ _ _ hstep => deadLettersOf_mono hstep place) h

/-! ## One publish about a dead letter -/

theorem republished {s s' : List (Tracked F)} {x : Happens} (h : consume? policy s x = some s')
    (hx : Republishes s x) : ∃ place, 2 ≤ deadLettersOf s' place := by
  rcases lineage_cases h with ⟨message, rfl, -⟩ | ⟨i, f, t, rfl, ht, -, -, hl⟩ | ⟨hn, -⟩
  · exact absurd hx id
  · obtain ⟨t', ht', hdead, -, -⟩ := hx
    have heq : t' = t := Option.some.inj (ht'.symm.trans ht)
    subst heq
    -- the dead letter itself, and the one that is published about it
    refine ⟨t'.original, ?_⟩
    have hlineage : t'.lineage = (true, t'.original) := by
      unfold Tracked.lineage
      rw [hdead]
    have hmem : (true, t'.original) ∈ s.map Tracked.lineage := by
      rw [← hlineage]
      exact List.mem_map_of_mem (List.mem_of_getElem? ht)
    have hcount := List.count_pos_iff.2 hmem
    unfold deadLettersOf
    rw [hl, List.count_append, List.count_singleton_self]
    omega
  · exact absurd hx hn

/-! ## Without one -/

/-- Every dead letter is on account of a message that is none and made as many publishes. -/
structure Accounted (s : List (Tracked F)) : Prop where
  own : ∀ (i : ℕ) (t : Tracked F), s[i]? = some t → t.deadLetter = false → t.original = i
  published : ∀ place, deadLettersOf s place = 0 ∨ ∃ t : Tracked F, s[place]? = some t ∧
    t.deadLetter = false ∧ deadLettersOf s place ≤ publishes t.deliveries.flatten

omit [Floats F] in
theorem publishes_answered {t : Tracked F} (hne : t.deliveries ≠ []) (c : Served (Bus F))
    (rest : Prog (Bus F) Unit) : publishes (t.answered c rest).deliveries.flatten =
      publishes t.deliveries.flatten + if isPublish c.call = true then 1 else 0 := by
  cases hd : t.deliveries with
  | nil => exact absurd hd hne
  | cons calls past =>
    have hone : publishes [c] = if isPublish c.call = true then 1 else 0 := List.countP_singleton
    have hdeliveries : (t.answered c rest).deliveries = (calls ++ [c]) :: past := by
      simp only [Tracked.answered, hd]
    rw [hdeliveries, List.flatten_cons, List.flatten_cons, publishes_append, publishes_append,
      publishes_append, hone]
    omega

omit [Floats F] in
/-- What stands at a place after one message has changed and others were added. -/
theorem get_set_append {s : List (Tracked F)} (more : List (Tracked F)) {i place : ℕ}
    {t u : Tracked F} (t' : Tracked F) (hu : s[place]? = some u) (ht : s[i]? = some t) :
    (s.set i t' ++ more)[place]? = some (if place = i then t' else u) := by
  have hplace : place < s.length := (List.getElem?_eq_some_iff.1 hu).1
  rw [List.getElem?_append_left (by rw [List.length_set]; exact hplace), List.getElem?_set]
  by_cases h : place = i
  · subst h
    rw [if_pos rfl, if_pos hplace, if_pos rfl]
  · rw [if_neg (fun he => h he.symm), if_neg h, hu]

omit [Floats F] in
/-- The owners stay, where one message keeps its lineage and only dead letters are added. -/
theorem own_set_append {s more : List (Tracked F)} {i : ℕ} {t t' : Tracked F}
    (hown : ∀ (i : ℕ) (t : Tracked F), s[i]? = some t → t.deadLetter = false → t.original = i)
    (ht : s[i]? = some t) (h : t'.lineage = t.lineage) (hmore : ∀ u ∈ more, u.deadLetter = true) :
    ∀ (j : ℕ) (u : Tracked F), (s.set i t' ++ more)[j]? = some u → u.deadLetter = false →
      u.original = j := by
  intro j u hu hdead
  rcases Nat.lt_or_ge j s.length with hlt | hge
  · have hget := get_set_append more t' (List.getElem?_eq_getElem hlt) ht
    rw [hu, Option.some.injEq] at hget
    by_cases hji : j = i
    · rw [if_pos hji] at hget
      have hlineage := h
      rw [← hget] at hlineage
      obtain ⟨hd, ho⟩ := Prod.mk.inj hlineage
      rw [ho, hji]
      exact hown i t ht (by rw [← hd]; exact hdead)
    · rw [if_neg hji] at hget
      exact hown j u (by rw [hget]; exact List.getElem?_eq_getElem hlt) hdead
  · have hlen : s.length = (s.set i t').length := List.length_set.symm
    rw [List.getElem?_append_right (by rw [← hlen]; exact hge)] at hu
    have := hmore u (List.mem_of_getElem? hu)
    rw [hdead] at this; cases this

omit [Floats F] in
/-- A message that makes as many publishes as dead letters are added on its account. -/
theorem Accounted.set_append {s more : List (Tracked F)} {i : ℕ} {t t' : Tracked F}
    (h : Accounted s) (ht : s[i]? = some t) (hl : t'.lineage = t.lineage)
    (hle : publishes t.deliveries.flatten + more.length ≤ publishes t'.deliveries.flatten)
    (hmore : ∀ u ∈ more, u.lineage = (true, i)) (hdead : more ≠ [] → t.deadLetter = false) :
    Accounted (s.set i t' ++ more) := by
  have hnew : ∀ u ∈ more, u.deadLetter = true := fun u hu => (Prod.mk.inj (hmore u hu)).1
  refine ⟨own_set_append h.own ht hl hnew, fun place => ?_⟩
  have hsplit : deadLettersOf (s.set i t' ++ more) place =
      deadLettersOf s place + deadLettersOf more place := by
    unfold deadLettersOf
    rw [List.map_append, lineage_set ht hl, List.count_append]
  have hdead' : t'.deadLetter = t.deadLetter := (Prod.mk.inj hl).1
  by_cases hi : place = i
  · subst hi
    have hcount : deadLettersOf more place ≤ more.length := by
      unfold deadLettersOf
      exact le_trans List.count_le_length (by rw [List.length_map])
    have hget := get_set_append more t' ht ht
    rw [if_pos rfl] at hget
    rcases h.published place with hzero | ⟨u, hu, hu', hcalls⟩
    · by_cases hnil : more = []
      · left
        rw [hsplit, hzero, hnil]
        rfl
      · exact Or.inr ⟨t', hget, by rw [hdead']; exact hdead hnil, by omega⟩
    · have heq : u = t := Option.some.inj (hu.symm.trans ht)
      subst heq
      exact Or.inr ⟨t', hget, by rw [hdead']; exact hu', by omega⟩
  · have hcount : deadLettersOf more place = 0 := by
      unfold deadLettersOf
      rw [List.count_eq_zero]
      intro hmem
      obtain ⟨u, hu, hlineage⟩ := List.mem_map.1 hmem
      rw [hmore u hu] at hlineage
      exact hi (Prod.mk.inj hlineage).2.symm
    rw [hsplit, hcount, Nat.add_zero]
    rcases h.published place with hzero | ⟨u, hu, hu', hcalls⟩
    · exact Or.inl hzero
    · have hget := get_set_append more t' hu ht
      rw [if_neg hi] at hget
      exact Or.inr ⟨u, hget, hu', hcalls⟩

omit [Floats F] in
theorem Accounted.set {s : List (Tracked F)} {i : ℕ} {t t' : Tracked F} (h : Accounted s)
    (ht : s[i]? = some t) (hl : t'.lineage = t.lineage)
    (hle : publishes t.deliveries.flatten ≤ publishes t'.deliveries.flatten) :
    Accounted (s.set i t') := by
  have happend : Accounted (s.set i t' ++ []) :=
    h.set_append ht hl hle (fun u hu => by cases hu) (absurd rfl)
  rw [List.append_nil] at happend
  exact happend

omit [Floats F] in
theorem Accounted.arrive {s : List (Tracked F)} (h : Accounted s) (message : Msg) :
    Accounted (s ++ [Tracked.arrived message s.length]) := by
  constructor
  · intro i t ht hdead
    rcases Nat.lt_or_ge i s.length with hlt | hge
    · rw [List.getElem?_append_left hlt] at ht
      exact h.own i t ht hdead
    · rw [List.getElem?_append_right hge, List.getElem?_singleton] at ht
      split at ht
      · rw [← Option.some.inj ht]
        show s.length = i
        omega
      · cases ht
  · intro place
    have hcount : deadLettersOf (s ++ [Tracked.arrived message s.length]) place =
        deadLettersOf s place := by
      unfold deadLettersOf
      rw [List.map_append, List.count_append]
      simp [Tracked.lineage, Tracked.arrived]
    rw [hcount]
    rcases h.published place with hzero | ⟨u, hu, hdead, hle⟩
    · exact Or.inl hzero
    · have hlt : place < s.length := (List.getElem?_eq_some_iff.1 hu).1
      exact Or.inr ⟨u, by rw [List.getElem?_append_left hlt]; exact hu, hdead, hle⟩

/-- **A step that is no publish about a dead letter keeps the accounts.** -/
theorem step_accounted {s s' : List (Tracked F)} {x : Happens} (hkept : ∀ t ∈ s, Kept policy t)
    (h : Accounted s) (hx : ¬ Republishes s x) (hs : consume? policy s x = some s') :
    Accounted s' := by
  rcases consume_cases hs with ⟨message, rfl, rfl⟩ | ⟨i, t, rfl, ht, -, -, -, rfl⟩ |
    ⟨i, f, t, c, k, r, more, rfl, ht, hcurrent, -, hleaves, rfl⟩ | ⟨i, f, t, k, rfl, ht, hcurrent, rfl⟩
  · exact h.arrive message
  · exact h.set ht rfl (le_refl _)
  · -- a call is made in a delivery
    have hne : t.deliveries ≠ [] := by
      intro hnil
      have hidle := (hkept t (List.mem_of_getElem? ht)).idle hnil
      rw [hcurrent] at hidle; cases hidle
    have hanswered := publishes_answered hne ⟨c, r⟩ (k r)
    rcases hleaves with ⟨hpublish, hlands, subject, letter, data, -, -, rfl⟩ | ⟨-, rfl⟩
    · have hdead : t.deadLetter = false := by
        by_contra hn
        rw [Bool.not_eq_false] at hn
        refine hx ⟨t, ht, hn, ?_, hlands⟩
        unfold publishesNext
        rw [hcurrent]
        exact hpublish
      have horiginal : t.original = i := h.own i t ht hdead
      rw [if_pos hpublish] at hanswered
      refine h.set_append ht rfl (by rw [hanswered, List.length_singleton]) ?_ fun _ => hdead
      intro u hu
      rw [List.mem_singleton.1 hu, ← horiginal]
      rfl
    · rw [List.append_nil]
      exact h.set ht rfl (by rw [hanswered]; omega)
  · exact h.set ht rfl (le_refl _)

/-- **Every message has at most one dead letter on its account, exactly when no publish about a
dead letter takes effect**, in every run of the consumers. -/
theorem at_most_one_iff {inputs : List Happens} {s : List (Tracked F)}
    (h : Steps.run? (consume? policy) [] inputs = some s) :
    (∀ place, deadLettersOf s place ≤ 1) ↔
      Steps.Along (consume? policy) (fun s x => ¬ Republishes s x) ([] : List (Tracked F)) inputs := by
  constructor
  · intro hall
    by_contra hn
    obtain ⟨ys, x, zs, s₁, s₂, -, -, hx, hstep, hrest⟩ := Steps.not_along h hn
    obtain ⟨place, htwo⟩ := republished hstep (by simpa using hx)
    have hmono := run_deadLettersOf_mono hrest place
    have hone := hall place
    omega
  · intro hal place
    have hinv : ∀ (s : List (Tracked F)) x s', ((∀ t ∈ s, Kept policy t) ∧ Accounted s) → ¬ Republishes s x →
        consume? policy s x = some s' → (∀ t ∈ s', Kept policy t) ∧ Accounted s' :=
      fun s x s' hJ hx hs => ⟨step_kept hJ.1 hs, step_accounted hJ.1 hJ.2 hx hs⟩
    have hstart : (∀ t ∈ ([] : List (Tracked F)), Kept policy t) ∧ Accounted ([] : List (Tracked F)) :=
      ⟨(fun t ht => by cases ht), ⟨(fun i t ht => by cases ht), fun place => Or.inl rfl⟩⟩
    obtain ⟨hkept, haccounted⟩ := Steps.run_inv_along hinv hstart hal h
    rcases haccounted.published place with hzero | ⟨t, ht, -, hle⟩
    · omega
    · have hone := (hkept t (List.mem_of_getElem? ht)).attempts.publishes.1
      omega

/-! ## A recorder that always fails -/

/-- A message that no delivery has been made of, with an object for a body. -/
structure Waiting (t : Tracked F) : Prop where
  deliveries : t.deliveries = []
  current : t.current = .done ()
  acked : t.acked = false
  subject : Scalar t.message.subject
  body : ∃ members : List (Text × Json F), decodePayload t.message.data = .ok (.dict members)

theorem consume_deliver {s : List (Tracked F)} {i : ℕ} {t : Tracked F} (ht : s[i]? = some t)
    (h : Waiting t) (hlt : 0 < policy.maxDeliver) :
    consume? policy s (.deliver i) = some (s.set i (t.delivered policy)) := by
  simp [consume?, ht, h.deliveries, h.current, h.acked, ended, hlt]

theorem consume_turn {s s' : List (Tracked F)} {i : ℕ} {t : Tracked F} {c : BusCall F}
    {k : Except PyException Unit → Prog (Bus F) Unit} {f : Fault PyException}
    {r : Except PyException Unit} (ht : s[i]? = some t) (hcurrent : t.current = .await c k)
    (hack : isAck c = false) (hs : (consumer i).serve c f s = some (r, s')) :
    consume? policy s (.turn i f) = some (s'.set i (t.answered ⟨c, r⟩ (k r))) := by
  simp [consume?, ht, hcurrent, hack, hs]
  rfl

/-- A letter of a message with an object body survives its way over the bus. -/
theorem waiting_letter {message : Msg} {members : List (Text × Json F)} {exc : PyException}
    {letter : DeadLetter F} (hsubject : Scalar message.subject)
    (hd : decodePayload message.data = .ok (.dict members))
    (hletter : buildDeadLetterPayload message (.dict members) exc 1 1 = .ok letter) :
    ∃ data, encodeJsonPayload letter.toJson = some data ∧
      decodePayload data = .ok (.dict letter.toJson) := by
  have hreadable := readable_letter hsubject (decoded_body hd) hletter
  have hone : Python.intWritable 1 = true := by decide
  have hattempt : Python.intWritable letter.deliveryAttempt = true := by cases hletter; exact hone
  have hcap : Python.intWritable letter.maxDeliveryAttempts = true := by cases hletter; exact hone
  obtain ⟨data, hdata, hreceived⟩ := received_encoded (decoded_toJson hreadable hattempt hcap)
  refine ⟨data, hdata, ?_⟩
  unfold receivedData at hreceived
  split at hreceived
  · rename_i members' hd'
    rw [Option.some.injEq] at hreceived
    rw [hd', hreceived]
  · cases hreceived

/-- **One generation**: a message that waits is delivered for the only time, its handler raises,
and its dead letter waits in turn. -/
theorem next_generation {s : List (Tracked F)} {i : ℕ} {t : Tracked F} (ht : s[i]? = some t)
    (h : Waiting t) (hcap : policy.maxDeliver = 1) (hsubject : Scalar policy.deadLetterSubject)
    (exc : PyException) : ∃ s' u, Steps.run? (consume? policy) s
        [.deliver i, .turn i (.before exc), .turn i .works] = some (s' ++ [u]) ∧
      Waiting u ∧ (s' ++ [u]).map Tracked.lineage = s.map Tracked.lineage ++ [(true, t.original)] := by
  have hlt : i < s.length := (List.getElem?_eq_some_iff.1 ht).1
  obtain ⟨members, hd⟩ := h.body
  obtain ⟨letter, hletter⟩ := letter_of_members (atAttempt t.message 1) members exc 1 1
  obtain ⟨data, hdata, hbody⟩ := waiting_letter h.subject hd hletter
  have hd' : decodePayload (atAttempt t.message 1).data = .ok (.dict members) := hd
  have hlast : policy.maxDeliver ≤ getDeliveryAttempt (atAttempt t.message 1) := by
    rw [hcap]
    exact le_refl _
  have hletter' : buildDeadLetterPayload (atAttempt t.message 1) (.dict members) exc
      (getDeliveryAttempt (atAttempt t.message 1)) policy.maxDeliver = .ok letter := by
    rw [hcap]
    exact hletter
  have hget : ∀ (s : List (Tracked F)) (t' : Tracked F), i < s.length → (s.set i t')[i]? = some t' :=
    fun s t' hi => by rw [List.getElem?_set, if_pos rfl, if_pos hi]
  -- the delivery
  set t₁ := t.delivered policy with ht₁
  have hget₁ : (s.set i t₁)[i]? = some t₁ := hget s t₁ hlt
  have hdeliver : consume? policy s (.deliver i) = some (s.set i t₁) :=
    consume_deliver ht h (by rw [hcap]; omega)
  have hcurrent₁ : t₁.current = .await (.handler ⟨t.message.subject, members⟩)
      (afterHandler (atAttempt t.message 1) members (some policy) true) := by
    show handleMessage (atAttempt t.message (t.deliveries.length + 1)) (some policy) true = _
    rw [h.deliveries]
    exact handle_object policy hd'
  -- the handler raises
  set t₂ := t₁.answered ⟨.handler ⟨t.message.subject, members⟩, .error exc⟩
    (afterHandler (atAttempt t.message 1) members (some policy) true (.error exc)) with ht₂
  have hget₂ : ((s.set i t₁).set i t₂)[i]? = some t₂ := hget _ t₂ (by rw [List.length_set]; exact hlt)
  have hraise : consume? policy (s.set i t₁) (.turn i (.before exc)) =
      some ((s.set i t₁).set i t₂) := consume_turn hget₁ hcurrent₁ rfl rfl
  have hcurrent₂ : t₂.current = .await (.deadLetterPublisher policy.deadLetterSubject letter)
      fun r => Prog.ofExcept r >>= fun _ => ack := by
    show afterHandler (atAttempt t.message 1) members (some policy) true (.error exc) = _
    rw [afterHandler, handleFailure_letter _ _ hlast hletter']
    rfl
  -- its dead letter is published
  have hserve : (consumer i).serve (.deadLetterPublisher policy.deadLetterSubject letter) .works
      ((s.set i t₁).set i t₂) = some (.ok (), (s.set i t₁).set i t₂ ++
        [publishedLetter policy.deadLetterSubject data ((s.set i t₁).set i t₂).length t₂.original]) := by
    refine Machine.serve_works ?_
    simp only [consumer, hdata, hget₂, Option.bind_eq_bind, Option.bind_some]
  have hlen : i < ((s.set i t₁).set i t₂).length := by simp only [List.length_set]; exact hlt
  set t₃ := t₂.answered ⟨.deadLetterPublisher policy.deadLetterSubject letter, .ok ()⟩
    (Prog.ofExcept (.ok ()) >>= fun _ => ack) with ht₃
  have hpublish : consume? policy ((s.set i t₁).set i t₂) (.turn i .works) =
      some (((s.set i t₁).set i t₂).set i t₃ ++
        [publishedLetter policy.deadLetterSubject data ((s.set i t₁).set i t₂).length
          t₂.original]) := by
    rw [← List.set_append_left _ _ hlen]
    exact consume_turn hget₂ hcurrent₂ rfl hserve
  refine ⟨((s.set i t₁).set i t₂).set i t₃,
    publishedLetter policy.deadLetterSubject data ((s.set i t₁).set i t₂).length
    t₂.original, ?_, ⟨rfl, rfl, rfl, hsubject, letter.toJson, hbody⟩, ?_⟩
  · rw [Steps.run_step hdeliver, Steps.run_step hraise, Steps.run_step hpublish]
    rfl
  · have h₁ : t₁.lineage = t.lineage := rfl
    have h₂ : t₂.lineage = t₁.lineage := rfl
    have h₃ : t₃.lineage = t₂.lineage := rfl
    rw [List.map_append, lineage_set hget₂ h₃, lineage_set hget₁ h₂, lineage_set ht h₁]
    rfl

omit [Floats F] in
/-- **No generation repeats a message id**: the key of a dead letter's own dead letter is longer, so
that the stream takes none of them for a duplicate. -/
theorem key_grows [Runtime F] {message : Msg} {letter letter' : DeadLetter F} {exc : PyException}
    {attempt cap : ℤ} (hne : letter.idempotencyKey ≠ [])
    (hletter : buildDeadLetterPayload message (.dict letter.toJson) exc attempt cap = .ok letter') :
    letter.idempotencyKey.length < letter'.idempotencyKey.length := by
  have hget : Python.dictGet letter.toJson (text "idempotency_key") = .str letter.idempotencyKey := rfl
  have htruth : (Json.str letter.idempotencyKey : Json F).truth = true := decide_eq_true hne
  have htext : (Json.str letter.idempotencyKey : Json F).toText = letter.idempotencyKey := rfl
  have hkey : letter'.idempotencyKey =
      text "dlq:" ++ message.subject ++ text ":" ++ letter.idempotencyKey := by
    cases hletter
    show buildDeadLetterIdempotencyKey _ _ _ = _
    unfold buildDeadLetterIdempotencyKey
    rw [hget, if_pos htruth, htext]
  have hcolon : (text ":").length = 1 := rfl
  rw [hkey]
  simp only [List.length_append, hcolon]
  omega

/-- One delivery for each message. -/
def singleDelivery : EventRetryPolicy := { maxDeliver := 1 }

/-- **Any number of dead letters**, where every delivery fails and every publish takes effect. -/
theorem generations (n : ℕ) : ∃ (inputs : List Happens) (s : List (Tracked Unit)) (i : ℕ) (t : Tracked Unit),
    Steps.run? (consume? singleDelivery) [] inputs = some s ∧ s[i]? = some t ∧ Waiting t ∧
      t.original = 0 ∧ n ≤ deadLettersOf s 0 := by
  induction n with
  | zero =>
    have hbody : decodePayload (sampleMessage "\x7b\x7d").data =
      (.ok (.dict []) : Except PyException (Json Unit)) := rfl
    exact ⟨[.arrive (sampleMessage "\x7b\x7d")], _, 0, _, rfl, rfl,
      ⟨rfl, rfl, rfl, scalar_text _, [], hbody⟩, rfl, Nat.zero_le _⟩
  | succ n ih =>
    obtain ⟨inputs, s, i, t, hrun, ht, hwaiting, horiginal, hn⟩ := ih
    have hcap : singleDelivery.maxDeliver = 1 := rfl
    obtain ⟨s', u, hnext, hu, hlineage⟩ :=
      next_generation ht hwaiting hcap (scalar_text _) ⟨"RuntimeError"⟩
    have hcount : n + 1 ≤ deadLettersOf (s' ++ [u]) 0 := by
      unfold deadLettersOf at hn ⊢
      rw [hlineage, horiginal, List.count_append, List.count_singleton_self]
      omega
    have hlast : u.original = 0 := by
      have hmap := congrArg List.getLast? hlineage
      rw [List.map_append, List.map_singleton, List.getLast?_concat, List.getLast?_concat,
        Option.some.injEq] at hmap
      rw [← horiginal]
      exact (Prod.mk.inj hmap).2
    refine ⟨inputs ++ [.deliver i, .turn i (.before ⟨"RuntimeError"⟩), .turn i .works], s' ++ [u],
      s'.length, u, ?_, List.getElem?_concat_length, hu, hlast, hcount⟩
    rw [Steps.run_append, hrun]
    exact hnext

/-- **Dead-lettering does not end** with a recorder that always fails. -/
theorem two_dead_letters : ¬ ∀ (policy : EventRetryPolicy) (inputs : List Happens)
    (s : List (Tracked Unit)), 1 ≤ policy.maxDeliver →
    Steps.run? (consume? policy) [] inputs = some s → ∀ place, deadLettersOf s place ≤ 1 := by
  intro hall
  obtain ⟨inputs, s, i, t, hrun, -, -, -, htwo⟩ := generations 2
  have hone := hall singleDelivery inputs s (by decide) hrun 0
  omega

/-- A message that is handled has no dead letter, and no step publishes about one. -/
theorem at_most_one_iff_handled :
    ∃ s : List (Tracked Unit), Steps.run? (consume? singleDelivery) []
        [.arrive (sampleMessage "\x7b\x7d"), .deliver 0, .turn 0 .works, .turn 0 .works] = some s ∧
      Steps.Along (consume? singleDelivery) (fun s x => ¬ Republishes s x) ([] : List (Tracked Unit))
        [.arrive (sampleMessage "\x7b\x7d"), .deliver 0, .turn 0 .works, .turn 0 .works] := by
  have hrun : ∃ s : List (Tracked Unit), Steps.run? (consume? singleDelivery) []
      [.arrive (sampleMessage "\x7b\x7d"), .deliver 0, .turn 0 .works, .turn 0 .works] = some s ∧
      s.map Tracked.lineage = [(false, 0)] := ⟨_, rfl, rfl⟩
  obtain ⟨s, hs, hlineage⟩ := hrun
  refine ⟨s, hs, (at_most_one_iff hs).1 fun place => ?_⟩
  unfold deadLettersOf
  rw [hlineage]
  simp

end CopyTrade
