import CopyTrade.Proof.Delivery
import CopyTrade.Proof.Storing

/-!
# Secrets in dead letters

The sanitizer redacts what stands under a sensitive key, at any depth. The key of the
dead letter is made from the body as it came, so what stands under a sensitive key
inside of the message's own key is published with it.

* `sanitize_conceal`: the payload does not depend on secrets.
* `publishes_iff`: what `handle_message` publishes, and when.
* `secretless_iff`: a dead letter depends on no secret, exactly when the message's own key
  has none inside.
-/

namespace CopyTrade

open Async (Prog Fault Served Outcome Machine)
open Python (Text text Json Runtime Floats Joined Scalar)

variable {F : Type}

/-! ## Concealing -/

mutual

/-- The value with every secret in it replaced. -/
def conceal (secret : Json F) : Json F → Json F
  | .null => .null
  | .bool b => .bool b
  | .int n => .int n
  | .float x => .float x
  | .str s => .str s
  | .list items => .list (concealItems secret items)
  | .dict members => .dict (concealMembers secret members)

def concealItems (secret : Json F) : List (Json F) → List (Json F)
  | [] => []
  | v :: vs => conceal secret v :: concealItems secret vs

def concealMembers (secret : Json F) : List (Text × Json F) → List (Text × Json F)
  | [] => []
  | (key, v) :: ms =>
    (key, if isSensitivePayloadKey key then secret else conceal secret v) :: concealMembers secret ms

end

mutual

/-- Some sensitive key stands inside of the value. -/
def hasSecret : Json F → Bool
  | .null => false
  | .bool _ => false
  | .int _ => false
  | .float _ => false
  | .str _ => false
  | .list items => itemsHaveSecret items
  | .dict members => membersHaveSecret members

def itemsHaveSecret : List (Json F) → Bool
  | [] => false
  | v :: vs => hasSecret v || itemsHaveSecret vs

def membersHaveSecret : List (Text × Json F) → Bool
  | [] => false
  | (key, v) :: ms => isSensitivePayloadKey key || hasSecret v || membersHaveSecret ms

end

theorem concealMembers_keys (secret : Json F) (members : List (Text × Json F)) :
    (concealMembers secret members).map Prod.fst = members.map Prod.fst := by
  induction members with
  | nil => rw [concealMembers]
  | cons m ms ih => rw [concealMembers, List.map_cons, ih, List.map_cons]

/-- Two values that differ in secrets only. -/
def AgreeExceptSecrets (v w : Json F) : Prop := conceal .null v = conceal .null w

variable {secret : Json F}

mutual

theorem conceal_conceal (other : Json F) : ∀ v : Json F,
    conceal secret (conceal other v) = conceal secret v
  | .null => by simp only [conceal]
  | .bool _ => by simp only [conceal]
  | .int _ => by simp only [conceal]
  | .float _ => by simp only [conceal]
  | .str _ => by simp only [conceal]
  | .list items => by simp only [conceal, concealItems_twice other items]
  | .dict members => by simp only [conceal, concealMembers_twice other members]

theorem concealItems_twice (other : Json F) : ∀ items : List (Json F),
    concealItems secret (concealItems other items) = concealItems secret items
  | [] => by simp only [concealItems]
  | v :: vs => by simp only [concealItems, conceal_conceal other v, concealItems_twice other vs]

theorem concealMembers_twice (other : Json F) : ∀ members : List (Text × Json F),
    concealMembers secret (concealMembers other members) = concealMembers secret members
  | [] => by simp only [concealMembers]
  | (key, v) :: ms => by
    have hv := conceal_conceal other v
    have hms := concealMembers_twice other ms
    by_cases hkey : isSensitivePayloadKey key = true <;> simp [concealMembers, hkey, hv, hms]

end

mutual

/-- **The sanitized payload does not depend on secrets.** -/
theorem sanitize_conceal : ∀ (depth : ℕ) (v : Json F),
    sanitizeDeadLetterPayload depth (conceal secret v) = sanitizeDeadLetterPayload depth v
  | depth, .null => by simp only [conceal]
  | depth, .bool _ => by simp only [conceal]
  | depth, .int _ => by simp only [conceal]
  | depth, .float _ => by simp only [conceal]
  | depth, .str _ => by simp only [conceal]
  | depth, .dict members => by
    rw [conceal, sanitizeDeadLetterPayload, sanitizeDeadLetterPayload,
      sanitizeMembers_conceal (depth + 1) members]
  | depth, .list items => by
    rw [conceal]
    by_cases h : depth ≥ maxDeadLetterPayloadDepth
    · simp only [sanitizeDeadLetterPayload, if_pos h]
    · rw [sanitize_list h, sanitize_list h, sanitizeItems_conceal (depth + 1) items]

theorem sanitizeItems_conceal : ∀ (depth : ℕ) (items : List (Json F)),
    sanitizeItems depth (concealItems secret items) = sanitizeItems depth items
  | depth, [] => by simp only [concealItems]
  | depth, v :: vs => by
    simp only [concealItems, sanitizeItems, sanitize_conceal depth v, sanitizeItems_conceal depth vs]

theorem sanitizeMembers_conceal : ∀ (depth : ℕ) (members : List (Text × Json F)),
    sanitizeMembers depth (concealMembers secret members) = sanitizeMembers depth members
  | depth, [] => by simp only [concealMembers]
  | depth, (key, v) :: ms => by
    have hv := sanitize_conceal depth v
    have hms := sanitizeMembers_conceal depth ms
    by_cases hkey : isSensitivePayloadKey key = true <;>
      simp [concealMembers, sanitizeMembers, hkey, hv, hms]

end

mutual

/-- Where there is no secret nothing is concealed. -/
theorem conceal_of_secretless : ∀ {v : Json F}, hasSecret v = false → conceal secret v = v
  | .null, _ => by simp only [conceal]
  | .bool _, _ => by simp only [conceal]
  | .int _, _ => by simp only [conceal]
  | .float _, _ => by simp only [conceal]
  | .str _, _ => by simp only [conceal]
  | .list items, h => by
    rw [hasSecret] at h
    rw [conceal, concealItems_of_secretless h]
  | .dict members, h => by
    rw [hasSecret] at h
    rw [conceal, concealMembers_of_secretless h]

theorem concealItems_of_secretless : ∀ {items : List (Json F)}, itemsHaveSecret items = false →
    concealItems secret items = items
  | [], _ => by simp only [concealItems]
  | v :: vs, h => by
    rw [itemsHaveSecret, Bool.or_eq_false_iff] at h
    rw [concealItems, conceal_of_secretless h.1, concealItems_of_secretless h.2]

theorem concealMembers_of_secretless : ∀ {members : List (Text × Json F)},
    membersHaveSecret members = false → concealMembers secret members = members
  | [], _ => by simp only [concealMembers]
  | (key, v) :: ms, h => by
    rw [membersHaveSecret, Bool.or_eq_false_iff, Bool.or_eq_false_iff] at h
    obtain ⟨⟨hkey, hv⟩, hms⟩ := h
    rw [concealMembers, conceal_of_secretless hv, concealMembers_of_secretless hms]
    simp [hkey]

end

mutual

/-- Concealing keeps the keys. -/
theorem hasSecret_conceal : ∀ v : Json F, hasSecret (conceal secret v) = hasSecret v
  | .null => by simp only [conceal]
  | .bool _ => by simp only [conceal]
  | .int _ => by simp only [conceal]
  | .float _ => by simp only [conceal]
  | .str _ => by simp only [conceal]
  | .list items => by simp only [conceal, hasSecret, itemsHaveSecret_conceal items]
  | .dict members => by simp only [conceal, hasSecret, membersHaveSecret_conceal members]

theorem itemsHaveSecret_conceal : ∀ items : List (Json F),
    itemsHaveSecret (concealItems secret items) = itemsHaveSecret items
  | [] => by simp only [concealItems]
  | v :: vs => by
    simp only [concealItems, itemsHaveSecret, hasSecret_conceal v, itemsHaveSecret_conceal vs]

theorem membersHaveSecret_conceal : ∀ members : List (Text × Json F),
    membersHaveSecret (concealMembers secret members) = membersHaveSecret members
  | [] => by simp only [concealMembers]
  | (key, v) :: ms => by
    have hv := hasSecret_conceal v
    have hms := membersHaveSecret_conceal ms
    by_cases hkey : isSensitivePayloadKey key = true <;>
      simp [concealMembers, membersHaveSecret, hkey, hv, hms]

end

theorem AgreeExceptSecrets.eq_of_secretless {v w : Json F} (h : AgreeExceptSecrets v w)
    (hv : hasSecret v = false) : v = w := by
  unfold AgreeExceptSecrets at h
  have hw : hasSecret w = false := by
    have hconceal : hasSecret (conceal .null v) = hasSecret (conceal .null w) := by rw [h]
    rw [hasSecret_conceal, hasSecret_conceal, hv] at hconceal
    exact hconceal.symm
  rw [conceal_of_secretless hv, conceal_of_secretless hw] at h
  exact h

theorem AgreeExceptSecrets.sanitize {v w : Json F} (h : AgreeExceptSecrets v w) (depth : ℕ) :
    sanitizeDeadLetterPayload depth v = sanitizeDeadLetterPayload depth w :=
  calc sanitizeDeadLetterPayload depth v
      = sanitizeDeadLetterPayload depth (conceal .null v) := (sanitize_conceal depth v).symm
    _ = sanitizeDeadLetterPayload depth (conceal .null w) := by rw [h]
    _ = sanitizeDeadLetterPayload depth w := sanitize_conceal depth w

/-- A member under a key that is not sensitive is concealed on its own. -/
theorem dictGet_conceal {key : Text} (hkey : isSensitivePayloadKey key = false)
    (members : List (Text × Json F)) :
    Python.dictGet (concealMembers secret members) key =
      conceal secret (Python.dictGet members key) := by
  induction members with
  | nil => rfl
  | cons m ms ih =>
    obtain ⟨name, v⟩ := m
    unfold Python.dictGet at ih ⊢
    rw [concealMembers]
    by_cases hname : name = key
    · subst hname
      simp [hkey]
    · simpa [hname] using ih

/-! ## Concealed values are longer -/

/-- A secret of the given length. -/
def longSecret (n : ℕ) : Json F := .str (List.replicate n (Python.ofChar 'x'))

theorem joined_longSecret (n : ℕ) : Joined (List.replicate n (Python.ofChar 'x')) := by
  apply joined_of_scalar
  intro c hc
  rw [List.eq_of_mem_replicate hc]
  rfl

mutual

theorem conceal_decoded (hsecret : secret.Decoded) : ∀ {v : Json F}, v.Decoded →
    (conceal secret v).Decoded
  | .null, h => by rw [conceal]; exact h
  | .bool _, h => by rw [conceal]; exact h
  | .int _, h => by rw [conceal]; exact h
  | .float _, h => by rw [conceal]; exact h
  | .str _, h => by rw [conceal]; exact h
  | .list items, h => by
    rw [Json.Decoded] at h
    rw [conceal, Json.Decoded]
    exact concealItems_decoded hsecret h
  | .dict members, h => by
    rw [Json.Decoded] at h
    have hkeys : (concealMembers secret members).map Prod.fst = members.map Prod.fst :=
      concealMembers_keys secret members
    rw [conceal, Json.Decoded, hkeys]
    exact ⟨h.1, concealMembers_decoded hsecret h.2⟩

theorem concealItems_decoded (hsecret : secret.Decoded) : ∀ {items : List (Json F)},
    Python.ItemsDecoded items → Python.ItemsDecoded (concealItems secret items)
  | [], h => by rw [concealItems]; exact h
  | v :: vs, h => by
    rw [Python.ItemsDecoded] at h
    rw [concealItems, Python.ItemsDecoded]
    exact ⟨conceal_decoded hsecret h.1, concealItems_decoded hsecret h.2⟩

theorem concealMembers_decoded (hsecret : secret.Decoded) : ∀ {members : List (Text × Json F)},
    Python.MembersDecoded members → Python.MembersDecoded (concealMembers secret members)
  | [], h => by rw [concealMembers]; exact h
  | (key, v) :: ms, h => by
    rw [Python.MembersDecoded] at h
    rw [concealMembers, Python.MembersDecoded]
    refine ⟨h.1, ?_, concealMembers_decoded hsecret h.2.2⟩
    split
    · exact hsecret
    · exact conceal_decoded hsecret h.2.1

end

theorem length_reprText (isPrintable : Python.CodePoint → Bool) (s : Text) :
    s.length ≤ (Python.reprText isPrintable s).length := by
  have hchar : ∀ quote c, 1 ≤ (Python.reprChar isPrintable quote c).length := by
    intro quote c
    unfold Python.reprChar
    split_ifs <;> simp [text]
  have hflat : ∀ quote, s.length ≤ (s.flatMap (Python.reprChar isPrintable quote)).length := by
    intro quote
    induction s with
    | nil => simp
    | cons c s ih =>
      have hc := hchar quote c
      simp only [List.flatMap_cons, List.length_append, List.length_cons]
      omega
  unfold Python.reprText
  simp only [List.length_cons, List.length_append]
  have h := hflat (if Python.ofChar '\'' ∈ s ∧ Python.ofChar '"' ∉ s then Python.ofChar '"'
    else Python.ofChar '\'')
  omega

theorem length_intercalate {sep t : Text} {texts : List Text} (h : t ∈ texts) :
    t.length ≤ (sep.intercalate texts).length := by
  induction texts with
  | nil => cases h
  | cons u texts ih =>
    cases texts with
    | nil =>
      rw [List.intercalate_singleton, List.mem_singleton.1 h]
    | cons w texts =>
      rw [List.intercalate_cons_cons, List.length_append, List.length_append]
      rcases List.mem_cons.1 h with rfl | h
      · omega
      · have := ih h
        omega

section

variable [Runtime F]

mutual

/-- **A secret shows in the text of its value.** -/
theorem length_repr_conceal (n : ℕ) : ∀ {v : Json F}, hasSecret v = true →
    n ≤ (conceal (longSecret n) v).repr.length
  | .null, h => by simp [hasSecret] at h
  | .bool _, h => by simp [hasSecret] at h
  | .int _, h => by simp [hasSecret] at h
  | .float _, h => by simp [hasSecret] at h
  | .str _, h => by simp [hasSecret] at h
  | .list items, h => by
    rw [hasSecret] at h
    obtain ⟨t, ht, hn⟩ := length_repr_concealItems n h
    have hlen : t.length ≤ ((text ", ").intercalate _).length := length_intercalate ht
    rw [conceal, Json.repr, List.length_append, List.length_append]
    omega
  | .dict members, h => by
    rw [hasSecret] at h
    obtain ⟨t, ht, hn⟩ := length_repr_concealMembers n h
    have hlen : t.length ≤ ((text ", ").intercalate _).length := length_intercalate ht
    rw [conceal, Json.repr, List.length_append, List.length_append]
    omega

theorem length_repr_concealItems (n : ℕ) : ∀ {items : List (Json F)}, itemsHaveSecret items = true →
    ∃ t ∈ Python.reprItems (concealItems (longSecret n) items), n ≤ t.length
  | [], h => by simp [itemsHaveSecret] at h
  | v :: vs, h => by
    rw [itemsHaveSecret, Bool.or_eq_true] at h
    rw [concealItems, Python.reprItems]
    rcases h with h | h
    · exact ⟨_, List.mem_cons_self, length_repr_conceal n h⟩
    · obtain ⟨t, ht, hn⟩ := length_repr_concealItems n h
      exact ⟨t, List.mem_cons_of_mem _ ht, hn⟩

theorem length_repr_concealMembers (n : ℕ) : ∀ {members : List (Text × Json F)},
    membersHaveSecret members = true →
    ∃ t ∈ Python.reprMembers (concealMembers (longSecret n) members), n ≤ t.length
  | [], h => by simp [membersHaveSecret] at h
  | (key, v) :: ms, h => by
    rw [membersHaveSecret, Bool.or_eq_true, Bool.or_eq_true] at h
    rw [concealMembers, Python.reprMembers]
    by_cases hkey : isSensitivePayloadKey key = true
    · refine ⟨_, List.mem_cons_self, ?_⟩
      have hlen := length_reprText (Runtime.isPrintable F) (List.replicate n (Python.ofChar 'x'))
      rw [List.length_replicate] at hlen
      rw [if_pos hkey, longSecret, Json.repr, List.length_append]
      omega
    rcases h with (h | hv) | hms
    · exact absurd h hkey
    · refine ⟨_, List.mem_cons_self, ?_⟩
      have hlen := length_repr_conceal n hv
      rw [if_neg hkey, List.length_append]
      omega
    · obtain ⟨t, ht, hn⟩ := length_repr_concealMembers n hms
      exact ⟨t, List.mem_cons_of_mem _ ht, hn⟩

end

end

/-! ## What is published -/

variable [Floats F]

/-- What `handle_message` may publish about a message whose handler raises `exc`. -/
def Publishes (message : Msg) (policy : EventRetryPolicy) (exc : PyException)
    (p : DeadLetterPublication) : Prop :=
  ∃ (fs : List (Fault PyException)) (o : Outcome (inbox F) Unit) (handed : EventBusMessage F),
    (handleMessage message (some policy) true).exec? (inbox F) fs {} = some o ∧
    ⟨.handler handed, .error exc⟩ ∈ o.calls ∧
    ∃ d ∈ o.state.deadLetters, p = publishDeadLetter d.1 d.2

/-- The same subject, attempt and sequence. -/
structure SameDelivery (message message' : Msg) : Prop where
  subject : message'.subject = message.subject
  numDelivered : message'.numDelivered = message.numDelivered
  streamSequence : message'.streamSequence = message.streamSequence

omit [Floats F] in
/-- The letters of a publish and an ack. -/
theorem published_letters {subject : Text} {letter : DeadLetter F} {fs : List (Fault PyException)}
    {s : Inbox F} {o : Outcome (inbox F) Unit}
    (ho : (Prog.call (σ := Bus F) (.deadLetterPublisher subject letter) >>= fun _ => ack).exec?
      (inbox F) fs s = some o) :
    (∀ d ∈ o.state.deadLetters, d ∈ s.deadLetters ∨ d = (subject, letter)) ∧
      ∀ c ∈ o.calls, ∀ handed, c.call ≠ .handler handed := by
  have hnot : ∀ c : Served (Bus F), (∀ handed, c.call ≠ .handler handed) →
      ∀ c' ∈ [c], ∀ handed, c'.call ≠ .handler handed := by
    intro c h c' hc'
    rw [List.mem_singleton.1 hc']
    exact h
  rcases Prog.exec_call_bind ho with ⟨rfl, rfl⟩ | ⟨fs', a, s', o', rfl, he, h', rfl⟩ |
    ⟨f, fs', e, s', rfl, hf, hs, rfl⟩
  · exact ⟨fun d hd => Or.inl hd, fun c hc => by cases hc⟩
  · cases he
    have hack := (ack_exec h').1
    have hcalls : ∀ c ∈ o'.calls, ∀ handed, c.call ≠ .handler handed := by
      rcases Prog.exec_call h' with ⟨-, rfl⟩ | ⟨-, -, -, -, -, rfl⟩ | ⟨-, -, -, -, -, -, -, rfl⟩
      · intro c hc; cases hc
      · exact hnot _ fun handed h => by cases h
      · exact hnot _ fun handed h => by cases h
    constructor
    · intro d hd
      rw [Outcome.after_state, hack] at hd
      rcases List.mem_append.1 hd with hd | hd
      · exact Or.inl hd
      · exact Or.inr (List.mem_singleton.1 hd)
    · intro c hc
      rcases List.mem_cons.1 hc with rfl | hc
      · intro handed h; cases h
      · exact hcalls c hc
  · refine ⟨fun d hd => ?_, hnot _ fun handed h => by cases h⟩
    rcases Machine.serve_state hs with ⟨-, a, ha⟩ | ⟨-, rfl⟩
    · cases ha
      rcases List.mem_append.1 hd with hd | hd
      · exact Or.inl hd
      · exact Or.inr (List.mem_singleton.1 hd)
    · exact Or.inl hd

/-- **What `handle_message` publishes**, and when: the letter that the builder makes, on the last
attempt. -/
theorem publishes_iff {message : Msg} {members : List (Text × Json F)} {policy : EventRetryPolicy}
    {exc : PyException} {p : DeadLetterPublication}
    (hd : decodePayload message.data = .ok (.dict members)) :
    Publishes (F := F) message policy exc p ↔
      policy.maxDeliver ≤ getDeliveryAttempt message ∧ ∃ letter,
        buildDeadLetterPayload message (.dict members) exc (getDeliveryAttempt message)
          policy.maxDeliver = .ok letter ∧ p = publishDeadLetter policy.deadLetterSubject letter := by
  obtain ⟨letter, hletter⟩ := letter_of_members message members exc (getDeliveryAttempt message)
    policy.maxDeliver
  constructor
  · rintro ⟨fs, o, handed, ho, hcall, d, hdl, rfl⟩
    rw [handle_object policy hd] at ho
    rcases Prog.exec_attempt_bind ho with ⟨rfl, rfl⟩ | ⟨f, fs', r, s', o', rfl, hs, ho', rfl⟩
    · cases hdl
    have hs' : s' = {} := handler_serve hs
    rw [hs'] at ho'
    cases r with
    | ok a =>
      -- a message that was handled is acknowledged, and publishes nothing
      have hack := (ack_exec ho').1
      rw [Outcome.after_state, hack] at hdl
      cases hdl
    | error e =>
      by_cases hlast : policy.maxDeliver ≤ getDeliveryAttempt message
      · -- the exception of the run is the one that the handler raised
        have hexc : exc = e := by
          obtain ⟨letter', hletter'⟩ := letter_of_members message members e
            (getDeliveryAttempt message) policy.maxDeliver
          rw [afterHandler, handleFailure_letter _ _ hlast hletter'] at ho'
          rcases List.mem_cons.1 hcall with h | h
          · cases h; rfl
          · exact absurd rfl ((published_letters ho').2 _ h handed)
        subst hexc
        rw [afterHandler, handleFailure_letter _ _ hlast hletter] at ho'
        rcases (published_letters ho').1 d hdl with h | rfl
        · cases h
        · exact ⟨hlast, letter, hletter, rfl⟩
      · -- before the last delivery the message is only given back
        rw [afterHandler, handleFailure_retry _ _ (by omega)] at ho'
        have hnak := (nak_exec ho').1
        rw [Outcome.after_state, hnak] at hdl
        cases hdl
  · rintro ⟨hlast, letter', hletter', rfl⟩
    rw [hletter] at hletter'
    cases hletter'
    obtain ⟨o, ho, hfails, hends⟩ := published_runs policy.deadLetterSubject letter ({} : Inbox F)
    obtain ⟨-, hletters, -⟩ := published_exec ho hfails hends
    have hrun : (handleFailure message (.dict members) exc (some policy) true).exec?
        (inbox F) [.works, .works] {} = some o := by
      rw [handleFailure_letter _ _ hlast hletter]
      exact ho
    have hmem : (policy.deadLetterSubject, letter) ∈ o.state.deadLetters := by
      rw [hletters]
      simp
    exact ⟨_, _, _, handler_raises hd hrun, List.mem_cons_self, _, hmem, rfl⟩

omit [Floats F] in
/-- The letter depends on the message's delivery, its own key and its sanitized body. -/
theorem letter_congr [Runtime F] {message message' : Msg} {members members' : List (Text × Json F)}
    (h : SameDelivery message message')
    (hkey : Python.dictGet members' (text "idempotency_key") =
      Python.dictGet members (text "idempotency_key"))
    (hbody : sanitizeDeadLetterPayload 0 (.dict members') =
      sanitizeDeadLetterPayload 0 (.dict members)) (exc : PyException) (attempt cap : ℤ) :
    buildDeadLetterPayload message' (.dict members') exc attempt cap =
      buildDeadLetterPayload message (.dict members) exc attempt cap := by
  have hsequence : getStreamSequence message' = getStreamSequence message := h.streamSequence
  simp only [buildDeadLetterPayload, getAttr, hkey, hbody, hsequence, h.subject]

theorem idempotency_key_not_sensitive :
    isSensitivePayloadKey (text "idempotency_key") = false := by decide

omit [Floats F] in
theorem AgreeExceptSecrets.dictGet {members members' : List (Text × Json F)}
    (h : AgreeExceptSecrets (.dict members) (.dict members')) {key : Text}
    (hkey : isSensitivePayloadKey key = false) :
    AgreeExceptSecrets (Python.dictGet members key) (Python.dictGet members' key) := by
  unfold AgreeExceptSecrets at h ⊢
  simp only [conceal, Json.dict.injEq] at h
  rw [← dictGet_conceal hkey, ← dictGet_conceal hkey, h]

/-- A message with a secret inside of its own key has a twin that differs in secrets only, and
whose key is longer. -/
theorem longer_twin {message : Msg} {members : List (Text × Json F)}
    (hd : decodePayload message.data = .ok (.dict members))
    (hsecret : hasSecret (Python.dictGet members (text "idempotency_key")) = true) :
    ∃ (message' : Msg) (members' : List (Text × Json F)), SameDelivery message message' ∧
      decodePayload message'.data = .ok (.dict members') ∧
      AgreeExceptSecrets (.dict members) (.dict members') ∧
      (Python.dictGet members (text "idempotency_key")).repr.length <
        (Python.dictGet members' (text "idempotency_key")).repr.length ∧
      hasSecret (Python.dictGet members' (text "idempotency_key")) = true := by
  set n := (Python.dictGet members (text "idempotency_key")).repr.length + 1 with hn
  have hlong : (longSecret n : Json F).Decoded := by
    rw [longSecret, Json.Decoded]
    exact joined_longSecret n
  have hdecoded := conceal_decoded hlong (decoded_body hd)
  have hget : Python.dictGet (concealMembers (longSecret n) members) (text "idempotency_key") =
      conceal (longSecret n) (Python.dictGet members (text "idempotency_key")) :=
    dictGet_conceal idempotency_key_not_sensitive members
  rw [conceal] at hdecoded
  refine ⟨{ message with
      data := (Json.dict (concealMembers (longSecret n) members)).write.map
        fun c => UInt8.ofNat c.val },
    concealMembers (longSecret n) members, ⟨rfl, rfl, rfl⟩, decodePayload_write hdecoded, ?_, ?_, ?_⟩
  · have htwice : conceal .null (conceal (longSecret n) (.dict members)) =
        conceal .null (.dict members) := conceal_conceal _ _
    rw [conceal] at htwice
    exact htwice.symm
  · have hlen := length_repr_conceal n hsecret
    rw [hget]
    omega
  · rw [hget, hasSecret_conceal]
    exact hsecret

omit [Floats F] in
/-- A value with a secret inside is neither empty nor a text. -/
theorem toText_of_secret [Runtime F] {v : Json F} (h : hasSecret v = true) :
    v.truth = true ∧ v.toText = v.repr := by
  cases v with
  | null => simp [hasSecret] at h
  | bool b => simp [hasSecret] at h
  | int n => simp [hasSecret] at h
  | float x => simp [hasSecret] at h
  | str s => simp [hasSecret] at h
  | list items =>
    cases items with
    | nil => simp [hasSecret, itemsHaveSecret] at h
    | cons v vs => exact ⟨rfl, rfl⟩
  | dict members =>
    cases members with
    | nil => simp [hasSecret, membersHaveSecret] at h
    | cons m ms => exact ⟨rfl, rfl⟩

/-- The message id of a letter is its key. -/
theorem messageId_eq (subject : Text) {letter : DeadLetter F} (h : letter.idempotencyKey ≠ []) :
    (publishDeadLetter subject letter).messageId = some letter.idempotencyKey := by
  have hget : Python.dictGet letter.toJson (text "idempotency_key") = .str letter.idempotencyKey := rfl
  have htruth : (Json.str letter.idempotencyKey : Json F).truth = true := decide_eq_true h
  show publishHeaders letter.toJson = _
  unfold publishHeaders
  rw [hget]
  dsimp only
  rw [if_pos htruth]
  rfl

/-- The message id, where a secret stands inside of the message's own key. -/
theorem messageId_of_secret {message : Msg} {members : List (Text × Json F)} {exc : PyException}
    {attempt cap : ℤ} {letter : DeadLetter F} (subject : Text)
    (hsecret : hasSecret (Python.dictGet members (text "idempotency_key")) = true)
    (hletter : buildDeadLetterPayload message (.dict members) exc attempt cap = .ok letter) :
    (publishDeadLetter subject letter).messageId = some (text "dlq:" ++ message.subject ++ text ":" ++
      (Python.dictGet members (text "idempotency_key")).repr) := by
  obtain ⟨htruth, htext⟩ := toText_of_secret hsecret
  have hkey : letter.idempotencyKey = text "dlq:" ++ message.subject ++ text ":" ++
      (Python.dictGet members (text "idempotency_key")).repr := by
    cases hletter
    show buildDeadLetterIdempotencyKey _ _ _ = _
    unfold buildDeadLetterIdempotencyKey
    rw [if_pos htruth, htext]
  rw [messageId_eq, hkey]
  rw [hkey]
  simp [text]

/-- **A dead letter depends on no secret, exactly when the message's own key has none inside**:
then every message that differs in secrets only is dead-lettered in the same way. -/
theorem secretless_iff {message : Msg} {members : List (Text × Json F)}
    (hd : decodePayload message.data = .ok (.dict members)) :
    (∀ (message' : Msg) (members' : List (Text × Json F)), SameDelivery message message' →
      decodePayload message'.data = .ok (.dict members') →
      AgreeExceptSecrets (.dict members) (.dict members') →
      ∀ policy exc p, Publishes (F := F) message policy exc p ↔
        Publishes (F := F) message' policy exc p) ↔
      hasSecret (Python.dictGet members (text "idempotency_key")) = false := by
  constructor
  · intro hall
    by_contra hsecret
    rw [Bool.not_eq_false] at hsecret
    obtain ⟨message', members', hsame, hd', hagree, hlonger, hsecret'⟩ := longer_twin hd hsecret
    -- the last attempt of both messages
    have hattempt : getDeliveryAttempt message' = getDeliveryAttempt message := by
      unfold getDeliveryAttempt
      rw [hsame.numDelivered]
    let policy : EventRetryPolicy := { maxDeliver := getDeliveryAttempt message }
    obtain ⟨letter, hletter⟩ := letter_of_members message members valueError
      (getDeliveryAttempt message) policy.maxDeliver
    have hp : Publishes message policy valueError
        (publishDeadLetter policy.deadLetterSubject letter) :=
      (publishes_iff hd).2 ⟨le_refl _, letter, hletter, rfl⟩
    obtain ⟨-, letter', hletter', hpp⟩ :=
      (publishes_iff hd').1 ((hall message' members' hsame hd' hagree policy valueError _).1 hp)
    have hid := messageId_of_secret policy.deadLetterSubject hsecret hletter
    rw [hpp, messageId_of_secret policy.deadLetterSubject hsecret' hletter', hsame.subject] at hid
    have hlen := congrArg List.length (Option.some.inj hid)
    simp only [List.length_append] at hlen
    omega
  · intro hsecretless message' members' hsame hd' hagree policy exc p
    have hkey := (hagree.dictGet idempotency_key_not_sensitive).eq_of_secretless hsecretless
    have hattempt : getDeliveryAttempt message' = getDeliveryAttempt message := by
      unfold getDeliveryAttempt
      rw [hsame.numDelivered]
    rw [publishes_iff hd, publishes_iff hd', hattempt]
    simp only [letter_congr hsame hkey.symm (hagree.sanitize 0).symm]

/-- The last attempt of a message with the given body. -/
def writtenMessage (members : List (Text × Json Unit)) : Msg :=
  { failedMessage "" with data := (Json.dict members).write.map fun c => UInt8.ofNat c.val }

theorem same_written (members members' : List (Text × Json Unit)) :
    SameDelivery (writtenMessage members) (writtenMessage members') := ⟨rfl, rfl, rfl⟩

/-- `{"idempotency_key": "fill-7", "token": token}` -/
def tokenBeside (token : String) : List (Text × Json Unit) :=
  [(text "idempotency_key", .str (text "fill-7")), (text "token", .str (text token))]

/-- `{"idempotency_key": {"token": token}}` -/
def tokenInside (token : String) : List (Text × Json Unit) :=
  [(text "idempotency_key", .dict [(text "token", .str (text token))])]

theorem tokenBeside_body (token : String) :
    decodePayload (writtenMessage (tokenBeside token)).data = .ok (.dict (tokenBeside token)) := by
  have hnodup : ([text "idempotency_key", text "token"] : List Text).Nodup := by decide
  refine decodePayload_write ?_
  simp only [tokenBeside, Json.Decoded, Python.MembersDecoded, List.map_cons, List.map_nil]
  exact ⟨hnodup, joined_of_scalar (scalar_text _), joined_of_scalar (scalar_text _),
    joined_of_scalar (scalar_text _), joined_of_scalar (scalar_text _), trivial⟩

theorem tokenInside_body (token : String) :
    decodePayload (writtenMessage (tokenInside token)).data = .ok (.dict (tokenInside token)) := by
  refine decodePayload_write ?_
  simp only [tokenInside, Json.Decoded, Python.MembersDecoded, List.map_cons, List.map_nil]
  exact ⟨List.nodup_singleton _, joined_of_scalar (scalar_text _),
    ⟨List.nodup_singleton _, joined_of_scalar (scalar_text _), joined_of_scalar (scalar_text _),
      trivial⟩, trivial⟩

theorem token_sensitive : isSensitivePayloadKey (text "token") = true := by decide

theorem agree_tokenBeside (token token' : String) :
    AgreeExceptSecrets (.dict (tokenBeside token)) (.dict (tokenBeside token')) := by
  unfold AgreeExceptSecrets tokenBeside
  simp only [conceal, concealMembers, token_sensitive, if_true]

theorem agree_tokenInside (token token' : String) :
    AgreeExceptSecrets (.dict (tokenInside token)) (.dict (tokenInside token')) := by
  unfold AgreeExceptSecrets tokenInside
  simp only [conceal, concealMembers, token_sensitive, if_true]

/-- Some dead letter of the last attempt. -/
theorem publishes_written {members : List (Text × Json Unit)}
    (hd : decodePayload (writtenMessage members).data = .ok (.dict members)) :
    ∃ letter, buildDeadLetterPayload (writtenMessage members) (.dict members) ⟨"RuntimeError"⟩ 3 3 =
        .ok letter ∧
      Publishes (F := Unit) (writtenMessage members) {} ⟨"RuntimeError"⟩
        (publishDeadLetter (text deadLetterEventCreated) letter) := by
  obtain ⟨letter, hletter⟩ :=
    letter_of_members (writtenMessage members) members ⟨"RuntimeError"⟩ 3 3
  have hlast : (3 : ℤ) ≤ getDeliveryAttempt (writtenMessage members) := le_refl _
  exact ⟨letter, hletter, (publishes_iff hd).2 ⟨hlast, letter, hletter, rfl⟩⟩

/-- A token beside the key does not show. -/
theorem secretless_iff_beside_key :
    ∃ p, Publishes (F := Unit) (writtenMessage (tokenBeside "a")) {} ⟨"RuntimeError"⟩ p ∧
      Publishes (F := Unit) (writtenMessage (tokenBeside "b")) {} ⟨"RuntimeError"⟩ p := by
  obtain ⟨letter, -, hp⟩ := publishes_written (tokenBeside_body "a")
  have hall := (secretless_iff (tokenBeside_body "a")).2 (by decide) _ _
    (same_written (tokenBeside "a") (tokenBeside "b")) (tokenBeside_body "b")
    (agree_tokenBeside "a" "b")
  exact ⟨_, hp, (hall _ _ _).1 hp⟩

/-- **A token inside of the key shows**: two messages that differ in it have two dead letters. -/
theorem secret_in_key_published :
    ¬ ∀ (message message' : Msg) (members members' : List (Text × Json Unit)),
      SameDelivery message message' → decodePayload message.data = .ok (.dict members) →
      decodePayload message'.data = .ok (.dict members') →
      AgreeExceptSecrets (.dict members) (.dict members') →
      ∀ policy exc p p', Publishes (F := Unit) message policy exc p →
        Publishes (F := Unit) message' policy exc p' → p = p' := by
  intro hall
  obtain ⟨letter, hletter, hp⟩ := publishes_written (tokenInside_body "a")
  obtain ⟨letter', hletter', hp'⟩ := publishes_written (tokenInside_body "b")
  have heq := hall _ _ _ _ (same_written _ _) (tokenInside_body "a") (tokenInside_body "b")
    (agree_tokenInside "a" "b") _ _ _ _ hp hp'
  have hid := messageId_of_secret (text deadLetterEventCreated) (by decide) hletter
  rw [heq, messageId_of_secret (text deadLetterEventCreated) (by decide) hletter'] at hid
  have hrepr := List.append_cancel_left (Option.some.inj hid)
  revert hrepr
  decide

end CopyTrade
