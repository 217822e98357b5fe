import CopyTrade.Proof.Idempotence
import CopyTrade.Spec.DeadLetterStore

/-!
# What sanitizing keeps

The payload of a dead letter is sanitized by the bus, again before it is recorded, and
again before it is shown. The second time changes nothing.

* `sanitize_sanitize`: sanitizing is idempotent.
* `decoded_sanitize`: what was decoded stays readable.
* `storable_sanitize`: what `jsonb` takes of a sanitized value, in terms of the value.
-/

namespace CopyTrade

open Python (Text text Json Runtime Floats Joined Scalar isSurrogate)

variable {F : Type}

/-! ## Texts -/

theorem encodeChar_isSome (c : Python.CodePoint) :
    (Python.encodeChar c).isSome = !isSurrogate c := by
  unfold Python.encodeChar
  dsimp only
  by_cases h1 : c.val < 0x80
  · have : isSurrogate c = false := by
      unfold isSurrogate
      simp only [Bool.and_eq_false_iff, decide_eq_false_iff_not]; omega
    rw [if_pos h1, this]; rfl
  by_cases h2 : c.val < 0x800
  · have : isSurrogate c = false := by
      unfold isSurrogate
      simp only [Bool.and_eq_false_iff, decide_eq_false_iff_not]; omega
    rw [if_neg h1, if_pos h2, this]; rfl
  rw [if_neg h1, if_neg h2]
  cases h3 : isSurrogate c with
  | true => rfl
  | false =>
    rw [if_neg Bool.false_ne_true]
    split <;> rfl

theorem mapM_encodeChar_isSome (s : Text) :
    (s.mapM Python.encodeChar).isSome = s.all fun c => !isSurrogate c := by
  induction s with
  | nil => rfl
  | cons c s ih =>
    have hcons : (List.mapM Python.encodeChar (c :: s)).isSome =
        ((Python.encodeChar c).isSome && (s.mapM Python.encodeChar).isSome) := by
      rw [List.mapM_cons]
      cases Python.encodeChar c with
      | none => rfl
      | some b => cases s.mapM Python.encodeChar <;> rfl
    rw [hcons, ih, encodeChar_isSome, List.all_cons]

theorem encodeUtf8_isSome (s : Text) : (Python.encodeUtf8 s).isSome = true ↔ Scalar s := by
  have hbind : (Python.encodeUtf8 s).isSome = (s.mapM Python.encodeChar).isSome := by
    unfold Python.encodeUtf8
    cases s.mapM Python.encodeChar <;> rfl
  rw [hbind, mapM_encodeChar_isSome]
  simp [Scalar]

/-- **What a text column takes**: no `U+0000` and no surrogate. -/
theorem textStorable_iff {s : Text} :
    textStorable s = true ↔ ∀ c ∈ s, c.val ≠ 0 ∧ isSurrogate c = false := by
  unfold textStorable
  rw [Bool.and_eq_true, encodeUtf8_isSome, List.all_eq_true]
  constructor
  · rintro ⟨h1, h2⟩ c hc
    exact ⟨of_decide_eq_true (h2 c hc), h1 c hc⟩
  · intro h
    exact ⟨fun c hc => (h c hc).2, fun c hc => decide_eq_true (h c hc).1⟩

theorem textStorable_append {s t : Text} :
    textStorable (s ++ t) = true ↔ textStorable s = true ∧ textStorable t = true := by
  rw [textStorable_iff, textStorable_iff, textStorable_iff]
  simp only [List.mem_append]
  constructor
  · intro h
    exact ⟨fun c hc => h c (Or.inl hc), fun c hc => h c (Or.inr hc)⟩
  · rintro ⟨h1, h2⟩ c (hc | hc)
    · exact h1 c hc
    · exact h2 c hc

/-- A text without surrogates in front changes no pair. -/
theorem joined_append {s t : Text} (hs : Scalar s) (ht : Joined t) : Joined (s ++ t) := by
  induction s with
  | nil => exact ht
  | cons c s ih =>
    have hc := hs c List.mem_cons_self
    have htail := ih hs.tail
    cases hst : s ++ t with
    | nil => rw [List.cons_append, hst]; exact List.IsChain.singleton _
    | cons d l =>
      rw [List.cons_append, hst]
      rw [hst] at htail
      refine List.isChain_cons_cons.2 ⟨fun h => ?_, htail⟩
      have := Python.isSurrogate_high h.1
      rw [hc] at this; cases this

theorem joined_of_scalar {s : Text} (hs : Scalar s) : Joined s := by
  have := joined_append hs List.IsChain.nil
  rw [List.append_nil] at this
  exact this

theorem scalar_of_storable {s : Text} (h : textStorable s = true) : Scalar s :=
  fun c hc => (textStorable_iff.1 h c hc).2

/-! ## Leaves and lists -/

/-- Neither `None` nor a container. -/
def IsLeaf : Json F → Prop
  | .null => False
  | .dict _ => False
  | .list _ => False
  | _ => True

theorem sanitize_leaf {v : Json F} (h : IsLeaf v) (depth : ℕ) :
    sanitizeDeadLetterPayload depth v =
      if depth ≥ maxDeadLetterPayloadDepth then truncatedValue else v := by
  cases v with
  | null => exact absurd h id
  | dict members => exact absurd h id
  | list items => exact absurd h id
  | bool b => simp [sanitizeDeadLetterPayload]
  | int n => simp [sanitizeDeadLetterPayload]
  | float x => simp [sanitizeDeadLetterPayload]
  | str s => simp [sanitizeDeadLetterPayload]

theorem length_sanitizeItems (depth : ℕ) (items : List (Json F)) :
    (sanitizeItems depth items).length = items.length := by
  induction items with
  | nil => rw [sanitizeItems]
  | cons v vs ih => rw [sanitizeItems, List.length_cons, ih, List.length_cons]

/-- The items that a list keeps: the first ones, and a mark where there were more. -/
def keptItems (items : List (Json F)) : List (Json F) :=
  items.take maxDeadLetterListItems ++
    if items.length > maxDeadLetterListItems then [truncatedValue] else []

theorem sanitize_list {depth : ℕ} (h : ¬ depth ≥ maxDeadLetterPayloadDepth) (items : List (Json F)) :
    sanitizeDeadLetterPayload depth (.list items) =
      .list (keptItems (sanitizeItems (depth + 1) items)) := by
  rw [sanitizeDeadLetterPayload, if_neg h, keptItems, length_sanitizeItems]

/-! ## Sanitizing twice -/

/-- **Sanitizing twice is sanitizing once**, on JSON values as on all. -/
theorem sanitize_sanitize (depth : ℕ) (v : Json F) :
    sanitizeDeadLetterPayload depth (sanitizeDeadLetterPayload depth v) =
      sanitizeDeadLetterPayload depth v := by
  have h := sanitizeValue_idempotent depth (ofJson v)
  rw [sanitizeValue_ofJson, sanitizeValue_ofJson] at h
  exact ofJson_injective h

/-! ## What was decoded stays readable -/

theorem decoded_redacted : (redactedValue : Json F).Decoded := by
  unfold redactedValue
  rw [Json.Decoded]
  exact joined_of_scalar (scalar_of_storable rfl)

theorem decoded_truncated : (truncatedValue : Json F).Decoded := by
  unfold truncatedValue
  rw [Json.Decoded]
  exact joined_of_scalar (scalar_of_storable rfl)

theorem decoded_keptItems {items : List (Json F)} (h : Python.ItemsDecoded items) :
    Python.ItemsDecoded (keptItems items) := by
  rw [Python.itemsDecoded_iff] at h ⊢
  intro v hv
  unfold keptItems at hv
  rcases List.mem_append.1 hv with hv | hv
  · exact h v (List.mem_of_mem_take hv)
  · split at hv
    · rw [List.mem_singleton.1 hv]; exact decoded_truncated
    · cases hv

theorem keys_sanitizeMembers (depth : ℕ) (members : List (Text × Json F)) :
    (sanitizeMembers depth members).map Prod.fst = members.map Prod.fst := by
  induction members with
  | nil => rw [sanitizeMembers]
  | cons m ms ih => rw [sanitizeMembers, List.map_cons, List.map_cons, ih]

theorem decoded_leaf {v : Json F} (h : v.Decoded) (hleaf : IsLeaf v) (depth : ℕ) :
    (sanitizeDeadLetterPayload depth v).Decoded := by
  rw [sanitize_leaf hleaf]
  split
  · exact decoded_truncated
  · exact h

mutual

/-- **What was decoded stays readable.** -/
theorem decoded_sanitize : ∀ (depth : ℕ) {v : Json F}, v.Decoded →
    (sanitizeDeadLetterPayload depth v).Decoded
  | depth, .null, h => by rw [sanitizeDeadLetterPayload]; exact h
  | depth, .dict members, h => by
    rw [sanitizeDeadLetterPayload]
    split
    · exact decoded_truncated
    · rw [Json.Decoded] at h ⊢
      rw [keys_sanitizeMembers]
      exact ⟨h.1, decoded_sanitizeMembers (depth + 1) h.2⟩
  | depth, .list items, h => by
    by_cases hd : depth ≥ maxDeadLetterPayloadDepth
    · rw [sanitizeDeadLetterPayload, if_pos hd]; exact decoded_truncated
    · rw [sanitize_list hd]
      rw [Json.Decoded] at h ⊢
      exact decoded_keptItems (decoded_sanitizeItems (depth + 1) h)
  | depth, .bool _, h => decoded_leaf h trivial depth
  | depth, .int _, h => decoded_leaf h trivial depth
  | depth, .float _, h => decoded_leaf h trivial depth
  | depth, .str _, h => decoded_leaf h trivial depth

theorem decoded_sanitizeItems : ∀ (depth : ℕ) {items : List (Json F)}, Python.ItemsDecoded items →
    Python.ItemsDecoded (sanitizeItems depth items)
  | depth, [], _ => by rw [sanitizeItems]; exact trivial
  | depth, v :: vs, h => by
    rw [Python.ItemsDecoded] at h
    rw [sanitizeItems, Python.ItemsDecoded]
    exact ⟨decoded_sanitize depth h.1, decoded_sanitizeItems depth h.2⟩

theorem decoded_sanitizeMembers : ∀ (depth : ℕ) {members : List (Text × Json F)},
    Python.MembersDecoded members → Python.MembersDecoded (sanitizeMembers depth members)
  | depth, [], _ => by rw [sanitizeMembers]; exact trivial
  | depth, (key, v) :: ms, h => by
    rw [Python.MembersDecoded] at h
    rw [sanitizeMembers, Python.MembersDecoded]
    refine ⟨h.1, ?_, decoded_sanitizeMembers depth h.2.2⟩
    split
    · exact decoded_redacted
    · exact decoded_sanitize depth h.2.1

end

/-! ## What the store takes of it -/

section

variable [Floats F]

mutual

/-- The store takes what the sanitizer keeps of the value at this depth: keys and texts
without `U+0000` and surrogates, and finite floats. -/
def keptStorable (depth : ℕ) : Json F → Bool
  | .null => true
  | .dict members => depth ≥ maxDeadLetterPayloadDepth || keptMembersStorable (depth + 1) members
  | .list items =>
    depth ≥ maxDeadLetterPayloadDepth || keptItemsStorable (depth + 1) maxDeadLetterListItems items
  | value => depth ≥ maxDeadLetterPayloadDepth || jsonbStorable value

/-- The same of the first `n` items. -/
def keptItemsStorable (depth : ℕ) : ℕ → List (Json F) → Bool
  | 0, _ => true
  | _, [] => true
  | n + 1, v :: vs => keptStorable depth v && keptItemsStorable depth n vs

/-- The same of the members, except for redacted values. -/
def keptMembersStorable (depth : ℕ) : List (Text × Json F) → Bool
  | [] => true
  | (key, v) :: ms =>
    textStorable key && (isSensitivePayloadKey key || keptStorable depth v) &&
      keptMembersStorable depth ms

end

theorem storable_truncated : jsonbStorable (truncatedValue : Json F) = true := by
  unfold truncatedValue
  rw [jsonbStorable]; rfl

theorem storable_redacted : jsonbStorable (redactedValue : Json F) = true := by
  unfold redactedValue
  rw [jsonbStorable]; rfl

theorem itemsStorable_append (a b : List (Json F)) :
    itemsStorable (a ++ b) = (itemsStorable a && itemsStorable b) := by
  induction a with
  | nil => rw [itemsStorable]; rfl
  | cons v vs ih => rw [List.cons_append, itemsStorable, ih, itemsStorable, Bool.and_assoc]

theorem storable_keptItems (items : List (Json F)) :
    itemsStorable (keptItems items) = itemsStorable (items.take maxDeadLetterListItems) := by
  unfold keptItems
  rw [itemsStorable_append]
  split
  · rw [itemsStorable, itemsStorable, storable_truncated]; simp
  · rw [itemsStorable]; simp

theorem storable_leaf {v : Json F} (depth : ℕ) (h : IsLeaf v) :
    jsonbStorable (sanitizeDeadLetterPayload depth v) = keptStorable depth v := by
  have hkept : keptStorable depth v =
      (decide (depth ≥ maxDeadLetterPayloadDepth) || jsonbStorable v) := by
    cases v with
    | null => exact absurd h id
    | dict members => exact absurd h id
    | list items => exact absurd h id
    | bool b => simp [keptStorable]
    | int n => simp [keptStorable]
    | float x => simp [keptStorable]
    | str s => simp [keptStorable]
  rw [sanitize_leaf h, hkept]
  split
  · rename_i hd
    rw [storable_truncated, decide_eq_true hd]; rfl
  · rename_i hd
    rw [decide_eq_false hd, Bool.false_or]

mutual

/-- **What `jsonb` takes of a sanitized value.** -/
theorem storable_sanitize : ∀ (depth : ℕ) (v : Json F),
    jsonbStorable (sanitizeDeadLetterPayload depth v) = keptStorable depth v
  | depth, .null => by rw [sanitizeDeadLetterPayload, jsonbStorable, keptStorable] <;> simp
  | depth, .dict members => by
    rw [sanitizeDeadLetterPayload, keptStorable]
    split
    · rename_i hd
      rw [storable_truncated, decide_eq_true hd]; rfl
    · rename_i hd
      rw [decide_eq_false hd, Bool.false_or, jsonbStorable, storable_sanitizeMembers (depth + 1) members]
  | depth, .list items => by
    rw [keptStorable]
    by_cases hd : depth ≥ maxDeadLetterPayloadDepth
    · rw [sanitizeDeadLetterPayload, if_pos hd, storable_truncated, decide_eq_true hd]; rfl
    · rw [sanitize_list hd, decide_eq_false hd, Bool.false_or, jsonbStorable, storable_keptItems,
        storable_sanitizeItems (depth + 1) items]
  | depth, .bool _ => storable_leaf depth trivial
  | depth, .int _ => storable_leaf depth trivial
  | depth, .float _ => storable_leaf depth trivial
  | depth, .str _ => storable_leaf depth trivial

theorem storable_sanitizeItems : ∀ (depth : ℕ) (items : List (Json F)) (n : ℕ),
    itemsStorable ((sanitizeItems depth items).take n) = keptItemsStorable depth n items
  | depth, [], n => by
    rw [sanitizeItems, List.take_nil, itemsStorable]
    cases n <;> simp [keptItemsStorable]
  | depth, v :: vs, 0 => by rw [List.take_zero, itemsStorable, keptItemsStorable]
  | depth, v :: vs, n + 1 => by
    rw [sanitizeItems, List.take_succ_cons, itemsStorable, keptItemsStorable,
      storable_sanitize depth v, storable_sanitizeItems depth vs n]

theorem storable_sanitizeMembers : ∀ (depth : ℕ) (members : List (Text × Json F)),
    membersStorable (sanitizeMembers depth members) = keptMembersStorable depth members
  | depth, [] => by rw [sanitizeMembers, membersStorable, keptMembersStorable]
  | depth, (key, v) :: ms => by
    rw [sanitizeMembers, membersStorable, keptMembersStorable, storable_sanitizeMembers depth ms]
    split
    · rename_i hk
      rw [storable_redacted, hk]; simp
    · rename_i hk
      rw [Bool.not_eq_true] at hk
      rw [storable_sanitize depth v, hk, Bool.false_or]

end

end

end CopyTrade
