import CopyTrade.Proof.Storing

/-!
# Keys of dead letters

A dead letter's key is one flat text: the subject, and after it the text of the original
key or, where the message carries none, its sequence.

* `key_eq_iff`: no subject contains the colon that ends it, so letters with one key are of
  one subject, and what follows the colon is the same.
* `collisions_iff`: the key tells two messages apart unless different values have one
  text, or a value's text is another message's `seq:` and its sequence.
-/

namespace CopyTrade

open Python (Text text Json Runtime ofChar decimal)

variable {F : Type} [Runtime F]

/-- What `payload.get("idempotency_key")` gives; nothing where there is no payload. -/
def originalKey (payload : Json F) : Json F :=
  match payload with
  | .dict members => Python.dictGet members (text "idempotency_key")
  | _ => .null

theorem key_of_built {message : Msg} {payload : Json F} {exc : PyException} {attempt cap : ℤ}
    {letter : DeadLetter F}
    (h : buildDeadLetterPayload message payload exc attempt cap = .ok letter) :
    letter.idempotencyKey = buildDeadLetterIdempotencyKey message.subject (originalKey payload)
      (getStreamSequence message) := by
  cases payload with
  | null => cases h; rfl
  | dict members => cases h; rfl
  | bool b => cases h
  | int n => cases h
  | float x => cases h
  | str s => cases h
  | list items => cases h

/-- The text after the subject. -/
def keyTail (original : Json F) (sequence : ℤ) : Text :=
  if original.truth then original.toText else text "seq:" ++ decimal sequence

theorem key_eq (subject : Text) (original : Json F) (sequence : ℤ) :
    buildDeadLetterIdempotencyKey subject original (some sequence) =
      text "dlq:" ++ (subject ++ ofChar ':' :: keyTail original sequence) := by
  unfold buildDeadLetterIdempotencyKey keyTail
  split
  · simp [text]
  · simp [text]

/-- The first colon ends what has none. -/
theorem append_colon_inj {c : Python.CodePoint} {a b x y : Text} (ha : c ∉ a) (hb : c ∉ b)
    (h : a ++ c :: x = b ++ c :: y) : a = b ∧ x = y := by
  have hlen : a.length = b.length := by
    have hidx := congrArg (List.idxOf c) h
    simpa [List.idxOf_append_of_notMem ha, List.idxOf_append_of_notMem hb] using hidx
  obtain ⟨hab, hxy⟩ := List.append_inj h hlen
  exact ⟨hab, (List.cons.inj hxy).2⟩

theorem colon_notMem : ∀ subject ∈ allEventSubjects.map text, ofChar ':' ∉ subject := by
  decide

/-- **When two keys are the same.** -/
theorem key_eq_iff {s t : Text} (hs : s ∈ allEventSubjects.map text)
    (ht : t ∈ allEventSubjects.map text) (o p : Json F) (m n : ℤ) :
    buildDeadLetterIdempotencyKey s o (some m) = buildDeadLetterIdempotencyKey t p (some n) ↔
      s = t ∧ keyTail o m = keyTail p n := by
  rw [key_eq, key_eq]
  constructor
  · intro h
    exact append_colon_inj (colon_notMem s hs) (colon_notMem t ht) (List.append_cancel_left h)
  · rintro ⟨rfl, h⟩
    rw [h]

theorem decimal_injective : Function.Injective decimal := by
  intro m n h
  have hminus : ∀ k : ℕ, ofChar '-' ∉ Python.digits k := by
    intro k hk
    have hdigit := Python.digits_digit k _ hk
    cases hdigit
  have hdigits : ∀ {j k : ℕ}, Python.digits j = Python.digits k → j = k := by
    intro j k hjk
    have hvalue := congrArg Python.natOfDigits hjk
    rwa [Python.natOfDigits_digits, Python.natOfDigits_digits] at hvalue
  rw [Python.decimal_eq, Python.decimal_eq] at h
  by_cases hm : 0 ≤ m <;> by_cases hn : 0 ≤ n
  · rw [if_pos hm, if_pos hn] at h
    have := hdigits h
    omega
  · rw [if_pos hm, if_neg hn] at h
    exact absurd (h ▸ List.mem_cons_self) (hminus m.natAbs)
  · rw [if_neg hm, if_pos hn] at h
    exact absurd (h ▸ List.mem_cons_self) (hminus n.natAbs)
  · rw [if_neg hm, if_neg hn] at h
    have := hdigits (List.cons.inj h).2
    omega

/-- **Of one origin**: the same value that is not empty, or none and the same sequence. -/
def SameOrigin (o p : Json F) (m n : ℤ) : Prop :=
  (o.truth = true ∧ p.truth = true ∧ o = p) ∨ (o.truth = false ∧ p.truth = false ∧ m = n)

/-- **Texts that mislead**: different values that are not empty have one text, or one has
the text that stands for the sequence of a message without a value. -/
def Misleading (o p : Json F) (m n : ℤ) : Prop :=
  (o.truth = true ∧ p.truth = true ∧ o ≠ p ∧ o.toText = p.toText) ∨
    (o.truth = true ∧ p.truth = false ∧ o.toText = text "seq:" ++ decimal n) ∨
    (o.truth = false ∧ p.truth = true ∧ p.toText = text "seq:" ++ decimal m)

/-- What follows the subject tells origins apart unless it misleads. -/
theorem tail_iff (o p : Json F) (m n : ℤ) :
    (keyTail o m = keyTail p n → SameOrigin o p m n) ↔ ¬ Misleading o p m n := by
  unfold keyTail SameOrigin Misleading
  cases ho : o.truth <;> cases hp : p.truth
  · have hseq : text "seq:" ++ decimal m = text "seq:" ++ decimal n ↔ m = n :=
      ⟨fun h => decimal_injective (List.append_cancel_left h), fun h => by rw [h]⟩
    simp [hseq]
  · simp [eq_comm]
  · simp
  · simp only [if_true, true_and, Bool.true_eq_false, false_and, or_false]
    rw [not_and', not_not]

/-- **When keys do not collide.** -/
theorem collisions_iff {message other : Msg} {payload body : Json F} {exc exc' : PyException}
    {attempt attempt' cap cap' m n : ℤ} {letter letter' : DeadLetter F}
    (hs : message.subject ∈ allEventSubjects.map text) (ht : other.subject ∈ allEventSubjects.map text)
    (hm : message.streamSequence = some m) (hn : other.streamSequence = some n)
    (h : buildDeadLetterPayload message payload exc attempt cap = .ok letter)
    (h' : buildDeadLetterPayload other body exc' attempt' cap' = .ok letter') :
    (letter.idempotencyKey = letter'.idempotencyKey →
      message.subject = other.subject ∧ SameOrigin (originalKey payload) (originalKey body) m n) ↔
      ¬ (message.subject = other.subject ∧
        Misleading (originalKey payload) (originalKey body) m n) := by
  have hkey : letter.idempotencyKey = letter'.idempotencyKey ↔ message.subject = other.subject ∧
      keyTail (originalKey payload) m = keyTail (originalKey body) n := by
    rw [key_of_built h, key_of_built h', getStreamSequence, getStreamSequence, hm, hn]
    exact key_eq_iff hs ht _ _ _ _
  rw [hkey, not_and, ← tail_iff]
  constructor
  · intro hall hsubject htail
    exact (hall ⟨hsubject, htail⟩).2
  · rintro hall ⟨hsubject, htail⟩
    exact ⟨hsubject, hall hsubject htail⟩

/-- The last attempt of a message with the given body and sequence. -/
def failedAt (body : String) (sequence : ℤ) : Msg where
  subject := text exchangeTradeEventNormalized
  data := Python.ascii body
  numDelivered := some 3
  streamSequence := some sequence

/-- A body with a key of its own. -/
def bodyWithKey (key : Json Unit) : Json Unit := .dict [(text "idempotency_key", key)]

theorem failedAt_subject (body : String) (sequence : ℤ) :
    (failedAt body sequence).subject ∈ allEventSubjects.map text :=
  List.mem_map_of_mem List.mem_cons_self

/-- A letter of a mapping, or of no payload. -/
theorem built_of_mapping (message : Msg) (payload : Json F) (h : IsMapping payload)
    (exc : PyException) (attempt cap : ℤ) :
    ∃ letter, buildDeadLetterPayload message payload exc attempt cap = .ok letter := by
  rcases build_dead_letter_cases message payload exc attempt cap with ⟨-, hbuilt⟩ | ⟨hnot, -⟩
  · exact hbuilt
  · exact absurd h hnot

/-- A fill with a key, and a body that is not JSON. -/
theorem collisions_iff_fill : ∃ letter letter' : DeadLetter Unit,
    buildDeadLetterPayload (failedAt "\x7b\"idempotency_key\":\"fill-7\"\x7d" 42)
        (bodyWithKey (.str (text "fill-7"))) ⟨"ValidationError"⟩ 3 3 = .ok letter ∧
      buildDeadLetterPayload (failedAt "fill" 43) .null ⟨"JSONDecodeError"⟩ 3 3 = .ok letter' ∧
      letter.idempotencyKey ≠ letter'.idempotencyKey := by
  obtain ⟨letter, h⟩ := built_of_mapping (failedAt "\x7b\"idempotency_key\":\"fill-7\"\x7d" 42)
    (bodyWithKey (.str (text "fill-7"))) trivial ⟨"ValidationError"⟩ 3 3
  obtain ⟨letter', h'⟩ := built_of_mapping (failedAt "fill" 43) (.null : Json Unit)
    trivial ⟨"JSONDecodeError"⟩ 3 3
  have hiff := collisions_iff (failedAt_subject _ _) (failedAt_subject _ _) rfl rfl h h'
  refine ⟨letter, letter', h, h', fun hkey => ?_⟩
  have htruth : (originalKey (bodyWithKey (.str (text "fill-7")))).truth = true := by decide
  have hnone : (originalKey (.null : Json Unit)).truth = false := by decide
  have hclear : ¬ Misleading (originalKey (bodyWithKey (.str (text "fill-7"))))
      (originalKey (.null : Json Unit)) 42 43 := by
    rintro (⟨-, hp, -⟩ | ⟨-, -, htext⟩ | ⟨ho, -⟩)
    · rw [hnone] at hp
      simp at hp
    · revert htext
      decide
    · rw [htruth] at ho
      simp at ho
  obtain ⟨-, hsame⟩ := hiff.2 (fun hmislead => hclear hmislead.2) hkey
  unfold SameOrigin at hsame
  rw [htruth, hnone] at hsame
  simp at hsame

/-- What a body with a key decodes to. -/
theorem decodes_with_key {body : String} {sequence : ℤ} {key : Json Unit} (hkey : key.Decoded)
    (h : Python.ascii body = (bodyWithKey key).write.map fun c => UInt8.ofNat c.val) :
    (decodePayload (failedAt body sequence).data : Except PyException (Json Unit)) =
      .ok (bodyWithKey key) := by
  have hbody : (bodyWithKey key).Decoded := by
    simp only [bodyWithKey, Json.Decoded, Python.MembersDecoded, List.map_cons, List.map_nil]
    exact ⟨List.nodup_singleton _, joined_of_scalar (scalar_text _), hkey, trivial⟩
  have hdata := decodePayload_write hbody
  rwa [← h] at hdata

/-- A number and its digits as two keys. -/
def numberBody : String := "\x7b\"idempotency_key\":1\x7d"
def digitsBody : String := "\x7b\"idempotency_key\":\"1\"\x7d"

/-- **A number and its digits**: two failed messages of different keys, one dead letter key. -/
theorem number_collides : ∃ letter letter' : DeadLetter Unit,
    decodePayload (failedAt numberBody 42).data = (.ok (bodyWithKey (.int 1)) :
      Except PyException (Json Unit)) ∧
    decodePayload (failedAt digitsBody 43).data = (.ok (bodyWithKey (.str (text "1"))) :
      Except PyException (Json Unit)) ∧
    buildDeadLetterPayload (failedAt numberBody 42) (bodyWithKey (.int 1)) ⟨"ValidationError"⟩ 3 3 =
      .ok letter ∧
    buildDeadLetterPayload (failedAt digitsBody 43) (bodyWithKey (.str (text "1")))
      ⟨"ValidationError"⟩ 3 3 = .ok letter' ∧
    letter.idempotencyKey = letter'.idempotencyKey ∧
    ¬ SameOrigin (originalKey (bodyWithKey (.int 1)))
      (originalKey (bodyWithKey (.str (text "1")))) 42 43 := by
  refine ⟨_, _, decodes_with_key ?_ ?_, decodes_with_key ?_ ?_, rfl, rfl, ?_, ?_⟩
  · rw [Json.Decoded]
    exact writable_of_small (by decide)
  · decide
  · exact joined_of_scalar (scalar_text _)
  · decide
  · decide
  · rintro (⟨-, -, h⟩ | ⟨-, -, h⟩)
    · cases h
    · cases h

end CopyTrade
