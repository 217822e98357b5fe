import CopyTrade.Proof.Sanitizing

/-!
# Dead letters in the store

A dead letter is read by a stricter reader than the one that made it. What Python's
decoder lets through (`U+0000`, lone surrogates, floats that are not numbers) stands in
the letter as it came, and the table refuses it.

* `store_cases`: what becomes of a letter that can be read back.
* `stored_iff_storable`: a dead letter is stored exactly when the table takes what the
  sanitizer keeps of the message.
-/

namespace CopyTrade

open Python (Text text Json Runtime Floats Joined Scalar isSurrogate)

variable {F : Type} [Floats F]

/-! ## Texts of values -/

omit [Floats F] in
theorem textStorable_intercalate {sep : Text} (hsep : textStorable sep = true) :
    ∀ {texts : List Text}, (∀ t ∈ texts, textStorable t = true) →
      textStorable (sep.intercalate texts) = true := by
  intro texts
  induction texts with
  | nil => intro _; rfl
  | cons t texts ih =>
    intro h
    have ht := h t List.mem_cons_self
    have hrest := ih fun u hu => h u (List.mem_cons_of_mem _ hu)
    cases texts with
    | nil => rw [List.intercalate_singleton]; exact ht
    | cons u texts =>
      rw [List.intercalate_cons_cons, textStorable_append, textStorable_append]
      exact ⟨⟨ht, hsep⟩, hrest⟩

omit [Floats F] in
theorem textStorable_ascii {s : Text} (h : ∀ c ∈ s, 0 < c.val ∧ c.val < 0x80) :
    textStorable s = true := by
  refine textStorable_iff.2 fun c hc => ?_
  have := h c hc
  refine ⟨by omega, ?_⟩
  unfold isSurrogate
  simp only [Bool.and_eq_false_iff, decide_eq_false_iff_not]; omega

omit [Floats F] in
theorem textStorable_decimal (n : ℤ) : textStorable (Python.decimal n) = true := by
  have hdigits : ∀ c ∈ Python.digits n.natAbs, 0 < c.val ∧ c.val < 0x80 := by
    intro c hc
    have := Python.digits_digit _ c hc
    simp only [Python.isDigit, Bool.and_eq_true, decide_eq_true_eq] at this
    omega
  rw [Python.decimal_eq]
  refine textStorable_ascii ?_
  split
  · exact hdigits
  · intro c hc
    rcases List.mem_cons.1 hc with rfl | hc
    · decide
    · exact hdigits c hc

omit [Floats F] in
theorem textStorable_hexText (w n : ℕ) : textStorable (Python.hexText w n) = true := by
  have hdigit : ∀ m, m < 16 → textStorable [Python.hexDigitChar m] = true := by decide
  induction w generalizing n with
  | zero => rfl
  | succ w ih =>
    rw [Python.hexText, textStorable_append]
    exact ⟨ih _, hdigit _ (Nat.mod_lt _ (by omega))⟩

/-- **`repr` escapes what no column takes.** -/
theorem textStorable_reprText (s : Text) :
    textStorable (Python.reprText (Runtime.isPrintable F) s) = true := by
  have hquote : ∀ {q : Python.CodePoint}, q = Python.ofChar '"' ∨ q = Python.ofChar '\'' →
      textStorable [q] = true := by
    rintro q (rfl | rfl) <;> rfl
  have hchar : ∀ {q : Python.CodePoint}, q = Python.ofChar '"' ∨ q = Python.ofChar '\'' →
      ∀ c, textStorable (Python.reprChar (Runtime.isPrintable F) q c) = true := by
    intro q hq c
    unfold Python.reprChar
    split
    · rename_i h
      rw [← List.singleton_append, textStorable_append]
      refine ⟨rfl, ?_⟩
      rcases h with rfl | rfl
      · exact hquote hq
      · rfl
    split
    · rfl
    split
    · rfl
    split
    · rfl
    split
    · rename_i h
      refine textStorable_iff.2 fun d hd => ?_
      rw [List.mem_singleton.1 hd]
      exact Floats.not_printable c h
    split
    · rw [textStorable_append]; exact ⟨rfl, textStorable_hexText _ _⟩
    split
    · rw [textStorable_append]; exact ⟨rfl, textStorable_hexText _ _⟩
    · rw [textStorable_append]; exact ⟨rfl, textStorable_hexText _ _⟩
  unfold Python.reprText
  dsimp only
  generalize hq : (if Python.ofChar '\'' ∈ s ∧ Python.ofChar '"' ∉ s then Python.ofChar '"'
    else Python.ofChar '\'') = q
  have hq : q = Python.ofChar '"' ∨ q = Python.ofChar '\'' := by
    rw [← hq]; split
    · exact Or.inl rfl
    · exact Or.inr rfl
  rw [← List.singleton_append, textStorable_append, textStorable_append]
  refine ⟨⟨hquote hq, ?_⟩, hquote hq⟩
  refine textStorable_iff.2 fun c hc => ?_
  obtain ⟨d, -, hd⟩ := List.mem_flatMap.1 hc
  exact textStorable_iff.1 (hchar hq d) c hd

mutual

theorem textStorable_repr : ∀ v : Json F, textStorable v.repr = true
  | .null => by rw [Json.repr]; rfl
  | .bool b => by rw [Json.repr]; cases b <;> rfl
  | .int n => by rw [Json.repr]; exact textStorable_decimal n
  | .float x => by
    rw [Json.repr]
    refine textStorable_ascii fun c hc => ?_
    have := Floats.repr_ascii x c hc
    omega
  | .str s => by rw [Json.repr]; exact textStorable_reprText s
  | .list items => by
    rw [Json.repr, textStorable_append, textStorable_append]
    exact ⟨⟨rfl, textStorable_intercalate rfl (textStorable_reprItems items)⟩, rfl⟩
  | .dict members => by
    rw [Json.repr, textStorable_append, textStorable_append]
    exact ⟨⟨rfl, textStorable_intercalate rfl (textStorable_reprMembers members)⟩, rfl⟩

theorem textStorable_reprItems : ∀ (items : List (Json F)), ∀ t ∈ Python.reprItems items,
    textStorable t = true
  | [], t, ht => by rw [Python.reprItems] at ht; cases ht
  | v :: vs, t, ht => by
    rw [Python.reprItems] at ht
    rcases List.mem_cons.1 ht with rfl | ht
    · exact textStorable_repr v
    · exact textStorable_reprItems vs t ht

theorem textStorable_reprMembers : ∀ (members : List (Text × Json F)),
    ∀ t ∈ Python.reprMembers members, textStorable t = true
  | [], t, ht => by rw [Python.reprMembers] at ht; cases ht
  | (key, v) :: ms, t, ht => by
    rw [Python.reprMembers] at ht
    rcases List.mem_cons.1 ht with rfl | ht
    · rw [textStorable_append, textStorable_append]
      exact ⟨⟨textStorable_reprText key, rfl⟩, textStorable_repr v⟩
    · exact textStorable_reprMembers ms t ht

end

/-! ## On the way into the store -/

omit [Floats F] in
theorem scalar_text (s : String) : Scalar (text s) := by
  intro c hc
  obtain ⟨d, -, rfl⟩ := List.mem_map.1 hc
  have h : d.val.toNat < 0xd800 ∨ 0xdfff < d.val.toNat ∧ d.val.toNat < 0x110000 := d.valid
  have hval : (Python.ofChar d).val = d.val.toNat := rfl
  unfold isSurrogate
  rw [hval]
  simp only [Bool.and_eq_false_iff, decide_eq_false_iff_not]
  omega

/-- The written text of a decoded value decodes to it. -/
theorem decodePayload_write {v : Json F} (h : v.Decoded) :
    (decodePayload (v.write.map fun c => UInt8.ofNat c.val) : Except PyException (Json F)) = .ok v := by
  obtain ⟨-, hloads⟩ := Python.loads_dumps h
  obtain ⟨-, hdecode⟩ := Python.utf8_ascii (Json.ascii_write v)
  unfold decodePayload
  rw [hdecode]
  dsimp only
  rw [hloads]

/-- A mapping survives its way over the bus. -/
theorem received_encoded {members : List (Text × Json F)} (h : (Json.dict members).Decoded) :
    ∃ data, encodeJsonPayload members = some data ∧ receivedData data = some members := by
  obtain ⟨hdumps, -⟩ := Python.loads_dumps h
  obtain ⟨hencode, -⟩ := Python.utf8_ascii (Json.ascii_write (.dict members))
  refine ⟨(Json.dict members).write.map fun c => UInt8.ofNat c.val, ?_, ?_⟩
  · unfold encodeJsonPayload
    rw [hdumps]
    exact hencode
  · unfold receivedData
    rw [decodePayload_write h]

omit [Floats F] in
theorem dictGet_decoded {members : List (Text × Json F)} (h : (Json.dict members).Decoded)
    (key : Text) : (Python.dictGet members key).Decoded := by
  rw [Json.Decoded, Python.membersDecoded_iff] at h
  unfold Python.dictGet
  cases hf : members.find? fun m => m.1 = key with
  | none => trivial
  | some m => exact (h.2 m (List.mem_of_find?_eq_some hf)).2

theorem joined_toText {v : Json F} (h : v.Decoded) : Joined v.toText := by
  have hrepr : Joined v.repr := joined_of_scalar (scalar_of_storable (textStorable_repr v))
  cases v with
  | str s => rw [Json.Decoded] at h; exact h
  | null => exact hrepr
  | bool b => exact hrepr
  | int n => exact hrepr
  | float x => exact hrepr
  | list items => exact hrepr
  | dict members => exact hrepr

theorem joined_key {subject : Text} (hs : Scalar subject) {v : Json F} (h : v.Decoded)
    (sequence : Option ℤ) : Joined (buildDeadLetterIdempotencyKey subject v sequence) := by
  have happend : ∀ {s t : Text}, Scalar s → Scalar t → Scalar (s ++ t) := by
    intro s t h1 h2 c hc
    rcases List.mem_append.1 hc with hc | hc
    · exact h1 c hc
    · exact h2 c hc
  have hhead : Scalar (text "dlq:" ++ subject) := happend (scalar_text _) hs
  unfold buildDeadLetterIdempotencyKey
  split
  · exact joined_append (happend hhead (scalar_text _)) (joined_toText h)
  split
  · exact joined_of_scalar (happend (happend hhead (scalar_text _))
      (scalar_of_storable (textStorable_decimal _)))
  · exact joined_of_scalar (happend hhead (scalar_text _))

/-- A letter whose texts, numbers and payload can be written and read back. -/
structure Readable (letter : DeadLetter F) : Prop where
  idempotencyKey : Joined letter.idempotencyKey
  failedSubject : Joined letter.failedSubject
  errorType : Joined letter.errorType
  payload : letter.payload.Decoded

omit [Floats F] in
theorem decoded_toJson {letter : DeadLetter F} (h : Readable letter)
    (ha : Python.intWritable letter.deliveryAttempt = true)
    (hc : Python.intWritable letter.maxDeliveryAttempts = true) :
    (Json.dict letter.toJson).Decoded := by
  rw [Json.Decoded]
  refine ⟨?_, ?_⟩
  · have hkeys : letter.toJson.map Prod.fst = ["idempotency_key", "failed_subject",
      "delivery_attempt", "max_delivery_attempts", "error_type", "payload"].map text := rfl
    rw [hkeys]; decide
  · rw [Python.membersDecoded_iff]
    intro m hm
    have hjoined : ∀ s : String, Joined (text s) := fun s => joined_of_scalar (scalar_text s)
    simp only [DeadLetter.toJson, List.mem_cons, List.not_mem_nil, or_false] at hm
    rcases hm with rfl | rfl | rfl | rfl | rfl | rfl
    · exact ⟨hjoined _, h.idempotencyKey⟩
    · exact ⟨hjoined _, h.failedSubject⟩
    · exact ⟨hjoined _, ha⟩
    · exact ⟨hjoined _, hc⟩
    · exact ⟨hjoined _, h.errorType⟩
    · exact ⟨hjoined _, h.payload⟩

/-- A letter that is encoded holds no integer that Python does not write. -/
theorem writable_of_encoded {letter : DeadLetter F} {data : List UInt8}
    (h : encodeJsonPayload letter.toJson = some data) :
    Python.intWritable letter.deliveryAttempt = true ∧
      Python.intWritable letter.maxDeliveryAttempts = true := by
  obtain ⟨t, ht, -⟩ := Option.bind_eq_some_iff.1 h
  unfold Python.dumps at ht
  split at ht
  · rename_i hw
    simp [Json.writable, DeadLetter.toJson, Python.membersWritable] at hw
    exact ⟨hw.1, hw.2.1⟩
  · cases ht

variable [Conversions F]

/-- What `record` sends of a letter of the bus. -/
def argumentsOf (letter : DeadLetter F) : DeadLetterArguments where
  idempotencyKey := letter.idempotencyKey
  failedSubject := letter.failedSubject
  deliveryAttempt := letter.deliveryAttempt
  maxDeliveryAttempts := letter.maxDeliveryAttempts
  errorType := letter.errorType
  payload := (sanitizeDeadLetterPayload 0 letter.payload).write

/-- `record` reads a letter of the bus without an exception. -/
theorem recordArguments_letter {letter : DeadLetter F} (h : letter.payload.Decoded) :
    recordArguments letter.toJson = .ok (argumentsOf letter) := by
  have hdumps := (Python.loads_dumps (decoded_sanitize 0 h)).1
  have hpayload : Python.dictGet letter.toJson (text "payload") = letter.payload := rfl
  unfold recordArguments
  rw [hpayload, hdumps]
  rfl

/-- What the table asks of a letter. -/
structure Accepted (letter : DeadLetter F) : Prop where
  idempotencyKey : textStorable letter.idempotencyKey = true
  failedSubject : textStorable letter.failedSubject = true
  deliveryAttempt : 0 < letter.deliveryAttempt ∧ letter.deliveryAttempt < 2 ^ 31
  maxDeliveryAttempts : 0 < letter.maxDeliveryAttempts ∧ letter.maxDeliveryAttempts < 2 ^ 31
  errorType : textStorable letter.errorType = true
  payload : jsonbStorable (sanitizeDeadLetterPayload 0 letter.payload) = true

omit [Floats F] [Conversions F] in
theorem textColumn_eq_some {s t : Text} : textColumn? s = some t ↔ textStorable s = true ∧ t = s := by
  unfold textColumn?
  split
  · rename_i h
    rw [Option.some.injEq]
    exact ⟨fun he => ⟨h, he.symm⟩, fun he => he.2.symm⟩
  · rename_i h
    exact ⟨(fun he => by cases he), fun he => absurd he.1 h⟩

omit [Floats F] [Conversions F] in
theorem integer_eq_some {n m : ℤ} :
    Sql.integer? n = some m ↔ (-2 ^ 31 ≤ n ∧ n < 2 ^ 31) ∧ m = n := by
  unfold Sql.integer?
  split
  · rename_i h
    rw [Option.some.injEq]
    exact ⟨fun he => ⟨h, he.symm⟩, fun he => he.2.symm⟩
  · rename_i h
    exact ⟨(fun he => by cases he), fun he => absurd he.1 h⟩

omit [Conversions F] in
theorem jsonbColumn_write {v w : Json F} (h : v.Decoded) :
    jsonbColumn? v.write = some w ↔ jsonbStorable v = true ∧ w = v := by
  unfold jsonbColumn?
  rw [(Python.loads_dumps h).2]
  dsimp only
  split
  · rename_i hv
    rw [Option.some.injEq]
    exact ⟨fun he => ⟨hv, he.symm⟩, fun he => he.2.symm⟩
  · rename_i hv
    exact ⟨(fun he => by cases he), fun he => absurd he.1 hv⟩

omit [Conversions F] in
/-- A row of a letter meets what the table asks. -/
theorem accepted_of_row {letter : DeadLetter F} (h : letter.payload.Decoded) {id : UUID}
    {now : Timestamp} {row : DeadLetterEventRow F}
    (hrow : deadLetterRow? id now (argumentsOf letter) = some row) : Accepted letter := by
  -- column by column, in the order of the INSERT
  obtain ⟨key, hkey, hrow⟩ := Option.bind_eq_some_iff.1 hrow
  obtain ⟨subject, hsubject, hrow⟩ := Option.bind_eq_some_iff.1 hrow
  obtain ⟨attempt, hattempt, hrow⟩ := Option.bind_eq_some_iff.1 hrow
  obtain ⟨cap, hcap, hrow⟩ := Option.bind_eq_some_iff.1 hrow
  obtain ⟨errorType, herror, hrow⟩ := Option.bind_eq_some_iff.1 hrow
  obtain ⟨payload, hpayload, hrow⟩ := Option.bind_eq_some_iff.1 hrow
  obtain ⟨h1, rfl⟩ := integer_eq_some.1 hattempt
  obtain ⟨h2, rfl⟩ := integer_eq_some.1 hcap
  split at hrow
  · rename_i hpos
    exact ⟨(textColumn_eq_some.1 hkey).1, (textColumn_eq_some.1 hsubject).1, ⟨hpos.1, h1.2⟩,
      ⟨hpos.2, h2.2⟩, (textColumn_eq_some.1 herror).1,
      ((jsonbColumn_write (decoded_sanitize 0 h)).1 hpayload).1⟩
  · cases hrow

omit [Conversions F] in
/-- A letter that meets what the table asks has a row. -/
theorem row_of_accepted {letter : DeadLetter F} (h : letter.payload.Decoded)
    (hacc : Accepted letter) (id : UUID) (now : Timestamp) :
    ∃ row : DeadLetterEventRow F, deadLetterRow? id now (argumentsOf letter) = some row ∧
      row.id = id ∧ row.idempotencyKey = letter.idempotencyKey ∧
      row.payload = some (sanitizeDeadLetterPayload 0 letter.payload) := by
  have h3 := hacc.deliveryAttempt
  have h4 := hacc.maxDeliveryAttempts
  have hattempt : Sql.integer? letter.deliveryAttempt = some letter.deliveryAttempt :=
    integer_eq_some.2 ⟨by omega, rfl⟩
  have hcap : Sql.integer? letter.maxDeliveryAttempts = some letter.maxDeliveryAttempts :=
    integer_eq_some.2 ⟨by omega, rfl⟩
  have hpayload := (jsonbColumn_write (decoded_sanitize 0 h)).2 ⟨hacc.payload, rfl⟩
  unfold deadLetterRow? argumentsOf
  dsimp only
  rw [textColumn_eq_some.2 ⟨hacc.idempotencyKey, rfl⟩, textColumn_eq_some.2 ⟨hacc.failedSubject, rfl⟩,
    hattempt, hcap, textColumn_eq_some.2 ⟨hacc.errorType, rfl⟩, hpayload]
  simp only [Option.bind_eq_bind, Option.bind_some]
  rw [dif_pos ⟨h3.1, h4.1⟩]
  exact ⟨_, rfl, rfl, rfl, rfl⟩

/-- What `record` leaves of a letter: a row with its key was there, or a new one is. -/
def RecordedIn (letter : DeadLetter F) (events events' : Sql.Table (DeadLetterEventRow F)) : Prop :=
  (∃ row ∈ events, row.idempotencyKey = letter.idempotencyKey) ∧ events' = events ∨
    ∃ row, row.idempotencyKey = letter.idempotencyKey ∧
      row.payload = some (sanitizeDeadLetterPayload 0 letter.payload) ∧
      events'.rows = events.rows ++ [row]

omit [Floats F] [Conversions F] in
/-- The insert, where only the key and the id are constrained. -/
theorem insert_cases {row : DeadLetterEventRow F} {events : Sql.Table (DeadLetterEventRow F)}
    (hid : ∀ a ∈ events, a.id ≠ row.id) :
    ∃ events' n, events.insertOrIgnore? DeadLetterEventRow.idempotencyKey row = some (events', n) ∧
      ((∃ a ∈ events, a.idempotencyKey = row.idempotencyKey) ∧ events' = events ∨
        events'.rows = events.rows ++ [row]) := by
  by_cases hkey : ∃ a ∈ events.rows, a.idempotencyKey = row.idempotencyKey
  · exact ⟨events, 0, if_pos hkey, Or.inl ⟨hkey, rfl⟩⟩
  · have hclash : ∀ a ∈ events.rows, ¬ Sql.Clash a row := by
      rintro a ha (h | h)
      · exact hid a ha h
      · exact hkey ⟨a, ha, h⟩
    have hinsert : ∃ events', events.insert? row = some events' ∧
        events'.rows = events.rows ++ [row] := by
      unfold Sql.Table.insert?
      rw [dif_pos hclash]
      exact ⟨_, rfl, rfl⟩
    obtain ⟨events', he, hrows⟩ := hinsert
    refine ⟨events', 1, ?_, Or.inr hrows⟩
    unfold Sql.Table.insertOrIgnore?
    rw [if_neg hkey, he]
    rfl

/-- **What `record` does with a letter of the bus.** -/
theorem record_cases {letter : DeadLetter F} (h : letter.payload.Decoded) {id : UUID}
    (now : Timestamp) {events : Sql.Table (DeadLetterEventRow F)} (hid : ∀ row ∈ events, row.id ≠ id) :
    (¬ Accepted letter ∧
      PostgresDeadLetterEventRecorder.record id now letter.toJson events = .error .refused) ∨
    (Accepted letter ∧ ∃ events',
      PostgresDeadLetterEventRecorder.record id now letter.toJson events = .ok events' ∧
      RecordedIn letter events events') := by
  have hrecord : PostgresDeadLetterEventRecorder.record id now letter.toJson events =
      insertDeadLetterEvent id now (argumentsOf letter) events := by
    unfold PostgresDeadLetterEventRecorder.record
    rw [recordArguments_letter h]
    rfl
  rw [hrecord]
  unfold insertDeadLetterEvent
  by_cases hacc : Accepted letter
  · right
    obtain ⟨row, hrow, hrid, hkey, hpayload⟩ := row_of_accepted h hacc id now
    have hfresh : ∀ a ∈ events, a.id ≠ row.id := by rw [hrid]; exact hid
    obtain ⟨events', n, hinsert, hrows⟩ := insert_cases hfresh
    refine ⟨hacc, events', by rw [hrow]; dsimp only; rw [hinsert], ?_⟩
    rcases hrows with ⟨⟨a, ha, hak⟩, he⟩ | hrows
    · exact Or.inl ⟨⟨a, ha, hak.trans hkey⟩, he⟩
    · exact Or.inr ⟨row, hkey, hpayload, hrows⟩
  · left
    refine ⟨hacc, ?_⟩
    cases hrow : (deadLetterRow? id now (argumentsOf letter) : Option (DeadLetterEventRow F)) with
    | none => rfl
    | some row => exact absurd (accepted_of_row h hrow) hacc

/-- Numbers of a column can be written. -/
theorem writable_of_small {n : ℤ} (h : 0 < n ∧ n < 2 ^ 31) : Python.intWritable n = true := by
  unfold Python.intWritable
  rw [decide_eq_true_eq, Nat.length_toDigits_le_iff (by omega) (by decide)]
  have hlt : n.natAbs < 10 ^ 10 := by omega
  exact lt_of_lt_of_le hlt (Nat.pow_le_pow_right (by omega) (by decide))

/-- **When a letter of the bus is stored.** -/
theorem store_cases {letter : DeadLetter F} (h : Readable letter) {id : UUID} (now : Timestamp)
    {events : Sql.Table (DeadLetterEventRow F)} (hid : ∀ row ∈ events, row.id ≠ id) :
    (Accepted letter → ∃ events', store id now letter events = some (.ok events')) ∧
      ∀ events', store id now letter events = some (.ok events') →
        Accepted letter ∧ RecordedIn letter events events' := by
  constructor
  · intro hacc
    obtain ⟨data, hdata, hreceived⟩ := received_encoded (decoded_toJson h
      (writable_of_small hacc.deliveryAttempt) (writable_of_small hacc.maxDeliveryAttempts))
    rcases record_cases h.payload now hid with ⟨hn, -⟩ | ⟨-, events', hrecord, -⟩
    · exact absurd hacc hn
    · refine ⟨events', ?_⟩
      unfold store
      simp only [hdata, hreceived, hrecord, Option.bind_eq_bind, Option.bind_some]
  · intro events' hs
    obtain ⟨data, hdata, hs⟩ := Option.bind_eq_some_iff.1 hs
    obtain ⟨ha, hc⟩ := writable_of_encoded hdata
    obtain ⟨data', hdata', hreceived⟩ := received_encoded (decoded_toJson h ha hc)
    rw [hdata] at hdata'
    cases hdata'
    rw [hreceived] at hs
    have hs : PostgresDeadLetterEventRecorder.record id now letter.toJson events = .ok events' :=
      Option.some.inj hs
    rcases record_cases h.payload now hid with ⟨-, he⟩ | ⟨hacc, events'', he, hin⟩
    · rw [hs] at he; cases he
    · rw [hs] at he
      cases he
      exact ⟨hacc, hin⟩

/-! ## Failed messages -/

/-- What the store asks of a failed message: the attempts fit their columns, the subject and
the name of the exception theirs, and so does all of the body that the sanitizer keeps. -/
structure Storable (message : Msg) (members : List (Text × Json F)) (exc : PyException)
    (attempt cap : ℤ) : Prop where
  attempt : attempt < 2 ^ 31
  cap : 0 < cap ∧ cap < 2 ^ 31
  subject : textStorable message.subject = true
  errorType : textStorable (text exc.name) = true
  body : keptStorable 0 (.dict members) = true

omit [Conversions F] in
theorem kept_member {depth : ℕ} {members : List (Text × Json F)}
    (h : keptMembersStorable depth members = true) {m : Text × Json F} (hm : m ∈ members)
    (hkey : isSensitivePayloadKey m.1 = false) : keptStorable depth m.2 = true := by
  induction members with
  | nil => cases hm
  | cons m' ms ih =>
    rw [keptMembersStorable, Bool.and_eq_true, Bool.and_eq_true, Bool.or_eq_true] at h
    rcases List.mem_cons.1 hm with rfl | hm
    · rcases h.1.2 with hs | hs
      · rw [hkey] at hs; cases hs
      · exact hs
    · exact ih h.2 hm

omit [Conversions F] in
/-- The key of a dead letter is storable where the subject and the body are. -/
theorem key_storable {members : List (Text × Json F)} {subject : Text}
    (hsubject : textStorable subject = true) (hbody : keptStorable 0 (.dict members) = true)
    (sequence : Option ℤ) : textStorable (buildDeadLetterIdempotencyKey subject
      (Python.dictGet members (text "idempotency_key")) sequence) = true := by
  have hmembers : keptMembersStorable 1 members = true := by
    rw [keptStorable] at hbody
    simpa [maxDeadLetterPayloadDepth] using hbody
  have htext : textStorable (Python.dictGet members (text "idempotency_key")).toText = true := by
    unfold Python.dictGet
    cases hf : members.find? fun m => m.1 = text "idempotency_key" with
    | none => exact textStorable_repr (Json.null : Json F)
    | some m =>
      have hname : m.1 = text "idempotency_key" := by simpa using List.find?_some hf
      have hkept := kept_member hmembers (List.mem_of_find?_eq_some hf) (by rw [hname]; decide)
      show textStorable m.2.toText = true
      cases hv : m.2 with
      | str s =>
        -- a string stands in the key as it is, and in the payload as well
        rw [hv, keptStorable] at hkept
        · simpa [maxDeadLetterPayloadDepth, jsonbStorable, Json.toText] using hkept
        all_goals (intros; contradiction)
      | null => exact textStorable_repr _
      | bool b => exact textStorable_repr _
      | int n => exact textStorable_repr _
      | float x => exact textStorable_repr _
      | list items => exact textStorable_repr _
      | dict ms => exact textStorable_repr _
  unfold buildDeadLetterIdempotencyKey
  split
  · rw [textStorable_append, textStorable_append, textStorable_append]
    exact ⟨⟨⟨rfl, hsubject⟩, rfl⟩, htext⟩
  split
  · rw [textStorable_append, textStorable_append, textStorable_append]
    exact ⟨⟨⟨rfl, hsubject⟩, rfl⟩, textStorable_decimal _⟩
  · rw [textStorable_append, textStorable_append]
    exact ⟨⟨rfl, hsubject⟩, rfl⟩

omit [Conversions F] in
/-- The letter of a failed message can be written and read back. -/
theorem readable_letter {message : Msg} {members : List (Text × Json F)} {exc : PyException}
    {attempt cap : ℤ} {letter : DeadLetter F} (hsubject : Scalar message.subject)
    (hbody : (Json.dict members).Decoded)
    (hletter : buildDeadLetterPayload message (.dict members) exc attempt cap = .ok letter) :
    Readable letter := by
  cases hletter
  exact ⟨joined_key hsubject (dictGet_decoded hbody _) _, joined_of_scalar hsubject,
    joined_of_scalar (scalar_text _), decoded_sanitize 0 hbody⟩

omit [Conversions F] in
/-- What the table asks of a letter, in terms of the message. -/
theorem accepted_iff {message : Msg} {members : List (Text × Json F)} {exc : PyException}
    {attempt cap : ℤ} {letter : DeadLetter F} (hattempt : 0 < attempt)
    (hletter : buildDeadLetterPayload message (.dict members) exc attempt cap = .ok letter) :
    Accepted letter ↔ Storable message members exc attempt cap := by
  cases hletter
  have hpayload : jsonbStorable (sanitizeDeadLetterPayload 0
      (sanitizeDeadLetterPayload 0 (.dict members))) = keptStorable 0 (.dict members) := by
    rw [sanitize_sanitize, storable_sanitize]
  constructor
  · intro h
    exact ⟨h.deliveryAttempt.2, h.maxDeliveryAttempts, h.failedSubject, h.errorType,
      hpayload ▸ h.payload⟩
  · intro h
    exact ⟨key_storable h.subject h.body _, h.subject, ⟨hattempt, h.attempt⟩, h.cap, h.errorType,
      hpayload.trans h.body⟩

omit [Floats F] [Conversions F] in
theorem decoded_body [Runtime F] {data : List UInt8} {v : Json F}
    (h : decodePayload data = .ok v) : v.Decoded := by
  unfold decodePayload at h
  split at h
  · cases h
  rename_i s hs
  split at h
  · rename_i payload hp
    cases h
    exact Python.decoded_of_loads hs hp
  · cases h

/-- **A dead letter is stored exactly when its table takes what the sanitizer keeps**: for every
message with an object body, every exception and every attempt, the letter that the bus builds
is encoded, decoded again and recorded, if and only if the kept part of the body, the subject and
the exception's name hold no `U+0000` and no lone surrogate, its floats are finite, and the two
numbers of attempts fit their columns. -/
theorem stored_iff_storable {message : Msg} {wire : List UInt8} {members : List (Text × Json F)}
    {exc : PyException} {attempt cap : ℤ} {letter : DeadLetter F} {id : UUID} {now : Timestamp}
    {events : Sql.Table (DeadLetterEventRow F)}
    (hsubject : Python.decodeUtf8 wire = some message.subject)
    (hbody : decodePayload message.data = .ok (.dict members)) (hattempt : 1 ≤ attempt)
    (hletter : buildDeadLetterPayload message (.dict members) exc attempt cap = .ok letter)
    (hid : ∀ row ∈ events, row.id ≠ id) :
    (∃ events', store id now letter events = some (.ok events')) ↔
      Storable message members exc attempt cap := by
  have hscalar : Scalar message.subject := Python.decodeFrom_scalar _ _ _ _ _ hsubject
  have hreadable := readable_letter hscalar (decoded_body hbody) hletter
  obtain ⟨h1, h2⟩ := store_cases hreadable now hid
  rw [← accepted_iff (by omega) hletter]
  constructor
  · rintro ⟨events', hs⟩
    exact (h2 events' hs).1
  · exact h1

/-- The last attempt of a message with the given body. -/
def failedMessage (body : String) : Msg where
  subject := text exchangeTradeEventNormalized
  data := Python.ascii body
  numDelivered := some 3
  streamSequence := some 42

theorem failedMessage_subject (body : String) : Python.decodeUtf8
    ((text exchangeTradeEventNormalized).map fun c => UInt8.ofNat c.val) =
      some (failedMessage body).subject := by
  have h : Python.Ascii (text exchangeTradeEventNormalized) := Python.ascii_of_all rfl
  exact (Python.utf8_ascii h).2

omit [Conversions F] in
/-- The body `{"key":value}`, where `value` is a text. -/
theorem failedMessage_body {body : String} {key value : Text} (hkey : Scalar key)
    (hvalue : Scalar value) (h : Python.ascii body =
      (Json.dict [(key, (.str value : Json F))]).write.map fun c => UInt8.ofNat c.val) :
    (decodePayload (failedMessage body).data : Except PyException (Json F)) =
      .ok (.dict [(key, .str value)]) := by
  have hbody : (Json.dict [(key, (.str value : Json F))]).Decoded := by
    simp only [Json.Decoded, Python.MembersDecoded, List.map_cons, List.map_nil]
    exact ⟨List.nodup_singleton _, joined_of_scalar hkey, joined_of_scalar hvalue, trivial⟩
  have hdata := decodePayload_write hbody
  rw [← h] at hdata
  exact hdata

omit [Conversions F] in
theorem letter_of_members (message : Msg) (members : List (Text × Json F)) (exc : PyException)
    (attempt cap : ℤ) :
    ∃ letter, buildDeadLetterPayload message (.dict members) exc attempt cap = .ok letter := by
  rcases build_dead_letter_cases message (.dict members) exc attempt cap with ⟨-, h⟩ | ⟨h, -⟩
  · exact h
  · exact absurd trivial h

omit [Floats F] [Conversions F] in
theorem empty_ids (id : UUID) :
    ∀ row ∈ (Sql.Table.empty : Sql.Table (DeadLetterEventRow F)), row.id ≠ id :=
  fun _ hrow => absurd hrow (Sql.Table.not_mem_empty _)

/-- The last attempt of a message with a key of its own. -/
def keyedMessage : Msg := failedMessage "\x7b\"idempotency_key\":\"fill-7\"\x7d"

def keyedBody : List (Text × Json F) := [(text "idempotency_key", .str (text "fill-7"))]

omit [Conversions F] in
theorem keyedMessage_body : (decodePayload keyedMessage.data : Except PyException (Json Unit)) =
    .ok (.dict keyedBody) :=
  failedMessage_body (scalar_text _) (scalar_text _) (by decide)

theorem keyed_storable : Storable keyedMessage (keyedBody : List (Text × Json Unit))
    ⟨"RuntimeError"⟩ 3 3 :=
  ⟨by decide, by decide, by decide, by decide, by decide⟩

/-- A message with a key of its own is stored. -/
theorem stored_iff_storable_with_key :
    ∃ (letter : DeadLetter Unit) (events' : Sql.Table (DeadLetterEventRow Unit)),
      buildDeadLetterPayload keyedMessage (.dict keyedBody) ⟨"RuntimeError"⟩ 3 3 = .ok letter ∧
      store ⟨7⟩ 0 letter Sql.Table.empty = some (.ok events') := by
  obtain ⟨letter, hletter⟩ :=
    letter_of_members keyedMessage (keyedBody : List (Text × Json Unit)) ⟨"RuntimeError"⟩ 3 3
  have hiff := @stored_iff_storable Unit _ _ _ _ _ _ _ _ _ _ 0 _ (failedMessage_subject _)
    keyedMessage_body (by decide) hletter (empty_ids ⟨7⟩)
  obtain ⟨events', h⟩ := hiff.2 keyed_storable
  exact ⟨letter, events', hletter, h⟩

/-- **An escaped `U+0000` is never stored**: the bus builds the letter, and the table refuses it. -/
theorem nul_body_not_stored :
    ¬ ∀ (message : Msg) (members : List (Text × Json Unit)) (exc : PyException) (attempt cap : ℤ)
      (letter : DeadLetter Unit), decodePayload message.data = .ok (.dict members) → 1 ≤ attempt →
      buildDeadLetterPayload message (.dict members) exc attempt cap = .ok letter →
      ∃ events', store ⟨7⟩ 0 letter (Sql.Table.empty : Sql.Table (DeadLetterEventRow Unit)) =
        some (.ok events') := by
  intro hall
  have hnul : Scalar [(0 : Python.CodePoint)] := by
    intro c hc
    rw [List.mem_singleton.1 hc]
    decide
  have hbody : (decodePayload (failedMessage "\x7b\"a\":\"\\u0000\"\x7d").data :
      Except PyException (Json Unit)) = .ok (.dict [(text "a", .str [0])]) :=
    failedMessage_body (scalar_text _) hnul (by decide)
  obtain ⟨letter, hletter⟩ := letter_of_members (failedMessage "\x7b\"a\":\"\\u0000\"\x7d")
    [(text "a", (.str [0] : Json Unit))] ⟨"RuntimeError"⟩ 3 3
  have hstored := hall _ _ _ 3 3 letter hbody (by decide) hletter
  obtain ⟨events', h⟩ := hstored
  have hreadable := readable_letter (scalar_text _) (decoded_body hbody) hletter
  have hacc := ((store_cases hreadable 0 (empty_ids ⟨7⟩)).2 events' h).1
  have hstorable := (accepted_iff (by decide) hletter).1 hacc
  have hkept : keptStorable 0 (.dict [(text "a", .str [0])] : Json Unit) = false := by decide
  rw [hstorable.body] at hkept
  cases hkept

end CopyTrade
