import CopyTrade.Proof.Storing

/-!
# Dead letters on the way to the operator

What the table of dead letters holds is handed back as text, and the response has a
dictionary or nothing for a payload.

* `listed_never_shown`: a stored dead letter is listed, and no page that lists it is
  answered.
-/

namespace CopyTrade

open Python (Text text Json Runtime Floats Scalar)

variable {F : Type} [Floats F] [Conversions F]

/-- A letter that the bus builds: for a message off the wire, with its body or without. -/
def Built (letter : DeadLetter F) : Prop :=
  ∃ (message : Msg) (wire : List UInt8) (payload : Json F) (exc : PyException) (attempt cap : ℤ),
    Python.decodeUtf8 wire = some message.subject ∧
    (payload = .null ∨ decodePayload message.data = .ok payload) ∧
    buildDeadLetterPayload message payload exc attempt cap = .ok letter

omit [Conversions F] in
theorem Built.readable {letter : DeadLetter F} (h : Built letter) : Readable letter := by
  obtain ⟨message, wire, payload, exc, attempt, cap, hsubject, hbody, hletter⟩ := h
  have hscalar : Scalar message.subject := Python.decodeFrom_scalar _ _ _ _ _ hsubject
  have hpayload : payload.Decoded := by
    rcases hbody with rfl | hbody
    · trivial
    · exact decoded_body hbody
  cases payload with
  | null =>
    cases hletter
    exact ⟨joined_key hscalar (v := (.null : Json F)) trivial _, joined_of_scalar hscalar,
      joined_of_scalar (scalar_text _), decoded_sanitize 0 hpayload⟩
  | dict members => exact readable_letter hscalar hpayload hletter
  | bool b => cases hletter
  | int n => cases hletter
  | float x => cases hletter
  | str s => cases hletter
  | list items => cases hletter

/-- The tables that `record` makes of letters of the bus. -/
inductive Recorded : Sql.Table (DeadLetterEventRow F) → Prop where
  | empty : Recorded .empty
  | store {letter : DeadLetter F} {id : UUID} {now : Timestamp}
      {events events' : Sql.Table (DeadLetterEventRow F)} : Recorded events → Built letter →
      (∀ row ∈ events, row.id ≠ id) → store id now letter events = some (.ok events') →
      Recorded events'

/-- Every recorded row has a payload, if only a `null`. -/
theorem Recorded.payload {events : Sql.Table (DeadLetterEventRow F)} (h : Recorded events) :
    ∀ row ∈ events, ∃ v, row.payload = some v := by
  induction h with
  | empty => intro row hrow; exact absurd hrow (Sql.Table.not_mem_empty _)
  | store _ hletter hid hs ih =>
    intro row hrow
    rcases ((store_cases hletter.readable _ hid).2 _ hs).2 with ⟨-, rfl⟩ | ⟨new, -, hpayload, hrows⟩
    · exact ih row hrow
    · rw [Sql.Table.mem_def, hrows] at hrow
      rcases List.mem_append.1 hrow with hrow | hrow
      · exact ih row hrow
      · rw [List.mem_singleton.1 hrow]; exact ⟨_, hpayload⟩

omit [Floats F] [Conversions F] in
/-- A text is no payload of a response. -/
theorem response_of_text {record : DeadLetterEventRecord F} {s : Text}
    (h : record.payload = .str s) : deadLetterEventToResponse record = .error validationError := by
  unfold deadLetterEventToResponse
  rw [h]
  rfl

omit [Floats F] [Conversions F] in
theorem mem_listed {jsonbText : Json F → Text} {statusFilter : Option DeadLetterStatus}
    {limit offset : ℕ} {events : Sql.Table (DeadLetterEventRow F)} {record : DeadLetterEventRecord F}
    (h : record ∈ listDeadLetterEvents jsonbText statusFilter limit offset events) :
    ∃ row ∈ events, record = rowToDeadLetterEvent jsonbText row := by
  obtain ⟨row, hrow, rfl⟩ := List.mem_map.1 h
  have hrow := List.mem_of_mem_drop (List.mem_of_mem_take hrow)
  rw [List.mem_mergeSort] at hrow
  exact ⟨row, (List.mem_filter.1 hrow).1, rfl⟩

omit [Floats F] [Conversions F] in
/-- Every row is on a page that is long enough. -/
theorem listed_of_mem (jsonbText : Json F → Text) {events : Sql.Table (DeadLetterEventRow F)}
    {row : DeadLetterEventRow F} (h : row ∈ events) :
    rowToDeadLetterEvent jsonbText row ∈
      listDeadLetterEvents jsonbText none events.rows.length 0 events := by
  have hfilter : (events.rows.filter fun row => (none : Option DeadLetterStatus).all (row.status = ·)) =
      events.rows := List.filter_eq_self.2 fun _ _ => rfl
  unfold listDeadLetterEvents
  dsimp only
  rw [hfilter, List.drop_zero, List.take_of_length_le (by rw [List.length_mergeSort])]
  exact List.mem_map_of_mem (List.mem_mergeSort.2 h)

/-- **A stored dead letter is listed, and never shown**: some page lists it, and for whatever text
`asyncpg` hands back of a `jsonb` column, every page that lists it fails on it. -/
theorem listed_never_shown {letter : DeadLetter F} {id : UUID} {now : Timestamp}
    {events events' : Sql.Table (DeadLetterEventRow F)} (jsonbText : Json F → Text)
    (hevents : Recorded events) (hletter : Built letter) (hid : ∀ row ∈ events, row.id ≠ id)
    (hs : store id now letter events = some (.ok events')) :
    (∃ record ∈ listDeadLetterEvents jsonbText none events'.rows.length 0 events',
      record.idempotencyKey = letter.idempotencyKey) ∧
    ∀ statusFilter limit offset,
      ∀ record ∈ listDeadLetterEvents jsonbText statusFilter limit offset events',
        deadLetterEventToResponse record = .error validationError := by
  have hrecorded : Recorded events' := hevents.store hletter hid hs
  constructor
  · rcases ((store_cases hletter.readable now hid).2 _ hs).2 with ⟨⟨row, hrow, hkey⟩, rfl⟩ |
      ⟨row, hkey, -, hrows⟩
    · exact ⟨_, listed_of_mem jsonbText hrow, hkey⟩
    · have hrow : row ∈ events' := by
        rw [Sql.Table.mem_def, hrows]
        exact List.mem_append_right _ (List.mem_singleton_self _)
      exact ⟨_, listed_of_mem jsonbText hrow, hkey⟩
  · intro statusFilter limit offset record hrecord
    obtain ⟨row, hrow, rfl⟩ := mem_listed hrecord
    obtain ⟨v, hv⟩ := hrecorded.payload row hrow
    refine response_of_text (s := jsonbText v) ?_
    show fetchJsonb jsonbText row.payload = _
    rw [hv]; rfl

/-- A letter of a message with a key of its own, stored. -/
theorem keyed_stored :
    ∃ (letter : DeadLetter Unit) (events' : Sql.Table (DeadLetterEventRow Unit)), Built letter ∧
      letter.payload = .dict keyedBody ∧ store ⟨7⟩ 0 letter Sql.Table.empty = some (.ok events') := by
  obtain ⟨letter, hletter⟩ :=
    letter_of_members keyedMessage (keyedBody : List (Text × Json Unit)) ⟨"RuntimeError"⟩ 3 3
  have hbuilt : Built letter := ⟨keyedMessage, _, _, _, _, _, failedMessage_subject _,
    Or.inr keyedMessage_body, hletter⟩
  have hkey : isSensitivePayloadKey (text "idempotency_key") = false := by decide
  have hpayload : letter.payload = .dict keyedBody := by
    cases hletter
    simp [keyedBody, sanitizeDeadLetterPayload, sanitizeMembers, maxDeadLetterPayloadDepth, hkey]
  have hstorable := keyed_storable
  obtain ⟨events', h⟩ := (store_cases hbuilt.readable 0 (empty_ids ⟨7⟩)).1
    ((accepted_iff (by decide) hletter).2 hstorable)
  exact ⟨letter, events', hbuilt, hpayload, h⟩

/-- The stored letter is on the first page, which fails. -/
theorem listed_never_shown_with_key :
    ∃ (letter : DeadLetter Unit) (events' : Sql.Table (DeadLetterEventRow Unit)),
      store ⟨7⟩ 0 letter Sql.Table.empty = some (.ok events') ∧
      ∃ record ∈ listDeadLetterEvents Json.write none events'.rows.length 0 events',
        deadLetterEventToResponse record = .error validationError := by
  obtain ⟨letter, events', hbuilt, -, hs⟩ := keyed_stored
  obtain ⟨⟨record, hrecord, -⟩, hnever⟩ :=
    listed_never_shown Json.write Recorded.empty hbuilt (empty_ids ⟨7⟩) hs
  exact ⟨letter, events', hs, record, hrecord, hnever _ _ _ record hrecord⟩

/-- **Not every stored letter comes back as it was published.** -/
theorem stored_not_shown :
    ¬ ∀ (letter : DeadLetter Unit) (members : List (Text × Json Unit))
      (events' : Sql.Table (DeadLetterEventRow Unit)), Built letter → letter.payload = .dict members →
      store ⟨7⟩ 0 letter Sql.Table.empty = some (.ok events') →
      ∃ record ∈ listDeadLetterEvents Json.write none events'.rows.length 0 events',
      ∃ response, deadLetterEventToResponse record = .ok response ∧
        response.payload = some members := by
  intro hall
  obtain ⟨letter, events', hbuilt, hpayload, hs⟩ := keyed_stored
  obtain ⟨record, hrecord, response, hresponse, -⟩ := hall letter _ events' hbuilt hpayload hs
  obtain ⟨row, hrow, rfl⟩ := mem_listed hrecord
  obtain ⟨v, hv⟩ := (Recorded.empty.store hbuilt (empty_ids ⟨7⟩) hs).payload row hrow
  have hfetched : (rowToDeadLetterEvent Json.write row).payload = .str v.write := by
    show fetchJsonb Json.write row.payload = _
    rw [hv]; rfl
  rw [response_of_text hfetched] at hresponse
  cases hresponse

end CopyTrade
