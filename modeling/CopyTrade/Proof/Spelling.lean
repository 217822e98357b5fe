import CopyTrade.Spec.DeadLetter

/-!
# Spellings of sensitive keys

Two keys have one spelling where they are equal after trimming, lower-casing and deleting
every `-` and `_`.

* `isSensitivePayloadKey_iff`: the substrings are looked for in the spelling, the names
  `raw_event` and `raw_response` are not.
* `sensitive_alike_iff`: so two keys of one spelling are told alike, unless it is that of
  one of the two names and only one of the keys is written like the name.
-/

namespace CopyTrade

open Python (Text text)

/-- The spelling of a key. -/
def spelling (key : Text) : Text :=
  (Python.lower (Python.strip key)).filter fun c => c != Python.ofChar '-' && c != Python.ofChar '_'

def rawSpellings : List Text := ["rawevent", "rawresponse"].map text

/-- The key is one of the two names, with `-` or `_` in its middle. -/
def WrittenLikeName (key : Text) : Prop :=
  Python.lower (Python.strip key) ∈ ["raw_event", "raw-event", "raw_response", "raw-response"].map text

instance : DecidablePred WrittenLikeName := fun _ => inferInstanceAs (Decidable (_ ∈ _))

theorem replace_dash (s : Text) : Python.replace (Python.ofChar '-') (text "_") s =
    s.map fun c => if c = Python.ofChar '-' then Python.ofChar '_' else c := by
  unfold Python.replace
  induction s with
  | nil => rfl
  | cons c s ih =>
    rw [List.flatMap_cons, List.map_cons, ih]
    split <;> rfl

/-- The text in which the substrings are looked for is the spelling. -/
theorem replace_underscore (s : Text) :
    Python.replace (Python.ofChar '_') [] (Python.replace (Python.ofChar '-') (text "_") s) =
      s.filter fun c => c != Python.ofChar '-' && c != Python.ofChar '_' := by
  rw [replace_dash]
  unfold Python.replace
  induction s with
  | nil => rfl
  | cons c s ih =>
    rw [List.map_cons, List.flatMap_cons, ih]
    by_cases hdash : c = Python.ofChar '-'
    · simp [hdash]
    · by_cases hunder : c = Python.ofChar '_'
      · simp [hunder]
      · simp [hdash, hunder]

/-- A text without separators comes from itself alone. -/
theorem map_dash_eq {a : Text} (hd : Python.ofChar '-' ∉ a) (hu : Python.ofChar '_' ∉ a) :
    ∀ {s : Text}, (s.map fun c => if c = Python.ofChar '-' then Python.ofChar '_' else c) = a ↔
      s = a := by
  induction a with
  | nil => simp
  | cons x a ih =>
    intro s
    have hx : x ≠ Python.ofChar '-' ∧ x ≠ Python.ofChar '_' :=
      ⟨fun h => hd (h ▸ List.mem_cons_self), fun h => hu (h ▸ List.mem_cons_self)⟩
    cases s with
    | nil => simp
    | cons c s =>
      rw [List.map_cons, List.cons.injEq, List.cons.injEq,
        ih (fun h => hd (List.mem_cons_of_mem _ h)) fun h => hu (List.mem_cons_of_mem _ h)]
      refine and_congr_left fun _ => ?_
      by_cases hc : c = Python.ofChar '-'
      · rw [if_pos hc, hc]
        exact ⟨fun h => absurd h.symm hx.2, fun h => absurd h.symm hx.1⟩
      · rw [if_neg hc]

/-- A text with one `_` comes from itself and from the one with `-` there. -/
theorem map_dash_middle {a b : Text} (ha : Python.ofChar '-' ∉ a ∧ Python.ofChar '_' ∉ a)
    (hb : Python.ofChar '-' ∉ b ∧ Python.ofChar '_' ∉ b) {s : Text} :
    (s.map fun c => if c = Python.ofChar '-' then Python.ofChar '_' else c) =
        a ++ Python.ofChar '_' :: b ↔
      s = a ++ Python.ofChar '_' :: b ∨ s = a ++ Python.ofChar '-' :: b := by
  have hne : Python.ofChar '_' ≠ Python.ofChar '-' := by decide
  constructor
  · intro h
    obtain ⟨l, r, rfl, hl, hr⟩ := List.map_eq_append_iff.1 h
    obtain ⟨c, r, rfl, hc, hr⟩ := List.map_eq_cons_iff.1 hr
    rw [(map_dash_eq ha.1 ha.2).1 hl, (map_dash_eq hb.1 hb.2).1 hr]
    by_cases hdash : c = Python.ofChar '-'
    · exact Or.inr (by rw [hdash])
    · rw [if_neg hdash] at hc
      exact Or.inl (by rw [hc])
  · rintro (rfl | rfl)
    · rw [List.map_append, List.map_cons, (map_dash_eq ha.1 ha.2).2 rfl,
        (map_dash_eq hb.1 hb.2).2 rfl, if_neg hne]
    · rw [List.map_append, List.map_cons, (map_dash_eq ha.1 ha.2).2 rfl,
        (map_dash_eq hb.1 hb.2).2 rfl, if_pos rfl]

/-- **The two names**, up to their separator. -/
theorem names_contains (s : Text) :
    sensitiveKeyNames.contains (Python.replace (Python.ofChar '-') (text "_") s) = true ↔
      s ∈ ["raw_event", "raw-event", "raw_response", "raw-response"].map text := by
  have hevent : (s.map fun c => if c = Python.ofChar '-' then Python.ofChar '_' else c) =
      text "raw_event" ↔ s = text "raw_event" ∨ s = text "raw-event" :=
    map_dash_middle (a := text "raw") (b := text "event") (by decide) (by decide)
  have hresponse : (s.map fun c => if c = Python.ofChar '-' then Python.ofChar '_' else c) =
      text "raw_response" ↔ s = text "raw_response" ∨ s = text "raw-response" :=
    map_dash_middle (a := text "raw") (b := text "response") (by decide) (by decide)
  rw [replace_dash]
  simp only [sensitiveKeyNames, List.contains_eq_mem, List.map_cons, List.map_nil, List.mem_cons,
    List.not_mem_nil, or_false, decide_eq_true_eq]
  rw [hevent, hresponse, or_assoc]

theorem isSensitivePayloadKey_iff (key : Text) : isSensitivePayloadKey key = true ↔
    WrittenLikeName key ∨ ∃ t ∈ sensitiveKeySubstrings, t <:+: spelling key := by
  unfold isSensitivePayloadKey
  dsimp only
  rw [Bool.or_eq_true, names_contains, replace_underscore, List.any_eq_true]
  simp [WrittenLikeName, spelling, Python.contains]

/-- A key written like one of the two names has its spelling. -/
theorem WrittenLikeName.spelling {key : Text} (h : WrittenLikeName key) :
    CopyTrade.spelling key ∈ rawSpellings := by
  unfold WrittenLikeName at h
  unfold CopyTrade.spelling
  simp only [List.map_cons, List.map_nil, List.mem_cons, List.not_mem_nil, or_false] at h
  rcases h with h | h | h | h <;> rw [h] <;> decide

/-- Neither spelling contains a sensitive substring. -/
theorem rawSpellings_clear : ∀ s ∈ rawSpellings, ∀ t ∈ sensitiveKeySubstrings, ¬ t <:+: s := by
  decide

/-- **Keys of one spelling are told alike**, unless only one of them is written like
`raw_event` or `raw_response`. -/
theorem sensitive_alike_iff {a b : Text} (h : spelling a = spelling b) :
    isSensitivePayloadKey a = isSensitivePayloadKey b ↔
      (spelling a ∈ rawSpellings → (WrittenLikeName a ↔ WrittenLikeName b)) := by
  rw [Bool.eq_iff_iff, isSensitivePayloadKey_iff, isSensitivePayloadKey_iff, h]
  by_cases hraw : spelling b ∈ rawSpellings
  · have hclear : ¬ ∃ t ∈ sensitiveKeySubstrings, t <:+: spelling b := by
      rintro ⟨t, ht, hin⟩
      exact rawSpellings_clear _ hraw t ht hin
    simp [hraw, hclear]
  · have hna : ¬ WrittenLikeName a := fun hn => hraw (h ▸ hn.spelling)
    have hnb : ¬ WrittenLikeName b := fun hn => hraw hn.spelling
    simp [hraw, hna, hnb]

/-- An API key in two spellings. -/
theorem sensitive_alike_apiKey :
    isSensitivePayloadKey (text "API-Key") = isSensitivePayloadKey (text " apiKey") :=
  (sensitive_alike_iff (by decide)).2 fun h => absurd h (by decide)

/-- **`rawEvent` escapes** where `raw_event` does not. -/
theorem rawEvent_escapes : ¬ ∀ a b : Text, Python.IsAscii a → Python.IsAscii b →
    spelling a = spelling b → isSensitivePayloadKey a = isSensitivePayloadKey b := by
  intro h
  have halike : isSensitivePayloadKey (text "raw_event") = isSensitivePayloadKey (text "rawEvent") :=
    h _ _ (by simp [Python.IsAscii, text]; decide) (by simp [Python.IsAscii, text]; decide) (by decide)
  revert halike
  decide

end CopyTrade
