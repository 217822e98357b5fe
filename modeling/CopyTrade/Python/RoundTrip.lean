import CopyTrade.Python.Dumps

/-!
# JSON read back

What `json.dumps` writes, `json.loads` reads back: strings first, then numbers, then
values. `Stops` is what may follow a value in a written text.

* `loads_dumps`: the decoder reads back what was written.
* `utf8_ascii`: a written text keeps its bytes through UTF-8.
-/

namespace Python

/-! ## Strings are read back -/

def isHigh (c : CodePoint) : Prop := 0xD800 ≤ c.val ∧ c.val < 0xDC00

def isLow (c : CodePoint) : Prop := 0xDC00 ≤ c.val ∧ c.val < 0xE000

/-- No high surrogate stands before a low one. -/
def Joined (s : Text) : Prop := s.IsChain fun c d => ¬ (isHigh c ∧ isLow d)

theorem hexText_four (n : ℕ) : hexText 4 n = [hexDigitChar (n / 16 / 16 / 16 % 16),
    hexDigitChar (n / 16 / 16 % 16), hexDigitChar (n / 16 % 16), hexDigitChar (n % 16)] := rfl

/-- Four hexadecimal digits are read back. -/
theorem hex4_hexDigits {n : ℕ} (h : n < 0x10000) :
    hex4? (hexDigitChar (n / 16 / 16 / 16 % 16)) (hexDigitChar (n / 16 / 16 % 16))
      (hexDigitChar (n / 16 % 16)) (hexDigitChar (n % 16)) = some ⟨n, by omega⟩ := by
  have hlt : ∀ m, m % 16 < 16 := fun m => Nat.mod_lt m (by omega)
  unfold hex4?
  rw [hexVal_hexDigitChar (hlt _), hexVal_hexDigitChar (hlt _), hexVal_hexDigitChar (hlt _),
    hexVal_hexDigitChar (hlt _)]
  have hn : ((n / 16 / 16 / 16 % 16 * 16 + n / 16 / 16 % 16) * 16 + n / 16 % 16) * 16 + n % 16 = n := by
    omega
  simp only [Option.bind_eq_bind, Option.bind_some, hn]
  rw [dif_pos (by omega)]

/-- An escaped code unit is read back, and joined with what follows. -/
theorem scanString_unit {n : ℕ} (h : n < 0x10000) {s rest : Text} {l : List (CodePoint × Bool)}
    (hs : scanString s = some (l, rest)) :
    scanString (escapeUnit n ++ s) = some (joinSurrogates ⟨n, by omega⟩ l, rest) := by
  have htext : escapeUnit n ++ s = ofChar '\\' :: ofChar 'u' :: hexDigitChar (n / 16 / 16 / 16 % 16) ::
      hexDigitChar (n / 16 / 16 % 16) :: hexDigitChar (n / 16 % 16) :: hexDigitChar (n % 16) :: s := by
    unfold escapeUnit
    rw [hexText_four]; rfl
  rw [htext, scanString.eq_def]
  dsimp only
  rw [if_neg (by decide), if_pos rfl, if_pos rfl, hex4_hexDigits h, hs]
  rfl

/-- An escape of one character is read back. -/
theorem scanString_simple {e c : CodePoint} (he : e ≠ ofChar 'u') (hc : escapeChar? e = some c)
    {s rest : Text} {l : List (CodePoint × Bool)} (hs : scanString s = some (l, rest)) :
    scanString (ofChar '\\' :: e :: s) = some ((c, false) :: l, rest) := by
  rw [scanString.eq_def]
  dsimp only
  rw [if_neg (by decide), if_pos rfl, if_neg he, hc, hs]
  rfl

/-- Any other code point stands for itself. -/
theorem scanString_plain {c : CodePoint} (h1 : c ≠ ofChar '"') (h2 : c ≠ ofChar '\\')
    (h3 : 0x20 ≤ c.val) {s rest : Text} {l : List (CodePoint × Bool)}
    (hs : scanString s = some (l, rest)) : scanString (c :: s) = some ((c, false) :: l, rest) := by
  rw [scanString.eq_def]
  dsimp only
  rw [if_neg h1, if_neg h2, if_neg (by omega), hs]
  rfl

theorem joinSurrogates_high {hi lo : CodePoint} (hhi : isHigh hi) (hlo : isLow lo)
    (l : List (CodePoint × Bool)) : joinSurrogates hi ((lo, true) :: l) =
      (⟨0x10000 + (hi.val - 0xD800) * 0x400 + (lo.val - 0xDC00), by
        unfold isHigh at hhi; unfold isLow at hlo; omega⟩, false) :: l := by
  have h : (0xD800 ≤ hi.val ∧ hi.val < 0xDC00) ∧ (0xDC00 ≤ lo.val ∧ lo.val < 0xE000) := ⟨hhi, hlo⟩
  exact dif_pos h

/-- What is no pair stays apart. -/
theorem joinSurrogates_apart {c : CodePoint} {l : List (CodePoint × Bool)}
    (h : ∀ d b l', l = (d, b) :: l' → ¬ (isHigh c ∧ isLow d)) :
    joinSurrogates c l = (c, true) :: l := by
  unfold joinSurrogates
  split
  · rename_i d l' 
    exact dif_neg (h d true l' rfl)
  · rfl

/-- **One code point is read back**, unless it is a high surrogate before a low one. -/
theorem scanString_escapeChar {c : CodePoint} {s rest : Text} {l : List (CodePoint × Bool)}
    (hs : scanString s = some (l, rest)) (h : ∀ d b l', l = (d, b) :: l' → ¬ (isHigh c ∧ isLow d)) :
    ∃ b, scanString (escapeChar c ++ s) = some ((c, b) :: l, rest) := by
  unfold escapeChar
  split
  · subst c; exact ⟨false, scanString_simple (by decide) rfl hs⟩
  split
  · subst c; exact ⟨false, scanString_simple (by decide) rfl hs⟩
  split
  · subst c; exact ⟨false, scanString_simple (by decide) rfl hs⟩
  split
  · subst c; exact ⟨false, scanString_simple (by decide) rfl hs⟩
  split
  · subst c; exact ⟨false, scanString_simple (by decide) rfl hs⟩
  split
  · subst c; exact ⟨false, scanString_simple (by decide) rfl hs⟩
  split
  · subst c; exact ⟨false, scanString_simple (by decide) rfl hs⟩
  split
  · rename_i h1 h2 _ _ _ _ _ h3
    exact ⟨false, scanString_plain h2 h1 h3.1 hs⟩
  split
  · rename_i hlt
    refine ⟨true, ?_⟩
    rw [scanString_unit hlt hs, joinSurrogates_apart h]
  · -- beyond the first plane: two surrogates, which are joined again
    have hc := c.isLt
    refine ⟨false, ?_⟩
    simp only
    have hlo : isLow ⟨0xDC00 + (c.val - 0x10000) % 0x400, by omega⟩ := by
      unfold isLow; simp only; omega
    have hhi : isHigh ⟨0xD800 + (c.val - 0x10000) / 0x400, by omega⟩ := by
      unfold isHigh; simp only; omega
    have hlow := scanString_unit (n := 0xDC00 + (c.val - 0x10000) % 0x400) (by omega) hs
    rw [joinSurrogates_apart fun d b l' _ ⟨hh, _⟩ => by unfold isHigh at hh; simp only at hh; omega]
      at hlow
    rw [List.append_assoc, scanString_unit (by omega) hlow, joinSurrogates_high hhi hlo]
    have hjoined : 0x10000 + (0xD800 + (c.val - 0x10000) / 0x400 - 0xD800) * 0x400 +
        (0xDC00 + (c.val - 0x10000) % 0x400 - 0xDC00) = c.val := by
      omega
    have hchar : ∀ h, (⟨0x10000 + (0xD800 + (c.val - 0x10000) / 0x400 - 0xD800) * 0x400 +
        (0xDC00 + (c.val - 0x10000) % 0x400 - 0xDC00), h⟩ : CodePoint) = c := fun h => Fin.ext hjoined
    rw [hchar]

/-- **A string is read back**, up to its closing quote. -/
theorem scanString_write {s : Text} (h : Joined s) (rest : Text) :
    ∃ l, scanString (s.flatMap escapeChar ++ ofChar '"' :: rest) = some (l, rest) ∧
      l.map Prod.fst = s := by
  induction s with
  | nil =>
    refine ⟨[], ?_, rfl⟩
    rw [List.flatMap_nil, List.nil_append, scanString.eq_def]
    exact if_pos rfl
  | cons c s ih =>
    obtain ⟨l, hl, hs⟩ := ih h.of_cons
    have hapart : ∀ d b l', l = (d, b) :: l' → ¬ (isHigh c ∧ isLow d) := by
      rintro d b l' rfl
      rw [← hs] at h
      exact (List.isChain_cons_cons.1 h).1
    obtain ⟨b, hb⟩ := scanString_escapeChar hl hapart
    refine ⟨(c, b) :: l, ?_, by simp [hs]⟩
    rw [List.flatMap_cons, List.append_assoc, hb]

/-! ## Numbers are read back -/

/-- What stands after a value. -/
def Stops (rest : Text) : Prop :=
  ∀ c t, rest = c :: t → c = ofChar ',' ∨ c = ofChar ']' ∨ c = ofChar '}'

theorem stops_nil : Stops [] := by intro c t h; cases h

theorem stops_cons {c : CodePoint} (h : c = ofChar ',' ∨ c = ofChar ']' ∨ c = ofChar '}') (t : Text) :
    Stops (c :: t) := by
  intro d t' hd; cases hd; exact h

/-- A text does not go on with a digit. -/
def NoDigit (t : Text) : Prop := ∀ c s, t = c :: s → isDigit c = false

theorem Stops.noDigit {rest : Text} (h : Stops rest) : NoDigit rest := by
  intro c t hc
  rcases h c t hc with rfl | rfl | rfl <;> rfl

theorem takeWhile_digits {ds rest : Text} (hd : ∀ c ∈ ds, isDigit c = true) (hr : NoDigit rest) :
    (ds ++ rest).takeWhile isDigit = ds ∧ (ds ++ rest).dropWhile isDigit = rest := by
  have hrest : rest.takeWhile isDigit = [] ∧ rest.dropWhile isDigit = rest := by
    cases rest with
    | nil => exact ⟨rfl, rfl⟩
    | cons c t => simp [hr c t rfl]
  rw [List.takeWhile_append_of_pos hd, List.dropWhile_append_of_pos hd, hrest.1, hrest.2,
    List.append_nil]
  exact ⟨rfl, rfl⟩

/-- A part that is there is read, with its marker and sign. -/
theorem scanPart_read {markers signs : List Char} {c : CodePoint} {sign ds rest : Text}
    (hc : (markers.map ofChar).contains c = true)
    (hsign : scanSign signs (sign ++ (ds ++ rest)) = (sign, ds ++ rest)) (hne : ds ≠ [])
    (hd : ∀ c ∈ ds, isDigit c = true) (hr : NoDigit rest) :
    scanPart markers signs (c :: (sign ++ (ds ++ rest))) = (c :: sign ++ ds, rest) := by
  obtain ⟨h1, h2⟩ := takeWhile_digits hd hr
  unfold scanPart
  dsimp only
  rw [if_pos hc, hsign]
  dsimp only
  rw [h1, h2, if_neg hne]

/-- A part that is not there leaves the text as it is. -/
theorem scanPart_skip {markers signs : List Char} {t : Text}
    (h : ∀ c s, t = c :: s → (markers.map ofChar).contains c = false) :
    scanPart markers signs t = ([], t) := by
  unfold scanPart
  split
  · rename_i c rest
    rw [if_neg (by rw [h c rest rfl]; decide)]
  · rfl

theorem scanSign_skip {signs : List Char} {t : Text}
    (h : ∀ c s, t = c :: s → (signs.map ofChar).contains c = false) : scanSign signs t = ([], t) := by
  unfold scanSign
  split
  · rename_i c rest
    rw [if_neg (by rw [h c rest rfl]; decide)]
  · rfl

/-- Digits are neither a sign nor a marker. -/
theorem digit_ne {c : CodePoint} (h : isDigit c = true) {d : CodePoint} (hd : isDigit d = false) :
    c ≠ d := by
  rintro rfl
  rw [h] at hd; cases hd

theorem IsInteger.digits {t : Text} (h : IsInteger t) : ∀ c ∈ t, isDigit c = true := by
  rcases h with rfl | ⟨-, -, h⟩
  · intro c hc
    rw [List.mem_singleton.1 hc]; rfl
  · exact h

theorem IsInteger.ne_nil {t : Text} (h : IsInteger t) : t ≠ [] := by
  rcases h with rfl | ⟨h, -, -⟩
  · exact List.cons_ne_nil _ _
  · exact h

/-- The integer part is what the decoder takes for it. -/
theorem IsInteger.taken {t rest : Text} (h : IsInteger t) (hr : NoDigit rest) :
    (if (t ++ rest).head? = some (ofChar '0') then (t ++ rest).take 1
      else (t ++ rest).takeWhile isDigit) = t := by
  rcases h with rfl | ⟨hne, hhead, hd⟩
  · exact if_pos rfl
  · have hhead' : (t ++ rest).head? ≠ some (ofChar '0') := by
      rw [List.head?_append_of_ne_nil _ hne]; exact hhead
    rw [if_neg hhead', (takeWhile_digits hd hr).1]

variable {F : Type}

/-- What the decoder makes of a number. -/
def Numeral.value [Runtime F] (m : Numeral) : Except LoadsError (Json F) :=
  if m.fraction = [] ∧ m.exponent = [] then
    if m.integer.length > intMaxStrDigits then .error .valueError
    else .ok (.int (if m.sign = [] then natOfDigits m.integer else -natOfDigits m.integer))
  else .ok (.float (Runtime.float m.text))

/-- The parts after the integer part are read. -/
theorem Numeral.parts (m : Numeral) {rest : Text} (hr : Stops rest) :
    NoDigit (m.fraction ++ (m.exponent ++ rest)) ∧
    scanPart ['.'] [] (m.fraction ++ (m.exponent ++ rest)) = (m.fraction, m.exponent ++ rest) ∧
      scanPart ['e', 'E'] ['-', '+'] (m.exponent ++ rest) = (m.exponent, rest) := by
  have hexp : NoDigit (m.exponent ++ rest) ∧
      (∀ c s, m.exponent ++ rest = c :: s → (['.'].map ofChar).contains c = false) ∧
      scanPart ['e', 'E'] ['-', '+'] (m.exponent ++ rest) = (m.exponent, rest) := by
    rcases m.isExponent with h | ⟨sign, ds, h, hsign, hne, hd⟩
    · rw [h, List.nil_append]
      refine ⟨hr.noDigit, fun c s hc => ?_, scanPart_skip fun c s hc => ?_⟩
      · rcases hr c s hc with rfl | rfl | rfl <;> rfl
      · rcases hr c s hc with rfl | rfl | rfl <;> rfl
    · have htext : m.exponent ++ rest = ofChar 'e' :: (sign ++ (ds ++ rest)) := by rw [h]; simp
      have hds : ∃ d ds', ds = d :: ds' ∧ isDigit d = true := by
        cases ds with
        | nil => exact absurd rfl hne
        | cons d ds' => exact ⟨d, ds', rfl, hd d List.mem_cons_self⟩
      refine ⟨fun c s hc => ?_, fun c s hc => ?_, ?_⟩
      · rw [htext] at hc; cases hc; rfl
      · rw [htext] at hc; cases hc; rfl
      · rw [htext, scanPart_read rfl ?_ hne hd hr.noDigit, h]
        rcases hsign with rfl | rfl | rfl
        · refine scanSign_skip fun c s hc => ?_
          obtain ⟨d, ds', rfl, hdig⟩ := hds
          cases hc
          have h1 := digit_ne hdig (d := ofChar '-') rfl
          have h2 := digit_ne hdig (d := ofChar '+') rfl
          simp [h1, h2]
        · rfl
        · rfl
  refine ⟨?_, ?_, hexp.2.2⟩
  · rcases m.isFraction with h | ⟨ds, h, -, -⟩
    · rw [h, List.nil_append]; exact hexp.1
    · intro c s hc
      rw [h] at hc; cases hc; rfl
  · rcases m.isFraction with h | ⟨ds, h, hne, hd⟩
    · rw [h, List.nil_append]; exact scanPart_skip hexp.2.1
    · rw [h]
      have hsign : scanSign [] ([] ++ (ds ++ (m.exponent ++ rest))) = ([], ds ++ (m.exponent ++ rest)) :=
        scanSign_skip fun c s _ => rfl
      exact scanPart_read rfl hsign hne hd hexp.1

/-- **A number is read back**, before anything that may follow a value. -/
theorem scanNumber_numeral [Runtime F] (m : Numeral) {rest : Text} (hr : Stops rest) :
    (scanNumber (m.text ++ rest) : Except LoadsError (Json F × Text)) =
      m.value.map fun v => (v, rest) := by
  obtain ⟨hnd, hfraction, hexponent⟩ := m.parts hr
  have htext : m.text ++ rest = m.sign ++ (m.integer ++ (m.fraction ++ (m.exponent ++ rest))) := by
    unfold Numeral.text; simp
  have hsign : scanSign ['-'] (m.text ++ rest) =
      (m.sign, m.integer ++ (m.fraction ++ (m.exponent ++ rest))) := by
    rw [htext]
    rcases m.isSign with h | h
    · rw [h, List.nil_append]
      refine scanSign_skip fun c s hc => ?_
      have hdig : isDigit c = true := by
        have hne := m.isInteger.ne_nil
        have hd := m.isInteger.digits
        cases hi : m.integer with
        | nil => exact absurd hi hne
        | cons d ds =>
          rw [hi] at hc hd
          cases hc
          exact hd c List.mem_cons_self
      have h1 := digit_ne hdig (d := ofChar '-') rfl
      simp [h1]
    · rw [h]; rfl
  unfold scanNumber
  rw [hsign]
  simp only
  rw [m.isInteger.taken hnd, List.drop_left, hfraction]
  simp only
  rw [hexponent]
  simp only
  rw [if_neg m.isInteger.ne_nil]
  unfold Numeral.value
  split
  · split
    · rfl
    · rfl
  · rfl

/-- The digits of a natural number. -/
def digits (n : ℕ) : Text := (Nat.toDigits 10 n).map ofChar

theorem decimal_eq (n : ℤ) : decimal n = if 0 ≤ n then digits n.natAbs else
    ofChar '-' :: digits n.natAbs := by
  have h : toString n = if 0 ≤ n then n.toNat.repr else "-" ++ (-n).toNat.repr := Int.repr_eq_if
  unfold decimal text digits
  rw [h]
  split
  · rw [Nat.toList_repr]
    have : n.toNat = n.natAbs := by omega
    rw [this]
  · rw [String.toList_append, List.map_append, Nat.toList_repr]
    have : (-n).toNat = n.natAbs := by omega
    rw [this]; rfl

theorem isDigit_ofChar {c : Char} (h : c.isDigit = true) : isDigit (ofChar c) = true := by
  have h : 48 ≤ c.val.toNat ∧ c.val.toNat ≤ 57 := by
    simpa [Char.isDigit, UInt32.le_iff_toNat_le] using h
  have hval : (ofChar c).val = c.val.toNat := rfl
  unfold isDigit
  rw [hval]
  simp only [Bool.and_eq_true, decide_eq_true_eq]
  exact h

theorem digits_digit (n : ℕ) : ∀ c ∈ digits n, isDigit c = true := by
  intro c hc
  obtain ⟨d, hd, rfl⟩ := List.mem_map.1 hc
  exact isDigit_ofChar (Nat.isDigit_of_mem_toDigits (by omega) (by omega) hd)

/-- Only zero is written with a leading zero. -/
theorem head_toDigits {n : ℕ} (hn : n ≠ 0) : (Nat.toDigits 10 n).head? ≠ some '0' := by
  induction n using Nat.strong_induction_on with
  | _ n ih =>
    rcases Nat.lt_or_ge n 10 with h | h
    · rw [Nat.toDigits_of_lt_base h]
      have : ∀ m < 10, m ≠ 0 → [Nat.digitChar m].head? ≠ some '0' := by decide
      exact this n h hn
    · rw [Nat.toDigits_of_base_le (by omega) h, List.head?_append_of_ne_nil _ Nat.toDigits_ne_nil]
      exact ih _ (by omega) (by omega)

theorem digits_integer (n : ℕ) : IsInteger (digits n) := by
  rcases Nat.eq_zero_or_pos n with rfl | h
  · exact Or.inl rfl
  · refine Or.inr ⟨?_, ?_, digits_digit n⟩
    · intro h0
      exact Nat.toDigits_ne_nil (List.map_eq_nil_iff.1 h0)
    · unfold digits
      have hhead := head_toDigits (Nat.pos_iff_ne_zero.1 h)
      cases hd : Nat.toDigits 10 n with
      | nil => intro h0; cases h0
      | cons d ds =>
        rw [hd] at hhead
        intro h0
        apply hhead
        rw [List.map_cons, List.head?_cons, Option.some.injEq] at h0
        have hval : d.toNat = 48 := congrArg Fin.val h0
        have : d = '0' := Char.toNat_inj.1 hval
        rw [this]; rfl

theorem natOfDigits_digits (n : ℕ) : natOfDigits (digits n) = n := by
  have h := Nat.ofDigitChars_ten_toDigits (n := n)
  rw [Nat.ofDigitChars_eq_foldl] at h
  unfold natOfDigits digits
  rw [List.foldl_map]
  exact h

/-- An integer as a number. -/
def Numeral.ofInt (n : ℤ) : Numeral where
  sign := if 0 ≤ n then [] else [ofChar '-']
  integer := digits n.natAbs
  fraction := []
  exponent := []
  isSign := by split; exact Or.inl rfl; exact Or.inr rfl
  isInteger := digits_integer _
  isFraction := Or.inl rfl
  isExponent := Or.inl rfl

theorem Numeral.ofInt_text (n : ℤ) : (ofInt n).text = decimal n := by
  rw [decimal_eq]
  unfold ofInt Numeral.text
  split
  · simp
  · simp

theorem Numeral.ofInt_value [Runtime F] {n : ℤ} (h : intWritable n = true) :
    ((ofInt n).value : Except LoadsError (Json F)) = .ok (.int n) := by
  have hlen : ¬ (ofInt n).integer.length > intMaxStrDigits := by
    have : (Nat.toDigits 10 n.natAbs).length ≤ intMaxStrDigits := by simpa [intWritable] using h
    show ¬ (digits n.natAbs).length > intMaxStrDigits
    unfold digits
    rw [List.length_map]; omega
  unfold Numeral.value
  rw [if_pos ⟨rfl, rfl⟩, if_neg hlen]
  show Except.ok (Json.int (if (if 0 ≤ n then [] else [ofChar '-']) = [] then
    (natOfDigits (digits n.natAbs) : ℤ) else -natOfDigits (digits n.natAbs))) = _
  rw [natOfDigits_digits]
  congr 2
  by_cases h0 : 0 ≤ n
  · rw [if_pos h0, if_pos rfl]; omega
  · rw [if_neg h0, if_neg (List.cons_ne_nil _ _)]; omega

/-- A float as a number. -/
theorem Numeral.value_float [Runtime F] {m : Numeral} (h : ¬ (m.fraction = [] ∧ m.exponent = [])) :
    (m.value : Except LoadsError (Json F)) = .ok (.float (Runtime.float m.text)) := if_neg h

/-! ## Values are read back -/

mutual

/-- What the decoder can have made of a text: strings with joined surrogates, dictionaries
without repeated keys, and integers of a length it reads. -/
def Json.Decoded : Json F → Prop
  | .int n => intWritable n = true
  | .str s => Joined s
  | .list items => ItemsDecoded items
  | .dict members => (members.map Prod.fst).Nodup ∧ MembersDecoded members
  | _ => True

def ItemsDecoded : List (Json F) → Prop
  | [] => True
  | v :: vs => v.Decoded ∧ ItemsDecoded vs

def MembersDecoded : List (Text × Json F) → Prop
  | [] => True
  | (key, v) :: ms => Joined key ∧ v.Decoded ∧ MembersDecoded ms

end

mutual

theorem Json.Decoded.writable : ∀ {v : Json F}, v.Decoded → v.writable = true
  | .null, _ => rfl
  | .bool _, _ => rfl
  | .int _, h => by rw [Json.writable]; rw [Json.Decoded] at h; exact h
  | .float _, _ => rfl
  | .str _, _ => rfl
  | .list _, h => by rw [Json.writable]; rw [Json.Decoded] at h; exact ItemsDecoded.writable h
  | .dict _, h => by rw [Json.writable]; rw [Json.Decoded] at h; exact MembersDecoded.writable h.2

theorem ItemsDecoded.writable : ∀ {vs : List (Json F)}, ItemsDecoded vs → itemsWritable vs = true
  | [], _ => rfl
  | v :: vs, h => by
    rw [ItemsDecoded] at h
    rw [itemsWritable, h.1.writable, ItemsDecoded.writable h.2]; rfl

theorem MembersDecoded.writable : ∀ {ms : List (Text × Json F)}, MembersDecoded ms →
    membersWritable ms = true
  | [], _ => rfl
  | (key, v) :: ms, h => by
    rw [MembersDecoded] at h
    rw [membersWritable, h.2.1.writable, MembersDecoded.writable h.2.2]; rfl

end

theorem dictSet_new {members : List (Text × Json F)} {key : Text} (v : Json F)
    (h : key ∉ members.map Prod.fst) : dictSet members key v = members ++ [(key, v)] := if_neg h

theorem not_prefix {c d : CodePoint} (h : c ≠ d) (w t : Text) :
    ¬ (c :: w).isPrefixOf (d :: t) = true := by
  rw [List.isPrefixOf_cons_cons, beq_eq_false_iff_ne.2 h, Bool.false_and]
  exact Bool.false_ne_true

/-- A number starts with a digit, or with a minus and a digit. -/
theorem Numeral.text_cases (m : Numeral) (rest : Text) :
    ∃ d t, isDigit d = true ∧ (m.text ++ rest = d :: t ∨ m.text ++ rest = ofChar '-' :: d :: t) := by
  have hd := m.isInteger.digits
  cases hi : m.integer with
  | nil => exact absurd hi m.isInteger.ne_nil
  | cons d ds =>
    rw [hi] at hd
    refine ⟨d, ds ++ m.fraction ++ m.exponent ++ rest, hd d List.mem_cons_self, ?_⟩
    unfold Numeral.text
    rw [hi]
    rcases m.isSign with h | h
    · rw [h]; exact Or.inl (by simp)
    · rw [h]; exact Or.inr (by simp)

theorem skipWhitespace_cons {c : CodePoint} (h : isWhitespace c = false) (t : Text) :
    skipWhitespace (c :: t) = c :: t := by
  unfold skipWhitespace
  rw [List.dropWhile_cons, h]; rfl

theorem not_whitespace_digit {c : CodePoint} (h : isDigit c = true) : isWhitespace c = false := by
  have h1 := digit_ne h (d := ofChar ' ') rfl
  have h2 := digit_ne h (d := ofChar '\t') rfl
  have h3 := digit_ne h (d := ofChar '\n') rfl
  have h4 := digit_ne h (d := ofChar '\r') rfl
  simp [isWhitespace, h1, h2, h3, h4]

section

variable [Floats F]

omit [Floats F] in
/-- No constant starts as a number does. -/
theorem constants_head [Runtime F] {w : Text × Json F} (hw : w ∈ constants) :
    ∃ c c' u, w.1 = c :: c' :: u ∧ isDigit c = false ∧ isDigit c' = false := by
  simp only [constants, List.mem_cons, List.not_mem_nil, or_false] at hw
  rcases hw with rfl | rfl | rfl | rfl | rfl | rfl <;> exact ⟨_, _, _, rfl, rfl, rfl⟩

/-- **The decoder reads a number**, where a value may start. -/
theorem scanOnce_numeral (n : ℕ) (m : Numeral) {rest : Text} (hr : Stops rest) :
    (scanOnce (n + 1) (m.text ++ rest) : Except LoadsError (Json F × Text)) =
      m.value.map fun v => (v, rest) := by
  rw [← scanNumber_numeral m hr]
  obtain ⟨d, t, hd, h | h⟩ := m.text_cases rest
  · have hnone : (constants.find? fun w : Text × Json F => w.1.isPrefixOf (d :: t)) = none := by
      refine List.find?_eq_none.2 fun w hw => ?_
      obtain ⟨c, c', u, hc, hdig, -⟩ := constants_head hw
      rw [hc]
      exact not_prefix (digit_ne hd hdig).symm _ _
    rw [h, scanOnce, if_neg (digit_ne hd rfl), if_neg (digit_ne hd rfl), if_neg (digit_ne hd rfl), hnone]
  · have hnone : (constants.find? fun w : Text × Json F => w.1.isPrefixOf (ofChar '-' :: d :: t)) =
        none := by
      refine List.find?_eq_none.2 fun w hw => ?_
      obtain ⟨c, c', u, hc, -, hdig⟩ := constants_head hw
      rw [hc, List.isPrefixOf_cons_cons, Bool.and_eq_true]
      exact fun h => not_prefix (digit_ne hd hdig).symm _ _ h.2
    rw [h, scanOnce, if_neg (by decide), if_neg (by decide), if_neg (by decide), hnone]

/-- A value does not start with white space, a closing bracket or a byte order mark. -/
theorem Json.write_head (v : Json F) : ∃ c t, v.write = c :: t ∧ isWhitespace c = false ∧
    c ≠ ofChar ']' ∧ c ≠ ofChar '\uFEFF' := by
  have hnum : ∀ m : Numeral, ∃ c t, m.text = c :: t ∧ isWhitespace c = false ∧ c ≠ ofChar ']' ∧
      c ≠ ofChar '\uFEFF' := by
    intro m
    obtain ⟨d, t, hd, h | h⟩ := m.text_cases []
    · rw [List.append_nil] at h
      exact ⟨d, t, h, not_whitespace_digit hd, digit_ne hd rfl, digit_ne hd rfl⟩
    · rw [List.append_nil] at h
      exact ⟨_, _, h, rfl, by decide⟩
  cases v with
  | null => exact ⟨_, _, rfl, rfl, by decide⟩
  | bool b => cases b <;> exact ⟨_, _, rfl, rfl, by decide⟩
  | int n => rw [Json.write, ← Numeral.ofInt_text]; exact hnum _
  | float x =>
    rw [Json.write, writeFloat]
    split
    · rename_i hk
      obtain ⟨⟨m, hm, -⟩, -⟩ := Floats.float_repr x hk
      rw [← hm]; exact hnum m
    · exact ⟨_, _, rfl, rfl, by decide⟩
    · exact ⟨_, _, rfl, rfl, by decide⟩
    · exact ⟨_, _, rfl, rfl, by decide⟩
  | str s => exact ⟨_, _, rfl, rfl, by decide⟩
  | list items => cases items <;> exact ⟨_, _, by rw [Json.write]; rfl, rfl, by decide⟩
  | dict members =>
    cases members with
    | nil => exact ⟨_, _, by rw [Json.write]; rfl, rfl, by decide⟩
    | cons m ms => exact ⟨_, _, by rw [Json.write]; rfl, rfl, by decide⟩

theorem Json.skipWhitespace_write (v : Json F) (rest : Text) :
    skipWhitespace (v.write ++ rest) = v.write ++ rest := by
  obtain ⟨c, t, h, hw, -, -⟩ := v.write_head
  rw [h]; exact skipWhitespace_cons hw _

theorem writeItems_stops (vs : List (Json F)) (rest : Text) : Stops (writeItems vs ++ rest) := by
  cases vs with
  | nil => rw [writeItems]; exact stops_cons (Or.inr (Or.inl rfl)) _
  | cons v vs => rw [writeItems]; exact stops_cons (Or.inl rfl) _

theorem writeMembers_stops (ms : List (Text × Json F)) (rest : Text) :
    Stops (writeMembers ms ++ rest) := by
  cases ms with
  | nil => rw [writeMembers]; exact stops_cons (Or.inr (Or.inr rfl)) _
  | cons m ms => rw [writeMembers]; exact stops_cons (Or.inl rfl) _

/-- A reader that reads back every value written in less than `n` code points. -/
def ReadsBack (n : ℕ) (value : Text → Except LoadsError (Json F × Text)) : Prop :=
  ∀ (v : Json F) (rest : Text), v.write.length < n → v.Decoded → Stops rest →
    value (v.write ++ rest) = .ok (v, rest)

variable {n : ℕ} {value : Text → Except LoadsError (Json F × Text)}

omit [Floats F] in
theorem scanItems_last {s rest : Text} {v : Json F} {k : ℕ}
    (hv : value s = .ok (v, ofChar ']' :: rest)) : scanItems value (k + 1) s = .ok ([v], rest) := by
  unfold scanItems
  rw [hv]; rfl

omit [Floats F] in
theorem scanItems_next {s t rest : Text} {v : Json F} {vs : List (Json F)} {k : ℕ}
    (hv : value s = .ok (v, ofChar ',' :: t))
    (hrest : scanItems value k (skipWhitespace t) = .ok (vs, rest)) :
    scanItems value (k + 1) s = .ok (v :: vs, rest) := by
  unfold scanItems
  rw [hv]
  show (scanItems value k (skipWhitespace t) >>= fun p => Except.ok (v :: p.1, p.2)) = _
  rw [hrest]; rfl

/-- The items of a list are read back. -/
theorem scanItems_write (hvalue : ReadsBack n value) :
    ∀ (vs : List (Json F)) (v : Json F) (k : ℕ) (rest : Text), v.Decoded → ItemsDecoded vs →
      (v.write ++ writeItems vs).length ≤ n → vs.length < k →
      scanItems value k (v.write ++ (writeItems vs ++ rest)) = .ok (v :: vs, rest) := by
  intro vs
  induction vs with
  | nil =>
    intro v k rest hv _ hlen hk
    obtain ⟨k, rfl⟩ : ∃ m, k = m + 1 := ⟨k - 1, by simp at hk; omega⟩
    rw [writeItems, List.length_append, List.length_singleton] at hlen
    exact scanItems_last (hvalue v _ (by omega) hv (writeItems_stops [] rest))
  | cons w vs ih =>
    intro v k rest hv hvs hlen hk
    obtain ⟨k, rfl⟩ : ∃ m, k = m + 1 := ⟨k - 1, by simp at hk; omega⟩
    rw [ItemsDecoded] at hvs
    have hstops := writeItems_stops (w :: vs) rest
    have htext : writeItems (w :: vs) ++ rest = ofChar ',' :: (w.write ++ (writeItems vs ++ rest)) := by
      rw [writeItems]; simp
    rw [writeItems] at hlen
    simp only [List.length_append, List.length_cons] at hlen hk
    have hread := hvalue v _ (by omega) hv hstops
    rw [htext] at hread ⊢
    refine scanItems_next hread ?_
    rw [w.skipWhitespace_write]
    exact ih w k rest hvs.1 hvs.2 (by rw [List.length_append]; omega) (by omega)

omit [Floats F] in
theorem scanMembers_last {s t rest : Text} {key : Text} {v : Json F} {before : List (Text × Json F)}
    {k : ℕ} (hkey : scanKey s = .ok (key, t)) (hv : value t = .ok (v, ofChar '}' :: rest)) :
    scanMembers value (k + 1) before s = .ok (dictSet before key v, rest) := by
  unfold scanMembers
  rw [hkey]
  show (value t >>= _) = _
  rw [hv]; rfl

omit [Floats F] in
theorem scanMembers_next {s t u : Text} {key : Text} {v : Json F} {before : List (Text × Json F)}
    {k : ℕ} (hkey : scanKey s = .ok (key, t)) (hv : value t = .ok (v, ofChar ',' :: u)) :
    scanMembers value (k + 1) before s =
      scanMembers value k (dictSet before key v) (skipWhitespace u) := by
  conv_lhs => unfold scanMembers
  rw [hkey]
  show (value t >>= _) = _
  rw [hv]; rfl

/-- A key is read back, with its colon. -/
theorem scanKey_write {key : Text} (h : Joined key) (v : Json F) (rest : Text) :
    scanKey (writeString key ++ (ofChar ':' :: (v.write ++ rest))) =
      .ok (key, v.write ++ rest) := by
  obtain ⟨l, hl, hkey⟩ := scanString_write h (ofChar ':' :: (v.write ++ rest))
  have htext : writeString key ++ (ofChar ':' :: (v.write ++ rest)) =
      ofChar '"' :: (key.flatMap escapeChar ++ ofChar '"' :: (ofChar ':' :: (v.write ++ rest))) := by
    unfold writeString; simp
  rw [htext, scanKey, if_pos rfl, hl]
  dsimp only
  rw [skipWhitespace_cons rfl]
  dsimp only
  rw [if_pos rfl, hkey, v.skipWhitespace_write]

/-- The members of a dictionary are read back, after those already read. -/
theorem scanMembers_write (hvalue : ReadsBack n value) :
    ∀ (ms : List (Text × Json F)) (key : Text) (v : Json F) (k : ℕ) (before : List (Text × Json F))
      (rest : Text), Joined key → v.Decoded → MembersDecoded ms →
      ((before ++ (key, v) :: ms).map Prod.fst).Nodup → (v.write ++ writeMembers ms).length ≤ n →
      ms.length < k →
      scanMembers value k before
        (writeString key ++ (ofChar ':' :: (v.write ++ (writeMembers ms ++ rest)))) =
        .ok (before ++ (key, v) :: ms, rest) := by
  intro ms
  induction ms with
  | nil =>
    intro key v k before rest hkey hv _ hnodup hlen hk
    obtain ⟨k, rfl⟩ : ∃ m, k = m + 1 := ⟨k - 1, by simp at hk; omega⟩
    have hnew : key ∉ before.map Prod.fst := by
      rw [List.map_append, List.map_cons] at hnodup
      exact fun hmem => (List.nodup_append.1 hnodup).2.2 _ hmem _ List.mem_cons_self rfl
    rw [writeMembers, List.length_append, List.length_singleton] at hlen
    have hread := hvalue v _ (by omega) hv
      (writeMembers_stops ([] : List (Text × Json F)) rest)
    rw [scanMembers_last (scanKey_write hkey v _) hread, dictSet_new v hnew]
    rfl
  | cons m ms ih =>
    obtain ⟨key', w⟩ := m
    intro key v k before rest hkey hv hms hnodup hlen hk
    obtain ⟨k, rfl⟩ : ∃ m, k = m + 1 := ⟨k - 1, by simp at hk; omega⟩
    rw [MembersDecoded] at hms
    have hnew : key ∉ before.map Prod.fst := by
      rw [List.map_append, List.map_cons] at hnodup
      exact fun hmem => (List.nodup_append.1 hnodup).2.2 _ hmem _ List.mem_cons_self rfl
    have htext : writeMembers ((key', w) :: ms) ++ rest =
        ofChar ',' :: (writeString key' ++ (ofChar ':' :: (w.write ++ (writeMembers ms ++ rest)))) := by
      rw [writeMembers]; simp
    have hstops := writeMembers_stops ((key', w) :: ms) rest
    rw [writeMembers] at hlen
    simp only [List.length_append, List.length_cons] at hlen hk
    have hread := hvalue v _ (by omega) hv hstops
    rw [htext] at hread ⊢
    have hquote : skipWhitespace (writeString key' ++ (ofChar ':' :: (w.write ++ (writeMembers ms ++ rest)))) =
        writeString key' ++ (ofChar ':' :: (w.write ++ (writeMembers ms ++ rest))) :=
      skipWhitespace_cons rfl _
    rw [scanMembers_next (scanKey_write hkey v _) hread, hquote, dictSet_new v hnew,
      ih key' w k (before ++ [(key, v)]) rest hms.1 hms.2.1 hms.2.2
        (by rw [List.append_assoc]; exact hnodup) (by rw [List.length_append]; omega) (by omega),
      List.append_assoc]
    rfl

theorem length_lt_writeItems (vs : List (Json F)) : vs.length < (writeItems vs).length := by
  induction vs with
  | nil => rw [writeItems]; simp
  | cons v vs ih => rw [writeItems]; simp only [List.length_append, List.length_cons]; omega

theorem length_lt_writeMembers (ms : List (Text × Json F)) : ms.length < (writeMembers ms).length := by
  induction ms with
  | nil => rw [writeMembers]; simp
  | cons m ms ih => rw [writeMembers]; simp only [List.length_append, List.length_cons]; omega

/-- **One value is read back**, by the decoder with enough depth. -/
theorem scanOnce_write : ∀ n, ReadsBack (F := F) n (scanOnce n) := by
  intro n
  induction n with
  | zero => intro v rest hlen; omega
  | succ n ih =>
    intro v rest hlen hv hr
    cases v with
    | null => rfl
    | bool b => cases b <;> rfl
    | int i =>
      rw [Json.Decoded] at hv
      rw [Json.write, ← Numeral.ofInt_text, scanOnce_numeral n _ hr, Numeral.ofInt_value hv]
      rfl
    | float x =>
      rw [Json.write, writeFloat]
      split
      · -- only a finite number is written as its repr
        rename_i hk
        obtain ⟨⟨m, hm, hparts⟩, hx⟩ := Floats.float_repr x hk
        rw [← hm, scanOnce_numeral n m hr, Numeral.value_float hparts, hm, hx]
        rfl
      · rename_i hk
        rw [← Floats.float_nan x hk]; rfl
      · rename_i hk
        rw [← Floats.float_inf x hk]; rfl
      · rename_i hk
        rw [← Floats.float_neg_inf x hk]; rfl
    | str s =>
      rw [Json.Decoded] at hv
      obtain ⟨l, hl, hs⟩ := scanString_write hv rest
      have htext : Json.write (.str s : Json F) ++ rest =
          ofChar '"' :: (s.flatMap escapeChar ++ ofChar '"' :: rest) := by
        rw [Json.write]; unfold writeString; simp
      rw [htext, scanOnce, if_pos rfl, hl]
      dsimp only
      rw [hs]
    | list items =>
      cases items with
      | nil => rw [Json.write]; rfl
      | cons v vs =>
        rw [Json.Decoded, ItemsDecoded] at hv
        have htext : Json.write (.list (v :: vs)) ++ rest =
            ofChar '[' :: (v.write ++ (writeItems vs ++ rest)) := by
          rw [Json.write]; simp
        have hlen' : (v.write ++ writeItems vs).length ≤ n := by
          rw [Json.write] at hlen
          simp only [List.length_append, List.length_cons] at hlen ⊢
          omega
        have hk : vs.length < (v.write ++ (writeItems vs ++ rest)).length := by
          have := length_lt_writeItems vs
          simp only [List.length_append]; omega
        -- the items are read by `scanOnce n`: their text is shorter than that of the list
        have hread := scanItems_write ih vs v _ rest hv.1 hv.2 hlen' hk
        rw [htext, scanOnce, if_neg (by decide), if_neg (by decide), if_pos rfl, scanArray,
          v.skipWhitespace_write]
        obtain ⟨c, t, hc, -, hne, -⟩ := v.write_head
        rw [hc] at hread ⊢
        rw [List.cons_append] at hread ⊢
        dsimp only
        rw [if_neg hne, hread]
        rfl
    | dict members =>
      cases members with
      | nil => rw [Json.write]; rfl
      | cons m ms =>
        obtain ⟨key, v⟩ := m
        rw [Json.Decoded, MembersDecoded] at hv
        have htext : Json.write (.dict ((key, v) :: ms)) ++ rest =
            ofChar '{' :: (writeString key ++ (ofChar ':' :: (v.write ++ (writeMembers ms ++ rest)))) := by
          rw [Json.write]; simp
        have hlen' : (v.write ++ writeMembers ms).length ≤ n := by
          rw [Json.write] at hlen
          simp only [List.length_append, List.length_cons] at hlen ⊢
          omega
        have hk : ms.length <
            (writeString key ++ (ofChar ':' :: (v.write ++ (writeMembers ms ++ rest)))).length := by
          have := length_lt_writeMembers ms
          simp only [List.length_append, List.length_cons]; omega
        have hread := scanMembers_write ih ms key v _ [] rest hv.2.1 hv.2.2.1 hv.2.2.2
          (by rw [List.nil_append]; exact hv.1) hlen' hk
        have hquote : skipWhitespace
            (writeString key ++ (ofChar ':' :: (v.write ++ (writeMembers ms ++ rest)))) =
            writeString key ++ (ofChar ':' :: (v.write ++ (writeMembers ms ++ rest))) :=
          skipWhitespace_cons rfl _
        rw [htext, scanOnce, if_neg (by decide), if_pos rfl, scanObject, hquote]
        unfold writeString at hread ⊢
        rw [List.cons_append, List.cons_append] at hread ⊢
        dsimp only
        rw [if_neg (by decide), hread]
        rfl

/-- **The decoder reads back what was written.** -/
theorem loads_dumps {v : Json F} (h : v.Decoded) :
    dumps v = some v.write ∧ loads v.write = .ok v := by
  refine ⟨if_pos h.writable, ?_⟩
  obtain ⟨c, t, hc, -, -, hbom⟩ := v.write_head
  have hread := scanOnce_write (v.write.length + 1) v [] (by omega) h stops_nil
  have hskip := v.skipWhitespace_write []
  rw [List.append_nil] at hread hskip
  have hhead : v.write.head? ≠ some (ofChar '\uFEFF') := by
    rw [hc, List.head?_cons]
    exact fun he => hbom (Option.some.inj he)
  unfold loads
  rw [if_neg hhead, hskip, hread]
  rfl

/-! ## What is written is ASCII -/

/-- Every code point is below 128. -/
def Ascii (s : Text) : Prop := ∀ c ∈ s, c.val < 0x80

omit [Floats F] in
theorem ascii_of_all {s : Text} (h : s.all (fun c => decide (c.val < 0x80)) = true) : Ascii s :=
  fun c hc => of_decide_eq_true (List.all_eq_true.1 h c hc)

omit [Floats F] in
theorem Ascii.append {s t : Text} (hs : Ascii s) (ht : Ascii t) : Ascii (s ++ t) := by
  intro c hc
  rcases List.mem_append.1 hc with h | h
  · exact hs c h
  · exact ht c h

omit [Floats F] in
theorem Ascii.cons {c : CodePoint} {s : Text} (hc : c.val < 0x80) (hs : Ascii s) : Ascii (c :: s) := by
  intro d hd
  rcases List.mem_cons.1 hd with rfl | h
  · exact hc
  · exact hs d h

omit [Floats F] in
theorem ascii_decimal (n : ℤ) : Ascii (decimal n) := by
  have hdigits : Ascii (digits n.natAbs) := by
    intro c hc
    have := digits_digit _ c hc
    simp only [isDigit, Bool.and_eq_true, decide_eq_true_eq] at this
    omega
  rw [decimal_eq]
  split
  · exact hdigits
  · exact hdigits.cons (by decide)

omit [Floats F] in
theorem ascii_escapeUnit (n : ℕ) : Ascii (escapeUnit n) := by
  have hdigit : ∀ m, m < 16 → (hexDigitChar m).val < 0x80 := by decide
  have hlt : ∀ m, m % 16 < 16 := fun m => Nat.mod_lt m (by omega)
  unfold escapeUnit
  rw [hexText_four]
  refine Ascii.append (ascii_of_all rfl) ?_
  intro c hc
  simp only [List.mem_cons, List.not_mem_nil, or_false] at hc
  rcases hc with rfl | rfl | rfl | rfl <;> exact hdigit _ (hlt _)

omit [Floats F] in
theorem ascii_escapeChar (c : CodePoint) : Ascii (escapeChar c) := by
  unfold escapeChar
  iterate 7
    split
    · exact ascii_of_all rfl
  split
  · intro d hd
    rw [List.mem_singleton.1 hd]; omega
  split
  · exact ascii_escapeUnit _
  · exact (ascii_escapeUnit _).append (ascii_escapeUnit _)

omit [Floats F] in
theorem ascii_writeString (s : Text) : Ascii (writeString s) := by
  refine Ascii.cons (by decide) (Ascii.append ?_ (ascii_of_all rfl))
  intro c hc
  obtain ⟨d, -, hd⟩ := List.mem_flatMap.1 hc
  exact ascii_escapeChar d c hd

theorem ascii_writeFloat (x : F) : Ascii (writeFloat x) := by
  unfold writeFloat
  split
  · intro c hc
    have := Floats.repr_ascii x c hc
    omega
  · exact ascii_of_all rfl
  · exact ascii_of_all rfl
  · exact ascii_of_all rfl

mutual

theorem Json.ascii_write : ∀ v : Json F, Ascii v.write
  | .null => ascii_of_all rfl
  | .bool true => ascii_of_all rfl
  | .bool false => ascii_of_all rfl
  | .int n => by rw [Json.write]; exact ascii_decimal n
  | .float x => by rw [Json.write]; exact ascii_writeFloat x
  | .str s => by rw [Json.write]; exact ascii_writeString s
  | .list [] => by rw [Json.write]; exact ascii_of_all rfl
  | .list (v :: vs) => by
    rw [Json.write]
    exact ((Json.ascii_write v).cons (by decide)).append (ascii_writeItems vs)
  | .dict [] => by rw [Json.write]; exact ascii_of_all rfl
  | .dict ((key, v) :: ms) => by
    rw [Json.write]
    exact ((((ascii_writeString key).cons (by decide))).append
      ((Json.ascii_write v).cons (by decide))).append (ascii_writeMembers ms)

theorem ascii_writeItems : ∀ vs : List (Json F), Ascii (writeItems vs)
  | [] => by rw [writeItems]; exact ascii_of_all rfl
  | v :: vs => by
    rw [writeItems]
    exact ((Json.ascii_write v).cons (by decide)).append (ascii_writeItems vs)

theorem ascii_writeMembers : ∀ ms : List (Text × Json F), Ascii (writeMembers ms)
  | [] => by rw [writeMembers]; exact ascii_of_all rfl
  | (key, v) :: ms => by
    rw [writeMembers]
    exact ((((ascii_writeString key).cons (by decide))).append
      ((Json.ascii_write v).cons (by decide))).append (ascii_writeMembers ms)

end

omit [Floats F] in
/-- **ASCII is encoded byte by byte, and read back.** -/
theorem utf8_ascii {s : Text} (h : Ascii s) :
    encodeUtf8 s = some (s.map fun c => UInt8.ofNat c.val) ∧
      decodeUtf8 (s.map fun c => UInt8.ofNat c.val) = some s := by
  induction s with
  | nil => exact ⟨rfl, rfl⟩
  | cons c s ih =>
    have hc : c.val < 0x80 := h c List.mem_cons_self
    obtain ⟨h1, h2⟩ := ih fun d hd => h d (List.mem_cons_of_mem _ hd)
    constructor
    · unfold encodeUtf8 at h1 ⊢
      obtain ⟨bytes, hb, hj⟩ := Option.bind_eq_some_iff.1 h1
      have hchar : encodeChar c = some [UInt8.ofNat c.val] := if_pos hc
      rw [List.mapM_cons, hchar]
      show (s.mapM encodeChar >>= fun bs => pure ([UInt8.ofNat c.val] :: bs)) >>= _ = _
      rw [hb]
      rw [Option.some.injEq] at hj
      show some (UInt8.ofNat c.val :: bytes.flatten) = _
      rw [hj, List.map_cons]
    · have hbyte : (UInt8.ofNat c.val).toNat = c.val := by
        rw [UInt8.toNat_ofNat']; omega
      have hscalar : scalar? 0 c.val = some c := by
        unfold scalar?
        rw [dif_pos c.isLt, if_pos ⟨by omega, by omega⟩]
      unfold decodeUtf8 at h2 ⊢
      rw [List.map_cons, decodeFrom, hbyte, if_pos hc, hscalar, h2]
      rfl

end

end Python
