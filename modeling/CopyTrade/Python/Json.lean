import CopyTrade.Python.Text

/-!
# JSON values

What `json.loads` makes of a text, and what `str` and `bool` make of the values. The
standard library's binary floating point and its table of printable characters are left
open (`Runtime`). The interpreter's recursion limit is not modelled: values of any depth
are read and written.

* `loads`: the decoder, with the tokens `NaN` and `Infinity`, repeated keys, escaped
  surrogates and the limit on the digits of an integer.
* `loads_ne_unfinished`: it always reads its text to the end or to an error.
-/

namespace Python

/-- What the model leaves open of the standard library, for floats `F`. -/
class Runtime (F : Type) where
  /-- `float(str)` -/
  float : Text → F
  /-- `repr(float)` -/
  floatRepr : F → Text
  /-- `bool(float)` -/
  floatTruth : F → Bool
  /-- `str.isprintable`, for one code point. -/
  isPrintable : CodePoint → Bool

/-- A runtime for ASCII texts whose only float is `0.0`. -/
instance : Runtime Unit where
  float _ := ()
  floatRepr _ := text "0.0"
  floatTruth _ := false
  isPrintable c := 0x20 ≤ c.val && c.val < 0x7F

inductive Json (F : Type) where
  | null
  | bool (b : Bool)
  | int (n : ℤ)
  | float (x : F)
  | str (s : Text)
  | list (items : List (Json F))
  | dict (members : List (Text × Json F))

/-- How reading a text fails. `unfinished` stands for no exception: it never happens. -/
inductive LoadsError where
  | jsonDecodeError
  | valueError
  | unfinished
  deriving DecidableEq, Repr

variable {F : Type}

/-- `d[key] = value` -/
def dictSet (members : List (Text × Json F)) (key : Text) (value : Json F) :
    List (Text × Json F) :=
  if key ∈ members.map Prod.fst then
    members.map fun m => if m.1 = key then (key, value) else m
  else members ++ [(key, value)]

/-- `d.get(key)` -/
def dictGet (members : List (Text × Json F)) (key : Text) : Json F :=
  ((members.find? fun m => m.1 = key).map Prod.snd).getD .null

/-! ## Tokens -/

def isWhitespace (c : CodePoint) : Bool :=
  c == ofChar ' ' || c == ofChar '\t' || c == ofChar '\n' || c == ofChar '\r'

def skipWhitespace (s : Text) : Text := s.dropWhile isWhitespace

def hexVal? (c : CodePoint) : Option ℕ :=
  let n := c.val
  if 48 ≤ n ∧ n ≤ 57 then some (n - 48)
  else if 97 ≤ n ∧ n ≤ 102 then some (n - 87)
  else if 65 ≤ n ∧ n ≤ 70 then some (n - 55)
  else none

theorem hexVal_hexDigitChar {n : ℕ} (h : n < 16) : hexVal? (hexDigitChar n) = some n := by
  have hall : ∀ n : Fin 16, hexVal? (hexDigitChar n) = some n.val := by decide
  exact hall ⟨n, h⟩

/-- The code unit of `\uXXXX`. -/
def hex4? (a b c d : CodePoint) : Option CodePoint := do
  let n := (((← hexVal? a) * 16 + (← hexVal? b)) * 16 + (← hexVal? c)) * 16 + (← hexVal? d)
  if h : n < 0x110000 then some ⟨n, h⟩ else none

def escapeChar? (c : CodePoint) : Option CodePoint :=
  if c = ofChar '"' then some (ofChar '"')
  else if c = ofChar '\\' then some (ofChar '\\')
  else if c = ofChar '/' then some (ofChar '/')
  else if c = ofChar 'b' then some (ofChar '\x08')
  else if c = ofChar 'f' then some (ofChar '\x0c')
  else if c = ofChar 'n' then some (ofChar '\n')
  else if c = ofChar 'r' then some (ofChar '\r')
  else if c = ofChar 't' then some (ofChar '\t')
  else none

/-- Put a code point in front, with whether it was written as `\uXXXX`. A high surrogate
and a low one after it, both written so, are one code point. -/
def joinSurrogates (c : CodePoint) (rest : List (CodePoint × Bool)) : List (CodePoint × Bool) :=
  match rest with
  | (d, true) :: rest' =>
    if h : (0xD800 ≤ c.val ∧ c.val < 0xDC00) ∧ (0xDC00 ≤ d.val ∧ d.val < 0xE000) then
      (⟨0x10000 + (c.val - 0xD800) * 0x400 + (d.val - 0xDC00), by omega⟩, false) :: rest'
    else (c, true) :: rest
  | _ => (c, true) :: rest

/-- `scanstring`, after the opening quote: the text and what follows the closing quote. -/
def scanString : Text → Option (List (CodePoint × Bool) × Text)
  | [] => none
  | c :: s =>
    if c = ofChar '"' then some ([], s)
    else if c = ofChar '\\' then
      match s with
      | [] => none
      | e :: s =>
        if e = ofChar 'u' then
          match s with
          | h1 :: h2 :: h3 :: h4 :: s => do
            let u ← hex4? h1 h2 h3 h4
            let (t, rest) ← scanString s
            some (joinSurrogates u t, rest)
          | _ => none
        else do
          let u ← escapeChar? e
          let (t, rest) ← scanString s
          some ((u, false) :: t, rest)
    else if c.val < 0x20 then none
    else do
      let (t, rest) ← scanString s
      some ((c, false) :: t, rest)

def isDigit (c : CodePoint) : Bool := 48 ≤ c.val && c.val ≤ 57

def natOfDigits (ds : Text) : ℕ := ds.foldl (fun n d => 10 * n + (d.val - 48)) 0

/-- `sys.get_int_max_str_digits()`, by default. -/
def intMaxStrDigits : ℕ := 4300

/-- An optional sign among `signs`. -/
def scanSign (signs : List Char) (s : Text) : Text × Text :=
  match s with
  | c :: rest => if (signs.map ofChar).contains c then ([c], rest) else ([], s)
  | [] => ([], s)

/-- A marker and the digits after it; nothing where there are no digits. -/
def scanPart (markers signs : List Char) (s : Text) : Text × Text :=
  match s with
  | c :: rest =>
    if (markers.map ofChar).contains c then
      let (sign, rest) := scanSign signs rest
      if rest.takeWhile isDigit = [] then ([], s)
      else (c :: sign ++ rest.takeWhile isDigit, rest.dropWhile isDigit)
    else ([], s)
  | [] => ([], s)

/-- `_match_number`: `(-?(?:0|[1-9]\d*))(\.\d+)?([eE][-+]?\d+)?` -/
def scanNumber [Runtime F] (s : Text) : Except LoadsError (Json F × Text) :=
  let (sign, s) := scanSign ['-'] s
  let integer := if s.head? = some (ofChar '0') then s.take 1 else s.takeWhile isDigit
  let (fraction, rest) := scanPart ['.'] [] (s.drop integer.length)
  let (exponent, rest) := scanPart ['e', 'E'] ['-', '+'] rest
  if integer = [] then .error .jsonDecodeError
  else if fraction = [] ∧ exponent = [] then
    if integer.length > intMaxStrDigits then .error .valueError
    else
      let n : ℤ := natOfDigits integer
      .ok (.int (if sign = [] then n else -n), rest)
  else .ok (.float (Runtime.float (sign ++ integer ++ fraction ++ exponent)), rest)

/-- The words of the decoder with their values. -/
def constants [Runtime F] : List (Text × Json F) :=
  [(text "null", .null), (text "true", .bool true), (text "false", .bool false),
    (text "NaN", .float (Runtime.float (text "nan"))),
    (text "Infinity", .float (Runtime.float (text "inf"))),
    (text "-Infinity", .float (Runtime.float (text "-inf")))]

/-! ## Values -/

/-- The items of an array up to its bracket. -/
def scanItems (value : Text → Except LoadsError (Json F × Text)) :
    ℕ → Text → Except LoadsError (List (Json F) × Text)
  | 0, _ => .error .jsonDecodeError
  | k + 1, s => do
    let (v, s) ← value s
    match skipWhitespace s with
    | [] => .error .jsonDecodeError
    | c :: s =>
      if c = ofChar ']' then .ok ([v], s)
      else if c = ofChar ',' then do
        let (vs, s) ← scanItems value k (skipWhitespace s)
        .ok (v :: vs, s)
      else .error .jsonDecodeError

/-- `JSONArray`, after the bracket. Every item takes at least one code point. -/
def scanArray (value : Text → Except LoadsError (Json F × Text)) (s : Text) :
    Except LoadsError (Json F × Text) :=
  match skipWhitespace s with
  | [] => .error .jsonDecodeError
  | c :: rest =>
    if c = ofChar ']' then .ok (.list [], rest)
    else do
      let (items, s) ← scanItems value s.length (c :: rest)
      .ok (.list items, s)

/-- One key with its colon. -/
def scanKey (s : Text) : Except LoadsError (Text × Text) :=
  match s with
  | [] => .error .jsonDecodeError
  | c :: s =>
    if c = ofChar '"' then
      match scanString s with
      | none => .error .jsonDecodeError
      | some (key, s) =>
        match skipWhitespace s with
        | [] => .error .jsonDecodeError
        | c :: s =>
          if c = ofChar ':' then .ok (key.map Prod.fst, skipWhitespace s)
          else .error .jsonDecodeError
    else .error .jsonDecodeError

/-- The members of an object up to its brace, added to those already read. -/
def scanMembers (value : Text → Except LoadsError (Json F × Text)) :
    ℕ → List (Text × Json F) → Text → Except LoadsError (List (Text × Json F) × Text)
  | 0, _, _ => .error .jsonDecodeError
  | k + 1, members, s => do
    let (key, s) ← scanKey s
    let (v, s) ← value s
    match skipWhitespace s with
    | [] => .error .jsonDecodeError
    | c :: s =>
      if c = ofChar '}' then .ok (dictSet members key v, s)
      else if c = ofChar ',' then scanMembers value k (dictSet members key v) (skipWhitespace s)
      else .error .jsonDecodeError

/-- `JSONObject`, after the brace. -/
def scanObject (value : Text → Except LoadsError (Json F × Text)) (s : Text) :
    Except LoadsError (Json F × Text) :=
  match skipWhitespace s with
  | [] => .error .jsonDecodeError
  | c :: rest =>
    if c = ofChar '}' then .ok (.dict [], rest)
    else do
      let (members, s) ← scanMembers value s.length [] (c :: rest)
      .ok (.dict members, s)

variable [Runtime F]

/-- `scan_once`, for values nested less than the given depth. -/
def scanOnce : ℕ → Text → Except LoadsError (Json F × Text)
  | 0, _ => .error .unfinished
  | n + 1, s =>
    match s with
    | [] => .error .jsonDecodeError
    | c :: rest =>
      if c = ofChar '"' then
        match scanString rest with
        | none => .error .jsonDecodeError
        | some (t, rest) => .ok (.str (t.map Prod.fst), rest)
      else if c = ofChar '{' then scanObject (scanOnce n) rest
      else if c = ofChar '[' then scanArray (scanOnce n) rest
      else
        match constants.find? fun w => w.1.isPrefixOf s with
        | some (word, v) => .ok (v, s.drop word.length)
        | none => scanNumber s

/-- `json.loads(str)` -/
def loads (s : Text) : Except LoadsError (Json F) :=
  if s.head? = some (ofChar '\uFEFF') then .error .jsonDecodeError
  else do
    let (v, rest) ← scanOnce (s.length + 1) (skipWhitespace s)
    if skipWhitespace rest = [] then .ok v else .error .jsonDecodeError

/-! ## `bool` and `str` -/

/-- `bool(value)` -/
def Json.truth : Json F → Bool
  | .null => false
  | .bool b => b
  | .int n => n ≠ 0
  | .float x => Runtime.floatTruth x
  | .str s => s ≠ []
  | .list items => !items.isEmpty
  | .dict members => !members.isEmpty

mutual

/-- `repr(value)` -/
def Json.repr : Json F → Text
  | .null => text "None"
  | .bool b => if b then text "True" else text "False"
  | .int n => decimal n
  | .float x => Runtime.floatRepr x
  | .str s => reprText (Runtime.isPrintable F) s
  | .list items => text "[" ++ (text ", ").intercalate (reprItems items) ++ text "]"
  | .dict members => text "\x7b" ++ (text ", ").intercalate (reprMembers members) ++ text "\x7d"

def reprItems : List (Json F) → List Text
  | [] => []
  | v :: vs => v.repr :: reprItems vs

def reprMembers : List (Text × Json F) → List Text
  | [] => []
  | (key, v) :: ms =>
    (reprText (Runtime.isPrintable F) key ++ text ": " ++ v.repr) :: reprMembers ms

end

/-- `str(value)`, as in an f-string. -/
def Json.toText : Json F → Text
  | .str s => s
  | v => v.repr

/-! ## Reading ends -/

section

omit [Runtime F]

theorem length_skipWhitespace (s : Text) : (skipWhitespace s).length ≤ s.length :=
  (List.dropWhile_suffix _).length_le

theorem length_of_skipWhitespace {s t : Text} {c : CodePoint} (h : skipWhitespace s = c :: t) :
    t.length < s.length := by
  have := length_skipWhitespace s
  rw [h, List.length_cons] at this
  omega

theorem scanString_lt {s : Text} : ∀ {t : List (CodePoint × Bool)} {rest : Text},
    scanString s = some (t, rest) → rest.length < s.length := by
  fun_induction scanString s with
  | case1 => intro t rest h; cases h
  -- the closing quote
  | case2 s => intro t rest h; cases h; simp
  | case3 => intro t rest h; cases h
  -- four hexadecimal digits after `\u`
  | case4 h1 h2 h3 h4 s _ ih =>
    intro t rest h
    obtain ⟨u, -, h⟩ := Option.bind_eq_some_iff.1 h
    obtain ⟨⟨t', rest'⟩, hs, h⟩ := Option.bind_eq_some_iff.1 h
    cases h
    have := ih hs
    simp only [List.length_cons]; omega
  | case5 => intro t rest h; cases h
  -- an escape of one character
  | case6 e s _ _ ih =>
    intro t rest h
    obtain ⟨u, -, h⟩ := Option.bind_eq_some_iff.1 h
    obtain ⟨⟨t', rest'⟩, hs, h⟩ := Option.bind_eq_some_iff.1 h
    cases h
    have := ih hs
    simp only [List.length_cons]; omega
  | case7 => intro t rest h; cases h
  -- any other code point stands for itself
  | case8 c s _ _ _ ih =>
    intro t rest h
    obtain ⟨⟨t', rest'⟩, hs, h⟩ := Option.bind_eq_some_iff.1 h
    cases h
    have := ih hs
    simp only [List.length_cons]; omega

/-- The reader came to an end, with fewer than `m` code points left. -/
def Ends {α : Type} (m : ℕ) : Except LoadsError (α × Text) → Prop
  | .error e => e ≠ .unfinished
  | .ok (_, rest) => rest.length < m

variable {α β : Type} {m : ℕ}

theorem ends_decode : Ends m (.error .jsonDecodeError : Except LoadsError (α × Text)) := by
  intro h; cases h

theorem Ends.mono {n : ℕ} {r : Except LoadsError (α × Text)} (h : Ends n r) (hnm : n ≤ m) :
    Ends m r := by
  cases r with
  | error e => exact h
  | ok p => exact Nat.lt_of_lt_of_le h hnm

theorem Ends.bind {r : Except LoadsError (α × Text)} {f : α × Text → Except LoadsError (β × Text)}
    (h : Ends m r) (hf : ∀ v rest, rest.length < m → Ends m (f (v, rest))) : Ends m (r >>= f) := by
  cases r with
  | error e => exact h
  | ok p => exact hf p.1 p.2 h

variable {value : Text → Except LoadsError (Json F × Text)}

theorem scanKey_ends (s : Text) : Ends s.length (scanKey s) := by
  unfold scanKey
  split
  · exact ends_decode
  split
  swap
  · exact ends_decode
  split
  · exact ends_decode
  rename_i hs
  split
  · exact ends_decode
  rename_i c t hw
  split
  · have h1 := scanString_lt hs
    have h2 := length_of_skipWhitespace hw
    have h3 := length_skipWhitespace t
    show (skipWhitespace t).length < _
    simp only [List.length_cons]; omega
  · exact ends_decode

/-- The loops end where the reader of one value does. -/
theorem scanItems_ends (h : ∀ s : Text, s.length ≤ m → Ends s.length (value s)) :
    ∀ k s, s.length ≤ m → Ends s.length (scanItems value k s) := by
  intro k
  induction k with
  | zero => intro s _; exact ends_decode
  | succ k ih =>
    intro s hs
    unfold scanItems
    refine (h s hs).bind fun v rest hlt => ?_
    simp only
    split
    · exact ends_decode
    rename_i c t hw
    have h1 := length_of_skipWhitespace hw
    have h2 := length_skipWhitespace t
    split
    · show t.length < _
      omega
    split
    · refine ((ih _ (by omega)).mono (by omega)).bind fun vs rest' hlt' => ?_
      exact hlt'
    · exact ends_decode

theorem scanMembers_ends (h : ∀ s : Text, s.length ≤ m → Ends s.length (value s)) :
    ∀ k members s, s.length ≤ m → Ends s.length (scanMembers value k members s) := by
  intro k
  induction k with
  | zero => intro members s _; exact ends_decode
  | succ k ih =>
    intro members s hs
    unfold scanMembers
    refine (scanKey_ends s).bind fun key rest hlt => ?_
    refine ((h rest (by omega)).mono (by omega)).bind fun v rest' hlt' => ?_
    simp only
    split
    · exact ends_decode
    rename_i c t hw
    have h1 := length_of_skipWhitespace hw
    have h2 := length_skipWhitespace t
    split
    · show t.length < _
      omega
    split
    · exact (ih _ _ (by omega)).mono (by omega)
    · exact ends_decode

theorem scanArray_ends (h : ∀ s : Text, s.length ≤ m → Ends s.length (value s)) {s : Text}
    (hs : s.length ≤ m) : Ends (s.length + 1) (scanArray value s) := by
  unfold scanArray
  split
  · exact ends_decode
  rename_i c t hw
  have h1 := length_of_skipWhitespace hw
  split
  · show t.length < _
    omega
  · refine ((scanItems_ends h _ _ ?_).mono ?_).bind fun vs rest hlt => hlt
    · simp only [List.length_cons]; omega
    · simp only [List.length_cons]; omega

theorem scanObject_ends (h : ∀ s : Text, s.length ≤ m → Ends s.length (value s)) {s : Text}
    (hs : s.length ≤ m) : Ends (s.length + 1) (scanObject value s) := by
  unfold scanObject
  split
  · exact ends_decode
  rename_i c t hw
  have h1 := length_of_skipWhitespace hw
  split
  · show t.length < _
    omega
  · refine ((scanMembers_ends h _ _ _ ?_).mono ?_).bind fun vs rest hlt => hlt
    · simp only [List.length_cons]; omega
    · simp only [List.length_cons]; omega

theorem length_scanSign (signs : List Char) (s : Text) : (scanSign signs s).2.length ≤ s.length := by
  unfold scanSign
  split
  · split
    · simp
    · exact le_rfl
  · exact le_rfl

theorem length_scanPart (markers signs : List Char) (s : Text) :
    (scanPart markers signs s).2.length ≤ s.length := by
  unfold scanPart
  split
  swap
  · exact le_rfl
  rename_i c rest
  split
  swap
  · exact le_rfl
  have h1 := length_scanSign signs rest
  have h2 := (List.dropWhile_suffix (l := (scanSign signs rest).2) isDigit).length_le
  simp only
  split
  · exact le_rfl
  · simp only [List.length_cons]; omega

end

theorem scanNumber_ends (s : Text) : Ends s.length (scanNumber s : Except LoadsError (Json F × Text)) := by
  unfold scanNumber
  have hsign := length_scanSign ['-'] s
  generalize scanSign ['-'] s = p at hsign ⊢
  obtain ⟨sign, s'⟩ := p
  simp only at hsign ⊢
  -- the digits before the fraction: one zero, or as many as there are
  generalize hint : (if s'.head? = some (ofChar '0') then s'.take 1 else s'.takeWhile isDigit) =
    integer
  have hle : integer.length ≤ s'.length := by
    rw [← hint]
    split
    · exact (List.take_prefix _ _).length_le
    · exact (List.takeWhile_prefix _).length_le
  have hfraction := length_scanPart ['.'] [] (s'.drop integer.length)
  have hexponent := length_scanPart ['e', 'E'] ['-', '+']
    (scanPart ['.'] [] (s'.drop integer.length)).2
  rw [List.length_drop] at hfraction
  split
  · exact ends_decode
  rename_i hne
  have hpos : 0 < integer.length := List.length_pos_iff.2 hne
  split
  · split
    · intro h; cases h
    · show (scanPart _ _ _).2.length < _
      omega
  · show (scanPart _ _ _).2.length < _
    omega

theorem scanOnce_ends : ∀ n (s : Text), s.length < n →
    Ends s.length (scanOnce n s : Except LoadsError (Json F × Text)) := by
  intro n
  induction n with
  | zero => intro s hs; omega
  | succ n ih =>
    intro s hs
    unfold scanOnce
    split
    · exact ends_decode
    rename_i c rest
    rw [List.length_cons] at hs
    have hvalue : ∀ t : Text, t.length ≤ rest.length → Ends t.length
        (scanOnce n t : Except LoadsError (Json F × Text)) := fun t ht => ih t (by omega)
    split
    · split
      · exact ends_decode
      · rename_i t rest' ht
        have := scanString_lt ht
        show rest'.length < _
        simp only [List.length_cons]; omega
    split
    · exact scanObject_ends hvalue le_rfl
    split
    · exact scanArray_ends hvalue le_rfl
    split
    · rename_i word v hw
      -- a constant is not empty
      have hpos : 0 < word.length := by
        have hmem := List.mem_of_find?_eq_some hw
        simp only [constants, List.mem_cons, List.not_mem_nil, or_false, Prod.mk.injEq] at hmem
        rcases hmem with h | h | h | h | h | h <;> rw [h.1] <;> decide
      show ((c :: rest).drop word.length).length < _
      rw [List.length_drop, List.length_cons]; omega
    · exact scanNumber_ends _

/-- **The decoder reads its text to the end or to an error.** -/
theorem loads_ne_unfinished (s : Text) : (loads s : Except LoadsError (Json F)) ≠ .error .unfinished := by
  unfold loads
  split
  · intro h; cases h
  have hends := scanOnce_ends (F := F) (s.length + 1) (skipWhitespace s)
    (Nat.lt_succ_of_le (length_skipWhitespace s))
  cases hv : (scanOnce (s.length + 1) (skipWhitespace s) : Except LoadsError (Json F × Text)) with
  | error e =>
    rw [hv] at hends
    intro h; cases h
    exact hends rfl
  | ok p =>
    intro h
    have h : (if skipWhitespace p.2 = [] then .ok p.1 else .error .jsonDecodeError :
      Except LoadsError (Json F)) = .error .unfinished := h
    split at h <;> cases h

end Python
