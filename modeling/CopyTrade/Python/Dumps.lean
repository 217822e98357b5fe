import CopyTrade.Python.Json

/-!
# Writing JSON

`json.dumps` with the separators `,` and `:`, and the bytes of a text in UTF-8.
Everything outside ASCII is escaped, code points beyond the first plane as two
surrogates, and the floats that JSON lacks are written as the tokens that the decoder
reads.
-/

namespace Python

/-! ## UTF-8 -/

def isSurrogate (c : CodePoint) : Bool := 0xD800 ≤ c.val && c.val < 0xE000

/-- A continuation byte, with the six lowest bits. -/
def continuation (n : ℕ) : UInt8 := UInt8.ofNat (0x80 + n % 0x40)

/-- The bytes of one code point; a surrogate has none. -/
def encodeChar (c : CodePoint) : Option (List UInt8) :=
  let n := c.val
  if n < 0x80 then some [UInt8.ofNat n]
  else if n < 0x800 then some [UInt8.ofNat (0xC0 + n / 0x40), continuation n]
  else if isSurrogate c then none
  else if n < 0x10000 then
    some [UInt8.ofNat (0xE0 + n / 0x1000), continuation (n / 0x40), continuation n]
  else some [UInt8.ofNat (0xF0 + n / 0x40000), continuation (n / 0x1000), continuation (n / 0x40),
    continuation n]

/-- `str.encode("utf-8")`; `none` where it raises `UnicodeEncodeError`. -/
def encodeUtf8 (s : Text) : Option (List UInt8) := do
  let bytes ← s.mapM encodeChar
  some bytes.flatten

/-! ## Floats -/

inductive FloatKind where
  | finite
  | nan
  | infinity
  | negInfinity
  deriving DecidableEq, Repr

/-- `0` or digits that do not start with it. -/
def IsInteger (t : Text) : Prop :=
  t = [ofChar '0'] ∨ (t ≠ [] ∧ t.head? ≠ some (ofChar '0') ∧ ∀ c ∈ t, isDigit c = true)

/-- A point with digits. -/
def IsFraction (t : Text) : Prop :=
  ∃ ds, t = ofChar '.' :: ds ∧ ds ≠ [] ∧ ∀ c ∈ ds, isDigit c = true

/-- An `e` with an optional sign and digits. -/
def IsExponent (t : Text) : Prop :=
  ∃ sign ds, t = ofChar 'e' :: sign ++ ds ∧ (sign = [] ∨ sign = [ofChar '-'] ∨ sign = [ofChar '+']) ∧
    ds ≠ [] ∧ ∀ c ∈ ds, isDigit c = true

/-- A number as the decoder matches it. -/
structure Numeral where
  sign : Text
  integer : Text
  fraction : Text
  exponent : Text
  isSign : sign = [] ∨ sign = [ofChar '-']
  isInteger : IsInteger integer
  isFraction : fraction = [] ∨ IsFraction fraction
  isExponent : exponent = [] ∨ IsExponent exponent

def Numeral.text (m : Numeral) : Text := m.sign ++ m.integer ++ m.fraction ++ m.exponent

/-- `repr` of a float is a number with a fraction or an exponent. -/
def IsFloatRepr (t : Text) : Prop := ∃ m : Numeral, m.text = t ∧ ¬ (m.fraction = [] ∧ m.exponent = [])

/-- Floats that are read back from what is written of them. The model does not tell one
NaN from another. -/
class Floats (F : Type) extends Runtime F where
  kind : F → FloatKind
  float_repr : ∀ x, kind x = .finite → IsFloatRepr (floatRepr x) ∧ float (floatRepr x) = x
  float_nan : ∀ x, kind x = .nan → float (text "nan") = x
  float_inf : ∀ x, kind x = .infinity → float (text "inf") = x
  float_neg_inf : ∀ x, kind x = .negInfinity → float (text "-inf") = x
  /-- `repr(float)` is ASCII without control characters. -/
  repr_ascii : ∀ x, ∀ c ∈ floatRepr x, 0x20 ≤ c.val ∧ c.val < 0x7F
  /-- Neither `U+0000` nor a surrogate is printable. -/
  not_printable : ∀ c, isPrintable c = true → c.val ≠ 0 ∧ isSurrogate c = false

/-- The runtime whose only float is not a number. -/
instance : Floats Unit where
  kind _ := .nan
  float_repr _ h := by cases h
  float_nan _ _ := rfl
  float_inf _ h := by cases h
  float_neg_inf _ h := by cases h
  repr_ascii _ c hc := by
    have : ∀ c ∈ text "0.0", 0x20 ≤ c.val ∧ c.val < 0x7F := by
      intro c hc
      simpa using List.all_eq_true.1 (rfl : (text "0.0").all (fun c => 0x20 ≤ c.val ∧ c.val < 0x7F) = true) c hc
    exact this c hc
  not_printable c hc := by
    have hc : 0x20 ≤ c.val ∧ c.val < 0x7F := by
      simpa [Runtime.isPrintable, Bool.and_eq_true] using hc
    refine ⟨by omega, ?_⟩
    unfold isSurrogate
    simp only [Bool.and_eq_false_iff, decide_eq_false_iff_not]
    omega

/-! ## `json.dumps` -/

/-- `\uXXXX` -/
def escapeUnit (n : ℕ) : Text := text "\\u" ++ hexText 4 n

/-- One code point between the quotes. -/
def escapeChar (c : CodePoint) : Text :=
  if c = ofChar '\\' then text "\\\\"
  else if c = ofChar '"' then text "\\\""
  else if c = ofChar '\x08' then text "\\b"
  else if c = ofChar '\x0c' then text "\\f"
  else if c = ofChar '\n' then text "\\n"
  else if c = ofChar '\r' then text "\\r"
  else if c = ofChar '\t' then text "\\t"
  else if 0x20 ≤ c.val ∧ c.val < 0x7F then [c]
  else if c.val < 0x10000 then escapeUnit c.val
  else
    let n := c.val - 0x10000
    escapeUnit (0xD800 + n / 0x400) ++ escapeUnit (0xDC00 + n % 0x400)

def writeString (s : Text) : Text := ofChar '"' :: s.flatMap escapeChar ++ [ofChar '"']

variable {F : Type}

def writeFloat [Floats F] (x : F) : Text :=
  match Floats.kind x with
  | .finite => Runtime.floatRepr x
  | .nan => text "NaN"
  | .infinity => text "Infinity"
  | .negInfinity => text "-Infinity"

section

variable [Floats F]

mutual

def Json.write : Json F → Text
  | .null => text "null"
  | .bool b => if b then text "true" else text "false"
  | .int n => decimal n
  | .float x => writeFloat x
  | .str s => writeString s
  | .list [] => text "[]"
  | .list (v :: vs) => ofChar '[' :: v.write ++ writeItems vs
  | .dict [] => text "\x7b\x7d"
  | .dict ((key, v) :: ms) =>
    ofChar '{' :: writeString key ++ ofChar ':' :: v.write ++ writeMembers ms

/-- The items after the first one, and the bracket. -/
def writeItems : List (Json F) → Text
  | [] => [ofChar ']']
  | v :: vs => ofChar ',' :: v.write ++ writeItems vs

/-- The members after the first one, and the brace. -/
def writeMembers : List (Text × Json F) → Text
  | [] => [ofChar '}']
  | (key, v) :: ms => ofChar ',' :: writeString key ++ ofChar ':' :: v.write ++ writeMembers ms

end

/-- `int.__repr__` raises beyond the limit. -/
def intWritable (n : ℤ) : Bool := (Nat.toDigits 10 n.natAbs).length ≤ intMaxStrDigits

mutual

def Json.writable : Json F → Bool
  | .int n => intWritable n
  | .list items => itemsWritable items
  | .dict members => membersWritable members
  | _ => true

def itemsWritable : List (Json F) → Bool
  | [] => true
  | v :: vs => v.writable && itemsWritable vs

def membersWritable : List (Text × Json F) → Bool
  | [] => true
  | (_, v) :: ms => v.writable && membersWritable ms

end

/-- `json.dumps(value, separators=(",", ":"))`; `none` where it raises `ValueError`. -/
def dumps (v : Json F) : Option Text := if v.writable then some v.write else none

end

end Python
