import Mathlib.Data.List.DropRight
import Mathlib.Data.List.Infix
import Mathlib.Order.Basic

/-!
# Text

A Python `str` is a sequence of code points, lone surrogates included, so a Lean
`String` does not hold every one. The methods below are those of `str` and `bytes` that
the event bus uses.

`lower` is `str.lower` as far as ASCII text can see: besides the capital letters only two
code points have an ASCII letter in their lower case, and every other one stays as it is.
-/

namespace Python

/-- A Unicode code point. -/
abbrev CodePoint := Fin 0x110000

abbrev Text := List CodePoint

instance : LawfulBEq Text := inferInstance

theorem toNat_lt (c : Char) : c.toNat < 0x110000 := by
  have h : c.val.toNat < 0xd800 ∨ 0xdfff < c.val.toNat ∧ c.val.toNat < 0x110000 := c.valid
  unfold Char.toNat
  omega

def ofChar (c : Char) : CodePoint := ⟨c.toNat, toNat_lt c⟩

instance : Coe Char CodePoint := ⟨ofChar⟩

/-- A string literal. -/
def text (s : String) : Text := s.toList.map ofChar

theorem ofChar_injective : Function.Injective ofChar := by
  intro a b h
  have hnat : (ofChar a).val = (ofChar b).val := congrArg _ h
  exact Char.toNat_inj.1 hnat

theorem text_injective : Function.Injective text := by
  intro a b h
  have hchars : a.toList = b.toList := List.map_injective_iff.2 ofChar_injective h
  exact String.toList_injective hchars

/-- `int.__str__` -/
def decimal (n : ℤ) : Text := text (toString n)

/-! ## `bytes.decode("utf-8")` -/

/-- The code point of a complete sequence, unless it is overlong, a surrogate or too large. -/
def scalar? (low n : ℕ) : Option CodePoint :=
  if h : n < 0x110000 then
    if low ≤ n ∧ ¬ (0xD800 ≤ n ∧ n < 0xE000) then some ⟨n, h⟩ else none
  else none

/-- With `owed` continuation bytes to come, `n` the bits read so far, and `low` the least
code point that needs so many bytes. -/
def decodeFrom : ℕ → ℕ → ℕ → List UInt8 → Option Text
  | 0, _, _, [] => some []
  | _ + 1, _, _, [] => none
  | 0, _, _, b :: bs =>
    let n := b.toNat
    if n < 0x80 then do
      let c ← scalar? 0 n
      let t ← decodeFrom 0 0 0 bs
      some (c :: t)
    else if n < 0xC0 then none
    else if n < 0xE0 then decodeFrom 1 0x80 (n - 0xC0) bs
    else if n < 0xF0 then decodeFrom 2 0x800 (n - 0xE0) bs
    else if n < 0xF8 then decodeFrom 3 0x10000 (n - 0xF0) bs
    else none
  | owed + 1, low, n, b :: bs =>
    if 0x80 ≤ b.toNat ∧ b.toNat < 0xC0 then
      let n := n * 64 + (b.toNat - 0x80)
      if owed = 0 then do
        let c ← scalar? low n
        let t ← decodeFrom 0 0 0 bs
        some (c :: t)
      else decodeFrom owed low n bs
    else none

/-- `bytes.decode("utf-8")`; `none` where it raises `UnicodeDecodeError`. -/
def decodeUtf8 (bs : List UInt8) : Option Text := decodeFrom 0 0 0 bs

/-- The bytes of an ASCII literal. -/
def ascii (s : String) : List UInt8 := s.toList.map fun c => UInt8.ofNat c.toNat

/-! ## Methods of `str` -/

/-- `str.isspace`, for one code point. -/
def isSpace (c : CodePoint) : Bool :=
  let n := c.val
  (0x09 ≤ n && n ≤ 0x0D) || (0x1C ≤ n && n ≤ 0x20) || n == 0x85 || n == 0xA0 || n == 0x1680 ||
    (0x2000 ≤ n && n ≤ 0x200A) || n == 0x2028 || n == 0x2029 || n == 0x202F || n == 0x205F ||
    n == 0x3000

/-- `str.strip()` -/
def strip (s : Text) : Text := (s.rdropWhile isSpace).dropWhile isSpace

def lowerChar (c : CodePoint) : Text :=
  if h : 65 ≤ c.val ∧ c.val ≤ 90 then [⟨c.val + 32, by omega⟩]
  else if c = 0x130 then [('i' : Char), 0x307]
  else if c = 0x212A then [('k' : Char)]
  else [c]

/-- `str.lower()` -/
def lower (s : Text) : Text := s.flatMap lowerChar

/-- `str.isascii()` -/
def IsAscii (s : Text) : Prop := ∀ c ∈ s, c.val < 128

instance : DecidablePred IsAscii := fun s => inferInstanceAs (Decidable (∀ c ∈ s, _))

def upperChar (c : CodePoint) : CodePoint :=
  if h : 97 ≤ c.val ∧ c.val ≤ 122 then ⟨c.val - 32, by omega⟩ else c

/-- `str.upper()` of an ASCII text. -/
def upper (s : Text) : Text := s.map upperChar

/-- `str.replace(old, new)`, for one code point. -/
def replace (old : CodePoint) (new : Text) (s : Text) : Text :=
  s.flatMap fun c => if c = old then new else [c]

/-- `sub in s` -/
def contains (sub s : Text) : Bool := decide (sub <:+: s)

/-! ## `repr` of a string -/

def hexDigitChar (n : ℕ) : CodePoint := ofChar (Nat.digitChar n)

/-- The last `w` hexadecimal digits of `n`. -/
def hexText : ℕ → ℕ → Text
  | 0, _ => []
  | w + 1, n => hexText w (n / 16) ++ [hexDigitChar (n % 16)]

/-- One code point in `repr(str)`, between quotes of the given kind. -/
def reprChar (isPrintable : CodePoint → Bool) (quote c : CodePoint) : Text :=
  if c = quote ∨ c = ('\\' : Char) then [('\\' : Char), c]
  else if c = ('\t' : Char) then text "\\t"
  else if c = ('\n' : Char) then text "\\n"
  else if c = ('\r' : Char) then text "\\r"
  else if isPrintable c then [c]
  else if c.val ≤ 0xFF then text "\\x" ++ hexText 2 c.val
  else if c.val ≤ 0xFFFF then text "\\u" ++ hexText 4 c.val
  else text "\\U" ++ hexText 8 c.val

/-- `repr(str)`: in single quotes, unless the text has some and no double ones. -/
def reprText (isPrintable : CodePoint → Bool) (s : Text) : Text :=
  let quote : CodePoint := if ofChar '\'' ∈ s ∧ ofChar '"' ∉ s then ofChar '"' else ofChar '\''
  quote :: s.flatMap (reprChar isPrintable quote) ++ [quote]

end Python
