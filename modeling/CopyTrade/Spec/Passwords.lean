import CopyTrade.Python.Dumps
import CopyTrade.Python.Fields
import CopyTrade.Spec.Auth
import CopyTrade.Spec.Bus

/-!
# Passwords

`hash_password` and `verify_password` of `sessions.py`. `hashlib.scrypt` and the decimal digits
of Unicode come from outside.
-/

namespace CopyTrade

open Python (Text CodePoint text split hex fromHex ofChar)

/-- `UnicodeEncodeError`, which is a `ValueError`. -/
def unicodeEncodeError : PyException := ⟨"UnicodeEncodeError"⟩

/-- `except (ValueError, TypeError)` -/
def isRejection (e : PyException) : Prop :=
  e = valueError ∨ e = unicodeEncodeError ∨ e = ⟨"TypeError"⟩

instance : DecidablePred isRejection := fun _ => inferInstanceAs (Decidable (_ ∨ _ ∨ _))

/-- `hashlib.scrypt(password, salt=salt, n=n, r=r, p=p, dklen=dklen)`: a key of the length asked
for, or a `ValueError` or `TypeError`, as for a key of no bytes. -/
structure Scrypt where
  key (password salt : List UInt8) (n r p : ℤ) (dklen : ℕ) : Except PyException (List UInt8)
  key_length : ∀ {password salt n r p dklen bytes},
    key password salt n r p dklen = .ok bytes → bytes.length = dklen
  key_rejection : ∀ {password salt n r p dklen e},
    key password salt n r p dklen = .error e → isRejection e
  key_empty : ∀ password salt n r p, ∃ e, key password salt n r p 0 = .error e

def passwordHashAlgorithm : Text := text "scrypt"

def scryptN : ℤ := 16384

def scryptR : ℤ := 8

def scryptP : ℤ := 1

def scryptDklen : ℕ := 32

def dollar : CodePoint := ofChar '$'

/-- A conversion that raises a `ValueError` where it has no value. -/
def orValueError {α : Type} : Option α → Except PyException α
  | some a => .ok a
  | none => .error valueError

/-- `password.encode("utf-8")` -/
def encodePassword (password : Text) : Except PyException (List UInt8) :=
  match Python.encodeUtf8 password with
  | some bytes => .ok bytes
  | none => .error unicodeEncodeError

section

variable (scrypt : Scrypt)

/-- `hash_password`, with the salt that it draws. -/
def hashPassword (password : Text) (salt : List UInt8) : Except PyException Text := do
  let secret ← encodePassword password
  let digest ← scrypt.key secret salt scryptN scryptR scryptP scryptDklen
  .ok (passwordHashAlgorithm ++ dollar :: Python.decimal scryptN ++ dollar :: Python.decimal scryptR ++
    dollar :: Python.decimal scryptP ++ dollar :: hex salt ++ dollar :: hex digest)

variable (todecimal : CodePoint → Option (Fin 10))

/-- The `try` block of `verify_password`: the digest and the text it is compared with, or `none`
where the algorithm is another one. -/
def digestOf (password storedHash : Text) : Except PyException (Option (List UInt8 × Text)) :=
  match split dollar 5 storedHash with
  | [algorithm, nText, rText, pText, saltHex, digestHex] =>
    if algorithm ≠ passwordHashAlgorithm then .ok none
    else do
      let secret ← encodePassword password
      let salt ← orValueError (fromHex saltHex)
      let n ← orValueError (Python.int? todecimal nText)
      let r ← orValueError (Python.int? todecimal rText)
      let p ← orValueError (Python.int? todecimal pText)
      let stored ← orValueError (fromHex digestHex)
      let digest ← scrypt.key secret salt n r p stored.length
      .ok (some (digest, digestHex))
  | _ => .error valueError

def verifyPassword (password storedHash : Text) : Except PyException Bool :=
  match digestOf scrypt todecimal password storedHash with
  | .ok (some (digest, digestHex)) => compareDigest (hex digest) digestHex
  | .ok none => .ok false
  | .error e => if isRejection e then .ok false else .error e

end

end CopyTrade
