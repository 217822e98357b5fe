import CopyTrade.Spec.Passwords

/-!
# Password hashes verify exactly

* `hashPassword_fields`: the fields of a hash, and what `verify_password` reads in them.
* `digestOf_ok`: all that its `try` block may end in.
* `verifyPassword_iff`: it answers `True` exactly for the hashes of the password.
* `password_hashes_verify`: both together.
-/

namespace CopyTrade

open Python (Text CodePoint text split hex fromHex joinFields IsAscii)

/-! ## Computations that raise -/

theorem bind_eq_ok_iff {ε α β : Type} {x : Except ε α} {f : α → Except ε β} {b : β} :
    x >>= f = .ok b ↔ ∃ a, x = .ok a ∧ f a = .ok b := by
  cases x with
  | ok a => simp [bind, Except.bind]
  | error e => simp [bind, Except.bind]

/-- The exceptions that `verify_password` catches. -/
def OnlyRejects {α : Type} (x : Except PyException α) : Prop := ∀ e, x = .error e → isRejection e

theorem OnlyRejects.ok {α : Type} (a : α) : OnlyRejects (.ok a) := fun e h => by cases h

theorem OnlyRejects.bind {α β : Type} {x : Except PyException α} {f : α → Except PyException β}
    (hx : OnlyRejects x) (hf : ∀ a, OnlyRejects (f a)) : OnlyRejects (x >>= f) := by
  cases x with
  | ok a => exact hf a
  | error e =>
    intro e' he
    cases he
    exact hx e rfl

theorem encodePassword_rejects (password : Text) : OnlyRejects (encodePassword password) := by
  intro e h
  unfold encodePassword at h
  split at h
  · cases h
  · cases h
    exact Or.inr (Or.inl rfl)

theorem orValueError_rejects {α : Type} (a : Option α) : OnlyRejects (orValueError a) := by
  intro e h
  cases a with
  | some a => cases h
  | none =>
    cases h
    exact Or.inl rfl

theorem orValueError_eq_ok {α : Type} {o : Option α} {a : α} : orValueError o = .ok a ↔ o = some a := by
  cases o with
  | some b => simp [orValueError]
  | none => simp [orValueError]

theorem encodePassword_eq_ok {password : Text} {secret : List UInt8} :
    encodePassword password = .ok secret ↔ Python.encodeUtf8 password = some secret := by
  unfold encodePassword
  split
  · rename_i bytes h
    simp [h]
  · rename_i h
    simp [h]

/-! ## The stored text -/

/-- The six fields of a stored text. -/
structure HasFields (storedHash nText rText pText saltHex digestHex : Text) : Prop where
  joined : storedHash = joinFields dollar [passwordHashAlgorithm, nText, rText, pText, saltHex] digestHex
  separate : ∀ field ∈ [passwordHashAlgorithm, nText, rText, pText, saltHex], dollar ∉ field

/-- What `verify_password` reads in four of the fields. -/
structure ReadAs (todecimal : CodePoint → Option (Fin 10)) (nText rText pText saltHex : Text)
    (n r p : ℤ) (salt : List UInt8) : Prop where
  n_eq : Python.int? todecimal nText = some n
  r_eq : Python.int? todecimal rText = some r
  p_eq : Python.int? todecimal pText = some p
  salt_eq : fromHex saltHex = some salt

theorem hasFields_iff {storedHash nText rText pText saltHex digestHex : Text} :
    HasFields storedHash nText rText pText saltHex digestHex ↔
      split dollar 5 storedHash = [passwordHashAlgorithm, nText, rText, pText, saltHex, digestHex] :=
  ⟨fun h => Python.split_eq_iff.2 ⟨h.joined, h.separate⟩,
    fun h => ⟨(Python.split_eq_iff.1 h).1, (Python.split_eq_iff.1 h).2⟩⟩

theorem dollar_not_mem_hex (bytes : List UInt8) : dollar ∉ hex bytes := by
  intro h
  obtain ⟨n, hn, he⟩ := Python.mem_hex h
  have hall : ∀ n : Fin 16, dollar ≠ Python.hexDigitChar n := by decide
  exact hall ⟨n, hn⟩ he

theorem decimal_read (todecimal : CodePoint → Option (Fin 10)) {n : ℤ}
    (hascii : ((Python.decimal n).all fun c => c.val < 127) = true)
    (h : Python.int? (fun _ => none) (Python.decimal n) = some n) :
    Python.int? todecimal (Python.decimal n) = some n := by
  rw [Python.int_of_ascii todecimal hascii, h]

variable (scrypt : Scrypt) (todecimal : CodePoint → Option (Fin 10)) {password storedHash : Text}

/-- **The fields of a hash**: each is read as what it was written from. -/
theorem hashPassword_fields {salt : List UInt8}
    (h : hashPassword scrypt password salt = .ok storedHash) :
    ∃ secret digest, Python.encodeUtf8 password = some secret ∧
      scrypt.key secret salt scryptN scryptR scryptP scryptDklen = .ok digest ∧
      HasFields storedHash (Python.decimal scryptN) (Python.decimal scryptR) (Python.decimal scryptP)
        (hex salt) (hex digest) ∧
      ReadAs todecimal (Python.decimal scryptN) (Python.decimal scryptR) (Python.decimal scryptP)
        (hex salt) scryptN scryptR scryptP salt := by
  obtain ⟨secret, hsecret, h⟩ := bind_eq_ok_iff.1 h
  obtain ⟨digest, hdigest, h⟩ := bind_eq_ok_iff.1 h
  cases h
  refine ⟨secret, digest, encodePassword_eq_ok.1 hsecret, hdigest, ⟨?_, ?_⟩,
    ⟨decimal_read todecimal (by decide +kernel) (by decide +kernel),
      decimal_read todecimal (by decide +kernel) (by decide +kernel),
      decimal_read todecimal (by decide +kernel) (by decide +kernel), Python.fromHex_hex salt⟩⟩
  · simp [joinFields]
  · -- a salt is anything, but in hex it has no separator
    have hfixed : ∀ field ∈ [passwordHashAlgorithm, Python.decimal scryptN, Python.decimal scryptR,
        Python.decimal scryptP], dollar ∉ field := by decide +kernel
    intro field hfield
    simp only [List.mem_cons, List.not_mem_nil, or_false] at hfield hfixed
    rcases hfield with h | h | h | h | rfl
    · exact hfixed field (by simp [h])
    · exact hfixed field (by simp [h])
    · exact hfixed field (by simp [h])
    · exact hfixed field (by simp [h])
    · exact dollar_not_mem_hex salt

/-- The `try` block raises nothing that is not caught. -/
theorem digestOf_rejects : OnlyRejects (digestOf scrypt todecimal password storedHash) := by
  unfold digestOf
  split
  · split
    · exact OnlyRejects.ok none
    · refine (encodePassword_rejects password).bind fun secret => ?_
      refine (orValueError_rejects _).bind fun salt => ?_
      refine (orValueError_rejects _).bind fun n => ?_
      refine (orValueError_rejects _).bind fun r => ?_
      refine (orValueError_rejects _).bind fun p => ?_
      refine (orValueError_rejects _).bind fun stored => ?_
      have hkey : OnlyRejects (scrypt.key secret salt n r p stored.length) := fun e he =>
        scrypt.key_rejection he
      exact hkey.bind fun digest => OnlyRejects.ok _
  · intro e he
    cases he
    exact Or.inl rfl

/-- **All that the `try` block may end in**, where it has a digest to compare. -/
theorem digestOf_ok {digest : List UInt8} {digestHex : Text} :
    digestOf scrypt todecimal password storedHash = .ok (some (digest, digestHex)) ↔
      ∃ nText rText pText saltHex n r p salt secret stored,
        HasFields storedHash nText rText pText saltHex digestHex ∧
        ReadAs todecimal nText rText pText saltHex n r p salt ∧
        Python.encodeUtf8 password = some secret ∧ fromHex digestHex = some stored ∧
        scrypt.key secret salt n r p stored.length = .ok digest := by
  constructor
  · intro h
    unfold digestOf at h
    split at h
    · rename_i algorithm nText rText pText saltHex hexText hsplit
      split at h
      · cases h
      rename_i halgorithm
      have halgorithm : algorithm = passwordHashAlgorithm := not_not.1 halgorithm
      obtain ⟨secret, hsecret, h⟩ := bind_eq_ok_iff.1 h
      obtain ⟨salt, hsalt, h⟩ := bind_eq_ok_iff.1 h
      obtain ⟨n, hn, h⟩ := bind_eq_ok_iff.1 h
      obtain ⟨r, hr, h⟩ := bind_eq_ok_iff.1 h
      obtain ⟨p, hp, h⟩ := bind_eq_ok_iff.1 h
      obtain ⟨stored, hstored, h⟩ := bind_eq_ok_iff.1 h
      obtain ⟨d, hd, h⟩ := bind_eq_ok_iff.1 h
      cases h
      rw [halgorithm] at hsplit
      exact ⟨nText, rText, pText, saltHex, n, r, p, salt, secret, stored, hasFields_iff.2 hsplit,
        ⟨orValueError_eq_ok.1 hn, orValueError_eq_ok.1 hr, orValueError_eq_ok.1 hp,
          orValueError_eq_ok.1 hsalt⟩,
        encodePassword_eq_ok.1 hsecret, orValueError_eq_ok.1 hstored, hd⟩
    · cases h
  · rintro ⟨nText, rText, pText, saltHex, n, r, p, salt, secret, stored, hfields, hread, hsecret,
      hstored, hkey⟩
    unfold digestOf
    rw [hasFields_iff.1 hfields]
    dsimp only
    rw [if_neg (not_not.2 rfl), encodePassword_eq_ok.2 hsecret, orValueError_eq_ok.2 hread.salt_eq,
      orValueError_eq_ok.2 hread.n_eq, orValueError_eq_ok.2 hread.r_eq,
      orValueError_eq_ok.2 hread.p_eq, orValueError_eq_ok.2 hstored]
    dsimp only [bind, Except.bind]
    rw [hkey]

/-- The stored text is a hash of the password: six fields, the last one the digest that the
others lead to. -/
def IsHashOf (password storedHash : Text) : Prop :=
  ∃ nText rText pText saltHex n r p salt secret digest,
    HasFields storedHash nText rText pText saltHex (hex digest) ∧
    ReadAs todecimal nText rText pText saltHex n r p salt ∧
    Python.encodeUtf8 password = some secret ∧ digest ≠ [] ∧
    scrypt.key secret salt n r p digest.length = .ok digest

/-- **All that `verify_password` can do**: compare two texts that are ASCII, or answer `False`. -/
theorem verifyPassword_cases :
    (∃ digest digestHex, digestOf scrypt todecimal password storedHash = .ok (some (digest, digestHex)) ∧
        verifyPassword scrypt todecimal password storedHash = .ok (hex digest == digestHex)) ∨
      ((∀ d, digestOf scrypt todecimal password storedHash ≠ .ok (some d)) ∧
        verifyPassword scrypt todecimal password storedHash = .ok false) := by
  cases h : digestOf scrypt todecimal password storedHash with
  | error e =>
    have hcaught := digestOf_rejects scrypt todecimal e h
    exact Or.inr ⟨fun d hd => (by cases hd), by simp only [verifyPassword, h, if_pos hcaught]⟩
  | ok o =>
    cases o with
    | none => exact Or.inr ⟨fun d hd => (by cases hd), by simp only [verifyPassword, h]⟩
    | some d =>
      obtain ⟨digest, digestHex⟩ := d
      obtain ⟨-, -, -, -, -, -, -, -, -, stored, -, -, -, hstored, -⟩ := (digestOf_ok scrypt todecimal).1 h
      -- the last field is ASCII, as `bytes.fromhex` took it
      have hascii : IsAscii (hex digest) ∧ IsAscii digestHex :=
        ⟨Python.hex_ascii digest, Python.fromHex_ascii hstored⟩
      exact Or.inl ⟨digest, digestHex, rfl, by simp only [verifyPassword, h, compareDigest, if_pos hascii]⟩

/-- **`verify_password` never raises.** -/
theorem verifyPassword_isOk : ∃ b, verifyPassword scrypt todecimal password storedHash = .ok b := by
  rcases verifyPassword_cases scrypt todecimal with ⟨digest, digestHex, -, h⟩ | ⟨-, h⟩
  · exact ⟨_, h⟩
  · exact ⟨_, h⟩

/-- **`verify_password` answers `True`** exactly for the hashes of the password. -/
theorem verifyPassword_iff : verifyPassword scrypt todecimal password storedHash = .ok true ↔
    IsHashOf scrypt todecimal password storedHash := by
  rcases verifyPassword_cases scrypt todecimal with ⟨digest, digestHex, hd, h⟩ | ⟨hnone, h⟩
  · rw [h, Except.ok.injEq, beq_iff_eq]
    constructor
    · rintro rfl
      obtain ⟨nText, rText, pText, saltHex, n, r, p, salt, secret, stored, hfields, hread, hsecret,
        hstored, hkey⟩ := (digestOf_ok scrypt todecimal).1 hd
      rw [Python.fromHex_hex] at hstored
      cases hstored
      refine ⟨nText, rText, pText, saltHex, n, r, p, salt, secret, digest, hfields, hread, hsecret, ?_,
        hkey⟩
      -- a key of no bytes is refused
      rintro rfl
      obtain ⟨e, he⟩ := scrypt.key_empty secret salt n r p
      rw [List.length_nil, he] at hkey
      cases hkey
    · rintro ⟨nText, rText, pText, saltHex, n, r, p, salt, secret, digest', hfields, hread, hsecret, -, hkey⟩
      have hd' := (digestOf_ok scrypt todecimal).2 ⟨nText, rText, pText, saltHex, n, r, p, salt, secret,
        digest', hfields, hread, hsecret, Python.fromHex_hex digest', hkey⟩
      rw [hd] at hd'
      cases hd'
      rfl
  · rw [h]
    refine iff_of_false (fun he => by cases he) ?_
    rintro ⟨nText, rText, pText, saltHex, n, r, p, salt, secret, digest, hfields, hread, hsecret, -, hkey⟩
    exact hnone _ ((digestOf_ok scrypt todecimal).2 ⟨nText, rText, pText, saltHex, n, r, p, salt, secret,
      digest, hfields, hread, hsecret, Python.fromHex_hex digest, hkey⟩)

/-! ## Hashing and verifying -/

/-- The fields of a stored text are unique. -/
theorem HasFields.unique {nText rText pText saltHex digestHex nText' rText' pText' saltHex' digestHex' : Text}
    (h : HasFields storedHash nText rText pText saltHex digestHex)
    (h' : HasFields storedHash nText' rText' pText' saltHex' digestHex') :
    nText = nText' ∧ rText = rText' ∧ pText = pText' ∧ saltHex = saltHex' ∧ digestHex = digestHex' := by
  have hsame := (hasFields_iff.1 h).symm.trans (hasFields_iff.1 h')
  simpa using hsame

theorem hex_injective {a b : List UInt8} (h : hex a = hex b) : a = b := by
  have hread := congrArg fromHex h
  rw [Python.fromHex_hex, Python.fromHex_hex] at hread
  exact Option.some.inj hread

/-- **A password verifies against the hash of another one** exactly where both lead to one key. -/
theorem verify_hash_iff {p q : Text} {salt secret secret' : List UInt8}
    (hp : Python.encodeUtf8 p = some secret) (hq : Python.encodeUtf8 q = some secret')
    (h : hashPassword scrypt p salt = .ok storedHash) :
    verifyPassword scrypt todecimal q storedHash = .ok true ↔
      scrypt.key secret' salt scryptN scryptR scryptP scryptDklen =
        scrypt.key secret salt scryptN scryptR scryptP scryptDklen := by
  obtain ⟨s, digest, hs, hkey, hfields, hread⟩ := hashPassword_fields scrypt todecimal h
  cases hp.symm.trans hs
  have hlength : digest.length = scryptDklen := scrypt.key_length hkey
  rw [verifyPassword_iff, hkey]
  constructor
  · rintro ⟨nText, rText, pText, saltHex, n, r, p', salt', t, digest', hfields', hread', ht, -, hkey'⟩
    -- both readings are of the same six fields
    obtain ⟨rfl, rfl, rfl, rfl, hdigest⟩ := hfields.unique hfields'
    cases hq.symm.trans ht
    cases hread.n_eq.symm.trans hread'.n_eq
    cases hread.r_eq.symm.trans hread'.r_eq
    cases hread.p_eq.symm.trans hread'.p_eq
    cases hread.salt_eq.symm.trans hread'.salt_eq
    cases hex_injective hdigest
    rwa [hlength] at hkey'
  · intro hkey'
    refine ⟨_, _, _, _, _, _, _, _, secret', digest, hfields, hread, hq, ?_, by rw [hlength]; exact hkey'⟩
    rintro rfl
    cases hlength

/-- The repositories are given these functions. -/
structure Given (crypto : Crypto) : Prop where
  hash : ∀ password salt storedHash, hashPassword scrypt password salt = .ok storedHash →
    text (crypto.hashPassword password salt) = storedHash
  verify : ∀ password storedHash, verifyPassword scrypt todecimal password (text storedHash) =
    .ok (crypto.verifyPassword password storedHash)

/-- **A login** with the password of a credential, or with another one. -/
theorem Given.verify_hash {crypto : Crypto} (hgiven : Given scrypt todecimal crypto) {p q : Text}
    {salt secret secret' : List UInt8} (hp : Python.encodeUtf8 p = some secret)
    (hq : Python.encodeUtf8 q = some secret') (h : hashPassword scrypt p salt = .ok storedHash) :
    crypto.verifyPassword q (crypto.hashPassword p salt) = true ↔
      scrypt.key secret' salt scryptN scryptR scryptP scryptDklen =
        scrypt.key secret salt scryptN scryptR scryptP scryptDklen := by
  rw [← verify_hash_iff scrypt todecimal hp hq h, ← hgiven.hash p salt storedHash h, hgiven.verify,
    Except.ok.injEq]

/-- **Password hashes verify exactly.** -/
theorem password_hashes_verify :
    (∀ (p q : Text) (salt secret secret' : List UInt8) (storedHash : Text),
      Python.encodeUtf8 p = some secret → Python.encodeUtf8 q = some secret' →
      hashPassword scrypt p salt = .ok storedHash →
      (∃ digest nText rText pText saltHex,
        scrypt.key secret salt scryptN scryptR scryptP scryptDklen = .ok digest ∧
        split dollar 5 storedHash =
          [passwordHashAlgorithm, nText, rText, pText, saltHex, hex digest] ∧
        ReadAs todecimal nText rText pText saltHex scryptN scryptR scryptP salt) ∧
      (verifyPassword scrypt todecimal q storedHash = .ok true ↔
        scrypt.key secret' salt scryptN scryptR scryptP scryptDklen =
          scrypt.key secret salt scryptN scryptR scryptP scryptDklen)) ∧
    ∀ password storedHash, (∃ b, verifyPassword scrypt todecimal password storedHash = .ok b) ∧
      (verifyPassword scrypt todecimal password storedHash = .ok true ↔
        IsHashOf scrypt todecimal password storedHash) := by
  refine ⟨fun p q salt secret secret' storedHash hp hq h => ⟨?_, ?_⟩, fun password storedHash => ⟨?_, ?_⟩⟩
  · obtain ⟨s, digest, hs, hkey, hfields, hread⟩ := hashPassword_fields scrypt todecimal h
    cases hp.symm.trans hs
    exact ⟨digest, _, _, _, _, hkey, hasFields_iff.1 hfields, hread⟩
  · exact verify_hash_iff scrypt todecimal hp hq h
  · exact verifyPassword_isOk scrypt todecimal
  · exact verifyPassword_iff scrypt todecimal

/-! ### Two passwords -/

/-- Two passwords with their keys for a salt of 16 zero bytes and the parameters of the program. -/
def sampleKeys : List (List UInt8 × List UInt8) :=
  [(Python.ascii "correct horse battery staple", [16, 4, 238, 56, 206, 2, 122, 39, 41, 135, 155, 96,
      146, 140, 73, 211, 111, 217, 167, 249, 236, 236, 154, 97, 88, 65, 152, 34, 195, 11, 22, 10]),
    (Python.ascii "wrong password", [51, 21, 242, 145, 147, 11, 80, 244, 58, 97, 101, 90, 162, 72,
      148, 212, 209, 49, 163, 79, 85, 82, 196, 171, 95, 245, 1, 165, 24, 191, 147, 141])]

def sampleKey (password : List UInt8) (dklen : ℕ) : Except PyException (List UInt8) :=
  if dklen = 0 then .error valueError
  else .ok ((((sampleKeys.lookup password).getD []) ++ List.replicate dklen 0).take dklen)

theorem sampleKey_length {password bytes : List UInt8} {dklen : ℕ}
    (h : sampleKey password dklen = .ok bytes) : bytes.length = dklen := by
  unfold sampleKey at h
  split at h
  · cases h
  · cases h
    simp

theorem sampleKey_rejection {password : List UInt8} {dklen : ℕ} {e : PyException}
    (h : sampleKey password dklen = .error e) : isRejection e := by
  unfold sampleKey at h
  split at h
  · cases h
    exact Or.inl rfl
  · cases h

theorem sampleKey_empty (password : List UInt8) : ∃ e, sampleKey password 0 = .error e := ⟨valueError, rfl⟩

def sampleScrypt : Scrypt where
  key password _ _ _ _ dklen := sampleKey password dklen
  key_length := sampleKey_length
  key_rejection := sampleKey_rejection
  key_empty password _ _ _ _ := sampleKey_empty password

/-- The password verifies, another one does not. -/
theorem password_hashes_verify_two : ∃ storedHash,
    hashPassword sampleScrypt (text "correct horse battery staple") (List.replicate 16 0) = .ok storedHash ∧
    verifyPassword sampleScrypt (fun _ => none) (text "correct horse battery staple") storedHash = .ok true ∧
    ¬ verifyPassword sampleScrypt (fun _ => none) (text "wrong password") storedHash = .ok true := by
  have hp : Python.encodeUtf8 (text "correct horse battery staple") =
      some (Python.ascii "correct horse battery staple") := by decide +kernel
  have hq : Python.encodeUtf8 (text "wrong password") = some (Python.ascii "wrong password") := by
    decide +kernel
  obtain ⟨storedHash, h⟩ : ∃ storedHash, hashPassword sampleScrypt (text "correct horse battery staple")
      (List.replicate 16 0) = .ok storedHash := by
    unfold hashPassword
    rw [encodePassword_eq_ok.2 hp]
    exact ⟨_, rfl⟩
  have hverify := (password_hashes_verify sampleScrypt fun _ => none).1
  refine ⟨storedHash, h, ((hverify _ _ _ _ _ _ hp hp h).2).2 rfl, fun hwrong => ?_⟩
  have hkeys := ((hverify _ _ _ _ _ _ hp hq h).2).1 hwrong
  exact absurd hkeys (by decide +kernel)

end CopyTrade
