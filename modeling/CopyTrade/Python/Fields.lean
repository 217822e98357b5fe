import CopyTrade.Python.Json

/-!
# Fields of a text

`str.split` with a limit, `int` of a text, and `bytes.hex` with `bytes.fromhex`.

* `split_eq_iff`: a text splits into given fields exactly where it is their join and the
  separator is in none but the last.
* `fromHex_hex`: `bytes.fromhex` undoes `bytes.hex`. It takes capital letters and spaces as well,
  so it has no such inverse.

`int` reads what Unicode counts as decimal digits (`todecimal`) and as spaces.
-/

namespace Python

/-! ## `str.split` -/

/-- `str.split(sep, maxsplit)`, for a separator of one code point. -/
def split (sep : CodePoint) : ℕ → Text → List Text
  | 0, s => [s]
  | n + 1, s =>
    match s.dropWhile (· ≠ sep) with
    | [] => [s]
    | _ :: rest => s.takeWhile (· ≠ sep) :: split sep n rest

/-- Fields with separators between them. -/
def joinFields (sep : CodePoint) (init : List Text) (last : Text) : Text :=
  init.foldr (fun a t => a ++ sep :: t) last

variable {sep : CodePoint} {a b s : Text}

theorem takeWhile_append (ha : sep ∉ a) (rest : Text) :
    (a ++ sep :: rest).takeWhile (· ≠ sep) = a ∧ (a ++ sep :: rest).dropWhile (· ≠ sep) = sep :: rest := by
  induction a with
  | nil => simp
  | cons c a ih =>
    have hc : c ≠ sep := fun h => ha (by simp [h])
    obtain ⟨htake, hdrop⟩ := ih fun h => ha (List.mem_cons_of_mem c h)
    constructor
    · rw [List.cons_append, List.takeWhile_cons, if_pos (by simpa using hc), htake]
    · rw [List.cons_append, List.dropWhile_cons, if_pos (by simpa using hc), hdrop]

/-- One field, and the rest. -/
theorem split_append (ha : sep ∉ a) (n : ℕ) (rest : Text) :
    split sep (n + 1) (a ++ sep :: rest) = a :: split sep n rest := by
  obtain ⟨htake, hdrop⟩ := takeWhile_append ha rest
  rw [split, hdrop, htake]

/-- A first field with another one after it ends at the first separator. -/
theorem split_cons {n : ℕ} {rest : List Text} (hrest : rest ≠ [])
    (h : split sep (n + 1) s = a :: rest) : sep ∉ a ∧ ∃ t, s = a ++ sep :: t ∧ split sep n t = rest := by
  rw [split] at h
  split at h
  · exact absurd (List.cons.inj h).2.symm hrest
  · rename_i c t hdrop
    obtain ⟨ha, hsplit⟩ := List.cons.inj h
    have hc : c = sep := by
      have hne : s.dropWhile (fun x => decide (x ≠ sep)) ≠ [] := by rw [hdrop]; simp
      have hhead := List.head_dropWhile_not (fun x => decide (x ≠ sep)) hne
      simp only [hdrop, List.head_cons] at hhead
      simpa using hhead
    have hnot : sep ∉ s.takeWhile (· ≠ sep) := by
      intro hmem
      simpa using List.mem_takeWhile_imp hmem
    refine ⟨ha ▸ hnot, t, ?_, hsplit⟩
    rw [← ha, ← hc, ← hdrop, hc, List.takeWhile_append_dropWhile]

/-- **The fields of a text** that has as many separators as may be split at. -/
theorem split_eq_iff {init : List Text} {last : Text} : split sep init.length s = init ++ [last] ↔
    s = joinFields sep init last ∧ ∀ a ∈ init, sep ∉ a := by
  induction init generalizing s with
  | nil => simp [split, joinFields]
  | cons a init ih =>
    constructor
    · intro h
      rw [List.length_cons, List.cons_append] at h
      obtain ⟨ha, t, rfl, hsplit⟩ := split_cons (by simp) h
      obtain ⟨rfl, hinit⟩ := ih.1 hsplit
      refine ⟨rfl, List.forall_mem_cons.2 ⟨ha, hinit⟩⟩
    · rintro ⟨rfl, hall⟩
      obtain ⟨ha, hinit⟩ := List.forall_mem_cons.1 hall
      have hrest := ih.2 ⟨rfl, hinit⟩
      rw [List.length_cons, List.cons_append, ← hrest]
      exact split_append ha init.length (joinFields sep init last)

/-! ## `int` -/

/-- `Py_ISSPACE` -/
def isAsciiSpace (c : CodePoint) : Bool := (0x09 ≤ c.val && c.val ≤ 0x0D) || c.val == 0x20

section

variable (todecimal : CodePoint → Option (Fin 10))

/-- What `int` makes of a character beyond ASCII. -/
def toAscii (c : CodePoint) : CodePoint :=
  if c.val < 127 then c
  else if isSpace c then ofChar ' '
  else
    match todecimal c with
    | some d => hexDigitChar d.val
    | none => ofChar '?'

/-- Digits, with single underscores between them, and what follows. A digit may be `due`. -/
def scanDigits : Bool → Text → Option (Text × Text)
  | due, [] => if due then none else some ([], [])
  | due, c :: s =>
    if isDigit c then (scanDigits false s).map fun p => (c :: p.1, p.2)
    else if due then none
    else if c = ofChar '_' then scanDigits true s
    else some ([], c :: s)

/-- `int(str)`; `none` where it raises `ValueError`. -/
def int? (s : Text) : Option ℤ :=
  let (sign, unsigned) := scanSign ['+', '-'] ((s.map (toAscii todecimal)).dropWhile isAsciiSpace)
  match scanDigits true unsigned with
  | none => none
  | some (digits, rest) =>
    if digits.length ≤ intMaxStrDigits ∧ rest.all isAsciiSpace = true then
      some (if sign = [ofChar '-'] then -natOfDigits digits else natOfDigits digits)
    else none

/-- ASCII is read without Unicode. -/
theorem int_of_ascii {s : Text} (h : (s.all fun c => c.val < 127) = true) :
    int? todecimal s = int? (fun _ => none) s := by
  have hsame : ∀ todecimal, s.map (toAscii todecimal) = s := by
    intro todecimal
    have hlt : ∀ c ∈ s, c.val < 127 := by simpa using h
    rw [List.map_congr_left (g := id) fun c hc => by simp [toAscii, hlt c hc], List.map_id]
  unfold int?
  rw [hsame, hsame]

end

/-! ## `bytes.hex` and `bytes.fromhex` -/

/-- `bytes.hex()` -/
def hex (bytes : List UInt8) : Text := bytes.flatMap fun b => hexText 2 b.toNat

/-- `bytes.fromhex(str)`; `none` where it raises `ValueError`. Spaces may stand between two bytes. -/
def fromHex : Text → Option (List UInt8)
  | [] => some []
  | [c] => if isAsciiSpace c then some [] else none
  | c :: d :: s =>
    if isAsciiSpace c then fromHex (d :: s)
    else do
      let top ← hexVal? c
      let bot ← hexVal? d
      let bytes ← fromHex s
      some (UInt8.ofNat (16 * top + bot) :: bytes)

theorem hexDigitChar_not_space {n : ℕ} (h : n < 16) : isAsciiSpace (hexDigitChar n) = false := by
  have hall : ∀ n : Fin 16, isAsciiSpace (hexDigitChar n) = false := by decide
  exact hall ⟨n, h⟩

theorem hex_cons (b : UInt8) (bytes : List UInt8) :
    hex (b :: bytes) = hexDigitChar (b.toNat / 16) :: hexDigitChar (b.toNat % 16) :: hex bytes := by
  have htop : b.toNat / 16 % 16 = b.toNat / 16 := Nat.mod_eq_of_lt (by have := b.toNat_lt; omega)
  simp [hex, hexText, htop]

/-- **The bytes are read back.** -/
theorem fromHex_hex (bytes : List UInt8) : fromHex (hex bytes) = some bytes := by
  induction bytes with
  | nil => rfl
  | cons b bytes ih =>
    have hlt := b.toNat_lt
    have htop : b.toNat / 16 < 16 := by omega
    have hbot : b.toNat % 16 < 16 := by omega
    have hbyte : UInt8.ofNat (16 * (b.toNat / 16) + b.toNat % 16) = b := by
      rw [Nat.div_add_mod, UInt8.ofNat_toNat]
    rw [hex_cons, fromHex, if_neg (by simp [hexDigitChar_not_space htop]), hexVal_hexDigitChar htop,
      hexVal_hexDigitChar hbot, ih]
    simp only [Option.bind_eq_bind, Option.bind_some, hbyte]

theorem mem_hex {c : CodePoint} {bytes : List UInt8} (h : c ∈ hex bytes) :
    ∃ n < 16, c = hexDigitChar n := by
  induction bytes with
  | nil => simp [hex] at h
  | cons b bytes ih =>
    have hlt := b.toNat_lt
    rw [hex_cons, List.mem_cons, List.mem_cons] at h
    rcases h with h | h | h
    · exact ⟨_, by omega, h⟩
    · exact ⟨_, by omega, h⟩
    · exact ih h

theorem hex_ascii (bytes : List UInt8) : IsAscii (hex bytes) := by
  intro c hc
  obtain ⟨n, hn, rfl⟩ := mem_hex hc
  have hall : ∀ n : Fin 16, (hexDigitChar n).val < 128 := by decide
  exact hall ⟨n, hn⟩

/-- What `bytes.fromhex` takes is ASCII. -/
theorem fromHex_ascii : ∀ {s : Text} {bytes : List UInt8}, fromHex s = some bytes → IsAscii s := by
  have hspace : ∀ c : CodePoint, isAsciiSpace c = true → c.val < 128 := by
    intro c hc
    simp [isAsciiSpace] at hc
    omega
  have hdigit : ∀ {c : CodePoint} {n : ℕ}, hexVal? c = some n → c.val < 128 := by
    intro c n hc
    unfold hexVal? at hc
    dsimp only at hc
    split_ifs at hc <;> omega
  intro s
  induction s using fromHex.induct with
  | case1 => intro bytes _ c hc; cases hc
  | case2 c hc =>
    intro bytes _ d hd
    rw [List.mem_singleton.1 hd]
    exact hspace c hc
  | case3 c hc =>
    intro bytes h
    rw [fromHex, if_neg hc] at h
    cases h
  | case4 c d s hc ih =>
    intro bytes h
    rw [fromHex, if_pos hc] at h
    exact List.forall_mem_cons.2 ⟨hspace c hc, ih h⟩
  | case5 c d s hc ih =>
    intro bytes h
    rw [fromHex, if_neg hc] at h
    simp only [Option.bind_eq_bind, Option.bind_eq_some_iff] at h
    obtain ⟨top, htop, bot, hbot, rest, hrest, -⟩ := h
    exact List.forall_mem_cons.2 ⟨hdigit htop, List.forall_mem_cons.2 ⟨hdigit hbot, ih hrest⟩⟩

end Python
