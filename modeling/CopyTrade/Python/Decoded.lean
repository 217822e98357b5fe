import CopyTrade.Python.RoundTrip
import Mathlib.Algebra.Group.Nat.Defs
import Mathlib.Data.List.Nodup

/-!
# What the decoder makes of a text

UTF-8 holds no surrogates, so a decoded string has one only where it was escaped, and
an escaped pair is joined. Repeated keys overwrite each other, and longer integers than
the limit are refused. So everything the decoder makes of a text can be written and read
back.

* `decoded_of_loads`: the values that come out of a decoder.
-/

namespace Python

variable {F : Type}

/-- A text without surrogates. -/
def Scalar (s : Text) : Prop := ∀ c ∈ s, isSurrogate c = false

theorem Scalar.tail {c : CodePoint} {s : Text} (h : Scalar (c :: s)) : Scalar s :=
  fun d hd => h d (List.mem_cons_of_mem _ hd)

theorem Scalar.suffix {s t : Text} (h : Scalar s) (hst : t <:+ s) : Scalar t :=
  fun c hc => h c (hst.mem hc)

/-- UTF-8 holds no surrogates. -/
theorem decodeFrom_scalar : ∀ (bs : List UInt8) (owed low n : ℕ) (s : Text),
    decodeFrom owed low n bs = some s → Scalar s := by
  have hscalar : ∀ {low n : ℕ} {c : CodePoint}, scalar? low n = some c → isSurrogate c = false := by
    intro low n c h
    unfold scalar? at h
    split at h
    · split at h
      · rename_i hn
        cases h
        unfold isSurrogate
        simp only [Bool.and_eq_false_iff, decide_eq_false_iff_not]
        omega
      · cases h
    · cases h
  have hcons : ∀ {c : CodePoint} {t : Text}, isSurrogate c = false → Scalar t → Scalar (c :: t) := by
    intro c t hc ht d hd
    rcases List.mem_cons.1 hd with rfl | hd
    · exact hc
    · exact ht d hd
  intro bs
  induction bs with
  | nil =>
    intro owed low n s h
    cases owed with
    | zero => cases h; intro c hc; cases hc
    | succ owed => cases h
  | cons b bs ih =>
    intro owed low n s h
    cases owed with
    | zero =>
      unfold decodeFrom at h
      dsimp only at h
      split at h
      · obtain ⟨c, hc, h⟩ := Option.bind_eq_some_iff.1 h
        obtain ⟨t, ht, h⟩ := Option.bind_eq_some_iff.1 h
        cases h
        exact hcons (hscalar hc) (ih _ _ _ _ ht)
      split at h
      · cases h
      split at h
      · exact ih _ _ _ _ h
      split at h
      · exact ih _ _ _ _ h
      split at h
      · exact ih _ _ _ _ h
      · cases h
    | succ owed =>
      unfold decodeFrom at h
      dsimp only at h
      split at h
      · split at h
        · obtain ⟨c, hc, h⟩ := Option.bind_eq_some_iff.1 h
          obtain ⟨t, ht, h⟩ := Option.bind_eq_some_iff.1 h
          cases h
          exact hcons (hscalar hc) (ih _ _ _ _ ht)
        · exact ih _ _ _ _ h
      · cases h

/-! ## Strings -/

/-- What the decoder has read of a string: surrogates only where they were escaped, and no
pair of them. -/
structure Scanned (l : List (CodePoint × Bool)) : Prop where
  escaped : ∀ c, (c, false) ∈ l → isSurrogate c = false
  joined : Joined (l.map Prod.fst)

theorem scanned_nil : Scanned [] := ⟨(fun c h => by cases h), List.IsChain.nil⟩

theorem isSurrogate_high {c : CodePoint} (h : isHigh c) : isSurrogate c = true := by
  unfold isHigh at h
  unfold isSurrogate
  simp only [Bool.and_eq_true, decide_eq_true_eq]
  omega

theorem isSurrogate_low {c : CodePoint} (h : isLow c) : isSurrogate c = true := by
  unfold isLow at h
  unfold isSurrogate
  simp only [Bool.and_eq_true, decide_eq_true_eq]
  omega

/-- A code point in front that makes no pair with the first. -/
theorem Scanned.cons {c : CodePoint} {b : Bool} {l : List (CodePoint × Bool)} (h : Scanned l)
    (hc : b = false → isSurrogate c = false)
    (hpair : ∀ d b' l', l = (d, b') :: l' → ¬ (isHigh c ∧ isLow d)) : Scanned ((c, b) :: l) := by
  refine ⟨fun d hd => ?_, ?_⟩
  · rcases List.mem_cons.1 hd with he | hd
    · cases he; exact hc rfl
    · exact h.escaped d hd
  · cases l with
    | nil => exact List.IsChain.singleton _
    | cons m l =>
      obtain ⟨d, b'⟩ := m
      exact List.isChain_cons_cons.2 ⟨hpair d b' l rfl, h.joined⟩

theorem Scanned.plain {c : CodePoint} {l : List (CodePoint × Bool)} (h : Scanned l)
    (hc : isSurrogate c = false) : Scanned ((c, false) :: l) := by
  refine h.cons (fun _ => hc) fun d b' l' _ hp => ?_
  have := isSurrogate_high hp.1
  rw [hc] at this; cases this

theorem Scanned.join {c : CodePoint} {l : List (CodePoint × Bool)} (h : Scanned l) :
    Scanned (joinSurrogates c l) := by
  unfold joinSurrogates
  split
  · rename_i d l'
    split
    · -- a pair: its code point is beyond the surrogates
      have hl : Scanned l' := ⟨fun e he => h.escaped e (List.mem_cons_of_mem _ he), h.joined.of_cons⟩
      refine hl.plain ?_
      unfold isSurrogate
      simp only [Bool.and_eq_false_iff, decide_eq_false_iff_not]
      omega
    · rename_i hn
      refine h.cons (fun hb => by cases hb) ?_
      rintro e b' l'' he
      cases he
      exact hn
  · rename_i hl
    refine h.cons (fun hb => by cases hb) ?_
    rintro e b' l' rfl ⟨-, hlow⟩
    cases b' with
    | true => exact hl e l' rfl
    | false =>
      have h1 := h.escaped e List.mem_cons_self
      rw [isSurrogate_low hlow] at h1; cases h1

theorem escapeChar_scalar {e c : CodePoint} (h : escapeChar? e = some c) : isSurrogate c = false := by
  unfold escapeChar? at h
  iterate 8
    split at h
    · cases h; rfl
  cases h

/-- What follows a string stands at the end of the text. -/
theorem scanString_suffix {s : Text} : ∀ {l : List (CodePoint × Bool)} {rest : Text},
    scanString s = some (l, rest) → rest <:+ s := by
  fun_induction scanString s with
  | case1 => intro t rest h; cases h
  | case2 s => intro t rest h; cases h; exact List.suffix_cons _ _
  | case3 => intro t rest h; cases h
  | case4 h1 h2 h3 h4 s _ ih =>
    intro t rest h
    obtain ⟨u, -, h⟩ := Option.bind_eq_some_iff.1 h
    obtain ⟨⟨t', rest'⟩, hs, h⟩ := Option.bind_eq_some_iff.1 h
    cases h
    have hdrop : s <:+ ofChar '\\' :: ofChar 'u' :: h1 :: h2 :: h3 :: h4 :: s :=
      ⟨[ofChar '\\', ofChar 'u', h1, h2, h3, h4], rfl⟩
    exact (ih hs).trans hdrop
  | case5 => intro t rest h; cases h
  | case6 e s _ _ ih =>
    intro t rest h
    obtain ⟨u, -, h⟩ := Option.bind_eq_some_iff.1 h
    obtain ⟨⟨t', rest'⟩, hs, h⟩ := Option.bind_eq_some_iff.1 h
    cases h
    exact (ih hs).trans ⟨[ofChar '\\', e], rfl⟩
  | case7 => intro t rest h; cases h
  | case8 c s _ _ _ ih =>
    intro t rest h
    obtain ⟨⟨t', rest'⟩, hs, h⟩ := Option.bind_eq_some_iff.1 h
    cases h
    exact (ih hs).trans (List.suffix_cons _ _)

/-- **A decoded string is joined.** -/
theorem scanString_scanned {s : Text} : Scalar s → ∀ {l : List (CodePoint × Bool)} {rest : Text},
    scanString s = some (l, rest) → Scanned l := by
  fun_induction scanString s with
  | case1 => intro _ t rest h; cases h
  | case2 s => intro _ t rest h; cases h; exact scanned_nil
  | case3 => intro _ t rest h; cases h
  -- an escaped code unit is joined with what follows
  | case4 h1 h2 h3 h4 s _ ih =>
    intro hfree t rest h
    obtain ⟨u, -, h⟩ := Option.bind_eq_some_iff.1 h
    obtain ⟨⟨t', rest'⟩, hs, h⟩ := Option.bind_eq_some_iff.1 h
    cases h
    exact (ih hfree.tail.tail.tail.tail.tail.tail hs).join
  | case5 => intro _ t rest h; cases h
  | case6 e s _ _ ih =>
    intro hfree t rest h
    obtain ⟨u, hu, h⟩ := Option.bind_eq_some_iff.1 h
    obtain ⟨⟨t', rest'⟩, hs, h⟩ := Option.bind_eq_some_iff.1 h
    cases h
    exact (ih hfree.tail.tail hs).plain (escapeChar_scalar hu)
  | case7 => intro _ t rest h; cases h
  | case8 c s _ _ _ ih =>
    intro hfree t rest h
    obtain ⟨⟨t', rest'⟩, hs, h⟩ := Option.bind_eq_some_iff.1 h
    cases h
    exact (ih hfree.tail hs).plain (hfree c List.mem_cons_self)

/-! ## Values -/

variable {α β : Type}

/-- The reader makes values with `P` of a text without surrogates, and leaves such a text. -/
def Yields (P : α → Prop) : Except LoadsError (α × Text) → Prop
  | .error _ => True
  | .ok (v, rest) => P v ∧ Scalar rest

theorem Yields.bind {P : α → Prop} {Q : β → Prop} {r : Except LoadsError (α × Text)}
    {f : α × Text → Except LoadsError (β × Text)} (h : Yields P r)
    (hf : ∀ v rest, P v → Scalar rest → Yields Q (f (v, rest))) : Yields Q (r >>= f) := by
  cases r with
  | error e => exact trivial
  | ok p => exact hf p.1 p.2 h.1 h.2

theorem Scalar.skip {s : Text} (h : Scalar s) : Scalar (skipWhitespace s) :=
  h.suffix (List.dropWhile_suffix _)

theorem Scalar.of_skip {s t : Text} {c : CodePoint} (h : Scalar s)
    (hs : skipWhitespace s = c :: t) : Scalar t := by
  have := h.skip
  rw [hs] at this
  exact this.tail

theorem scanKey_yields {s : Text} (h : Scalar s) : Yields Joined (scanKey s) := by
  unfold scanKey
  split
  · exact trivial
  split
  swap
  · exact trivial
  split
  · exact trivial
  rename_i key t hk
  have hjoined := (scanString_scanned h.tail hk).joined
  have ht := h.tail.suffix (scanString_suffix hk)
  split
  · exact trivial
  rename_i c u hu
  split
  · exact ⟨hjoined, (ht.of_skip hu).skip⟩
  · exact trivial

variable {value : Text → Except LoadsError (Json F × Text)}

theorem scanItems_yields (h : ∀ s, Scalar s → Yields Json.Decoded (value s)) :
    ∀ k s, Scalar s → Yields ItemsDecoded (scanItems value k s) := by
  intro k
  induction k with
  | zero => intro s _; exact trivial
  | succ k ih =>
    intro s hs
    unfold scanItems
    refine (h s hs).bind fun v rest hv hrest => ?_
    dsimp only
    split
    · exact trivial
    rename_i c t ht
    have htail := hrest.of_skip ht
    split
    · exact ⟨⟨hv, trivial⟩, htail⟩
    split
    · refine (ih _ htail.skip).bind fun vs rest' hvs hrest' => ⟨?_, hrest'⟩
      exact ⟨hv, hvs⟩
    · exact trivial

/-- Members read so far. -/
def MembersRead (members : List (Text × Json F)) : Prop := (Json.dict members).Decoded

theorem membersDecoded_iff {members : List (Text × Json F)} :
    MembersDecoded members ↔ ∀ m ∈ members, Joined m.1 ∧ m.2.Decoded := by
  induction members with
  | nil => rw [MembersDecoded]; simp
  | cons m ms ih => rw [MembersDecoded, ih]; simp [and_assoc]

theorem itemsDecoded_iff {items : List (Json F)} : ItemsDecoded items ↔ ∀ v ∈ items, v.Decoded := by
  induction items with
  | nil => rw [ItemsDecoded]; simp
  | cons v vs ih => rw [ItemsDecoded, ih]; simp

/-- **A repeated key overwrites**, so the keys stay distinct. -/
theorem MembersRead.set {members : List (Text × Json F)} (h : MembersRead members) {key : Text}
    (hkey : Joined key) {v : Json F} (hv : v.Decoded) : MembersRead (dictSet members key v) := by
  unfold MembersRead at h ⊢
  rw [Json.Decoded, membersDecoded_iff] at h ⊢
  obtain ⟨hnodup, hall⟩ := h
  unfold dictSet
  split
  · have hkeys : (members.map fun m => if m.1 = key then (key, v) else m).map Prod.fst =
        members.map Prod.fst := by
      rw [List.map_map]
      refine List.map_congr_left fun m _ => ?_
      simp only [Function.comp]
      split
      · rename_i hm; exact hm.symm
      · rfl
    refine ⟨by rw [hkeys]; exact hnodup, fun m hm => ?_⟩
    obtain ⟨m', hm', he⟩ := List.mem_map.1 hm
    split at he
    · rw [← he]; exact ⟨hkey, hv⟩
    · rw [← he]; exact hall m' hm'
  · rename_i hnew
    refine ⟨?_, fun m hm => ?_⟩
    · rw [List.map_append, List.map_singleton]
      refine List.nodup_append.2 ⟨hnodup, List.nodup_singleton _, fun a ha b hb => ?_⟩
      rw [List.mem_singleton.1 hb]
      rintro rfl
      exact hnew ha
    · rcases List.mem_append.1 hm with hm | hm
      · exact hall m hm
      · rw [List.mem_singleton.1 hm]; exact ⟨hkey, hv⟩

theorem scanMembers_yields (h : ∀ s, Scalar s → Yields Json.Decoded (value s)) :
    ∀ k members s, MembersRead members → Scalar s → Yields MembersRead (scanMembers value k members s) := by
  intro k
  induction k with
  | zero => intro members s _ _; exact trivial
  | succ k ih =>
    intro members s hm hs
    unfold scanMembers
    refine (scanKey_yields hs).bind fun key rest hkey hrest => ?_
    refine (h rest hrest).bind fun v rest' hv hrest' => ?_
    have hset := hm.set hkey hv
    dsimp only
    split
    · exact trivial
    rename_i c t ht
    have htail := hrest'.of_skip ht
    split
    · exact ⟨hset, htail⟩
    split
    · exact ih _ _ hset htail.skip
    · exact trivial

theorem scanArray_yields (h : ∀ s, Scalar s → Yields Json.Decoded (value s)) {s : Text}
    (hs : Scalar s) : Yields Json.Decoded (scanArray value s) := by
  unfold scanArray
  split
  · exact trivial
  rename_i c rest hr
  have hall := hs.skip
  rw [hr] at hall
  split
  · refine ⟨?_, hall.tail⟩
    rw [Json.Decoded, ItemsDecoded]; exact trivial
  · refine (scanItems_yields h _ _ hall).bind fun vs rest' hvs hrest => ⟨?_, hrest⟩
    rw [Json.Decoded]; exact hvs

theorem scanObject_yields (h : ∀ s, Scalar s → Yields Json.Decoded (value s)) {s : Text}
    (hs : Scalar s) : Yields Json.Decoded (scanObject value s) := by
  have hempty : MembersRead ([] : List (Text × Json F)) := by
    unfold MembersRead
    rw [Json.Decoded, MembersDecoded]
    exact ⟨List.nodup_nil, trivial⟩
  unfold scanObject
  split
  · exact trivial
  rename_i c rest hr
  have hall := hs.skip
  rw [hr] at hall
  split
  · exact ⟨hempty, hall.tail⟩
  · exact (scanMembers_yields h _ _ _ hempty hall).bind fun ms rest' hms hrest => ⟨hms, hrest⟩

/-! ## Numbers -/

theorem natOfDigits_lt {ds : Text} (h : ∀ d ∈ ds, isDigit d = true) :
    natOfDigits ds < 10 ^ ds.length := by
  have hfold : ∀ (ds : Text) (n k : ℕ), (∀ d ∈ ds, isDigit d = true) → n < 10 ^ k →
      ds.foldl (fun n d => 10 * n + (d.val - 48)) n < 10 ^ (k + ds.length) := by
    intro ds
    induction ds with
    | nil => intro n k _ hn; exact hn
    | cons d ds ih =>
      intro n k hds hn
      have hd := hds d List.mem_cons_self
      simp only [isDigit, Bool.and_eq_true, decide_eq_true_eq] at hd
      have hstep : 10 * n + (d.val - 48) < 10 ^ (k + 1) := by
        rw [Nat.pow_succ]; omega
      have := ih _ (k + 1) (fun d' hd' => hds d' (List.mem_cons_of_mem _ hd')) hstep
      rw [List.length_cons, Nat.add_comm ds.length 1, ← Nat.add_assoc]
      exact this
  have := hfold ds 0 0 h (by simp)
  rw [Nat.zero_add] at this
  exact this

/-- An integer of at most as many digits as the decoder reads can be written. -/
theorem intWritable_of_digits {ds : Text} (hd : ∀ d ∈ ds, isDigit d = true)
    (hlen : ds.length ≤ intMaxStrDigits) {n : ℤ} (hn : n.natAbs = natOfDigits ds) :
    intWritable n = true := by
  have hlt : natOfDigits ds < 10 ^ intMaxStrDigits :=
    lt_of_lt_of_le (natOfDigits_lt hd) (Nat.pow_le_pow_right (by omega) hlen)
  unfold intWritable
  rw [decide_eq_true_eq, hn, Nat.length_toDigits_le_iff (by omega) (by decide)]
  exact hlt

theorem scanPart_suffix (markers signs : List Char) (s : Text) : (scanPart markers signs s).2 <:+ s := by
  have hsign : ∀ t, (scanSign signs t).2 <:+ t := by
    intro t
    unfold scanSign
    split
    · split
      · exact List.suffix_cons _ _
      · exact List.suffix_refl _
    · exact List.suffix_refl _
  unfold scanPart
  split
  swap
  · exact List.suffix_refl _
  rename_i c rest
  split
  swap
  · exact List.suffix_refl _
  dsimp only
  split
  · exact List.suffix_refl _
  · exact (List.dropWhile_suffix _).trans ((hsign rest).trans (List.suffix_cons _ _))

theorem scanNumber_yields [Runtime F] {s : Text} (hs : Scalar s) :
    Yields Json.Decoded (scanNumber s : Except LoadsError (Json F × Text)) := by
  have hsign : (scanSign ['-'] s).2 <:+ s := by
    unfold scanSign
    split
    · split
      · exact List.suffix_cons _ _
      · exact List.suffix_refl _
    · exact List.suffix_refl _
  unfold scanNumber
  generalize scanSign ['-'] s = p at hsign ⊢
  obtain ⟨sign, s'⟩ := p
  dsimp only at hsign ⊢
  generalize hint : (if s'.head? = some (ofChar '0') then s'.take 1 else s'.takeWhile isDigit) =
    integer
  have hdigits : ∀ d ∈ integer, isDigit d = true := by
    rw [← hint]
    split
    · rename_i h0
      intro d hd
      cases s' with
      | nil => cases hd
      | cons c t =>
        rw [List.head?_cons, Option.some.injEq] at h0
        rw [List.take_succ_cons, List.take_zero, List.mem_singleton] at hd
        rw [hd, h0]; rfl
    · intro d hd
      exact List.mem_takeWhile_imp hd
  have hrest : Scalar (scanPart ['e', 'E'] ['-', '+']
      (scanPart ['.'] [] (s'.drop integer.length)).2).2 :=
    hs.suffix ((scanPart_suffix _ _ _).trans ((scanPart_suffix _ _ _).trans
      ((List.drop_suffix _ _).trans hsign)))
  split
  · exact trivial
  split
  · split
    · exact trivial
    · rename_i hlen
      refine ⟨?_, hrest⟩
      rw [Json.Decoded]
      refine intWritable_of_digits hdigits (by omega) ?_
      split
      · rfl
      · exact Int.natAbs_neg _
  · exact ⟨trivial, hrest⟩

variable [Runtime F]

theorem scanOnce_yields : ∀ n (s : Text), Scalar s →
    Yields Json.Decoded (scanOnce n s : Except LoadsError (Json F × Text)) := by
  intro n
  induction n with
  | zero => intro s _; exact trivial
  | succ n ih =>
    intro s hs
    unfold scanOnce
    split
    · exact trivial
    rename_i c rest
    split
    · split
      · exact trivial
      · rename_i t rest' ht
        refine ⟨?_, hs.tail.suffix (scanString_suffix ht)⟩
        rw [Json.Decoded]; exact (scanString_scanned hs.tail ht).joined
    split
    · exact scanObject_yields ih hs.tail
    split
    · exact scanArray_yields ih hs.tail
    split
    · rename_i word v hw
      refine ⟨?_, hs.suffix (List.drop_suffix _ _)⟩
      have hmem := List.mem_of_find?_eq_some hw
      simp only [constants, List.mem_cons, List.not_mem_nil, or_false, Prod.mk.injEq] at hmem
      rcases hmem with h | h | h | h | h | h <;> rw [h.2] <;> trivial
    · exact scanNumber_yields hs

/-- **The values that come out of a decoder** can be written and read back. -/
theorem decoded_of_loads {bs : List UInt8} {s : Text} {v : Json F} (hs : decodeUtf8 bs = some s)
    (h : loads s = .ok v) : v.Decoded := by
  have hscalar : Scalar s := decodeFrom_scalar _ _ _ _ _ hs
  unfold loads at h
  split at h
  · cases h
  have hyields := scanOnce_yields (F := F) (s.length + 1) (skipWhitespace s) hscalar.skip
  cases hv : (scanOnce (s.length + 1) (skipWhitespace s) : Except LoadsError (Json F × Text)) with
  | error e => rw [hv] at h; cases h
  | ok p =>
    rw [hv] at h hyields
    have h : (if skipWhitespace p.2 = [] then .ok p.1 else .error .jsonDecodeError :
      Except LoadsError (Json F)) = .ok v := h
    split at h
    · cases h; exact hyields.1
    · cases h

end Python
