import CopyTrade.Proof.Sanitizing

/-!
# Sanitizing, path by path

A path leads from a value through members and items to a value inside of it.

* `PathSpec`: what stands at every path of a sanitized value, in terms of the value.
* `valueAt_passed`: along a path without a sensitive key, within the limits, the sanitizer
  works on what the path leads to.
* `sanitize_paths`: sanitizing meets its specification.
-/

namespace CopyTrade

open Python (Text Json)

variable {F : Type}

inductive Step where
  | member (key : Text)
  | item (i : ℕ)
  deriving DecidableEq

/-- What a path leads to. -/
def valueAt : Json F → List Step → Option (Json F)
  | v, [] => some v
  | .dict members, .member key :: p =>
    ((members.find? fun m => m.1 = key).map Prod.snd).bind fun x => valueAt x p
  | .list items, .item i :: p => items[i]?.bind fun x => valueAt x p
  | _, _ :: _ => none

/-- A step that the sanitizer follows. -/
def Step.Followed : Step → Prop
  | .member key => isSensitivePayloadKey key = false
  | .item i => i < maxDeadLetterListItems

/-- A path without a sensitive key, within the width. -/
def Passed (p : List Step) : Prop := ∀ s ∈ p, s.Followed

/-! ## One step -/

theorem sanitizeItems_eq_map (depth : ℕ) (items : List (Json F)) :
    sanitizeItems depth items = items.map (sanitizeDeadLetterPayload depth) := by
  induction items with
  | nil => rw [sanitizeItems, List.map_nil]
  | cons v vs ih => rw [sanitizeItems, ih, List.map_cons]

theorem find_sanitizeMembers (depth : ℕ) (key : Text) (members : List (Text × Json F)) :
    ((sanitizeMembers depth members).find? fun m => m.1 = key).map Prod.snd =
      ((members.find? fun m => m.1 = key).map Prod.snd).map fun x =>
        if isSensitivePayloadKey key then redactedValue else sanitizeDeadLetterPayload depth x := by
  induction members with
  | nil => rw [sanitizeMembers]; rfl
  | cons m ms ih =>
    obtain ⟨k, v⟩ := m
    rw [sanitizeMembers]
    by_cases hk : k = key
    · simp [hk]
    · simp only [List.find?_cons, hk, decide_false]
      exact ih

variable {depth : ℕ}

/-- **A member**: redacted under a sensitive key, else sanitized one level deeper. -/
theorem valueAt_member (h : depth < maxDeadLetterPayloadDepth) (members : List (Text × Json F))
    (key : Text) (p : List Step) :
    valueAt (sanitizeDeadLetterPayload depth (.dict members)) (.member key :: p) =
      ((members.find? fun m => m.1 = key).map Prod.snd).bind fun x =>
        valueAt (if isSensitivePayloadKey key then redactedValue
          else sanitizeDeadLetterPayload (depth + 1) x) p := by
  rw [sanitizeDeadLetterPayload, if_neg (by omega), valueAt, find_sanitizeMembers, Option.bind_map]
  rfl

/-- **An item**: one of the first is sanitized one level deeper, the next is the mark. -/
theorem valueAt_item (h : depth < maxDeadLetterPayloadDepth) (items : List (Json F)) (i : ℕ)
    (p : List Step) :
    valueAt (sanitizeDeadLetterPayload depth (.list items)) (.item i :: p) =
      if i < maxDeadLetterListItems then
        items[i]?.bind fun x => valueAt (sanitizeDeadLetterPayload (depth + 1) x) p
      else if i = maxDeadLetterListItems ∧ maxDeadLetterListItems < items.length then
        valueAt truncatedValue p
      else none := by
  rw [sanitize_list (by omega), valueAt, keptItems, length_sanitizeItems, sanitizeItems_eq_map]
  by_cases hi : i < maxDeadLetterListItems
  · rw [if_pos hi]
    rcases Nat.lt_or_ge i items.length with hlt | hge
    · rw [List.getElem?_append_left (by simp; omega), List.getElem?_take_of_lt hi,
        List.getElem?_map, Option.bind_map]
      rfl
    · have hnone : items[i]? = none := List.getElem?_eq_none hge
      rw [if_neg (by omega), List.append_nil, List.getElem?_take_of_lt hi, List.getElem?_map, hnone]
      rfl
  · rw [if_neg hi]
    split
    · rename_i hmore
      have hlength : ((items.map (sanitizeDeadLetterPayload (depth + 1))).take
          maxDeadLetterListItems).length = maxDeadLetterListItems := by simp; omega
      rw [List.getElem?_append_right (by omega), hlength]
      by_cases heq : i = maxDeadLetterListItems
      · simp [heq, hmore]
      · have hpos : i - maxDeadLetterListItems ≠ 0 := by omega
        simp [heq, hpos]
    · rename_i hmore
      rw [List.append_nil, List.getElem?_eq_none (by simp; omega), if_neg (by omega)]
      rfl

theorem valueAt_append (q r : List Step) : ∀ v : Json F,
    valueAt v (q ++ r) = (valueAt v q).bind fun x => valueAt x r := by
  induction q with
  | nil => intro v; rfl
  | cons s q ih =>
    intro v
    cases v <;> cases s <;> simp [valueAt, ih, Option.bind_assoc]

/-- A step that does not fit the value leads nowhere. -/
def Fits : Json F → Step → Prop
  | .dict _, .member _ => True
  | .list _, .item _ => True
  | _, _ => False

theorem valueAt_misfit {v : Json F} {s : Step} (h : ¬ Fits v s) (p : List Step) :
    valueAt v (s :: p) = none := by
  cases v <;> cases s <;> first | rfl | exact absurd trivial h

theorem misfit_redacted (s : Step) : ¬ Fits (redactedValue : Json F) s := by
  unfold redactedValue
  cases s <;> exact id

theorem misfit_truncated (s : Step) : ¬ Fits (truncatedValue : Json F) s := by
  unfold truncatedValue
  cases s <;> exact id

theorem misfit_leaf {v : Json F} (h : IsLeaf v) (s : Step) :
    ¬ Fits (sanitizeDeadLetterPayload depth v) s := by
  rw [sanitize_leaf h]
  split
  · exact misfit_truncated s
  · cases v <;> cases s <;> first | exact id | exact h.elim

/-- At the depth limit everything but `null` is cut off. -/
theorem sanitize_deep (h : maxDeadLetterPayloadDepth ≤ depth) {v : Json F} (hv : v ≠ .null) :
    sanitizeDeadLetterPayload depth v = truncatedValue := by
  cases v with
  | null => exact absurd rfl hv
  | dict members => rw [sanitizeDeadLetterPayload, if_pos h]
  | list items => rw [sanitizeDeadLetterPayload, if_pos h]
  | bool b => rw [sanitize_leaf (v := .bool b) trivial, if_pos h]
  | int n => rw [sanitize_leaf (v := .int n) trivial, if_pos h]
  | float x => rw [sanitize_leaf (v := .float x) trivial, if_pos h]
  | str t => rw [sanitize_leaf (v := .str t) trivial, if_pos h]

/-- At the depth limit nothing has parts. -/
theorem misfit_deep (h : maxDeadLetterPayloadDepth ≤ depth) (v : Json F) (s : Step) :
    ¬ Fits (sanitizeDeadLetterPayload depth v) s := by
  by_cases hv : v = .null
  · rw [hv, sanitizeDeadLetterPayload]
    cases s <;> exact id
  · rw [sanitize_deep h hv]
    exact misfit_truncated s

/-- Sanitizing makes no parts. -/
theorem misfit_sanitize {v : Json F} {s : Step} (h : ¬ Fits v s) :
    ¬ Fits (sanitizeDeadLetterPayload depth v) s := by
  by_cases hd : maxDeadLetterPayloadDepth ≤ depth
  · exact misfit_deep hd v s
  cases v with
  | null => rw [sanitizeDeadLetterPayload]; exact h
  | dict members =>
    rw [sanitizeDeadLetterPayload, if_neg hd]
    cases s with
    | member key => exact absurd trivial h
    | item i => exact id
  | list items =>
    rw [sanitize_list hd]
    cases s with
    | member key => exact id
    | item i => exact absurd trivial h
  | bool b => exact misfit_leaf (v := .bool b) trivial s
  | int n => exact misfit_leaf (v := .int n) trivial s
  | float x => exact misfit_leaf (v := .float x) trivial s
  | str t => exact misfit_leaf (v := .str t) trivial s

/-! ## Along a path -/

theorem passed_cons {s : Step} {p : List Step} (h : Passed (s :: p)) : s.Followed ∧ Passed p :=
  List.forall_mem_cons.1 h

/-- **Along a path that it follows** the sanitizer works on what the path leads to. -/
theorem valueAt_passed {q : List Step} (r : List Step) (hq : Passed q) :
    ∀ {depth : ℕ} (v : Json F), depth + q.length ≤ maxDeadLetterPayloadDepth →
      valueAt (sanitizeDeadLetterPayload depth v) (q ++ r) =
        (valueAt v q).bind fun x => valueAt (sanitizeDeadLetterPayload (depth + q.length) x) r := by
  induction q with
  | nil => intro depth v _; rfl
  | cons s q ih =>
    intro depth v hd
    obtain ⟨hs, hq⟩ := passed_cons hq
    rw [List.length_cons] at hd
    have hlt : depth < maxDeadLetterPayloadDepth := by omega
    have hnext : ∀ x : Json F, valueAt (sanitizeDeadLetterPayload (depth + 1) x) (q ++ r) =
        (valueAt x q).bind fun x =>
          valueAt (sanitizeDeadLetterPayload (depth + (s :: q).length) x) r := by
      intro x
      rw [ih hq x (by omega), List.length_cons, Nat.add_right_comm, Nat.add_assoc]
    by_cases hfit : Fits v s
    · cases v with
      | dict members =>
        cases s with
        | member key =>
          have hkey : isSensitivePayloadKey key = false := hs
          rw [List.cons_append, valueAt_member hlt, valueAt, Option.bind_assoc]
          simp only [hkey, Bool.false_eq_true, if_false, hnext]
        | item i => exact hfit.elim
      | list items =>
        cases s with
        | member key => exact hfit.elim
        | item i =>
          have hi : i < maxDeadLetterListItems := hs
          rw [List.cons_append, valueAt_item hlt, if_pos hi, valueAt, Option.bind_assoc]
          simp only [hnext]
      | null => exact hfit.elim
      | bool b => exact hfit.elim
      | int n => exact hfit.elim
      | float x => exact hfit.elim
      | str t => exact hfit.elim
    · rw [List.cons_append, valueAt_misfit (misfit_sanitize hfit), valueAt_misfit hfit]
      rfl

/-- Nothing sensitive stands on the path before its last step. -/
def OpenTo (p : List Step) : Prop :=
  ∀ q key r, p = q ++ .member key :: r → isSensitivePayloadKey key = true → r = []

theorem openTo_singleton (s : Step) : OpenTo [s] := by
  intro q key r h _
  cases q with
  | nil => exact (List.cons.inj h).2.symm
  | cons t q => simp at h

theorem openTo_cons {s : Step} {p : List Step} (hs : ∀ key, s = .member key →
    isSensitivePayloadKey key = false) (hp : OpenTo p) : OpenTo (s :: p) := by
  intro q key r h hkey
  cases q with
  | nil =>
    obtain ⟨rfl, -⟩ := List.cons.inj h
    rw [hs key rfl] at hkey
    cases hkey
  | cons t q => exact hp q key r (List.cons.inj h).2 hkey

/-- **What stands in a sanitized value** stands in the value, not too deep, and not below a
sensitive key. -/
theorem valueAt_some {y : Json F} {p : List Step} : ∀ {depth : ℕ} {v : Json F},
    valueAt (sanitizeDeadLetterPayload depth v) p = some y →
      (∃ x, valueAt v p = some x) ∧ (p ≠ [] → depth + p.length ≤ maxDeadLetterPayloadDepth) ∧
        OpenTo p := by
  induction p with
  | nil =>
    intro depth v _
    refine ⟨⟨v, by rw [valueAt]⟩, fun h => absurd rfl h, fun q key r h => ?_⟩
    simp at h
  | cons s p ih =>
    intro depth v h
    have hfit : Fits v s := by
      by_contra hno
      rw [valueAt_misfit (misfit_sanitize hno)] at h
      cases h
    have hlt : depth < maxDeadLetterPayloadDepth := by
      by_contra hge
      rw [valueAt_misfit (misfit_deep (by omega) v s)] at h
      cases h
    -- below a mark there is nothing
    have mark : ∀ {m : Json F}, (∀ s, ¬ Fits m s) → valueAt m p = some y → p = [] := by
      intro m hm hy
      cases p with
      | nil => rfl
      | cons t p => rw [valueAt_misfit (hm t)] at hy; cases hy
    have onlyStep : p = [] → (s :: p ≠ [] → depth + (s :: p).length ≤ maxDeadLetterPayloadDepth) ∧
        OpenTo (s :: p) := by
      rintro rfl
      exact ⟨fun _ => by rw [List.length_singleton]; omega, openTo_singleton s⟩
    have further : ∀ {x : Json F}, (∀ key, s = .member key → isSensitivePayloadKey key = false) →
        valueAt (sanitizeDeadLetterPayload (depth + 1) x) p = some y →
        (∃ z, valueAt x p = some z) ∧
          (s :: p ≠ [] → depth + (s :: p).length ≤ maxDeadLetterPayloadDepth) ∧ OpenTo (s :: p) := by
      intro x hs hx
      obtain ⟨hz, hlength, hopen⟩ := ih hx
      refine ⟨hz, fun _ => ?_, openTo_cons hs hopen⟩
      rw [List.length_cons]
      cases p with
      | nil => rw [List.length_nil]; omega
      | cons t p =>
        have := hlength (List.cons_ne_nil t p)
        omega
    cases v with
    | dict members =>
      cases s with
      | item i => exact hfit.elim
      | member key =>
        rw [valueAt_member hlt] at h
        obtain ⟨x, hx, h⟩ := Option.bind_eq_some_iff.1 h
        rw [valueAt, hx, Option.bind_some]
        by_cases hkey : isSensitivePayloadKey key = true
        · rw [if_pos hkey] at h
          have hp : p = [] := mark misfit_redacted h
          refine ⟨⟨x, by rw [hp, valueAt]⟩, onlyStep hp⟩
        · rw [if_neg hkey] at h
          refine further (fun k hk => ?_) h
          cases hk
          simpa using hkey
    | list items =>
      cases s with
      | member key => exact hfit.elim
      | item i =>
        rw [valueAt_item hlt] at h
        split at h
        · obtain ⟨x, hx, h⟩ := Option.bind_eq_some_iff.1 h
          rw [valueAt, hx, Option.bind_some]
          exact further (fun k hk => by cases hk) h
        · split at h
          · rename_i hmark
            have hp : p = [] := mark misfit_truncated h
            have hi : i < items.length := by omega
            refine ⟨⟨items[i], ?_⟩, onlyStep hp⟩
            rw [hp, valueAt, List.getElem?_eq_getElem hi, Option.bind_some, valueAt]
          · cases h
    | null => exact hfit.elim
    | bool b => exact hfit.elim
    | int n => exact hfit.elim
    | float x => exact hfit.elim
    | str t => exact hfit.elim

/-! ## The specification -/

/-- **What a sanitized value contains**, path by path. -/
structure PathSpec (v out : Json F) : Prop where
  /-- A path that ends in its first sensitive key. -/
  redacted : ∀ q key, Passed q → q.length < maxDeadLetterPayloadDepth →
    isSensitivePayloadKey key = true → (∃ x, valueAt v (q ++ [.member key]) = some x) →
    valueAt out (q ++ [.member key]) = some redactedValue
  /-- Nothing below a sensitive key. -/
  below_key : ∀ q key s r, isSensitivePayloadKey key = true →
    valueAt out (q ++ .member key :: s :: r) = none
  /-- A value at the depth limit. -/
  limit : ∀ p x, Passed p → p.length = maxDeadLetterPayloadDepth → valueAt v p = some x →
    (x = .null → valueAt out p = some .null) ∧ (x ≠ .null → valueAt out p = some truncatedValue)
  /-- Nothing below the depth limit. -/
  below_limit : ∀ p, maxDeadLetterPayloadDepth < p.length → valueAt out p = none
  /-- The first items of a list, sanitized in order, and one mark where there are more. -/
  list : ∀ p items, Passed p → p.length < maxDeadLetterPayloadDepth →
    valueAt v p = some (.list items) → valueAt out p = some (.list
      ((items.take maxDeadLetterListItems).map (sanitizeDeadLetterPayload (p.length + 1)) ++
        if maxDeadLetterListItems < items.length then [truncatedValue] else []))
  /-- An object with the same keys. -/
  object : ∀ p members, Passed p → p.length < maxDeadLetterPayloadDepth →
    valueAt v p = some (.dict members) → ∃ members', valueAt out p = some (.dict members') ∧
      members'.map Prod.fst = members.map Prod.fst
  /-- The same scalar. -/
  scalar : ∀ p x, Passed p → p.length < maxDeadLetterPayloadDepth → valueAt v p = some x →
    (IsLeaf x ∨ x = .null) → valueAt out p = some x
  /-- Nothing where there was nothing. -/
  nothing : ∀ p, valueAt v p = none → valueAt out p = none

/-- What stands at a path that the sanitizer follows to its end. -/
theorem valueAt_end {p : List Step} {v x : Json F} (hp : Passed p)
    (hd : p.length ≤ maxDeadLetterPayloadDepth) (hx : valueAt v p = some x) :
    valueAt (sanitizeDeadLetterPayload 0 v) p = some (sanitizeDeadLetterPayload p.length x) := by
  have h : valueAt (sanitizeDeadLetterPayload 0 v) (p ++ []) = (valueAt v p).bind fun x =>
      valueAt (sanitizeDeadLetterPayload (0 + p.length) x) [] := valueAt_passed [] hp v (by omega)
  rw [List.append_nil, hx, Option.bind_some, Nat.zero_add] at h
  rw [h, valueAt]

/-- **Sanitizing meets its specification**, for every value. -/
theorem sanitize_paths (v : Json F) : PathSpec v (sanitizeDeadLetterPayload 0 v) := by
  have absent : ∀ {p : List Step}, (∀ y, valueAt (sanitizeDeadLetterPayload 0 v) p ≠ some y) →
      valueAt (sanitizeDeadLetterPayload 0 v) p = none := fun h =>
    Option.eq_none_iff_forall_ne_some.2 h
  constructor
  · rintro q key hq hlength hkey ⟨x, hx⟩
    rw [valueAt_append] at hx
    obtain ⟨z, hz, hx⟩ := Option.bind_eq_some_iff.1 hx
    rw [valueAt_passed [.member key] hq v (by omega), hz, Option.bind_some, Nat.zero_add]
    have hfit : Fits z (.member key) := by
      by_contra hno
      rw [valueAt_misfit hno] at hx
      cases hx
    cases z with
    | dict members =>
      rw [valueAt] at hx
      obtain ⟨w, hw, -⟩ := Option.bind_eq_some_iff.1 hx
      rw [valueAt_member hlength, hw, Option.bind_some, if_pos hkey, valueAt]
    | list items => exact hfit.elim
    | null => exact hfit.elim
    | bool b => exact hfit.elim
    | int n => exact hfit.elim
    | float x => exact hfit.elim
    | str t => exact hfit.elim
  · -- a value stands at a path only where no key above its end is sensitive
    intro q key s r hkey
    refine absent fun y hy => ?_
    obtain ⟨-, -, hopen⟩ := valueAt_some hy
    exact List.cons_ne_nil s r (hopen q key (s :: r) rfl hkey)
  · intro p x hp hlength hx
    rw [valueAt_end hp (by omega) hx, hlength]
    constructor
    · rintro rfl
      rw [sanitizeDeadLetterPayload]
    · intro hnull
      rw [sanitize_deep (Nat.le_refl _) hnull]
  · intro p hlength
    refine absent fun y hy => ?_
    obtain ⟨-, hlen, -⟩ := valueAt_some hy
    have hne : p ≠ [] := by
      rintro rfl
      simp at hlength
    have := hlen hne
    omega
  · intro p items hp hlength hx
    rw [valueAt_end hp (by omega) hx, sanitize_list (by omega), keptItems, length_sanitizeItems,
      sanitizeItems_eq_map, List.map_take]
  · intro p members hp hlength hx
    rw [valueAt_end hp (by omega) hx, sanitizeDeadLetterPayload, if_neg (by omega)]
    exact ⟨_, rfl, keys_sanitizeMembers _ members⟩
  · intro p x hp hlength hx hscalar
    rw [valueAt_end hp (by omega) hx]
    rcases hscalar with hleaf | rfl
    · rw [sanitize_leaf hleaf, if_neg (by omega)]
    · rw [sanitizeDeadLetterPayload]
  · intro p hnone
    refine absent fun y hy => ?_
    obtain ⟨⟨x, hx⟩, -⟩ := valueAt_some hy
    rw [hnone] at hx
    cases hx

end CopyTrade
