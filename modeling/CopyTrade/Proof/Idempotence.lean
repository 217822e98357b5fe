import CopyTrade.Spec.DeadLetter

/-!
# Sanitizing twice

`sanitize_dead_letter_payload` takes any Python value, tuples included, and starts at any
depth. The bus, the recorder and the API each apply it.

* `sanitizeValue`: the function on Python values; on JSON values it is the one that the bus
  applies (`sanitizeValue_ofJson`).
* `sanitizeValue_idempotent`: sanitizing twice is sanitizing once.
-/

namespace CopyTrade

open Python (Text text Json)

variable {F : Type}

/-- A Python value made of `None`, scalars, lists, tuples and mappings with string keys. -/
inductive Value (F : Type) where
  | none
  | bool (b : Bool)
  | int (n : ℤ)
  | float (x : F)
  | str (s : Text)
  | list (items : List (Value F))
  | tuple (items : List (Value F))
  | mapping (members : List (Text × Value F))

namespace Value

def redacted : Value F := .str (text "[redacted]")
def truncated : Value F := .str (text "[truncated]")

end Value

mutual

/-- `sanitize_dead_letter_payload` -/
def sanitizeValue (depth : ℤ) : Value F → Value F
  | .none => .none
  | .mapping members =>
    if depth ≥ maxDeadLetterPayloadDepth then .truncated
    else .mapping (sanitizeValueMembers (depth + 1) members)
  | .list items =>
    if depth ≥ maxDeadLetterPayloadDepth then .truncated
    else
      .list ((sanitizeValueItems (depth + 1) items).take maxDeadLetterListItems ++
        if items.length > maxDeadLetterListItems then [.truncated] else [])
  | .tuple items =>
    if depth ≥ maxDeadLetterPayloadDepth then .truncated
    else
      .list ((sanitizeValueItems (depth + 1) items).take maxDeadLetterListItems ++
        if items.length > maxDeadLetterListItems then [.truncated] else [])
  | value => if depth ≥ maxDeadLetterPayloadDepth then .truncated else value

def sanitizeValueMembers (depth : ℤ) : List (Text × Value F) → List (Text × Value F)
  | [] => []
  | (key, value) :: members =>
    (key, if isSensitivePayloadKey key then .redacted else sanitizeValue depth value) ::
      sanitizeValueMembers depth members

def sanitizeValueItems (depth : ℤ) : List (Value F) → List (Value F)
  | [] => []
  | value :: items => sanitizeValue depth value :: sanitizeValueItems depth items

end

/-! ## The marks and the scalars -/

/-- Neither `None` nor a container. -/
def Value.IsScalar : Value F → Prop
  | .bool _ => True
  | .int _ => True
  | .float _ => True
  | .str _ => True
  | _ => False

theorem sanitizeValue_scalar {v : Value F} (h : v.IsScalar) (depth : ℤ) :
    sanitizeValue depth v = if depth ≥ maxDeadLetterPayloadDepth then .truncated else v := by
  cases v with
  | none => exact h.elim
  | list items => exact h.elim
  | tuple items => exact h.elim
  | mapping members => exact h.elim
  | bool b => simp [sanitizeValue]
  | int n => simp [sanitizeValue]
  | float x => simp [sanitizeValue]
  | str s => simp [sanitizeValue]

theorem sanitizeValue_truncated (depth : ℤ) :
    sanitizeValue depth (.truncated : Value F) = .truncated := by
  rw [sanitizeValue_scalar (v := .truncated) trivial]
  split <;> rfl

theorem sanitizeValue_scalar_twice {v : Value F} (h : v.IsScalar) (depth : ℤ) :
    sanitizeValue depth (sanitizeValue depth v) = sanitizeValue depth v := by
  rw [sanitizeValue_scalar h]
  split
  · exact sanitizeValue_truncated depth
  · rename_i hd
    rw [sanitizeValue_scalar h, if_neg hd]

/-! ## Lists -/

theorem sanitizeValueItems_eq_map (depth : ℤ) (items : List (Value F)) :
    sanitizeValueItems depth items = items.map (sanitizeValue depth) := by
  induction items with
  | nil => rw [sanitizeValueItems, List.map_nil]
  | cons v vs ih => rw [sanitizeValueItems, ih, List.map_cons]

/-- The items that a list keeps: the first ones, and a mark where there were more. -/
def keptValues (items : List (Value F)) : List (Value F) :=
  items.take maxDeadLetterListItems ++
    if items.length > maxDeadLetterListItems then [.truncated] else []

theorem sanitizeValue_list {depth : ℤ} (h : ¬ depth ≥ maxDeadLetterPayloadDepth)
    (items : List (Value F)) : sanitizeValue depth (.list items) =
      .list (keptValues (items.map (sanitizeValue (depth + 1)))) := by
  rw [sanitizeValue, if_neg h, keptValues, sanitizeValueItems_eq_map, List.length_map]

/-- A tuple is sanitized as a list. -/
theorem sanitizeValue_tuple (depth : ℤ) (items : List (Value F)) :
    sanitizeValue depth (.tuple items) = sanitizeValue depth (.list items) := by
  rw [sanitizeValue, sanitizeValue]

/-- **The mark at the end of a list is not cut off again.** -/
theorem keptValues_kept (items : List (Value F)) : keptValues (keptValues items) = keptValues items := by
  unfold keptValues
  by_cases h : items.length > maxDeadLetterListItems
  · have hlength : (items.take maxDeadLetterListItems).length = maxDeadLetterListItems := by
      rw [List.length_take]; omega
    rw [if_pos h, List.take_append_of_le_length (by omega), List.take_take, Nat.min_self,
      List.length_append, hlength, List.length_singleton, if_pos (by omega)]
  · rw [if_neg h, List.append_nil, List.take_take, Nat.min_self, List.length_take, if_neg (by omega),
      List.append_nil]

theorem map_keptValues (depth : ℤ) (items : List (Value F)) :
    (keptValues items).map (sanitizeValue depth) = keptValues (items.map (sanitizeValue depth)) := by
  unfold keptValues
  rw [List.map_append, List.map_take, List.length_map]
  split
  · rw [List.map_singleton, sanitizeValue_truncated]
  · rw [List.map_nil]

/-- A list whose items are not changed again is not changed again. -/
theorem sanitizeValue_list_twice (depth : ℤ) {items : List (Value F)}
    (h : (items.map (sanitizeValue (depth + 1))).map (sanitizeValue (depth + 1)) =
      items.map (sanitizeValue (depth + 1))) :
    sanitizeValue depth (sanitizeValue depth (.list items)) = sanitizeValue depth (.list items) := by
  by_cases hd : depth ≥ maxDeadLetterPayloadDepth
  · rw [sanitizeValue, if_pos hd]
    exact sanitizeValue_truncated depth
  · calc sanitizeValue depth (sanitizeValue depth (.list items))
        = .list (keptValues ((keptValues (items.map (sanitizeValue (depth + 1)))).map
            (sanitizeValue (depth + 1)))) := by rw [sanitizeValue_list hd, sanitizeValue_list hd]
      _ = .list (keptValues (items.map (sanitizeValue (depth + 1)))) := by
          rw [map_keptValues, h, keptValues_kept]
      _ = sanitizeValue depth (.list items) := (sanitizeValue_list hd items).symm

/-! ## Twice is once -/

mutual

/-- **Sanitizing is idempotent**, for every value and every starting depth. -/
theorem sanitizeValue_idempotent : ∀ (depth : ℤ) (v : Value F),
    sanitizeValue depth (sanitizeValue depth v) = sanitizeValue depth v
  | depth, .none => by rw [sanitizeValue, sanitizeValue]
  | depth, .mapping members => by
    by_cases hd : depth ≥ maxDeadLetterPayloadDepth
    · rw [sanitizeValue, if_pos hd]
      exact sanitizeValue_truncated depth
    · rw [sanitizeValue, if_neg hd, sanitizeValue, if_neg hd,
        sanitizeValueMembers_twice (depth + 1) members]
  | depth, .list items => sanitizeValue_list_twice depth (sanitizeValueItems_twice (depth + 1) items)
  | depth, .tuple items => by
    rw [sanitizeValue_tuple]
    exact sanitizeValue_list_twice depth (sanitizeValueItems_twice (depth + 1) items)
  | depth, .bool b => sanitizeValue_scalar_twice (v := .bool b) trivial depth
  | depth, .int n => sanitizeValue_scalar_twice (v := .int n) trivial depth
  | depth, .float x => sanitizeValue_scalar_twice (v := .float x) trivial depth
  | depth, .str s => sanitizeValue_scalar_twice (v := .str s) trivial depth

theorem sanitizeValueItems_twice : ∀ (depth : ℤ) (items : List (Value F)),
    (items.map (sanitizeValue depth)).map (sanitizeValue depth) = items.map (sanitizeValue depth)
  | _, [] => rfl
  | depth, v :: vs => by
    rw [List.map_cons, List.map_cons, sanitizeValue_idempotent depth v,
      sanitizeValueItems_twice depth vs]

theorem sanitizeValueMembers_twice : ∀ (depth : ℤ) (members : List (Text × Value F)),
    sanitizeValueMembers depth (sanitizeValueMembers depth members) =
      sanitizeValueMembers depth members
  | depth, [] => by rw [sanitizeValueMembers, sanitizeValueMembers]
  | depth, (key, v) :: ms => by
    rw [sanitizeValueMembers, sanitizeValueMembers, sanitizeValueMembers_twice depth ms]
    split
    · rfl
    · rw [sanitizeValue_idempotent depth v]

end

mutual

/-- A JSON value as a Python value. -/
def ofJson : Json F → Value F
  | .null => .none
  | .bool b => .bool b
  | .int n => .int n
  | .float x => .float x
  | .str s => .str s
  | .list items => .list (ofItems items)
  | .dict members => .mapping (ofMembers members)

def ofItems : List (Json F) → List (Value F)
  | [] => []
  | v :: vs => ofJson v :: ofItems vs

def ofMembers : List (Text × Json F) → List (Text × Value F)
  | [] => []
  | (key, v) :: ms => (key, ofJson v) :: ofMembers ms

end

mutual

theorem ofJson_injective {a b : Json F} (h : ofJson a = ofJson b) : a = b := by
  cases a with
  | list items =>
    cases b <;> simp only [ofJson, reduceCtorEq, Value.list.injEq] at h
    rw [ofItems_injective h]
  | dict members =>
    cases b <;> simp only [ofJson, reduceCtorEq, Value.mapping.injEq] at h
    rw [ofMembers_injective h]
  | _ => cases b <;> simp_all [ofJson]

theorem ofItems_injective {a b : List (Json F)} (h : ofItems a = ofItems b) : a = b := by
  cases a with
  | nil =>
    cases b with
    | nil => rfl
    | cons w ws => simp [ofItems] at h
  | cons v vs =>
    cases b with
    | nil => simp [ofItems] at h
    | cons w ws =>
      simp only [ofItems, List.cons.injEq] at h
      rw [ofJson_injective h.1, ofItems_injective h.2]

theorem ofMembers_injective {a b : List (Text × Json F)} (h : ofMembers a = ofMembers b) :
    a = b := by
  cases a with
  | nil =>
    cases b with
    | nil => rfl
    | cons m ms => simp [ofMembers] at h
  | cons m ms =>
    cases b with
    | nil => simp [ofMembers] at h
    | cons n ns =>
      simp only [ofMembers, List.cons.injEq, Prod.mk.injEq] at h
      obtain ⟨⟨hkey, hvalue⟩, hrest⟩ := h
      rw [ofMembers_injective hrest, Prod.ext hkey (ofJson_injective hvalue)]

end

theorem ofItems_eq_map (items : List (Json F)) : ofItems items = items.map ofJson := by
  induction items with
  | nil => rw [ofItems, List.map_nil]
  | cons v vs ih => rw [ofItems, ih, List.map_cons]

theorem ofItems_mark (depth : ℕ) (items : List (Json F)) :
    ofItems ((sanitizeItems depth items).take maxDeadLetterListItems ++
        if items.length > maxDeadLetterListItems then [truncatedValue] else []) =
      (ofItems (sanitizeItems depth items)).take maxDeadLetterListItems ++
        if (ofItems items).length > maxDeadLetterListItems then [.truncated] else [] := by
  rw [ofItems_eq_map, ofItems_eq_map, ofItems_eq_map, List.map_append, List.map_take, List.length_map]
  split <;> rfl

/-- A scalar is cut off at the depth limit by both. -/
theorem ofJson_cut (depth : ℕ) (v : Json F) :
    (if (depth : ℤ) ≥ maxDeadLetterPayloadDepth then .truncated else ofJson v) =
      ofJson (if depth ≥ maxDeadLetterPayloadDepth then truncatedValue else v) := by
  by_cases hd : depth ≥ maxDeadLetterPayloadDepth
  · rw [if_pos (by exact_mod_cast hd), if_pos hd]
    rfl
  · rw [if_neg (by exact_mod_cast hd), if_neg hd]

mutual

/-- **On JSON values** the two definitions are one. -/
theorem sanitizeValue_ofJson : ∀ (depth : ℕ) (v : Json F),
    sanitizeValue depth (ofJson v) = ofJson (sanitizeDeadLetterPayload depth v)
  | depth, .null => by rw [ofJson, sanitizeValue, sanitizeDeadLetterPayload, ofJson]
  | depth, .dict members => by
    rw [ofJson, sanitizeValue, sanitizeDeadLetterPayload]
    by_cases hd : depth ≥ maxDeadLetterPayloadDepth
    · rw [if_pos (by exact_mod_cast hd), if_pos hd]
      rfl
    · rw [if_neg (by exact_mod_cast hd), if_neg hd, ofJson,
        ← sanitizeValueMembers_ofMembers (depth + 1) members]
      rfl
  | depth, .list items => by
    rw [ofJson, sanitizeValue, sanitizeDeadLetterPayload]
    by_cases hd : depth ≥ maxDeadLetterPayloadDepth
    · rw [if_pos (by exact_mod_cast hd), if_pos hd]
      rfl
    · rw [if_neg (by exact_mod_cast hd), if_neg hd, ofJson, ofItems_mark,
        ← sanitizeValueItems_ofItems (depth + 1) items]
      rfl
  | depth, .bool b => by
    have h := ofJson_cut depth (.bool b : Json F)
    simpa [ofJson, sanitizeValue, sanitizeDeadLetterPayload] using h
  | depth, .int n => by
    have h := ofJson_cut depth (.int n : Json F)
    simpa [ofJson, sanitizeValue, sanitizeDeadLetterPayload] using h
  | depth, .float x => by
    have h := ofJson_cut depth (.float x : Json F)
    simpa [ofJson, sanitizeValue, sanitizeDeadLetterPayload] using h
  | depth, .str s => by
    have h := ofJson_cut depth (.str s : Json F)
    simpa [ofJson, sanitizeValue, sanitizeDeadLetterPayload] using h

theorem sanitizeValueItems_ofItems : ∀ (depth : ℕ) (items : List (Json F)),
    sanitizeValueItems depth (ofItems items) = ofItems (sanitizeItems depth items)
  | _, [] => by rw [ofItems, sanitizeValueItems, sanitizeItems, ofItems]
  | depth, v :: vs => by
    rw [ofItems, sanitizeValueItems, sanitizeItems, ofItems, sanitizeValue_ofJson depth v,
      sanitizeValueItems_ofItems depth vs]

theorem sanitizeValueMembers_ofMembers : ∀ (depth : ℕ) (members : List (Text × Json F)),
    sanitizeValueMembers depth (ofMembers members) = ofMembers (sanitizeMembers depth members)
  | _, [] => by rw [ofMembers, sanitizeValueMembers, sanitizeMembers, ofMembers]
  | depth, (key, v) :: ms => by
    rw [ofMembers, sanitizeValueMembers, sanitizeMembers, ofMembers,
      sanitizeValueMembers_ofMembers depth ms, sanitizeValue_ofJson depth v]
    split <;> rfl

end

end CopyTrade
