import Mathlib.Algebra.Order.Ring.Rat
import Mathlib.Tactic.NormNum
import Mathlib.Tactic.Ring

/-!
# Column types

What a column of a type stores for a value, or `none` where it refuses the value.
-/

namespace Sql

/-- Round to `scale` decimals, half away from zero. -/
def roundTo (scale : ℕ) (x : ℚ) : ℚ :=
  let y := x * 10 ^ scale
  (if 0 ≤ y then (y + 1 / 2).floor else -(-y + 1 / 2).floor : ℤ) / 10 ^ scale

/-- `numeric(precision, scale)`: rounds, and refuses what then has too many digits. -/
def numeric? (precision scale : ℕ) (x : ℚ) : Option ℚ :=
  if |roundTo scale x| < 10 ^ (precision - scale) then some (roundTo scale x) else none

/-- `text`: refuses U+0000. -/
def text? (s : String) : Option String :=
  if '\u0000' ∈ s.toList then none else some s

/-- `integer`: four bytes. -/
def integer? (n : ℤ) : Option ℤ :=
  if -2 ^ 31 ≤ n ∧ n < 2 ^ 31 then some n else none

/-- A nullable column. -/
def nullable {α : Type} (column : α → Option α) : Option α → Option (Option α)
  | none => some none
  | some a => (column a).map some

theorem text_eq_some {s t : String} (h : text? s = some t) : t = s := by
  unfold text? at h
  split at h
  · cases h
  · exact (Option.some.inj h).symm

/-- A text is stored as it is, or not at all. -/
theorem text_eq_self_iff {s : String} : text? s = some s ↔ '\u0000' ∉ s.toList := by
  unfold text?
  split
  · rename_i h
    simp [h]
  · rename_i h
    simp [h]

theorem text_ne_none_iff {s : String} : text? s ≠ none ↔ '\u0000' ∉ s.toList := by
  unfold text?
  split
  · rename_i h
    simp [h]
  · rename_i h
    simp [h]

theorem nullable_text_eq_some {s t : Option String} (h : nullable text? s = some t) : t = s := by
  cases s with
  | none => exact (Option.some.inj h).symm
  | some s =>
    obtain ⟨u, hu, rfl⟩ := Option.map_eq_some_iff.1 h
    rw [text_eq_some hu]

/-! ## What `numeric` keeps -/

/-- The values of `numeric(precision, scale)`. -/
def IsNumeric (precision scale : ℕ) (x : ℚ) : Prop :=
  (∃ n : ℤ, x = n / 10 ^ scale) ∧ |x| < 10 ^ (precision - scale)

theorem roundTo_spec (scale : ℕ) (x : ℚ) : ∃ n : ℤ, roundTo scale x = n / 10 ^ scale := ⟨_, rfl⟩

theorem floor_half (n : ℤ) : ((n : ℚ) + 1 / 2).floor = n := by
  have hhalf : (1 / 2 : ℚ).floor = 0 := by decide +kernel
  rw [add_comm, Rat.floor_add_intCast, hhalf, zero_add]

/-- **Values at the scale** are rounded to themselves. -/
theorem roundTo_div (scale : ℕ) (n : ℤ) : roundTo scale (n / 10 ^ scale) = n / 10 ^ scale := by
  have hpow : (10 ^ scale : ℚ) ≠ 0 := pow_ne_zero scale (by norm_num)
  have hunits : (n / 10 ^ scale : ℚ) * 10 ^ scale = n := div_mul_cancel₀ _ hpow
  unfold roundTo
  dsimp only
  rw [hunits]
  split
  · rw [floor_half]
  · have hneg : (-(n : ℚ) + 1 / 2) = ((-n : ℤ) : ℚ) + 1 / 2 := by push_cast; ring
    rw [hneg, floor_half, neg_neg]

theorem roundTo_eq_self_iff {scale : ℕ} {x : ℚ} :
    roundTo scale x = x ↔ ∃ n : ℤ, x = n / 10 ^ scale := by
  constructor
  · intro h
    obtain ⟨n, hn⟩ := roundTo_spec scale x
    exact ⟨n, h.symm.trans hn⟩
  · rintro ⟨n, rfl⟩
    exact roundTo_div scale n

/-- What is stored is a value of the column. -/
theorem isNumeric_of_numeric {precision scale : ℕ} {x y : ℚ} (h : numeric? precision scale x = some y) :
    IsNumeric precision scale y := by
  unfold numeric? at h
  split at h
  · rename_i hlt
    cases h
    exact ⟨roundTo_spec scale x, hlt⟩
  · cases h

/-- **A value is stored as it is** exactly where it is one of the column. -/
theorem numeric_eq_self_iff {precision scale : ℕ} {x : ℚ} :
    numeric? precision scale x = some x ↔ IsNumeric precision scale x := by
  constructor
  · exact isNumeric_of_numeric
  · rintro ⟨hscale, hlt⟩
    have hround := roundTo_eq_self_iff.2 hscale
    unfold numeric?
    rw [hround, if_pos hlt]

end Sql
