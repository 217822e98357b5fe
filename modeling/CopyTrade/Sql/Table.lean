import Mathlib.Data.List.Pairwise

/-!
# Tables with unique constraints

A table is a list of rows no two of which clash on a unique constraint; the
constraint is part of the type (`Table.apart`), so no statement can break it. A
statement that would is refused (`none`).

* `insertOrIgnore?`: `INSERT … ON CONFLICT (key) DO NOTHING`, with the number of
  rows inserted.
* `updateWhere?`, `deleteWhere`: `UPDATE … WHERE`, `DELETE … WHERE`.
* `leftJoin`: `LEFT JOIN`, which pads a row without a match. Against a table whose
  unique columns the join condition fixes it neither drops nor multiplies rows
  (`leftJoin_unique`).
-/

namespace Sql

/-- The unique constraints of a kind of row: two rows that `Clash` cannot stand in
one table together. -/
class Constrained (Row : Type) where
  Clash : Row → Row → Prop
  clash_symm : ∀ {a b}, Clash a b → Clash b a
  decidable : DecidableRel Clash

export Constrained (Clash clash_symm)

instance {Row : Type} [Constrained Row] : DecidableRel (@Clash Row _) :=
  Constrained.decidable

structure Table (Row : Type) [Constrained Row] where
  rows : List Row
  apart : rows.Pairwise fun a b => ¬ Clash a b

variable {Row κ : Type} [Constrained Row]

namespace Table

instance : Membership Row (Table Row) := ⟨fun t r => r ∈ t.rows⟩

theorem mem_def {t : Table Row} {r : Row} : r ∈ t ↔ r ∈ t.rows := Iff.rfl

@[ext] theorem ext {t u : Table Row} (h : t.rows = u.rows) : t = u := by
  cases t; cases u; simp only at h; subst h; rfl

def empty : Table Row := ⟨[], List.Pairwise.nil⟩

def singleton (r : Row) : Table Row := ⟨[r], List.pairwise_singleton _ _⟩

@[simp] theorem not_mem_empty (r : Row) : r ∉ (empty : Table Row) := List.not_mem_nil

/-- Two clashing rows of one table are the same row. -/
theorem eq_of_clash {t : Table Row} {a b : Row} (ha : a ∈ t) (hb : b ∈ t) (h : Clash a b) :
    a = b := by
  by_contra hne
  obtain ⟨i, hi, rfl⟩ := List.getElem_of_mem ha
  obtain ⟨j, hj, rfl⟩ := List.getElem_of_mem hb
  have hij : i ≠ j := fun h' => hne (by subst h'; rfl)
  rcases Nat.lt_or_gt_of_ne hij with hlt | hlt
  · exact List.pairwise_iff_getElem.1 t.apart i j hi hj hlt h
  · exact List.pairwise_iff_getElem.1 t.apart j i hj hi hlt (clash_symm h)

theorem nodup (hclash : ∀ r : Row, Clash r r) (t : Table Row) : t.rows.Nodup := by
  refine t.apart.imp fun {a b} hab he => ?_
  rw [he] at hab
  exact hab (hclash b)

/-! ## Inserting -/

/-- `INSERT`: refused where the row clashes with one of the table. -/
def insert? (t : Table Row) (r : Row) : Option (Table Row) :=
  if h : ∀ a ∈ t.rows, ¬ Clash a r then
    some ⟨t.rows ++ [r], List.pairwise_append.2
      ⟨t.apart, List.pairwise_singleton _ _, by simpa using h⟩⟩
  else none

theorem insert_eq_some {t t' : Table Row} {r : Row} :
    t.insert? r = some t' ↔ (∀ a ∈ t, ¬ Clash a r) ∧ t'.rows = t.rows ++ [r] := by
  unfold insert?
  split
  · rename_i h
    constructor
    · intro he; cases he; exact ⟨h, rfl⟩
    · rintro ⟨-, he⟩; congr 1; exact ext he.symm
  · rename_i h
    constructor
    · intro he; cases he
    · rintro ⟨he, -⟩; exact absurd he h

/-- `INSERT … ON CONFLICT (key) DO NOTHING`, with the number of rows inserted. A clash
on another constraint is still refused. -/
def insertOrIgnore? [DecidableEq κ] (key : Row → κ) (t : Table Row) (r : Row) :
    Option (Table Row × ℕ) :=
  if ∃ a ∈ t.rows, key a = key r then some (t, 0) else (t.insert? r).map fun t' => (t', 1)

/-- **All that `INSERT … ON CONFLICT DO NOTHING` can do.** -/
theorem insertOrIgnore_cases [DecidableEq κ] {key : Row → κ} {t t' : Table Row} {r : Row} {n : ℕ}
    (h : t.insertOrIgnore? key r = some (t', n)) :
    ((∃ a ∈ t, key a = key r) ∧ t' = t ∧ n = 0) ∨
      ((∀ a ∈ t, key a ≠ key r) ∧ (∀ a ∈ t, ¬ Clash a r) ∧ t'.rows = t.rows ++ [r] ∧ n = 1) := by
  unfold insertOrIgnore? at h
  split at h
  · rename_i hk; cases h; exact Or.inl ⟨hk, rfl, rfl⟩
  · rename_i hk
    obtain ⟨u, hu, he⟩ := Option.map_eq_some_iff.1 h
    cases he
    obtain ⟨hc, hr⟩ := insert_eq_some.1 hu
    exact Or.inr ⟨fun a ha hak => hk ⟨a, ha, hak⟩, hc, hr, rfl⟩

/-- Where only the key is constrained, `INSERT … ON CONFLICT DO NOTHING` is never refused. -/
theorem insertOrIgnore_isSome [DecidableEq κ] {key : Row → κ} (t : Table Row) (r : Row)
    (hkey : ∀ a b, Clash a b → key a = key b) : ∃ a, t.insertOrIgnore? key r = some a := by
  unfold insertOrIgnore?
  split
  · exact ⟨_, rfl⟩
  · rename_i hk
    have hc : ∀ a ∈ t.rows, ¬ Clash a r := fun a ha h => hk ⟨a, ha, hkey a r h⟩
    exact ⟨_, by rw [insert?, dif_pos hc]; rfl⟩

/-! ## Updating and deleting -/

/-- `UPDATE … SET f WHERE p`: refused where the result breaks a constraint. -/
def updateWhere? (p : Row → Bool) (f : Row → Row) (t : Table Row) : Option (Table Row) :=
  if h : (t.rows.map fun r => if p r then f r else r).Pairwise fun a b => ¬ Clash a b then
    some ⟨t.rows.map fun r => if p r then f r else r, h⟩
  else none

theorem updateWhere_eq_some {p : Row → Bool} {f : Row → Row} {t t' : Table Row} :
    t.updateWhere? p f = some t' ↔ t'.rows = t.rows.map fun r => if p r then f r else r := by
  unfold updateWhere?
  split
  · constructor
    · intro he; cases he; rfl
    · intro he; congr 1; exact ext he.symm
  · rename_i h
    constructor
    · intro he; cases he
    · intro he; exact absurd (he ▸ t'.apart) h

/-- An update that leaves the constrained columns alone is never refused. -/
theorem updateWhere_isSome {p : Row → Bool} {f : Row → Row} {t : Table Row}
    (hf : ∀ a b, Clash (if p a then f a else a) (if p b then f b else b) → Clash a b) :
    ∃ t', t.updateWhere? p f = some t' :=
  ⟨⟨_, List.pairwise_map.2 (t.apart.imp fun h hc => h (hf _ _ hc))⟩, updateWhere_eq_some.2 rfl⟩

/-- `DELETE … WHERE p`. -/
def deleteWhere (p : Row → Bool) (t : Table Row) : Table Row :=
  ⟨t.rows.filter fun r => !p r, t.apart.filter _⟩

@[simp] theorem mem_deleteWhere {p : Row → Bool} {t : Table Row} {r : Row} :
    r ∈ t.deleteWhere p ↔ r ∈ t ∧ p r = false := by
  simp [deleteWhere, mem_def]

end Table

/-! ## Joining -/

/-- The rows of `t` a `LEFT JOIN … ON on` pairs with one row of the left side; `none`
stands for the padding. -/
def leftJoin (t : Table Row) (on : Row → Bool) : List (Option Row) :=
  match t.rows.filter on with
  | [] => [none]
  | r :: rs => (r :: rs).map some

/-- A join on unique columns pairs every row with exactly one, its match or the padding. -/
theorem leftJoin_unique {t : Table Row} {on : Row → Bool}
    (h : ∀ a b, on a = true → on b = true → Clash a b) : leftJoin t on = [t.rows.find? on] := by
  unfold leftJoin
  rw [← List.head?_filter]
  have hp : (t.rows.filter on).Pairwise fun a b => ¬ Clash a b := t.apart.filter _
  have hall : ∀ a ∈ t.rows.filter on, on a = true := fun a ha => (List.mem_filter.1 ha).2
  cases hl : t.rows.filter on with
  | nil => rfl
  | cons a l =>
    rw [hl] at hp hall
    cases l with
    | nil => rfl
    | cons b l =>
      exact absurd (h a b (hall a (by simp)) (hall b (by simp)))
        (List.rel_of_pairwise_cons hp List.mem_cons_self)

/-- The same, where the join condition fixes a key and the key is unique. -/
theorem leftJoin_of_key {t : Table Row} {on : Row → Bool} (key : Row → κ) (v : κ)
    (hkey : ∀ a b, key a = key b → Clash a b) (hon : ∀ a, on a = true → key a = v) :
    leftJoin t on = [t.rows.find? on] := by
  apply leftJoin_unique
  intro a b ha hb
  exact hkey a b ((hon a ha).trans (hon b hb).symm)

/-- Where the condition fixes the unique columns, the row that is found is the one that meets it. -/
theorem find_iff_of_unique {t : Table Row} {on : Row → Bool}
    (h : ∀ a b, on a = true → on b = true → Clash a b) {a : Row} :
    t.rows.find? on = some a ↔ a ∈ t ∧ on a = true := by
  constructor
  · intro hf
    exact ⟨List.mem_of_find?_eq_some hf, List.find?_some hf⟩
  · rintro ⟨ha, hon⟩
    cases hf : t.rows.find? on with
    | none => exact absurd hon (List.find?_eq_none.1 hf a ha)
    | some b =>
      have hb : b ∈ t := List.mem_of_find?_eq_some hf
      rw [Table.eq_of_clash hb ha (h b a (List.find?_some hf) hon)]

end Sql
