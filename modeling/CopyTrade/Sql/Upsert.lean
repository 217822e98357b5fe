import CopyTrade.Sql.Keyed
import Mathlib.Logic.IsEmpty.Basic

/-!
# Upserts

`INSERT … ON CONFLICT (id) DO UPDATE … RETURNING *` into a table whose rows have no unique
index but that of the id.

* `upsert_eq`: it is never refused, and answers the row that stands after it.
* `upsert_frame`, `upsert_under`: under the lock of that row it depends on nothing else, and
  changes nothing else.
-/

namespace Sql

variable {Row Id Entry : Type} [Constrained Row] [Keyed Row Id Entry]

theorem entries_eq_nil [IsEmpty Entry] (r : Row) : Keyed.entries r = [] :=
  List.eq_nil_iff_forall_not_mem.2 fun e => isEmptyElim e

namespace Table

variable [DecidableEq Id] {t u : Table Row} {r a : Row} {f : Row → Row} {i : Id}

/-- `INSERT` of `r`; where its id has a row, `f` of that row. -/
def upsert? (r : Row) (f : Row → Row) (t : Table Row) : Option (Row × Table Row) :=
  match t.get (Keyed.id r) with
  | none => (t.insert? r).map fun u => (r, u)
  | some old => (t.update? (Keyed.id r) f).map fun u => (f old, u)

/-- **All that an upsert can do.** -/
theorem upsert_cases (h : t.upsert? r f = some (a, u)) :
    (t.get (Keyed.id r) = none ∧ a = r ∧ t.insert? r = some u) ∨
      ∃ old, t.get (Keyed.id r) = some old ∧ a = f old ∧ t.update? (Keyed.id r) f = some u := by
  unfold upsert? at h
  split at h
  · rename_i hnone
    obtain ⟨v, hv, he⟩ := Option.map_eq_some_iff.1 h
    cases he
    exact Or.inl ⟨hnone, rfl, hv⟩
  · rename_i old hsome
    obtain ⟨v, hv, he⟩ := Option.map_eq_some_iff.1 h
    cases he
    exact Or.inr ⟨old, hsome, rfl, hv⟩

/-- The row it answers stands in the table. -/
theorem get_upsert (hf : KeepsId f) (h : t.upsert? r f = some (a, u)) :
    u.get (Keyed.id r) = some a := by
  rcases upsert_cases h with ⟨-, rfl, hu⟩ | ⟨old, hold, rfl, hu⟩
  · exact get_insert hu
  · rw [get_update hu hf, hold]
    rfl

theorem get_upsert_ne (hf : KeepsId f) (h : t.upsert? r f = some (a, u)) (hi : i ≠ Keyed.id r) :
    u.get i = t.get i := by
  rcases upsert_cases h with ⟨-, -, hu⟩ | ⟨old, -, -, hu⟩
  · exact get_insert_ne hu hi
  · exact get_update_ne hu hf hi

variable [DecidableEq Entry] [IsEmpty Entry]

/-- **An upsert answers** `r`, or `f` of the row that stood. -/
theorem upsert_eq (hf : KeepsId f) :
    ∃ u, t.upsert? r f = some ((t.get (Keyed.id r)).elim r f, u) := by
  unfold upsert?
  cases hget : t.get (Keyed.id r) with
  | none =>
    obtain ⟨u, hu⟩ : ∃ u, t.insert? r = some u := by
      refine insert_isSome_iff.2 ⟨hget, fun e he => ?_⟩
      rw [entries_eq_nil] at he
      exact absurd he List.not_mem_nil
    exact ⟨u, by rw [hu]; rfl⟩
  | some old =>
    obtain ⟨u, hu⟩ : ∃ u, t.update? (Keyed.id r) f = some u := by
      refine (update_isSome_iff hf).2 fun b _ e he => ?_
      rw [entries_eq_nil] at he
      exact absurd he List.not_mem_nil
    exact ⟨u, by rw [hu]; rfl⟩

theorem upsert_frame (hf : KeepsId f) (h : t.upsert? r f = some (a, u)) {l : Lock Id Entry}
    (hl : l ∉ [Lock.row (Keyed.id r)]) : u.cell l = t.cell l := by
  cases l with
  | row i =>
    have hi : i ≠ Keyed.id r := fun he => hl (by rw [he]; exact List.mem_cons_self)
    exact congrArg TableCell.row (get_upsert_ne hf h hi)
  | entry e => exact isEmptyElim e

end Table

namespace Component

variable [DecidableEq Id] [DecidableEq Entry] {State Key Cell : Type} {cell : State → Key → Cell}
  (C : Component Row cell) {s s' u : State} {r a : Row} {f : Row → Row}

def upsert? (r : Row) (f : Row → Row) (s : State) : Option (Row × State) :=
  ((C.table s).upsert? r f).map fun p => (p.1, C.put p.2 s)

variable {C}

/-- **What an upsert answers and makes.** -/
theorem upsert_eq_some (h : C.upsert? r f s = some (a, s')) :
    ∃ t, (C.table s).upsert? r f = some (a, t) ∧ s' = C.put t s := by
  obtain ⟨⟨b, t⟩, ht, he⟩ := Option.map_eq_some_iff.1 h
  cases he
  exact ⟨t, ht, rfl⟩

variable [IsEmpty Entry]

theorem upsert_frame (hf : Table.KeepsId f) (h : C.upsert? r f s = some (a, s')) {k : Key}
    (hk : k ∉ [C.key (.row (Keyed.id r))]) : cell s' k = cell s k := by
  obtain ⟨t, ht, rfl⟩ := upsert_eq_some h
  have hframe : ∀ l, l ∉ [Lock.row (Keyed.id r)] → t.cell l = (C.table s).cell l :=
    fun l hl => Table.upsert_frame hf ht hl
  exact put_frame hframe hk

/-- **An upsert depends on nothing but the row of its id.** -/
theorem upsert_under (hf : Table.KeepsId f) (h : C.upsert? r f s = some (a, s'))
    (hu : ∀ k ∈ [C.key (.row (Keyed.id r))], cell u k = cell s k) :
    ∃ u', C.upsert? r f u = some (a, u') ∧
      ∀ k ∈ [C.key (.row (Keyed.id r))], cell u' k = cell s' k := by
  obtain ⟨t, ht, rfl⟩ := upsert_eq_some h
  have hget : (C.table u).get (Keyed.id r) = (C.table s).get (Keyed.id r) :=
    get_congr (hu _ List.mem_cons_self)
  obtain ⟨v, hv⟩ := Table.upsert_eq (t := C.table u) (r := r) hf
  obtain ⟨w, hw⟩ := Table.upsert_eq (t := C.table s) (r := r) hf
  -- the answers are those of the row that stood in both
  have hanswer : a = ((C.table s).get (Keyed.id r)).elim r f :=
    congrArg Prod.fst (Option.some.inj (ht.symm.trans hw))
  rw [hget, ← hanswer] at hv
  have hrow : ∀ l ∈ [Lock.row (Keyed.id r)], v.cell l = t.cell l := by
    intro l hl
    rw [List.mem_singleton.1 hl]
    exact congrArg TableCell.row ((Table.get_upsert hf hv).trans (Table.get_upsert hf ht).symm)
  exact ⟨C.put v u, by rw [upsert?, hv]; rfl, fun k hk => put_under hrow hk⟩

end Component

end Sql
