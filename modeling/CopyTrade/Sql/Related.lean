import CopyTrade.Sql.Keyed
import Mathlib.Data.List.Forall2
import Mathlib.Data.List.Sort

/-!
# Tables row by row

Two tables whose rows are related one by one, in order. Statements that go by the ids and
the entries of the rows do the same in both, as far as the relation shows.

* `Related.get`, `Related.owner`: they find related rows.
* `Related.insert`, `Related.update`: they are refused together, and leave related tables.
* `forall₂_insertionSort`: `ORDER BY` a column that related rows have in common.
-/

namespace Sql

variable {A B : Type} {R : A → B → Prop}

theorem forall₂_find {p : A → Bool} {q : B → Bool} (hpq : ∀ a b, R a b → p a = q b) {l : List A}
    {m : List B} (h : List.Forall₂ R l m) : Option.Rel R (l.find? p) (m.find? q) := by
  induction h with
  | nil => exact .none
  | cons hab _ ih =>
    rw [List.find?_cons, List.find?_cons, hpq _ _ hab]
    split
    · exact .some hab
    · exact ih

theorem forall₂_filter {p : A → Bool} {q : B → Bool} (hpq : ∀ a b, R a b → p a = q b) {l : List A}
    {m : List B} (h : List.Forall₂ R l m) : List.Forall₂ R (l.filter p) (m.filter q) := by
  induction h with
  | nil => exact .nil
  | cons hab _ ih =>
    rw [List.filter_cons, List.filter_cons, hpq _ _ hab]
    split
    · exact .cons hab ih
    · exact ih

theorem forall₂_orderedInsert {r : A → A → Prop} {s : B → B → Prop} [DecidableRel r]
    [DecidableRel s] (hrs : ∀ a b a' b', R a b → R a' b' → (r a a' ↔ s b b')) {a : A} {b : B}
    (hab : R a b) {l : List A} {m : List B} (h : List.Forall₂ R l m) :
    List.Forall₂ R (l.orderedInsert r a) (m.orderedInsert s b) := by
  induction h with
  | nil => exact .cons hab .nil
  | @cons c d l m hcd hl ih =>
    have hiff : r a c ↔ s b d := hrs a b c d hab hcd
    rw [List.orderedInsert_cons, List.orderedInsert_cons]
    by_cases hr : r a c
    · rw [if_pos hr, if_pos (hiff.1 hr)]
      exact .cons hab (.cons hcd hl)
    · rw [if_neg hr, if_neg fun hs => hr (hiff.2 hs)]
      exact .cons hcd ih

/-- **Sorting** by what related elements have in common. -/
theorem forall₂_insertionSort {r : A → A → Prop} {s : B → B → Prop} [DecidableRel r]
    [DecidableRel s] (hrs : ∀ a b a' b', R a b → R a' b' → (r a a' ↔ s b b')) {l : List A}
    {m : List B} (h : List.Forall₂ R l m) :
    List.Forall₂ R (l.insertionSort r) (m.insertionSort s) := by
  induction h with
  | nil => exact .nil
  | cons hab _ ih =>
    rw [List.insertionSort_cons, List.insertionSort_cons]
    exact forall₂_orderedInsert hrs hab ih

theorem exists_of_forall₂_right {l : List A} {m : List B} (h : List.Forall₂ R l m) {b : B}
    (hb : b ∈ m) : ∃ a ∈ l, R a b := by
  induction h with
  | nil => cases hb
  | cons hab _ ih =>
    rcases List.mem_cons.1 hb with rfl | hb
    · exact ⟨_, List.mem_cons_self, hab⟩
    · obtain ⟨a, ha, hab⟩ := ih hb
      exact ⟨a, List.mem_cons_of_mem _ ha, hab⟩

theorem exists_of_forall₂_left {l : List A} {m : List B} (h : List.Forall₂ R l m) {a : A}
    (ha : a ∈ l) : ∃ b ∈ m, R a b := by
  obtain ⟨b, hb, hab⟩ := exists_of_forall₂_right h.flip ha
  exact ⟨b, hb, hab⟩

/-- A map under an option, in both. -/
theorem rel_map {C D : Type} {T : C → D → Prop} {f : A → C} {g : B → D}
    (hfg : ∀ a b, R a b → T (f a) (g b)) {x : Option A} {y : Option B} (h : Option.Rel R x y) :
    Option.Rel T (x.map f) (y.map g) := by
  cases h with
  | none => exact .none
  | some h => exact .some (hfg _ _ h)

/-- What the related values come from. -/
theorem rel_of {x : Option A} {y : Option B} (h : Option.Rel R x y) :
    Option.Rel (fun a b => R a b ∧ x = some a ∧ y = some b) x y := by
  cases h with
  | none => exact .none
  | some h => exact .some ⟨h, rfl, rfl⟩

/-! ## Tables -/

variable {Row Id Entry : Type} [Constrained Row] [Keyed Row Id Entry]

/-- The rows are related one by one. -/
def Related (R : Row → Row → Prop) (t u : Table Row) : Prop := List.Forall₂ R t.rows u.rows

variable {R : Row → Row → Prop} {t u : Table Row}

theorem Related.get [DecidableEq Id] (h : Related R t u)
    (hid : ∀ a b : Row, R a b → Keyed.id a = Keyed.id b) (i : Id) : Option.Rel R (t.get i) (u.get i) :=
  forall₂_find (fun a b hab => by rw [hid a b hab]) h

theorem Related.owner [DecidableEq Entry] (h : Related R t u)
    (hid : ∀ a b : Row, R a b → Keyed.id a = Keyed.id b)
    (hent : ∀ a b : Row, R a b → Keyed.entries a = Keyed.entries b) (e : Entry) :
    t.owner e = u.owner e := by
  have hfind : Option.Rel R (t.rows.find? fun r => decide (e ∈ Keyed.entries r))
      (u.rows.find? fun r => decide (e ∈ Keyed.entries r)) :=
    forall₂_find (fun a b hab => by rw [hent a b hab]) h
  unfold Table.owner
  revert hfind
  generalize (t.rows.find? fun r => decide (e ∈ Keyed.entries r)) = x
  generalize (u.rows.find? fun r => decide (e ∈ Keyed.entries r)) = y
  intro hfind
  cases hfind with
  | none => rfl
  | some hab => exact congrArg some (hid _ _ hab)

/-- **An insert** of rows that clash with related rows. -/
theorem Related.insert {r r' : Row} (h : Related R t u) (hr : R r r')
    (hclash : ∀ a ∈ t, ∀ b ∈ u, R a b → (Clash a r ↔ Clash b r')) :
    Option.Rel (Related R) (t.insert? r) (u.insert? r') := by
  have hiff : (∀ a ∈ t, ¬ Clash a r) ↔ ∀ b ∈ u, ¬ Clash b r' := by
    constructor
    · intro hfree b hb hc
      obtain ⟨a, ha, hab⟩ := exists_of_forall₂_right h hb
      exact hfree a ha ((hclash a ha b hb hab).2 hc)
    · intro hfree a ha hc
      obtain ⟨b, hb, hab⟩ := exists_of_forall₂_left h ha
      exact hfree b hb ((hclash a ha b hb hab).1 hc)
  cases ht : t.insert? r with
  | none =>
    cases hu : u.insert? r' with
    | none => exact .none
    | some u' =>
      have hfree : ∀ a ∈ t.rows, ¬ Clash a r := hiff.2 (Table.insert_eq_some.1 hu).1
      rw [Table.insert?, dif_pos hfree] at ht
      cases ht
  | some t' =>
    cases hu : u.insert? r' with
    | none =>
      have hfree : ∀ b ∈ u.rows, ¬ Clash b r' := hiff.1 (Table.insert_eq_some.1 ht).1
      rw [Table.insert?, dif_pos hfree] at hu
      cases hu
    | some u' =>
      refine .some ?_
      unfold Related
      rw [(Table.insert_eq_some.1 ht).2, (Table.insert_eq_some.1 hu).2]
      exact List.rel_append h (.cons hr .nil)

/-- **An update of one row** that keeps its entries is refused in neither. -/
theorem Related.update [DecidableEq Id] [DecidableEq Entry] {f g : Row → Row} (h : Related R t u)
    (hid : ∀ a b : Row, R a b → Keyed.id a = Keyed.id b) (hfg : ∀ a b, R a b → R (f a) (g b))
    (hf : Table.KeepsId f) (hg : Table.KeepsId g)
    (hfe : ∀ r : Row, Keyed.entries (f r) = Keyed.entries r)
    (hge : ∀ r : Row, Keyed.entries (g r) = Keyed.entries r) (i : Id) :
    Option.Rel (Related R) (t.update? i f) (u.update? i g) := by
  obtain ⟨t', ht⟩ : ∃ t', t.update? i f = some t' := by
    refine (Table.update_isSome_iff hf).2 fun r _ e he hne => ?_
    rw [hfe r] at he
    exact absurd he hne
  obtain ⟨u', hu⟩ : ∃ u', u.update? i g = some u' := by
    refine (Table.update_isSome_iff hg).2 fun r _ e he hne => ?_
    rw [hge r] at he
    exact absurd he hne
  rw [ht, hu]
  refine .some ?_
  unfold Related
  rw [Table.updateWhere_eq_some.1 ht, Table.updateWhere_eq_some.1 hu]
  refine List.rel_map (fun a b hab => ?_) h
  rw [hid a b hab]
  split
  · exact hfg a b hab
  · exact hab

end Sql
