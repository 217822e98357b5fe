import CopyTrade.Sql.Table

/-!
# Tables under locks

A table whose rows have an id, and entries in unique indexes. What stands under the lock
of a row is the row; what stands under the lock of an index entry is the id of the row
that owns it.

* `insert_frame`, `update_frame`: an insert and an update change nothing outside their
  locks, an update none but the entries that it moves.
* `insert_under`, `update_under`: whether they are refused, and what they leave under
  their locks, depends on nothing but what stands there.
* `row_under`, `owner_under`: locks that what stands under one of them decides.
-/

namespace Sql

/-- The id of a row, and its entries in the unique indexes. -/
class Keyed (Row : Type) [Constrained Row] (Id Entry : outParam Type) where
  id : Row → Id
  entries : Row → List Entry
  clash_iff : ∀ {a b : Row}, Clash a b ↔ id a = id b ∨ ∃ e ∈ entries a, e ∈ entries b

/-- What a statement can lock in a table. -/
inductive Lock (Id Entry : Type) where
  | row (i : Id)
  | entry (e : Entry)
  deriving DecidableEq

inductive TableCell (Row Id : Type) where
  | row (r : Option Row)
  | entry (owner : Option Id)

variable {Row Id Entry : Type} [Constrained Row] [Keyed Row Id Entry]

namespace Table

open Keyed (entries)

variable {t t' u : Table Row} {r : Row} {i : Id} {e : Entry} {f : Row → Row}

/-- Two rows with one id are the same row. -/
theorem eq_of_id {a b : Row} (ha : a ∈ t) (hb : b ∈ t) (h : Keyed.id a = Keyed.id b) : a = b :=
  eq_of_clash ha hb (Keyed.clash_iff.2 (Or.inl h))

theorem eq_of_entry {a b : Row} (ha : a ∈ t) (hb : b ∈ t) (hea : e ∈ entries a)
    (heb : e ∈ entries b) : a = b :=
  eq_of_clash ha hb (Keyed.clash_iff.2 (Or.inr ⟨e, hea, heb⟩))

theorem mem_insert (h : t.insert? r = some t') {a : Row} : a ∈ t' ↔ a ∈ t ∨ a = r := by
  rw [mem_def, (insert_eq_some.1 h).2, List.mem_append, List.mem_singleton]
  exact Iff.rfl

def insertLocks (r : Row) : List (Lock Id Entry) := .row (Keyed.id r) :: (entries r).map .entry

/-- An update that keeps the ids. -/
def KeepsId (f : Row → Row) : Prop := ∀ r : Row, Keyed.id (f r) = Keyed.id r

/-! ## The row of an id -/

section Ids

variable [DecidableEq Id]

/-- The row of an id. -/
def get (t : Table Row) (i : Id) : Option Row := t.rows.find? fun r => decide (Keyed.id r = i)

theorem get_eq_some : t.get i = some r ↔ r ∈ t ∧ Keyed.id r = i := by
  have hunique : ∀ a b : Row, decide (Keyed.id a = i) = true → decide (Keyed.id b = i) = true →
      Clash a b := by
    intro a b ha hb
    rw [decide_eq_true_eq] at ha hb
    exact Keyed.clash_iff.2 (Or.inl (ha.trans hb.symm))
  rw [get, find_iff_of_unique hunique, decide_eq_true_eq]

theorem get_eq_none : t.get i = none ↔ ∀ r ∈ t, Keyed.id r ≠ i := by
  unfold get
  rw [List.find?_eq_none]
  simp only [decide_eq_true_eq]
  exact Iff.rfl

/-- The row of an id stands between rows with other ids. -/
theorem rows_split (h : t.get i = some r) : ∃ l m, t.rows = l ++ r :: m ∧
    ∀ a ∈ l ++ m, Keyed.id a ≠ i := by
  obtain ⟨hmem, hid⟩ := get_eq_some.1 h
  obtain ⟨l, m, hrows⟩ := List.append_of_mem hmem
  refine ⟨l, m, hrows, fun a ha he => ?_⟩
  have hclash : Clash a r := Keyed.clash_iff.2 (Or.inl (he.trans hid.symm))
  have hapart := t.apart
  rw [hrows] at hapart
  rcases List.mem_append.1 ha with ha | ha
  · exact (List.pairwise_append.1 hapart).2.2 a ha r List.mem_cons_self hclash
  · exact List.rel_of_pairwise_cons (List.pairwise_append.1 hapart).2.1 ha (clash_symm hclash)

theorem get_insert (h : t.insert? r = some t') : t'.get (Keyed.id r) = some r :=
  get_eq_some.2 ⟨(mem_insert h).2 (Or.inr rfl), rfl⟩

theorem get_insert_ne (h : t.insert? r = some t') (hi : i ≠ Keyed.id r) : t'.get i = t.get i := by
  have hfind : ¬ Keyed.id r = i := fun he => hi he.symm
  rw [get, get, (insert_eq_some.1 h).2, List.find?_append]
  simp [hfind]

/-- `UPDATE … SET f WHERE id = i` -/
def update? (i : Id) (f : Row → Row) (t : Table Row) : Option (Table Row) :=
  t.updateWhere? (fun r => decide (Keyed.id r = i)) f

theorem mem_update (h : t.update? i f = some t') {b : Row} :
    b ∈ t' ↔ ∃ a ∈ t, b = if Keyed.id a = i then f a else a := by
  rw [mem_def, updateWhere_eq_some.1 h, List.mem_map]
  simp only [decide_eq_true_eq]
  constructor
  · rintro ⟨a, ha, he⟩; exact ⟨a, ha, he.symm⟩
  · rintro ⟨a, ha, he⟩; exact ⟨a, ha, he.symm⟩

/-- The updated row stands in the table. -/
theorem mem_update_self (h : t.update? i f = some t') (hr : t.get i = some r) : f r ∈ t' := by
  obtain ⟨hmem, hid⟩ := get_eq_some.1 hr
  exact (mem_update h).2 ⟨r, hmem, by rw [if_pos hid]⟩

/-- A row with another id is in the table exactly if it was. -/
theorem mem_update_other (h : t.update? i f = some t') (hf : KeepsId f) {b : Row}
    (hb : Keyed.id b ≠ i) : b ∈ t' ↔ b ∈ t := by
  rw [mem_update h]
  constructor
  · rintro ⟨a, ha, rfl⟩
    by_cases hai : Keyed.id a = i
    · rw [if_pos hai] at hb
      exact absurd ((hf a).trans hai) hb
    · rw [if_neg hai]; exact ha
  · intro hm
    exact ⟨b, hm, by rw [if_neg hb]⟩

/-- How many rows meet a condition before and after the update of one row. -/
theorem countP_update (h : t.update? i f = some t') (hr : t.get i = some r) (p : Row → Bool) :
    t'.rows.countP p + [r].countP p = t.rows.countP p + [f r].countP p := by
  obtain ⟨l, m, hrows, hother⟩ := rows_split hr
  have hid : Keyed.id r = i := (get_eq_some.1 hr).2
  have hkeep : ∀ k : List Row, (∀ a ∈ k, Keyed.id a ≠ i) →
      (k.map fun a => if decide (Keyed.id a = i) = true then f a else a) = k := by
    intro k hk
    refine (List.map_congr_left fun a ha => ?_).trans (List.map_id k)
    have hne : Keyed.id a ≠ i := hk a ha
    simp [hne]
  have hrows' : t'.rows = l ++ f r :: m := by
    rw [updateWhere_eq_some.1 h, hrows, List.map_append, List.map_cons,
      hkeep l fun a ha => hother a (List.mem_append_left m ha),
      hkeep m fun a ha => hother a (List.mem_append_right l ha)]
    simp [hid]
  simp only [hrows, hrows', List.countP_append, List.countP_cons, List.countP_nil]
  omega

theorem get_update (h : t.update? i f = some t') (hf : KeepsId f) :
    t'.get i = (t.get i).map f := by
  cases hr : t.get i with
  | some r =>
    obtain ⟨-, hid⟩ := get_eq_some.1 hr
    exact get_eq_some.2 ⟨mem_update_self h hr, (hf r).trans hid⟩
  | none =>
    refine get_eq_none.2 fun b hb hbi => ?_
    obtain ⟨a, ha, rfl⟩ := (mem_update h).1 hb
    by_cases hai : Keyed.id a = i
    · exact get_eq_none.1 hr a ha hai
    · rw [if_neg hai] at hbi; exact hai hbi

theorem get_update_ne (h : t.update? i f = some t') (hf : KeepsId f) {j : Id} (hj : j ≠ i) :
    t'.get j = t.get j := by
  apply Option.ext
  intro b
  rw [get_eq_some, get_eq_some]
  refine and_congr_left fun hb => ?_
  exact mem_update_other h hf (by rw [hb]; exact hj)

end Ids

/-! ## The entries of the indexes -/

section Entries

variable [DecidableEq Entry]

/-- The id of the row that has the entry. -/
def owner (t : Table Row) (e : Entry) : Option Id :=
  (t.rows.find? fun r => decide (e ∈ entries r)).map Keyed.id

theorem owner_eq_some : t.owner e = some i ↔ ∃ r ∈ t, e ∈ entries r ∧ Keyed.id r = i := by
  have hunique : ∀ a b : Row, decide (e ∈ entries a) = true → decide (e ∈ entries b) = true →
      Clash a b := by
    intro a b ha hb
    rw [decide_eq_true_eq] at ha hb
    exact Keyed.clash_iff.2 (Or.inr ⟨e, ha, hb⟩)
  rw [owner, Option.map_eq_some_iff]
  refine exists_congr fun r => ?_
  rw [find_iff_of_unique hunique, decide_eq_true_eq, and_assoc]

theorem owner_eq_none : t.owner e = none ↔ ∀ r ∈ t, e ∉ entries r := by
  unfold owner
  rw [Option.map_eq_none_iff, List.find?_eq_none]
  simp only [decide_eq_true_eq]
  exact Iff.rfl

theorem owner_insert (h : t.insert? r = some t') (he : e ∈ entries r) :
    t'.owner e = some (Keyed.id r) :=
  owner_eq_some.2 ⟨r, (mem_insert h).2 (Or.inr rfl), he, rfl⟩

theorem owner_insert_ne (h : t.insert? r = some t') (he : e ∉ entries r) :
    t'.owner e = t.owner e := by
  rw [owner, owner, (insert_eq_some.1 h).2, List.find?_append]
  simp [he]

/-- The entries that one of two rows has and the other has not. -/
def moved (a b : Row) : List Entry :=
  (entries a ++ entries b).filter fun e => !(decide (e ∈ entries a) && decide (e ∈ entries b))

theorem mem_moved {a b : Row} : e ∈ moved a b ↔
    (e ∈ entries a ∧ e ∉ entries b) ∨ (e ∉ entries a ∧ e ∈ entries b) := by
  simp only [moved, List.mem_filter, List.mem_append, Bool.not_eq_true', Bool.and_eq_false_iff,
    decide_eq_false_iff_not]
  by_cases ha : e ∈ entries a <;> by_cases hb : e ∈ entries b <;> simp [ha, hb]

end Entries

variable [DecidableEq Id] [DecidableEq Entry]

def cell (t : Table Row) : Lock Id Entry → TableCell Row Id
  | .row i => .row (t.get i)
  | .entry e => .entry (t.owner e)

/-! ## Inserting -/

theorem insert_isSome_iff : (∃ t', t.insert? r = some t') ↔
    t.get (Keyed.id r) = none ∧ ∀ e ∈ entries r, t.owner e = none := by
  have hiff : (∃ t', t.insert? r = some t') ↔ ∀ a ∈ t, ¬ Clash a r := by
    constructor
    · rintro ⟨t', h⟩
      exact (insert_eq_some.1 h).1
    · intro h
      exact ⟨_, dif_pos h⟩
  rw [hiff, get_eq_none]
  constructor
  · intro h
    refine ⟨fun a ha he => h a ha (Keyed.clash_iff.2 (Or.inl he)), fun e he => ?_⟩
    refine owner_eq_none.2 fun a ha hea => ?_
    exact h a ha (Keyed.clash_iff.2 (Or.inr ⟨e, hea, he⟩))
  · rintro ⟨hid, hent⟩ a ha hc
    rcases Keyed.clash_iff.1 hc with h | ⟨e, hea, he⟩
    · exact hid a ha h
    · exact owner_eq_none.1 (hent e he) a ha hea

/-- **An insert changes nothing outside its locks.** -/
theorem insert_frame (h : t.insert? r = some t') {k : Lock Id Entry} (hk : k ∉ insertLocks r) :
    t'.cell k = t.cell k := by
  cases k with
  | row i =>
    have hi : i ≠ Keyed.id r := fun he => hk (by rw [he]; exact List.mem_cons_self)
    exact congrArg TableCell.row (get_insert_ne h hi)
  | entry e =>
    have he : e ∉ entries r := fun he => hk (List.mem_cons_of_mem _ (List.mem_map_of_mem he))
    exact congrArg TableCell.entry (owner_insert_ne h he)

/-- **An insert depends on nothing outside its locks.** -/
theorem insert_under (h : t.insert? r = some t') (hu : ∀ k ∈ insertLocks r, u.cell k = t.cell k) :
    ∃ u', u.insert? r = some u' ∧ ∀ k ∈ insertLocks r, u'.cell k = t'.cell k := by
  have hrow : u.get (Keyed.id r) = t.get (Keyed.id r) :=
    TableCell.row.inj (hu (.row (Keyed.id r)) List.mem_cons_self)
  have hent : ∀ e ∈ entries r, u.owner e = t.owner e := fun e he =>
    TableCell.entry.inj (hu (.entry e) (List.mem_cons_of_mem _ (List.mem_map_of_mem he)))
  obtain ⟨hn, he⟩ := insert_isSome_iff.1 ⟨t', h⟩
  obtain ⟨u', hu'⟩ : ∃ u', u.insert? r = some u' :=
    insert_isSome_iff.2 ⟨hrow.trans hn, fun e hm => (hent e hm).trans (he e hm)⟩
  refine ⟨u', hu', fun k hk => ?_⟩
  rcases List.mem_cons.1 hk with rfl | hk
  · exact congrArg TableCell.row ((get_insert hu').trans (get_insert h).symm)
  · obtain ⟨e, he, rfl⟩ := List.mem_map.1 hk
    exact congrArg TableCell.entry ((owner_insert hu' he).trans (owner_insert h he).symm)

/-! ## Updating one row -/

def updateLocks (i : Id) (f : Row → Row) (t : Table Row) : List (Lock Id Entry) :=
  .row i :: match t.get i with
    | none => []
    | some r => (moved r (f r)).map .entry

/-- The entries of the updated row are its own. -/
theorem owner_update (h : t.update? i f = some t') (hf : KeepsId f) (hr : t.get i = some r)
    (he : e ∈ entries (f r)) : t'.owner e = some i :=
  owner_eq_some.2 ⟨f r, mem_update_self h hr, he, (hf r).trans (get_eq_some.1 hr).2⟩

/-- An entry that the updated row does not have belongs to another row, as before. -/
theorem owner_update_other (h : t.update? i f = some t') (hf : KeepsId f)
    (hr : ∀ r, t.get i = some r → e ∉ entries (f r)) {j : Id} :
    t'.owner e = some j ↔ t.owner e = some j ∧ j ≠ i := by
  rw [owner_eq_some, owner_eq_some]
  constructor
  · rintro ⟨b, hb, heb, rfl⟩
    obtain ⟨a, ha, rfl⟩ := (mem_update h).1 hb
    by_cases hai : Keyed.id a = i
    · rw [if_pos hai] at heb
      exact absurd heb (hr a (get_eq_some.2 ⟨ha, hai⟩))
    · rw [if_neg hai] at heb ⊢
      exact ⟨⟨a, ha, heb, rfl⟩, hai⟩
  · rintro ⟨⟨b, hb, heb, rfl⟩, hne⟩
    exact ⟨b, (mem_update_other h hf hne).2 hb, heb, rfl⟩

/-- **An update changes nothing outside its locks.** -/
theorem update_frame (h : t.update? i f = some t') (hf : KeepsId f) {k : Lock Id Entry}
    (hk : k ∉ updateLocks i f t) : t'.cell k = t.cell k := by
  cases k with
  | row j =>
    have hj : j ≠ i := fun he => hk (by rw [he]; exact List.mem_cons_self)
    exact congrArg TableCell.row (get_update_ne h hf hj)
  | entry e =>
    refine congrArg TableCell.entry ?_
    cases hr : t.get i with
    | none =>
      -- nothing was updated
      apply Option.ext
      intro j
      rw [owner_update_other h hf fun r hr' => by rw [hr] at hr'; cases hr']
      refine and_iff_left_of_imp fun ho he => ?_
      obtain ⟨b, hb, -, hbi⟩ := owner_eq_some.1 ho
      exact get_eq_none.1 hr b hb (hbi.trans he)
    | some r =>
      have hmoved : e ∉ moved r (f r) := by
        intro hm
        apply hk
        rw [updateLocks, hr]
        exact List.mem_cons_of_mem _ (List.mem_map_of_mem hm)
      rw [mem_moved, not_or, not_and_not_right, not_and] at hmoved
      obtain ⟨hmem, hid⟩ := get_eq_some.1 hr
      by_cases he : e ∈ entries r
      · rw [owner_update h hf hr (hmoved.1 he)]
        exact (owner_eq_some.2 ⟨r, hmem, he, hid⟩).symm
      · apply Option.ext
        intro j
        rw [owner_update_other h hf fun r' hr' => by rw [hr] at hr'; cases hr'; exact hmoved.2 he]
        refine and_iff_left_of_imp fun ho hj => ?_
        obtain ⟨b, hb, heb, hbi⟩ := owner_eq_some.1 ho
        have hbr : b = r := eq_of_id hb hmem (hbi.trans (hj.trans hid.symm))
        exact he (hbr ▸ heb)

/-- An update is refused exactly where an entry that it adds has an owner. -/
theorem update_isSome_iff (hf : KeepsId f) : (∃ t', t.update? i f = some t') ↔
    ∀ r, t.get i = some r → ∀ e ∈ entries (f r), e ∉ entries r → t.owner e = none := by
  constructor
  · rintro ⟨t', h⟩ r hr e he hne
    refine owner_eq_none.2 fun b hb heb => ?_
    obtain ⟨hmem, hid⟩ := get_eq_some.1 hr
    have hbi : Keyed.id b ≠ i := fun hbi => hne (eq_of_id hb hmem (hbi.trans hid.symm) ▸ heb)
    have hsame : b = f r := eq_of_entry ((mem_update_other h hf hbi).2 hb) (mem_update_self h hr) heb he
    exact hbi (by rw [hsame, hf r, hid])
  · intro h
    have hpair : (t.rows.map fun r => if decide (Keyed.id r = i) = true then f r else r).Pairwise
        fun a b => ¬ Clash a b := by
      refine List.pairwise_map.2 (t.apart.imp_of_mem fun {a b} ha hb hab hc => ?_)
      simp only [decide_eq_true_eq] at hc
      have hids : Keyed.id a ≠ Keyed.id b := fun he => hab (Keyed.clash_iff.2 (Or.inl he))
      have idOf : ∀ c : Row, Keyed.id (if Keyed.id c = i then f c else c) = Keyed.id c := by
        intro c
        split
        · exact hf c
        · rfl
      rcases Keyed.clash_iff.1 hc with he | ⟨e, hea, heb⟩
      · rw [idOf, idOf] at he; exact hids he
      -- at most one of the two rows is the updated one
      by_cases hai : Keyed.id a = i
      · have hbi : ¬ Keyed.id b = i := fun hbi => hids (hai.trans hbi.symm)
        rw [if_pos hai] at hea
        rw [if_neg hbi] at heb
        by_cases he : e ∈ entries a
        · exact hab (Keyed.clash_iff.2 (Or.inr ⟨e, he, heb⟩))
        · exact owner_eq_none.1 (h a (get_eq_some.2 ⟨ha, hai⟩) e hea he) b hb heb
      · rw [if_neg hai] at hea
        by_cases hbi : Keyed.id b = i
        · rw [if_pos hbi] at heb
          by_cases he : e ∈ entries b
          · exact hab (Keyed.clash_iff.2 (Or.inr ⟨e, hea, he⟩))
          · exact owner_eq_none.1 (h b (get_eq_some.2 ⟨hb, hbi⟩) e heb he) a ha hea
        · rw [if_neg hbi] at heb
          exact hab (Keyed.clash_iff.2 (Or.inr ⟨e, hea, heb⟩))
    exact ⟨⟨_, hpair⟩, updateWhere_eq_some.2 rfl⟩

/-- **An update depends on nothing outside its locks.** -/
theorem update_under (h : t.update? i f = some t') (hf : KeepsId f)
    (hu : ∀ k ∈ updateLocks i f t, u.cell k = t.cell k) :
    updateLocks i f u = updateLocks i f t ∧
      ∃ u', u.update? i f = some u' ∧ ∀ k ∈ updateLocks i f t, u'.cell k = t'.cell k := by
  have hrow : u.get i = t.get i := TableCell.row.inj (hu (.row i) List.mem_cons_self)
  have hent : ∀ r, t.get i = some r → ∀ e ∈ moved r (f r), u.owner e = t.owner e := by
    intro r hr e he
    refine TableCell.entry.inj (hu (.entry e) ?_)
    rw [updateLocks, hr]
    exact List.mem_cons_of_mem _ (List.mem_map_of_mem he)
  obtain ⟨u', hu'⟩ : ∃ u', u.update? i f = some u' := by
    refine (update_isSome_iff hf).2 fun r hr e he hne => ?_
    rw [hrow] at hr
    rw [hent r hr e (mem_moved.2 (Or.inr ⟨hne, he⟩))]
    exact (update_isSome_iff hf).1 ⟨t', h⟩ r hr e he hne
  refine ⟨by rw [updateLocks, updateLocks, hrow], u', hu', fun k hk => ?_⟩
  rcases List.mem_cons.1 hk with rfl | hk
  · refine congrArg TableCell.row ?_
    rw [get_update hu' hf, get_update h hf, hrow]
  · cases hr : t.get i with
    | none => rw [hr] at hk; cases hk
    | some r =>
      rw [hr] at hk
      obtain ⟨e, he, rfl⟩ := List.mem_map.1 hk
      refine congrArg TableCell.entry ?_
      by_cases hnew : e ∈ entries (f r)
      · rw [owner_update hu' hf (hrow.trans hr) hnew, owner_update h hf hr hnew]
      · -- an entry that the row gives up
        have freed : ∀ {v v' : Table Row}, v.get i = some r → v.update? i f = some v' →
            v'.owner e = none := by
          intro v v' hv hv'
          have her : e ∈ entries r := by
            rcases mem_moved.1 he with ⟨her, -⟩ | ⟨-, hef⟩
            · exact her
            · exact absurd hef hnew
          obtain ⟨hmem, hid⟩ := get_eq_some.1 hv
          cases ho : v'.owner e with
          | none => rfl
          | some j =>
            obtain ⟨ho, hji⟩ := (owner_update_other hv' hf fun r' hr' => by
              rw [hv] at hr'; cases hr'; exact hnew).1 ho
            have hown : v.owner e = some i := owner_eq_some.2 ⟨r, hmem, her, hid⟩
            rw [hown] at ho
            exact absurd (Option.some.inj ho).symm hji
        rw [freed (hrow.trans hr) hu', freed hr h]

/-- An update that moves no entry locks its row only, and is never refused. -/
theorem updateLocks_of_entries (hf : ∀ r : Row, entries (f r) = entries r) :
    updateLocks i f t = [.row i] := by
  unfold updateLocks
  cases t.get i with
  | none => rfl
  | some r =>
    have hmoved : moved r (f r) = ([] : List Entry) := by
      refine List.eq_nil_iff_forall_not_mem.2 fun e he => ?_
      rw [mem_moved, hf r] at he
      rcases he with ⟨h, hn⟩ | ⟨hn, h⟩
      · exact hn h
      · exact hn h
    simp only [hmoved, List.map_nil]

end Table

/-! ## One table of several -/

/-- How a table sits in a state of several: its locks among the keys, and what stands
under them. -/
structure Component (Row : Type) {Id Entry State Key Cell : Type} [DecidableEq Id]
    [DecidableEq Entry] [Constrained Row] [Keyed Row Id Entry] (cell : State → Key → Cell) where
  table : State → Table Row
  put : Table Row → State → State
  key : Lock Id Entry → Key
  wrap : TableCell Row Id → Cell
  wrap_inj : ∀ {a b}, wrap a = wrap b → a = b
  table_put : ∀ t s, table (put t s) = t
  cell_key : ∀ s k, cell s (key k) = wrap ((table s).cell k)
  cell_put : ∀ t s {k}, (∀ l, k ≠ key l) → cell (put t s) k = cell s k

namespace Component

variable [DecidableEq Id] [DecidableEq Entry] {State Key Cell : Type} {cell : State → Key → Cell}
  (C : Component Row cell)
  {s s' u : State} {r : Row} {i : Id} {f : Row → Row}

def insert? (r : Row) (s : State) : Option State :=
  ((C.table s).insert? r).map fun t => C.put t s

def update? (i : Id) (f : Row → Row) (s : State) : Option State :=
  ((C.table s).update? i f).map fun t => C.put t s

/-- The locks of an insert and of an update, among those of all tables. -/
def insertLocks (r : Row) : List Key := (Table.insertLocks r).map C.key

def updateLocks (i : Id) (f : Row → Row) (s : State) : List Key :=
  (Table.updateLocks i f (C.table s)).map C.key

variable {C}

/-- States that agree under a lock of the table have the same there. -/
theorem cell_congr {k : Lock Id Entry} (h : cell u (C.key k) = cell s (C.key k)) :
    (C.table u).cell k = (C.table s).cell k := by
  rw [C.cell_key, C.cell_key] at h
  exact C.wrap_inj h

theorem get_congr (h : cell u (C.key (.row i)) = cell s (C.key (.row i))) :
    (C.table u).get i = (C.table s).get i :=
  TableCell.row.inj (cell_congr h)

theorem owner_congr {e : Entry} (h : cell u (C.key (.entry e)) = cell s (C.key (.entry e))) :
    (C.table u).owner e = (C.table s).owner e :=
  TableCell.entry.inj (cell_congr h)

/-- **Locks that a row decides**, and its own among them: where they are held the row is the
same, and so are they. -/
theorem row_under {locks : State → List Key} {L : List Key} {o : Option Row}
    (hL : ∀ {v : State}, (C.table v).get i = o → locks v = L) (hrow : C.key (.row i) ∈ L)
    (hs : (C.table s).get i = o) (hu : ∀ k ∈ locks s, cell u k = cell s k) :
    (C.table u).get i = o ∧ locks u = locks s := by
  have hget : (C.table u).get i = o := by
    refine (get_congr (hu _ ?_)).trans hs
    rw [hL hs]
    exact hrow
  exact ⟨hget, (hL hget).trans (hL hs).symm⟩

/-- The same of locks that the owner of an index entry decides. -/
theorem owner_under {locks : State → List Key} {L : List Key} {e : Entry} {o : Option Id}
    (hL : ∀ {v : State}, (C.table v).owner e = o → locks v = L) (hentry : C.key (.entry e) ∈ L)
    (hs : (C.table s).owner e = o) (hu : ∀ k ∈ locks s, cell u k = cell s k) :
    (C.table u).owner e = o ∧ locks u = locks s := by
  have howner : (C.table u).owner e = o := by
    refine (owner_congr (hu _ ?_)).trans hs
    rw [hL hs]
    exact hentry
  exact ⟨howner, (hL howner).trans (hL hs).symm⟩

/-- A change of the table, key by key: outside it, and at each of its locks. -/
theorem put_frame {t : Table Row} {locks : List (Lock Id Entry)}
    (h : ∀ l, l ∉ locks → t.cell l = (C.table s).cell l) {k : Key} (hk : k ∉ locks.map C.key) :
    cell (C.put t s) k = cell s k := by
  by_cases hl : ∃ l, k = C.key l
  · obtain ⟨l, rfl⟩ := hl
    have hnot : l ∉ locks := fun hm => hk (List.mem_map_of_mem hm)
    rw [C.cell_key, C.cell_key, C.table_put, h l hnot]
  · exact C.cell_put t s fun l he => hl ⟨l, he⟩

theorem put_under {t t' : Table Row} {locks : List (Lock Id Entry)}
    (h : ∀ l ∈ locks, t'.cell l = t.cell l) {k : Key} (hk : k ∈ locks.map C.key) :
    cell (C.put t' u) k = cell (C.put t s) k := by
  obtain ⟨l, hl, rfl⟩ := List.mem_map.1 hk
  rw [C.cell_key, C.cell_key, C.table_put, C.table_put, h l hl]

/-- A statement that is one insert or update: its answer, and the state it leaves. -/
theorem answers_eq_some {α : Type} {a b : α} {o : Option State}
    (h : (o.map fun t => (b, t)) = some (a, s')) : a = b ∧ o = some s' := by
  obtain ⟨s₁, hs₁, he⟩ := Option.map_eq_some_iff.1 h
  cases he
  exact ⟨rfl, hs₁⟩

theorem insert_eq_some (h : C.insert? r s = some s') :
    ∃ t, (C.table s).insert? r = some t ∧ s' = C.put t s := by
  obtain ⟨t, ht, rfl⟩ := Option.map_eq_some_iff.1 h
  exact ⟨t, ht, rfl⟩

theorem update_eq_some (h : C.update? i f s = some s') :
    ∃ t, (C.table s).update? i f = some t ∧ s' = C.put t s := by
  obtain ⟨t, ht, rfl⟩ := Option.map_eq_some_iff.1 h
  exact ⟨t, ht, rfl⟩

theorem insert_frame (h : C.insert? r s = some s') {k : Key} (hk : k ∉ C.insertLocks r) :
    cell s' k = cell s k := by
  obtain ⟨t, ht, rfl⟩ := Option.map_eq_some_iff.1 h
  exact put_frame (fun l hl => Table.insert_frame ht hl) hk

theorem insert_under (h : C.insert? r s = some s')
    (hu : ∀ k ∈ C.insertLocks r, cell u k = cell s k) :
    ∃ u', C.insert? r u = some u' ∧ ∀ k ∈ C.insertLocks r, cell u' k = cell s' k := by
  obtain ⟨t, ht, rfl⟩ := Option.map_eq_some_iff.1 h
  obtain ⟨t', ht', hcell⟩ := Table.insert_under ht fun l hl =>
    cell_congr (hu (C.key l) (List.mem_map_of_mem hl))
  exact ⟨C.put t' u, by rw [insert?, ht']; rfl, fun k hk => put_under hcell hk⟩

theorem update_frame (h : C.update? i f s = some s') (hf : Table.KeepsId f) {k : Key}
    (hk : k ∉ C.updateLocks i f s) : cell s' k = cell s k := by
  obtain ⟨t, ht, rfl⟩ := Option.map_eq_some_iff.1 h
  exact put_frame (fun l hl => Table.update_frame ht hf hl) hk

theorem update_under (h : C.update? i f s = some s') (hf : Table.KeepsId f)
    (hu : ∀ k ∈ C.updateLocks i f s, cell u k = cell s k) :
    C.updateLocks i f u = C.updateLocks i f s ∧
      ∃ u', C.update? i f u = some u' ∧ ∀ k ∈ C.updateLocks i f s, cell u' k = cell s' k := by
  obtain ⟨t, ht, rfl⟩ := Option.map_eq_some_iff.1 h
  obtain ⟨hlocks, t', ht', hcell⟩ := Table.update_under ht hf fun l hl =>
    cell_congr (hu (C.key l) (List.mem_map_of_mem hl))
  exact ⟨congrArg (List.map C.key) hlocks, C.put t' u, by rw [update?, ht']; rfl,
    fun k hk => put_under hcell hk⟩

/-- **The same under any further locks**: an insert leaves alone what stands there. -/
theorem insert_under_of {L : List Key} (h : C.insert? r s = some s')
    (hL : ∀ k ∈ C.insertLocks r, k ∈ L) (hu : ∀ k ∈ L, cell u k = cell s k) :
    ∃ u', C.insert? r u = some u' ∧ ∀ k ∈ L, cell u' k = cell s' k := by
  obtain ⟨u', hu', hcell⟩ := insert_under h fun k hk => hu k (hL k hk)
  refine ⟨u', hu', fun k hk => ?_⟩
  by_cases hin : k ∈ C.insertLocks r
  · exact hcell k hin
  · rw [insert_frame hu' hin, insert_frame h hin]
    exact hu k hk

/-- An update that moves no index entry locks its row only. -/
theorem update_frame_row (h : C.update? i f s = some s') (hf : Table.KeepsId f)
    (he : ∀ r : Row, Keyed.entries (f r) = Keyed.entries r) {k : Key} (hk : k ≠ C.key (.row i)) :
    cell s' k = cell s k := by
  refine update_frame h hf ?_
  rw [updateLocks, Table.updateLocks_of_entries he]
  simpa using hk

theorem update_under_of {L : List Key} (h : C.update? i f s = some s') (hf : Table.KeepsId f)
    (he : ∀ r : Row, Keyed.entries (f r) = Keyed.entries r) (hL : C.key (.row i) ∈ L)
    (hu : ∀ k ∈ L, cell u k = cell s k) :
    ∃ u', C.update? i f u = some u' ∧ ∀ k ∈ L, cell u' k = cell s' k := by
  have hlocks : C.updateLocks i f s = [C.key (.row i)] := by
    rw [updateLocks, Table.updateLocks_of_entries he]; rfl
  have hrow : ∀ k ∈ C.updateLocks i f s, cell u k = cell s k := by
    intro k hk
    rw [hlocks, List.mem_singleton] at hk
    rw [hk]
    exact hu _ hL
  obtain ⟨-, u', hu', hcell⟩ := update_under h hf hrow
  refine ⟨u', hu', fun k hk => ?_⟩
  by_cases hin : k = C.key (.row i)
  · exact hcell k (by rw [hlocks, hin]; exact List.mem_singleton_self _)
  · rw [update_frame_row hu' hf he hin, update_frame_row h hf he hin]
    exact hu k hk

end Component

end Sql
