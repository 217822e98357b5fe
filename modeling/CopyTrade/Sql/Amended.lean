import CopyTrade.Sql.Keyed
import CopyTrade.Sql.Transactions

/-!
# What the commits make of one row

A row that is there stays there, and each statement makes a new row of it. What it is after a serial
history is what the statements make of it, one after the other in the order of the commits.

* `Amending`: what is read of the state, and what a statement makes of it.
* `Amending.since`: what a history makes of it.
* `Amending.serial`: **so it is read after the history**.
* `Amending.since_inv`, `Amending.since_keeps`: what the statements of the history keep.
* `Updating`: a table whose rows are inserted and updated. `Updating.amending`: each of its rows is one
  that the statements amend.
-/

namespace Sql

variable {S : Schema} {Row β : Type}

/-- A row that is read of the state, and what each statement makes of it. -/
structure Amending (S : Schema) (Row : Type) where
  read : S.State → Option Row
  change : ℤ → Did S → Row → Row
  plain : ∀ now d r, ¬ S.pinned d.stmt d.answer = true → change now d r = r
  exec : ∀ {now d s t r}, S.exec d.stmt now s = some (d.answer, t) → read s = some r →
    read t = some (change now d r)
  query : ∀ {now q a s t r}, S.query q now s = some (a, t) → read s = some r → read t = some r

namespace Amending

variable (A : Amending S Row)

/-- What a transaction makes of a row. -/
def within (now : ℤ) (did : List (Did S)) (r : Row) : Row := did.foldl (fun r d => A.change now d r) r

/-- What a history makes of a row. It lists the latest commit first. -/
def since : List (Commit S) → Row → Row
  | [], r => r
  | .transaction _ began did :: cs, r => A.within began did (since cs r)
  | .query _ _ _ :: cs, r => since cs r

variable {A} {now : ℤ} {held : List S.Key} {did : List (Did S)} {cs : List (Commit S)} {t : S.State}

theorem runs : ∀ {s : S.State} {r : Row}, Runs now held did s t → A.read s = some r →
    A.read t = some (A.within now did r) := by
  induction did with
  | nil => intro s r h hr; cases h; exact hr
  | cons d did ih =>
    intro s r h hr
    by_cases hd : S.pinned d.stmt d.answer = true
    · obtain ⟨-, u, hu, hruns⟩ := (Runs.of_pinned hd).1 h
      exact ih hruns (A.exec hu hr)
    · have hsame := A.plain now d r hd
      have hrest := ih ((Runs.of_plain hd).1 h) hr
      unfold within
      rw [List.foldl_cons, hsame]
      exact hrest

/-- **After a serial history** the row is what the history makes of it. -/
theorem serial {s₀ : S.State} {r : Row} (hr : A.read s₀ = some r) :
    ∀ {t : S.State}, Serial s₀ cs t → A.read t = some (A.since cs r) := by
  induction cs with
  | nil => intro t h; cases h; exact hr
  | cons c cs ih =>
    intro t h
    obtain ⟨s, hs, hturns⟩ := h
    have hread := ih hs
    cases c with
    | transaction tx began did =>
      obtain ⟨held, hruns⟩ := hturns
      exact runs hruns hread
    | query now q a => exact A.query hturns hread

/-- What every statement of the history keeps. -/
theorem since_inv {P : Row → Prop}
    (hkeeps : ∀ tx began did, Commit.transaction tx began did ∈ cs → ∀ d ∈ did, ∀ r, P r →
      P (A.change began d r)) {r : Row} (hr : P r) : P (A.since cs r) := by
  have hwithin : ∀ began did, (∀ d ∈ did, ∀ r, P r → P (A.change began d r)) →
      ∀ r, P r → P (A.within began did r) := by
    intro began did
    induction did with
    | nil => intro _ r hr; exact hr
    | cons d did ih =>
      intro h r hr
      have hfirst := h d List.mem_cons_self r hr
      exact ih (fun d hd => h d (List.mem_cons_of_mem _ hd)) _ hfirst
  induction cs with
  | nil => exact hr
  | cons c cs ih =>
    have holder := ih fun tx began did hmem => hkeeps tx began did (List.mem_cons_of_mem _ hmem)
    cases c with
    | transaction tx began did => exact hwithin began did (hkeeps tx began did List.mem_cons_self) _ holder
    | query now q a => exact holder

/-- What is read of the row by `g` stays, where no statement of the history changes it. -/
theorem since_keeps {g : Row → β}
    (hg : ∀ tx began did, Commit.transaction tx began did ∈ cs → ∀ d ∈ did, ∀ r,
      g (A.change began d r) = g r) (r : Row) : g (A.since cs r) = g r :=
  since_inv (P := fun r' => g r' = g r)
    (fun tx began did hmem d hd r' hr' => (hg tx began did hmem d hd r').trans hr') rfl

variable (A) in
/-- What the commits since have made of `after`; and what none of them changes is as it was. -/
def Stands (newer : List (Commit S)) (after : Row) (s : S.State) : Prop :=
  A.read s = some (A.since newer after) ∧
    ∀ (β : Type) (g : Row → β), (∀ tx began did, Commit.transaction tx began did ∈ newer → ∀ d ∈ did,
      ∀ r, g (A.change began d r) = g r) → g (A.since newer after) = g after

/-- **What was read once** is what the later commits had to begin with. -/
theorem stands {s : S.State} {after : Row} (h : A.read s = some after) (hserial : Serial s cs t) :
    A.Stands cs after t :=
  ⟨serial h hserial, fun _ _ hg => since_keeps hg after⟩

end Amending

/-! ## The rows of a table -/

section Rows

variable {Id Entry : Type} [DecidableEq Id] {update : Option (Id × (Row → Row))} {i : Id} {r : Row}

/-- What an update makes of the row `i`. -/
def amend (update : Option (Id × (Row → Row))) (i : Id) (r : Row) : Row :=
  match update with
  | some (j, f) => if j = i then f r else r
  | none => r

/-- What is true of a row stays so, unless the update is one of this row and breaks it. -/
theorem amend_keeps {P : Row → Prop} (hr : P r) (h : ∀ f, update = some (i, f) → P (f r)) :
    P (amend update i r) := by
  unfold amend
  split
  · rename_i j f
    by_cases hij : j = i
    · subst hij
      rw [if_pos rfl]
      exact h f rfl
    · rw [if_neg hij]
      exact hr
  · exact hr

variable [Constrained Row] [Keyed Row Id Entry] {u v : Table Row}

/-- What a statement does to a table: nothing, or it inserts a row, or it updates one. -/
inductive RowStep (update : Option (Id × (Row → Row))) (u v : Table Row) : Prop
  | same (hnone : update = none) (h : v = u)
  | inserted (r : Row) (hnone : update = none) (h : u.insert? r = some v)
  | updated (i : Id) (f : Row → Row) (hsome : update = some (i, f)) (hf : Table.KeepsId f)
      (h : u.update? i f = some v)

/-- **A row that is there** is what the update makes of it, and no insert touches it. -/
theorem RowStep.get (h : RowStep update u v) (hr : u.get i = some r) :
    v.get i = some (amend update i r) := by
  cases h with
  | same hnone h =>
    rw [hnone, h]
    exact hr
  | inserted r' hnone h =>
    obtain ⟨hmem, hid⟩ := Table.get_eq_some.1 hr
    rw [hnone]
    exact Table.get_eq_some.2 ⟨(Table.mem_insert h).2 (Or.inl hmem), hid⟩
  | updated j f hsome hf h =>
    have hamend : amend (some (j, f)) i r = if j = i then f r else r := rfl
    rw [hsome, hamend]
    by_cases hij : j = i
    · subst hij
      rw [Table.get_update h hf, hr, if_pos rfl]
      rfl
    · rw [Table.get_update_ne h hf (Ne.symm hij), hr, if_neg hij]

variable (S Row Id) in
/-- A table of the state that grows by inserts, and the row that a statement updates, if its answer has
one. -/
structure Updating where
  table : S.State → Table Row
  update : ℤ → Did S → Option (Id × (Row → Row))
  plain : ∀ now d, ¬ S.pinned d.stmt d.answer = true → update now d = none
  step : ∀ {now d s t}, S.exec d.stmt now s = some (d.answer, t) →
    RowStep (update now d) (table s) (table t)
  query : ∀ {now q a s t}, S.query q now s = some (a, t) → table t = table s

/-- The row of an id. -/
def Updating.amending (U : Updating S Row Id) (i : Id) : Amending S Row where
  read s := (U.table s).get i
  change now d r := amend (U.update now d) i r
  plain now d r hd := congrArg (fun update => amend update i r) (U.plain now d hd)
  exec h hr := (U.step h).get hr
  query h hr := (congrArg (fun u : Table Row => u.get i) (U.query h)).trans hr

end Rows

end Sql
