import CopyTrade.Async.Begun
import CopyTrade.Sql.Client

/-!
# What an execution has committed

The discipline of `Sql.Client` with a note of the statements of the transaction that an
execution committed last.

* `noted`, `noted_run`, `noted_transaction`, `noted_withConnection`: the discipline, and its
  rules, block by block.
* `Kept.committed`: a commit of the discipline puts into the history what its execution did.
* `Kept.note_serve`: how the notes move with the history.
* `Kept.commits`: what a call does to the tables, by the discipline of its own execution.
-/

namespace Sql

open Async (Prog Protocol Entry Machine Fault Pool)

variable {S : Schema} {Name Exn α : Type}

/-- The statements of an execution's open transaction, and those that it committed last. -/
abbrev Note (S : Schema) := Mirror S × Option (List (Did S))

/-- A commit that was answered is taken note of. -/
def noteCommit (l : Mirror S) (n : Option (List (Did S))) :
    (c : Call S) → (Client S Name Exn).Reply c → Option (List (Did S))
  | .commit _, .ok _ => l.map Prod.snd
  | .commit _, .error _ => n
  | _, _ => n

def noted (complete : List (Did S) → Prop) (queries : S.Query → Prop) :
    Protocol (Client S Name Exn) (Note S) :=
  (discipline complete queries).noting noteCommit

variable {complete : List (Did S) → Prop} {queries : S.Query → Prop}

section Obeys

variable {Q : Note S → α → Prop} {X : Note S → Exn → Prop} {n : Option (List (Did S))}

/-- **A statement of a transaction.** -/
theorem noted_run {tx : ℕ} {ds : List (Did S)} {c : S.Stmt} {Q : Note S → S.Ret c → Prop}
    (h : ∀ a, Q (some (tx, ds ++ [⟨c, a⟩]), n) a) (hX : ∀ e, X (none, n) e) :
    (run tx c : Prog (Client S Name Exn) _).Obeys (noted complete queries) (some (tx, ds), n) Q X :=
  Prog.obeys_call (P := noted complete queries) (c := .run tx c) ⟨ds, rfl⟩ h hX

/-- **A transaction block** that returns has committed its statements. -/
theorem noted_transaction {body : ℕ → Prog (Client S Name Exn) α} {R : List (Did S) → α → Prop}
    (h : ∀ tx, (body tx).Obeys (noted complete queries) (some (tx, []), n)
      (fun l a => ∃ ds, l = (some (tx, ds), n) ∧ complete ds ∧ R ds a) fun _ _ => True) :
    (transaction body).Obeys (noted complete queries) (none, n)
      (fun l a => ∃ ds, l = (none, some ds) ∧ R ds a) fun l _ => l.1 = none := by
  unfold transaction
  refine Prog.obeys_bind (Prog.obeys_call trivial (fun tx => ?_) fun e => rfl)
  refine Prog.obeys_bind (Prog.obeys_tryExcept ?_)
  refine (h tx).mono (fun l a hl => ?_) fun l e _ => ?_
  · obtain ⟨ds, rfl, hds, hR⟩ := hl
    exact Prog.obeys_bind (Prog.obeys_call ⟨ds, rfl, hds⟩ (fun _ => ⟨ds, rfl, hR⟩) fun e => rfl)
  · exact Prog.obeys_bind (Prog.obeys_call trivial (fun _ => rfl) fun e => rfl)

/-- **A connection block** has committed what its body has. -/
theorem noted_withConnection {body : Prog (Client S Name Exn) α} {R : List (Did S) → α → Prop}
    (h : body.Obeys (noted complete queries) (none, n)
      (fun l a => ∃ ds, l = (none, some ds) ∧ R ds a) fun l _ => l.1 = none) :
    (withConnection body).Obeys (noted complete queries) (none, n)
      (fun l a => ∃ ds, l = (none, some ds) ∧ R ds a) fun l _ => l.1 = none := by
  unfold withConnection
  refine Prog.obeys_bind (Prog.obeys_call trivial (fun _ => ?_) fun e => rfl)
  refine Prog.obeys_bind (Prog.obeys_tryExcept ?_)
  refine h.mono (fun l a hl => ?_) fun l e hl => ?_
  · obtain ⟨ds, rfl, hR⟩ := hl
    exact Prog.obeys_bind (Prog.obeys_call trivial (fun _ => ⟨ds, rfl, hR⟩) fun e => rfl)
  · exact Prog.obeys_bind (Prog.obeys_call trivial (fun _ => hl) fun e => hl)

/-- **A statement by itself.** -/
theorem noted_query {q : S.Query} {l : Note S} {Q : Note S → S.Answer q → Prop} (hq : queries q)
    (h : ∀ a, Q l a) : (query q : Prog (Client S Name Exn) _).Obeys (noted complete queries) l Q
      fun _ _ => True :=
  Prog.obeys_call (P := noted complete queries) (c := .query q) hq h fun _ => trivial

/-- A connection block does what its body does, where nothing is said of its exceptions. -/
theorem noted_connection {body : Prog (Client S Name Exn) α} {l : Note S}
    (h : body.Obeys (noted complete queries) l Q fun _ _ => True) :
    (withConnection body).Obeys (noted complete queries) l Q fun _ _ => True := by
  unfold withConnection
  refine Prog.obeys_bind (Prog.obeys_call trivial (fun _ => ?_) fun e => trivial)
  refine Prog.obeys_bind (Prog.obeys_tryExcept (h.mono (fun l a hl => ?_) fun l e _ => ?_))
  · exact Prog.obeys_bind (Prog.obeys_call trivial (fun _ => hl) fun e => trivial)
  · exact Prog.obeys_bind (Prog.obeys_call trivial (fun _ => trivial) fun e => trivial)

end Obeys

/-! ## Any interleaving -/

section Run

variable {s₀ : S.State} {w w' : Server S Name} {tr : List (Entry (Client S Name Exn))}

/-- The mirrors of the discipline are those of the notes. -/
theorem noted_at (tr : List (Entry (Client S Name Exn))) (i : ℕ) :
    ((noted complete queries).at (none, none) tr i).1 = (discipline complete queries).at none tr i :=
  Async.noting_at tr i

/-- The notes do not depend on what is allowed. -/
theorem noted_same {C C' : List (Did S) → Prop} {Qs Qs' : S.Query → Prop} {l : Note S}
    (tr : List (Entry (Client S Name Exn))) (i : ℕ) :
    (noted C Qs).at l tr i = (noted C' Qs').at l tr i := by
  induction tr with
  | nil => rfl
  | cons e tr ih =>
    by_cases he : e.who = i
    · simp only [Protocol.at, if_pos he, ih]
      rfl
    · simp only [Protocol.at, if_neg he, ih]

/-- A commit of `i` that the discipline allows, where it takes effect: the history gets what
`i` did. -/
theorem Kept.committed (h : Kept (discipline complete queries) complete queries s₀ w tr) {i tx : ℕ}
    {ds : List (Did S)} (hi : (discipline complete queries).at none tr i = some (tx, ds))
    {db : Database S} (hc : w.db.commit? tx = some db) :
    ∃ began, db.history = .transaction tx began ds :: w.db.history ∧
      (Commit.transaction tx began ds).Turns w.db.current db.current := by
  obtain ⟨o, s, ho, hs, rfl⟩ := Database.commit_cases hc
  obtain ⟨-, hds⟩ := h.mirrors i tx ds hi
  obtain ⟨t, ht⟩ := h.sound.runs ho
  have hts : t = s := Option.some.inj (ht.replay_eq.symm.trans hs)
  rw [hts] at ht
  rw [hds o ho] at ht
  refine ⟨o.began, ?_, o.held, ht⟩
  show Commit.transaction tx o.began o.did :: w.db.history = _
  rw [hds o ho]

/-- What execution `i` committed last. -/
def lastCommit (tr : List (Entry (Client S Name Exn))) (i : ℕ) : Option (List (Did S)) :=
  ((noted (fun _ => True) fun _ => True).at (none, none) tr i).2

variable (complete queries) in
theorem lastCommit_self (tr : List (Entry (Client S Name Exn))) (i : ℕ) (c : Call S)
    (r : (Client S Name Exn).Reply c) : lastCommit (⟨i, c, r⟩ :: tr) i =
      noteCommit ((discipline complete queries).at none tr i) (lastCommit tr i) c r := by
  unfold lastCommit
  rw [Protocol.at_self, ← noted_at, noted_same tr i]
  rfl

theorem lastCommit_other (tr : List (Entry (Client S Name Exn))) {e : Entry (Client S Name Exn)}
    {i : ℕ} (h : e.who ≠ i) : lastCommit (e :: tr) i = lastCommit tr i := by
  unfold lastCommit
  rw [Protocol.at_other tr h]

/-- **The notes move with the history**: with a commit that is answered, and with no other
call. -/
theorem Kept.note_serve (h : Kept (discipline complete queries) complete queries s₀ w tr) {i : ℕ}
    {c : Call S} {f : Fault Exn} {r : (Client S Name Exn).Reply c}
    (hc : (discipline complete queries : Protocol (Client S Name Exn) _).allow
      ((discipline complete queries).at none tr i) c)
    (hs : (server S Name Exn).serve c f w = some (r, w')) :
    (∀ j, lastCommit (⟨i, c, r⟩ :: tr) j = lastCommit tr j) ∨
      ∃ tx began ds, lastCommit (⟨i, c, r⟩ :: tr) i = some ds ∧ complete ds ∧
        (∀ j, j ≠ i → lastCommit (⟨i, c, r⟩ :: tr) j = lastCommit tr j) ∧
        w'.db.history = .transaction tx began ds :: w.db.history ∧
        (Commit.transaction tx began ds).Turns w.db.current w'.db.current := by
  have other : ∀ j, j ≠ i → lastCommit (⟨i, c, r⟩ :: tr) j = lastCommit tr j := fun j hj =>
    lastCommit_other tr (Ne.symm hj)
  have still : noteCommit ((discipline complete queries).at none tr i) (lastCommit tr i) c r =
      lastCommit tr i → ∀ j, lastCommit (⟨i, c, r⟩ :: tr) j = lastCommit tr j := by
    intro hnote j
    rcases eq_or_ne j i with rfl | hne
    · rw [lastCommit_self complete queries]
      exact hnote
    · exact other j hne
  cases c with
  | commit tx =>
    cases r with
    | error e => exact Or.inl (still rfl)
    | ok a =>
      obtain ⟨-, ha⟩ := Machine.serve_ok hs
      obtain ⟨db, hcom, he⟩ := Option.map_eq_some_iff.1 ha
      cases he
      obtain ⟨ds, hds, hcomplete⟩ := hc
      obtain ⟨began, hist, hturns⟩ := h.committed hds hcom
      refine Or.inr ⟨tx, began, ds, ?_, hcomplete, other, hist, hturns⟩
      rw [lastCommit_self complete queries, hds]
      rfl
  | _ => exact Or.inl (still rfl)

/-- **What a call does to the tables**, where its execution commits only what is `C` and makes
no statement by itself. -/
theorem Kept.commits (h : Kept (discipline complete queries) complete queries s₀ w tr) {i : ℕ}
    {C : List (Did S) → Prop} {c : Call S} {f : Fault Exn} {r : (Client S Name Exn).Reply c}
    (hc : (noted C (fun _ => False) : Protocol (Client S Name Exn) _).allow
      ((noted C fun _ => False).at (none, none) tr i) c)
    (hs : (server S Name Exn).serve c f w = some (r, w')) :
    (w'.db.current = w.db.current ∧ w'.db.history = w.db.history) ∨
      ∃ tx began ds, C ds ∧ w'.db.history = .transaction tx began ds :: w.db.history ∧
        (Commit.transaction tx began ds).Turns w.db.current w'.db.current := by
  rcases Machine.serve_state hs with ⟨-, a, ha⟩ | ⟨-, rfl⟩
  case inr => exact Or.inl ⟨rfl, rfl⟩
  cases c with
  | connect => cases ha; exact Or.inl ⟨rfl, rfl⟩
  | close => cases ha; exact Or.inl ⟨rfl, rfl⟩
  | start => cases ha; exact Or.inl ⟨rfl, rfl⟩
  | rollback tx => cases ha; exact Or.inl ⟨rfl, rfl⟩
  | run tx c =>
    obtain ⟨⟨b, db⟩, hrun, he⟩ := Option.map_eq_some_iff.1 ha
    cases he
    obtain ⟨o, s, t, -, -, -, -, rfl⟩ := Database.run_cases hrun
    exact Or.inl ⟨rfl, rfl⟩
  | commit tx =>
    obtain ⟨db, hcom, he⟩ := Option.map_eq_some_iff.1 ha
    cases he
    obtain ⟨ds, hds, hC⟩ := hc
    have hat : (discipline complete queries).at none tr i = some (tx, ds) := by
      rw [← hds, ← noted_at tr i, noted_same tr i]
    obtain ⟨began, hist, hturns⟩ := h.committed hat hcom
    exact Or.inr ⟨tx, began, ds, hC, hist, hturns⟩
  | query q => exact hc.elim

end Run

end Sql
