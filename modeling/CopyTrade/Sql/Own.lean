import CopyTrade.Async.Moments
import CopyTrade.Sql.Amended
import CopyTrade.Sql.Attributed
import CopyTrade.Sql.Noted

/-!
# The commits of an execution

What an execution was told that it had committed, at the step of the run where it was told.

* `OwnCommit`: the step, and what it did to the tables.
* `own_commit`: **the last commit that the notes have of an execution is one of its own**.
* `own_query`, `own_heard`: so is a statement by itself that was answered.
* `OwnCommit.later`, `OwnCommit.stands`, `OwnCommit.row_keeps`: what the later commits keep of it, what
  they make of a row that it left, and what they keep of that row.
-/

namespace Sql

open Async (Entry Fault Input Machine Pool Prog)

variable {S : Schema} {Name Exn : Type}

/-- The call of `i` that made a commit, as the trace has it where the commit was answered. -/
def entryOf (i : ℕ) : Commit S → Entry (Client S Name Exn)
  | .transaction tx _ _ => ⟨i, .commit tx, .ok ()⟩
  | .query _ q a => ⟨i, .query q, .ok a⟩

/-- A commit that execution `i` made and was answered, at the step of the run between `p₁` and `p₂`. -/
structure OwnCommit (w : Server S Name) (xs : List (Input (server S Name Exn)))
    (p : Pool (server S Name Exn)) (i : ℕ) (c : Commit S) (p₁ p₂ : Pool (server S Name Exn)) : Prop where
  run : ∃ ys f zs, xs = ys ++ .turn i f :: zs ∧ (Pool.init w).run? ys = some p₁ ∧
    p₁.step? (.turn i f) = some p₂ ∧ p₂.run? zs = some p
  answered : p₂.trace = entryOf i c :: p₁.trace
  history : p₂.state.db.history = c :: p₁.state.db.history
  turns : c.Turns p₁.state.db.current p₂.state.db.current

variable {complete : List (Did S) → Prop} {queries : S.Query → Prop} {w : Server S Name}
  {s₀ : S.State} {now : ℤ} {supply : ℕ → Name} {xs : List (Input (server S Name Exn))}
  {p p₁ p₂ : Pool (server S Name Exn)} {i : ℕ} {c : Commit S}

namespace OwnCommit

theorem sound (h : OwnCommit (Server.start s₀ now supply) xs p i c p₁ p₂) : Sound s₀ p₂.state.db := by
  obtain ⟨ys, f, zs, -, hys, hstep, -⟩ := h.run
  have hbefore := (grows_run hys).sound s₀ (Sound.init now)
  exact (grows_step hstep).sound s₀ hbefore

/-- The trace of the run has the call, and those before it. -/
theorem trace (h : OwnCommit w xs p i c p₁ p₂) : ∃ newer, p.trace = newer ++ entryOf i c :: p₁.trace := by
  obtain ⟨ys, f, zs, -, -, -, hrest⟩ := h.run
  obtain ⟨newer, hnewer⟩ := Pool.run_trace hrest
  exact ⟨newer, by rw [← hnewer, h.answered]⟩

/-- What holds after the commit, and every later one keeps, holds from then on. -/
theorem later (h : OwnCommit (Server.start s₀ now supply) xs p i c p₁ p₂) {J : S.State → Prop}
    (hJ : J p₂.state.db.current) (hkeeps : ∀ (c : Commit S) s t, J s → c.Turns s t → J t) :
    J p.state.db.current := by
  obtain ⟨ys, f, zs, -, -, -, hrest⟩ := h.run
  exact (grows_run hrest).keeps h.sound hJ hkeeps

/-- The row that it left is what the commits since have made of that. -/
theorem stands (h : OwnCommit (Server.start s₀ now supply) xs p i c p₁ p₂) {Row : Type}
    {A : Amending S Row} {after : Row} (hafter : A.read p₂.state.db.current = some after) :
    ∃ newer, p.state.db.history = newer ++ c :: p₁.state.db.history ∧
      A.Stands newer after p.state.db.current := by
  obtain ⟨ys, f, zs, -, -, -, hrest⟩ := h.run
  obtain ⟨newer, hist, hserial⟩ := (grows_run hrest).serial h.sound
  rw [h.history] at hist
  exact ⟨newer, hist, Amending.stands hafter hserial⟩

/-- It is a commit of every longer run. -/
theorem extend (h : OwnCommit w xs p i c p₁ p₂) {us : List (Input (server S Name Exn))}
    {o : Pool (server S Name Exn)} (hus : p.run? us = some o) : OwnCommit w (xs ++ us) o i c p₁ p₂ := by
  obtain ⟨ys, f, zs, rfl, hys, hstep, hrest⟩ := h.run
  have hfrom : p₂.run? (zs ++ us) = some o := by
    rw [Pool.run_append, hrest, Option.bind_some, hus]
  exact ⟨⟨ys, f, zs ++ us, by simp, hys, hstep, hfrom⟩, h.answered, h.history, h.turns⟩

/-- **What it left true of a row**, and no commit since breaks, is true of it at every moment of the
run `us ++ vs` from there on. -/
theorem row_keeps (h : OwnCommit (Server.start s₀ now supply) xs p i c p₁ p₂) {Row : Type}
    {A : Amending S Row} {after : Row} (hafter : A.read p₂.state.db.current = some after)
    {P : Row → Prop} (hP : P after) {us vs : List (Input (server S Name Exn))}
    {o q : Pool (server S Name Exn)} (hus : p.run? us = some o) (hvs : o.run? vs = some q)
    {newer : List (Commit S)} (hist : q.state.db.history = newer ++ c :: p₁.state.db.history)
    (hkeeps : ∀ tx began did, Commit.transaction tx began did ∈ newer → ∀ d ∈ did, ∀ r, P r →
      P (A.change began d r)) : ∃ r, A.read o.state.db.current = some r ∧ P r := by
  have hown := h.extend hus
  obtain ⟨newer', hist', hread, -⟩ := hown.stands hafter
  obtain ⟨ys, f, zs, -, -, -, hrest⟩ := hown.run
  -- the commits until then are among those until the end
  have hsub : newer' <:+ newer := by
    obtain ⟨more, hmore, -⟩ := (grows_run hvs).serial ((grows_run hrest).sound s₀ hown.sound)
    refine ⟨more, ?_⟩
    rw [hist', hist, ← List.append_assoc] at hmore
    exact (List.append_cancel_right hmore).symm
  refine ⟨_, hread, Amending.since_inv (fun tx began did hmem => ?_) hP⟩
  exact hkeeps tx began did (hsub.subset hmem)

end OwnCommit

variable (complete queries) in
/-- The note of a commit goes back to the call that was answered, and to the statements then. -/
theorem lastCommit_entry {tr : List (Entry (Client S Name Exn))} {did : List (Did S)}
    (h : lastCommit tr i = some did) : ∃ newer tx tx' older, tr = newer ++ ⟨i, .commit tx, .ok ()⟩ :: older ∧
      (discipline complete queries).at none older i = some (tx', did) := by
  induction tr with
  | nil => cases h
  | cons e tr ih =>
    -- the note is that of the calls before
    have earlier : lastCommit tr i = some did → ∃ newer tx tx' older,
        e :: tr = newer ++ ⟨i, .commit tx, .ok ()⟩ :: older ∧
        (discipline complete queries).at none older i = some (tx', did) := by
      intro h
      obtain ⟨newer, tx, tx', older, rfl, hat⟩ := ih h
      exact ⟨e :: newer, tx, tx', older, rfl, hat⟩
    by_cases he : e.who = i
    · obtain ⟨j, c, r⟩ := e
      cases he
      rw [lastCommit_self complete queries] at h
      cases c with
      | commit tx =>
        cases r with
        | error e => exact earlier h
        | ok a =>
          obtain ⟨⟨tx', ds⟩, hat, hds⟩ := Option.map_eq_some_iff.1 h
          cases hds
          exact ⟨[], tx, tx', tr, rfl, hat⟩
      | _ => exact earlier h
    · rw [lastCommit_other tr he] at h
      exact earlier h

/-- **What an execution committed last**, by the notes, it has committed and was answered. -/
theorem own_commit (hx : Async.Started (discipline complete queries) none xs)
    (h : (Pool.init (Server.start s₀ now supply)).run? xs = some p) {did : List (Did S)}
    (hi : lastCommit p.trace i = some did) : ∃ tx began p₁ p₂,
      OwnCommit (Server.start s₀ now supply) xs p i (.transaction tx began did) p₁ p₂ := by
  obtain ⟨newer, tx, tx', older, htr, hat⟩ := lastCommit_entry complete queries hi
  obtain ⟨ys, f, zs, p₁, p₂, hxs, hys, hstep, hzs, hp₁, hp₂, hserve⟩ := Pool.run_around h htr
  have hal := Pool.run_allowed hx h
  rw [htr] at hal
  obtain ⟨ds, hds, -⟩ := hal.of_append.1
  rw [hat] at hds
  cases hds
  have hbegun : Async.Started (discipline complete queries) none ys := fun q hq =>
    hx q (hxs ▸ List.mem_append_left _ hq)
  obtain ⟨hkept, -⟩ := Pool.run_inv (M := server S Name Exn) kept_invariant hbegun (Pool.init_ok _)
    (kept_start now supply) hys
  obtain ⟨-, heffect⟩ := Machine.serve_ok hserve
  obtain ⟨db, hcommit, he⟩ := Option.map_eq_some_iff.1 heffect
  rw [← hp₁] at hat
  obtain ⟨began, hist, hturns⟩ := hkept.committed hat hcommit
  have hdb : p₂.state.db = db := congrArg (fun a => a.2.db) he.symm
  refine ⟨tx, began, p₁, p₂, ⟨ys, f, zs, hxs, hys, hstep, hzs⟩, ?_, ?_, ?_⟩
  · rw [hp₂, hp₁]
    rfl
  · rw [hdb]
    exact hist
  · rw [hdb]
    exact hturns

/-- **A statement by itself** that was answered. -/
theorem own_query (h : (Pool.init w).run? xs = some p) {q : S.Query} {a : S.Answer q}
    (hi : ⟨i, .query q, .ok a⟩ ∈ p.trace) : ∃ at_ p₁ p₂, OwnCommit w xs p i (.query at_ q a) p₁ p₂ := by
  obtain ⟨newer, older, htr⟩ := List.append_of_mem hi
  obtain ⟨ys, f, zs, p₁, p₂, hxs, hys, hstep, hzs, hp₁, hp₂, hserve⟩ := Pool.run_around h htr
  obtain ⟨-, heffect⟩ := Machine.serve_ok hserve
  obtain ⟨db, hquery, he⟩ := effect_query heffect
  obtain ⟨-, t, ht, rfl⟩ := Database.query_cases hquery
  refine ⟨p₁.state.db.clock, p₁, p₂, ⟨ys, f, zs, hxs, hys, hstep, hzs⟩, ?_, ?_, ?_⟩
  · rw [hp₂, hp₁]
    rfl
  · rw [he]
  · rw [he]
    exact ht

/-- The same, of what an execution has heard. -/
theorem own_heard (h : (Pool.init w).run? xs = some p) {allow : List (Heard S) → Call S → Prop}
    {x : Heard S} (hi : x ∈ (hearing allow).at [] p.trace i) :
    ∃ at_ p₁ p₂, OwnCommit w xs p i (.query at_ x.query x.answer) p₁ p₂ := by
  obtain ⟨newer, older, htr⟩ := heard_entry hi
  exact own_query h (htr ▸ List.mem_append_right _ List.mem_cons_self)

end Sql
