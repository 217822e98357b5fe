import CopyTrade.Async.Moments
import CopyTrade.Async.Widen
import CopyTrade.Sql.Client

/-!
# Who brought a state about

What holds of the tables after a run and did not before it was brought about by a statement,
the statement was a call of some execution, and the execution made it by what it had been
answered before.

* `Serial.rise`: the statement of a serial history that brings about what holds at its end.
* `Told`: every statement of the database is a call of the trace.
* `hearing`: a discipline that reads the answers an execution has been given.
* `run_attributed`: **what has come about in a run, in any interleaving, was brought about by a
  call that the caller's discipline allowed by answers which the server gave it before that**.
-/

namespace Sql

open Async (Prog Protocol Entry Machine Fault Pool Input)

variable {S : Schema} {Name Exn : Type}

/-! ## The statement that brought it about -/

section Serial

variable {R : S.State → Prop}

/-- The statement leads from a state without `R` to one with it. -/
def StmtRaises (R : S.State → Prop) (c : S.Stmt) : Prop :=
  ∃ now s a t, S.exec c now s = some (a, t) ∧ ¬ R s ∧ R t

/-- The same, of a statement by itself. -/
def QueryRaises (R : S.State → Prop) (q : S.Query) : Prop :=
  ∃ now s a t, S.query q now s = some (a, t) ∧ ¬ R s ∧ R t

theorem Runs.rise {now : ℤ} {held : List S.Key} {t : S.State} : ∀ {ds : List (Did S)} {s : S.State},
    Runs now held ds s t → ¬ R s → R t → ∃ d ∈ ds, StmtRaises R d.stmt := by
  intro ds
  induction ds with
  | nil => intro s h h0 hR; rw [h] at hR; exact absurd hR h0
  | cons d ds ih =>
    intro s h h0 hR
    by_cases hd : S.pinned d.stmt d.answer = true
    · obtain ⟨-, u, hu, hr⟩ := (of_pinned hd).1 h
      by_cases hRu : R u
      · exact ⟨d, List.mem_cons_self, now, s, d.answer, u, hu, h0, hRu⟩
      · obtain ⟨d', hd', hrise⟩ := ih hr hRu hR
        exact ⟨d', List.mem_cons_of_mem d hd', hrise⟩
    · obtain ⟨d', hd', hrise⟩ := ih ((of_plain hd).1 h) h0 hR
      exact ⟨d', List.mem_cons_of_mem d hd', hrise⟩

/-- A statement of the commit brings `R` about. -/
def Commit.Raises (R : S.State → Prop) : Commit S → Prop
  | .transaction _ _ did => ∃ d ∈ did, StmtRaises R d.stmt
  | .query _ q _ => QueryRaises R q

/-- **The rise of a serial history** is in one of its statements. -/
theorem Serial.rise {s₀ : S.State} (h0 : ¬ R s₀) {cs : List (Commit S)} : ∀ {t : S.State},
    Serial s₀ cs t → R t → ∃ c ∈ cs, c.Raises R := by
  induction cs with
  | nil => intro t h hR; rw [h] at hR; exact absurd hR h0
  | cons c cs ih =>
    intro t h hR
    obtain ⟨s, hs, hc⟩ := h
    by_cases hRs : R s
    · obtain ⟨c', hc', hrise⟩ := ih hs hRs
      exact ⟨c', List.mem_cons_of_mem c hc', hrise⟩
    · refine ⟨c, List.mem_cons_self, ?_⟩
      cases c with
      | transaction tx began did =>
        obtain ⟨held, hruns⟩ := hc
        exact hruns.rise hRs hR
      | query now q a => exact ⟨now, s, a, t, hc, hRs, hR⟩

end Serial

/-! ## The call that it was -/

/-- The call was made. -/
def Made (tr : List (Entry (Client S Name Exn))) (c : Call S) : Prop := ∃ e ∈ tr, e.call = c

theorem Made.cons {tr : List (Entry (Client S Name Exn))} {c : Call S} (h : Made tr c)
    (e : Entry (Client S Name Exn)) : Made (e :: tr) c := by
  obtain ⟨e', he', hc⟩ := h
  exact ⟨e', List.mem_cons_of_mem e he', hc⟩

/-- Every statement of a commit is a call of the trace. -/
def ToldCommit (tr : List (Entry (Client S Name Exn))) : Commit S → Prop
  | .transaction tx _ did => ∀ d ∈ did, Made tr (.run tx d.stmt)
  | .query _ q _ => Made tr (.query q)

/-- Every statement of the database is a call of the trace. -/
structure Told (w : Server S Name) (tr : List (Entry (Client S Name Exn))) : Prop where
  opened : ∀ {tx o}, w.db.at? tx = some o → ∀ d ∈ o.did, Made tr (.run tx d.stmt)
  history : ∀ c ∈ w.db.history, ToldCommit tr c

variable {w w' : Server S Name} {tr : List (Entry (Client S Name Exn))}

theorem ToldCommit.cons {c : Commit S} (h : ToldCommit tr c) (e : Entry (Client S Name Exn)) :
    ToldCommit (e :: tr) c := by
  cases c with
  | transaction tx began did => exact fun d hd => (h d hd).cons e
  | query now q a => exact Made.cons h e

theorem Told.cons (h : Told w tr) (e : Entry (Client S Name Exn)) : Told w (e :: tr) :=
  ⟨fun ho d hd => (h.opened ho d hd).cons e, fun c hc => (h.history c hc).cons e⟩

/-- A transaction that is taken out. -/
theorem Told.rollback (h : Told w tr) (tx : ℕ) : Told { w with db := w.db.rollback tx } tr :=
  ⟨fun ho => h.opened (Database.at_put_none ho).2, h.history⟩

/-- **Every call** leaves its statement in the trace. -/
theorem Told.serve (h : Told w tr) {i : ℕ} {c : Call S} {f : Fault Exn}
    {r : (Client S Name Exn).Reply c} (hs : (server S Name Exn).serve c f w = some (r, w')) :
    Told w' (⟨i, c, r⟩ :: tr) := by
  have hself : Made (⟨i, c, r⟩ :: tr : List (Entry (Client S Name Exn))) c :=
    ⟨_, List.mem_cons_self, rfl⟩
  have hold := h.cons ⟨i, c, r⟩
  rcases Machine.serve_state hs with ⟨-, a, ha⟩ | ⟨-, rfl⟩
  case inr => exact hold
  cases c with
  | connect => cases ha; exact hold
  | close => cases ha; exact hold
  | start =>
    cases ha
    refine ⟨fun ho d hd => ?_, hold.history⟩
    rcases Database.at_start ho with ⟨-, rfl⟩ | ho
    · cases hd
    · exact hold.opened ho d hd
  | rollback tx => cases ha; exact hold.rollback tx
  | run tx c =>
    obtain ⟨⟨b, db⟩, hrun, he⟩ := Option.map_eq_some_iff.1 ha
    cases he
    obtain ⟨o, s, t, ho, -, -, -, rfl⟩ := Database.run_cases hrun
    refine ⟨fun {tx' o'} ho' d hd => ?_, hold.history⟩
    by_cases htx : tx' = tx
    · subst htx
      rw [Database.at_put_self ho] at ho'
      cases ho'
      rcases List.mem_append.1 hd with hd | hd
      · exact hold.opened ho d hd
      · rw [List.mem_singleton.1 hd]
        exact hself
    · rw [Database.at_put_other htx] at ho'
      exact hold.opened ho' d hd
  | commit tx =>
    obtain ⟨db, hcom, he⟩ := Option.map_eq_some_iff.1 ha
    cases he
    obtain ⟨o, s, ho, -, rfl⟩ := Database.commit_cases hcom
    exact ⟨fun ho' => hold.opened (Database.at_put_none ho').2,
      List.forall_mem_cons.2 ⟨hold.opened ho, hold.history⟩⟩
  | query q =>
    obtain ⟨⟨b, db⟩, hq, he⟩ := Option.map_eq_some_iff.1 ha
    cases he
    obtain ⟨-, t, -, rfl⟩ := Database.query_cases hq
    exact ⟨hold.opened, List.forall_mem_cons.2 ⟨hself, hold.history⟩⟩

theorem told_start (s₀ : S.State) (now : ℤ) (supply : ℕ → Name) :
    Told (Server.start s₀ now supply) ([] : List (Entry (Client S Name Exn))) := by
  refine ⟨fun {tx o} ho => ?_, fun c hc => ?_⟩
  · simp [Server.start, Database.init, Database.at?] at ho
  · cases hc

/-- **In any run** every statement of the database is a call of the trace. -/
theorem run_told {s₀ : S.State} {now : ℤ} {supply : ℕ → Name}
    {xs : List (Input (server S Name Exn))} {p : Pool (server S Name Exn)}
    (h : (Pool.init (Server.start s₀ now supply)).run? xs = some p) : Told p.state p.trace := by
  have hinv : Async.Invariant (server S Name Exn) (⟨fun _ _ => True, fun _ _ _ => ()⟩ : Protocol _ Unit)
      () Told := by
    refine ⟨fun w tr h => ⟨h.opened, h.history⟩, fun w tr m w' h hm => ?_,
      fun w tr i c f r w' h _ hs => h.serve hs⟩
    cases m with
    | elapse d => cases hm; exact ⟨h.opened, h.history⟩
    | lose tx => cases hm; exact h.rollback tx
  refine (Pool.run_inv (M := server S Name Exn) hinv (fun q _ => ?_) (Pool.init_ok _)
    (told_start s₀ now supply) h).1
  exact (Prog.obeys_still (fun _ => trivial) fun _ _ => rfl).mono (fun _ _ _ => trivial)
    fun _ _ _ => trivial

/-- The call leads from a state without `R` to one with it. -/
def Call.Raises (R : S.State → Prop) : Call S → Prop
  | .run _ c => StmtRaises R c
  | .query q => QueryRaises R q
  | _ => False

/-- The statement of the call is committed, where it is one of a transaction with that transaction. -/
def Call.CommittedIn (history : List (Commit S)) : Call S → Prop
  | .run tx c => ∃ began did, Commit.transaction tx began did ∈ history ∧ ∃ d ∈ did, d.stmt = c
  | .query q => ∃ now a, Commit.query now q a ∈ history
  | _ => False

theorem Call.CommittedIn.mono {history history' : List (Commit S)} {c : Call S}
    (h : c.CommittedIn history) (hsub : history ⊆ history') : c.CommittedIn history' := by
  cases c with
  | run tx c =>
    obtain ⟨began, did, hmem, hd⟩ := h
    exact ⟨began, did, hsub hmem, hd⟩
  | query q =>
    obtain ⟨now, a, hmem⟩ := h
    exact ⟨now, a, hsub hmem⟩
  | _ => exact h.elim

/-- **The call that brought it about.** -/
theorem run_made {R : S.State → Prop} {s₀ : S.State} {now : ℤ} {supply : ℕ → Name}
    {xs : List (Input (server S Name Exn))} {p : Pool (server S Name Exn)} (h0 : ¬ R s₀)
    (h : (Pool.init (Server.start s₀ now supply)).run? xs = some p) (hR : R p.state.db.current) :
    ∃ e ∈ p.trace, Call.Raises R e.call ∧ e.call.CommittedIn p.state.db.history := by
  have hsound : Sound s₀ p.state.db := (grows_run h).sound s₀ (Sound.init now)
  obtain ⟨c, hc, hrise⟩ := hsound.serial.rise h0 hR
  have htold : ToldCommit p.trace c := (run_told h).history c hc
  cases c with
  | transaction tx began did =>
    obtain ⟨d, hd, hrise⟩ := hrise
    obtain ⟨e, he, hcall⟩ := htold d hd
    refine ⟨e, he, ?_⟩
    rw [hcall]
    exact ⟨hrise, began, did, hc, d, hd, rfl⟩
  | query now q a =>
    obtain ⟨e, he, hcall⟩ := htold
    refine ⟨e, he, ?_⟩
    rw [hcall]
    exact ⟨hrise, now, a, hc⟩

/-! ## What its caller had been answered -/

/-- A statement by itself, and what it was answered. -/
structure Heard (S : Schema) where
  query : S.Query
  answer : S.Answer query

/-- The discipline of who reads the answers to its statements by themselves. -/
def hearing (allow : List (Heard S) → Call S → Prop) :
    Protocol (Client S Name Exn) (List (Heard S)) where
  allow := allow
  next heard
    | .query q, .ok a => ⟨q, a⟩ :: heard
    | _, _ => heard

variable {allow : List (Heard S) → Call S → Prop}

/-- What is heard once stays so. -/
theorem hearing_mono (heard : List (Heard S)) (c : Call S) (r : (Client S Name Exn).Reply c) :
    heard ⊆ (hearing allow).next heard c r := by
  intro x hx
  cases c with
  | query q =>
    cases r with
    | ok a => exact List.mem_cons_of_mem _ hx
    | error e => exact hx
  | _ => exact hx

section Obeys

variable {α : Type} {heard : List (Heard S)} {X : List (Heard S) → Exn → Prop}

/-- **A statement by itself**, whose answer is heard. -/
theorem hearing_query {q : S.Query} {Q : List (Heard S) → S.Answer q → Prop}
    (hq : allow heard (.query q)) (h : ∀ a, Q (⟨q, a⟩ :: heard) a) (hX : ∀ e, X heard e) :
    (query q : Prog (Client S Name Exn) _).Obeys (hearing allow) heard Q X :=
  Prog.obeys_call (P := hearing allow) (c := .query q) hq h hX

/-- **A connection block** has heard what its body has. -/
theorem hearing_withConnection {body : Prog (Client S Name Exn) α} {Q : List (Heard S) → α → Prop}
    (hconnect : ∀ l, allow l .connect) (hclose : ∀ l, allow l .close)
    (h : body.Obeys (hearing allow) heard Q fun _ _ => True) :
    (withConnection body).Obeys (hearing allow) heard Q fun _ _ => True := by
  unfold withConnection
  refine Prog.obeys_bind (Prog.obeys_call (P := hearing allow) (c := .connect) (hconnect _)
    (fun _ => ?_) fun _ => trivial)
  refine Prog.obeys_bind (Prog.obeys_tryExcept (h.mono (fun l a hQ => ?_) fun l e _ => ?_))
  · exact Prog.obeys_bind (Prog.obeys_call (P := hearing allow) (c := .close) (hclose l)
      (fun _ => hQ) fun _ => trivial)
  · exact Prog.obeys_bind (Prog.obeys_call (P := hearing allow) (c := .close) (hclose l)
      (fun _ => trivial) fun _ => trivial)

/-- **A program whose calls are allowed** by what has been heard, and hence by more. -/
theorem hearing_ensures {A : Async.Rely (Client S Name Exn)} {Q : α → Prop} {X : Exn → Prop}
    (hcalls : ∀ l c, heard ⊆ l → A.calls c → allow l c) (hanswers : ∀ c r, A.answers c r)
    {p : Prog (Client S Name Exn) α} : p.Ensures A Q X → ∀ {l}, heard ⊆ l →
      p.Obeys (hearing allow) l (fun l' a => heard ⊆ l' ∧ Q a) fun l' e => heard ⊆ l' ∧ X e := by
  induction p with
  | done a => intro h l hl; exact ⟨hl, h⟩
  | fail e => intro h l hl; exact ⟨hl, h⟩
  | fresh k ih => intro h l hl n; exact ih n (h n) hl
  | await c k ih =>
    intro h l hl
    exact ⟨hcalls l c hl h.1, fun r => ih r (h.2 r (hanswers c r))
      (List.Subset.trans hl (hearing_mono l c r))⟩

end Obeys

/-- What an execution has heard are answers of the trace. -/
theorem heard_entry {i : ℕ} {x : Heard S} : ∀ {tr : List (Entry (Client S Name Exn))},
    x ∈ (hearing allow).at [] tr i →
      ∃ newer older, tr = newer ++ ⟨i, .query x.query, .ok x.answer⟩ :: older := by
  intro tr
  induction tr with
  | nil => intro h; cases h
  | cons e tr ih =>
    intro h
    have earlier : x ∈ (hearing allow).at [] tr i →
        ∃ newer older, e :: tr = newer ++ ⟨i, .query x.query, .ok x.answer⟩ :: older := by
      intro hx
      obtain ⟨newer, older, rfl⟩ := ih hx
      exact ⟨e :: newer, older, rfl⟩
    obtain ⟨j, c, r⟩ := e
    by_cases hj : j = i
    · subst hj
      rw [Protocol.at_self] at h
      cases c with
      | query q =>
        cases r with
        | error e => exact earlier h
        | ok a =>
          rcases List.mem_cons.1 h with rfl | h
          · exact ⟨[], tr, rfl⟩
          · exact earlier h
      | _ => exact earlier h
    · rw [Protocol.at_other tr hj] at h
      exact earlier h

/-- At some state of the run, before there was `R`. -/
def Before (R : S.State → Prop) (p : Pool (server S Name Exn)) (xs : List (Input (server S Name Exn)))
    (now : ℤ → S.State → Prop) : Prop :=
  ∃ ys zs p₁, xs = ys ++ zs ∧ p.run? ys = some p₁ ∧ ¬ R p₁.state.db.current ∧
    now p₁.state.db.clock p₁.state.db.current

/-- The tables answered so. -/
def Heard.AnsweredBy (x : Heard S) (now : ℤ) (s : S.State) : Prop :=
  ∃ t, S.query x.query now s = some (x.answer, t)

/-- **What has come about in a run** was brought about by a call of one of its executions, and by
answers that the server had given to that execution before. -/
theorem run_attributed {R : S.State → Prop} {s₀ : S.State} {now : ℤ} {supply : ℕ → Name}
    {xs : List (Input (server S Name Exn))} {p : Pool (server S Name Exn)} (h0 : ¬ R s₀)
    (h : (Pool.init (Server.start s₀ now supply)).run? xs = some p) (hR : R p.state.db.current) :
    ∃ q, ∃ e ∈ p.trace, (Async.begun xs)[e.who]? = some q ∧ Call.Raises R e.call ∧
      e.call.CommittedIn p.state.db.history ∧
      ∀ allow : List (Heard S) → Call S → Prop, q.Keeps (hearing allow) [] →
        ∃ heard, allow heard e.call ∧ ∀ x ∈ heard,
          Before R (Pool.init (Server.start s₀ now supply)) xs x.AnsweredBy := by
  -- the step that first brought it about, and the entry of the trace up to there
  obtain ⟨ys, y, zs, p₁, p₂, rfl, hys, hy, hbefore, hR₂⟩ :=
    Pool.run_first (R := fun w : Server S Name => R w.db.current) h0 h hR
  have hrun : (Pool.init (Server.start s₀ now supply)).run? (ys ++ [y]) = some p₂ := by
    rw [Pool.run_append, hys, Option.bind_some, Pool.run?, hy]
    rfl
  have hrest : p₂.run? zs = some p := by
    rw [Pool.run_append, hys, Option.bind_some, Pool.run?, hy, Option.bind_some] at h
    exact h
  obtain ⟨e, he, hraises, hcommitted⟩ := run_made h0 hrun hR₂
  obtain ⟨newer, older, htr⟩ := List.append_of_mem he
  obtain ⟨q, hq, hcalling⟩ := Async.run_calling hrun htr
  have hbegun : (Async.begun (ys ++ y :: zs))[e.who]? = some q := by
    rw [List.append_cons]
    exact Async.begun_append hq
  refine ⟨q, e, (Pool.run_trace hrest).subset he, hbegun, hraises,
    hcommitted.mono (grows_run hrest).history.subset,
    fun allow hkeeps => ⟨_, hcalling (hearing allow) [] hkeeps, ?_⟩⟩
  intro x hx
  obtain ⟨newer', older', hold⟩ := heard_entry hx
  -- the answer is an entry of the trace too, and so a step before the rise
  have htr' : p₂.trace = (newer ++ e :: newer') ++ ⟨e.who, .query x.query, .ok x.answer⟩ :: older' := by
    rw [htr, hold]
    simp
  obtain ⟨us, f, vs, p₃, k, w', hxs, hus, -, -, hserve⟩ := Pool.run_entry hrun htr'
  obtain ⟨-, heffect⟩ := Machine.serve_ok hserve
  obtain ⟨db, hquery, -⟩ := effect_query heffect
  obtain ⟨-, t, ht, -⟩ := Database.query_cases hquery
  obtain ⟨vs', rfl⟩ : ∃ vs', ys = us ++ vs' := by
    rcases List.eq_nil_or_concat vs with rfl | ⟨vs, v, rfl⟩
    · obtain ⟨rfl, -⟩ := List.append_inj' hxs rfl
      exact ⟨[], by simp⟩
    · rw [List.concat_eq_append, ← List.cons_append, ← List.append_assoc] at hxs
      obtain ⟨rfl, -⟩ := List.append_inj' hxs rfl
      exact ⟨_, rfl⟩
  have hnot : ¬ R p₃.state.db.current := hbefore us vs' p₃ rfl hus
  exact ⟨us, vs' ++ y :: zs, p₃, by simp, hus, hnot, t, ht⟩

end Sql
