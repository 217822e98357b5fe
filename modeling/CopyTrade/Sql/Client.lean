import CopyTrade.Async.Amid
import CopyTrade.Sql.Transactions

/-!
# Programs on a transactional server

The calls of a database client as awaited calls (`Client`), the server as the machine
they run on (`server`), and the two blocks every repository is written with.

* `withConnection`: `connection = await connect(…)`, `try … finally: await connection.close()`.
* `transaction`: `async with connection.transaction()`, which commits where the block ends
  and rolls back where it raises.
* `discipline`: a transaction is committed only after a row of statements that is
  `complete`; `obeys_transaction` checks it block by block.
* `run_sound`: **in any interleaving of such programs**, with faults at any call and
  connections lost at any time, the history is a serial execution of complete transactions.
-/

namespace Sql

open Async (Sig Prog Machine Protocol Pool Fault Entry)

/-- What a client awaits. -/
inductive Call (S : Schema) where
  | connect
  | close
  | start
  | run (tx : ℕ) (c : S.Stmt)
  | commit (tx : ℕ)
  | rollback (tx : ℕ)
  | query (q : S.Query)

/-- The programs of the clients, which draw names and raise exceptions of their own. -/
abbrev Client (S : Schema) (Name Exn : Type) : Sig where
  Name := Name
  Call := Call S
  Ret
    | .start => ℕ
    | .run _ c => S.Ret c
    | .query q => S.Answer q
    | _ => Unit
  Exn := Exn

/-- A database, and where its clients draw their names from. -/
structure Server (S : Schema) (Name : Type) where
  db : Database S
  supply : ℕ → Name
  issued : ℕ

/-- What happens besides the calls: time passes, and connections are lost. -/
inductive ServerMove where
  | elapse (d : ℕ)
  | lose (tx : ℕ)

variable {S : Schema} {Name Exn : Type}

namespace Server

def effect : (c : Call S) → Server S Name → Option ((Client S Name Exn).Ret c × Server S Name)
  | .connect, w => some ((), w)
  | .close, w => some ((), w)
  | .start, w => some (w.db.start.1, { w with db := w.db.start.2 })
  | .run tx c, w => (w.db.run? tx c).map fun a => (a.1, { w with db := a.2 })
  | .commit tx, w => (w.db.commit? tx).map fun db => ((), { w with db := db })
  | .rollback tx, w => some ((), { w with db := w.db.rollback tx })
  | .query q, w => (w.db.query? q).map fun a => (a.1, { w with db := a.2 })

def start (s : S.State) (now : ℤ) (supply : ℕ → Name) : Server S Name :=
  ⟨Database.init s now, supply, 0⟩

end Server

variable (S Name Exn) in
abbrev server : Machine (Client S Name Exn) where
  State := Server S Name
  effect := Server.effect
  draw w := (w.supply w.issued, { w with issued := w.issued + 1 })
  Move := ServerMove
  move
    | .elapse d, w => some { w with db := w.db.elapse d }
    | .lose tx, w => some { w with db := w.db.rollback tx }

/-- What a statement by itself does to the server. -/
theorem effect_query {q : S.Query} {a : S.Answer q} {w w' : Server S Name}
    (h : (server S Name Exn).effect (.query q) w = some (a, w')) :
    ∃ db, w.db.query? q = some (a, db) ∧ w' = { w with db := db } := by
  obtain ⟨⟨b, db⟩, hq, he⟩ := Option.map_eq_some_iff.1 h
  cases he
  exact ⟨db, hq, rfl⟩

/-! ## The blocks of a repository -/

variable {α : Type}

def run (tx : ℕ) (c : S.Stmt) : Prog (Client S Name Exn) (S.Ret c) :=
  Prog.call (σ := Client S Name Exn) (.run tx c)

def query (q : S.Query) : Prog (Client S Name Exn) (S.Answer q) :=
  Prog.call (σ := Client S Name Exn) (.query q)

/-- `finally: await connection.close()` after an exception. -/
def closing (e : Exn) : Prog (Client S Name Exn) α := do
  Prog.call (σ := Client S Name Exn) .close
  Prog.fail e

/-- `try: body finally: await connection.close()`, on a connection of its own. -/
def withConnection (body : Prog (Client S Name Exn) α) : Prog (Client S Name Exn) α := do
  Prog.call (σ := Client S Name Exn) .connect
  let a ← body.tryExcept closing
  Prog.call (σ := Client S Name Exn) .close
  pure a

/-- `async with connection.transaction(): body` -/
def transaction (body : ℕ → Prog (Client S Name Exn) α) : Prog (Client S Name Exn) α := do
  let tx ← Prog.call (σ := Client S Name Exn) .start
  let a ← (body tx).tryExcept fun e => do
    Prog.call (σ := Client S Name Exn) (.rollback tx)
    Prog.fail e
  Prog.call (σ := Client S Name Exn) (.commit tx)
  pure a

/-- A connection block whose body returns, where its own calls work. -/
theorem exec_withConnection {body : Prog (Client S Name Exn) α} {a : α} {w : Server S Name}
    {fs rest : List (Fault Exn)} {o : Async.Outcome (server S Name Exn) α}
    (h : body.exec? (server S Name Exn) fs w = some o) (ho : o.ending = .returned a)
    (hrest : o.rest = .works :: rest) :
    (withConnection body).exec? (server S Name Exn) (.works :: fs) w = some
      ⟨.returned a, o.state, ⟨.connect, .ok ()⟩ :: (o.calls ++ [⟨.close, .ok ()⟩]), rest⟩ := by
  have hbody : (body.tryExcept closing).exec? (server S Name Exn) fs w = some o :=
    Prog.exec_tryExcept_returned h ho
  have hclose : (Prog.call (σ := Client S Name Exn) .close >>= fun _ =>
      (pure a : Prog (Client S Name Exn) α)).exec? (server S Name Exn) o.rest o.state =
        some ⟨.returned a, o.state, [⟨.close, .ok ()⟩], rest⟩ := by
    rw [hrest]
    exact Prog.exec_call_works (M := server S Name Exn) (c := .close) (k := fun _ => .done a) rfl
      (Prog.exec_done a)
  exact Prog.exec_call_works (M := server S Name Exn) (c := .connect)
    (k := fun _ => body.tryExcept closing >>= fun a =>
      Prog.call (σ := Client S Name Exn) .close >>= fun _ => .done a) rfl
    (Prog.exec_bind_returned hbody ho hclose)

/-! ## The discipline -/

/-- The transaction an execution has open, with its statements so far. -/
abbrev Mirror (S : Schema) := Option (ℕ × List (Did S))

/-- How a call moves the mirror. After a statement that raised, the transaction can only
be rolled back. -/
def mirrorNext (l : Mirror S) : (c : Call S) → (Client S Name Exn).Reply c → Mirror S
  | .start, .ok tx => some (tx, [])
  | .start, .error _ => l
  | .run _ c, .ok a => l.map fun p => (p.1, p.2 ++ [⟨c, a⟩])
  | .run _ _, .error _ => none
  | .commit _, _ => none
  | .rollback _, _ => none
  | .connect, _ => l
  | .close, _ => l
  | .query _, _ => l

variable (complete : List (Did S) → Prop) (queries : S.Query → Prop)

def discipline : Protocol (Client S Name Exn) (Mirror S) where
  allow l
    | .run tx _ => ∃ ds, l = some (tx, ds)
    | .commit tx => ∃ ds, l = some (tx, ds) ∧ complete ds
    | .query q => queries q
    | _ => True
  next := mirrorNext

variable {complete queries}

section Obeys

variable {Q : Mirror S → α → Prop} {X : Mirror S → Exn → Prop}

/-- **A statement of a transaction.** -/
theorem obeys_run {tx : ℕ} {ds : List (Did S)} {c : S.Stmt} {Q : Mirror S → S.Ret c → Prop}
    (h : ∀ a, Q (some (tx, ds ++ [⟨c, a⟩])) a) (hX : ∀ e, X none e) :
    (run tx c : Prog (Client S Name Exn) _).Obeys (discipline complete queries) (some (tx, ds))
      Q X :=
  Prog.obeys_call (P := discipline complete queries) (c := .run tx c) ⟨ds, rfl⟩ h hX

/-- **A statement by itself.** -/
theorem obeys_query {q : S.Query} {l : Mirror S} {Q : Mirror S → S.Answer q → Prop}
    (hq : queries q) (h : ∀ a, Q l a) (hX : ∀ e, X l e) :
    (query q : Prog (Client S Name Exn) _).Obeys (discipline complete queries) l Q X :=
  Prog.obeys_call (P := discipline complete queries) (c := .query q) hq h hX

/-- **A transaction block** commits only where its statements are complete, and leaves no
transaction open. -/
theorem obeys_transaction {body : ℕ → Prog (Client S Name Exn) α} {R : α → Prop}
    (h : ∀ tx, (body tx).Obeys (discipline complete queries) (some (tx, []))
      (fun l a => ∃ ds, l = some (tx, ds) ∧ complete ds ∧ R a) fun _ _ => True) :
    (transaction body).Obeys (discipline complete queries) none (fun l a => l = none ∧ R a)
      fun l _ => l = none := by
  unfold transaction
  refine Prog.obeys_bind (Prog.obeys_call trivial (fun tx => ?_) fun e => rfl)
  refine Prog.obeys_bind (Prog.obeys_tryExcept ?_)
  refine (h tx).mono (fun l a hl => ?_) fun l e _ => ?_
  · obtain ⟨ds, rfl, hds, hR⟩ := hl
    exact Prog.obeys_bind (Prog.obeys_call ⟨ds, rfl, hds⟩ (fun _ => ⟨rfl, hR⟩) fun e => rfl)
  · exact Prog.obeys_bind (Prog.obeys_call trivial (fun _ => rfl) fun e => rfl)

/-- **A connection block** keeps what its body keeps. -/
theorem obeys_withConnection {body : Prog (Client S Name Exn) α} {R : α → Prop}
    (h : body.Obeys (discipline complete queries) none (fun l a => l = none ∧ R a)
      fun l _ => l = none) :
    (withConnection body).Obeys (discipline complete queries) none (fun l a => l = none ∧ R a)
      fun l _ => l = none := by
  unfold withConnection
  refine Prog.obeys_bind (Prog.obeys_call trivial (fun _ => ?_) fun e => rfl)
  refine Prog.obeys_bind (Prog.obeys_tryExcept ?_)
  refine h.mono (fun l a hl => ?_) fun l e hl => ?_
  · obtain ⟨rfl, hR⟩ := hl
    exact Prog.obeys_bind (Prog.obeys_call trivial (fun _ => ⟨rfl, hR⟩) fun e => rfl)
  · cases hl
    exact Prog.obeys_bind (Prog.obeys_call trivial (fun _ => rfl) fun e => rfl)

/-- **A method of a repository**: one transaction on a connection of its own, with the `except`
clauses around it. -/
theorem keeps_method {body : ℕ → Prog (Client S Name Exn) α} {raised : Exn → Exn}
    (h : ∀ tx, (body tx).Obeys (discipline complete queries) (some (tx, []))
      (fun l _ => ∃ ds, l = some (tx, ds) ∧ complete ds ∧ True) fun _ _ => True) :
    (withConnection ((transaction body).tryExcept fun e => Prog.fail (σ := Client S Name Exn) (raised e)) >>=
      fun _ => (pure () : Prog (Client S Name Exn) Unit)).Keeps (discipline complete queries) none := by
  have htransaction := obeys_transaction (R := fun _ => True) h
  refine Prog.obeys_bind ((obeys_withConnection (R := fun _ => True) (Prog.obeys_tryExcept ?_)).mono
    (fun _ _ _ => trivial) fun _ _ _ => trivial)
  exact htransaction.mono (fun _ _ hl => hl) fun _ _ hl => hl

/-- A connection block ensures what its body ensures, where a call that raises ends both. -/
theorem ensures_withConnection {A : Async.Rely (Client S Name Exn)} {Q : α → Prop} {X : Exn → Prop}
    {body : Prog (Client S Name Exn) α} (hconnect : A.calls .connect) (hclose : A.calls .close)
    (hX : ∀ c e, A.answers c (.error e) → X e) (h : body.Ensures A Q X) :
    (withConnection body).Ensures A Q X := by
  unfold withConnection
  refine Prog.ensures_bind (Prog.ensures_call hconnect (fun _ _ => ?_) (hX _))
  refine Prog.ensures_bind (Prog.ensures_tryExcept ?_)
  refine h.mono (fun a ha => ?_) fun e he => ?_
  · exact Prog.ensures_bind (Prog.ensures_call hclose (fun _ _ => ha) (hX _))
  · exact Prog.ensures_bind (Prog.ensures_call hclose (fun _ _ => he) (hX _))

/-- The same for a transaction block. -/
theorem ensures_transaction {A : Async.Rely (Client S Name Exn)} {Q : α → Prop} {X : Exn → Prop}
    {body : ℕ → Prog (Client S Name Exn) α} (hstart : A.calls .start)
    (hcommit : ∀ tx, A.calls (.commit tx)) (hrollback : ∀ tx, A.calls (.rollback tx))
    (hX : ∀ c e, A.answers c (.error e) → X e) (h : ∀ tx, (body tx).Ensures A Q X) :
    (transaction body).Ensures A Q X := by
  unfold transaction
  refine Prog.ensures_bind (Prog.ensures_call hstart (fun tx _ => ?_) (hX _))
  refine Prog.ensures_bind (Prog.ensures_tryExcept ?_)
  refine (h tx).mono (fun a ha => ?_) fun e he => ?_
  · exact Prog.ensures_bind (Prog.ensures_call (hcommit tx) (fun _ _ => ha) (hX _))
  · exact Prog.ensures_bind (Prog.ensures_call (hrollback tx) (fun _ _ => he) (hX _))

end Obeys

/-! ## Any interleaving -/

/-- A commit that the discipline allows. -/
def Allowed (complete : List (Did S) → Prop) (queries : S.Query → Prop) : Commit S → Prop
  | .transaction _ _ did => complete did
  | .query _ q _ => queries q

open Database

/-- What an execution knows of its open transaction is what the server has. -/
def Mirrors (db : Database S) (l : Mirror S) : Prop :=
  ∀ tx ds, l = some (tx, ds) → tx < db.opened.length ∧ ∀ o, db.at? tx = some o → o.did = ds

/-- No transaction but `own` was added to, and none reopened. -/
def Unmoved (own : Option ℕ) (db db' : Database S) : Prop :=
  db.opened.length ≤ db'.opened.length ∧
    ∀ i < db.opened.length, some i ≠ own → ∀ o, db'.at? i = some o → db.at? i = some o

theorem Mirrors.unmoved {db db' : Database S} {own : Option ℕ} {l : Mirror S} (h : Mirrors db l)
    (hu : Unmoved own db db') (hl : ∀ tx ds, l = some (tx, ds) → some tx ≠ own) :
    Mirrors db' l := by
  intro tx ds he
  obtain ⟨hlt, ho⟩ := h tx ds he
  have hlen : db.opened.length ≤ db'.opened.length := hu.1
  exact ⟨by omega, fun o hat => ho o (hu.2 tx hlt (hl tx ds he) o hat)⟩

theorem unmoved_start (db : Database S) : Unmoved none db db.start.2 := by
  refine ⟨by simp [Database.start], fun i hi _ o h => ?_⟩
  rcases at_start h with ⟨he, -⟩ | h
  · omega
  · exact h

theorem unmoved_rollback (db : Database S) (tx : ℕ) : Unmoved none db (db.rollback tx) :=
  ⟨by simp [Database.rollback, put], fun _ _ _ _ h => (at_put_none h).2⟩

theorem unmoved_run {db db' : Database S} {tx : ℕ} {c : S.Stmt} {a : S.Ret c}
    (h : db.run? tx c = some (a, db')) : Unmoved (some tx) db db' := by
  obtain ⟨o, s, t, -, -, -, -, rfl⟩ := run_cases h
  refine ⟨by simp [put], fun i _ hne p hp => ?_⟩
  rwa [at_put_other fun he => hne (congrArg some he)] at hp

theorem unmoved_commit {db db' : Database S} {tx : ℕ} (h : db.commit? tx = some db') :
    Unmoved none db db' := by
  obtain ⟨o, s, -, -, rfl⟩ := commit_cases h
  exact ⟨by simp [put], fun _ _ _ _ h => (at_put_none h).2⟩

theorem unmoved_query {db db' : Database S} {q : S.Query} {a : S.Answer q}
    (h : db.query? q = some (a, db')) : Unmoved none db db' := by
  obtain ⟨-, t, -, rfl⟩ := query_cases h
  exact ⟨Nat.le_refl _, fun _ _ _ _ h => h⟩

section Run

variable {s₀ : S.State}

/-- The server under clients that keep the discipline. -/
structure Kept (P : Protocol (Client S Name Exn) (Mirror S)) (complete : List (Did S) → Prop)
    (queries : S.Query → Prop) (s₀ : S.State) (w : Server S Name)
    (tr : List (Entry (Client S Name Exn))) : Prop where
  sound : Sound s₀ w.db
  allowed : ∀ c ∈ w.db.history, Allowed complete queries c
  mirrors : ∀ i, Mirrors w.db (P.at none tr i)
  owner : ∀ i j tx ds ds', P.at none tr i = some (tx, ds) → P.at none tr j = some (tx, ds') → i = j

variable {w w' : Server S Name} {tr : List (Entry (Client S Name Exn))}

/-- The mirrors after a call of `i`, from what it did to the open transactions and to
`i`'s own mirror. -/
theorem Kept.step (h : Kept (discipline complete queries) complete queries s₀ w tr) {i : ℕ}
    {c : Call S} {r : (Client S Name Exn).Reply c} {own : Option ℕ} (hs : Sound s₀ w'.db)
    (ha : ∀ d ∈ w'.db.history, Allowed complete queries d) (hu : Unmoved own w.db w'.db)
    (hown : ∀ tx, own = some tx → ∃ ds, (discipline complete queries).at none tr i = some (tx, ds))
    (hm : Mirrors w'.db (mirrorNext ((discipline complete queries).at none tr i) c r))
    (hnew : ∀ tx ds, mirrorNext ((discipline complete queries).at none tr i) c r = some (tx, ds) →
      w.db.opened.length ≤ tx ∨ ∃ ds', (discipline complete queries).at none tr i = some (tx, ds')) :
    Kept (discipline complete queries) complete queries s₀ w' (⟨i, c, r⟩ :: tr) := by
  -- another execution has another transaction open
  have other : ∀ j, j ≠ i → ∀ tx ds, (discipline complete queries).at none tr j = some (tx, ds) →
      ∀ ds', mirrorNext ((discipline complete queries).at none tr i) c r ≠ some (tx, ds') := by
    intro j hji tx ds hj ds' hi
    rcases hnew tx ds' hi with hlen | ⟨ds'', hi'⟩
    · have := (h.mirrors j tx ds hj).1
      omega
    · exact hji (h.owner j i tx ds ds'' hj hi')
  refine ⟨hs, ha, fun j => ?_, fun j k tx ds ds' hj hk => ?_⟩
  · rcases eq_or_ne i j with rfl | hne
    · rw [Protocol.at_self]; exact hm
    · rw [Protocol.at_other _ hne]
      refine (h.mirrors j).unmoved hu fun tx ds hj he => ?_
      obtain ⟨ds', hi⟩ := hown tx he.symm
      exact hne (h.owner i j tx ds' ds hi hj)
  · rcases eq_or_ne i j with rfl | hij
    · rw [Protocol.at_self] at hj
      rcases eq_or_ne i k with rfl | hik
      · rfl
      · rw [Protocol.at_other _ hik] at hk
        exact absurd hj (other k (Ne.symm hik) tx ds' hk ds)
    · rw [Protocol.at_other _ hij] at hj
      rcases eq_or_ne i k with rfl | hik
      · rw [Protocol.at_self] at hk
        exact absurd hk (other j (Ne.symm hij) tx ds hj ds')
      · rw [Protocol.at_other _ hik] at hk
        exact h.owner j k tx ds ds' hj hk

theorem mirrors_none (db : Database S) : Mirrors db none := fun _ _ h => by cases h

/-- A call that moves the database no further than the server may at any time. -/
theorem Kept.still (h : Kept (discipline complete queries) complete queries s₀ w tr) {i : ℕ}
    {c : Call S} {r : (Client S Name Exn).Reply c} (hs : Sound s₀ w'.db)
    (ha : ∀ d ∈ w'.db.history, Allowed complete queries d) (hu : Unmoved none w.db w'.db)
    (hm : mirrorNext ((discipline complete queries).at none tr i) c r = none ∨
      mirrorNext ((discipline complete queries).at none tr i) c r =
        (discipline complete queries).at none tr i) :
    Kept (discipline complete queries) complete queries s₀ w' (⟨i, c, r⟩ :: tr) := by
  refine h.step hs ha hu (fun tx he => by cases he) ?_ fun tx ds he => ?_
  · rcases hm with hm | hm
    · rw [hm]; exact mirrors_none _
    · rw [hm]; exact (h.mirrors i).unmoved hu fun _ _ _ he => by cases he
  · rcases hm with hm | hm
    · rw [hm] at he; cases he
    · rw [hm] at he; exact Or.inr ⟨ds, he⟩

/-- A call that did not work leaves the mirror, or closes it. -/
theorem mirrorNext_error (l : Mirror S) {c : Call S} {r : (Client S Name Exn).Reply c} {e : Exn}
    (hr : r = .error e) : mirrorNext l c r = none ∨ mirrorNext l c r = l := by
  subst hr
  cases c with
  | run tx c => exact Or.inl rfl
  | commit tx => exact Or.inl rfl
  | rollback tx => exact Or.inl rfl
  | start => exact Or.inr rfl
  | connect => exact Or.inr rfl
  | close => exact Or.inr rfl
  | query q => exact Or.inr rfl

/-- The mirror of the execution whose transaction gets one more statement. -/
theorem Kept.run (h : Kept (discipline complete queries) complete queries s₀ w tr) {i tx : ℕ}
    {c : S.Stmt} {a : S.Ret c} {db : Database S} (hrun : w.db.run? tx c = some (a, db))
    {ds : List (Did S)} (hi : (discipline complete queries).at none tr i = some (tx, ds)) :
    Mirrors db (some (tx, ds ++ [⟨c, a⟩])) := by
  obtain ⟨o, s, t, ho, -, -, -, rfl⟩ := run_cases hrun
  obtain ⟨hlt, hds⟩ := h.mirrors i tx ds hi
  intro tx' ds' he
  cases he
  refine ⟨by simpa [put] using hlt, fun o' ho' => ?_⟩
  rw [at_put_self ho] at ho'
  cases ho'
  rw [hds o ho]

/-- **Every call of the discipline keeps the server sound.** -/
theorem Kept.serve (h : Kept (discipline complete queries) complete queries s₀ w tr) {i : ℕ}
    {c : Call S} {f : Fault Exn} {r : (Client S Name Exn).Reply c}
    (hc : (discipline complete queries : Protocol (Client S Name Exn) _).allow
      ((discipline complete queries).at none tr i) c)
    (hs : (server S Name Exn).serve c f w = some (r, w')) :
    Kept (discipline complete queries) complete queries s₀ w' (⟨i, c, r⟩ :: tr) := by
  rcases Machine.serve_cases hs with ⟨e, rfl, rfl, rfl⟩ | ⟨a, ha, hr⟩
  · exact h.still h.sound h.allowed ⟨Nat.le_refl _, fun _ _ _ _ ho => ho⟩ (mirrorNext_error _ rfl)
  -- the call took effect, and answered or raised
  have raised : ∀ {P : Prop}, (∀ e, r = .error e → P) → (r = .ok a → P) → P := by
    intro P herr hok
    rcases hr with ⟨-, rfl⟩ | ⟨e, -, rfl⟩
    · exact hok rfl
    · exact herr e rfl
  cases c with
  | connect =>
    cases ha
    exact h.still h.sound h.allowed ⟨Nat.le_refl _, fun _ _ _ _ ho => ho⟩ (Or.inr rfl)
  | close =>
    cases ha
    exact h.still h.sound h.allowed ⟨Nat.le_refl _, fun _ _ _ _ ho => ho⟩ (Or.inr rfl)
  | start =>
    cases ha
    refine raised (fun e he => ?_) fun he => ?_
    · subst he
      exact h.still h.sound.start h.allowed (unmoved_start w.db) (Or.inr rfl)
    · subst he
      refine h.step h.sound.start h.allowed (unmoved_start w.db) (fun tx he => by cases he) ?_
        fun tx ds he => by cases he; exact Or.inl (Nat.le_refl _)
      intro tx ds he
      cases he
      refine ⟨by simp [Database.start], fun o ho => ?_⟩
      rcases at_start ho with ⟨-, rfl⟩ | ho
      · rfl
      · exact absurd (at_lt ho) (Nat.lt_irrefl _)
  | run tx c =>
    obtain ⟨⟨b, db⟩, hrun, he⟩ := Option.map_eq_some_iff.1 ha
    cases he
    obtain ⟨ds, hds⟩ := hc
    have hist : db.history = w.db.history := by
      obtain ⟨o, s, t, -, -, -, -, rfl⟩ := run_cases hrun
      rfl
    refine h.step (h.sound.run hrun) (by rw [hist]; exact h.allowed) (unmoved_run hrun)
      (fun tx' he => by cases he; exact ⟨ds, hds⟩) ?_ fun tx' ds' he => ?_
    · refine raised (fun e he => ?_) fun he => ?_
      · subst he; exact mirrors_none _
      · subst he
        rw [hds]
        exact h.run hrun hds
    · refine raised (fun e hr' => ?_) fun hr' => ?_
      · subst hr'; cases he
      · subst hr'
        rw [hds] at he
        cases he
        exact Or.inr ⟨ds, hds⟩
  | commit tx =>
    obtain ⟨db, hcom, he⟩ := Option.map_eq_some_iff.1 ha
    cases he
    obtain ⟨ds, hds, hcomplete⟩ := hc
    refine h.still (h.sound.commit hcom) ?_ (unmoved_commit hcom) (Or.inl ?_)
    · obtain ⟨o, s, ho, -, rfl⟩ := commit_cases hcom
      refine List.forall_mem_cons.2 ⟨?_, h.allowed⟩
      have hdid : o.did = ds := (h.mirrors i tx ds hds).2 o ho
      show complete o.did
      rw [hdid]
      exact hcomplete
    · refine raised (fun e he => ?_) fun he => ?_
      · subst he; rfl
      · subst he; rfl
  | rollback tx =>
    cases ha
    refine h.still (h.sound.rollback tx) h.allowed (unmoved_rollback w.db tx) (Or.inl ?_)
    refine raised (fun e he => ?_) fun he => ?_
    · subst he; rfl
    · subst he; rfl
  | query q =>
    obtain ⟨⟨b, db⟩, hq, he⟩ := Option.map_eq_some_iff.1 ha
    cases he
    refine h.still (h.sound.query hq) ?_ (unmoved_query hq) (Or.inr ?_)
    · obtain ⟨-, t, -, rfl⟩ := query_cases hq
      exact List.forall_mem_cons.2 ⟨hc, h.allowed⟩
    · refine raised (fun e he => ?_) fun he => ?_
      · subst he; rfl
      · subst he; rfl

theorem Kept.move (h : Kept (discipline complete queries) complete queries s₀ w tr)
    {m : ServerMove} (hm : (server S Name Exn).move m w = some w') :
    Kept (discipline complete queries) complete queries s₀ w' tr := by
  cases m with
  | elapse d =>
    cases hm
    exact ⟨h.sound.elapse d, h.allowed, h.mirrors, h.owner⟩
  | lose tx =>
    cases hm
    refine ⟨h.sound.rollback tx, h.allowed, fun i => ?_, h.owner⟩
    exact (h.mirrors i).unmoved (unmoved_rollback w.db tx) fun _ _ _ he => by cases he

theorem kept_invariant : Async.Invariant (server S Name Exn) (discipline complete queries) none
    (Kept (discipline complete queries) complete queries s₀) where
  draw _ _ h := ⟨h.sound, h.allowed, h.mirrors, h.owner⟩
  move _ _ _ _ h hm := h.move hm
  serve _ _ _ _ _ _ _ h hc hs := h.serve hc hs

theorem kept_start (now : ℤ) (supply : ℕ → Name) :
    Kept (discipline complete queries) complete queries s₀ (Server.start s₀ now supply)
      ([] : List (Entry (Client S Name Exn))) := by
  refine ⟨Sound.init now, fun c hc => ?_, fun i => mirrors_none _, fun i j tx ds ds' hi _ => ?_⟩
  · cases hc
  · cases hi

/-- **Any interleaving of programs that keep the discipline** leaves a history that is a
serial execution of complete transactions and allowed statements. -/
theorem run_sound {xs : List (Async.Input (server S Name Exn))} {now : ℤ} {supply : ℕ → Name}
    {p : Pool (server S Name Exn)} (hx : Async.Started (discipline complete queries) none xs)
    (h : (Pool.init (Server.start s₀ now supply)).run? xs = some p) :
    Sound s₀ p.state.db ∧ ∀ c ∈ p.state.db.history, Allowed complete queries c := by
  obtain ⟨hkept, -⟩ := Pool.run_inv (M := server S Name Exn) kept_invariant hx (Pool.init_ok _)
    (kept_start now supply) h
  exact ⟨hkept.sound, hkept.allowed⟩

end Run

/-! ## What any client can do -/

/-- The server goes on: it stays sound, and its history only grows. -/
structure Grows (w w' : Server S Name) : Prop where
  sound : ∀ s₀, Sound s₀ w.db → Sound s₀ w'.db
  history : w.db.history <:+ w'.db.history

theorem Grows.refl (w : Server S Name) : Grows w w := ⟨fun _ h => h, List.suffix_refl _⟩

theorem Grows.trans {w w₁ w₂ : Server S Name} (h : Grows w w₁) (h₁ : Grows w₁ w₂) : Grows w w₂ :=
  ⟨fun s₀ hs => h₁.sound s₀ (h.sound s₀ hs), h.history.trans h₁.history⟩

theorem grows_serve {w w' : Server S Name} {c : Call S} {f : Fault Exn}
    {r : (Client S Name Exn).Reply c} (h : (server S Name Exn).serve c f w = some (r, w')) :
    Grows w w' := by
  rcases Machine.serve_state h with ⟨-, a, ha⟩ | ⟨-, rfl⟩
  · cases c with
    | connect => cases ha; exact Grows.refl w
    | close => cases ha; exact Grows.refl w
    | start => cases ha; exact ⟨fun _ hs => hs.start, List.suffix_refl _⟩
    | rollback tx => cases ha; exact ⟨fun _ hs => hs.rollback tx, List.suffix_refl _⟩
    | run tx c =>
      obtain ⟨⟨b, db⟩, hrun, he⟩ := Option.map_eq_some_iff.1 ha
      cases he
      refine ⟨fun _ hs => hs.run hrun, ?_⟩
      obtain ⟨o, s, t, -, -, -, -, rfl⟩ := run_cases hrun
      exact List.suffix_refl _
    | commit tx =>
      obtain ⟨db, hcom, he⟩ := Option.map_eq_some_iff.1 ha
      cases he
      refine ⟨fun _ hs => hs.commit hcom, ?_⟩
      obtain ⟨o, s, -, -, rfl⟩ := commit_cases hcom
      exact List.suffix_cons _ _
    | query q =>
      obtain ⟨⟨b, db⟩, hq, he⟩ := Option.map_eq_some_iff.1 ha
      cases he
      refine ⟨fun _ hs => hs.query hq, ?_⟩
      obtain ⟨-, t, -, rfl⟩ := query_cases hq
      exact List.suffix_cons _ _
  · exact Grows.refl _

/-- **All that a statement by itself does to the tables**, and how it answers. -/
theorem serve_query {w w' : Server S Name} {q : S.Query} {f : Fault Exn}
    {r : (Client S Name Exn).Reply (.query q)}
    (h : (server S Name Exn).serve (.query q) f w = some (r, w')) :
    (¬ f.Lands ∧ w'.db.current = w.db.current ∧ ∃ e, r = .error e) ∨
      (f.Lands ∧ ∃ a, S.query q w.db.clock w.db.current = some (a, w'.db.current) ∧
        (r = .ok a ∨ ∃ e, r = .error e)) := by
  rcases Machine.serve_cases h with ⟨e, rfl, rfl, rfl⟩ | ⟨a, ha, hr⟩
  · exact Or.inl ⟨id, rfl, e, rfl⟩
  · obtain ⟨db, hq, rfl⟩ := effect_query ha
    obtain ⟨-, t, ht, rfl⟩ := query_cases hq
    rcases hr with ⟨rfl, rfl⟩ | ⟨e, rfl, rfl⟩
    · exact Or.inr ⟨trivial, a, ht, Or.inl rfl⟩
    · exact Or.inr ⟨trivial, a, ht, Or.inr ⟨e, rfl⟩⟩

/-- **All that a call does to the tables**, where it is no statement by itself: nothing, or it
commits a transaction. -/
theorem serve_turns {w w' : Server S Name} {s₀ : S.State} {c : Call S} {f : Fault Exn}
    {r : (Client S Name Exn).Reply c} (hw : Sound s₀ w.db) (hc : ∀ q, c ≠ .query q)
    (h : (server S Name Exn).serve c f w = some (r, w')) :
    w'.db.current = w.db.current ∨ ∃ tx began did,
      w'.db.history = .transaction tx began did :: w.db.history ∧
        (Commit.transaction tx began did).Turns w.db.current w'.db.current := by
  rcases Machine.serve_state h with ⟨-, a, ha⟩ | ⟨-, rfl⟩
  case inr => exact Or.inl rfl
  cases c with
  | connect => cases ha; exact Or.inl rfl
  | close => cases ha; exact Or.inl rfl
  | start => cases ha; exact Or.inl rfl
  | rollback tx => cases ha; exact Or.inl rfl
  | run tx c =>
    obtain ⟨⟨b, db⟩, hrun, he⟩ := Option.map_eq_some_iff.1 ha
    cases he
    obtain ⟨o, s, t, -, -, -, -, rfl⟩ := run_cases hrun
    exact Or.inl rfl
  | commit tx =>
    obtain ⟨db, hcom, he⟩ := Option.map_eq_some_iff.1 ha
    cases he
    obtain ⟨o, s, ho, hs, rfl⟩ := commit_cases hcom
    obtain ⟨t, ht⟩ := hw.runs ho
    have hts : t = s := Option.some.inj (ht.replay_eq.symm.trans hs)
    rw [hts] at ht
    exact Or.inr ⟨tx, o.began, o.did, rfl, o.held, ht⟩
  | query q => exact absurd rfl (hc q)

theorem grows_step {p q : Pool (server S Name Exn)} {x : Async.Input (server S Name Exn)}
    (h : p.step? x = some q) : Grows p.state q.state := by
  rcases Pool.step_cases h with ⟨_, -, rfl⟩ | ⟨_, _, _, -, -, rfl⟩ | ⟨_, _, _, _, _, _, -, -, hs, rfl⟩ |
    ⟨m, w, -, hm, rfl⟩
  · exact Grows.refl _
  · exact ⟨fun _ hs => hs, List.suffix_refl _⟩
  · exact grows_serve hs
  · cases m with
    | elapse d => cases hm; exact ⟨fun _ hs => hs.elapse d, List.suffix_refl _⟩
    | lose tx => cases hm; exact ⟨fun _ hs => hs.rollback tx, List.suffix_refl _⟩

/-- **Whatever the clients do, and in whatever order**, the server stays sound and its
history only grows. -/
theorem grows_run {xs : List (Async.Input (server S Name Exn))} :
    ∀ {p q : Pool (server S Name Exn)}, p.run? xs = some q → Grows p.state q.state := by
  induction xs with
  | nil => intro p q h; cases h; exact Grows.refl _
  | cons x xs ih =>
    intro p q h
    obtain ⟨p₁, hp₁, hr⟩ := Pool.run_cons h
    exact (grows_step hp₁).trans (ih hr)

/-- The commits between two states lead from the one to the other. -/
theorem Grows.serial {w w' : Server S Name} {s₀ : S.State} (h : Grows w w') (hw : Sound s₀ w.db) :
    ∃ newer, w'.db.history = newer ++ w.db.history ∧
      Serial w.db.current newer w'.db.current := by
  obtain ⟨newer, hn⟩ := h.history
  have hs := (h.sound s₀ hw).serial
  rw [← hn] at hs
  obtain ⟨s, hold, hnew⟩ := hs.split
  cases hold.unique hw.serial
  exact ⟨newer, hn.symm, hnew⟩

/-- What every commit keeps holds as the server goes on. -/
theorem Grows.keeps {w w' : Server S Name} {s₀ : S.State} {J : S.State → Prop} (h : Grows w w')
    (hw : Sound s₀ w.db) (hJ : J w.db.current) (hstep : ∀ c s t, J s → Commit.Turns c s t → J t) :
    J w'.db.current := by
  obtain ⟨newer, -, hserial⟩ := h.serial hw
  exact hserial.inv (P := fun _ => True) hJ (fun c s t _ => hstep c s t) fun _ _ => trivial

variable (Exn) in
/-- **Others at work** between two states: any programs, in any order, with any faults, as
long as what they commit is `P`. -/
structure Meanwhile (P : Commit S → Prop) (w w' : Server S Name) : Prop where
  run : ∃ (p q : Pool (server S Name Exn)) (xs : List (Async.Input (server S Name Exn))),
    p.state = w ∧ p.run? xs = some q ∧ q.state = w'
  commits : ∀ newer, w'.db.history = newer ++ w.db.history → ∀ c ∈ newer, P c

/-- Nothing may happen. -/
theorem Meanwhile.refl (P : Commit S → Prop) (w : Server S Name) : Meanwhile Exn P w w := by
  refine ⟨⟨Pool.init w, Pool.init w, [], rfl, rfl, rfl⟩, fun newer h c hc => ?_⟩
  have hnil : newer = [] := List.self_eq_append_left.1 h
  rw [hnil] at hc
  cases hc

/-- **What others keep**: the server stays sound, and what every commit of theirs keeps
holds of the tables. -/
theorem Meanwhile.keeps {P : Commit S → Prop} {w w' : Server S Name} {s₀ : S.State}
    {J : S.State → Prop} (h : Meanwhile Exn P w w') (hw : Sound s₀ w.db) (hJ : J w.db.current)
    (hstep : ∀ c s t, P c → J s → c.Turns s t → J t) : Sound s₀ w'.db ∧ J w'.db.current := by
  obtain ⟨p, q, xs, rfl, hrun, rfl⟩ := h.run
  have hgrows : Grows p.state q.state := grows_run hrun
  obtain ⟨newer, hn, hserial⟩ := hgrows.serial hw
  exact ⟨hgrows.sound s₀ hw, hserial.inv hJ hstep (h.commits newer hn)⟩

end Sql
