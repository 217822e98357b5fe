import Mathlib.Data.Int.Notation
import Mathlib.Data.List.Basic
import Mathlib.Data.Nat.Notation

/-!
# Transactions under row locks

A database server that runs any number of transactions at once. A statement locks the
rows it reads to change them, and the unique index entries it makes or frees; it waits
while another transaction holds one of them, it sees the latest committed state and its
own transaction's changes, and all locks are held to the end of the transaction.

* `Schema`: tables with their statements. Its laws are all that the server relies on:
  outside its locks a statement changes nothing (`frame`), what it answers and makes
  under its locks depends on nothing else (`under_locks`), and an answer that no lock
  protects, as that of a plain `SELECT` or of a search that found no row, comes with no
  change (`plain`).
* `Database.run?`, `commit?`, `rollback`, `query?`: one statement, the end of a
  transaction, and a statement in a transaction of its own.
* `Sound`: the locks of two open transactions are apart, and the statements of an open
  transaction would answer the same on the committed state.
* `Sound.serial`: **the commits in their order are a serial execution**, in which every
  statement whose answer the locks protect gives the answer it gave.
-/

namespace Sql

/-- Tables as transactions see them. `Cell` is what stands under a lock: a row, or the
entry of a unique index. `pinned` says of which answers the locks keep them true. A `Query`
is a statement outside a transaction block. -/
structure Schema where
  State : Type
  Key : Type
  Cell : Type
  cell : State → Key → Cell
  Stmt : Type
  Ret : Stmt → Type
  exec : (c : Stmt) → ℤ → State → Option (Ret c × State)
  locks : Stmt → State → List Key
  pinned : (c : Stmt) → Ret c → Bool
  Query : Type
  Answer : Query → Type
  query : (q : Query) → ℤ → State → Option (Answer q × State)
  queryLocks : Query → State → List Key
  [decidableKey : DecidableEq Key]
  frame : ∀ {c now s a t k}, exec c now s = some (a, t) → k ∉ locks c s → cell t k = cell s k
  plain : ∀ {c now s a t}, exec c now s = some (a, t) → pinned c a = false → t = s
  under_locks : ∀ {c now s a t s'}, exec c now s = some (a, t) → pinned c a = true →
    (∀ k ∈ locks c s, cell s' k = cell s k) → locks c s' = locks c s ∧
      ∃ t', exec c now s' = some (a, t') ∧ ∀ k ∈ locks c s, cell t' k = cell t k
  query_frame : ∀ {q now s a t k}, query q now s = some (a, t) → k ∉ queryLocks q s →
    cell t k = cell s k

attribute [instance] Schema.decidableKey

variable {S : Schema}

/-- A statement that was run, with its answer. -/
structure Did (S : Schema) where
  stmt : S.Stmt
  answer : S.Ret stmt

/-- An open transaction: when it began, its statements so far, and the locks it holds. -/
structure Open (S : Schema) where
  began : ℤ
  did : List (Did S)
  held : List S.Key

/-- What was committed: a transaction, or a statement by itself. -/
inductive Commit (S : Schema) where
  | transaction (tx : ℕ) (began : ℤ) (did : List (Did S))
  | query (now : ℤ) (q : S.Query) (answer : S.Answer q)

/-- The history lists the commits, the latest first. A transaction is numbered by its
place in `opened`, and leaves `none` there. -/
structure Database (S : Schema) where
  current : S.State
  clock : ℤ
  opened : List (Option (Open S))
  history : List (Commit S)

/-! ## Statements in a row -/

/-- The state after the statements. -/
def replay (now : ℤ) : List (Did S) → S.State → Option S.State
  | [], s => some s
  | d :: ds, s =>
    if S.pinned d.stmt d.answer then
      (S.exec d.stmt now s).bind fun a => replay now ds a.2
    else replay now ds s

/-- The statements lead from `s` to `t` under the locks, each with its pinned answer. -/
def Runs (now : ℤ) (held : List S.Key) : List (Did S) → S.State → S.State → Prop
  | [], s, t => t = s
  | d :: ds, s, t =>
    if S.pinned d.stmt d.answer then
      (∀ k ∈ S.locks d.stmt s, k ∈ held) ∧
        ∃ u, S.exec d.stmt now s = some (d.answer, u) ∧ Runs now held ds u t
    else Runs now held ds s t

namespace Runs

variable {now : ℤ} {held : List S.Key} {d : Did S} {ds : List (Did S)} {s t : S.State}

theorem of_pinned (hd : S.pinned d.stmt d.answer = true) : Runs now held (d :: ds) s t ↔
    (∀ k ∈ S.locks d.stmt s, k ∈ held) ∧
      ∃ u, S.exec d.stmt now s = some (d.answer, u) ∧ Runs now held ds u t := by
  rw [Runs, if_pos hd]

theorem of_plain (hd : ¬ S.pinned d.stmt d.answer = true) :
    Runs now held (d :: ds) s t ↔ Runs now held ds s t := by
  rw [Runs, if_neg hd]

theorem replay_eq : ∀ {ds : List (Did S)} {s : S.State}, Runs now held ds s t →
    replay now ds s = some t := by
  intro ds
  induction ds with
  | nil => intro s h; exact congrArg some h.symm
  | cons d ds ih =>
    intro s h
    by_cases hd : S.pinned d.stmt d.answer = true
    · obtain ⟨-, u, hu, hr⟩ := (of_pinned hd).1 h
      rw [replay, if_pos hd, hu, Option.bind_some]
      exact ih hr
    · rw [replay, if_neg hd]
      exact ih ((of_plain hd).1 h)

/-- Statements change nothing outside the locks. -/
theorem frame {k : S.Key} (hk : k ∉ held) : ∀ {ds : List (Did S)} {s : S.State},
    Runs now held ds s t → S.cell t k = S.cell s k := by
  intro ds
  induction ds with
  | nil => intro s h; rw [h]
  | cons d ds ih =>
    intro s h
    by_cases hd : S.pinned d.stmt d.answer = true
    · obtain ⟨hl, u, hu, hr⟩ := (of_pinned hd).1 h
      have hstep : S.cell u k = S.cell s k := S.frame hu fun hk' => hk (hl k hk')
      exact (ih hr).trans hstep
    · exact ih ((of_plain hd).1 h)

/-- **Statements depend only on what stands under their locks.** -/
theorem congr : ∀ {ds : List (Did S)} {s s' : S.State}, Runs now held ds s t →
    (∀ k ∈ held, S.cell s' k = S.cell s k) →
    ∃ t', Runs now held ds s' t' ∧ ∀ k ∈ held, S.cell t' k = S.cell t k := by
  intro ds
  induction ds with
  | nil => intro s s' h hs; exact ⟨s', rfl, by rw [h]; exact hs⟩
  | cons d ds ih =>
    intro s s' h hs
    by_cases hd : S.pinned d.stmt d.answer = true
    case neg =>
      obtain ⟨t', hr', ht'⟩ := ih ((of_plain hd).1 h) hs
      exact ⟨t', (of_plain hd).2 hr', ht'⟩
    obtain ⟨hl, u, hu, hr⟩ := (of_pinned hd).1 h
    obtain ⟨hlocks, u', hu', hcell⟩ := S.under_locks hu hd fun k hk => hs k (hl k hk)
    have hafter : ∀ k ∈ held, S.cell u' k = S.cell u k := by
      intro k hk
      by_cases hk' : k ∈ S.locks d.stmt s
      · exact hcell k hk'
      · -- a lock of another statement: neither execution moved what stands under it
        rw [S.frame hu hk', S.frame hu' (by rw [hlocks]; exact hk')]
        exact hs k hk
    obtain ⟨t', hr', ht'⟩ := ih hr hafter
    exact ⟨t', (of_pinned hd).2 ⟨by rw [hlocks]; exact hl, u', hu', hr'⟩, ht'⟩

/-- One more statement, and the locks it takes. -/
theorem snoc {c : S.Stmt} {a : S.Ret c} {u : S.State} (hc : S.exec c now t = some (a, u)) :
    ∀ {ds : List (Did S)} {s : S.State}, Runs now held ds s t →
    Runs now (held ++ S.locks c t) (ds ++ [⟨c, a⟩]) s u := by
  intro ds
  induction ds with
  | nil =>
    intro s h
    rw [h] at hc ⊢
    by_cases hp : S.pinned c a = true
    · exact (of_pinned hp).2 ⟨fun k hk => List.mem_append_right _ hk, u, hc, rfl⟩
    · have hus : u = s := S.plain hc (by simpa using hp)
      exact (of_plain hp).2 hus
  | cons d ds ih =>
    intro s h
    by_cases hd : S.pinned d.stmt d.answer = true
    · obtain ⟨hl, v, hv, hr⟩ := (of_pinned hd).1 h
      exact (of_pinned hd).2 ⟨fun k hk => List.mem_append_left _ (hl k hk), v, hv, ih hr⟩
    · exact (of_plain hd).2 (ih ((of_plain hd).1 h))

end Runs

/-- A commit leads from one committed state to the next. -/
def Commit.Turns : Commit S → S.State → S.State → Prop
  | .transaction _ began did, s, t => ∃ held, Runs began held did s t
  | .query now q answer, s, t => S.query q now s = some (answer, t)

/-- The commits, run one after the other from `s₀`, lead to `t`. -/
def Serial (s₀ : S.State) : List (Commit S) → S.State → Prop
  | [], t => t = s₀
  | c :: cs, t => ∃ s, Serial s₀ cs s ∧ c.Turns s t

/-- **Invariants of serial executions.** -/
theorem Serial.inv {s₀ : S.State} {J : S.State → Prop} {P : Commit S → Prop} (h₀ : J s₀)
    (hstep : ∀ c s t, P c → J s → c.Turns s t → J t) :
    ∀ {cs : List (Commit S)} {t : S.State}, (∀ c ∈ cs, P c) → Serial s₀ cs t → J t := by
  intro cs
  induction cs with
  | nil => intro t _ h; rw [h]; exact h₀
  | cons c cs ih =>
    intro t hP h
    obtain ⟨s, hs, hc⟩ := h
    have hJ : J s := ih (fun c' hc' => hP c' (List.mem_cons_of_mem _ hc')) hs
    exact hstep c s t (hP c List.mem_cons_self) hJ hc

theorem Commit.Turns.unique {c : Commit S} {s t u : S.State} (ht : c.Turns s t) (hu : c.Turns s u) :
    t = u := by
  cases c with
  | transaction tx began did =>
    obtain ⟨_, ht⟩ := ht
    obtain ⟨_, hu⟩ := hu
    exact Option.some.inj (ht.replay_eq.symm.trans hu.replay_eq)
  | query now q answer => exact congrArg Prod.snd (Option.some.inj (ht.symm.trans hu))

theorem Serial.unique {s₀ : S.State} {cs : List (Commit S)} :
    ∀ {t u : S.State}, Serial s₀ cs t → Serial s₀ cs u → t = u := by
  induction cs with
  | nil => intro t u ht hu; exact ht.trans hu.symm
  | cons c cs ih =>
    intro t u ht hu
    obtain ⟨s, hs, hct⟩ := ht
    obtain ⟨s', hs', hcu⟩ := hu
    cases ih hs hs'
    exact hct.unique hcu

/-- A serial execution goes through the state after its older commits. -/
theorem Serial.split {s₀ t : S.State} {newer older : List (Commit S)} :
    Serial s₀ (newer ++ older) t → ∃ s, Serial s₀ older s ∧ Serial s newer t := by
  induction newer generalizing t with
  | nil => intro h; exact ⟨t, h, rfl⟩
  | cons c cs ih =>
    intro h
    obtain ⟨u, hu, hc⟩ := h
    obtain ⟨s, hs, hn⟩ := ih hu
    exact ⟨s, hs, u, hn, hc⟩

/-- Every commit is `R` between the states around it. -/
def EachTurn (R : Commit S → S.State → S.State → Prop) (s₀ : S.State) (cs : List (Commit S)) : Prop :=
  ∀ newer c older, cs = newer ++ c :: older → ∀ s t, Serial s₀ older s → c.Turns s t → R c s t

theorem eachTurn_nil {R : Commit S → S.State → S.State → Prop} {s₀ : S.State} : EachTurn R s₀ [] := by
  intro newer c older h
  simp at h

/-- **One more commit.** -/
theorem eachTurn_cons {R : Commit S → S.State → S.State → Prop} {s₀ s t : S.State} {c : Commit S}
    {cs : List (Commit S)} (hs : Serial s₀ cs s) (ht : c.Turns s t) :
    EachTurn R s₀ (c :: cs) ↔ EachTurn R s₀ cs ∧ R c s t := by
  constructor
  · intro h
    refine ⟨fun newer d older hcs => h (c :: newer) d older ?_, h [] c cs rfl s t hs ht⟩
    rw [hcs]
    rfl
  · rintro ⟨h, hc⟩ newer d older hcs s' t' hs' ht'
    cases newer with
    | nil =>
      obtain ⟨rfl, rfl⟩ := List.cons.inj hcs
      rw [hs'.unique hs] at ht' ⊢
      rw [ht'.unique ht]
      exact hc
    | cons e newer => exact h newer d older (List.cons.inj hcs).2 s' t' hs' ht'

/-! ## The server -/

namespace Database

/-- The transaction of a number, while it is open. -/
def at? (db : Database S) (tx : ℕ) : Option (Open S) := db.opened[tx]?.join

/-- No transaction but one's own holds the lock. -/
def Free (db : Database S) (own : Option ℕ) (k : S.Key) : Prop :=
  ∀ i < db.opened.length, some i ≠ own → ∀ o ∈ db.at? i, k ∉ o.held

instance (db : Database S) (own : Option ℕ) (k : S.Key) : Decidable (db.Free own k) :=
  inferInstanceAs (Decidable (∀ i < _, _ → ∀ o ∈ _, _))

def put (db : Database S) (tx : ℕ) (o : Option (Open S)) : Database S :=
  { db with opened := db.opened.set tx o }

/-- `BEGIN` -/
def start (db : Database S) : ℕ × Database S :=
  (db.opened.length, { db with opened := db.opened ++ [some ⟨db.clock, [], []⟩] })

/-- A statement of a transaction; `none` while it waits for a lock, or where the tables
refuse it. -/
def run? (tx : ℕ) (c : S.Stmt) (db : Database S) : Option (S.Ret c × Database S) :=
  (db.at? tx).bind fun o => (replay o.began o.did db.current).bind fun s =>
    if ∀ k ∈ S.locks c s, db.Free (some tx) k then
      (S.exec c o.began s).map fun a =>
        (a.1, db.put tx (some
          { o with did := o.did ++ [⟨c, a.1⟩], held := o.held ++ S.locks c s }))
    else none

/-- `COMMIT` -/
def commit? (tx : ℕ) (db : Database S) : Option (Database S) :=
  (db.at? tx).bind fun o => (replay o.began o.did db.current).map fun s =>
    { db.put tx none with
      current := s, history := .transaction tx o.began o.did :: db.history }

/-- `ROLLBACK`, and what the server does with a transaction whose connection is lost. -/
def rollback (tx : ℕ) (db : Database S) : Database S := db.put tx none

/-- A statement outside a transaction block. -/
def query? (q : S.Query) (db : Database S) : Option (S.Answer q × Database S) :=
  if ∀ k ∈ S.queryLocks q db.current, db.Free none k then
    (S.query q db.clock db.current).map fun a =>
      (a.1, { db with current := a.2, history := .query db.clock q a.1 :: db.history })
  else none

/-- The clock goes on. -/
def elapse (d : ℕ) (db : Database S) : Database S := { db with clock := db.clock + d }

def init (s : S.State) (now : ℤ) : Database S := ⟨s, now, [], []⟩

/-! ### Who is open -/

theorem at_lt {db : Database S} {i : ℕ} {o : Open S} (h : db.at? i = some o) :
    i < db.opened.length := by
  by_contra hi
  unfold at? at h
  rw [List.getElem?_eq_none (by omega)] at h
  cases h

theorem free_iff {db : Database S} {own : Option ℕ} {k : S.Key} :
    db.Free own k ↔ ∀ i o, some i ≠ own → db.at? i = some o → k ∉ o.held :=
  ⟨fun h i o hi ho => h i (at_lt ho) hi o ho, fun h i _ hi o ho => h i o hi ho⟩

@[simp] theorem at_put_self {db : Database S} {tx : ℕ} {o : Open S} (h : db.at? tx = some o)
    (o' : Option (Open S)) : (db.put tx o').at? tx = o' := by
  have hlt : tx < db.opened.length := at_lt h
  simp [put, at?, hlt]

theorem at_put_other {db : Database S} {tx i : ℕ} (h : i ≠ tx) (o : Option (Open S)) :
    (db.put tx o).at? i = db.at? i := by
  simp [put, at?, List.getElem?_set_ne (Ne.symm h)]

/-- Who is open after a transaction is taken out was open before. -/
theorem at_put_none {db : Database S} {tx i : ℕ} {o : Open S}
    (h : (db.put tx none).at? i = some o) : i ≠ tx ∧ db.at? i = some o := by
  have hne : i ≠ tx := by
    rintro rfl
    have hlt : i < db.opened.length := by
      have := at_lt h
      simpa [put] using this
    simp [put, at?, hlt] at h
  rw [at_put_other hne] at h
  exact ⟨hne, h⟩

theorem at_start {db : Database S} {i : ℕ} {o : Open S} (h : db.start.2.at? i = some o) :
    (i = db.opened.length ∧ o = ⟨db.clock, [], []⟩) ∨ db.at? i = some o := by
  unfold start at? at h
  rcases Nat.lt_or_ge i db.opened.length with hi | hi
  · rw [List.getElem?_append_left hi] at h
    exact Or.inr h
  · rw [List.getElem?_append_right hi] at h
    cases hk : i - db.opened.length with
    | zero =>
      rw [hk] at h
      have ho : (⟨db.clock, [], []⟩ : Open S) = o := by simpa using h
      exact Or.inl ⟨by omega, ho.symm⟩
    | succ n => rw [hk] at h; simp at h

/-! ### What each call does -/

/-- **All that a statement can do.** -/
theorem run_cases {tx : ℕ} {c : S.Stmt} {db db' : Database S} {a : S.Ret c}
    (h : db.run? tx c = some (a, db')) :
    ∃ o s t, db.at? tx = some o ∧ replay o.began o.did db.current = some s ∧
      (∀ k ∈ S.locks c s, db.Free (some tx) k) ∧ S.exec c o.began s = some (a, t) ∧
      db' = db.put tx (some
        { o with did := o.did ++ [⟨c, a⟩], held := o.held ++ S.locks c s }) := by
  obtain ⟨o, ho, h⟩ := Option.bind_eq_some_iff.1 h
  obtain ⟨s, hs, h⟩ := Option.bind_eq_some_iff.1 h
  split at h
  · rename_i hfree
    obtain ⟨⟨a', t⟩, ha, he⟩ := Option.map_eq_some_iff.1 h
    cases he
    exact ⟨o, s, t, ho, hs, hfree, ha, rfl⟩
  · cases h

/-- **All that a commit can do.** -/
theorem commit_cases {tx : ℕ} {db db' : Database S} (h : db.commit? tx = some db') :
    ∃ o s, db.at? tx = some o ∧ replay o.began o.did db.current = some s ∧
      db' = { db.put tx none with
        current := s, history := .transaction tx o.began o.did :: db.history } := by
  obtain ⟨o, ho, h⟩ := Option.bind_eq_some_iff.1 h
  obtain ⟨s, hs, h⟩ := Option.map_eq_some_iff.1 h
  exact ⟨o, s, ho, hs, h.symm⟩

/-- **All that a statement by itself can do.** -/
theorem query_cases {q : S.Query} {db db' : Database S} {a : S.Answer q}
    (h : db.query? q = some (a, db')) :
    (∀ k ∈ S.queryLocks q db.current, db.Free none k) ∧ ∃ t,
      S.query q db.clock db.current = some (a, t) ∧
      db' = { db with current := t, history := .query db.clock q a :: db.history } := by
  unfold query? at h
  split at h
  · rename_i hfree
    obtain ⟨⟨a', t⟩, ha, he⟩ := Option.map_eq_some_iff.1 h
    cases he
    exact ⟨hfree, t, ha, rfl⟩
  · cases h

end Database

/-! ## Soundness -/

open Database

/-- What holds of the database at any time. -/
structure Sound (s₀ : S.State) (db : Database S) : Prop where
  apart : ∀ {i j o p k}, db.at? i = some o → db.at? j = some p → i ≠ j → k ∈ o.held → k ∉ p.held
  runs : ∀ {i o}, db.at? i = some o → ∃ t, Runs o.began o.held o.did db.current t
  serial : Serial s₀ db.history db.current

namespace Sound

variable {s₀ : S.State} {db db' : Database S}

theorem init (now : ℤ) : Sound s₀ (Database.init s₀ now) :=
  ⟨fun h => by simp [Database.init, at?] at h, fun h => by simp [Database.init, at?] at h, rfl⟩

theorem elapse (h : Sound s₀ db) (d : ℕ) : Sound s₀ (db.elapse d) := ⟨h.apart, h.runs, h.serial⟩

theorem start (h : Sound s₀ db) : Sound s₀ db.start.2 := by
  refine ⟨fun {i j o p k} hi hj hij hk => ?_, fun {i o} hi => ?_, h.serial⟩
  · rcases at_start hi with ⟨-, rfl⟩ | hi
    · cases hk
    · rcases at_start hj with ⟨-, rfl⟩ | hj
      · exact List.not_mem_nil
      · exact h.apart hi hj hij hk
  · rcases at_start hi with ⟨-, rfl⟩ | hi
    · exact ⟨_, rfl⟩
    · exact h.runs hi

/-- Taking a transaction out harms no other. -/
theorem rollback (h : Sound s₀ db) (tx : ℕ) : Sound s₀ (db.rollback tx) := by
  refine ⟨fun {i j o p k} hi hj hij hk => ?_, fun {i o} hi => ?_, h.serial⟩
  · exact h.apart (at_put_none hi).2 (at_put_none hj).2 hij hk
  · exact h.runs (at_put_none hi).2

/-- A statement takes only locks that are free, and adds itself to its transaction. -/
theorem run (h : Sound s₀ db) {tx : ℕ} {c : S.Stmt} {a : S.Ret c}
    (hrun : db.run? tx c = some (a, db')) : Sound s₀ db' := by
  obtain ⟨o, s, t, ho, hs, hfree, ha, rfl⟩ := run_cases hrun
  obtain ⟨s', hr⟩ := h.runs ho
  have hss : s' = s := Option.some.inj (hr.replay_eq.symm.trans hs)
  subst hss
  have away : ∀ {i p k}, i ≠ tx → db.at? i = some p → k ∈ o.held ++ S.locks c s' → k ∉ p.held := by
    intro i p k hi hp hk
    rcases List.mem_append.1 hk with hk | hk
    · exact h.apart ho hp (Ne.symm hi) hk
    · exact free_iff.1 (hfree k hk) i p (fun he => hi (Option.some.inj he)) hp
  refine ⟨fun {i j oi oj k} hi hj hij hk => ?_, fun {i oi} hi => ?_, h.serial⟩
  · by_cases hit : i = tx
    · subst hit
      rw [at_put_self ho] at hi
      rw [at_put_other (Ne.symm hij)] at hj
      cases hi
      exact away (Ne.symm hij) hj hk
    · rw [at_put_other hit] at hi
      by_cases hjt : j = tx
      · subst hjt
        rw [at_put_self ho] at hj
        cases hj
        intro hk'
        exact away hit hi hk' hk
      · rw [at_put_other hjt] at hj
        exact h.apart hi hj hij hk
  · by_cases hit : i = tx
    · subst hit
      rw [at_put_self ho] at hi
      cases hi
      exact ⟨t, hr.snoc ha⟩
    · rw [at_put_other hit] at hi
      exact h.runs hi

/-- **A commit changes nothing under the locks of the others**, so their statements would
answer the same after it. -/
theorem commit (h : Sound s₀ db) {tx : ℕ} (hc : db.commit? tx = some db') : Sound s₀ db' := by
  obtain ⟨o, s, ho, hs, rfl⟩ := commit_cases hc
  obtain ⟨s', hr⟩ := h.runs ho
  have hss : s' = s := Option.some.inj (hr.replay_eq.symm.trans hs)
  subst hss
  refine ⟨fun {i j oi oj k} hi hj hij hk => ?_, fun {i p} hi => ?_, db.current, h.serial, o.held, hr⟩
  · exact h.apart (at_put_none hi).2 (at_put_none hj).2 hij hk
  · obtain ⟨hne, hi⟩ := at_put_none hi
    obtain ⟨t, ht⟩ := h.runs hi
    have hcell : ∀ k ∈ p.held, S.cell s' k = S.cell db.current k := by
      intro k hk
      exact hr.frame (h.apart hi ho hne hk)
    obtain ⟨t', ht', -⟩ := ht.congr hcell
    exact ⟨t', ht'⟩

/-- The same for a statement by itself, which waits for every lock it needs. -/
theorem query (h : Sound s₀ db) {q : S.Query} {a : S.Answer q}
    (hq : db.query? q = some (a, db')) : Sound s₀ db' := by
  obtain ⟨hfree, t, ht, rfl⟩ := query_cases hq
  refine ⟨h.apart, fun {i p} hi => ?_, db.current, h.serial, ht⟩
  obtain ⟨u, hu⟩ := h.runs hi
  have hcell : ∀ k ∈ p.held, S.cell t k = S.cell db.current k := by
    intro k hk
    refine S.query_frame ht fun hk' => ?_
    exact free_iff.1 (hfree k hk') i p (fun he => by cases he) hi hk
  obtain ⟨u', hu', -⟩ := hu.congr hcell
  exact ⟨u', hu'⟩

end Sound

end Sql
