import CopyTrade.Async.Lockstep
import CopyTrade.Sql.Client

/-!
# A server with one client

While one program at a time is run, a lock is never held by another transaction, and the
statements of the one open transaction are run on what they made so far.

* `Idle`, `Within`: no transaction is open; one is open, and its statements led to a state.
* `effect_start`, `effect_run`, `effect_commit`, `effect_rollback`, `effect_query_idle`: what the
  calls do then.
* `Between`, `Inside`: the same of two servers side by side, whose clients draw related
  names; `lockstep_withConnection`, `lockstep_transaction`, `lockstep_run`, `lockstep_query`
  are the rules of the blocks.
-/

namespace Sql

open Async (Prog Lockstep)

variable {S : Schema} {Name Exn : Type}

/-- The statements answer as they would with one more at the end. -/
theorem replay_snoc {now : ℤ} {c : S.Stmt} {a : S.Ret c} {t u : S.State}
    (hc : S.exec c now t = some (a, u)) :
    ∀ {ds : List (Did S)} {s : S.State}, replay now ds s = some t →
      replay now (ds ++ [⟨c, a⟩]) s = some u := by
  intro ds
  induction ds with
  | nil =>
    intro s h
    cases h
    by_cases hp : S.pinned c a = true
    · rw [List.nil_append, replay, if_pos hp, hc]
      rfl
    · have hut : u = t := S.plain hc (by simpa using hp)
      rw [List.nil_append, replay, if_neg hp, hut]
      rfl
  | cons d ds ih =>
    intro s h
    rw [List.cons_append]
    by_cases hd : S.pinned d.stmt d.answer = true
    · rw [replay, if_pos hd] at h ⊢
      obtain ⟨v, hv, h⟩ := Option.bind_eq_some_iff.1 h
      rw [hv, Option.bind_some]
      exact ih h
    · rw [replay, if_neg hd] at h ⊢
      exact ih h

/-! ## One server -/

/-- No transaction is open. -/
def Idle (s : S.State) (w : Server S Name) : Prop :=
  w.db.current = s ∧ ∀ i, w.db.at? i = none

/-- One transaction is open, begun now, and led from `s₀` to `s`. -/
structure Within (tx : ℕ) (s₀ s : S.State) (w : Server S Name) : Prop where
  current : w.db.current = s₀
  own : ∃ o, w.db.at? tx = some o ∧ o.began = w.db.clock ∧ replay o.began o.did s₀ = some s
  others : ∀ i, i ≠ tx → w.db.at? i = none

/-- The clock, the draws and the numbering of transactions. -/
structure Steady (w w' : Server S Name) : Prop where
  clock : w'.db.clock = w.db.clock
  supply : w'.supply = w.supply
  issued : w'.issued = w.issued

variable {s s₀ : S.State} {w : Server S Name} {tx : ℕ}

theorem Within.free (h : Within tx s₀ s w) (k : S.Key) : w.db.Free (some tx) k := by
  refine Database.free_iff.2 fun i o hi ho => ?_
  rw [h.others i fun he => hi (congrArg some he)] at ho
  cases ho

theorem Idle.free (h : Idle s w) (k : S.Key) : w.db.Free none k := by
  refine Database.free_iff.2 fun i o _ ho => ?_
  rw [h.2 i] at ho
  cases ho

variable (Exn) in
theorem effect_start (h : Idle s w) : ∃ w', (server S Name Exn).effect .start w =
      some (w.db.opened.length, w') ∧ Within w.db.opened.length s s w' ∧ Steady w w' ∧
        w'.db.opened.length = w.db.opened.length + 1 := by
  refine ⟨{ w with db := w.db.start.2 }, rfl, ⟨h.1, ?_, fun i hi => ?_⟩, ⟨rfl, rfl, rfl⟩, ?_⟩
  · refine ⟨⟨w.db.clock, [], []⟩, ?_, rfl, rfl⟩
    simp [Database.start, Database.at?]
  · cases ho : w.db.start.2.at? i with
    | none => rfl
    | some o =>
      rcases Database.at_start ho with ⟨he, -⟩ | ho
      · exact absurd he hi
      · rw [h.2 i] at ho
        cases ho
  · simp [Database.start]

variable (Exn) in
/-- **A statement of the open transaction** is run on what it made so far. -/
theorem effect_run (h : Within tx s₀ s w) (c : S.Stmt) : Option.Rel
    (fun a b => a.1 = b.1 ∧ Within tx s₀ b.2 a.2 ∧ Steady w a.2 ∧
      a.2.db.opened.length = w.db.opened.length)
    ((server S Name Exn).effect (.run tx c) w) (S.exec c w.db.clock s) := by
  obtain ⟨o, ho, hbegan, hs⟩ := h.own
  have hrun : w.db.run? tx c = (S.exec c w.db.clock s).map fun a =>
      (a.1, w.db.put tx (some
        { o with did := o.did ++ [⟨c, a.1⟩], held := o.held ++ S.locks c s })) := by
    unfold Database.run?
    rw [ho, Option.bind_some, h.current, hs, Option.bind_some, if_pos fun k _ => h.free k, hbegan]
  have heff : (server S Name Exn).effect (.run tx c) w = (w.db.run? tx c).map fun a =>
      (a.1, { w with db := a.2 }) := rfl
  rw [heff, hrun]
  cases hc : S.exec c w.db.clock s with
  | none => exact .none
  | some a =>
    refine .some ⟨rfl, ⟨h.current, ?_, fun i hi => ?_⟩, ⟨rfl, rfl, rfl⟩, by simp [Database.put]⟩
    · refine ⟨_, Database.at_put_self ho _, hbegan, ?_⟩
      rw [hbegan] at hs ⊢
      exact replay_snoc hc hs
    · exact (Database.at_put_other hi _).trans (h.others i hi)

variable (Exn) in
theorem effect_commit (h : Within tx s₀ s w) : ∃ w', (server S Name Exn).effect (.commit tx) w =
      some ((), w') ∧ Idle s w' ∧ Steady w w' ∧ w'.db.opened.length = w.db.opened.length := by
  obtain ⟨o, ho, -, hs⟩ := h.own
  set db : Database S := { w.db.put tx none with
    current := s, history := .transaction tx o.began o.did :: w.db.history } with hdb
  have hcom : w.db.commit? tx = some db := by
    unfold Database.commit?
    rw [ho, Option.bind_some, h.current, hs]
    rfl
  have heff : (server S Name Exn).effect (.commit tx) w = (w.db.commit? tx).map fun db =>
      ((), { w with db := db }) := rfl
  refine ⟨{ w with db := db }, by rw [heff, hcom]; rfl, ⟨rfl, fun i => ?_⟩, ⟨rfl, rfl, rfl⟩,
    by simp [hdb, Database.put]⟩
  by_cases hi : i = tx
  · subst hi
    exact Database.at_put_self ho none
  · exact (Database.at_put_other hi none).trans (h.others i hi)

variable (Exn) in
theorem effect_rollback (h : Within tx s₀ s w) : ∃ w',
    (server S Name Exn).effect (.rollback tx) w = some ((), w') ∧ Idle s₀ w' ∧ Steady w w' ∧
      w'.db.opened.length = w.db.opened.length := by
  obtain ⟨o, ho, -, -⟩ := h.own
  refine ⟨_, rfl, ⟨h.current, fun i => ?_⟩, ⟨rfl, rfl, rfl⟩, by simp [Database.rollback, Database.put]⟩
  by_cases hi : i = tx
  · subst hi
    exact Database.at_put_self ho none
  · exact (Database.at_put_other hi none).trans (h.others i hi)

variable (Exn) in
/-- **A statement by itself** waits for no lock. -/
theorem effect_query_idle (h : Idle s w) (q : S.Query) : Option.Rel
    (fun a b => a.1 = b.1 ∧ Idle b.2 a.2 ∧ Steady w a.2 ∧
      a.2.db.opened.length = w.db.opened.length)
    ((server S Name Exn).effect (.query q) w) (S.query q w.db.clock s) := by
  have hquery : w.db.query? q = (S.query q w.db.clock s).map fun a =>
      (a.1, { w.db with current := a.2, history := .query w.db.clock q a.1 :: w.db.history }) := by
    unfold Database.query?
    rw [if_pos fun k _ => h.free k, h.1]
  have heff : (server S Name Exn).effect (.query q) w = (w.db.query? q).map fun a =>
      (a.1, { w with db := a.2 }) := rfl
  rw [heff, hquery]
  cases hq : S.query q w.db.clock s with
  | none => exact .none
  | some a => exact .some ⟨rfl, ⟨rfl, h.2⟩, ⟨rfl, rfl, rfl⟩, rfl⟩

/-! ## Two servers -/

/-- The clocks and the numbering agree, and the draws are related. -/
structure Level (D : Name → Name → Prop) (w w' : Server S Name) : Prop where
  clock : w.db.clock = w'.db.clock
  opened : w.db.opened.length = w'.db.opened.length
  issued : w.issued = w'.issued
  supply : ∀ n, D (w.supply n) (w'.supply n)

variable {D : Name → Name → Prop} {L L₀ L₁ : S.State → S.State → Prop}

theorem Level.steady {w₁ w₂ w₁' w₂' : Server S Name} (h : Level D w₁ w₂) (h₁ : Steady w₁ w₁')
    (h₂ : Steady w₂ w₂') (hlen : w₁'.db.opened.length = w₂'.db.opened.length) : Level D w₁' w₂' where
  clock := by rw [h₁.clock, h₂.clock, h.clock]
  opened := hlen
  issued := by rw [h₁.issued, h₂.issued, h.issued]
  supply := by rw [h₁.supply, h₂.supply]; exact h.supply

/-- Between two transactions, with related tables. -/
def Between (D : Name → Name → Prop) (L : S.State → S.State → Prop) (w w' : Server S Name) : Prop :=
  Level D w w' ∧ ∃ s t, Idle s w ∧ Idle t w' ∧ L s t

/-- Inside one transaction, with related tables before and in it. -/
def Inside (D : Name → Name → Prop) (tx : ℕ) (L₀ L : S.State → S.State → Prop)
    (w w' : Server S Name) : Prop :=
  Level D w w' ∧ ∃ s₀ t₀ s t, Within tx s₀ s w ∧ Within tx t₀ t w' ∧ L₀ s₀ t₀ ∧ L s t

theorem Between.mono (hL : ∀ s t, L s t → L₁ s t) {w w' : Server S Name}
    (h : Between D L w w') : Between D L₁ w w' := by
  obtain ⟨hlevel, s, t, hs, ht, hst⟩ := h
  exact ⟨hlevel, s, t, hs, ht, hL s t hst⟩

theorem Inside.mono (hL : ∀ s t, L s t → L₁ s t) {w w' : Server S Name}
    (h : Inside D tx L₀ L w w') : Inside D tx L₀ L₁ w w' := by
  obtain ⟨hlevel, s₀, t₀, s, t, hs, ht, hst₀, hst⟩ := h
  exact ⟨hlevel, s₀, t₀, s, t, hs, ht, hst₀, hL s t hst⟩

variable {refusal : Call S → Exn} {α β : Type}

/-- **A statement of a transaction**, in both. -/
theorem lockstep_run {c d : S.Stmt} {Q : S.Ret c → S.Ret d → Prop}
    (href : refusal (.run tx c) = refusal (.run tx d))
    (h : ∀ now s t, L s t → Option.Rel (fun a b => Q a.1 b.1 ∧ L₁ a.2 b.2) (S.exec c now s)
      (S.exec d now t)) :
    Lockstep (server S Name Exn) (server S Name Exn) refusal (Inside D tx L₀ L)
      (run tx c) (run tx d) (fun a b w w' => Q a b ∧ Inside D tx L₀ L₁ w w')
      fun _ => Inside D tx L₀ L := by
  refine Async.lockstep_call href (fun w w' hin => ?_) fun w w' hin => hin
  obtain ⟨hlevel, s₀, t₀, s, t, hs, ht, hst₀, hst⟩ := hin
  have hc := effect_run Exn hs c
  have hd := effect_run Exn ht d
  have hboth := h w.db.clock s t hst
  rw [← hlevel.clock] at hd
  revert hc hd hboth
  generalize (server S Name Exn).effect (.run tx c) w = ec
  generalize (server S Name Exn).effect (.run tx d) w' = ed
  generalize S.exec c w.db.clock s = xc
  generalize S.exec d w.db.clock t = xd
  intro hc hd hboth
  cases hboth with
  | none => cases hc; cases hd; exact .none
  | some hab =>
    cases hc with
    | some hc =>
      cases hd with
      | some hd =>
        obtain ⟨hca, hcw, hcs, hcl⟩ := hc
        obtain ⟨hda, hdw, hds, hdl⟩ := hd
        refine .some ⟨by rw [hca, hda]; exact hab.1, ?_, s₀, t₀, _, _, hcw, hdw, hst₀, hab.2⟩
        exact hlevel.steady hcs hds (by rw [hcl, hdl, hlevel.opened])

/-- **A statement by itself**, in both. -/
theorem lockstep_query {q r : S.Query} {Q : S.Answer q → S.Answer r → Prop}
    (href : refusal (.query q) = refusal (.query r))
    (h : ∀ now s t, L s t → Option.Rel (fun a b => Q a.1 b.1 ∧ L₁ a.2 b.2) (S.query q now s)
      (S.query r now t)) :
    Lockstep (server S Name Exn) (server S Name Exn) refusal (Between D L)
      (query q) (query r) (fun a b w w' => Q a b ∧ Between D L₁ w w') fun _ => Between D L := by
  refine Async.lockstep_call href (fun w w' hin => ?_) fun w w' hin => hin
  obtain ⟨hlevel, s, t, hs, ht, hst⟩ := hin
  have hq := effect_query_idle Exn hs q
  have hr := effect_query_idle Exn ht r
  have hboth := h w.db.clock s t hst
  rw [← hlevel.clock] at hr
  revert hq hr hboth
  generalize (server S Name Exn).effect (.query q) w = eq'
  generalize (server S Name Exn).effect (.query r) w' = er
  generalize S.query q w.db.clock s = xq
  generalize S.query r w.db.clock t = xr
  intro hq hr hboth
  cases hboth with
  | none => cases hq; cases hr; exact .none
  | some hab =>
    cases hq with
    | some hq =>
      cases hr with
      | some hr =>
        obtain ⟨hqa, hqw, hqs, hql⟩ := hq
        obtain ⟨hra, hrw, hrs, hrl⟩ := hr
        refine .some ⟨by rw [hqa, hra]; exact hab.1, ?_, _, _, hqw, hrw, hab.2⟩
        exact hlevel.steady hqs hrs (by rw [hql, hrl, hlevel.opened])

/-- **A draw**, in both, between transactions. -/
theorem lockstep_name_between : Lockstep (server S Name Exn) (server S Name Exn) refusal
    (Between D L) Prog.name Prog.name (fun a b w w' => D a b ∧ Between D L w w')
      fun _ => Between D L := by
  refine Async.lockstep_name fun w w' hin => ?_
  obtain ⟨hlevel, s, t, hs, ht, hst⟩ := hin
  refine ⟨?_, ⟨hlevel.clock, hlevel.opened, ?_, hlevel.supply⟩, s, t, hs, ht, hst⟩
  · show D (w.supply w.issued) (w'.supply w'.issued)
    rw [← hlevel.issued]
    exact hlevel.supply w.issued
  · exact congrArg (· + 1) hlevel.issued

/-- And in one. -/
theorem lockstep_name_inside : Lockstep (server S Name Exn) (server S Name Exn) refusal
    (Inside D tx L₀ L) Prog.name Prog.name (fun a b w w' => D a b ∧ Inside D tx L₀ L w w')
      fun _ => Inside D tx L₀ L := by
  refine Async.lockstep_name fun w w' hin => ?_
  obtain ⟨hlevel, s₀, t₀, s, t, hs, ht, hst₀, hst⟩ := hin
  refine ⟨?_, ⟨hlevel.clock, hlevel.opened, ?_, hlevel.supply⟩, s₀, t₀, s, t,
    ⟨hs.current, hs.own, hs.others⟩, ⟨ht.current, ht.own, ht.others⟩, hst₀, hst⟩
  · show D (w.supply w.issued) (w'.supply w'.issued)
    rw [← hlevel.issued]
    exact hlevel.supply w.issued
  · exact congrArg (· + 1) hlevel.issued

/-- A call that does nothing. -/
theorem lockstep_still {c : Call S} {I : Server S Name → Server S Name → Prop}
    {X : Exn → Server S Name → Server S Name → Prop} {a : (Client S Name Exn).Ret c}
    (hc : ∀ w, (server S Name Exn).effect c w = some (a, w)) :
    Lockstep (server S Name Exn) (server S Name Exn) refusal I
      (Prog.call (σ := Client S Name Exn) c) (Prog.call (σ := Client S Name Exn) c)
      (fun _ _ => I) X :=
  Async.lockstep_taken fun w w' hin => ⟨a, w, a, w', hc w, hc w', hin⟩

section Ends

variable {X : Exn → Server S Name → Server S Name → Prop}

theorem lockstep_start : Lockstep (server S Name Exn) (server S Name Exn) refusal (Between D L)
    (Prog.call (σ := Client S Name Exn) .start) (Prog.call (σ := Client S Name Exn) .start)
    (fun tx tx' w w' => tx = tx' ∧ Inside D tx L L w w') X := by
  refine Async.lockstep_taken fun w w' hin => ?_
  obtain ⟨hlevel, s, t, hs, ht, hst⟩ := hin
  obtain ⟨v, hv, hin, hsteady, hlen⟩ := effect_start Exn hs
  obtain ⟨v', hv', hin', hsteady', hlen'⟩ := effect_start Exn ht
  rw [← hlevel.opened] at hin'
  refine ⟨_, v, _, v', hv, hv', hlevel.opened, ?_, s, t, s, t, hin, hin', hst, hst⟩
  exact hlevel.steady hsteady hsteady' (by rw [hlen, hlen', hlevel.opened])

theorem lockstep_commit : Lockstep (server S Name Exn) (server S Name Exn) refusal
    (Inside D tx L₀ L) (Prog.call (σ := Client S Name Exn) (.commit tx))
    (Prog.call (σ := Client S Name Exn) (.commit tx)) (fun _ _ => Between D L) X := by
  refine Async.lockstep_taken fun w w' hin => ?_
  obtain ⟨hlevel, s₀, t₀, s, t, hs, ht, -, hst⟩ := hin
  obtain ⟨v, hv, hidle, hsteady, hlen⟩ := effect_commit Exn hs
  obtain ⟨v', hv', hidle', hsteady', hlen'⟩ := effect_commit Exn ht
  refine ⟨_, v, _, v', hv, hv', ?_, s, t, hidle, hidle', hst⟩
  exact hlevel.steady hsteady hsteady' (by rw [hlen, hlen', hlevel.opened])

theorem lockstep_rollback : Lockstep (server S Name Exn) (server S Name Exn) refusal
    (fun w w' => ∃ L, Inside D tx L₀ L w w') (Prog.call (σ := Client S Name Exn) (.rollback tx))
    (Prog.call (σ := Client S Name Exn) (.rollback tx)) (fun _ _ => Between D L₀) X := by
  refine Async.lockstep_taken fun w w' hin => ?_
  obtain ⟨L, hlevel, s₀, t₀, s, t, hs, ht, hst₀, -⟩ := hin
  obtain ⟨v, hv, hidle, hsteady, hlen⟩ := effect_rollback Exn hs
  obtain ⟨v', hv', hidle', hsteady', hlen'⟩ := effect_rollback Exn ht
  refine ⟨_, v, _, v', hv, hv', ?_, s₀, t₀, hidle, hidle', hst₀⟩
  exact hlevel.steady hsteady hsteady' (by rw [hlen, hlen', hlevel.opened])

end Ends

variable {Q : α → β → Prop}

/-- **A transaction block**: committed in both with what the bodies made, or rolled back in
both. -/
theorem lockstep_transaction {p : ℕ → Prog (Client S Name Exn) α} {q : ℕ → Prog (Client S Name Exn) β}
    (h : ∀ tx, Lockstep (server S Name Exn) (server S Name Exn) refusal (Inside D tx L L) (p tx)
      (q tx) (fun a b w w' => Q a b ∧ Inside D tx L L₁ w w')
      fun _ w w' => ∃ L₂, Inside D tx L L₂ w w') :
    Lockstep (server S Name Exn) (server S Name Exn) refusal (Between D L) (transaction p)
      (transaction q) (fun a b w w' => Q a b ∧ Between D L₁ w w') fun _ => Between D L := by
  unfold transaction
  refine Async.lockstep_bind lockstep_start fun tx tx' => Async.lockstep_given fun htx => ?_
  subst htx
  refine Async.lockstep_bind (Async.lockstep_tryExcept (h tx) fun e => ?_) fun a b => ?_
  · exact Async.lockstep_bind lockstep_rollback fun _ _ => Async.lockstep_fail fun _ _ hb => hb
  · refine Async.lockstep_given fun hab => ?_
    exact Async.lockstep_bind lockstep_commit fun _ _ => Async.lockstep_done fun _ _ hb => ⟨hab, hb⟩

/-- **A connection block** does what its bodies do. -/
theorem lockstep_withConnection {p : Prog (Client S Name Exn) α} {q : Prog (Client S Name Exn) β}
    (h : Lockstep (server S Name Exn) (server S Name Exn) refusal (Between D L) p q
      (fun a b w w' => Q a b ∧ Between D L₁ w w') fun _ => Between D L) :
    Lockstep (server S Name Exn) (server S Name Exn) refusal (Between D L) (withConnection p)
      (withConnection q) (fun a b w w' => Q a b ∧ Between D L₁ w w') fun _ => Between D L := by
  unfold withConnection
  refine Async.lockstep_bind (lockstep_still (c := .connect) fun _ => rfl) fun _ _ => ?_
  refine Async.lockstep_bind (Async.lockstep_tryExcept h fun e => ?_) fun a b => ?_
  · exact Async.lockstep_bind (lockstep_still (c := .close) fun _ => rfl) fun _ _ =>
      Async.lockstep_fail fun _ _ hb => hb
  · refine Async.lockstep_given fun hab => ?_
    exact Async.lockstep_bind (lockstep_still (c := .close) fun _ => rfl) fun _ _ =>
      Async.lockstep_done fun _ _ hb => ⟨hab, hb⟩

end Sql
