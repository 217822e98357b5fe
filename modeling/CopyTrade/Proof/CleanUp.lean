import CopyTrade.Async.Begun
import CopyTrade.Proof.Startup

/-!
# What a worker closes

The `try … finally` of `run()`, which closes the bus and the pool that it has opened.

* `holding`: how often a worker has opened and closed each, and what it may call by that.
* `cleanUp_closes`: the `finally` clause closes what is owned, the bus first.
* `worker_closes`: **in any interleaving, a worker that has ended has called `close` once for
  what it opened**, but for the pool, exactly where closing the bus raised.
-/

namespace CopyTrade

open Async (Prog Protocol Pool Input)
open Python (Text)

namespace Startup

variable {xs : List (Input broker)} {p : Pool broker} {library : ClientLibrary}
  {args : RunArguments} {bus : EventBus} {handler : EventHandler} {subject durable : Text}

/-- How often a worker has opened its bus and its pool, how often it has called `close` on each,
whatever that answered, and what closing the bus has raised. -/
structure Held where
  connects : ℕ := 0
  closes : ℕ := 0
  pools : ℕ := 0
  poolCloses : ℕ := 0
  raised : Option PyException := none
  deriving DecidableEq

/-- A worker opens what it was not given, once, closes what it has opened, the bus first, and
uses a bus only while it is open. -/
def holding (args : RunArguments) : Protocol Api Held where
  allow l
    | .inr .createPool => args.processor = false ∧ args.databasePool = false ∧ l = {}
    | .inr .closePool => l.poolCloses < l.pools ∧ l.closes = l.connects ∧ l.raised = none
    | .inr .connect => args.eventBus = none ∧ l.connects = 0
    | .inr .close => l.closes < l.connects
    | _ => args.eventBus ≠ none ∨ l.closes < l.connects
  next l
    | .inr .createPool, .ok _ => { l with pools := l.pools + 1 }
    | .inr .closePool, _ => { l with poolCloses := l.poolCloses + 1 }
    | .inr .connect, .ok _ => { l with connects := l.connects + 1 }
    | .inr .close, .ok _ => { l with closes := l.closes + 1 }
    | .inr .close, .error e => { l with closes := l.closes + 1, raised := some e }
    | _, _ => l

/-- The bus can be used. -/
def Usable (args : RunArguments) (l : Held) : Prop := args.eventBus ≠ none ∨ l.closes < l.connects

/-- A worker that returns has closed what it opened, and closing the bus has not raised. -/
structure Closed (l : Held) : Prop where
  bus : l.closes = l.connects
  pool : l.poolCloses = l.pools
  raised : l.raised = none

/-- One that raises has closed its bus, and its pool exactly where closing the bus has not
raised. Otherwise this is what it raises. -/
structure ClosedBut (l : Held) (e : PyException) : Prop where
  bus : l.closes = l.connects
  pool : l.poolCloses = if l.raised = none then l.pools else 0
  raised : l.raised = none ∨ l.raised = some e

/-- It can have raised something else before. -/
theorem Closed.but {l : Held} (h : Closed l) (e : PyException) : ClosedBut l e :=
  ⟨h.bus, by rw [h.raised, if_pos rfl, h.pool], Or.inl h.raised⟩

/-- The worker has open what it owns: nothing of it is closed, and closing has not raised. -/
structure HeldOpen (l : Held) (owns : Owns) : Prop where
  connects : l.connects = if owns.eventBus then 1 else 0
  closes : l.closes = 0
  pools : l.pools = if owns.databasePool then 1 else 0
  poolCloses : l.poolCloses = 0
  raised : l.raised = none

variable {l : Held}

/-- One use of the bus. -/
theorem obeys_use {c : Call} (hallow : (holding args).allow l (.inr c))
    (hnext : ∀ r, (holding args).next l (.inr c) r = l) :
    (call c).Obeys (holding args) l (fun l' _ => l' = l) fun l' _ => l' = l :=
  Prog.obeys_call hallow (fun a => hnext (.ok a)) fun e => hnext (.error e)

theorem ensureConsumerConfig_holds (hl : Usable args l) :
    (bus.ensureConsumerConfig subject durable).Obeys (holding args) l (fun l' _ => l' = l)
      fun l' _ => l' = l := by
  unfold EventBus.ensureConsumerConfig EventBus.requireJetstream
  split
  case isFalse => rfl
  rw [Prog.pure_eq, Prog.bind_done]
  refine Prog.obeys_bind (Prog.obeys_caught ((obeys_use (c := .consumerInfo bus.streamName durable) hl
    fun r => ?_).mono ?_ ?_))
  · cases r <;> rfl
  · rintro l' answer rfl
    unfold EventBus.afterConsumerInfo EventBus.alignConsumer
    cases answer with
    | error e => dsimp only; split <;> rfl
    | ok config =>
      dsimp only
      split
      · rfl
      · refine Prog.obeys_bind ((obeys_use (c := .addConsumer _ _) hl fun r => ?_).mono ?_ fun _ _ h => h)
        · cases r <;> rfl
        · rintro l' answer rfl
          exact Prog.obeys_bind (Prog.obeys_ofExcept (fun _ _ => rfl) fun _ _ => rfl)
  · rintro l' e rfl
    unfold EventBus.afterConsumerInfo
    dsimp only
    split <;> rfl

theorem subscribeJson_holds (hdoc : Documented library) (hl : Usable args l) :
    (bus.subscribeJson library subject durable handler).Obeys (holding args) l (fun l' _ => l' = l)
      fun l' _ => l' = l := by
  unfold EventBus.subscribeJson
  have hstream : (bus.ensureStream.widen : Prog Api Unit).Obeys (holding args) l (fun l' _ => l' = l)
      fun l' _ => l' = l := Prog.obeys_widen (Prog.obeys_still (fun _ => hl) fun _ _ => rfl)
  refine Prog.obeys_bind (hstream.mono ?_ fun _ _ h => h)
  rintro l' - rfl
  refine Prog.obeys_bind ((ensureConsumerConfig_holds hl).mono ?_ fun _ _ h => h)
  rintro l' - rfl
  unfold EventBus.requireJetstream
  split
  case isFalse => rfl
  rw [Prog.pure_eq, Prog.bind_done]
  -- the library only uses the bus
  refine ((hdoc.subscribe _ _ handler).transfer (R := fun _ l'' => l'' = l') ?_ ?_ rfl).mono
    (fun _ _ h => h.choose_spec.1) fun _ _ h => h.choose_spec.1
  · rintro lookup l'' c rfl hc
    cases c with
    | inl c => exact hc.elim
    | inr c =>
      cases c with
      | consumerInfo stream durable' => exact hl
      | addConsumer stream config => exact hl
      | listen deliverSubject handler => exact hl
      | _ => exact hc.elim
  · rintro lookup l'' c r rfl hc
    cases c with
    | inl c => exact hc.elim
    | inr c =>
      cases c with
      | consumerInfo stream durable' => cases r <;> rfl
      | addConsumer stream config => cases r <;> rfl
      | listen deliverSubject handler => cases r <;> rfl
      | _ => exact hc.elim

theorem subscribeResults_holds (hdoc : Documented library) (hl : Usable args l)
    (subjects : List String) : (subscribeResults library args bus subjects).Obeys (holding args) l
      (fun l' _ => l' = l) fun l' _ => l' = l := by
  induction subjects with
  | nil => rfl
  | cons subject rest ih =>
    unfold subscribeResults
    split
    · rfl
    · refine Prog.obeys_bind ((subscribeJson_holds hdoc hl).mono ?_ fun _ _ h => h)
      rintro l' - rfl
      exact ih

theorem subscribeAndWait_holds (hdoc : Documented library) (hl : Usable args l) :
    (subscribeAndWait library args bus).Obeys (holding args) l (fun l' _ => l' = l)
      fun l' _ => l' = l := by
  unfold subscribeAndWait
  refine Prog.obeys_bind ((subscribeJson_holds hdoc hl).mono ?_ fun _ _ h => h)
  rintro l' - rfl
  refine Prog.obeys_bind ((subscribeResults_holds hdoc hl _).mono ?_ fun _ _ h => h)
  rintro l' - rfl
  refine Prog.obeys_bind ((subscribeJson_holds hdoc hl).mono ?_ fun _ _ h => h)
  rintro l' - rfl
  exact obeys_use hl fun r => by cases r <;> rfl

/-- **The `finally` clause** closes what is owned, the bus first. -/
theorem cleanUp_closes {owns : Owns} (hl : HeldOpen l owns) :
    (cleanUp owns).Obeys (holding args) l (fun l' _ => Closed l') ClosedBut := by
  obtain ⟨hconnects, hcloses, hpools, hpoolCloses, hraised⟩ := hl
  -- what is left once the bus is closed
  have hrest : ∀ l' : Held, l'.closes = l'.connects → l'.pools = l.pools → l'.poolCloses = 0 →
      l'.raised = none → (if owns.databasePool then call .closePool else pure () : Prog Api Unit).Obeys
        (holding args) l' (fun l'' _ => Closed l'') ClosedBut := by
    intro l' hbus' hpool' hunclosed' hraised'
    rw [hpools] at hpool'
    split
    · rename_i howned
      rw [if_pos howned] at hpool'
      have hone : l'.poolCloses + 1 = l'.pools := by omega
      refine Prog.obeys_call ⟨by omega, hbus', hraised'⟩ (fun _ => ⟨hbus', hone, hraised'⟩) fun e => ?_
      refine Closed.but ?_ e
      exact ⟨hbus', hone, hraised'⟩
    · rename_i howned
      rw [if_neg howned] at hpool'
      exact ⟨hbus', hunclosed'.trans hpool'.symm, hraised'⟩
  unfold cleanUp
  refine Prog.obeys_bind ?_
  split
  · rename_i howned
    rw [if_pos howned] at hconnects
    have hone : l.closes + 1 = l.connects := by omega
    have hallow : (holding args).allow l (.inr .close) := by
      show l.closes < l.connects
      omega
    refine Prog.obeys_call hallow (fun _ => hrest _ hone rfl hpoolCloses hraised) fun e => ?_
    exact ⟨hone, hpoolCloses, Or.inr rfl⟩
  · rename_i howned
    rw [if_neg howned] at hconnects
    exact hrest l (by omega) rfl hpoolCloses hraised

theorem runOnPool_closes (hdoc : Documented library) {owns : Bool} (hl : HeldOpen l ⟨false, owns⟩) :
    (runOnPool library args owns).Obeys (holding args) l (fun l' _ => Closed l') ClosedBut := by
  -- what the worker raised is what it raises once everything is closed
  have hrest : ∀ (l' : Held) (bus : EventBus) (o : Owns), Usable args l' → HeldOpen l' o →
      ((subscribeAndWait library args bus).tryFinally (cleanUp o)).Obeys (holding args) l'
        (fun l'' _ => Closed l'') ClosedBut := by
    intro l' bus o husable hl'
    refine Prog.obeys_tryFinally ((subscribeAndWait_holds hdoc husable).mono ?_ ?_)
    · rintro l'' - rfl
      exact cleanUp_closes hl'
    · rintro l'' e rfl
      exact (cleanUp_closes hl').mono (fun l₃ _ h => h.but e) fun _ _ h => h
  unfold runOnPool
  split
  · rename_i bus hgiven
    refine hrest l bus _ (Or.inl ?_) hl
    rw [hgiven]
    exact Option.some_ne_none bus
  · rename_i hnone
    have hzero : l.connects = 0 := hl.connects
    refine Prog.obeys_bind (Prog.obeys_caught (Prog.obeys_call ⟨hnone, hzero⟩ (fun _ => ?_) fun e => ?_))
    · have hone : l.connects + 1 = 1 := by omega
      have hopen : l.closes < l.connects + 1 := by
        rw [hl.closes]
        omega
      exact hrest _ {} ⟨true, owns⟩ (Or.inr hopen) ⟨hone, hl.closes, hl.pools, hl.poolCloses, hl.raised⟩
    · exact Prog.obeys_bind ((cleanUp_closes hl).mono (fun l' _ h => h.but e) fun _ _ h => h)

theorem run_closes (hdoc : Documented library) :
    (run library args).Obeys (holding args) {} (fun l _ => Closed l) ClosedBut := by
  unfold run
  split
  · exact runOnPool_closes hdoc ⟨rfl, rfl, rfl, rfl, rfl⟩
  · rename_i hnot
    rw [Bool.not_eq_true, Bool.or_eq_false_iff] at hnot
    refine Prog.obeys_bind (Prog.obeys_call ⟨hnot.1, hnot.2, rfl⟩ (fun _ => ?_) fun e => ?_)
    · exact runOnPool_closes hdoc ⟨rfl, rfl, rfl, rfl, rfl⟩
    · exact ⟨rfl, rfl, Or.inl rfl⟩

/-- **A worker closes what it opened, and nothing else**, in any interleaving and wherever a call
raises: it closes neither a bus nor a pool that it was given, and uses no bus that is not open.
Where it has returned or raised it has called `close` once for what it opened, but for the pool
exactly where closing the bus raised, and that is then what it has raised. -/
theorem worker_closes {w : Broker} {i : ℕ} (hdoc : Documented library)
    (hrun : (Pool.init w).run? xs = some p) (hi : (Async.begun xs)[i]? = some (run library args)) :
    ∃ q : Prog Api Unit, p.running[i]? = some q ∧
      (∀ c k, q = .await c k → (holding args).allow ((holding args).at {} p.trace i) c) ∧
      (q = .done () → Closed ((holding args).at {} p.trace i)) ∧
      ∀ e, q = .fail e → ClosedBut ((holding args).at {} p.trace i) e := by
  obtain ⟨q, hq, hobeys⟩ := (Async.run_plays (P := holding args) (Q := fun l _ => Closed l)
    (X := ClosedBut) hrun).keeps i _ hi (run_closes hdoc)
  refine ⟨q, hq, fun c k he => ?_, fun he => ?_, fun e he => ?_⟩
  · subst he
    exact hobeys.1
  · subst he
    exact hobeys
  · subst he
    exact hobeys

/-- The bus cannot be connected: the pool is closed, and the exception raised again. -/
def refusedRun : List (Input broker) :=
  [.begin (run sampleLibrary {}), .turn 0 .works, .turn 0 (.before ⟨"NoServersError"⟩), .turn 0 .works]

theorem refusedRun_fails : ∃ p, (Pool.init emptyBroker).run? refusedRun = some p ∧
    p.running[0]? = some (.fail ⟨"NoServersError"⟩) := ⟨_, rfl, rfl⟩

theorem worker_closes_refused : ∃ p, (Pool.init emptyBroker).run? refusedRun = some p ∧
    ClosedBut ((holding {}).at {} p.trace 0) ⟨"NoServersError"⟩ := by
  obtain ⟨p, hrun, hfails⟩ := refusedRun_fails
  obtain ⟨q, hq, -, -, hclosed⟩ := worker_closes (i := 0) sampleLibrary_documented hrun rfl
  rw [hfails] at hq
  cases hq
  exact ⟨p, hrun, hclosed _ rfl⟩

end Startup

end CopyTrade
