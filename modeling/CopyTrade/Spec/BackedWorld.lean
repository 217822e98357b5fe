import CopyTrade.Spec.RelationshipQuery
import CopyTrade.Spec.World

/-!
# The engine over the joined tables

`World` leaves open what the provider lists. Here the tables that
`PostgresCopyRelationshipProvider` queries stand next to it, and its answers are answers of
the query on the tables as they are at that moment. The tables change as the operators change
them, at any time, between any two calls of the workers.

* `backed_serve`: a call does to the world what it does on `engine`, and nothing to the tables.
-/

namespace CopyTrade

open Async (Machine Fault)

/-- The provider answers from the tables. -/
def Directory.Backs {B : Type} (tables : Directory) (w : World B) : Prop :=
  ∀ event, Sql.text? event.sourceAccountId ≠ none → Sql.text? event.symbol ≠ none →
    tables.Lists event (w.provider event)

structure BackedWorld (B : Type) where
  world : World B
  tables : Directory
  backs : tables.Backs world

/-- What moves the state besides the engine: time, and operators who change the tables. The
new answers of the provider are answers of the query on the new tables. -/
inductive TablesMove where
  | elapse (seconds : ℚ)
  | retable (tables : Directory) (provider : NormalizedOrderEvent → List CopyRelationship)
      (lists : ∀ event, Sql.text? event.sourceAccountId ≠ none → Sql.text? event.symbol ≠ none →
        tables.Lists event (provider event))

/-- The database refuses a text parameter with a U+0000. -/
def Call.Accepted : Call → Prop
  | .listActiveForEvent event =>
    Sql.text? event.sourceAccountId ≠ none ∧ Sql.text? event.symbol ≠ none
  | _ => True

instance : DecidablePred Call.Accepted := fun c => by
  cases c <;> unfold Call.Accepted <;> infer_instance

namespace BackedWorld

variable {B : Type} [Ledger B]

omit [Ledger B] in
theorem backs_of_provider {tables : Directory} {w w' : World B} (h : tables.Backs w)
    (hw : w'.provider = w.provider) : tables.Backs w' := by
  intro event hsource hsymbol
  rw [hw]
  exact h event hsource hsymbol

/-- A call on the tables and the world. -/
def effect (c : Call) (s : BackedWorld B) : Option (CopyEngine.Ret c × BackedWorld B) :=
  if c.Accepted then
    match h : CopyTrade.effect c s.world with
    | none => none
    | some a => some (a.1, ⟨a.2, s.tables, backs_of_provider s.backs (effect_moved h).provider⟩)
  else none

theorem effect_spec {c : Call} {s s' : BackedWorld B} {a : CopyEngine.Ret c}
    (h : s.effect c = some (a, s')) :
    c.Accepted ∧ CopyTrade.effect c s.world = some (a, s'.world) ∧ s'.tables = s.tables := by
  unfold effect at h
  split at h
  swap
  · cases h
  rename_i hc
  split at h
  · cases h
  · rename_i b hb
    cases h
    exact ⟨hc, hb, rfl⟩

end BackedWorld

variable {B : Type} [Ledger B]

variable (B) in
/-- The machine all workers run on, with the tables behind the provider. -/
abbrev backed : Machine CopyEngine where
  State := BackedWorld B
  effect c s := s.effect c
  draw s := (s.world.uuid4 s.world.issued,
    { s with world := { s.world with issued := s.world.issued + 1 }, backs := s.backs })
  Move := TablesMove
  move
    | .elapse seconds, s =>
      if 0 ≤ seconds then
        some { s with world := { s.world with now := s.world.now + seconds }, backs := s.backs }
      else none
    | .retable tables provider lists, s =>
      some ⟨{ s.world with provider := provider }, tables, lists⟩

/-- **A call does to the world what it does on `engine`**, and nothing to the tables. -/
theorem backed_serve {c : Call} {f : Fault PyException} {s s' : BackedWorld B}
    {r : CopyEngine.Reply c} (h : (backed B).serve c f s = some (r, s')) :
    (engine B).serve c f s.world = some (r, s'.world) ∧ s'.tables = s.tables ∧
      ((∃ a, r = .ok a) → c.Accepted) := by
  cases f with
  | works =>
    obtain ⟨⟨a, t⟩, ha, he⟩ := Option.map_eq_some_iff.1 h
    obtain ⟨hc, hw, htables⟩ := BackedWorld.effect_spec ha
    cases he
    exact ⟨Machine.serve_works (M := engine B) hw, htables, fun _ => hc⟩
  | before e =>
    cases h
    exact ⟨rfl, rfl, fun ⟨a, ha⟩ => by cases ha⟩
  | after e =>
    obtain ⟨⟨a, t⟩, ha, he⟩ := Option.map_eq_some_iff.1 h
    obtain ⟨-, hw, htables⟩ := BackedWorld.effect_spec ha
    cases he
    refine ⟨?_, htables, fun ⟨a, ha⟩ => by cases ha⟩
    show (CopyTrade.effect c s.world).map _ = _
    rw [hw]
    rfl

/-- What the query answers comes from the tables of that moment. -/
theorem backed_lists {event : NormalizedOrderEvent} {f : Fault PyException} {s s' : BackedWorld B}
    {relationships : List CopyRelationship}
    (h : (backed B).serve (.listActiveForEvent event) f s = some (.ok relationships, s')) :
    f = .works ∧ s.tables.Lists event relationships := by
  obtain ⟨hw, -, haccepted⟩ := backed_serve h
  obtain ⟨hf, heffect⟩ := Machine.serve_ok hw
  obtain ⟨hsource, hsymbol⟩ := haccepted ⟨_, rfl⟩
  obtain ⟨hlisted, -⟩ := Prod.mk.inj (Option.some.inj heffect)
  subst hlisted
  exact ⟨hf, s.backs event hsource hsymbol⟩

/-- Only a publish that lands moves the stream. -/
theorem backed_stream {c : Call} {f : Fault PyException} {s s' : BackedWorld B}
    {r : CopyEngine.Reply c} (h : (backed B).serve c f s = some (r, s'))
    {m : Broker.Message String CopyExecutionRequest} (hm : m ∈ s'.world.stream) :
    m ∈ s.world.stream ∨ ∃ subject, c = .publishJson subject m.body := by
  obtain ⟨hw, -, -⟩ := backed_serve h
  by_cases hc : ∀ subject q, c ≠ .publishJson subject q
  · rw [stream_serve hw hc] at hm
    exact Or.inl hm
  simp only [not_forall, not_not] at hc
  obtain ⟨subject, q, rfl⟩ := hc
  rcases publish_serve hw with ⟨-, he⟩ | ⟨-, he, -⟩
  · rw [he, World.stream_publishJson] at hm
    rcases Broker.Log.mem_append hm with hm | rfl
    · exact Or.inl hm
    · exact Or.inr ⟨subject, rfl⟩
  · rw [he] at hm
    exact Or.inl hm

/-- Time and changed tables leave the stream alone. -/
theorem backed_move {m : TablesMove} {s s' : BackedWorld B}
    (h : (backed B).move m s = some s') : s'.world.stream = s.world.stream := by
  cases m with
  | elapse seconds =>
    simp only [backed] at h
    split at h
    · cases h; rfl
    · cases h
  | retable tables provider lists => cases h; rfl

end CopyTrade
