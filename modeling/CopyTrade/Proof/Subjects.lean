import CopyTrade.Async.Steps
import CopyTrade.Spec.EnsureStream

/-!
# The subjects of a stream

* `ensure_cases`: all that one call of `ensure_stream` can do. An update puts the subjects of
  the bus in the place of those that are configured.
* `ensure_keeps_iff`: it takes no subject away exactly where those of the bus cover them.
* `ensure_stream_keeps_iff`: the same along any sequence of calls, whose last subjects then do
  not depend on their order.
-/

namespace CopyTrade

open Async (Ending Fault Outcome Prog)
open JetStream

/-- The configured subjects of a stream. -/
def subjectsOf (w : Streams) (name : String) : List String := (w name).elim [] StreamConfig.subjects

theorem stored_subjects (config : StreamConfig) : (stored config).subjects =
    if config.subjects = [] then [config.name] else config.subjects := by
  unfold stored
  split <;> rfl

/-- **One request that ends a call.** -/
theorem exec_request {c : Request} {f : Fault PyException} {rest : List (Fault PyException)}
    {w : Streams} {o : Outcome server Unit}
    (h : (request c >>= fun _ => (pure () : Prog Api Unit)).exec? server (f :: rest) w = some o) :
    o.state = (if f.Lands then (respond c w).2 else w) ∧
      (o.ending = .returned () → f.Lands ∧ ∃ config, (respond c w).1 = .ok config) := by
  cases f with
  | before e =>
    cases h
    exact ⟨rfl, fun hreturned => by cases hreturned⟩
  | after e =>
    cases h
    exact ⟨rfl, fun hreturned => by cases hreturned⟩
  | works =>
    obtain ⟨o', ho', rfl⟩ := Option.map_eq_some_iff.1 (show
      ((Prog.ofExcept (respond c w).1 >>= fun _ => (pure () : Prog Api Unit)).exec? server rest
        (respond c w).2).map (Outcome.after [⟨c, .ok (respond c w).1⟩]) = some o from h)
    cases ha : (respond c w).1 with
    | ok config =>
      rw [ha, Prog.ofExcept_ok, Prog.bind_done, Prog.pure_eq, Prog.exec_done] at ho'
      cases ho'
      exact ⟨rfl, fun _ => ⟨trivial, config, rfl⟩⟩
    | error e =>
      rw [ha, Prog.ofExcept_error, Prog.bind_fail, Prog.exec_fail] at ho'
      cases ho'
      exact ⟨rfl, fun hreturned => by cases hreturned⟩

namespace NatsJetStreamEventBus

variable {bus : NatsJetStreamEventBus} {fs : List (Fault PyException)} {w : Streams}
  {o : Outcome server Unit}

/-- The streams once the server has stored the configuration of the bus. -/
def put (bus : NatsJetStreamEventBus) (w : Streams) : Streams :=
  Function.update w bus.streamName (some (stored bus.streamConfig))

theorem put_self (w : Streams) : bus.put w bus.streamName = some (stored bus.streamConfig) := by
  simp [put]

theorem subjectsOf_put (w : Streams) : subjectsOf (bus.put w) bus.streamName =
    if bus.streamSubjects = [] then [bus.streamName] else bus.streamSubjects := by
  unfold subjectsOf
  rw [put_self, Option.elim_some, stored_subjects]
  rfl

theorem subset_put (w : Streams) : bus.streamSubjects ⊆ subjectsOf (bus.put w) bus.streamName := by
  rw [subjectsOf_put]
  split
  · rename_i hnil
    rw [hnil]
    exact List.nil_subset _
  · exact List.Subset.refl _

/-- The call updates the stream: it is there and lacks a subject of the bus, and the request
takes effect. -/
def Updates (bus : NatsJetStreamEventBus) (fs : List (Fault PyException)) (w : Streams) : Prop :=
  bus.connected = true ∧ w bus.streamName ≠ none ∧ ¬ bus.streamSubjects ⊆ subjectsOf w bus.streamName ∧
    ∃ f rest, fs = .works :: f :: rest ∧ f.Lands

theorem missingSubjects_eq_nil {config : StreamConfig} (hw : w bus.streamName = some config) :
    bus.missingSubjects config = [] ↔ bus.streamSubjects ⊆ subjectsOf w bus.streamName := by
  unfold missingSubjects subjectsOf
  rw [hw, Option.elim_some, List.filter_eq_nil_iff]
  simp [List.subset_def]

theorem respond_addStream_none (hw : w bus.streamName = none) :
    respond (.addStream bus.streamConfig) w = (.ok (stored bus.streamConfig), bus.put w) := by
  have hname : w bus.streamConfig.name = none := hw
  simp only [respond, hname]
  rfl

theorem respond_addStream_some {present : StreamConfig} (hw : w bus.streamName = some present) :
    respond (.addStream bus.streamConfig) w =
      (if present = stored bus.streamConfig then .ok present else .error badRequestError, w) := by
  have hname : w bus.streamConfig.name = some present := hw
  simp only [respond, hname]

theorem respond_updateStream {present : StreamConfig} (hw : w bus.streamName = some present) :
    respond (.updateStream bus.streamConfig) w = (.ok (stored bus.streamConfig), bus.put w) := by
  have hname : w bus.streamConfig.name = some present := hw
  simp only [respond, hname]
  rfl

/-- **What a call does that takes the stream to be absent.** -/
theorem add_cases (h : (bus.afterStreamInfo (.error notFoundError)).exec? server fs w = some o) :
    (o.state = w ∧ (o.ending = .returned () → w bus.streamName ≠ none ∧
      bus.streamSubjects ⊆ subjectsOf w bus.streamName)) ∨
    (w bus.streamName = none ∧ o.state = bus.put w) := by
  have h : (request (.addStream bus.streamConfig) >>= fun _ => (pure () : Prog Api Unit)).exec? server
      fs w = some o := h
  cases fs with
  | nil =>
    cases h
    exact Or.inl ⟨rfl, fun hreturned => by cases hreturned⟩
  | cons f rest =>
    obtain ⟨hstate, hreturned⟩ := exec_request h
    by_cases hf : f.Lands
    case neg =>
      rw [if_neg hf] at hstate
      exact Or.inl ⟨hstate, fun hr => absurd (hreturned hr).1 hf⟩
    rw [if_pos hf] at hstate
    cases hw : w bus.streamName with
    | none =>
      rw [respond_addStream_none hw] at hstate
      exact Or.inr ⟨rfl, hstate⟩
    | some present =>
      rw [respond_addStream_some hw] at hstate hreturned
      refine Or.inl ⟨hstate, fun hr => ⟨by simp, ?_⟩⟩
      -- the server has this configuration already
      obtain ⟨-, config, hconfig⟩ := hreturned hr
      have hsame : present = stored bus.streamConfig := by
        by_contra hne
        simp [hne] at hconfig
      have hsubset := bus.subset_put w
      unfold subjectsOf at hsubset ⊢
      rw [put_self, ← hsame] at hsubset
      rw [hw]
      exact hsubset

/-- **What a call does that finds the stream.** -/
theorem update_cases {config : StreamConfig} (hw : w bus.streamName = some config)
    (h : (bus.afterStreamInfo (.ok config)).exec? server fs w = some o) :
    (o.state = w ∧ (o.ending = .returned () → bus.streamSubjects ⊆ subjectsOf w bus.streamName) ∧
      (bus.streamSubjects ⊆ subjectsOf w bus.streamName ∨ ∀ f rest, fs = f :: rest → ¬ f.Lands)) ∨
    (¬ bus.streamSubjects ⊆ subjectsOf w bus.streamName ∧ (∃ f rest, fs = f :: rest ∧ f.Lands) ∧
      o.state = bus.put w) := by
  simp only [afterStreamInfo] at h
  by_cases hsubset : bus.streamSubjects ⊆ subjectsOf w bus.streamName
  · rw [if_pos ((missingSubjects_eq_nil hw).2 hsubset), Prog.pure_eq, Prog.exec_done] at h
    cases h
    exact Or.inl ⟨rfl, fun _ => hsubset, Or.inl hsubset⟩
  rw [if_neg fun hnil => hsubset ((missingSubjects_eq_nil hw).1 hnil)] at h
  cases fs with
  | nil =>
    cases h
    exact Or.inl ⟨rfl, (fun hreturned => by cases hreturned), Or.inr fun f rest hnil => by cases hnil⟩
  | cons f rest =>
    obtain ⟨hstate, hreturned⟩ := exec_request h
    by_cases hf : f.Lands
    · rw [if_pos hf, respond_updateStream hw] at hstate
      exact Or.inr ⟨hsubset, ⟨f, rest, rfl, hf⟩, hstate⟩
    · rw [if_neg hf] at hstate
      refine Or.inl ⟨hstate, fun hr => absurd (hreturned hr).1 hf, Or.inr fun g rest' hcons => ?_⟩
      rw [← (List.cons.inj hcons).1]
      exact hf

/-- What a call is told of its stream. -/
def told (bus : NatsJetStreamEventBus) (f : Fault PyException) (w : Streams) :
    Except PyException StreamConfig :=
  match f with
  | .works => (w bus.streamName).elim (.error notFoundError) .ok
  | .before e => .error e
  | .after e => .error e

theorem told_ok_iff {f : Fault PyException} {config : StreamConfig} :
    bus.told f w = .ok config ↔ f = .works ∧ w bus.streamName = some config := by
  unfold told
  cases f with
  | before e => simp
  | after e => simp
  | works => cases hw : w bus.streamName <;> simp

/-- **The first request of a call**, and what follows it. -/
theorem exec_ensureStream {f : Fault PyException} {rest : List (Fault PyException)}
    (hc : bus.connected = true) (h : bus.ensureStream.exec? server (f :: rest) w = some o) :
    ∃ o' : Outcome server Unit, (bus.afterStreamInfo (bus.told f w)).exec? server rest w = some o' ∧
      o.state = o'.state ∧ o.ending = o'.ending := by
  unfold ensureStream at h
  rw [if_pos hc] at h
  cases f with
  | before e =>
    obtain ⟨o', ho', rfl⟩ := Option.map_eq_some_iff.1 h
    exact ⟨o', ho', rfl, rfl⟩
  | after e =>
    obtain ⟨o', ho', rfl⟩ := Option.map_eq_some_iff.1 h
    exact ⟨o', ho', rfl, rfl⟩
  | works =>
    obtain ⟨o', ho', rfl⟩ := Option.map_eq_some_iff.1 h
    refine ⟨o', ?_, rfl, rfl⟩
    rw [← ho']
    simp only [told, respond]
    cases hw : w bus.streamName with
    | none => rfl
    | some config => rfl

/-- **All that one call can do**: nothing, and then it returns only where all subjects of the bus
are configured; or it makes the stream; or it updates it. -/
theorem ensure_cases (h : bus.ensureStream.exec? server fs w = some o) :
    (¬ bus.Updates fs w ∧ o.state = w ∧ (o.ending = .returned () → w bus.streamName ≠ none ∧
      bus.streamSubjects ⊆ subjectsOf w bus.streamName)) ∨
    (w bus.streamName = none ∧ o.state = bus.put w) ∨
    (bus.Updates fs w ∧ o.state = bus.put w) := by
  by_cases hc : bus.connected = true
  case neg =>
    unfold ensureStream at h
    rw [if_neg hc, Prog.exec_fail] at h
    cases h
    exact Or.inl ⟨fun hu => hc hu.1, rfl, fun hreturned => by cases hreturned⟩
  cases fs with
  | nil =>
    unfold ensureStream at h
    rw [if_pos hc] at h
    cases h
    refine Or.inl ⟨?_, rfl, fun hreturned => by cases hreturned⟩
    rintro ⟨-, -, -, f, rest, hnil, -⟩
    cases hnil
  | cons f rest =>
    obtain ⟨o', ho', hstate, hending⟩ := exec_ensureStream hc h
    rw [hstate, hending]
    cases htold : bus.told f w with
    | error e =>
      rw [htold] at ho'
      -- an update would have been told of the stream
      have hnot : ¬ bus.Updates (f :: rest) w := by
        rintro ⟨-, hsome, -, g, rest', hcons, -⟩
        obtain ⟨config, hw⟩ := Option.ne_none_iff_exists'.1 hsome
        have hok : bus.told f w = .ok config := told_ok_iff.2 ⟨(List.cons.inj hcons).1, hw⟩
        rw [hok] at htold
        cases htold
      by_cases he : e = notFoundError
      · rw [he] at ho'
        rcases add_cases ho' with ⟨hsame, hreturned⟩ | hmade
        · exact Or.inl ⟨hnot, hsame, hreturned⟩
        · exact Or.inr (Or.inl hmade)
      · simp only [afterStreamInfo, if_neg he, Prog.exec_fail] at ho'
        cases ho'
        exact Or.inl ⟨hnot, rfl, fun hreturned => by cases hreturned⟩
    | ok config =>
      rw [htold] at ho'
      obtain ⟨rfl, hw⟩ := told_ok_iff.1 htold
      have hsome : w bus.streamName ≠ none := by simp [hw]
      rcases update_cases hw ho' with ⟨hsame, hreturned, hnot⟩ | ⟨hmissing, ⟨g, rest', rfl, hg⟩, hput⟩
      · refine Or.inl ⟨?_, hsame, fun hr => ⟨hsome, hreturned hr⟩⟩
        rintro ⟨-, -, hmissing, g, rest', hcons, hg⟩
        rcases hnot with hsubset | hnever
        · exact hmissing hsubset
        · exact hnever g rest' (List.cons.inj hcons).2 hg
      · exact Or.inr (Or.inr ⟨⟨hc, hsome, hmissing, g, rest', rfl, hg⟩, hput⟩)

end NatsJetStreamEventBus

/-! ## One call -/

/-- A call of `ensure_stream`, and how its requests go. -/
structure EnsureCall where
  bus : NatsJetStreamEventBus
  script : List (Fault PyException)

def ensure? (w : Streams) (c : EnsureCall) : Option Streams :=
  (c.bus.ensureStream.exec? server c.script w).map Outcome.state

/-- After the call all subjects from before it are configured, and where it returns those of
its bus are. -/
def Keeps (w : Streams) (c : EnsureCall) : Prop :=
  ∀ o, c.bus.ensureStream.exec? server c.script w = some o →
    subjectsOf w c.bus.streamName ⊆ subjectsOf o.state c.bus.streamName ∧
      (o.ending = .returned () → c.bus.streamSubjects ⊆ subjectsOf o.state c.bus.streamName)

/-- An update brings all subjects that are configured. -/
def Covers (w : Streams) (c : EnsureCall) : Prop :=
  c.bus.Updates c.script w → subjectsOf w c.bus.streamName ⊆ c.bus.streamSubjects

variable {w v : Streams} {c : EnsureCall} {name : String}

theorem exists_exec (w : Streams) (c : EnsureCall) :
    ∃ o, c.bus.ensureStream.exec? server c.script w = some o :=
  Prog.exec_isSome (M := server) (fun _ _ => ⟨_, rfl⟩) _ _ _

/-- The subjects of an update are those of the bus. -/
theorem subjectsOf_update (h : c.bus.Updates c.script w) :
    subjectsOf (c.bus.put w) c.bus.streamName = c.bus.streamSubjects := by
  have hne : c.bus.streamSubjects ≠ [] := by
    intro hnil
    apply h.2.2.1
    rw [hnil]
    exact List.nil_subset _
  rw [NatsJetStreamEventBus.subjectsOf_put, if_neg hne]

/-- **A call takes no subject away exactly where its update covers them.** -/
theorem ensure_keeps_iff : Keeps w c ↔ Covers w c := by
  obtain ⟨o, ho⟩ := exists_exec w c
  have hkeeps : Keeps w c ↔ subjectsOf w c.bus.streamName ⊆ subjectsOf o.state c.bus.streamName ∧
      (o.ending = .returned () → c.bus.streamSubjects ⊆ subjectsOf o.state c.bus.streamName) := by
    unfold Keeps
    rw [ho]
    simp
  rw [hkeeps]
  unfold Covers
  rcases NatsJetStreamEventBus.ensure_cases ho with ⟨hnot, hsame, hreturned⟩ | ⟨hnone, hput⟩ |
    ⟨hupdates, hput⟩
  · rw [hsame]
    exact iff_of_true ⟨List.Subset.refl _, fun hr => (hreturned hr).2⟩ fun hupdates => absurd hupdates hnot
  · rw [hput]
    refine iff_of_true ⟨?_, fun _ => NatsJetStreamEventBus.subset_put w⟩ fun hupdates => ?_
    · unfold subjectsOf
      rw [hnone]
      exact List.nil_subset _
    · exact absurd hnone hupdates.2.1
  · rw [hput, subjectsOf_update hupdates]
    exact ⟨fun h _ => h.1, fun h => ⟨h hupdates, fun _ => List.Subset.refl _⟩⟩

/-! ## Any sequence of calls -/

/-- The call returns. -/
def CallReturns (w : Streams) (c : EnsureCall) : Prop :=
  ∃ o, c.bus.ensureStream.exec? server c.script w = some o ∧ o.ending = .returned ()

theorem CallReturns.leads (hreturns : CallReturns w c) (h : ensure? w c = some v) :
    ∃ o, c.bus.ensureStream.exec? server c.script w = some o ∧ o.ending = .returned () ∧ o.state = v := by
  obtain ⟨o, ho, hr⟩ := hreturns
  unfold ensure? at h
  rw [ho] at h
  exact ⟨o, ho, hr, Option.some.inj h⟩

/-- **What a call that returns leaves**, where its update covers the subjects: those from before
and those of its bus. -/
theorem subjectsOf_ensure {config : StreamConfig} (hw : w c.bus.streamName = some config)
    (hreturns : CallReturns w c) (hcovers : Covers w c) (h : ensure? w c = some v) :
    v c.bus.streamName ≠ none ∧ ∀ x, x ∈ subjectsOf v c.bus.streamName ↔
      x ∈ subjectsOf w c.bus.streamName ∨ x ∈ c.bus.streamSubjects := by
  obtain ⟨o, ho, hr, rfl⟩ := hreturns.leads h
  have hsome : w c.bus.streamName ≠ none := by simp [hw]
  rcases NatsJetStreamEventBus.ensure_cases ho with ⟨-, hsame, hreturned⟩ | ⟨hnone, -⟩ | ⟨hupdates, hput⟩
  · rw [hsame]
    refine ⟨hsome, fun x => ⟨Or.inl, fun hx => ?_⟩⟩
    rcases hx with hx | hx
    · exact hx
    · exact (hreturned hr).2 hx
  · exact absurd hnone hsome
  · rw [hput, subjectsOf_update hupdates, NatsJetStreamEventBus.put_self]
    refine ⟨by simp, fun x => ⟨Or.inr, fun hx => ?_⟩⟩
    rcases hx with hx | hx
    · exact hcovers hupdates hx
    · exact hx

/-- The same where there is no stream yet. -/
theorem subjectsOf_make (hw : w c.bus.streamName = none) (hreturns : CallReturns w c)
    (h : ensure? w c = some v) : v c.bus.streamName ≠ none ∧ subjectsOf v c.bus.streamName =
      if c.bus.streamSubjects = [] then [c.bus.streamName] else c.bus.streamSubjects := by
  obtain ⟨o, ho, hr, rfl⟩ := hreturns.leads h
  rcases NatsJetStreamEventBus.ensure_cases ho with ⟨-, -, hreturned⟩ | ⟨-, hput⟩ | ⟨hupdates, -⟩
  · exact absurd hw (hreturned hr).1
  · rw [hput, NatsJetStreamEventBus.subjectsOf_put, NatsJetStreamEventBus.put_self]
    exact ⟨by simp, rfl⟩
  · exact absurd hw hupdates.2.1

/-- **The subjects after a sequence of calls** on a stream that is there. -/
theorem subjectsOf_run : ∀ {cs : List EnsureCall} {w v : Streams}, (∀ c ∈ cs, c.bus.streamName = name) →
    w name ≠ none → Steps.Along ensure? CallReturns w cs → Steps.Along ensure? Covers w cs →
      Steps.run? ensure? w cs = some v →
      ∀ x, x ∈ subjectsOf v name ↔ x ∈ subjectsOf w name ∨ ∃ c ∈ cs, x ∈ c.bus.streamSubjects := by
  intro cs
  induction cs with
  | nil =>
    intro w v _ _ _ _ h x
    cases h
    simp
  | cons c cs ih =>
    intro w v hname hw hreturns hcovers h x
    obtain ⟨u, hu, hrun⟩ := Steps.run_cons h
    obtain ⟨config, hconfig⟩ := Option.ne_none_iff_exists'.1 hw
    have hc : c.bus.streamName = name := hname c List.mem_cons_self
    rw [← hc] at hconfig
    obtain ⟨hsome, hstep⟩ := subjectsOf_ensure hconfig hreturns.1 hcovers.1 hu
    rw [hc] at hsome hstep
    rw [ih (fun c' hc' => hname c' (List.mem_cons_of_mem c hc')) hsome (hreturns.2 u hu) (hcovers.2 u hu)
      hrun x, hstep x]
    simp [or_assoc]

theorem comparable (hw : w c.bus.streamName ≠ none) (hreturns : CallReturns w c) (hcovers : Covers w c) :
    c.bus.streamSubjects ⊆ subjectsOf w c.bus.streamName ∨
      subjectsOf w c.bus.streamName ⊆ c.bus.streamSubjects := by
  obtain ⟨o, ho, hr⟩ := hreturns
  rcases NatsJetStreamEventBus.ensure_cases ho with ⟨-, -, hreturned⟩ | ⟨hnone, -⟩ | ⟨hupdates, -⟩
  · exact Or.inl (hreturned hr).2
  · exact absurd hnone hw
  · exact Or.inr (hcovers hupdates)

/-- Where a stream has its name for its only subject, the first bus with subjects names it. -/
theorem named_of_covers : ∀ {cs : List EnsureCall} {w v : Streams}, (∀ c ∈ cs, c.bus.streamName = name) →
    w name ≠ none → (∀ x, x ∈ subjectsOf w name ↔ x = name) → Steps.Along ensure? CallReturns w cs →
      Steps.Along ensure? Covers w cs → Steps.run? ensure? w cs = some v →
      (∃ c ∈ cs, c.bus.streamSubjects ≠ []) → ∃ c ∈ cs, name ∈ c.bus.streamSubjects := by
  intro cs
  induction cs with
  | nil =>
    rintro w v - - - - - - ⟨c, hmem, -⟩
    cases hmem
  | cons c cs ih =>
    rintro w v hname hw hsubjects hreturns hcovers h ⟨d, hd, hne⟩
    obtain ⟨u, hu, hrun⟩ := Steps.run_cons h
    have hc : c.bus.streamName = name := hname c List.mem_cons_self
    -- a bus without subjects changes nothing
    by_cases hempty : c.bus.streamSubjects = []
    · obtain ⟨config, hconfig⟩ := Option.ne_none_iff_exists'.1 hw
      rw [← hc] at hconfig
      obtain ⟨hsome, hstep⟩ := subjectsOf_ensure hconfig hreturns.1 hcovers.1 hu
      rw [hc] at hsome hstep
      have hsame : ∀ x, x ∈ subjectsOf u name ↔ x = name := by
        intro x
        rw [hstep x, hempty, hsubjects x]
        simp
      have hmem : d ∈ cs := by
        rcases List.mem_cons.1 hd with rfl | hd
        · exact absurd hempty hne
        · exact hd
      obtain ⟨e, he, hnamed⟩ := ih (fun c' hc' => hname c' (List.mem_cons_of_mem c hc')) hsome hsame
        (hreturns.2 u hu) (hcovers.2 u hu) hrun ⟨d, hmem, hne⟩
      exact ⟨e, List.mem_cons_of_mem c he, hnamed⟩
    · refine ⟨c, List.mem_cons_self, ?_⟩
      have hcomparable := comparable (by rw [hc]; exact hw) hreturns.1 hcovers.1
      rw [hc] at hcomparable
      rcases hcomparable with hsubset | hsubset
      · obtain ⟨x, hx⟩ := List.exists_mem_of_ne_nil _ hempty
        have hxname : x = name := (hsubjects x).1 (hsubset hx)
        rw [← hxname]
        exact hx
      · exact hsubset ((hsubjects name).2 rfl)

/-- **The subjects after a sequence of calls** on any stream. They are the name of the stream
where buses without subjects have made it. -/
theorem subjectsOf_along {cs : List EnsureCall} (hname : ∀ c ∈ cs, c.bus.streamName = name)
    (hreturns : Steps.Along ensure? CallReturns w cs) (hcovers : Steps.Along ensure? Covers w cs)
    (h : Steps.run? ensure? w cs = some v) (x : String) : x ∈ subjectsOf v name ↔
      x ∈ subjectsOf w name ∨ (∃ c ∈ cs, x ∈ c.bus.streamSubjects) ∨
        (x = name ∧ w name = none ∧ cs ≠ [] ∧ ∀ c ∈ cs, c.bus.streamSubjects = []) := by
  by_cases hw : w name = none
  case neg =>
    rw [subjectsOf_run hname hw hreturns hcovers h x]
    simp [hw]
  have hempty : subjectsOf w name = [] := by
    unfold subjectsOf
    rw [hw]
    rfl
  cases cs with
  | nil =>
    cases h
    simp [hempty]
  | cons c cs =>
    obtain ⟨u, hu, hrun⟩ := Steps.run_cons h
    have hc : c.bus.streamName = name := hname c List.mem_cons_self
    have hrest : ∀ c' ∈ cs, c'.bus.streamName = name := fun c' hc' => hname c' (List.mem_cons_of_mem c hc')
    obtain ⟨hsome, hmade⟩ := subjectsOf_make (by rw [hc]; exact hw) hreturns.1 hu
    rw [hc] at hsome hmade
    rw [subjectsOf_run hrest hsome (hreturns.2 u hu) (hcovers.2 u hu) hrun x, hmade, hempty]
    -- a stream that a bus without subjects makes has its name for a subject
    by_cases hnil : c.bus.streamSubjects = []
    · rw [if_pos hnil] at hmade ⊢
      have hself : ∀ y, y ∈ subjectsOf u name ↔ y = name := by
        intro y
        rw [hmade, List.mem_singleton]
      have hnamed := named_of_covers hrest hsome hself (hreturns.2 u hu) (hcovers.2 u hu) hrun
      have hmem : (∃ c' ∈ c :: cs, x ∈ c'.bus.streamSubjects) ↔ ∃ c' ∈ cs, x ∈ c'.bus.streamSubjects := by
        simp [hnil]
      rw [hmem]
      constructor
      · rintro (hx | hx)
        · have hxname : x = name := List.mem_singleton.1 hx
          by_cases hall : ∀ c' ∈ cs, c'.bus.streamSubjects = []
          · exact Or.inr (Or.inr ⟨hxname, hw, by simp, List.forall_mem_cons.2 ⟨hnil, hall⟩⟩)
          · rw [hxname]
            exact Or.inr (Or.inl (hnamed (by simpa using hall)))
        · exact Or.inr (Or.inl hx)
      · rintro (hx | hx | ⟨hx, -⟩)
        · cases hx
        · exact Or.inr hx
        · exact Or.inl (List.mem_singleton.2 hx)
    · rw [if_neg hnil]
      simp [hnil]

theorem exists_bus_iff {cs cs' : List EnsureCall} {P : NatsJetStreamEventBus → Prop}
    (h : (cs.map EnsureCall.bus).Perm (cs'.map EnsureCall.bus)) :
    (∃ c ∈ cs, P c.bus) ↔ ∃ c ∈ cs', P c.bus := by
  have hmap : ∀ ds : List EnsureCall, (∃ c ∈ ds, P c.bus) ↔ ∃ bus ∈ ds.map EnsureCall.bus, P bus := by
    intro ds
    simp
  rw [hmap cs, hmap cs']
  simp only [h.mem_iff]

theorem forall_bus_iff {cs cs' : List EnsureCall} {P : NatsJetStreamEventBus → Prop}
    (h : (cs.map EnsureCall.bus).Perm (cs'.map EnsureCall.bus)) :
    (∀ c ∈ cs, P c.bus) ↔ ∀ c ∈ cs', P c.bus := by
  have hnot := not_congr (exists_bus_iff (P := fun bus => ¬ P bus) h)
  simpa using hnot

/-- **`ensure_stream` takes no subject away exactly where each update covers them.** Along any
sequence of calls on one stream, by any buses, from any configurations, each call leaves all
subjects from before it configured, and where it returns those of its bus, exactly if each
update brings all subjects that it finds. Then the subjects at the end are the same in any
order of the buses. -/
theorem ensure_stream_keeps_iff (name : String) (w : Streams) (cs : List EnsureCall)
    (hname : ∀ c ∈ cs, c.bus.streamName = name) :
    (Steps.Along ensure? Keeps w cs ↔ Steps.Along ensure? Covers w cs) ∧
      ∀ (cs' : List EnsureCall) (v v' : Streams), (cs.map EnsureCall.bus).Perm (cs'.map EnsureCall.bus) →
        Steps.run? ensure? w cs = some v → Steps.run? ensure? w cs' = some v' →
        Steps.Along ensure? CallReturns w cs → Steps.Along ensure? CallReturns w cs' →
        Steps.Along ensure? Covers w cs → Steps.Along ensure? Covers w cs' →
        ∀ x, x ∈ subjectsOf v name ↔ x ∈ subjectsOf v' name := by
  refine ⟨Steps.along_congr fun w c => ensure_keeps_iff, ?_⟩
  intro cs' v v' hperm hv hv' hreturns hreturns' hcovers hcovers' x
  have hname' : ∀ c ∈ cs', c.bus.streamName = name :=
    (forall_bus_iff (P := fun bus => bus.streamName = name) hperm).1 hname
  have hsubjects : (∃ c ∈ cs, x ∈ c.bus.streamSubjects) ↔ ∃ c ∈ cs', x ∈ c.bus.streamSubjects :=
    exists_bus_iff (P := fun bus => x ∈ bus.streamSubjects) hperm
  have hnone : (∀ c ∈ cs, c.bus.streamSubjects = []) ↔ ∀ c ∈ cs', c.bus.streamSubjects = [] :=
    forall_bus_iff (P := fun bus => bus.streamSubjects = []) hperm
  have hnil : cs ≠ [] ↔ cs' ≠ [] := by
    have hlength : cs.length = cs'.length := by simpa using hperm.length_eq
    rw [← List.length_pos_iff, ← List.length_pos_iff, hlength]
  rw [subjectsOf_along hname hreturns hcovers hv x, subjectsOf_along hname' hreturns' hcovers' hv' x,
    hsubjects, hnone, hnil]

/-! ### Two tuples -/

/-- A call all of whose requests work. -/
def calling (streamSubjects : List String) : EnsureCall where
  bus := { streamSubjects := streamSubjects }
  script := [.works, .works]

/-- The version before the dead letters, and the one with them. -/
def rolling : List EnsureCall :=
  [calling [copyExecutionRequested], calling [copyExecutionRequested, deadLetterEventCreated],
    calling [copyExecutionRequested]]

theorem ensure_stream_keeps_iff_rolling : Steps.Along ensure? Keeps (fun _ => none) rolling := by
  refine (ensure_stream_keeps_iff eventStream (fun _ => none) rolling (by decide)).1.2 ?_
  refine ⟨fun hupdates => absurd rfl hupdates.2.1, fun u hu => ?_⟩
  obtain rfl : _ = u := Option.some.inj hu
  refine ⟨fun _ => by decide, fun v hv => ?_⟩
  obtain rfl : _ = v := Option.some.inj hv
  refine ⟨fun hupdates => absurd ?_ hupdates.2.2.1, fun _ _ => trivial⟩
  decide

/-- The second of two services takes the subject of the first away, and which of the two stays
depends on their order. -/
theorem first_subject_taken_away :
    ¬ Steps.Along ensure? Keeps (fun _ => none)
        [calling [copyExecutionRequested], calling [notificationRequested]] ∧
      ∃ v v', Steps.run? ensure? (fun _ => none)
          [calling [copyExecutionRequested], calling [notificationRequested]] = some v ∧
        Steps.run? ensure? (fun _ => none)
          [calling [notificationRequested], calling [copyExecutionRequested]] = some v' ∧
        subjectsOf v eventStream = [notificationRequested] ∧
        subjectsOf v' eventStream = [copyExecutionRequested] := by
  refine ⟨fun h => ?_, _, _, rfl, rfl, by decide, by decide⟩
  rw [Steps.along_congr fun w c => ensure_keeps_iff] at h
  have hcovers := (h.2 _ rfl).1
  have hsubset := hcovers ⟨rfl, by decide, by decide, .works, [], rfl, trivial⟩
  revert hsubset
  decide

end CopyTrade
