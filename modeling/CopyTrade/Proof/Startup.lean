import CopyTrade.Async.Learning
import CopyTrade.Proof.Subjects
import CopyTrade.Spec.Startup
import Mathlib.Data.List.Nodup

/-!
# Workers that start together

Any number of `run()` and `publish_json` over one JetStream server, interleaved at their awaited
calls, each of which may raise with or without its effect.

* `Fact`, `learning`: what a worker learns of the server from the answers that it gets.
* `learning_sound`: no call of these programs makes such a fact false.
* `run_keeps`, `publishJson_keeps`: the programs, step by step in the order of the source.
* `waiting_ready`: **where a worker waits for its end, the stream has all subjects and every
  consumer delivers as the policy says**, then and from there on.
* `publishing_configured`: every message is published where its subject is configured.
* `restart_quiet`: on a server that is ready, workers change nothing.
-/

namespace CopyTrade

open Async (Prog Protocol Machine Fault Pool Input Learning)
open Python (Text text)
open JetStream (Streams stored respond notFoundError)

namespace Startup

/-! ## The consumers of the copy engine -/

/-- The durable names of the subscriptions, with their subjects. -/
def assignments : List (String × String) :=
  (copyEngineNormalizedTradesDurable, exchangeTradeEventNormalized) ::
    (copyEngineExecutionResultDurables.map Prod.swap ++
      [(copyEngineDeadLetterDurable, deadLetterEventCreated)])

theorem assignments_nodup : (assignments.map Prod.fst).Nodup := by decide

def assigned : List (Text × Text) := assignments.map fun a => (text a.1, text a.2)

theorem result_assigned {durable subject : String} (hs : subject ∈ copyExecutionResultSubjects)
    (h : copyEngineExecutionResultDurables.lookup subject = some durable) :
    (durable, subject) ∈ assignments := by
  revert h
  have hall : ∀ s ∈ copyExecutionResultSubjects, ∀ d ∈ copyEngineExecutionResultDurables.lookup s,
      (d, s) ∈ assignments := by decide
  exact hall subject hs durable

theorem assignments_cases {durable subject : String} (h : (durable, subject) ∈ assignments) :
    (durable = copyEngineNormalizedTradesDurable ∧ subject = exchangeTradeEventNormalized) ∨
    (subject ∈ copyExecutionResultSubjects ∧
      copyEngineExecutionResultDurables.lookup subject = some durable) ∨
    (durable = copyEngineDeadLetterDurable ∧ subject = deadLetterEventCreated) := by
  have hall : ∀ a ∈ assignments, (a.1 = copyEngineNormalizedTradesDurable ∧
      a.2 = exchangeTradeEventNormalized) ∨ (a.2 ∈ copyExecutionResultSubjects ∧
        copyEngineExecutionResultDurables.lookup a.2 = some a.1) ∨
      (a.1 = copyEngineDeadLetterDurable ∧ a.2 = deadLetterEventCreated) := by decide
  exact hall (durable, subject) h

theorem mem_assigned {durable subject : String} (h : (durable, subject) ∈ assignments) :
    (text durable, text subject) ∈ assigned :=
  List.mem_map.2 ⟨(durable, subject), h, rfl⟩

/-- A durable is for one subject. -/
theorem assigned_inj {durable subject subject' : Text} (h : (durable, subject) ∈ assigned)
    (h' : (durable, subject') ∈ assigned) : subject = subject' := by
  obtain ⟨⟨d, s⟩, hmem, he⟩ := List.mem_map.1 h
  obtain ⟨⟨d', s'⟩, hmem', he'⟩ := List.mem_map.1 h'
  cases he
  obtain ⟨hd, rfl⟩ := Prod.mk.inj he'
  have hd : d' = d := Python.text_injective hd
  have he : (d', s') = (d, s) := List.inj_on_of_nodup_map assignments_nodup hmem' hmem hd
  cases he
  rfl

/-- The consumer of a durable delivers the subject it is for, as the policy says. -/
structure Fits (policy : EventRetryPolicy) (durable : Text) (config : ConsumerConfig) : Prop where
  maxDeliver : config.maxDeliver = policy.maxDeliver
  ackWait : config.ackWait = policy.ackWaitSeconds
  filterSubject : ∃ subject, (durable, subject) ∈ assigned ∧ config.filterSubject = some subject

theorem fits_build {policy : EventRetryPolicy} {durable subject : Text} {inbox : Option Text}
    (h : (durable, subject) ∈ assigned) :
    Fits policy durable (buildConsumerConfig durable policy (some subject) inbox) :=
  ⟨rfl, rfl, subject, h, rfl⟩

/-! ## What a worker learns -/

inductive Fact where
  | streamLacking
  | streamReady
  | consumerUnfit (durable : Text)
  | consumerAbsent (durable : Text)
  | consumerFits (durable : Text)
  | consumerPresent (durable : Text)

/-- The facts of an answer, whatever raised it. -/
def learns (policy : EventRetryPolicy) : (c : Api.Call) → Api.Reply c → Set Fact
  | .inl (.streamInfo name), .ok (.ok config) =>
    {a | name = eventStream ∧ (allEventSubjects ⊆ config.subjects ∧ a = .streamReady ∨
      ¬ allEventSubjects ⊆ config.subjects ∧ a = .streamLacking)}
  | .inl (.addStream _), .ok (.ok _) => {.streamReady}
  | .inl (.updateStream _), .ok (.ok _) => {.streamReady}
  | .inr (.consumerInfo stream durable), .ok (.ok config) =>
    {a | stream = eventStream ∧ (a = .consumerPresent durable ∨
      Fits policy durable config ∧ a = .consumerFits durable ∨
      ¬ Fits policy durable config ∧ a = .consumerUnfit durable)}
  | .inr (.consumerInfo stream durable), .ok (.error e) =>
    {a | stream = eventStream ∧ e = notFoundError ∧
      (a = .consumerAbsent durable ∨ a = .consumerFits durable)}
  | .inr (.consumerInfo stream durable), .error e =>
    {a | stream = eventStream ∧ e = notFoundError ∧
      (a = .consumerAbsent durable ∨ a = .consumerFits durable)}
  | .inr (.addConsumer _ config), .ok (.ok _) =>
    {.consumerPresent config.durableName, .consumerFits config.durableName}
  | _, _ => ∅

/-- What is configured has all subjects, a consumer is one of the copy engine and fits, and what
is there is replaced only where it was found wanting. -/
def allows (policy : EventRetryPolicy) (known : Set Fact) : Api.Call → Prop
  | .inl (.addStream config) => config.name = eventStream ∧ allEventSubjects ⊆ config.subjects
  | .inl (.updateStream config) =>
    config.name = eventStream ∧ allEventSubjects ⊆ config.subjects ∧ .streamLacking ∈ known
  | .inr (.addConsumer stream config) =>
    stream = eventStream ∧ Fits policy config.durableName config ∧
      (.consumerUnfit config.durableName ∈ known ∨ .consumerAbsent config.durableName ∈ known)
  | .inr (.publish stream _ _ _) => stream = eventStream ∧ .streamReady ∈ known
  | .inr .wait =>
    .streamReady ∈ known ∧ ∀ durable subject, (durable, subject) ∈ assigned →
      .consumerFits durable ∈ known ∧ .consumerPresent durable ∈ known
  | _ => True

def learning (policy : EventRetryPolicy) : Learning Api Fact := ⟨allows policy, learns policy⟩

/-- The durable is one of the copy engine. -/
def Assigned (durable : Text) : Prop := ∃ subject, (durable, subject) ∈ assigned

/-- The fact is true of the server. `wanting` is what is said where something is found wanting. -/
def Holds (policy : EventRetryPolicy) (wanting : Prop) : Fact → Broker → Prop
  | .streamReady, w => allEventSubjects ⊆ subjectsOf w.streams eventStream
  | .consumerFits durable, w =>
    ∀ config, w.consumers eventStream durable = some config → Fits policy durable config
  | .consumerPresent durable, w => w.consumers eventStream durable ≠ none
  | .streamLacking, _ => wanting
  | .consumerUnfit durable, _ => Assigned durable → wanting
  | .consumerAbsent durable, _ => Assigned durable → wanting

/-- Only the server says that something is not found. -/
def Honest (f : Fault PyException) : Prop := f ≠ .before notFoundError ∧ f ≠ .after notFoundError

/-- The server is ready for the copy engine. -/
structure Ready (policy : EventRetryPolicy) (w : Broker) : Prop where
  subjects : allEventSubjects ⊆ subjectsOf w.streams eventStream
  consumers : ∀ durable subject, (durable, subject) ∈ assigned →
    ∃ config, w.consumers eventStream durable = some config ∧ Fits policy durable config

/-! ## What one call does -/

variable {policy : EventRetryPolicy} {w w' : Broker}

theorem subjects_ne_nil : ¬ allEventSubjects ⊆ [] := by decide

theorem subjectsOf_stored {streams : Streams} {config : StreamConfig}
    (hname : config.name = eventStream) (h : allEventSubjects ⊆ config.subjects) :
    allEventSubjects ⊆
      subjectsOf (Function.update streams config.name (some (stored config))) eventStream := by
  have hne : config.subjects ≠ [] := by
    intro hnil
    rw [hnil] at h
    exact subjects_ne_nil h
  unfold subjectsOf
  rw [← hname, Function.update_self, Option.elim_some, stored_subjects, if_neg hne]
  exact h

/-- **All that an allowed call does to the server.** -/
theorem effect_cases {known : Set Fact} {c : Api.Call} {a : Api.Ret c}
    (hc : allows policy known c) (h : effect c w = some (a, w')) :
    (∃ streams, w' = { w with streams := streams } ∧
      (allEventSubjects ⊆ subjectsOf w.streams eventStream →
        allEventSubjects ⊆ subjectsOf streams eventStream)) ∨
    (∃ config, w' = w.putConsumer eventStream config ∧ Fits policy config.durableName config) := by
  cases c with
  | inl c =>
    left
    cases h
    refine ⟨_, rfl, fun hready => ?_⟩
    cases c with
    | streamInfo name => exact hready
    | addStream config =>
      obtain ⟨hname, hsubset⟩ := hc
      simp only [respond]
      cases w.streams config.name with
      | none => exact subjectsOf_stored hname hsubset
      | some present => exact hready
    | updateStream config =>
      obtain ⟨hname, hsubset, -⟩ := hc
      simp only [respond]
      cases w.streams config.name with
      | none => exact hready
      | some present => exact subjectsOf_stored hname hsubset
  | inr c =>
    cases c with
    | addConsumer stream config =>
      obtain ⟨rfl, hfits, -⟩ := hc
      simp only [effect] at h
      split at h
      · cases h
        exact Or.inl ⟨w.streams, rfl, id⟩
      · cases h
        exact Or.inr ⟨config, rfl, hfits⟩
    | _ => cases h; exact Or.inl ⟨w.streams, rfl, id⟩

theorem consumers_put {config : ConsumerConfig} {durable : Text} :
    (w.putConsumer eventStream config).consumers eventStream durable =
      if durable = config.durableName then some config else w.consumers eventStream durable := by
  unfold Broker.putConsumer
  by_cases h : durable = config.durableName
  · subst h
    simp
  · rw [if_neg h]
    simp [h]

/-- **No allowed call makes a fact false.** -/
theorem effect_keeps {known : Set Fact} {c : Api.Call} {a : Api.Ret c}
    (hc : allows policy known c) (h : effect c w = some (a, w')) {wanting : Prop} (b : Fact)
    (hb : Holds policy wanting b w) : Holds policy wanting b w' := by
  rcases effect_cases hc h with ⟨streams, rfl, hstream⟩ | ⟨config, rfl, hfits⟩
  · cases b with
    | streamReady => exact hstream hb
    | _ => exact hb
  · cases b with
    | consumerFits durable =>
      intro present hpresent
      rw [consumers_put] at hpresent
      split at hpresent
      · rename_i hd
        cases hpresent
        rw [hd]
        exact hfits
      · exact hb present hpresent
    | consumerPresent durable =>
      show (w.putConsumer eventStream config).consumers eventStream durable ≠ none
      rw [consumers_put]
      split
      · exact Option.some_ne_none config
      · exact hb
    | _ => exact hb

/-- **An answer is true.** What is found wanting is said in `wanting`. -/
theorem effect_learnt {known : Set Fact} {c : Api.Call} {a : Api.Ret c}
    (hc : allows policy known c) (h : effect c w = some (a, w')) {wanting : Prop}
    (hstream : ¬ allEventSubjects ⊆ subjectsOf w.streams eventStream → wanting)
    (hunfit : ∀ durable config, w.consumers eventStream durable = some config →
      ¬ Fits policy durable config → Assigned durable → wanting)
    (habsent : ∀ durable, w.consumers eventStream durable = none → Assigned durable → wanting) :
    ∀ b ∈ learns policy c (.ok a), Holds policy wanting b w' := by
  intro b hb
  cases c with
  | inl c =>
    cases h
    cases c with
    | streamInfo name =>
      simp only [respond] at hb ⊢
      cases hw : w.streams name with
      | none => rw [hw] at hb; cases hb
      | some config =>
        rw [hw] at hb
        obtain ⟨rfl, hb⟩ := hb
        have hsubjects : subjectsOf w.streams eventStream = config.subjects := by
          unfold subjectsOf
          rw [hw, Option.elim_some]
        rcases hb with ⟨hsubset, rfl⟩ | ⟨hlacks, rfl⟩
        · show allEventSubjects ⊆ subjectsOf w.streams eventStream
          rw [hsubjects]
          exact hsubset
        · rw [← hsubjects] at hlacks
          exact hstream hlacks
    | addStream config =>
      obtain ⟨hname, hsubset⟩ := hc
      simp only [respond] at hb ⊢
      cases hw : w.streams config.name with
      | none =>
        rw [hw] at hb
        cases hb
        exact subjectsOf_stored hname hsubset
      | some present =>
        rw [hw] at hb
        dsimp only at hb
        split at hb
        · -- the server has this configuration already
          rename_i hsame
          cases hb
          have hput : allEventSubjects ⊆ subjectsOf
              (Function.update w.streams config.name (some (stored config))) eventStream :=
            subjectsOf_stored hname hsubset
          rw [← hsame, ← hw, Function.update_eq_self] at hput
          exact hput
        · cases hb
    | updateStream config =>
      obtain ⟨hname, hsubset, -⟩ := hc
      simp only [respond] at hb ⊢
      cases hw : w.streams config.name with
      | none => rw [hw] at hb; cases hb
      | some present =>
        rw [hw] at hb
        cases hb
        exact subjectsOf_stored hname hsubset
  | inr c =>
    cases c with
    | consumerInfo stream durable =>
      cases h
      cases hw : w.consumers stream durable with
      | none =>
        rw [hw] at hb
        obtain ⟨rfl, -, rfl | rfl⟩ := hb
        · exact habsent durable hw
        · intro config hconfig
          rw [hw] at hconfig
          cases hconfig
      | some config =>
        rw [hw] at hb
        obtain ⟨rfl, rfl | ⟨hfits, rfl⟩ | ⟨hunfit', rfl⟩⟩ := hb
        · show w.consumers eventStream durable ≠ none
          rw [hw]
          exact Option.some_ne_none config
        · intro present hpresent
          rw [hw] at hpresent
          cases hpresent
          exact hfits
        · exact hunfit durable config hw hunfit'
    | addConsumer stream config =>
      obtain ⟨rfl, hfits, -⟩ := hc
      simp only [effect] at h
      split at h
      · cases h
        cases hb
      · cases h
        have hself : (w.putConsumer eventStream config).consumers eventStream config.durableName =
            some config := by rw [consumers_put, if_pos rfl]
        rcases hb with rfl | rfl
        · show (w.putConsumer eventStream config).consumers eventStream config.durableName ≠ none
          rw [hself]
          exact Option.some_ne_none config
        · intro present hpresent
          rw [hself] at hpresent
          cases hpresent
          exact hfits
    | _ => cases hb

/-- What a call that raises teaches: nothing, unless it says that a consumer is not found. -/
theorem learns_error {c : Api.Call} {e : PyException} (he : e ≠ notFoundError) :
    learns policy c (.error e) = ∅ := by
  cases c with
  | inl c => cases c <;> rfl
  | inr c =>
    cases c with
    | consumerInfo stream durable =>
      ext b
      simp [learns, he]
    | _ => rfl

/-- **What is learnt of a call** was answered by the server. -/
theorem serve_learnt {c : Api.Call} {f : Fault PyException} {r : Api.Reply c} (hf : Honest f)
    (hs : broker.serve c f w = some (r, w')) {a : Fact} (ha : a ∈ learns policy c r) :
    ∃ b, effect c w = some (b, w') ∧ a ∈ learns policy c (.ok b) := by
  have hraised : ∀ e, e ≠ notFoundError → a ∉ learns policy c (.error e) := fun e he hmem => by
    rw [learns_error he] at hmem
    cases hmem
  rcases Machine.serve_cases hs with ⟨e, rfl, rfl, -⟩ | ⟨b, hb, ⟨-, rfl⟩ | ⟨e, rfl, rfl⟩⟩
  · exact absurd ha (hraised e fun he => hf.1 (by rw [he]))
  · exact ⟨b, hb, ha⟩
  · exact absurd ha (hraised e fun he => hf.2 (by rw [he]))

/-- **No call of the system makes a fact false, and every answer is true.** -/
theorem learning_sound :
    (learning policy).Sound broker Honest (fun _ => True) (Holds policy True) := by
  refine ⟨fun _ _ => ⟨trivial, fun _ ha => ha⟩, (fun _ m => nomatch m), ?_, ?_⟩
  · intro known c f w r w' hallow _ _ _ hs
    refine ⟨trivial, fun a ha => ?_⟩
    rcases Machine.serve_state hs with ⟨-, b, hb⟩ | ⟨-, rfl⟩
    · exact effect_keeps hallow hb a ha
    · exact ha
  · intro known c f w r w' hallow _ _ hf hs a ha
    obtain ⟨b, hb, ha⟩ := serve_learnt hf hs ha
    exact effect_learnt hallow hb (fun _ => trivial) (fun _ _ _ _ _ => trivial)
      (fun _ _ _ => trivial) a ha

/-! ## A server that is ready -/

/-- **On a server that is ready**, where nothing is found wanting, a call changes nothing. -/
theorem effect_quiet {known : Set Fact} {c : Api.Call} {a : Api.Ret c} (hw : Ready policy w)
    (hknown : ∀ b ∈ known, Holds policy False b w) (hc : allows policy known c)
    (h : effect c w = some (a, w')) : w' = w := by
  cases c with
  | inl c =>
    cases h
    cases c with
    | streamInfo name => rfl
    | addStream config =>
      obtain ⟨hname, -⟩ := hc
      have hsome : w.streams config.name ≠ none := by
        rw [hname]
        intro hnone
        have hsubset := hw.subjects
        unfold subjectsOf at hsubset
        rw [hnone] at hsubset
        exact subjects_ne_nil hsubset
      obtain ⟨present, hpresent⟩ := Option.ne_none_iff_exists'.1 hsome
      simp only [respond, hpresent]
    | updateStream config => exact (hknown _ hc.2.2).elim
  | inr c =>
    cases c with
    | addConsumer stream config =>
      obtain ⟨-, hfits, hfact⟩ := hc
      obtain ⟨subject, hassigned, -⟩ := hfits.filterSubject
      rcases hfact with hfact | hfact
      · exact (hknown _ hfact ⟨subject, hassigned⟩).elim
      · exact (hknown _ hfact ⟨subject, hassigned⟩).elim
    | _ => cases h; rfl

/-- **On a server that is ready** no call changes anything, and nothing is found wanting. -/
theorem learning_quiet {w₀ : Broker} (hw : Ready policy w₀) :
    (learning policy).Sound broker Honest (fun w => w = w₀) (Holds policy False) := by
  refine ⟨fun _ hs => ⟨hs, fun _ ha => ha⟩, (fun _ m => nomatch m), ?_, ?_⟩
  · rintro known c f w r w' hallow hknown rfl - hs
    rcases Machine.serve_state hs with ⟨-, b, hb⟩ | ⟨-, rfl⟩
    · rw [effect_quiet hw hknown hallow hb]
      exact ⟨rfl, fun _ ha => ha⟩
    · exact ⟨rfl, fun _ ha => ha⟩
  · rintro known c f w r w' hallow hknown rfl hf hs a ha
    obtain ⟨b, hb, ha⟩ := serve_learnt hf hs ha
    refine effect_learnt hallow hb (fun hlacks => hlacks hw.subjects) ?_ ?_ a ha
    · rintro durable config hconfig hunfit ⟨subject, hassigned⟩
      obtain ⟨present, hpresent, hfits⟩ := hw.consumers durable subject hassigned
      rw [hconfig] at hpresent
      cases hpresent
      exact hunfit hfits
    · rintro durable hnone ⟨subject, hassigned⟩
      obtain ⟨present, hpresent, -⟩ := hw.consumers durable subject hassigned
      rw [hnone] at hpresent
      cases hpresent

/-! ## The programs -/

/-- What every bus of the system is: on the stream of the events, with its subjects, and with
the policy. -/
structure Alike (policy : EventRetryPolicy) (bus : EventBus) : Prop where
  streamName : bus.streamName = eventStream
  streamSubjects : ∀ s, s ∈ bus.streamSubjects ↔ s ∈ allEventSubjects
  retryPolicy : bus.retryPolicy = policy

theorem alike_default : Alike {} {} := ⟨rfl, fun _ => Iff.rfl, rfl⟩

variable {bus : EventBus} {known : Set Fact}

theorem Alike.subset (h : Alike policy bus) : allEventSubjects ⊆ bus.streamSubjects :=
  fun s hs => (h.streamSubjects s).2 hs

theorem Alike.missing_iff (h : Alike policy bus) {config : StreamConfig} :
    bus.missingSubjects config = [] ↔ allEventSubjects ⊆ config.subjects := by
  unfold NatsJetStreamEventBus.missingSubjects
  rw [List.filter_eq_nil_iff]
  constructor
  · intro hall s hs
    have hmem := hall s ((h.streamSubjects s).2 hs)
    simpa using hmem
  · intro hsubset s hs
    have hmem : s ∈ config.subjects := hsubset ((h.streamSubjects s).1 hs)
    simpa using hmem

/-- A request for a stream that ends `ensure_stream`. -/
theorem request_keeps {c : JetStream.Request} (hallow : allows policy known (.inl c))
    (hlearn : ∀ config, .streamReady ∈ learns policy (.inl c) (.ok (.ok config))) :
    (JetStream.request c >>= fun _ => (pure () : Prog JetStream.Api Unit)).Obeys
      (learning policy).discipline.narrow known (fun l _ => known ⊆ l ∧ .streamReady ∈ l)
      fun _ _ => True := by
  refine Prog.obeys_bind (Prog.obeys_bind (Prog.obeys_call hallow (fun answer => ?_) fun _ => trivial))
  refine Prog.obeys_ofExcept (fun config hok => ?_) fun _ _ => trivial
  subst hok
  exact ⟨Set.subset_union_left, Or.inr (hlearn config)⟩

theorem addStream_keeps (h : Alike policy bus) :
    (JetStream.request (.addStream bus.streamConfig) >>= fun _ => (pure () : Prog JetStream.Api Unit)).Obeys
      (learning policy).discipline.narrow known (fun l _ => known ⊆ l ∧ .streamReady ∈ l)
      fun _ _ => True := by
  have hallow : allows policy known (.inl (.addStream bus.streamConfig)) := ⟨h.streamName, h.subset⟩
  exact request_keeps hallow fun _ => rfl

theorem updateStream_keeps (h : Alike policy bus) (hlacking : .streamLacking ∈ known) :
    (JetStream.request (.updateStream bus.streamConfig) >>= fun _ =>
      (pure () : Prog JetStream.Api Unit)).Obeys (learning policy).discipline.narrow known
      (fun l _ => known ⊆ l ∧ .streamReady ∈ l) fun _ _ => True := by
  have hallow : allows policy known (.inl (.updateStream bus.streamConfig)) :=
    ⟨h.streamName, h.subset, hlacking⟩
  exact request_keeps hallow fun _ => rfl

/-- **`ensure_stream`** returns where the stream is ready. -/
theorem ensureStream_keeps (h : Alike policy bus) :
    (bus.ensureStream.widen : Prog Api Unit).Obeys (learning policy).discipline known
      (fun l _ => known ⊆ l ∧ .streamReady ∈ l) fun _ _ => True := by
  refine Prog.obeys_widen ?_
  unfold NatsJetStreamEventBus.ensureStream
  split
  case isFalse => exact trivial
  -- an error that is not the server's is one too
  have hfailed : ∀ (e : PyException) (l : Set Fact), known ⊆ l →
      (bus.afterStreamInfo (.error e)).Obeys (learning policy).discipline.narrow l
        (fun l _ => known ⊆ l ∧ .streamReady ∈ l) fun _ _ => True := by
    intro e l hl
    unfold NatsJetStreamEventBus.afterStreamInfo
    dsimp only
    split
    · exact (addStream_keeps h).mono (fun l' _ hl' => ⟨hl.trans hl'.1, hl'.2⟩) fun _ _ _ => trivial
    · exact trivial
  refine Prog.obeys_bind (Prog.obeys_caught (Prog.obeys_bind (Prog.obeys_call trivial
    (fun answer => ?_) fun e => hfailed e _ Set.subset_union_left)))
  refine Prog.obeys_ofExcept (fun config hok => ?_) fun e _ => hfailed e _ Set.subset_union_left
  subst hok
  unfold NatsJetStreamEventBus.afterStreamInfo
  dsimp only
  by_cases hmissing : bus.missingSubjects config = []
  · rw [if_pos hmissing]
    exact ⟨Set.subset_union_left, Or.inr ⟨h.streamName, Or.inl ⟨h.missing_iff.1 hmissing, rfl⟩⟩⟩
  · rw [if_neg hmissing]
    have hlacking : Fact.streamLacking ∈ learns policy (.inl (.streamInfo bus.streamName))
        (.ok (.ok config)) :=
      ⟨h.streamName, Or.inr ⟨fun hsubset => hmissing (h.missing_iff.2 hsubset), rfl⟩⟩
    exact (updateStream_keeps h (Or.inr hlacking)).mono
      (fun l _ hl => ⟨Set.subset_union_left.trans hl.1, hl.2⟩) fun _ _ _ => trivial

variable {subject durable : Text}

/-- **`ensure_consumer_config`** returns where the consumer fits, if there is one. -/
theorem ensureConsumerConfig_keeps (h : Alike policy bus) (ha : (durable, subject) ∈ assigned) :
    (bus.ensureConsumerConfig subject durable).Obeys (learning policy).discipline known
      (fun l _ => known ⊆ l ∧ .consumerFits durable ∈ l) fun _ _ => True := by
  unfold EventBus.ensureConsumerConfig EventBus.requireJetstream
  split
  case isFalse => exact trivial
  rw [Prog.pure_eq, Prog.bind_done]
  refine Prog.obeys_bind (Prog.obeys_caught (Prog.obeys_call trivial (fun answer => ?_) fun e => ?_))
  · cases answer with
    | error e =>
      unfold EventBus.afterConsumerInfo
      dsimp only
      split
      · rename_i he
        exact ⟨Set.subset_union_left, Or.inr ⟨h.streamName, he, Or.inr rfl⟩⟩
      · exact trivial
    | ok config =>
      unfold EventBus.afterConsumerInfo EventBus.alignConsumer
      dsimp only
      split
      · rename_i hsame
        have hfits : Fits policy durable config := by
          obtain ⟨hmax, hwait, hfilter⟩ := hsame
          rw [h.retryPolicy] at hmax hwait
          exact ⟨hmax, hwait, subject, ha, hfilter⟩
        exact ⟨Set.subset_union_left, Or.inr ⟨h.streamName, Or.inr (Or.inl ⟨hfits, rfl⟩)⟩⟩
      · rename_i hother
        have hunfit : ¬ Fits policy durable config := by
          rintro ⟨hmax, hwait, subject', ha', hfilter⟩
          have hsubject : subject' = subject := assigned_inj ha' ha
          rw [hsubject] at hfilter
          rw [h.retryPolicy] at hother
          exact hother ⟨hmax, hwait, hfilter⟩
        have hknown : Fact.consumerUnfit durable ∈ known ∪
            learns policy (.inr (.consumerInfo bus.streamName durable)) (.ok (.ok config)) :=
          Or.inr ⟨h.streamName, Or.inr (Or.inr ⟨hunfit, rfl⟩)⟩
        have hallow : allows policy (known ∪
            learns policy (.inr (.consumerInfo bus.streamName durable)) (.ok (.ok config)))
            (.inr (.addConsumer bus.streamName (buildConsumerConfig durable bus.retryPolicy
              (some subject) config.deliverSubject))) := by
          refine ⟨h.streamName, ?_, Or.inl hknown⟩
          rw [h.retryPolicy]
          exact fits_build ha
        refine Prog.obeys_bind (Prog.obeys_call hallow (fun answer => ?_) fun _ => trivial)
        refine Prog.obeys_bind (Prog.obeys_ofExcept (fun config' hok => ?_) fun _ _ => trivial)
        subst hok
        exact ⟨Set.subset_union_left.trans Set.subset_union_left, Or.inr (Or.inr rfl)⟩
  · unfold EventBus.afterConsumerInfo
    dsimp only
    split
    · rename_i he
      exact ⟨Set.subset_union_left, Or.inr ⟨h.streamName, he, Or.inr rfl⟩⟩
    · exact trivial

/-! ### The client library -/

/-- How far a `subscribe` is with its consumer. -/
inductive Lookup where
  | asking
  | absent
  | bound
  deriving DecidableEq

/-- What the library documents of `subscribe` with a durable: it asks for the consumer, and makes
one of the configuration where there is none, which delivers to an inbox of its own. -/
def binding (stream : String) (config : ConsumerConfig) : Protocol Api Lookup where
  allow l
    | .inr (.consumerInfo stream' durable) => stream' = stream ∧ durable = config.durableName
    | .inr (.addConsumer stream' config') =>
      stream' = stream ∧ l = .absent ∧ ∃ inbox, config' = { config with deliverSubject := inbox }
    | .inr (.listen _ _) => True
    | _ => False
  next l
    | .inr (.consumerInfo _ _), .ok (.ok _) => .bound
    | .inr (.consumerInfo _ _), .ok (.error e) => if e = notFoundError then .absent else l
    | .inr (.addConsumer _ _), .ok (.ok _) => .bound
    | _, _ => l

/-- It returns where it has found the consumer or made it. -/
structure Documented (library : ClientLibrary) : Prop where
  subscribe : ∀ stream config handler, (library.subscribe stream config handler).Obeys
    (binding stream config) .asking (fun l _ => l = .bound) fun _ _ => True

variable {library : ClientLibrary} {args : RunArguments} {handler : EventHandler}

/-- What is known by how far the look-up is. -/
structure Found (known : Set Fact) (durable : Text) (l : Lookup) (l' : Set Fact) : Prop where
  keeps : known ⊆ l'
  absent : l = .absent → Fact.consumerAbsent durable ∈ l'
  bound : l = .bound → Fact.consumerPresent durable ∈ l'

/-- **The library's `subscribe`** returns where there is a consumer. -/
theorem subscribe_keeps (hdoc : Documented library) (ha : (durable, subject) ∈ assigned) :
    (library.subscribe eventStream (buildConsumerConfig durable policy (some subject) none)
      handler).Obeys (learning policy).discipline known
      (fun l _ => known ⊆ l ∧ .consumerPresent durable ∈ l) fun _ _ => True := by
  have hstart : Found known durable .asking known :=
    ⟨Set.Subset.refl _, (fun h => by cases h), fun h => by cases h⟩
  refine ((hdoc.subscribe eventStream _ handler).transfer (R := Found known durable) ?_ ?_
    hstart).mono ?_ fun _ _ _ => trivial
  · -- what the library calls is allowed
    rintro l l' c hfound hc
    cases c with
    | inl c => exact hc.elim
    | inr c =>
      cases c with
      | consumerInfo stream durable' => trivial
      | addConsumer stream config =>
        obtain ⟨rfl, habsent, inbox, rfl⟩ := hc
        exact ⟨rfl, fits_build ha, Or.inr (hfound.absent habsent)⟩
      | listen deliverSubject handler => trivial
      | _ => exact hc.elim
  · -- what it finds is known
    rintro l l' c r hfound hc
    have hmore : known ⊆ l' ∪ learns policy c r := hfound.keeps.trans Set.subset_union_left
    have hsame : (binding eventStream (buildConsumerConfig durable policy (some subject) none)).next
        l c r = l → Found known durable ((binding eventStream
          (buildConsumerConfig durable policy (some subject) none)).next l c r)
          (l' ∪ learns policy c r) := fun he => by
      rw [he]
      exact ⟨hmore, fun h => Or.inl (hfound.absent h), fun h => Or.inl (hfound.bound h)⟩
    cases c with
    | inl c => exact hc.elim
    | inr c =>
      cases c with
      | consumerInfo stream durable' =>
        obtain ⟨rfl, rfl⟩ := hc
        cases r with
        | error e => exact hsame rfl
        | ok answer =>
          cases answer with
          | ok config => exact ⟨hmore, (fun h => by cases h), fun _ => Or.inr ⟨rfl, Or.inl rfl⟩⟩
          | error e =>
            by_cases he : e = notFoundError
            · subst he
              exact ⟨hmore, fun _ => Or.inr ⟨rfl, rfl, Or.inl rfl⟩, fun h => by cases h⟩
            · exact hsame (if_neg he)
      | addConsumer stream config =>
        obtain ⟨rfl, -, inbox, rfl⟩ := hc
        cases r with
        | error e => exact hsame rfl
        | ok answer =>
          cases answer with
          | ok config => exact ⟨hmore, (fun h => by cases h), fun _ => Or.inr (Or.inl rfl)⟩
          | error e => exact hsame rfl
      | listen deliverSubject handler => exact hsame rfl
      | _ => exact hc.elim
  · rintro l' - ⟨l, hfound, rfl⟩
    exact ⟨hfound.keeps, hfound.bound rfl⟩

/-- What is known of a consumer that is subscribed. -/
def Subscribed (known : Set Fact) (durable : Text) : Prop :=
  .consumerFits durable ∈ known ∧ .consumerPresent durable ∈ known

theorem Subscribed.mono {known' : Set Fact} (h : Subscribed known durable) (hsub : known ⊆ known') :
    Subscribed known' durable := ⟨hsub h.1, hsub h.2⟩

/-- **`subscribe_json`** returns where the stream is ready and the consumer is there and fits. -/
theorem subscribeJson_keeps (h : Alike policy bus) (hdoc : Documented library)
    (ha : (durable, subject) ∈ assigned) :
    (bus.subscribeJson library subject durable handler).Obeys (learning policy).discipline known
      (fun l _ => known ⊆ l ∧ .streamReady ∈ l ∧ Subscribed l durable) fun _ _ => True := by
  unfold EventBus.subscribeJson
  refine Prog.obeys_bind ((ensureStream_keeps h).mono (fun l₁ _ h₁ => ?_) fun _ _ _ => trivial)
  refine Prog.obeys_bind ((ensureConsumerConfig_keeps h ha).mono (fun l₂ _ h₂ => ?_)
    fun _ _ _ => trivial)
  unfold EventBus.requireJetstream
  split
  case isFalse => exact trivial
  rw [Prog.pure_eq, Prog.bind_done, h.streamName, h.retryPolicy]
  refine (subscribe_keeps hdoc ha).mono (fun l₃ _ h₃ => ?_) fun _ _ _ => trivial
  have hknown : known ⊆ l₃ := h₁.1.trans (h₂.1.trans h₃.1)
  exact ⟨hknown, h₃.1 (h₂.1 h₁.2), h₃.1 h₂.2, h₃.2⟩

/-! ### `run()` -/

theorem subscribeResults_keeps (h : Alike policy bus) (hdoc : Documented library)
    {subjects : List String} (hs : subjects ⊆ copyExecutionResultSubjects) :
    ∀ {known : Set Fact}, (subscribeResults library args bus subjects).Obeys
      (learning policy).discipline known (fun l _ => known ⊆ l ∧ ∀ durable subject,
        copyEngineExecutionResultDurables.lookup subject = some durable → subject ∈ subjects →
          Subscribed l (text durable)) fun _ _ => True := by
  induction subjects with
  | nil => exact fun {known} => ⟨Set.Subset.refl known, fun _ _ _ hmem => by cases hmem⟩
  | cons subject rest ih =>
    intro known
    unfold subscribeResults
    split
    · exact trivial
    rename_i durable hdurable
    have ha : (text durable, text subject) ∈ assigned :=
      mem_assigned (result_assigned (hs List.mem_cons_self) hdurable)
    refine Prog.obeys_bind ((subscribeJson_keeps h hdoc ha).mono (fun l₁ _ h₁ => ?_)
      fun _ _ _ => trivial)
    refine (ih fun s hmem => hs (List.mem_cons_of_mem subject hmem)).mono (fun l₂ _ h₂ => ?_)
      fun _ _ _ => trivial
    refine ⟨h₁.1.trans h₂.1, fun durable' subject' hdurable' hmem => ?_⟩
    rcases List.mem_cons.1 hmem with rfl | hmem
    · rw [hdurable] at hdurable'
      cases hdurable'
      exact h₁.2.2.mono h₂.1
    · exact h₂.2 durable' subject' hdurable' hmem

/-- **Where it waits**, a worker has subscribed to everything. -/
theorem subscribeAndWait_keeps (h : Alike policy bus) (hdoc : Documented library) :
    (subscribeAndWait library args bus).Obeys (learning policy).discipline known
      (fun _ _ => True) fun _ _ => True := by
  unfold subscribeAndWait
  have htrades : (text copyEngineNormalizedTradesDurable, text exchangeTradeEventNormalized) ∈ assigned :=
    mem_assigned (by decide)
  have hletters : (text copyEngineDeadLetterDurable, text deadLetterEventCreated) ∈ assigned :=
    mem_assigned (by decide)
  refine Prog.obeys_bind ((subscribeJson_keeps h hdoc htrades).mono (fun l₁ _ h₁ => ?_)
    fun _ _ _ => trivial)
  refine Prog.obeys_bind ((subscribeResults_keeps h hdoc (List.Subset.refl _)).mono
    (fun l₂ _ h₂ => ?_) fun _ _ _ => trivial)
  refine Prog.obeys_bind ((subscribeJson_keeps h hdoc hletters).mono (fun l₃ _ h₃ => ?_)
    fun _ _ _ => trivial)
  refine Prog.obeys_call ⟨h₃.2.1, fun durable subject hmem => ?_⟩ (fun _ => trivial) fun _ => trivial
  obtain ⟨⟨d, s⟩, hassignment, he⟩ := List.mem_map.1 hmem
  cases he
  rcases assignments_cases hassignment with ⟨rfl, rfl⟩ | ⟨hs, hd⟩ | ⟨rfl, rfl⟩
  · exact h₁.2.2.mono (h₂.1.trans h₃.1)
  · exact (h₂.2 d s hd hs).mono h₃.1
  · exact h₃.2.2

theorem cleanUp_keeps (owns : Owns) : (cleanUp owns).Obeys (learning policy).discipline known
    (fun _ _ => True) fun _ _ => True := by
  have hpool : ∀ l : Set Fact, (if owns.databasePool then call .closePool else pure () : Prog Api Unit).Obeys
      (learning policy).discipline l (fun _ _ => True) fun _ _ => True := by
    intro l
    split
    · exact Prog.obeys_call trivial (fun _ => trivial) fun _ => trivial
    · trivial
  unfold cleanUp
  refine Prog.obeys_bind ?_
  split
  · exact Prog.obeys_call trivial (fun _ => hpool _) fun _ => trivial
  · exact hpool known

/-- **The programs of the system**: workers and publishers, on buses that are alike. -/
inductive Member (policy : EventRetryPolicy) : Prog Api Unit → Prop where
  | worker {library : ClientLibrary} {args : RunArguments} (documented : Documented library)
      (given : ∀ bus ∈ args.eventBus, Alike policy bus) (default : args.eventBus = none → policy = {}) :
      Member policy (run library args)
  | publisher {bus : EventBus} (alike : Alike policy bus) (subject : String) (data : List UInt8)
      (msgId : Option Text) : Member policy (bus.publishJson subject data msgId)

theorem runOnPool_keeps (hdoc : Documented library) (hgiven : ∀ bus ∈ args.eventBus, Alike policy bus)
    (hdefault : args.eventBus = none → policy = {}) (owns : Bool) :
    (runOnPool library args owns).Obeys (learning policy).discipline known (fun _ _ => True)
      fun _ _ => True := by
  -- whichever bus it is, the worker cleans up after it
  have hrest : ∀ (l : Set Fact) (bus : EventBus) (o : Owns), Alike policy bus →
      ((subscribeAndWait library args bus).tryFinally (cleanUp o)).Obeys (learning policy).discipline l
        (fun _ _ => True) fun _ _ => True := by
    intro l bus o h
    refine Prog.obeys_tryFinally ((subscribeAndWait_keeps h hdoc).mono ?_ ?_)
    · intro l' _ _
      exact cleanUp_keeps o
    · intro l' _ _
      exact cleanUp_keeps o
  unfold runOnPool
  split
  · rename_i bus hbus
    exact hrest known bus _ (hgiven bus hbus)
  · rename_i hnone
    cases hdefault hnone
    refine Prog.obeys_bind (Prog.obeys_caught (Prog.obeys_call trivial (fun _ => ?_) fun e => ?_))
    · exact hrest _ {} _ alike_default
    · exact Prog.obeys_bind ((cleanUp_keeps _).mono (fun _ _ _ => trivial) fun _ _ _ => trivial)

theorem run_keeps (hdoc : Documented library) (hgiven : ∀ bus ∈ args.eventBus, Alike policy bus)
    (hdefault : args.eventBus = none → policy = {}) :
    (run library args).Keeps (learning policy).discipline known := by
  unfold Prog.Keeps run
  split
  · exact runOnPool_keeps hdoc hgiven hdefault false
  · refine Prog.obeys_bind (Prog.obeys_call trivial (fun _ => ?_) fun _ => trivial)
    exact runOnPool_keeps hdoc hgiven hdefault true

theorem publishJson_keeps (h : Alike policy bus) (subject : String) (data : List UInt8)
    (msgId : Option Text) :
    (bus.publishJson subject data msgId).Keeps (learning policy).discipline known := by
  unfold Prog.Keeps EventBus.publishJson
  refine Prog.obeys_bind ((ensureStream_keeps h).mono (fun l _ hl => ?_) fun _ _ _ => trivial)
  unfold EventBus.requireJetstream
  split
  case isFalse => exact trivial
  exact Prog.obeys_call ⟨h.streamName, hl.2⟩ (fun _ => trivial) fun _ => trivial

theorem Member.keeps {q : Prog Api Unit} (h : Member policy q) :
    q.Keeps (learning policy).discipline ∅ := by
  cases h with
  | worker documented given default => exact run_keeps documented given default
  | publisher alike subject data msgId => exact publishJson_keeps alike subject data msgId

/-! ## Any interleaving -/

/-- A worker or a publisher starts, or a call goes in any way that does not claim for the server
that something is not found. -/
def Admitted (policy : EventRetryPolicy) : Input broker → Prop
  | .begin q => Member policy q
  | .turn _ f => Honest f
  | .move _ => True

theorem Admitted.admits {x : Input broker} (h : Admitted policy x) :
    (learning policy).Admits Honest x := by
  cases x with
  | begin q => exact Member.keeps h
  | turn i f => exact h
  | move m => trivial

variable {xs ys : List (Input broker)} {p p' : Pool broker}

theorem knows_init (w : Broker) :
    (learning policy).Knows (M := broker) (fun _ => True) (Holds policy True) (Pool.init w) :=
  Learning.Knows.init trivial

theorem ready_of_holds {w : Broker} {known : Set Fact} (hallow : allows policy known (.inr .wait))
    (htrue : ∀ a ∈ known, Holds policy True a w) : Ready policy w := by
  refine ⟨htrue _ hallow.1, fun durable subject hmem => ?_⟩
  obtain ⟨hfits, hpresent⟩ := hallow.2 durable subject hmem
  obtain ⟨config, hconfig⟩ := Option.ne_none_iff_exists'.1 (htrue _ hpresent)
  exact ⟨config, hconfig, htrue _ hfits config hconfig⟩

theorem Ready.holds (h : Ready policy w) : Holds policy True .streamReady w ∧
    ∀ durable subject, (durable, subject) ∈ assigned → Holds policy True (.consumerFits durable) w ∧
      Holds policy True (.consumerPresent durable) w := by
  refine ⟨h.subjects, fun durable subject hmem => ?_⟩
  obtain ⟨config, hconfig, hfits⟩ := h.consumers durable subject hmem
  refine ⟨fun present hpresent => ?_, ?_⟩
  · rw [hconfig] at hpresent
    cases hpresent
    exact hfits
  · show w.consumers eventStream durable ≠ none
    rw [hconfig]
    exact Option.some_ne_none config

/-! ### A worker on an empty server -/

/-- A `subscribe` as the library documents it. -/
def sampleLibrary : ClientLibrary where
  subscribe stream config handler := do
    let answer ← call (.consumerInfo stream config.durableName)
    match answer with
    | .ok found => call (.listen found.deliverSubject handler)
    | .error e =>
      if e = notFoundError then do
        let made ← call (.addConsumer stream { config with deliverSubject := some (text "_INBOX.1") })
        let made ← Prog.ofExcept (σ := Api) made
        call (.listen made.deliverSubject handler)
      else Prog.fail (σ := Api) e

theorem sampleLibrary_documented : Documented sampleLibrary := by
  constructor
  intro stream config handler
  refine Prog.obeys_bind (Prog.obeys_call ⟨rfl, rfl⟩ (fun answer => ?_) fun _ => trivial)
  cases answer with
  | ok found => exact Prog.obeys_call trivial (fun _ => rfl) fun _ => trivial
  | error e =>
    dsimp only
    split
    · rename_i he
      subst he
      refine Prog.obeys_bind (Prog.obeys_call ⟨rfl, rfl, _, rfl⟩ (fun made => ?_) fun _ => trivial)
      refine Prog.obeys_bind (Prog.obeys_ofExcept (fun config' hok => ?_) fun _ _ => trivial)
      subst hok
      exact Prog.obeys_call trivial (fun _ => rfl) fun _ => trivial
    · exact trivial

/-- A server without streams. -/
def emptyBroker : Broker := ⟨fun _ => none, fun _ _ => none⟩

theorem member_sample : Member {} (run sampleLibrary {}) :=
  .worker sampleLibrary_documented (fun bus h => by cases h) fun _ => rfl

/-- One worker, whose calls all work. -/
def startRun (turns : ℕ) : List (Input broker) :=
  .begin (run sampleLibrary {}) :: List.replicate turns (.turn 0 .works)

theorem startRun_admitted (turns : ℕ) : ∀ x ∈ startRun turns, Admitted {} x := by
  intro x hx
  rcases List.mem_cons.1 hx with rfl | hx
  · exact member_sample
  · rw [(List.mem_replicate.1 hx).2]
    exact ⟨nofun, nofun⟩

theorem startRun_waits : ∃ p k, (Pool.init emptyBroker).run? (startRun 33) = some p ∧
    p.running[0]? = some (.await (.inr .wait) k) := ⟨_, _, rfl, rfl⟩

/-- Where a worker waits, the server is ready. -/
theorem ready_of_waiting {w : Broker} (hxs : ∀ x ∈ xs, Admitted policy x)
    (hrun : (Pool.init w).run? xs = some p) {i : ℕ} {k : Api.Reply (.inr .wait) → Prog Api Unit}
    (hwait : p.running[i]? = some (.await (.inr .wait) k)) :
    Ready policy p.state ∧
      (learning policy).Knows (M := broker) (fun _ => True) (Holds policy True) p := by
  have hknows := ((knows_init w).run learning_sound (fun x hx => (hxs x hx).admits) hrun).1
  obtain ⟨known, hallow, htrue⟩ := hknows.calling hwait
  exact ⟨ready_of_holds hallow htrue, hknows⟩

/-- **Where a worker waits for its end, the server is ready, then and from there on.** In any
interleaving of any number of workers and publishers on buses that are alike, from any streams
and consumers, with any call raising before or after its effect: when a `run()` has come to wait,
the stream has every subject of the events, and each of its six durables has a consumer that
filters its own subject and delivers as the retry policy says; whatever starts or goes on later. -/
theorem waiting_ready {w : Broker} (hxs : ∀ x ∈ xs, Admitted policy x)
    (hys : ∀ y ∈ ys, Admitted policy y) (hrun : (Pool.init w).run? xs = some p)
    {i : ℕ} {k : Api.Reply (.inr .wait) → Prog Api Unit}
    (hwait : p.running[i]? = some (.await (.inr .wait) k)) (hlater : p.run? ys = some p') :
    Ready policy p'.state := by
  obtain ⟨hready, hknows⟩ := ready_of_waiting hxs hrun hwait
  have hstays := (hknows.run learning_sound (fun y hy => (hys y hy).admits) hlater).2
  refine ⟨hstays _ hready.holds.1, fun durable subject hmem => ?_⟩
  obtain ⟨hfits, hpresent⟩ := hready.holds.2 durable subject hmem
  obtain ⟨config, hconfig⟩ := Option.ne_none_iff_exists'.1 (hstays _ hpresent)
  exact ⟨config, hconfig, hstays _ hfits config hconfig⟩

theorem waiting_ready_sample : ∃ p, (Pool.init emptyBroker).run? (startRun 33) = some p ∧
    Ready {} p.state := by
  obtain ⟨p, k, hrun, hwait⟩ := startRun_waits
  have hlater : p.run? [] = some p := rfl
  exact ⟨p, hrun, waiting_ready (startRun_admitted 33) (fun _ hy => by cases hy) hrun hwait hlater⟩

/-- **Every message is published where its subject is configured**, in any such interleaving. -/
theorem publishing_configured {w : Broker} (hxs : ∀ x ∈ xs, Admitted policy x)
    (hrun : (Pool.init w).run? xs = some p) {i : ℕ} {stream subject : String} {data : List UInt8}
    {msgId : Option Text}
    {k : Api.Reply (.inr (.publish stream subject data msgId)) → Prog Api Unit}
    (hpublish : p.running[i]? = some (.await (.inr (.publish stream subject data msgId)) k))
    (hsubject : subject ∈ allEventSubjects) :
    stream = eventStream ∧ subject ∈ subjectsOf p.state.streams stream := by
  have hknows := (knows_init w).run learning_sound (fun x hx => (hxs x hx).admits) hrun
  obtain ⟨known, ⟨rfl, hready⟩, htrue⟩ := hknows.1.calling hpublish
  exact ⟨rfl, htrue _ hready hsubject⟩

/-- One publisher, about to publish. -/
def publishRun : List (Input broker) :=
  [.begin (({} : EventBus).publishJson auditEventCreated [] none), .turn 0 .works, .turn 0 .works]

theorem publishRun_admitted : ∀ x ∈ publishRun, Admitted {} x := by
  intro x hx
  rcases List.mem_cons.1 hx with rfl | hx
  · exact .publisher alike_default auditEventCreated [] none
  · simp only [List.mem_cons, List.not_mem_nil, or_false, or_self] at hx
    rw [hx]
    exact ⟨nofun, nofun⟩

theorem publishRun_publishes : ∃ p k, (Pool.init emptyBroker).run? publishRun = some p ∧
    p.running[0]? = some (.await (.inr (.publish eventStream auditEventCreated [] none)) k) :=
  ⟨_, _, rfl, rfl⟩

theorem publishing_configured_sample : ∃ p, (Pool.init emptyBroker).run? publishRun = some p ∧
    auditEventCreated ∈ subjectsOf p.state.streams eventStream := by
  obtain ⟨p, k, hrun, hpublish⟩ := publishRun_publishes
  exact ⟨p, hrun, (publishing_configured publishRun_admitted hrun hpublish (by decide)).2⟩

/-- **On a server that is ready, workers change nothing**: started again in any number and order,
with calls that fail anywhere, they leave every stream and every consumer as it is. -/
theorem restart_quiet {w : Broker} (hw : Ready policy w) (hxs : ∀ x ∈ xs, Admitted policy x)
    (hrun : (Pool.init w).run? xs = some p) : p.state = w := by
  have hinit : (learning policy).Knows (M := broker) (fun v => v = w) (Holds policy False) (Pool.init w) :=
    Learning.Knows.init rfl
  exact (hinit.run (learning_quiet hw) (fun x hx => (hxs x hx).admits) hrun).1.state

/-- A second start, on the server that the first one has made ready. -/
theorem restartRun_waits : ∃ p k q k', (Pool.init emptyBroker).run? (startRun 33) = some p ∧
    p.running[0]? = some (.await (.inr .wait) k) ∧
    (Pool.init p.state).run? (startRun 26) = some q ∧ q.running[0]? = some (.await (.inr .wait) k') :=
  ⟨_, _, _, _, rfl, rfl, rfl, rfl⟩

theorem restart_quiet_sample : ∃ p q k, (Pool.init emptyBroker).run? (startRun 33) = some p ∧
    (Pool.init p.state).run? (startRun 26) = some q ∧
    q.running[0]? = some (.await (.inr .wait) k) ∧ q.state = p.state := by
  obtain ⟨p, k, q, k', hrun, hwait, hagain, hwait'⟩ := restartRun_waits
  have hready : Ready {} p.state := (ready_of_waiting (startRun_admitted 33) hrun hwait).1
  exact ⟨p, q, k', hrun, hagain, hwait', restart_quiet hready (startRun_admitted 26) hagain⟩

end Startup

end CopyTrade
