import Mathlib.Algebra.Order.Ring.Rat
import Mathlib.Data.List.Nodup

/-!
# An append log with a duplicate window

The broker appends a message to its log, except where a message with the same id
was appended less than `window` seconds earlier: then it ignores it. An ignored
message does not move the window.

* `append_cases`: what one append does.
* `oneEach_append`: an append keeps one message per id exactly when a message with
  an id the log has seen comes within the window.
-/

namespace Broker

structure Message (Id Body : Type) where
  msgId : Option Id
  appendedAt : ℚ
  body : Body

abbrev Log (Id Body : Type) := List (Message Id Body)

namespace Log

variable {Id Body : Type}

/-- The log holds a message with this id. -/
def Seen (log : Log Id Body) (id : Id) : Prop := ∃ m ∈ log, m.msgId = some id

/-- The log holds a message with this id that is younger than the window. -/
def Recent (window now : ℚ) (log : Log Id Body) (id : Id) : Prop :=
  ∃ m ∈ log, m.msgId = some id ∧ now - m.appendedAt < window

/-- No id stands on two messages. -/
def OneEach (log : Log Id Body) : Prop := (log.filterMap (·.msgId)).Nodup

variable [DecidableEq Id]

instance (window now : ℚ) (log : Log Id Body) (id : Id) : Decidable (log.Recent window now id) :=
  inferInstanceAs (Decidable (∃ m ∈ log, m.msgId = some id ∧ now - m.appendedAt < window))

instance (log : Log Id Body) : Decidable log.OneEach :=
  inferInstanceAs (Decidable (log.filterMap (·.msgId)).Nodup)

/-- Publish a message at time `now`. -/
def append (window now : ℚ) (msgId : Option Id) (body : Body) (log : Log Id Body) : Log Id Body :=
  match msgId with
  | none => log ++ [⟨none, now, body⟩]
  | some id => if log.Recent window now id then log else log ++ [⟨some id, now, body⟩]

/-- **What one append does.** -/
theorem append_cases (window now : ℚ) (id : Id) (body : Body) (log : Log Id Body) :
    (log.Recent window now id ∧ log.append window now (some id) body = log) ∨
      (¬ log.Recent window now id ∧
        log.append window now (some id) body = log ++ [⟨some id, now, body⟩]) := by
  by_cases h : log.Recent window now id
  · exact Or.inl ⟨h, by simp [append, h]⟩
  · exact Or.inr ⟨h, by simp [append, h]⟩

/-- A message of the log after an append was there before or is the new one. -/
theorem mem_append {window now : ℚ} {id : Id} {body : Body} {log : Log Id Body}
    {m : Message Id Body} (h : m ∈ log.append window now (some id) body) :
    m ∈ log ∨ m = ⟨some id, now, body⟩ := by
  rcases append_cases window now id body log with ⟨-, he⟩ | ⟨-, he⟩
  · rw [he] at h; exact Or.inl h
  · rw [he, List.mem_append, List.mem_singleton] at h; exact h

/-- **One message per id**, after an append: exactly when there was one before, and an id
already seen came within the window. -/
theorem oneEach_append {window now : ℚ} {id : Id} {body : Body} {log : Log Id Body} :
    (log.append window now (some id) body).OneEach ↔
      log.OneEach ∧ (log.Seen id → log.Recent window now id) := by
  rcases append_cases window now id body log with ⟨hr, he⟩ | ⟨hr, he⟩
  · rw [he]; exact ⟨fun h => ⟨h, fun _ => hr⟩, fun h => h.1⟩
  · have hseen : id ∈ log.filterMap (·.msgId) ↔ log.Seen id := by simp [Seen]
    have hsplit : (log ++ [⟨some id, now, body⟩] : Log Id Body).filterMap (·.msgId) =
        log.filterMap (·.msgId) ++ [id] := by simp
    rw [he]
    unfold OneEach
    rw [hsplit, List.nodup_append]
    constructor
    · rintro ⟨h1, -, h3⟩
      exact ⟨h1, fun hs => absurd rfl (h3 id (hseen.2 hs) id (by simp))⟩
    · rintro ⟨h1, h2⟩
      refine ⟨h1, List.nodup_singleton _, fun a ha b hb => ?_⟩
      rw [List.mem_singleton] at hb; subst hb
      rintro rfl
      exact hr (h2 (hseen.1 ha))

end Log

end Broker
