import CopyTrade.Spec.RateLimit

/-!
# The sliding window

* `Window`: the bucket of a client is the end of the list of its allowed times, and what is
  missing of them has left the window.
* `allow_iff`: so a call is allowed exactly where fewer than `max_requests` allowed calls
  of its client stand in the window that ends with it.
* `window_exact`: with what follows from it for whole runs.
* `honoured_iff`: the middleware's `Retry-After` is long enough exactly for a window of
  whole seconds.
-/

namespace CopyTrade

open Python (Text text)

/-- A call `allow(key)` at a reading of the clock. -/
structure AllowCall where
  time : ℚ
  key : Text

/-- A call with its answer. -/
structure Decision extends AllowCall where
  allowed : Bool

namespace InMemoryRateLimiter

/-- The limiter after the calls. -/
def after (limiter : InMemoryRateLimiter) (calls : List AllowCall) : InMemoryRateLimiter :=
  calls.foldl (fun l c => (l.allow c.time c.key).2) limiter

/-- The answers to the calls. -/
def decisions : InMemoryRateLimiter → List AllowCall → List Decision
  | _, [] => []
  | limiter, c :: calls =>
    ⟨c, (limiter.allow c.time c.key).1⟩ :: decisions (limiter.allow c.time c.key).2 calls

variable {limiter : InMemoryRateLimiter}

theorem after_append (pre post : List AllowCall) :
    limiter.after (pre ++ post) = (limiter.after pre).after post := List.foldl_append

theorem decisions_append (pre post : List AllowCall) : ∀ limiter : InMemoryRateLimiter,
    limiter.decisions (pre ++ post) = limiter.decisions pre ++ (limiter.after pre).decisions post := by
  induction pre with
  | nil => intro limiter; rfl
  | cons c pre ih =>
    intro limiter
    rw [List.cons_append, decisions, decisions, ih, List.cons_append]
    rfl

/-- The times at which calls with a key were allowed. -/
def allowedTimes (key : Text) (ds : List Decision) : List ℚ :=
  (ds.filter fun d => d.key = key ∧ d.allowed = true).map fun d => d.time

theorem allowedTimes_append (key : Text) (a b : List Decision) :
    allowedTimes key (a ++ b) = allowedTimes key a ++ allowedTimes key b := by
  unfold allowedTimes
  rw [List.filter_append, List.map_append]

theorem allowedTimes_denied {key : Text} {d : Decision} (h : d.key ≠ key ∨ d.allowed = false) :
    allowedTimes key [d] = [] := by
  unfold allowedTimes
  rcases h with h | h <;> simp [h]

theorem allowedTimes_allowed {key : Text} {d : Decision} (hk : d.key = key) (h : d.allowed = true) :
    allowedTimes key [d] = [d.time] := by
  unfold allowedTimes
  simp [hk, h]

/-! ## The invariant -/

/-- **The window**: at time `now` the allowed times are in order, and a bucket holds all of
them that have not left the window. -/
structure Window (limiter : InMemoryRateLimiter) (ds : List Decision) (now : ℚ) : Prop where
  sorted : ∀ key, (allowedTimes key ds).Pairwise (· ≤ ·)
  past : ∀ key, ∀ t ∈ allowedTimes key ds, t ≤ now
  bucket : ∀ key, ∃ dropped, allowedTimes key ds = dropped ++ limiter.requests key ∧
    ∀ t ∈ dropped, t ≤ now - limiter.windowSeconds

/-- In order, what is dropped from the front is what has left the window. -/
theorem dropWhile_eq_filter {s : ℚ} {l : List ℚ} (h : l.Pairwise (· ≤ ·)) :
    l.dropWhile (· ≤ s) = l.filter (s < ·) := by
  induction l with
  | nil => rfl
  | cons t l ih =>
    obtain ⟨ht, hl⟩ := List.pairwise_cons.1 h
    by_cases hts : t ≤ s
    · rw [List.dropWhile_cons_of_pos (by simpa using hts), ih hl,
        List.filter_cons_of_neg (by simpa using hts)]
    · have hall : ∀ u ∈ t :: l, decide (s < u) = true := by
        intro u hu
        have hst : s < t := not_le.1 hts
        rcases List.mem_cons.1 hu with rfl | hu
        · simpa using hst
        · simpa using lt_of_lt_of_le hst (ht u hu)
      rw [List.dropWhile_cons_of_neg (by simpa using hts), List.filter_eq_self.2 hall]

namespace Window

variable {ds : List Decision} {now : ℚ} {c : AllowCall}

/-- What the bucket is pruned to. -/
theorem pruned (h : Window limiter ds now) (hnow : now ≤ c.time) :
    (limiter.requests c.key).dropWhile (· ≤ c.time - limiter.windowSeconds) =
      (allowedTimes c.key ds).filter (c.time - limiter.windowSeconds < ·) := by
  obtain ⟨dropped, heq, hdropped⟩ := h.bucket c.key
  have hsorted : (limiter.requests c.key).Pairwise (· ≤ ·) := by
    have hall := h.sorted c.key
    rw [heq] at hall
    exact (List.pairwise_append.1 hall).2.1
  have hgone : dropped.filter (c.time - limiter.windowSeconds < ·) = [] := by
    refine List.filter_eq_nil_iff.2 fun t ht => ?_
    have hle : t ≤ c.time - limiter.windowSeconds :=
      (hdropped t ht).trans (sub_le_sub_right hnow _)
    simpa using hle
  rw [dropWhile_eq_filter hsorted, heq, List.filter_append, hgone, List.nil_append]

/-- **When a call is allowed.** -/
theorem allow_iff (h : Window limiter ds now) (hnow : now ≤ c.time) :
    (limiter.allow c.time c.key).1 = true ↔
      (((allowedTimes c.key ds).filter (c.time - limiter.windowSeconds < ·)).length : ℤ) <
        limiter.maxRequests := by
  unfold allow
  dsimp only
  rw [h.pruned hnow]
  split
  · rename_i hfull
    constructor
    · intro hfalse; cases hfalse
    · intro hlt; omega
  · rename_i hfree
    exact ⟨fun _ => by omega, fun _ => rfl⟩

theorem allow_maxRequests : (limiter.allow c.time c.key).2.maxRequests = limiter.maxRequests := by
  unfold allow
  dsimp only
  split <;> rfl

theorem allow_windowSeconds :
    (limiter.allow c.time c.key).2.windowSeconds = limiter.windowSeconds := by
  unfold allow
  dsimp only
  split <;> rfl

/-- The buckets of other clients stay as they are. -/
theorem allow_other {key : Text} (hk : key ≠ c.key) :
    (limiter.allow c.time c.key).2.requests key = limiter.requests key := by
  unfold allow
  dsimp only
  split
  · exact Function.update_of_ne hk _ _
  · exact Function.update_of_ne hk _ _

/-- The bucket of the client: pruned, and with the call where it is allowed. -/
theorem allow_self (h : Window limiter ds now) (hnow : now ≤ c.time) :
    (limiter.allow c.time c.key).2.requests c.key =
      (allowedTimes c.key ds).filter (c.time - limiter.windowSeconds < ·) ++
        allowedTimes c.key [⟨c, (limiter.allow c.time c.key).1⟩] := by
  have hpruned := h.pruned hnow
  cases hallowed : (limiter.allow c.time c.key).1 with
  | false =>
    rw [allowedTimes_denied (d := ⟨c, false⟩) (Or.inr rfl), List.append_nil, ← hpruned]
    unfold allow at hallowed ⊢
    dsimp only at hallowed ⊢
    split
    · exact Function.update_self _ _ _
    · rename_i hfree
      rw [if_neg hfree] at hallowed
      cases hallowed
  | true =>
    rw [allowedTimes_allowed (d := ⟨c, true⟩) rfl rfl, ← hpruned]
    unfold allow at hallowed ⊢
    dsimp only at hallowed ⊢
    split
    · rename_i hfull
      rw [if_pos hfull] at hallowed
      cases hallowed
    · exact Function.update_self _ _ _

/-- **A call keeps the window.** -/
theorem step (h : Window limiter ds now) (hnow : now ≤ c.time) :
    Window (limiter.allow c.time c.key).2 (ds ++ [⟨c, (limiter.allow c.time c.key).1⟩]) c.time := by
  have hlast : ∀ key, ∀ t ∈ allowedTimes key [⟨c, (limiter.allow c.time c.key).1⟩], t = c.time := by
    intro key t ht
    obtain ⟨d, hd, rfl⟩ := List.mem_map.1 ht
    rw [List.mem_singleton.1 (List.mem_of_mem_filter hd)]
  refine ⟨fun key => ?_, fun key t ht => ?_, fun key => ?_⟩
  · rw [allowedTimes_append, List.pairwise_append]
    refine ⟨h.sorted key, ?_, fun t ht u hu => ?_⟩
    · refine List.pairwise_of_forall_mem_list fun t ht u hu => ?_
      rw [hlast key t ht, hlast key u hu]
    · rw [hlast key u hu]
      exact (h.past key t ht).trans hnow
  · rw [allowedTimes_append] at ht
    rcases List.mem_append.1 ht with ht | ht
    · exact (h.past key t ht).trans hnow
    · exact (hlast key t ht).le
  · rw [allow_windowSeconds, allowedTimes_append]
    by_cases hk : key = c.key
    · subst hk
      refine ⟨(allowedTimes c.key ds).takeWhile (· ≤ c.time - limiter.windowSeconds), ?_, ?_⟩
      · rw [h.allow_self hnow, ← List.append_assoc, ← dropWhile_eq_filter (h.sorted c.key),
          List.takeWhile_append_dropWhile]
      · intro t ht
        simpa using List.mem_takeWhile_imp ht
    · obtain ⟨dropped, heq, hdropped⟩ := h.bucket key
      rw [allow_other hk, allowedTimes_denied (Or.inl (Ne.symm hk)), List.append_nil]
      refine ⟨dropped, heq, fun t ht => ?_⟩
      exact (hdropped t ht).trans (sub_le_sub_right hnow _)

end Window

/-! ## Runs -/

/-- A limiter without calls so far. -/
def init (maxRequests : ℤ) (windowSeconds : ℚ) : InMemoryRateLimiter :=
  { maxRequests := maxRequests, windowSeconds := windowSeconds }

theorem after_settings (calls : List AllowCall) : ∀ limiter : InMemoryRateLimiter,
    (limiter.after calls).maxRequests = limiter.maxRequests ∧
      (limiter.after calls).windowSeconds = limiter.windowSeconds := by
  induction calls with
  | nil => exact fun _ => ⟨rfl, rfl⟩
  | cons c calls ih =>
    intro limiter
    obtain ⟨hmax, hwindow⟩ := ih (limiter.allow c.time c.key).2
    exact ⟨hmax.trans Window.allow_maxRequests, hwindow.trans Window.allow_windowSeconds⟩

/-- **The window holds along every run** at readings that do not go back. -/
theorem Window.run {calls : List AllowCall} : ∀ {limiter : InMemoryRateLimiter} {ds : List Decision}
    {now : ℚ}, Window limiter ds now → calls.Pairwise (fun c d => c.time ≤ d.time) →
      (∀ c ∈ calls, now ≤ c.time) →
      ∃ last, Window (limiter.after calls) (ds ++ limiter.decisions calls) last ∧
        ∀ t, now ≤ t → (∀ c ∈ calls, c.time ≤ t) → last ≤ t := by
  induction calls with
  | nil =>
    intro limiter ds now h _ _
    exact ⟨now, by rw [decisions, List.append_nil]; exact h, fun t ht _ => ht⟩
  | cons c calls ih =>
    intro limiter ds now h hsorted hnow
    obtain ⟨hc, hsorted⟩ := List.pairwise_cons.1 hsorted
    have hstep := h.step (hnow c List.mem_cons_self)
    obtain ⟨last, hlast, hle⟩ := ih hstep hsorted hc
    refine ⟨last, ?_, fun t _ ht => ?_⟩
    · rw [List.append_assoc] at hlast
      exact hlast
    · exact hle t (ht c List.mem_cons_self) fun d hd => ht d (List.mem_cons_of_mem _ hd)

/-- **Before any call of a run** the window holds. -/
theorem Window.before (maxRequests : ℤ) (windowSeconds : ℚ) {pre post : List AllowCall}
    {c : AllowCall} (h : (pre ++ c :: post).Pairwise fun c d => c.time ≤ d.time) :
    ∃ last, Window ((init maxRequests windowSeconds).after pre)
      ((init maxRequests windowSeconds).decisions pre) last ∧ last ≤ c.time := by
  have hpre : (pre ++ [c]).Pairwise fun c d => c.time ≤ d.time :=
    h.sublist (List.Sublist.append_left (List.Sublist.cons_cons c (List.nil_sublist post)) pre)
  obtain ⟨hsorted, -, hlast⟩ := List.pairwise_append.1 hpre
  -- a reading before all calls
  obtain ⟨now, hnow, hc⟩ : ∃ now, (∀ d ∈ pre, now ≤ d.time) ∧ now ≤ c.time := by
    cases pre with
    | nil => exact ⟨c.time, by simp, le_refl _⟩
    | cons d pre =>
      refine ⟨d.time, fun e he => ?_, hlast d List.mem_cons_self c (List.mem_singleton_self c)⟩
      rcases List.mem_cons.1 he with rfl | he
      · exact le_refl _
      · exact (List.pairwise_cons.1 hsorted).1 e he
  have hstart : Window (init maxRequests windowSeconds) [] now :=
    ⟨fun _ => List.Pairwise.nil, by simp [allowedTimes], fun _ => ⟨[], rfl, by simp⟩⟩
  obtain ⟨last, hwindow, hle⟩ := hstart.run hsorted hnow
  exact ⟨last, hwindow, hle c.time hc fun d hd => hlast d hd c (List.mem_singleton_self c)⟩

/-- The earlier allowed calls of a client in the window that ends at `t`. -/
def inWindow (key : Text) (windowSeconds t : ℚ) (ds : List Decision) : ℕ :=
  (ds.filter fun d => d.key = key ∧ d.allowed = true ∧ t - windowSeconds < d.time ∧ d.time ≤ t).length

theorem Window.inWindow_eq {ds : List Decision} {now t : ℚ} (h : Window limiter ds now)
    (hnow : now ≤ t) (key : Text) (w : ℚ) :
    ((allowedTimes key ds).filter (t - w < ·)).length = inWindow key w t ds := by
  unfold allowedTimes inWindow
  rw [List.filter_map, List.length_map, List.filter_filter]
  congr 1
  refine List.filter_congr fun d hd => ?_
  by_cases hall : d.key = key ∧ d.allowed = true
  · have htime : d.time ≤ t :=
      (h.past key d.time (List.mem_map_of_mem (List.mem_filter.2 ⟨hd, by simpa using hall⟩))).trans hnow
    simp [hall.1, hall.2, htime]
  · simp only [Function.comp]
    rw [decide_eq_false hall, Bool.and_false, eq_comm, decide_eq_false_iff_not]
    exact fun hin => hall ⟨hin.1, hin.2.1⟩

theorem inWindow_replicate (key : Text) {w t : ℚ} (ht : 0 ≤ t) (hw : t < w) (n : ℕ) :
    inWindow key w t (List.replicate n ⟨⟨0, key⟩, true⟩) = n := by
  have hin : t - w < 0 := by linarith
  unfold inWindow
  rw [List.filter_replicate_of_pos (by simp [ht, hin]), List.length_replicate]

variable {maxRequests : ℤ} {windowSeconds : ℚ}

/-- **A call is allowed** exactly where fewer than `max_requests` earlier calls with its key
were allowed in the window that ends with it. -/
theorem allow_exact (pre post : List AllowCall) {c : AllowCall}
    (h : (pre ++ c :: post).Pairwise fun c d => c.time ≤ d.time) :
    (((init maxRequests windowSeconds).after pre).allow c.time c.key).1 = true ↔
      (inWindow c.key windowSeconds c.time ((init maxRequests windowSeconds).decisions pre) : ℤ) <
        maxRequests := by
  obtain ⟨last, hwindow, hlast⟩ := Window.before maxRequests windowSeconds h
  obtain ⟨hmax, hw⟩ := after_settings pre (init maxRequests windowSeconds)
  rw [hwindow.allow_iff hlast, hmax, hw, hwindow.inWindow_eq hlast]
  exact Iff.rfl

/-! ## What follows -/

/-- The decisions are about the calls. -/
theorem mem_of_decision {d : Decision} {calls : List AllowCall} :
    ∀ {limiter : InMemoryRateLimiter}, d ∈ limiter.decisions calls → d.toAllowCall ∈ calls := by
  induction calls with
  | nil => intro limiter h; cases h
  | cons c calls ih =>
    intro limiter h
    rcases List.mem_cons.1 h with rfl | h
    · exact List.mem_cons_self
    · exact List.mem_cons_of_mem _ (ih h)

/-- **No narrow interval holds more than `max_requests`** allowed calls of a client. -/
theorem interval_le {key : Text} {I : ℚ → Prop} [DecidablePred I] (hmax : 0 ≤ maxRequests)
    (hI : ∀ t u, I t → I u → t - windowSeconds < u) {calls : List AllowCall}
    (h : calls.Pairwise fun c d => c.time ≤ d.time) :
    ((((init maxRequests windowSeconds).decisions calls).filter fun d =>
      d.key = key ∧ d.allowed = true ∧ I d.time).length : ℤ) ≤ maxRequests := by
  induction calls using List.reverseRecOn with
  | nil => exact hmax
  | append_singleton pre c ih =>
    obtain ⟨hpre, -, hlast⟩ := List.pairwise_append.1 h
    have hbefore := ih hpre
    rw [decisions_append, List.filter_append, List.length_append, decisions, decisions]
    by_cases hc : c.key = key ∧ (((init maxRequests windowSeconds).after pre).allow c.time c.key).1 =
        true ∧ I c.time
    · obtain ⟨rfl, hallowed, hin⟩ := hc
      have hfew := (allow_exact pre [] h).1 hallowed
      -- the allowed calls of the interval are in the window of the last of them
      have hsub : (((init maxRequests windowSeconds).decisions pre).filter fun d =>
          d.key = c.key ∧ d.allowed = true ∧ I d.time).length ≤
          inWindow c.key windowSeconds c.time ((init maxRequests windowSeconds).decisions pre) := by
        unfold inWindow
        rw [← List.countP_eq_length_filter, ← List.countP_eq_length_filter]
        refine List.countP_mono_left fun d hd hcond => ?_
        simp only [decide_eq_true_eq] at hcond ⊢
        have hd : d.toAllowCall ∈ pre := mem_of_decision hd
        exact ⟨hcond.1, hcond.2.1, hI c.time d.time hin hcond.2.2,
          hlast _ hd c (List.mem_singleton_self c)⟩
      have hone := List.length_filter_le (fun d : Decision =>
        decide (d.key = c.key ∧ d.allowed = true ∧ I d.time))
        [⟨c, (((init maxRequests windowSeconds).after pre).allow c.time c.key).1⟩]
      rw [List.length_singleton] at hone
      push_cast
      omega
    · have hnone : ([⟨c, (((init maxRequests windowSeconds).after pre).allow c.time c.key).1⟩] :
          List Decision).filter (fun d => d.key = key ∧ d.allowed = true ∧ I d.time) = [] := by
        refine List.filter_eq_nil_iff.2 fun d hd => ?_
        rw [List.mem_singleton.1 hd]
        simpa using hc
      rw [hnone, List.length_nil, Nat.add_zero]
      exact hbefore

/-! ### Denied calls, and calls of others -/

/-- The answer to a call and its bucket depend on the pruned bucket. -/
theorem allow_congr {l m : InMemoryRateLimiter} {t : ℚ} {key : Text}
    (hmax : l.maxRequests = m.maxRequests)
    (hb : (l.requests key).dropWhile (· ≤ t - l.windowSeconds) =
      (m.requests key).dropWhile (· ≤ t - m.windowSeconds)) :
    (l.allow t key).1 = (m.allow t key).1 ∧
      (l.allow t key).2.requests key = (m.allow t key).2.requests key := by
  unfold allow
  dsimp only
  rw [hb, hmax]
  split
  · exact ⟨rfl, by dsimp only; rw [Function.update_self, Function.update_self]⟩
  · exact ⟨rfl, by dsimp only; rw [Function.update_self, Function.update_self]⟩

/-- Two limiters that are one from a reading on: their buckets, pruned, are the same. -/
structure Alike (l l' : InMemoryRateLimiter) (now : ℚ) : Prop where
  maxRequests : l.maxRequests = l'.maxRequests
  windowSeconds : l.windowSeconds = l'.windowSeconds
  pruned : ∀ key t, now ≤ t → (l.requests key).dropWhile (· ≤ t - l.windowSeconds) =
    (l'.requests key).dropWhile (· ≤ t - l'.windowSeconds)

theorem Alike.step {l l' : InMemoryRateLimiter} {now : ℚ} {c : AllowCall} (h : Alike l l' now)
    (hnow : now ≤ c.time) : (l.allow c.time c.key).1 = (l'.allow c.time c.key).1 ∧
      Alike (l.allow c.time c.key).2 (l'.allow c.time c.key).2 now := by
  obtain ⟨hans, hbucket⟩ := allow_congr h.maxRequests (h.pruned c.key c.time hnow)
  refine ⟨hans, ?_, ?_, fun key t ht => ?_⟩
  · rw [Window.allow_maxRequests, Window.allow_maxRequests, h.maxRequests]
  · rw [Window.allow_windowSeconds, Window.allow_windowSeconds, h.windowSeconds]
  · rw [Window.allow_windowSeconds, Window.allow_windowSeconds]
    by_cases hk : key = c.key
    · rw [hk, hbucket, h.windowSeconds]
    · rw [Window.allow_other hk, Window.allow_other hk]
      exact h.pruned key t ht

/-- **Limiters that are one answer alike.** -/
theorem Alike.decisions {calls : List AllowCall} {now : ℚ} :
    ∀ {l l' : InMemoryRateLimiter}, Alike l l' now → (∀ c ∈ calls, now ≤ c.time) →
      l.decisions calls = l'.decisions calls := by
  induction calls with
  | nil => exact fun _ _ => rfl
  | cons c calls ih =>
    intro l l' h hnow
    obtain ⟨hans, halike⟩ := h.step (hnow c List.mem_cons_self)
    unfold InMemoryRateLimiter.decisions
    rw [hans, ih halike fun d hd => hnow d (List.mem_cons_of_mem _ hd)]

theorem dropWhile_dropWhile {s t : ℚ} (h : s ≤ t) (l : List ℚ) :
    (l.dropWhile (· ≤ s)).dropWhile (· ≤ t) = l.dropWhile (· ≤ t) := by
  induction l with
  | nil => rfl
  | cons x l ih =>
    by_cases hx : x ≤ s
    · rw [List.dropWhile_cons_of_pos (by simpa using hx), ih,
        List.dropWhile_cons_of_pos (by simpa using hx.trans h)]
    · rw [List.dropWhile_cons_of_neg (by simpa using hx)]

/-- **A denied call** leaves a limiter that is one with the limiter before it. -/
theorem alike_denied {l : InMemoryRateLimiter} {c : AllowCall}
    (h : (l.allow c.time c.key).1 = false) : Alike (l.allow c.time c.key).2 l c.time := by
  refine ⟨Window.allow_maxRequests, Window.allow_windowSeconds, fun key t ht => ?_⟩
  rw [Window.allow_windowSeconds]
  by_cases hk : key = c.key
  · subst hk
    have hbucket : (l.allow c.time c.key).2.requests c.key =
        (l.requests c.key).dropWhile (· ≤ c.time - l.windowSeconds) := by
      unfold allow at h ⊢
      dsimp only at h ⊢
      split
      · exact Function.update_self _ _ _
      · rename_i hfree
        rw [if_neg hfree] at h
        cases h
    rw [hbucket, dropWhile_dropWhile (sub_le_sub_right ht _)]
  · rw [Window.allow_other hk]

/-- **Calls of other clients** do not matter to a client. -/
theorem decisions_filter (key : Text) (calls : List AllowCall) :
    ∀ {l l' : InMemoryRateLimiter}, l.maxRequests = l'.maxRequests →
      l.windowSeconds = l'.windowSeconds → l.requests key = l'.requests key →
      (l.decisions calls).filter (fun d => d.key = key) =
        l'.decisions (calls.filter fun c => c.key = key) := by
  induction calls with
  | nil => exact fun _ _ _ => rfl
  | cons c calls ih =>
    intro l l' hmax hw hb
    by_cases hk : c.key = key
    · subst hk
      obtain ⟨hans, hbucket⟩ := allow_congr (l := l) (m := l') (t := c.time) hmax (by rw [hb, hw])
      rw [decisions, List.filter_cons_of_pos (by simp), List.filter_cons_of_pos (by simp), decisions,
        hans]
      congr 1
      refine ih ?_ ?_ hbucket
      · rw [Window.allow_maxRequests, Window.allow_maxRequests, hmax]
      · rw [Window.allow_windowSeconds, Window.allow_windowSeconds, hw]
    · rw [decisions, List.filter_cons_of_neg (by simpa using hk),
        List.filter_cons_of_neg (by simpa using hk)]
      refine ih ?_ ?_ ?_
      · rw [Window.allow_maxRequests, hmax]
      · rw [Window.allow_windowSeconds, hw]
      · rw [Window.allow_other (Ne.symm hk), hb]

/-- **The limiter is an exact sliding window**: which calls are allowed, and what follows. -/
theorem window_exact (hmax : 1 ≤ maxRequests) {calls : List AllowCall}
    (h : calls.Pairwise fun c d => c.time ≤ d.time) :
    (∀ pre c post, calls = pre ++ c :: post →
      ((((init maxRequests windowSeconds).after pre).allow c.time c.key).1 = true ↔
        (inWindow c.key windowSeconds c.time ((init maxRequests windowSeconds).decisions pre) : ℤ) <
          maxRequests)) ∧
    (∀ key a, ((((init maxRequests windowSeconds).decisions calls).filter fun d =>
      d.key = key ∧ d.allowed = true ∧ a ≤ d.time ∧ d.time < a + windowSeconds).length : ℤ) ≤
        maxRequests) ∧
    (∀ key a, ((((init maxRequests windowSeconds).decisions calls).filter fun d =>
      d.key = key ∧ d.allowed = true ∧ a < d.time ∧ d.time ≤ a + windowSeconds).length : ℤ) ≤
        maxRequests) ∧
    (∀ pre c post, calls = pre ++ c :: post →
      (((init maxRequests windowSeconds).after pre).allow c.time c.key).1 = false →
      ((init maxRequests windowSeconds).after (pre ++ [c])).decisions post =
        ((init maxRequests windowSeconds).after pre).decisions post) ∧
    ∀ key, ((init maxRequests windowSeconds).decisions calls).filter (fun d => d.key = key) =
      (init maxRequests windowSeconds).decisions (calls.filter fun c => c.key = key) := by
  have hpos : 0 ≤ maxRequests := by omega
  refine ⟨?_, fun key a => ?_, fun key a => ?_, ?_, fun key => ?_⟩
  · rintro pre c post rfl
    exact allow_exact pre post h
  · refine interval_le (I := fun t => a ≤ t ∧ t < a + windowSeconds) hpos (fun t u ht hu => ?_) h
    linarith [ht.2, hu.1]
  · refine interval_le (I := fun t => a < t ∧ t ≤ a + windowSeconds) hpos (fun t u ht hu => ?_) h
    linarith [ht.2, hu.1]
  · rintro pre c post rfl hdenied
    obtain ⟨-, hpost, -⟩ := List.pairwise_append.1 h
    rw [after_append]
    exact (alike_denied hdenied).decisions (List.pairwise_cons.1 hpost).1
  · exact decisions_filter key calls rfl rfl rfl

/-- The second of two calls in one window of one call. -/
theorem window_exact_second :
    ((((init 1 60).after [⟨0, []⟩]).allow 30 []).1 = true ↔
      (inWindow [] 60 30 ((init 1 60).decisions [⟨0, []⟩]) : ℤ) < 1) := by
  have hsorted : ([⟨0, []⟩, ⟨30, []⟩] : List AllowCall).Pairwise fun c d => c.time ≤ d.time := by
    simp
  exact (window_exact (by decide) hsorted).1 [⟨0, []⟩] ⟨30, []⟩ [] rfl

/-! ### A full bucket -/

/-- Calls at one time, no more than are allowed, are all allowed. -/
theorem decisions_replicate (hwindow : 0 < windowSeconds) (key : Text) : ∀ n : ℕ,
    (n : ℤ) ≤ maxRequests → (init maxRequests windowSeconds).decisions (List.replicate n ⟨0, key⟩) =
      List.replicate n ⟨⟨0, key⟩, true⟩ := by
  intro n
  induction n with
  | zero => exact fun _ => rfl
  | succ n ih =>
    intro hn
    have hbefore := ih (by omega)
    have hsorted : (List.replicate n (⟨0, key⟩ : AllowCall) ++ [(⟨0, key⟩ : AllowCall)]).Pairwise
        fun c d => c.time ≤ d.time := by
      rw [← List.replicate_succ']
      exact List.pairwise_replicate.2 (Or.inr (le_refl _))
    have hfew : (inWindow key windowSeconds 0
        ((init maxRequests windowSeconds).decisions (List.replicate n ⟨0, key⟩)) : ℤ) <
          maxRequests := by
      rw [hbefore, inWindow_replicate key le_rfl hwindow]
      omega
    have hallowed := (allow_exact _ [] hsorted).2 hfew
    rw [List.replicate_succ', List.replicate_succ', decisions_append, hbefore, decisions, decisions,
      hallowed]

/-- A call on a full bucket is denied, and so is the next one before the window has passed. -/
theorem denied_twice (hmax : 1 ≤ maxRequests) (hwindow : 0 < windowSeconds) (key : Text) {t : ℚ}
    (ht : 0 ≤ t) (hlt : t < windowSeconds) :
    (((init maxRequests windowSeconds).after (List.replicate maxRequests.toNat ⟨0, key⟩)).allow
        0 key).1 = false ∧
      (((init maxRequests windowSeconds).after
        (List.replicate maxRequests.toNat ⟨0, key⟩ ++ [⟨0, key⟩])).allow t key).1 = false := by
  have hn : (maxRequests.toNat : ℤ) = maxRequests := Int.toNat_of_nonneg (by omega)
  have hfull := decisions_replicate hwindow key maxRequests.toNat hn.le
  have hsorted : (List.replicate maxRequests.toNat (⟨0, key⟩ : AllowCall) ++
      ([⟨0, key⟩, ⟨t, key⟩] : List AllowCall)).Pairwise fun c d => c.time ≤ d.time := by
    refine List.pairwise_append.2 ⟨List.pairwise_replicate.2 (Or.inr (le_refl _)), by simpa using ht,
      fun c hc d hd => ?_⟩
    rw [(List.mem_replicate.1 hc).2]
    rcases List.mem_cons.1 hd with rfl | hd
    · exact le_refl _
    · rwa [List.mem_singleton.1 hd]
  have hfirst : (((init maxRequests windowSeconds).after
      (List.replicate maxRequests.toNat ⟨0, key⟩)).allow 0 key).1 = false := by
    rw [← Bool.not_eq_true]
    intro hallowed
    have hfew := (allow_exact (c := ⟨0, key⟩) (List.replicate maxRequests.toNat ⟨0, key⟩)
      [⟨t, key⟩] hsorted).1 hallowed
    rw [hfull, inWindow_replicate key le_rfl hwindow] at hfew
    omega
  refine ⟨hfirst, ?_⟩
  rw [← Bool.not_eq_true]
  intro hallowed
  have hsecond : ((List.replicate maxRequests.toNat (⟨0, key⟩ : AllowCall) ++
      ([⟨0, key⟩] : List AllowCall)) ++ ([⟨t, key⟩] : List AllowCall)).Pairwise fun c d => c.time ≤ d.time := by
    rw [List.append_assoc]
    exact hsorted
  have hfew := (allow_exact (c := ⟨t, key⟩) _ [] hsecond).1 hallowed
  have hmany : inWindow key windowSeconds t ((init maxRequests windowSeconds).decisions
      (List.replicate maxRequests.toNat ⟨0, key⟩ ++ [⟨0, key⟩])) =
        maxRequests.toNat := by
    rw [decisions_append, hfull, decisions, decisions, hfirst]
    have hin := inWindow_replicate key ht hlt maxRequests.toNat
    unfold inWindow at hin ⊢
    rw [List.filter_append, List.length_append, hin]
    simp
  rw [hmany] at hfew
  omega

end InMemoryRateLimiter

/-! ## The middleware -/

/-- A request at a reading of the clock. -/
structure TimedRequest where
  time : ℚ
  scope : Scope

namespace AdminRateLimitMiddleware

open InMemoryRateLimiter

/-- The middleware after the requests. -/
def after (middleware : AdminRateLimitMiddleware) (requests : List TimedRequest) :
    AdminRateLimitMiddleware :=
  requests.foldl (fun m c => (m.call c.time c.scope).2) middleware

/-- The calls of the limiter that requests make. -/
def limitedCalls (requests : List TimedRequest) : List AllowCall :=
  requests.filterMap fun c => if c.scope.Limited then some ⟨c.time, clientKey c.scope⟩ else none

theorem after_eq (requests : List TimedRequest) : ∀ middleware : AdminRateLimitMiddleware,
    middleware.after requests =
      { middleware with limiter := middleware.limiter.after (limitedCalls requests) } := by
  induction requests with
  | nil => intro middleware; rfl
  | cons c requests ih =>
    intro middleware
    have hstep : middleware.after (c :: requests) =
        (middleware.call c.time c.scope).2.after requests := rfl
    rw [hstep, ih]
    unfold call limitedCalls
    by_cases hc : c.scope.Limited
    · rw [if_pos hc, List.filterMap_cons, if_pos hc]
      rfl
    · rw [if_neg hc, List.filterMap_cons, if_neg hc]

/-- **When a limited request is answered 429.** -/
theorem call_rateLimited {middleware : AdminRateLimitMiddleware} {c : TimedRequest} {r : ℤ}
    (hc : c.scope.Limited) : (middleware.call c.time c.scope).1 = .rateLimited r ↔
      (middleware.limiter.allow c.time (clientKey c.scope)).1 = false ∧
        r = middleware.retryAfterSeconds := by
  unfold call
  rw [if_pos hc]
  dsimp only
  cases (middleware.limiter.allow c.time (clientKey c.scope)).1 with
  | true => simp
  | false => simp [eq_comm]

/-- **`Retry-After` is honoured**: no client that waits for it, without a limited request
meanwhile, is answered 429 again. -/
def HonoursRetryAfter (maxRequests : ℤ) (windowSeconds : ℚ) : Prop :=
  ∀ (pre mid : List TimedRequest) (c c' : TimedRequest) (r : ℤ),
    (pre ++ c :: mid ++ [c']).Pairwise (fun c d => c.time ≤ d.time) →
    c.scope.Limited → c'.scope.Limited → clientKey c'.scope = clientKey c.scope →
    (∀ d ∈ mid, d.scope.Limited → clientKey d.scope ≠ clientKey c.scope) →
    (((init maxRequests windowSeconds).after pre).call c.time c.scope).1 = .rateLimited r →
    c.time + r ≤ c'.time →
    ∀ r', (((init maxRequests windowSeconds).after (pre ++ c :: mid)).call c'.time c'.scope).1 ≠
      .rateLimited r'

theorem time_limitedCalls {requests : List TimedRequest} {a : AllowCall}
    (h : a ∈ limitedCalls requests) : ∃ c ∈ requests, c.scope.Limited ∧
      a = ⟨c.time, clientKey c.scope⟩ := by
  obtain ⟨c, hc, ha⟩ := List.mem_filterMap.1 h
  split at ha
  · rename_i hlimited
    exact ⟨c, hc, hlimited, (Option.some.inj ha).symm⟩
  · cases ha

theorem limitedCalls_append (a b : List TimedRequest) :
    limitedCalls (a ++ b) = limitedCalls a ++ limitedCalls b := List.filterMap_append

theorem limitedCalls_sorted {requests : List TimedRequest}
    (h : requests.Pairwise fun c d => c.time ≤ d.time) :
    (limitedCalls requests).Pairwise fun c d => c.time ≤ d.time := by
  refine h.filterMap _ fun c d hcd a ha b hb => ?_
  split at ha
  · split at hb
    · cases ha; cases hb; exact hcd
    · cases hb
  · cases ha

/-- Before a denied call and after it, without a call of its client since, no allowed call of
the client is left in a window that begins with the denied call. -/
theorem inWindow_denied {maxRequests : ℤ} {windowSeconds t : ℚ} {pre mid : List AllowCall}
    {c : AllowCall} (hsorted : (pre ++ c :: mid).Pairwise fun c d => c.time ≤ d.time)
    (hdenied : (((InMemoryRateLimiter.init maxRequests windowSeconds).after pre).allow c.time
      c.key).1 = false)
    (hmid : ∀ d ∈ mid, d.key ≠ c.key) (ht : c.time ≤ t - windowSeconds) :
    inWindow c.key windowSeconds t
      ((InMemoryRateLimiter.init maxRequests windowSeconds).decisions (pre ++ c :: mid)) = 0 := by
  unfold inWindow
  rw [List.length_eq_zero_iff, List.filter_eq_nil_iff]
  intro d hd hcond
  simp only [decide_eq_true_eq] at hcond
  obtain ⟨hk, hallowed, hafter, -⟩ := hcond
  rw [decisions_append, decisions] at hd
  rcases List.mem_append.1 hd with hd | hd
  · -- a call before the denied one has left the window
    have hle : d.time ≤ c.time :=
      (List.pairwise_append.1 hsorted).2.2 _ (mem_of_decision hd) c List.mem_cons_self
    linarith
  · rcases List.mem_cons.1 hd with rfl | hd
    · rw [hdenied] at hallowed
      cases hallowed
    · exact hmid _ (mem_of_decision hd) hk

/-- **A window of whole seconds**: once it has passed, every earlier allowed call has left it. -/
theorem honours_of_whole {maxRequests : ℤ} {windowSeconds : ℚ} (hmax : 1 ≤ maxRequests)
    (hwindow : 0 < windowSeconds) (hwhole : (⌊windowSeconds⌋ : ℚ) = windowSeconds) :
    HonoursRetryAfter maxRequests windowSeconds := by
  intro pre mid c c' r hsorted hc hc' hkey hmid hdenied hwait r' hagain
  obtain ⟨hdenied, hr⟩ := (call_rateLimited hc).1 hdenied
  obtain ⟨hagain, -⟩ := (call_rateLimited hc').1 hagain
  rw [after_eq] at hdenied hr hagain
  have hr : (r : ℚ) = windowSeconds := by
    have htrunc : r = ⌊windowSeconds⌋ := by rw [hr]; exact if_pos hwindow.le
    rw [htrunc, hwhole]
  -- the calls of the limiter
  have hcalls : limitedCalls (pre ++ c :: mid) =
      limitedCalls pre ++ ⟨c.time, clientKey c.scope⟩ :: limitedCalls mid := by
    rw [limitedCalls_append]
    congr 1
    unfold limitedCalls
    rw [List.filterMap_cons, if_pos hc]
  have hlast : limitedCalls (pre ++ c :: mid ++ [c']) =
      limitedCalls (pre ++ c :: mid) ++ [⟨c'.time, clientKey c'.scope⟩] := by
    rw [limitedCalls_append]
    congr 1
    unfold limitedCalls
    rw [List.filterMap_cons, if_pos hc', List.filterMap_nil]
  have hall := limitedCalls_sorted hsorted
  rw [hlast] at hall
  have hzero : inWindow (clientKey c.scope) windowSeconds c'.time
      ((InMemoryRateLimiter.init maxRequests windowSeconds).decisions
        (limitedCalls pre ++ ⟨c.time, clientKey c.scope⟩ :: limitedCalls mid)) = 0 := by
    refine inWindow_denied (c := ⟨c.time, clientKey c.scope⟩) ?_ hdenied (fun d hd => ?_) ?_
    · rw [← hcalls]
      exact (List.pairwise_append.1 hall).1
    · obtain ⟨e, he, hlimited, rfl⟩ := time_limitedCalls hd
      exact hmid e he hlimited
    · show c.time ≤ c'.time - windowSeconds
      linarith
  have hallowed : (((InMemoryRateLimiter.init maxRequests windowSeconds).after
      (limitedCalls (pre ++ c :: mid))).allow c'.time (clientKey c'.scope)).1 = true := by
    refine (allow_exact _ [] hall).2 ?_
    rw [hkey, hcalls, hzero]
    exact hmax
  exact Bool.false_ne_true (hagain.symm.trans hallowed)

/-! ### A window of a part of a second -/

/-- A login of an unknown client. -/
def loginAt (t : ℚ) : TimedRequest := ⟨t, { type := text "http", path := text "/auth/login" }⟩

theorem loginAt_limited (t : ℚ) : (loginAt t).scope.Limited := ⟨rfl, Or.inr rfl⟩

theorem limitedCalls_logins (n : ℕ) : limitedCalls (List.replicate n (loginAt 0)) =
    List.replicate n ⟨0, text "unknown"⟩ := by
  induction n with
  | zero => rfl
  | succ n ih =>
    rw [List.replicate_succ, List.replicate_succ, ← ih]
    unfold limitedCalls
    rw [List.filterMap_cons, if_pos (loginAt_limited 0)]
    rfl

/-- **A window of a part of a second**: a full bucket is told to come back too early. -/
theorem whole_of_honours {maxRequests : ℤ} {windowSeconds : ℚ} (hmax : 1 ≤ maxRequests)
    (hwindow : 0 < windowSeconds) (hhonours : HonoursRetryAfter maxRequests windowSeconds) :
    (⌊windowSeconds⌋ : ℚ) = windowSeconds := by
  by_contra hpart
  have hlt : (⌊windowSeconds⌋ : ℚ) < windowSeconds :=
    lt_of_le_of_ne (Int.floor_le windowSeconds) hpart
  have hfloor : (0 : ℚ) ≤ ⌊windowSeconds⌋ := by exact_mod_cast Int.floor_nonneg.2 hwindow.le
  obtain ⟨hfirst, hsecond⟩ := denied_twice hmax hwindow (text "unknown") hfloor hlt
  have hsorted : (List.replicate maxRequests.toNat (loginAt 0) ++
      [loginAt 0, loginAt ⌊windowSeconds⌋]).Pairwise fun c d => c.time ≤ d.time := by
    refine List.pairwise_append.2 ⟨List.pairwise_replicate.2 (Or.inr (le_refl _)),
      by simpa [loginAt] using hfloor, fun c hc d hd => ?_⟩
    rw [(List.mem_replicate.1 hc).2]
    rcases List.mem_cons.1 hd with rfl | hd
    · exact le_refl _
    · rwa [List.mem_singleton.1 hd]
  refine hhonours (List.replicate maxRequests.toNat (loginAt 0)) [] (loginAt 0)
    (loginAt ⌊windowSeconds⌋) ⌊windowSeconds⌋ (by simpa using hsorted) (loginAt_limited _)
    (loginAt_limited _) rfl (by simp) ?_ ?_ ⌊windowSeconds⌋ ?_
  · rw [call_rateLimited (loginAt_limited _), after_eq, limitedCalls_logins]
    exact ⟨hfirst, (if_pos hwindow.le).symm⟩
  · show (0 : ℚ) + ⌊windowSeconds⌋ ≤ ⌊windowSeconds⌋
    rw [zero_add]
  · rw [call_rateLimited (loginAt_limited _), after_eq, limitedCalls_append, limitedCalls_logins]
    exact ⟨hsecond, (if_pos hwindow.le).symm⟩

/-- **When `Retry-After` is honoured**: the window is a whole number of seconds. -/
theorem honoured_iff {maxRequests : ℤ} {windowSeconds : ℚ} (hmax : 1 ≤ maxRequests)
    (hwindow : 0 < windowSeconds) :
    HonoursRetryAfter maxRequests windowSeconds ↔ (⌊windowSeconds⌋ : ℚ) = windowSeconds :=
  ⟨whole_of_honours hmax hwindow, honours_of_whole hmax hwindow⟩

/-- The window of the default settings. -/
theorem honoured_iff_minute : HonoursRetryAfter 120 60 ↔ ((⌊(60 : ℚ)⌋ : ℤ) : ℚ) = 60 :=
  honoured_iff (by decide) (by norm_num)

/-- A window of half a second: of three logins the second is told to come back at once, and
the third, a quarter of a second later, is answered 429 again. -/
theorem half_second_not_honoured :
    (((init 1 (1 / 2)).after [loginAt 0]).call 0 (loginAt 0).scope).1 = .rateLimited 0 ∧
      (((init 1 (1 / 2)).after [loginAt 0, loginAt 0]).call (1 / 4) (loginAt (1 / 4)).scope).1 =
        .rateLimited 0 ∧
      ¬ HonoursRetryAfter 1 (1 / 2) := by
  obtain ⟨hfirst, hsecond⟩ := denied_twice (t := 1 / 4) (le_refl (1 : ℤ))
    (by norm_num : (0 : ℚ) < 1 / 2) (text "unknown") (by norm_num) (by norm_num)
  have hseconds : (0 : ℤ) = truncate (1 / 2) := by norm_num [truncate]
  refine ⟨?_, ?_, fun h => ?_⟩
  · refine (call_rateLimited (c := loginAt 0) (loginAt_limited 0)).2 ?_
    rw [after_eq]
    exact ⟨hfirst, hseconds⟩
  · refine (call_rateLimited (c := loginAt (1 / 4)) (loginAt_limited _)).2 ?_
    rw [after_eq]
    exact ⟨hsecond, hseconds⟩
  · have hpart := whole_of_honours (by decide) (by norm_num) h
    norm_num at hpart

end AdminRateLimitMiddleware

end CopyTrade
