import Mathlib.Data.List.Chain
import Mathlib.Order.Lattice

/-!
# A log of changes that replays to a store

Each entry of the log is of one key, with the value before its change and the value after it.

* `ChainsTo`: the entries of a key lead from no value to the one that stands in the store.
* `Replays.logged`: a change of the store with its entry.
* `Chains`: the entries of a key lead from the value at the start to the one that stands.
  `chains_logged_iff`: an entry more keeps this exactly where it begins at the value that stood.
* `Latest`: the entries of the latest time end in a value. Any listing by descending time then
  begins with one of them (`latest_iff_listed`).
-/

namespace Sql

variable {E A K : Type} {before after : E → Option A} {es : List E} {a : Option A}

/-- The entries lead from no value to `a`, each from where the one before it ended. There is
no entry where there is no value. -/
structure ChainsTo (before after : E → Option A) (es : List E) (a : Option A) : Prop where
  first : ∀ e ∈ es.head?, before e = none
  links : es.IsChain fun e e' => before e' = after e
  last : es.getLast?.bind after = a
  absent : a = none → es = []

theorem ChainsTo.nil : ChainsTo before after [] none :=
  ⟨fun e he => by simp at he, List.isChain_nil, rfl, fun _ => rfl⟩

/-- **One more change**, from the value that stands. -/
theorem ChainsTo.snoc (h : ChainsTo before after es a) {e : E} {b : Option A} (hbefore : before e = a)
    (hafter : after e = b) (hb : b ≠ none) : ChainsTo before after (es ++ [e]) b := by
  refine ⟨fun e' he' => ?_, ?_, ?_, fun hnone => absurd hnone hb⟩
  · cases hes : es with
    | nil =>
      have hlast := h.last
      rw [hes] at he' hlast
      have heq : e = e' := by simpa using he'
      rw [← heq, hbefore]
      exact hlast.symm
    | cons d ds =>
      rw [hes] at he'
      have heq : d = e' := by simpa using he'
      exact h.first e' (by rw [hes, ← heq]; rfl)
  · refine h.links.append (List.isChain_singleton e) fun x hx y hy => ?_
    have heq : e = y := by simpa using hy
    have hlast := h.last
    rw [hx, Option.bind_some] at hlast
    rw [← heq, hbefore, hlast]
  · simp [hafter]

variable [DecidableEq K] {key : E → Option K} {log : List E} {store store' : K → Option A}

/-- The entries of a key. -/
def trail (key : E → Option K) (log : List E) (k : K) : List E := log.filter fun e => key e = some k

/-- The log replays to the store. -/
def Replays (key : E → Option K) (before after : E → Option A) (log : List E)
    (store : K → Option A) : Prop :=
  ∀ k, ChainsTo before after (trail key log k) (store k)

theorem trail_append (log : List E) (k : K) {e : E} :
    trail key (log ++ [e]) k = trail key log k ++ if key e = some k then [e] else [] := by
  unfold trail
  rw [List.filter_append]
  by_cases he : key e = some k
  · simp [he]
  · simp [he]

/-- **A change of the store with its entry.** -/
theorem Replays.logged (h : Replays key before after log store) {e : E} {k : K} (he : key e = some k)
    (hbefore : before e = store k) (hafter : after e = store' k) (hsome : store' k ≠ none)
    (hother : ∀ j, j ≠ k → store' j = store j) : Replays key before after (log ++ [e]) store' := by
  intro j
  rw [trail_append, he]
  by_cases hj : j = k
  · rw [hj, if_pos rfl]
    exact (h k).snoc hbefore hafter hsome
  · have hne : some k ≠ some j := fun heq => hj (Option.some.inj heq).symm
    rw [if_neg hne, List.append_nil, hother j hj]
    exact h j

/-! ## A log that starts at any store -/

/-- The entries lead from `a` to `b`, each from where the one before it ended. -/
def Leads (before after : E → Option A) : Option A → List E → Option A → Prop
  | a, [], b => a = b
  | a, e :: es, b => before e = a ∧ Leads before after (after e) es b

/-- Where the last of the entries ends. -/
def lastAfter (after : E → Option A) (a : Option A) (es : List E) : Option A :=
  (es.getLast?.map after).getD a

theorem lastAfter_snoc (es : List E) (e : E) : lastAfter after a (es ++ [e]) = after e := by
  simp [lastAfter]

theorem lastAfter_cons (es : List E) (e : E) :
    lastAfter after a (e :: es) = lastAfter after (after e) es := by
  unfold lastAfter
  rw [List.getLast?_cons, Option.getD_map]
  rfl

theorem Leads.eq_lastAfter : ∀ {es : List E} {a b : Option A}, Leads before after a es b →
    b = lastAfter after a es := by
  intro es
  induction es with
  | nil => intro a b h; exact h.symm
  | cons e es ih =>
    intro a b h
    rw [lastAfter_cons]
    exact ih h.2

theorem leads_snoc_iff {e : E} {b : Option A} : ∀ {es : List E} {a : Option A},
    Leads before after a (es ++ [e]) b ↔ Leads before after a es (before e) ∧ after e = b := by
  intro es
  induction es with
  | nil =>
    intro a
    have hcomm : before e = a ↔ a = before e := eq_comm
    exact and_congr_left fun _ => hcomm
  | cons d es ih =>
    intro a
    show before d = a ∧ Leads before after (after d) (es ++ [e]) b ↔
      (before d = a ∧ Leads before after (after d) es (before e)) ∧ after e = b
    rw [ih, and_assoc]

/-- The entries of each key lead from the one store to the other. -/
def Chains (key : E → Option K) (before after : E → Option A) (start : K → Option A) (log : List E)
    (store : K → Option A) : Prop :=
  ∀ k, Leads before after (start k) (trail key log k) (store k)

variable {start : K → Option A}

/-- The last entry of each key ends where the store stands. -/
def Ends (key : E → Option K) (after : E → Option A) (start : K → Option A) (log : List E)
    (store : K → Option A) : Prop :=
  ∀ k, lastAfter after (start k) (trail key log k) = store k

theorem Ends.logged (h : Ends key after start log store) {e : E} {k : K} (he : key e = some k)
    (hafter : after e = store' k) (hother : ∀ j, j ≠ k → store' j = store j) :
    Ends key after start (log ++ [e]) store' := by
  intro j
  rw [trail_append, he]
  by_cases hj : j = k
  · rw [hj, if_pos rfl, lastAfter_snoc]
    exact hafter
  · have hne : some k ≠ some j := fun heq => hj (Option.some.inj heq).symm
    rw [if_neg hne, List.append_nil, hother j hj]
    exact h j

/-- **One more change**: the log chains on exactly where its entry begins at the value that
stood. -/
theorem chains_logged_iff (h : Ends key after start log store) {e : E} {k : K} (he : key e = some k)
    (hafter : after e = store' k) (hother : ∀ j, j ≠ k → store' j = store j) :
    Chains key before after start (log ++ [e]) store' ↔
      Chains key before after start log store ∧ before e = store k := by
  have hself : trail key (log ++ [e]) k = trail key log k ++ [e] := by
    rw [trail_append, if_pos he]
  have hapart : ∀ j, j ≠ k → trail key (log ++ [e]) j = trail key log j := by
    intro j hj
    have hne : key e ≠ some j := by
      rw [he]
      exact fun heq => hj (Option.some.inj heq).symm
    rw [trail_append, if_neg hne, List.append_nil]
  constructor
  · intro hchains
    have hk : Leads before after (start k) (trail key log k) (before e) := by
      have hlead := hchains k
      rw [hself, leads_snoc_iff] at hlead
      exact hlead.1
    have hbefore : before e = store k := hk.eq_lastAfter.trans (h k)
    refine ⟨fun j => ?_, hbefore⟩
    by_cases hj : j = k
    · rw [hj, ← hbefore]
      exact hk
    · rw [← hapart j hj, ← hother j hj]
      exact hchains j
  · rintro ⟨hchains, hbefore⟩ j
    by_cases hj : j = k
    · rw [hj, hself, leads_snoc_iff, hbefore]
      exact ⟨hchains k, hafter⟩
    · rw [hapart j hj, hother j hj]
      exact hchains j

/-! ## The latest entry -/

variable {T : Type} [LinearOrder T] {time : E → T}

/-- Every entry of the latest time ends in `a`. -/
def Latest (time : E → T) (after : E → Option A) (es : List E) (a : Option A) : Prop :=
  ∀ e ∈ es, (∀ d ∈ es, time d ≤ time e) → after e = a

/-- Entries in descending time; the order of those of one time is open. -/
def Descending (time : E → T) (es ordered : List E) : Prop :=
  ordered.Perm es ∧ ordered.Pairwise fun d e => time e ≤ time d

theorem descending_mergeSort (time : E → T) (es : List E) :
    Descending time es (es.mergeSort fun d e => decide (time e ≤ time d)) := by
  refine ⟨List.mergeSort_perm es _, ?_⟩
  refine (List.pairwise_mergeSort (fun a b c hab hbc => ?_) (fun a b => ?_) es).imp
    fun hde => of_decide_eq_true hde
  · simp only [decide_eq_true_eq] at hab hbc ⊢
    exact le_trans hbc hab
  · simpa using le_total (time b) (time a)

/-- **What is listed first**, in any order by descending time. -/
theorem latest_iff_listed (hes : es ≠ []) : Latest time after es a ↔
    ∀ ordered, Descending time es ordered → ∃ e ∈ ordered.head?, after e = a := by
  constructor
  · rintro h ordered ⟨hperm, hsorted⟩
    cases hordered : ordered with
    | nil =>
      rw [hordered] at hperm
      exact absurd hperm.nil_eq.symm hes
    | cons e rest =>
      rw [hordered] at hperm hsorted
      refine ⟨e, rfl, h e (hperm.subset List.mem_cons_self) fun d hd => ?_⟩
      rcases List.mem_cons.1 (hperm.symm.subset hd) with rfl | hd
      · exact le_refl _
      · exact (List.pairwise_cons.1 hsorted).1 d hd
  · intro h e he hmax
    -- an order that lists the entry first
    obtain ⟨l, m, rfl⟩ := List.append_of_mem he
    obtain ⟨hperm, hsort⟩ := descending_mergeSort time (l ++ m)
    have hfirst : ∀ d ∈ (l ++ m).mergeSort fun d e => decide (time e ≤ time d), time d ≤ time e :=
      fun d hd => hmax d (List.perm_middle.symm.subset (List.mem_cons_of_mem e (hperm.subset hd)))
    obtain ⟨d, hd, hafter⟩ := h (e :: (l ++ m).mergeSort fun d e => decide (time e ≤ time d))
      ⟨(hperm.cons e).trans List.perm_middle.symm, List.pairwise_cons.2 ⟨hfirst, hsort⟩⟩
    have heq : e = d := by simpa using hd
    rw [heq]
    exact hafter

theorem exists_latest (time : E → T) : ∀ es : List E, es ≠ [] → ∃ m ∈ es, ∀ d ∈ es, time d ≤ time m := by
  intro es
  induction es with
  | nil => intro h; exact absurd rfl h
  | cons e es ih =>
    intro _
    by_cases hes : es = []
    · rw [hes]
      exact ⟨e, List.mem_singleton_self e, fun d hd => by rw [List.mem_singleton.1 hd]⟩
    obtain ⟨m, hm, hmax⟩ := ih hes
    rcases le_total (time e) (time m) with hle | hle
    · exact ⟨m, List.mem_cons_of_mem e hm, List.forall_mem_cons.2 ⟨hle, hmax⟩⟩
    · refine ⟨e, List.mem_cons_self, List.forall_mem_cons.2 ⟨le_refl _, fun d hd => ?_⟩⟩
      exact (hmax d hd).trans hle

/-- **One more entry** at a time of its own choice: it is the latest, or it ends where the
latest ended. -/
theorem latest_snoc (h : Latest time after es a) (hes : es ≠ []) {now : T}
    (hnow : ∀ e ∈ es, after e = a → time e = now) {e : E} {b : Option A} (hafter : after e = b) :
    Latest time after (es ++ [e]) b ↔ now < time e ∨ a = b := by
  -- an entry of the latest time so far
  obtain ⟨m, hmem, hmax⟩ := exists_latest time es hes
  have hma : after m = a := h m hmem hmax
  have htime : time m = now := hnow m hmem hma
  constructor
  · intro hlatest
    rcases lt_or_ge now (time e) with hlt | hge
    · exact Or.inl hlt
    · refine Or.inr ?_
      have hmb := hlatest m (List.mem_append_left _ hmem) fun d hd => ?_
      · exact hma.symm.trans hmb
      · rcases List.mem_append.1 hd with hd | hd
        · exact hmax d hd
        · rw [List.mem_singleton.1 hd, htime]
          exact hge
  · intro hor d hd hdmax
    rcases List.mem_append.1 hd with hd | hd
    · rcases hor with hlt | heq
      · -- the new entry is later
        have hle := hdmax e (List.mem_append_right _ (List.mem_singleton_self e))
        have hdm := hmax d hd
        rw [htime] at hdm
        exact absurd (lt_of_lt_of_le hlt (hle.trans hdm)) (lt_irrefl _)
      · rw [← heq]
        exact h d hd fun d' hd' => hdmax d' (List.mem_append_left _ hd')
    · rw [List.mem_singleton.1 hd]
      exact hafter

end Sql
