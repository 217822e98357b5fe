import CopyTrade.Sql.Journal
import Mathlib.Data.List.Nodup

/-!
# Reading a list page by page

`ORDER BY time DESC LIMIT … OFFSET …`, asked once for each page. Rows of one time stand in any
order, and in another one for the next page.

* `reads_of_pages`: whatever the pages are, the reading comes to an empty one.
* `drop_eq_filter`: where a page boundary does not cut through rows of one time, what is listed
  behind it does not depend on the order.
* `partitions_iff`: every reading lists every row once exactly where no boundary cuts.
* `partitions_forall_iff`: with pages of any length, exactly where no two rows are of one time.
-/

namespace Sql

variable {E T : Type} [LinearOrder T] {time : E → T} {rows ordered : List E} {limit b : ℕ}

/-- A page that `ORDER BY time DESC LIMIT … OFFSET …` may answer. -/
def IsPage (time : E → T) (rows : List E) (limit offset : ℕ) (page : List E) : Prop :=
  ∃ ordered, Descending time rows ordered ∧ page = (ordered.drop offset).take limit

/-- The pages from an offset on, until one is empty, one after the other. -/
inductive Reads (answers : ℕ → List E → Prop) (limit : ℕ) : ℕ → List E → Prop
  | done {offset} (h : answers offset []) : Reads answers limit offset []
  | page {offset page rest} (h : answers offset page) (hne : page ≠ [])
      (hrest : Reads answers limit (offset + limit) rest) : Reads answers limit offset (page ++ rest)

/-- **Pages partition the list**: there is a reading, and every reading lists every row once. -/
def Partitions (answers : ℕ → List E → Prop) (limit : ℕ) (rows : List E) : Prop :=
  (∃ listed, Reads answers limit 0 listed) ∧ ∀ listed, Reads answers limit 0 listed → listed.Perm rows

/-! ## Counting by time -/

theorem countP_split (p : E → Bool) (l : List E) (b : ℕ) :
    l.countP p = (l.take b).countP p + (l.drop b).countP p := by
  rw [← List.countP_append, List.take_append_drop]

/-- The rows that stand before those of a row's time. -/
def later (time : E → T) (rows : List E) (e : E) : ℕ := rows.countP fun d => time e < time d

/-- The rows that stand before or among those of a row's time. -/
def notEarlier (time : E → T) (rows : List E) (e : E) : ℕ := rows.countP fun d => time e ≤ time d

/-- Rows of one time stand on both sides of a boundary. -/
def Cuts (time : E → T) (rows : List E) (b : ℕ) : Prop :=
  ∃ e ∈ rows, later time rows e < b ∧ b < notEarlier time rows e

theorem notEarlier_le_length (rows : List E) (e : E) : notEarlier time rows e ≤ rows.length :=
  List.countP_le_length

theorem notEarlier_pos {e : E} (he : e ∈ rows) : 0 < notEarlier time rows e :=
  List.countP_pos_iff.2 ⟨e, he, by simp⟩

theorem Descending.later_eq (h : Descending time rows ordered) (e : E) :
    later time ordered e = later time rows e := h.1.countP_eq _

theorem Descending.notEarlier_eq (h : Descending time rows ordered) (e : E) :
    notEarlier time ordered e = notEarlier time rows e := h.1.countP_eq _

theorem Descending.getElem_le (h : Descending time rows ordered) {i j : ℕ} (hij : i ≤ j)
    (hj : j < ordered.length) : time ordered[j] ≤ time ordered[i] := by
  rcases Nat.lt_or_eq_of_le hij with hlt | rfl
  · exact List.pairwise_iff_getElem.1 h.2 i j (by omega) hj hlt
  · exact le_refl _

/-- An element behind the boundary is not later than one before it. -/
theorem Descending.le_of_take_drop (h : Descending time rows ordered) {d e : E}
    (hd : d ∈ ordered.take b) (he : e ∈ ordered.drop b) : time e ≤ time d := by
  have hsorted := h.2
  rw [← List.take_append_drop b ordered, List.pairwise_append] at hsorted
  exact hsorted.2.2 d hd e he

/-- Before the boundary. -/
theorem Descending.later_lt (h : Descending time rows ordered) {e : E} (he : e ∈ ordered.take b) :
    later time rows e < b := by
  have hbehind : (ordered.drop b).countP (fun d => time e < time d) = 0 := by
    rw [List.countP_eq_zero]
    intro d hd
    simpa using h.le_of_take_drop he hd
  -- the row itself is not later
  have hbefore : (ordered.take b).countP (fun d => time e < time d) < (ordered.take b).length := by
    rcases Nat.lt_or_ge ((ordered.take b).countP fun d => time e < time d) (ordered.take b).length
      with hlt | hge
    · exact hlt
    · have hall := List.countP_eq_length.1 (le_antisymm List.countP_le_length hge) e he
      simp at hall
  have hsplit := countP_split (fun d => time e < time d) ordered b
  have hlength := List.length_take_le b ordered
  rw [← h.later_eq]
  unfold later
  omega

/-- Behind the boundary. -/
theorem Descending.lt_notEarlier (h : Descending time rows ordered) {e : E}
    (he : e ∈ ordered.drop b) : b < notEarlier time rows e := by
  have hbefore : (ordered.take b).countP (fun d => time e ≤ time d) = (ordered.take b).length := by
    rw [List.countP_eq_length]
    intro d hd
    simpa using h.le_of_take_drop hd he
  have hbehind : 0 < (ordered.drop b).countP fun d => time e ≤ time d :=
    List.countP_pos_iff.2 ⟨e, he, by simp⟩
  have hsplit := countP_split (fun d => time e ≤ time d) ordered b
  have hb : b < ordered.length := by
    by_contra hge
    rw [List.drop_eq_nil_of_le (by omega)] at he
    simp at he
  have hlength : (ordered.take b).length = b := List.length_take_of_le (by omega)
  rw [← h.notEarlier_eq]
  unfold notEarlier
  omega

/-- **Behind a boundary that does not cut** stand the same rows in every order. -/
theorem drop_eq_filter (hcut : ¬ Cuts time rows b) (h : Descending time rows ordered) :
    ordered.drop b = ordered.filter fun e => b < notEarlier time rows e := by
  have hbefore : (ordered.take b).filter (fun e => b < notEarlier time rows e) = [] := by
    rw [List.filter_eq_nil_iff]
    intro e he hlt
    have hmem : e ∈ rows := h.1.subset (List.mem_of_mem_take he)
    exact hcut ⟨e, hmem, h.later_lt he, by simpa using hlt⟩
  have hbehind : (ordered.drop b).filter (fun e => b < notEarlier time rows e) = ordered.drop b := by
    rw [List.filter_eq_self]
    intro e he
    simpa using h.lt_notEarlier he
  conv_rhs => rw [← List.take_append_drop b ordered]
  rw [List.filter_append, hbefore, hbehind, List.nil_append]

/-! ## Orders -/

theorem IsPage.of_descending (h : Descending time rows ordered) (limit b : ℕ) :
    IsPage time rows limit b ((ordered.drop b).take limit) := ⟨ordered, h, rfl⟩

theorem IsPage.length {page : List E} (h : IsPage time rows limit b page) :
    page.length = min limit (rows.length - b) := by
  obtain ⟨ordered, hordered, rfl⟩ := h
  rw [List.length_take, List.length_drop, hordered.1.length_eq]

/-- **The reading ends**, with whatever pages are answered. -/
theorem reads_of_pages {pages : ℕ → List E} (hpages : ∀ b, IsPage time rows limit b (pages b))
    (hlimit : 1 ≤ limit) (b : ℕ) : ∃ listed, Reads (IsPage time rows limit) limit b listed := by
  -- on the number of rows behind the offset
  induction hn : rows.length - b using Nat.strong_induction_on generalizing b with
  | _ n ih =>
    by_cases hempty : pages b = []
    · exact ⟨[], .done (hempty ▸ hpages b)⟩
    · have hpos : 0 < (pages b).length := List.length_pos_iff.2 hempty
      rw [(hpages b).length] at hpos
      obtain ⟨listed, hlisted⟩ := ih (rows.length - (b + limit)) (by omega) (b + limit) rfl
      exact ⟨pages b ++ listed, .page (hpages b) hempty hlisted⟩

/-! ## Boundaries that do not cut -/

/-- **What a reading lists** from a boundary on, where no boundary cuts. -/
theorem Reads.perm_filter {listed : List E} (h : Reads (IsPage time rows limit) limit b listed)
    (hlimit : 1 ≤ limit) (hcut : ∀ k, ¬ Cuts time rows (b + k * limit)) :
    listed.Perm (rows.filter fun e => b < notEarlier time rows e) := by
  induction h with
  | @done b h =>
    have hlength := h.length
    have hnone : (rows.filter fun e => b < notEarlier time rows e) = [] := by
      rw [List.filter_eq_nil_iff]
      intro e _ hlt
      have hle : notEarlier time rows e ≤ rows.length := notEarlier_le_length rows e
      have hlt : b < notEarlier time rows e := by simpa using hlt
      simp only [List.length_nil] at hlength
      omega
    rw [hnone]
  | @page b page rest h _ _ ih =>
    obtain ⟨ordered, hordered, rfl⟩ := h
    have hrest := ih fun k => by
      have hk := hcut (k + 1)
      rwa [Nat.succ_mul, Nat.add_comm (k * limit), ← Nat.add_assoc] at hk
    have hbehind := drop_eq_filter (by simpa using hcut 1) hordered
    have hhere := drop_eq_filter (by simpa using hcut 0) hordered
    have hnext : rest.Perm (ordered.drop (b + limit)) := by
      rw [hbehind]
      exact hrest.trans (hordered.1.filter _).symm
    have hall : (ordered.drop b).take limit ++ ordered.drop (b + limit) = ordered.drop b := by
      rw [← List.drop_drop, List.take_append_drop]
    have hlisted := hnext.append_left ((ordered.drop b).take limit)
    rw [hall, hhere] at hlisted
    rw [hhere]
    exact hlisted.trans (hordered.1.filter _)

/-! ## A boundary that cuts -/

/-- Two rows of one time, on both sides of a boundary that cuts. -/
theorem Descending.split_of_cuts (h : Descending time rows ordered) (hcut : Cuts time rows b) :
    ∃ l x y m, ordered = l ++ x :: y :: m ∧ l.length + 1 = b ∧ time x = time y := by
  obtain ⟨e, he, hlater, hearlier⟩ := hcut
  have hlength : b < ordered.length := by
    rw [h.1.length_eq]
    exact lt_of_lt_of_le hearlier (notEarlier_le_length rows e)
  obtain ⟨n, rfl⟩ : ∃ n, b = n + 1 := ⟨b - 1, by omega⟩
  refine ⟨ordered.take n, ordered[n], ordered[n + 1], ordered.drop (n + 2), ?_, ?_, ?_⟩
  · rw [← List.drop_eq_getElem_cons, ← List.drop_eq_getElem_cons, List.take_append_drop]
  · rw [List.length_take_of_le (by omega)]
  have hsorted := List.pairwise_iff_getElem.1 h.2 n (n + 1) (by omega) hlength (by omega)
  -- the row before the boundary is not later than `e`, and the one behind it not earlier
  have hbefore : time ordered[n] ≤ time e := by
    by_contra hlt
    have hall : ∀ d ∈ ordered.take (n + 1), time e < time d := by
      intro d hd
      obtain ⟨i, hi, rfl⟩ := List.getElem_of_mem hd
      rw [List.getElem_take]
      rw [List.length_take] at hi
      have hle := h.getElem_le (i := i) (j := n) (by omega) (by omega)
      exact lt_of_lt_of_le (not_le.1 hlt) hle
    have hcount : (ordered.take (n + 1)).countP (fun d => time e < time d) = n + 1 := by
      rw [List.countP_eq_length.2 (by simpa using hall), List.length_take_of_le (by omega)]
    have hsplit := countP_split (fun d => time e < time d) ordered (n + 1)
    rw [← h.later_eq] at hlater
    unfold later at hlater
    omega
  have hbehind : time e ≤ time ordered[n + 1] := by
    by_contra hlt
    have hnone : (ordered.drop (n + 1)).countP (fun d => time e ≤ time d) = 0 := by
      rw [List.countP_eq_zero]
      intro d hd
      obtain ⟨i, hi, rfl⟩ := List.getElem_of_mem hd
      rw [List.getElem_drop]
      rw [List.length_drop] at hi
      have hle := h.getElem_le (i := n + 1) (j := n + 1 + i) (by omega) (by omega)
      simpa using lt_of_le_of_lt hle (not_le.1 hlt)
    have hsplit := countP_split (fun d => time e ≤ time d) ordered (n + 1)
    have hle : (ordered.take (n + 1)).countP (fun d => time e ≤ time d) ≤ n + 1 :=
      le_trans List.countP_le_length (List.length_take_le _ _)
    rw [← h.notEarlier_eq] at hearlier
    unfold notEarlier at hearlier
    omega
  exact le_antisymm (hbefore.trans hbehind) hsorted

/-- The two rows change places. -/
theorem Descending.swap {l m : List E} {x y : E} (h : Descending time rows (l ++ x :: y :: m))
    (hxy : time x = time y) : Descending time rows (l ++ y :: x :: m) := by
  refine ⟨(List.Perm.append_left l (List.Perm.swap x y m)).trans h.1, ?_⟩
  -- both stand in order with the rows around them
  have hsorted := h.2
  simp only [List.pairwise_append, List.pairwise_cons, List.mem_cons, forall_eq_or_imp] at hsorted ⊢
  obtain ⟨hl, ⟨⟨-, hx⟩, hy, hm⟩, hlm⟩ := hsorted
  refine ⟨hl, ⟨⟨le_of_eq hxy, hy⟩, hx, hm⟩, fun d hd => ?_⟩
  obtain ⟨hdx, hdy, hdm⟩ := hlm d hd
  exact ⟨hdy, hdx, hdm⟩

/-- A reading from an order that does not change. -/
theorem reads_drop (h : Descending time rows ordered) (hlimit : 1 ≤ limit) (b : ℕ) :
    Reads (IsPage time rows limit) limit b (ordered.drop b) := by
  induction hn : ordered.length - b using Nat.strong_induction_on generalizing b with
  | _ n ih =>
    have hpage := IsPage.of_descending h limit b
    rcases Nat.lt_or_ge b ordered.length with hlt | hge
    · have hrest := ih (ordered.length - (b + limit)) (by omega) (b + limit) rfl
      have hne : (ordered.drop b).take limit ≠ [] := by
        rw [← List.length_pos_iff, List.length_take, List.length_drop]
        omega
      have hreads := Reads.page hpage hne hrest
      rwa [← List.drop_drop, List.take_append_drop] at hreads
    · rw [List.drop_eq_nil_of_le hge] at hpage ⊢
      rw [List.take_nil] at hpage
      exact .done hpage

/-- Pages from an order that does not change, before a reading from a boundary on. -/
theorem Reads.of_take (h : Descending time rows ordered) (hlimit : 1 ≤ limit) :
    ∀ {k : ℕ} {rest : List E}, k * limit ≤ ordered.length →
      Reads (IsPage time rows limit) limit (k * limit) rest →
      Reads (IsPage time rows limit) limit 0 (ordered.take (k * limit) ++ rest) := by
  intro k
  induction k with
  | zero =>
    intro rest _ hrest
    simpa using hrest
  | succ k ih =>
    intro rest hle hrest
    rw [Nat.succ_mul] at hle hrest ⊢
    have hne : (ordered.drop (k * limit)).take limit ≠ [] := by
      rw [← List.length_pos_iff, List.length_take, List.length_drop]
      omega
    have hreads := ih (by omega) (.page (IsPage.of_descending h limit (k * limit)) hne hrest)
    rwa [← List.append_assoc, ← List.take_add] at hreads

/-- **Where a boundary cuts**, a row is listed twice and another one not at all. -/
theorem exists_reads_of_cuts (hlimit : 1 ≤ limit) {k : ℕ} (hcut : Cuts time rows (k * limit)) :
    ∃ l x y m, Descending time rows (l ++ x :: y :: m) ∧
      Reads (IsPage time rows limit) limit 0 (l ++ x :: x :: m) := by
  have horder := descending_mergeSort time rows
  obtain ⟨l, x, y, m, hlist, hlength, hxy⟩ := horder.split_of_cuts hcut
  rw [hlist] at horder
  obtain ⟨n, rfl⟩ : ∃ n, limit = n + 1 := ⟨limit - 1, by omega⟩
  refine ⟨l, x, y, m, horder, ?_⟩
  -- the page behind the boundary is answered in the other order
  have hpage := IsPage.of_descending (horder.swap hxy) (n + 1) (k * (n + 1))
  have hrest := reads_drop horder hlimit (k * (n + 1) + (n + 1))
  have htaken : (l ++ x :: y :: m).take (k * (n + 1)) = l ++ [x] := by
    rw [← hlength, List.take_append, List.take_of_length_le (by omega)]
    simp
  have hpage' : ((l ++ y :: x :: m).drop (k * (n + 1))).take (n + 1) = x :: m.take n := by
    rw [← hlength, List.drop_append, List.drop_eq_nil_of_le (by omega)]
    simp
  have hrest' : (l ++ x :: y :: m).drop (k * (n + 1) + (n + 1)) = m.drop n := by
    rw [← hlength, List.drop_append, List.drop_eq_nil_of_le (by omega)]
    rw [show l.length + 1 + (n + 1) - l.length = n + 2 by omega]
    simp
  rw [hpage'] at hpage
  rw [hrest'] at hrest
  have hle : k * (n + 1) ≤ (l ++ x :: y :: m).length := by
    rw [List.length_append, List.length_cons]
    omega
  have hreads := Reads.of_take horder hlimit hle (.page hpage (by simp) hrest)
  rw [htaken, List.cons_append, List.take_append_drop, List.append_assoc] at hreads
  exact hreads

/-- **Pages partition the list** exactly where no page boundary cuts through rows of one time. -/
theorem partitions_iff (hlimit : 1 ≤ limit) (hrows : rows.Nodup) :
    Partitions (IsPage time rows limit) limit rows ↔ ∀ k, ¬ Cuts time rows (k * limit) := by
  constructor
  · rintro ⟨-, hall⟩ k hcut
    obtain ⟨l, x, y, m, horder, hreads⟩ := exists_reads_of_cuts hlimit hcut
    have hperm := (hall _ hreads).trans horder.1.symm
    rw [List.perm_append_left_iff, List.perm_cons] at hperm
    have hxy : x = y := by
      have hsingle : ([x] ++ m).Perm ([y] ++ m) := hperm
      rw [List.perm_append_right_iff] at hsingle
      simpa using hsingle
    have hnodup := horder.1.symm.nodup hrows
    rw [hxy, List.nodup_append] at hnodup
    simp at hnodup
  · intro hcut
    have hpages : ∀ b, IsPage time rows limit b _ := fun b =>
      .of_descending (descending_mergeSort time rows) limit b
    refine ⟨reads_of_pages hpages hlimit 0, fun listed hreads => ?_⟩
    refine (hreads.perm_filter hlimit fun k => by simpa using hcut k).trans ?_
    rw [List.filter_eq_self.2 fun e he => by simpa using notEarlier_pos he]

/-! ## Rows of one time -/

theorem notEarlier_eq (time : E → T) (rows : List E) (e : E) :
    notEarlier time rows e = later time rows e + rows.countP fun d => time e = time d := by
  unfold notEarlier later
  induction rows with
  | nil => rfl
  | cons d rows ih =>
    rw [List.countP_cons, List.countP_cons, List.countP_cons, ih]
    rcases lt_trichotomy (time e) (time d) with hlt | heq | hgt
    · simp [hlt, hlt.le, hlt.ne]
      omega
    · simp [heq]
      omega
    · simp [hgt.not_gt, hgt.not_ge, hgt.ne']

/-- Distinct times are never cut. -/
theorem not_cuts_of_distinct (hrows : rows.Nodup)
    (hdistinct : ∀ d ∈ rows, ∀ e ∈ rows, time d = time e → d = e) (b : ℕ) : ¬ Cuts time rows b := by
  rintro ⟨e, he, hlater, hearlier⟩
  have htimes : (rows.map time).Nodup :=
    hrows.map_on fun d hd e he => hdistinct d hd e he
  have hone : rows.countP (fun d => time e = time d) ≤ 1 := by
    have hcount := List.nodup_iff_count_le_one.1 htimes (time e)
    rw [List.count, List.countP_map] at hcount
    refine le_of_eq_of_le (List.countP_congr fun d _ => ?_) hcount
    simp only [Function.comp_apply, decide_eq_true_eq, beq_iff_eq]
    exact eq_comm
  rw [notEarlier_eq] at hearlier
  omega

/-- Two rows of one time are cut by pages of some length. -/
theorem cuts_of_tie {d e : E} (hd : d ∈ rows) (he : e ∈ rows) (hne : d ≠ e) (htime : time d = time e) :
    Cuts time rows (later time rows e + 1) := by
  refine ⟨e, he, by omega, ?_⟩
  obtain ⟨l, m, rfl⟩ := List.append_of_mem he
  have hother : d ∈ l ++ m := by
    rcases List.mem_append.1 hd with hl | hm
    · exact List.mem_append_left _ hl
    · exact List.mem_append_right _ ((List.mem_cons.1 hm).resolve_left hne)
  have hpos : 0 < (l ++ m).countP fun d => time e = time d :=
    List.countP_pos_iff.2 ⟨d, hother, by simp [htime]⟩
  rw [notEarlier_eq]
  have hcount : (l ++ e :: m).countP (fun d => time e = time d) =
      (l ++ m).countP (fun d => time e = time d) + 1 := by
    rw [List.perm_middle.countP_eq, List.countP_cons]
    simp
  omega

/-- **Pages of every length partition the list** exactly where no two rows are of one time. -/
theorem partitions_forall_iff (hrows : rows.Nodup) :
    (∀ limit, 1 ≤ limit → Partitions (IsPage time rows limit) limit rows) ↔
      ∀ d ∈ rows, ∀ e ∈ rows, time d = time e → d = e := by
  constructor
  · intro hall d hd e he htime
    by_contra hne
    have hcut := (partitions_iff (by omega) hrows).1 (hall (later time rows e + 1) (by omega)) 1
    rw [Nat.one_mul] at hcut
    exact hcut (cuts_of_tie hd he hne htime)
  · intro hdistinct limit hlimit
    exact (partitions_iff hlimit hrows).2 fun k => not_cuts_of_distinct hrows hdistinct (k * limit)

end Sql
