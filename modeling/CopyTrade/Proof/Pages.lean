import CopyTrade.Proof.Rotation
import CopyTrade.Proof.Trail
import CopyTrade.Spec.AdminLists

/-!
# Pages of the admin lists

* `pages_partition_iff`: the pages of a list hold each of its rows once exactly where PostgreSQL
  takes the filters and no page boundary stands between rows of one time.
* `pages_partition_forall_iff`: with pages of any length, exactly where no two rows are of one time.
* `rotation_ties`: a rotation leaves two rows of one time in the audit log.
-/

namespace CopyTrade

open Identity

variable {F : Type}

namespace ListQuery

variable {Row : Type} {q : ListQuery Row} {limit : ℕ}

/-- A query that PostgreSQL takes answers its pages, and one that it refuses answers nothing. -/
theorem partitions_iff (hlimit : 1 ≤ limit) (hrows : q.matching.Nodup) :
    Sql.Partitions (q.Answers limit) limit q.matching ↔ q.Accepted ∧ ¬ q.CutBy limit := by
  by_cases haccepted : q.Accepted
  · have hanswers : q.Answers limit = Sql.IsPage q.orderBy q.matching limit := by
      funext offset page
      exact propext (and_iff_right haccepted)
    rw [hanswers, Sql.partitions_iff hlimit hrows, and_iff_right haccepted]
    exact not_exists.symm
  · refine iff_of_false (fun hpartitions => ?_) fun h => haccepted h.1
    -- the first page is not answered
    obtain ⟨⟨listed, hreads⟩, -⟩ := hpartitions
    cases hreads with
    | done h => exact haccepted h.1
    | page h _ _ => exact haccepted h.1

end ListQuery

/-- **The pages of a list** hold each of its rows once exactly where PostgreSQL takes the filters
and no page boundary stands between rows of one time. -/
theorem pages_partition_iff (l : AdminList) (s : AdminTables F) {limit : ℕ} (hlimit : 1 ≤ limit) :
    Sql.Partitions ((l.query s).Answers limit) limit (l.query s).matching ↔
      (l.query s).Accepted ∧ ¬ (l.query s).CutBy limit :=
  ListQuery.partitions_iff hlimit (l.matching_nodup s)

/-! ## Rows of one time -/

/-- **With pages of any length** they do exactly where no two rows are of one time. -/
theorem pages_partition_forall_iff (l : AdminList) (s : AdminTables F) :
    (∀ limit, 1 ≤ limit → Sql.Partitions ((l.query s).Answers limit) limit (l.query s).matching) ↔
      (l.query s).Accepted ∧ ∀ d ∈ (l.query s).matching, ∀ e ∈ (l.query s).matching,
        (l.query s).orderBy d = (l.query s).orderBy e → d = e := by
  have hnodup := l.matching_nodup s
  rw [← Sql.partitions_forall_iff hnodup]
  constructor
  · intro hall
    refine ⟨((ListQuery.partitions_iff (by omega) hnodup).1 (hall 1 (by omega))).1, ?_⟩
    intro limit hlimit
    have hcut := ((ListQuery.partitions_iff hlimit hnodup).1 (hall limit hlimit)).2
    exact (Sql.partitions_iff hlimit hnodup).2 (not_exists.1 hcut)
  · rintro ⟨haccepted, hall⟩ limit hlimit
    have hcut := (Sql.partitions_iff hlimit hnodup).1 (hall limit hlimit)
    exact (ListQuery.partitions_iff hlimit hnodup).2 ⟨haccepted, not_exists.2 hcut⟩

/-- **A rotation** leaves two rows of one time in the audit log. -/
theorem rotation_ties {id : UUID} {c : Sql.Commit identity} (hc : Rotates id c) {s t : Tables}
    (h : c.Turns s t) : ∃ d ∈ t.auditLogs, ∃ e ∈ t.auditLogs, d ≠ e ∧ d.occurredAt = e.occurredAt := by
  cases c with
  | query at_ q a => exact hc.elim
  | transaction tx began did =>
    obtain ⟨credential, user, after, newId, tokenHash, tokenPrefix, row, a, b, entry, entry', -, rfl⟩ := hc
    obtain ⟨held, h₀⟩ := h
    obtain ⟨s₁, -, h₁⟩ := runs_effect rfl h₀
    obtain ⟨s₂, -, h₂⟩ := runs_effect rfl h₁
    obtain ⟨s₃, -, h₃⟩ := runs_effect rfl h₂
    obtain ⟨s₄, ⟨u, hu, rfl⟩, h₄⟩ := runs_effect rfl h₃
    obtain ⟨s₅, ⟨v, hv, rfl⟩, h₅⟩ := runs_effect rfl h₄
    cases h₅
    have hfirst : entry.row a began ∈ u := (Sql.Table.mem_insert hu).2 (Or.inr rfl)
    refine ⟨entry.row a began, (Sql.Table.mem_insert hv).2 (Or.inl hfirst), entry'.row b began,
      (Sql.Table.mem_insert hv).2 (Or.inr rfl), fun he => ?_, rfl⟩
    -- the second insert would have clashed
    have hclash := (Sql.Table.insert_eq_some.1 hv).1 _ hfirst
    rw [he] at hclash
    exact hclash rfl

/-! ### Two rows -/

/-- A row of the audit log. -/
def loggedAt (id : UUID) (now : Timestamp) : AuditLogRow AuditState :=
  AuditEntry.row ⟨.adminApi, none, "admin_credential.rotated", "api_credential", none, none, none, []⟩ id now

theorem logged_apart (now now' : Timestamp) : [loggedAt ⟨1⟩ now, loggedAt ⟨2⟩ now'].Pairwise
    fun a b => ¬ Sql.Clash a b := by
  rw [List.pairwise_pair]
  have hne : (⟨1⟩ : UUID) ≠ ⟨2⟩ := by decide
  exact hne

/-- An audit log of two rows. -/
def twoRows (now now' : Timestamp) : AdminTables Unit where
  toTables := { emptyTables with auditLogs := ⟨_, logged_apart now now'⟩ }
  userSubscriptions := Sql.Table.empty
  deadLetterEvents := Sql.Table.empty

/-- Two rows of two times, one on each page. -/
theorem pages_partition_iff_two : 1 ≤ 1 ∧
    Sql.Partitions (((AdminList.auditLogs none none none).query (twoRows 0 1)).Answers 1) 1
      ((AdminList.auditLogs none none none).query (twoRows 0 1)).matching := by
  refine ⟨le_refl 1, (pages_partition_iff (.auditLogs none none none) (twoRows 0 1) (le_refl 1)).2
    ⟨fun _ h => absurd h List.not_mem_nil, ?_⟩⟩
  rintro ⟨k, hcut⟩
  exact Sql.not_cuts_of_distinct (by decide) (by decide) (k * 1) hcut

/-- Two rows of one time, one on each page: the first page may list the one, the second page
the same one again. -/
theorem two_rows_of_one_time : ¬ ∀ (l : AdminList) (s : AdminTables Unit) (limit : ℕ), 1 ≤ limit →
    (l.query s).Accepted →
    Sql.Partitions ((l.query s).Answers limit) limit (l.query s).matching := by
  intro hall
  have hpartitions := hall (.auditLogs none none none) (twoRows 0 0) 1 (le_refl 1)
    fun _ h => absurd h List.not_mem_nil
  have hnodup := (AdminList.auditLogs none none none).matching_nodup (twoRows 0 0)
  refine ((ListQuery.partitions_iff (le_refl 1) hnodup).1 hpartitions).2 ⟨1, loggedAt ⟨1⟩ 0, ?_⟩
  exact ⟨List.mem_cons_self, by decide, by decide⟩

end CopyTrade
