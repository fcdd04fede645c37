/-
Lineages: what a table of report executions looks like.

A run of a report is a lineage: the rows of one correlation id, one for each
attempt. The invariant says that the attempts of a lineage count up from one, that
the rows before the last are `RETRYING` and no other row is, and that every later
row points to the one it retries ([`WellFormed`]). There are two ways in which
requests change the table. They edit rows, or they append one
([`WellFormed.edit`], [`WellFormed.append`]). What a reader of the table relies on
follows from the invariant alone ([`WellFormed.lifecycle`]).
-/
import PaCopilot.Reports.Executions

set_option autoImplicit false

namespace PaCopilot.reports

/-! ## Lineages -/

/-- The attempts at one run of a report, in the order in which they were made. -/
def lineage (rows : List ReportExecution) (correlation_id : ℕ) : List ReportExecution :=
  rows.filter fun r => r.correlation_id = correlation_id

/-- One row is the attempt after another. -/
structure Retries (r c : ReportExecution) : Prop where
  parent_execution_id : c.parent_execution_id = some r.id
  correlation_id : c.correlation_id = r.correlation_id
  attempt : c.attempt = r.attempt + 1
  max_attempts : c.max_attempts = r.max_attempts
  idempotency_key : c.idempotency_key = retryKey r

/-- The children of a row under its derived key. -/
def children (rows : List ReportExecution) (r : ReportExecution) : List ReportExecution :=
  rows.filter fun c => c.parent_execution_id = some r.id && c.attempt = r.attempt + 1
    && c.idempotency_key = retryKey r

/-- The table is one of lineages. -/
structure WellFormed (store : Executions) : Prop where
  timed : ∀ r ∈ store.rows, Timed r
  attempts : ∀ c, (lineage store.rows c).map ReportExecution.attempt
    = List.range' 1 (lineage store.rows c).length
  replaced : ∀ r ∈ store.rows,
    r.status = .RETRYING ↔ r.attempt < (lineage store.rows r.correlation_id).length
  parent : ∀ c ∈ store.rows, ∀ p, c.parent_execution_id = some p → ∃ r ∈ store.rows, Retries r c
  later : ∀ c ∈ store.rows, 1 < c.attempt → ∃ p, c.parent_execution_id = some p
  bounded : ∀ r ∈ store.rows, r.attempt ≤ r.max_attempts
  same_max : ∀ r ∈ store.rows, ∀ q ∈ store.rows, r.correlation_id = q.correlation_id →
    r.max_attempts = q.max_attempts
  drawn : ∀ r ∈ store.rows, r.correlation_id < store.next

section Lineage

variable {rows : List ReportExecution} {r c : ReportExecution} {k : ℕ}

theorem mem_lineage : r ∈ lineage rows k ↔ r ∈ rows ∧ r.correlation_id = k := by
  rw [lineage, List.mem_filter, decide_eq_true_eq]

/-- Rows that stay the same executions stay in their lineages. -/
theorem lineage_map {f : ReportExecution → ReportExecution} (hf : ∀ r, Same r (f r)) :
    lineage (rows.map f) k = (lineage rows k).map f := by
  rw [lineage, List.filter_map, lineage]
  congr 1
  apply List.filter_congr
  intro r _
  rw [Function.comp_apply, (hf r).correlation_id]

theorem lineage_append :
    lineage (rows ++ [c]) k = lineage rows k ++ if c.correlation_id = k then [c] else [] := by
  rw [lineage, List.filter_append, lineage, List.filter_cons, List.filter_nil]
  by_cases h : c.correlation_id = k
  · rw [if_pos (decide_eq_true h), if_pos h]
  · rw [if_neg (by simpa using h), if_neg h]

/-- The attempts of rows that stay the same executions. -/
theorem map_attempt {f : ReportExecution → ReportExecution} (hf : ∀ r, Same r (f r))
    (l : List ReportExecution) :
    (l.map f).map ReportExecution.attempt = l.map ReportExecution.attempt := by
  rw [List.map_map]
  apply List.map_congr_left
  intro r _
  exact (hf r).attempt

/-- The attempt of an execution at a later time is the attempt after it still. -/
theorem Retries.same {r' c' : ReportExecution} (h : Retries r c) (hr : Same r r')
    (hc : Same c c') : Retries r' c' where
  parent_execution_id := by rw [hc.parent_execution_id, hr.id, h.parent_execution_id]
  correlation_id := by rw [hc.correlation_id, hr.correlation_id, h.correlation_id]
  attempt := by rw [hc.attempt, hr.attempt, h.attempt]
  max_attempts := by rw [hc.max_attempts, hr.max_attempts, h.max_attempts]
  idempotency_key := by
    rw [hc.idempotency_key, h.idempotency_key, retryKey, retryKey, hr.idempotency_key, hr.attempt]

end Lineage

section WellFormed

variable {store store' : Executions} {r q c : ReportExecution}

/-- An attempt is one of the attempts of its lineage. -/
theorem WellFormed.attempt_mem (h : WellFormed store) (hr : r ∈ store.rows) :
    1 ≤ r.attempt ∧ r.attempt ≤ (lineage store.rows r.correlation_id).length := by
  have hmem : r.attempt ∈ (lineage store.rows r.correlation_id).map ReportExecution.attempt :=
    List.mem_map_of_mem (mem_lineage.mpr ⟨hr, rfl⟩)
  rw [h.attempts, List.mem_range'_1] at hmem
  omega

/-- A lineage has one row for each attempt. -/
theorem WellFormed.eq_of_attempt (h : WellFormed store) (hr : r ∈ store.rows)
    (hq : q ∈ store.rows) (hlineage : q.correlation_id = r.correlation_id)
    (hattempt : q.attempt = r.attempt) : q = r := by
  have hnodup : ((lineage store.rows r.correlation_id).map ReportExecution.attempt).Nodup := by
    rw [h.attempts]
    exact List.nodup_range'
  exact List.inj_on_of_nodup_map hnodup (mem_lineage.mpr ⟨hq, hlineage⟩)
    (mem_lineage.mpr ⟨hr, rfl⟩) hattempt

/-- A row that is not `RETRYING` is the last attempt of its lineage. -/
theorem WellFormed.last (h : WellFormed store) (hr : r ∈ store.rows)
    (hstatus : r.status ≠ .RETRYING) : r.attempt = (lineage store.rows r.correlation_id).length := by
  have hle := (h.attempt_mem hr).2
  have hnot := mt (h.replaced r hr).mpr hstatus
  omega

/-- Nothing retries a row that is not `RETRYING`. -/
theorem WellFormed.no_retry (h : WellFormed store) (hr : r ∈ store.rows)
    (hstatus : r.status ≠ .RETRYING) : ∀ c ∈ store.rows, c.parent_execution_id ≠ some r.id := by
  intro c hc hparent
  obtain ⟨q, hq, hretries⟩ := h.parent c hc r.id hparent
  have hid : r.id = q.id := by
    have hsame := hretries.parent_execution_id
    rw [hparent, Option.some.injEq] at hsame
    exact hsame
  rw [← store.eq_of_id hr hq hid] at hretries
  have hle := (h.attempt_mem hc).2
  rw [hretries.correlation_id, hretries.attempt, ← h.last hr hstatus] at hle
  exact Nat.not_succ_le_self _ hle

/-- Rows may change as long as they stay the same executions, their columns agree,
and none becomes `RETRYING` or ceases to be. -/
theorem WellFormed.edit (h : WellFormed store) {f : ReportExecution → ReportExecution}
    (hf : ∀ r, Same r (f r)) (htimed : ∀ r ∈ store.rows, Timed (f r))
    (hretrying : ∀ r ∈ store.rows, (f r).status = .RETRYING ↔ r.status = .RETRYING) :
    WellFormed (store.edit f hf) := by
  -- no lineage gets longer or shorter, and all else is said of columns that stay
  have hlength : ∀ k, (lineage (store.edit f hf).rows k).length = (lineage store.rows k).length := by
    intro k
    rw [Executions.edit_rows, lineage_map hf, List.length_map]
  constructor
  case timed =>
    intro r' hr'
    obtain ⟨r, hr, rfl⟩ := List.mem_map.mp hr'
    exact htimed r hr
  case attempts =>
    intro k
    rw [hlength, Executions.edit_rows, lineage_map hf, map_attempt hf, h.attempts]
  case replaced =>
    intro r' hr'
    obtain ⟨r, hr, rfl⟩ := List.mem_map.mp hr'
    rw [hretrying r hr, (hf r).attempt, (hf r).correlation_id, hlength]
    exact h.replaced r hr
  case parent =>
    intro c' hc' p hp
    obtain ⟨c, hc, rfl⟩ := List.mem_map.mp hc'
    rw [(hf c).parent_execution_id] at hp
    obtain ⟨r, hr, hretries⟩ := h.parent c hc p hp
    exact ⟨f r, List.mem_map_of_mem hr, hretries.same (hf r) (hf c)⟩
  case later =>
    intro c' hc' hlater
    obtain ⟨c, hc, rfl⟩ := List.mem_map.mp hc'
    rw [(hf c).attempt] at hlater
    rw [(hf c).parent_execution_id]
    exact h.later c hc hlater
  case bounded =>
    intro r' hr'
    obtain ⟨r, hr, rfl⟩ := List.mem_map.mp hr'
    rw [(hf r).attempt, (hf r).max_attempts]
    exact h.bounded r hr
  case same_max =>
    intro r' hr' q' hq' hsame
    obtain ⟨r, hr, rfl⟩ := List.mem_map.mp hr'
    obtain ⟨q, hq, rfl⟩ := List.mem_map.mp hq'
    rw [(hf r).correlation_id, (hf q).correlation_id] at hsame
    rw [(hf r).max_attempts, (hf q).max_attempts]
    exact h.same_max r hr q hq hsame
  case drawn =>
    intro r' hr'
    obtain ⟨r, hr, rfl⟩ := List.mem_map.mp hr'
    rw [(hf r).correlation_id]
    exact h.drawn r hr

/-- A row that may be appended: the next attempt of its lineage. -/
structure Appendable (store : Executions) (c : ReportExecution) : Prop where
  timed : Timed c
  attempt : c.attempt = (lineage store.rows c.correlation_id).length + 1
  status : c.status ≠ .RETRYING
  parent : ∀ p, c.parent_execution_id = some p → ∃ r ∈ store.rows, Retries r c
  later : 1 < c.attempt → ∃ p, c.parent_execution_id = some p
  bounded : c.attempt ≤ c.max_attempts
  same_max : ∀ r ∈ store.rows, r.correlation_id = c.correlation_id →
    r.max_attempts = c.max_attempts

/-- A row may be appended when the others of its lineage become `RETRYING` with it. -/
theorem WellFormed.append (h : WellFormed store) (hc : Appendable store c)
    {f : ReportExecution → ReportExecution} (hf : ∀ r, Same r (f r))
    (hrows : store'.rows = store.rows.map f ++ [c]) (hnext : store.next ≤ store'.next)
    (hdrawn : c.correlation_id < store'.next) (htimed : ∀ r ∈ store.rows, Timed (f r))
    (hretrying : ∀ r ∈ store.rows, (f r).status = .RETRYING ↔
      (r.status = .RETRYING ∨ r.correlation_id = c.correlation_id)) :
    WellFormed store' := by
  -- only the lineage of the new row grows
  have hlineage : ∀ k, lineage store'.rows k = (lineage store.rows k).map f
      ++ if c.correlation_id = k then [c] else [] := by
    intro k
    rw [hrows, lineage_append, lineage_map hf]
  have hself : (lineage store'.rows c.correlation_id).length
      = (lineage store.rows c.correlation_id).length + 1 := by
    rw [hlineage, if_pos rfl, List.length_append, List.length_map, List.length_singleton]
  have hother : ∀ k, c.correlation_id ≠ k →
      lineage store'.rows k = (lineage store.rows k).map f := by
    intro k hk
    rw [hlineage, if_neg hk, List.append_nil]
  have hmem : ∀ r', r' ∈ store'.rows ↔ (∃ r ∈ store.rows, f r = r') ∨ r' = c := by
    intro r'
    rw [hrows, List.mem_append, List.mem_map, List.mem_singleton]
  constructor
  case timed =>
    intro r' hr'
    rcases (hmem r').mp hr' with ⟨r, hr, rfl⟩ | rfl
    · exact htimed r hr
    · exact hc.timed
  case attempts =>
    intro k
    by_cases hk : c.correlation_id = k
    · subst hk
      -- the new row is the attempt after the last one
      rw [hself, hlineage, if_pos rfl, List.map_append, map_attempt hf, h.attempts, List.map_cons,
        List.map_nil, hc.attempt, List.range'_concat]
      congr 2
      omega
    · rw [hother k hk, List.length_map, map_attempt hf, h.attempts]
  case replaced =>
    intro r' hr'
    rcases (hmem r').mp hr' with ⟨r, hr, rfl⟩ | rfl
    -- a row of the same lineage is no longer the last one, and is marked for it
    · rw [hretrying r hr, (hf r).attempt, (hf r).correlation_id]
      by_cases hk : c.correlation_id = r.correlation_id
      · have hle := (h.attempt_mem hr).2
        rw [← hk] at hle ⊢
        rw [hself]
        exact iff_of_true (.inr rfl) (by omega)
      · rw [hother _ hk, List.length_map, ← h.replaced r hr]
        exact or_iff_left fun heq => hk heq.symm
    · rw [hself, hc.attempt]
      exact iff_of_false hc.status (by omega)
  case parent =>
    intro c' hc' p hp
    rcases (hmem c').mp hc' with ⟨q, hq, rfl⟩ | rfl
    · rw [(hf q).parent_execution_id] at hp
      obtain ⟨r, hr, hretries⟩ := h.parent q hq p hp
      exact ⟨f r, (hmem _).mpr (.inl ⟨r, hr, rfl⟩), hretries.same (hf r) (hf q)⟩
    · obtain ⟨r, hr, hretries⟩ := hc.parent p hp
      exact ⟨f r, (hmem _).mpr (.inl ⟨r, hr, rfl⟩), hretries.same (hf r) (Same.refl _)⟩
  case later =>
    intro c' hc' hlater
    rcases (hmem c').mp hc' with ⟨q, hq, rfl⟩ | rfl
    · rw [(hf q).attempt] at hlater
      rw [(hf q).parent_execution_id]
      exact h.later q hq hlater
    · exact hc.later hlater
  case bounded =>
    intro r' hr'
    rcases (hmem r').mp hr' with ⟨r, hr, rfl⟩ | rfl
    · rw [(hf r).attempt, (hf r).max_attempts]
      exact h.bounded r hr
    · exact hc.bounded
  case same_max =>
    intro r' hr' q' hq' hsame
    -- both may be old rows, or one of them the new one
    rcases (hmem r').mp hr' with ⟨r, hr, rfl⟩ | rfl <;>
      rcases (hmem q').mp hq' with ⟨q, hq, rfl⟩ | rfl
    · rw [(hf r).correlation_id, (hf q).correlation_id] at hsame
      rw [(hf r).max_attempts, (hf q).max_attempts]
      exact h.same_max r hr q hq hsame
    · rw [(hf r).correlation_id] at hsame
      rw [(hf r).max_attempts]
      exact hc.same_max r hr hsame
    · rw [(hf q).correlation_id] at hsame
      rw [(hf q).max_attempts]
      exact (hc.same_max q hq hsame.symm).symm
    · rfl
  case drawn =>
    intro r' hr'
    rcases (hmem r').mp hr' with ⟨r, hr, rfl⟩ | rfl
    · rw [(hf r).correlation_id]
      exact Nat.lt_of_lt_of_le (h.drawn r hr) hnext
    · exact hdrawn

end WellFormed

/-! ## The lifecycle -/

/-- What a reader of the table relies on. -/
structure Lifecycle (store : Executions) : Prop where
  /-- a lease is held exactly while the execution is with a worker -/
  lease : ∀ r ∈ store.rows,
    r.lease_expires_at.isSome = true ↔ r.status = .ASSIGNED ∨ r.status = .RUNNING
  /-- and the time of completion is known exactly when it is over -/
  completed : ∀ r ∈ store.rows, r.completed_at.isSome = true ↔ r.status.terminal = true
  /-- the attempts of a lineage count up from one -/
  attempts : ∀ c, (lineage store.rows c).map ReportExecution.attempt
    = List.range' 1 (lineage store.rows c).length
  /-- to no more than each of them allows -/
  cap : ∀ r ∈ store.rows, (lineage store.rows r.correlation_id).length ≤ r.max_attempts
  /-- and at most one of them is not over -/
  one_open : ∀ c, ((lineage store.rows c).filter fun r => !r.status.terminal).length ≤ 1
  /-- a row is `RETRYING` exactly when it has its one retry -/
  retrying : ∀ r ∈ store.rows, r.status = .RETRYING ↔ (children store.rows r).length = 1

section Lifecycle

variable {store : Executions} {r c : ReportExecution}

theorem leased_iff {status : ExecutionStatus} :
    status.leased = true ↔ status = .ASSIGNED ∨ status = .RUNNING := by
  rw [ExecutionStatus.leased, Bool.or_eq_true, decide_eq_true_eq, decide_eq_true_eq]

/-- The rows of a lineage that are not over are its last one. -/
theorem WellFormed.one_open (h : WellFormed store) (k : ℕ) :
    ((lineage store.rows k).filter fun r => !r.status.terminal).length ≤ 1 := by
  have hnodup : ((lineage store.rows k).filter fun r => !r.status.terminal).Nodup := by
    have hattempts : ((lineage store.rows k).map ReportExecution.attempt).Nodup := by
      rw [h.attempts]
      exact List.nodup_range'
    exact (List.Nodup.of_map _ hattempts).filter _
  rw [Table.length_le_one_iff hnodup]
  intro r hr q hq
  rw [List.mem_filter, mem_lineage, Bool.not_eq_true'] at hr hq
  obtain ⟨⟨hr, hrk⟩, hropen⟩ := hr
  obtain ⟨⟨hq, hqk⟩, hqopen⟩ := hq
  have hrlast := h.last hr fun heq => by rw [heq] at hropen; cases hropen
  have hqlast := h.last hq fun heq => by rw [heq] at hqopen; cases hqopen
  apply h.eq_of_attempt hq hr (hrk.trans hqk.symm)
  rw [hrlast, hqlast, hrk, hqk]

/-- A child of a row is the next attempt of its lineage. -/
theorem WellFormed.retries_of_child (h : WellFormed store) (hr : r ∈ store.rows)
    (hc : c ∈ children store.rows r) : c ∈ store.rows ∧ Retries r c := by
  rw [children, List.mem_filter] at hc
  simp only [Bool.and_eq_true, decide_eq_true_eq] at hc
  obtain ⟨hmem, ⟨hparent, -⟩, -⟩ := hc
  obtain ⟨q, hq, hretries⟩ := h.parent c hmem _ hparent
  have hid : r.id = q.id := by
    have hsame := hretries.parent_execution_id
    rw [hparent, Option.some.injEq] at hsame
    exact hsame
  rw [← store.eq_of_id hr hq hid] at hretries
  exact ⟨hmem, hretries⟩

theorem mem_children (hc : c ∈ store.rows) (h : Retries r c) : c ∈ children store.rows r := by
  rw [children, List.mem_filter]
  simp only [Bool.and_eq_true, decide_eq_true_eq]
  exact ⟨hc, ⟨h.parent_execution_id, h.attempt⟩, h.idempotency_key⟩

/-- A row that is `RETRYING` has the next attempt for a child, and no other row has a
child. -/
theorem WellFormed.retrying_iff (h : WellFormed store) (hr : r ∈ store.rows) :
    r.status = .RETRYING ↔ (children store.rows r).length = 1 := by
  constructor
  · intro hretrying
    have hlt := (h.replaced r hr).mp hretrying
    -- the attempt after `r` is in the lineage
    have hmem : r.attempt + 1 ∈ (lineage store.rows r.correlation_id).map
        ReportExecution.attempt := by
      rw [h.attempts, List.mem_range'_1]
      omega
    obtain ⟨c, hc, hattempt⟩ := List.mem_map.mp hmem
    obtain ⟨hcrow, hclineage⟩ := mem_lineage.mp hc
    have hpos := (h.attempt_mem hr).1
    obtain ⟨p, hp⟩ := h.later c hcrow (by omega)
    obtain ⟨q, hq, hretries⟩ := h.parent c hcrow p hp
    -- and the row it retries is the one before it, which is `r`
    have hqr : q = r := by
      apply h.eq_of_attempt hr hq (hretries.correlation_id.symm.trans hclineage)
      have hnext := hretries.attempt
      omega
    rw [hqr] at hretries
    have hchild := mem_children hcrow hretries
    have hnodup : (children store.rows r).Nodup :=
      (store.ids.nodup fun _ _ => rfl).filter _
    have hle : (children store.rows r).length ≤ 1 := by
      rw [Table.length_le_one_iff hnodup]
      intro x hx y hy
      obtain ⟨hxrow, hxr⟩ := h.retries_of_child hr hx
      obtain ⟨hyrow, hyr⟩ := h.retries_of_child hr hy
      apply h.eq_of_attempt hyrow hxrow (hxr.correlation_id.trans hyr.correlation_id.symm)
      rw [hxr.attempt, hyr.attempt]
    have hpos := List.length_pos_of_mem hchild
    omega
  · intro hone
    obtain ⟨c, hc⟩ := List.exists_mem_of_length_pos (by omega : 0 < (children store.rows r).length)
    obtain ⟨hcrow, hretries⟩ := h.retries_of_child hr hc
    rw [h.replaced r hr]
    have hle := (h.attempt_mem hcrow).2
    rw [hretries.attempt, hretries.correlation_id] at hle
    omega

/-- The last attempt of a lineage is within the limit that all its rows share. -/
theorem WellFormed.cap (h : WellFormed store) (hr : r ∈ store.rows) :
    (lineage store.rows r.correlation_id).length ≤ r.max_attempts := by
  have hpos := h.attempt_mem hr
  have hmem : (lineage store.rows r.correlation_id).length
      ∈ (lineage store.rows r.correlation_id).map ReportExecution.attempt := by
    rw [h.attempts, List.mem_range'_1]
    omega
  obtain ⟨q, hq, hlast⟩ := List.mem_map.mp hmem
  obtain ⟨hqrow, hqlineage⟩ := mem_lineage.mp hq
  rw [← hlast, h.same_max r hr q hqrow hqlineage.symm]
  exact h.bounded q hqrow

theorem WellFormed.lifecycle (h : WellFormed store) : Lifecycle store where
  lease r hr := by rw [(h.timed r hr).lease, leased_iff]
  completed r hr := by rw [(h.timed r hr).completed]
  attempts := h.attempts
  cap r hr := h.cap hr
  one_open := h.one_open
  retrying r hr := h.retrying_iff hr

end Lifecycle

end PaCopilot.reports
