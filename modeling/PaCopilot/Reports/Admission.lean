/-
What `enqueue` admits, and what `claim_next` hands out.

`_assert_a_worker_could_run_this` asks in Python whether some worker could run a
report, and the repository's `claim_next` asks it again in SQL of the worker that
polls. They meet in one predicate on a worker and a report ([`Serves`]): the
admission is that some schedulable worker of the organization has it
([`assert_ok_iff`]), and a poll that finds nothing else in the queue hands the
execution out exactly to a worker that has it ([`claim_alone`]).

The formats of a report are the ones `report_service` stores, which come out of
`validate_output_formats`: the admission skips a text that is no format, the claim
would never match it.
-/
import PaCopilot.Reports.Artifacts
import PaCopilot.Reports.Lifecycle
import PaCopilot.Reports.Rows

set_option autoImplicit false

namespace PaCopilot.reports

/-! ## `validate_output_formats` -/

/-- The loop of `validate_output_formats`, over the formats it has found. -/
def collectFormats : List String → List OutputFormat → Except AppException (List OutputFormat)
  | [], formats => .ok formats
  | value :: values, formats =>
    match OutputFormat.ofText value with
    | none => .error (ValidationException s!"Unknown output format: {value}")
    | some output_format =>
      collectFormats values
        (if output_format ∈ formats then formats else formats ++ [output_format])

def validate_output_formats (values : List String) : Except AppException (List OutputFormat) :=
  if values = [] then .error (ValidationException "At least one output format is required.")
  else collectFormats values []

/-- A report as `report_service` stores it. -/
def ReportDefinition.Validated (report : ReportDefinition) : Prop :=
  ∃ values formats, validate_output_formats values = .ok formats ∧
    report.output_formats = formats.map OutputFormat.value

/-! ## The worker a report asks for -/

/-- The worker has the report's pin and its required capabilities. -/
def Serves (worker : ReportWorker) (report : ReportDefinition) : Prop :=
  (∀ worker_id ∈ report.worker_id, worker_id = worker.id) ∧
    required_capabilities report ⊆ worker_service.capabilities_of worker

/-- What the claim asks of the capabilities: the two that every job needs, and a
format's for each format. -/
def supported_formats (capabilities : List WorkerCapability) : List String :=
  (FORMAT_CAPABILITY.filter fun entry => entry.2 ∈ capabilities).map Prod.fst

/-- A format is supported when its capability is there. -/
theorem supported_iff (format : OutputFormat) (capabilities : List WorkerCapability) :
    format.value ∈ supported_formats capabilities ↔
      ∀ c ∈ List.lookup format.value FORMAT_CAPABILITY, c ∈ capabilities := by
  have hmem : format.value ∈ supported_formats capabilities ↔
      ∃ c ∈ capabilities, (format.value, c) ∈ FORMAT_CAPABILITY := by
    simp only [supported_formats, List.mem_map, List.mem_filter, decide_eq_true_eq]
    constructor
    · rintro ⟨⟨value, c⟩, ⟨hentry, hc⟩, rfl⟩
      exact ⟨c, hc, hentry⟩
    · rintro ⟨c, hc, hentry⟩
      exact ⟨(format.value, c), ⟨hentry, hc⟩, rfl⟩
  -- a format has one entry, which is what the lookup finds
  obtain ⟨c, hlookup, hentry⟩ : ∃ c, List.lookup format.value FORMAT_CAPABILITY = some c ∧
      ∀ c', (format.value, c') ∈ FORMAT_CAPABILITY ↔ c' = c := by
    cases format with
    | XLSX => exact ⟨.XLSX_EXPORT, rfl, by simp [FORMAT_CAPABILITY, OutputFormat.value]⟩
    | PDF => exact ⟨.PDF_EXPORT, rfl, by simp [FORMAT_CAPABILITY, OutputFormat.value]⟩
    | CSV => exact ⟨.CSV_EXPORT, rfl, by simp [FORMAT_CAPABILITY, OutputFormat.value]⟩
  rw [hmem, hlookup]
  simp only [hentry, exists_eq_right, Option.mem_some_iff, forall_eq']

/-- **The two ways to ask for the capabilities agree**, over known formats. -/
theorem required_subset_iff {report : ReportDefinition} (hreport : report.Validated)
    (capabilities : List WorkerCapability) :
    required_capabilities report ⊆ capabilities ↔
      [WorkerCapability.EXCEL, .PAFE_AUTOMATION] ⊆ capabilities ∧
        ∀ format ∈ report.output_formats, format ∈ supported_formats capabilities := by
  obtain ⟨values, formats, -, hformats⟩ := hreport
  rw [required_capabilities, List.append_subset, hformats]
  apply and_congr_right
  intro _
  simp only [List.subset_def, List.mem_filterMap, List.mem_map]
  constructor
  · rintro hall value ⟨format, hformat, rfl⟩
    rw [supported_iff]
    intro c hc
    exact hall ⟨format.value, ⟨format, hformat, rfl⟩, hc⟩
  · rintro hall c ⟨value, ⟨format, hformat, rfl⟩, hc⟩
    have hsupported := hall format.value ⟨format, hformat, rfl⟩
    rw [supported_iff] at hsupported
    exact hsupported c hc

/-! ## The admission -/

section Admission

variable {settings : Settings} {m : Moment} {report : ReportDefinition}
  {workers : List ReportWorker} {organization_id : ℕ}

/-- **The admission check**: some schedulable worker of the organization serves the
report. -/
theorem assert_ok_iff (hids : (workers.map ReportWorker.id).Nodup) :
    _assert_a_worker_could_run_this report organization_id workers = .ok () ↔
      ∃ worker ∈ workers, worker.organization_id = organization_id ∧
        worker_service.is_schedulable worker = true ∧ Serves worker report := by
  unfold _assert_a_worker_could_run_this Serves
  rcases report.worker_id with _ | worker_id
  · -- no pin: any worker of the organization
    dsimp only
    constructor
    · intro hok
      split at hok
      · rename_i heligible
        obtain ⟨worker, hworker, hrequired⟩ := heligible
        rw [List.mem_filter, Bool.and_eq_true, decide_eq_true_eq] at hworker
        exact ⟨worker, hworker.1, hworker.2.1, hworker.2.2, by simp, hrequired⟩
      · split at hok <;> cases hok
    · rintro ⟨worker, hworker, horganization, hschedulable, -, hrequired⟩
      have hmem : worker ∈ workers.filter fun w =>
          w.organization_id = organization_id && worker_service.is_schedulable w := by
        rw [List.mem_filter, Bool.and_eq_true, decide_eq_true_eq]
        exact ⟨hworker, horganization, hschedulable⟩
      rw [if_pos ⟨worker, hmem, hrequired⟩]
  · -- a pin: the worker it names
    dsimp only
    rcases hfind : workers.find? fun w => w.id = worker_id with _ | worker
    · rw [hfind]
      refine iff_of_false (fun hok => by cases hok) ?_
      rintro ⟨worker, hworker, -, -, hpin, -⟩
      have hnone := List.find?_eq_none.mp hfind worker hworker
      exact hnone (decide_eq_true (hpin worker_id rfl).symm)
    · have hworker : worker ∈ workers := List.mem_of_find?_eq_some hfind
      have hid : worker.id = worker_id := by simpa using List.find?_some hfind
      rw [hfind]
      dsimp only
      rw [bind_eq_ok_iff]
      simp only [refuse_eq_ok_iff, not_or, not_not, Bool.not_eq_false]
      constructor
      · rintro ⟨-, ⟨horganization, hschedulable⟩, hrequired⟩
        refine ⟨worker, hworker, horganization, hschedulable, ?_, hrequired⟩
        intro pinned hpinned
        rw [hid]
        exact (Option.some.inj hpinned).symm
      · rintro ⟨other, hother, horganization, hschedulable, hpin, hrequired⟩
        have hsame : other = worker :=
          List.inj_on_of_nodup_map hids hother hworker (by rw [hid, hpin worker_id rfl])
        subst hsame
        exact ⟨(), ⟨horganization, hschedulable⟩, hrequired⟩

end Admission

/-! ## The poll -/

section Poll

variable (settings : Settings) (m : Moment) (report : ReportDefinition) (organization_id : ℕ)
  (trigger_type : TriggerType) (triggered_by : Option ℕ) (idempotency_key : String)
  (scheduled_for : Option Time)

/-- The row of `enqueue`, inserted. -/
def placed (store : Executions) : Except AppException (ReportExecution × Executions) :=
  store.uuid4.2.create (queued settings m report organization_id trigger_type triggered_by
    idempotency_key store.uuid4.1 scheduled_for)

/-- No execution of the organization waits in the queue, or is put back there by a poll:
a poll times out the leases that lapsed, and tries them again, before it reads the
queue. -/
structure NothingElseQueued (now : Time) (store : Executions) : Prop where
  queued : ∀ r ∈ store.rows, r.organization_id = organization_id → r.status ≠ .QUEUED
  lapsed : ∀ r ∈ store.rows, r.organization_id = organization_id → r.status.leased = true →
    ∀ t ∈ r.lease_expires_at, now ≤ t

/-- The worker would be handed the execution: inserted into a table whose queue is empty,
it is what every poll of the worker gets, from the moment it is queued until it is given
up as never claimed. -/
def Handed (worker : ReportWorker) (reports : List ReportDefinition) (store : Executions) : Prop :=
  ∃ e stored, placed settings m report organization_id trigger_type triggered_by idempotency_key
      scheduled_for store = .ok (e, stored) ∧
    ∀ poll : Moment, m.now ≤ poll.now →
      poll.db_now ≤ m.now + seconds (timeout_for settings report) →
      NothingElseQueued organization_id poll.now store →
      ∃ handed after, claim_next settings poll worker reports stored = .ok (some handed, after) ∧
        handed.id = e.id ∧ handed.worker_id = some worker.id

variable {settings m report organization_id trigger_type triggered_by idempotency_key
  scheduled_for} {store stored : Executions} {e : ReportExecution}

/-- The row is the last one, under a fresh identifier. -/
theorem placed_ok (h : placed settings m report organization_id trigger_type triggered_by
      idempotency_key scheduled_for store = .ok (e, stored)) :
    e = { queued settings m report organization_id trigger_type triggered_by idempotency_key
        store.next scheduled_for with id := store.next + 1 } ∧
      stored.rows = store.rows ++ [e] := by
  obtain ⟨he, hrows, -⟩ := Executions.create_ok h
  exact ⟨he, hrows⟩

/-- The row can be inserted when its key is free and fits the column. -/
theorem placed_iff :
    (∃ e stored, placed settings m report organization_id trigger_type triggered_by
        idempotency_key scheduled_for store = .ok (e, stored)) ↔
      idempotency_key.length ≤ 200 ∧
        store.get_by_idempotency_key organization_id idempotency_key = none :=
  Executions.create_iff

/-- A new execution is enqueued when the report can run, the check passes, and its row
can be inserted. -/
theorem enqueue_created_iff {workers : List ReportWorker} :
    enqueue settings m report workers organization_id trigger_type triggered_by idempotency_key
        scheduled_for store = .ok ((e, true), stored) ↔
      report.status = .ACTIVE ∧ report.workbook_id ≠ none ∧
        _assert_a_worker_could_run_this report organization_id workers = .ok () ∧
        placed settings m report organization_id trigger_type triggered_by idempotency_key
          scheduled_for store = .ok (e, stored) := by
  unfold enqueue
  simp only [bind_eq_ok_iff, refuse_eq_ok_iff, not_not, exists_const]
  refine and_congr_right fun _ => and_congr_right fun _ => ?_
  constructor
  · intro h
    rcases hexisting : store.get_by_idempotency_key organization_id idempotency_key with _ | found
    · rw [hexisting] at h
      dsimp only at h
      rw [bind_eq_ok_iff] at h
      obtain ⟨_, hassert, h⟩ := h
      rw [bind_eq_ok_iff] at h
      obtain ⟨created, hcreate, h⟩ := h
      cases h
      exact ⟨hassert, hcreate⟩
    · rw [hexisting] at h
      cases h
  · rintro ⟨hassert, hplaced⟩
    rw [(placed_iff.mp ⟨e, stored, hplaced⟩).2]
    dsimp only
    rw [hassert]
    unfold placed at hplaced
    dsimp only [bind, Except.bind, pure, Except.pure]
    rw [hplaced]

theorem RowOrder.arrange_nil (order : RowOrder) : order.arrange [] = [] :=
  (order.perm []).eq_nil

theorem RowOrder.arrange_singleton (order : RowOrder) (r : ReportExecution) :
    order.arrange [r] = [r] :=
  (order.perm [r]).eq_singleton

/-- A sweep that finds nothing changes nothing. -/
theorem reap_nothing {organization : Option ℕ} {settings : Settings} {m : Moment}
    {store : Executions}
    (hexpired : ∀ r ∈ store.rows, organization.all (r.organization_id = ·) = true →
      r.status.leased = true → ∀ t ∈ r.lease_expires_at, m.now ≤ t)
    (hstale : ∀ r ∈ store.rows, organization.all (r.organization_id = ·) = true →
      r.status = .QUEUED → m.db_now ≤ r.queued_at + seconds r.timeout_seconds) :
    reap_stale_executions settings m organization store = .ok (0, store) := by
  have hnone : find_expired_leases m organization store = [] := by
    rw [find_expired_leases, List.filter_eq_nil_iff.mpr, RowOrder.arrange_nil, List.take_nil]
    intro r hr hwhere
    simp only [Bool.and_eq_true, Option.any_eq_true, decide_eq_true_eq] at hwhere
    obtain ⟨⟨hleased, t, ht, hlt⟩, horganization⟩ := hwhere
    exact absurd (hexpired r hr horganization hleased t ht) (Nat.not_le.mpr hlt)
  have hwaiting : find_stale_queued m organization store = [] := by
    rw [find_stale_queued, List.filter_eq_nil_iff.mpr, RowOrder.arrange_nil, List.take_nil]
    intro r hr hwhere
    simp only [Bool.and_eq_true, decide_eq_true_eq] at hwhere
    obtain ⟨⟨hqueued, hlt⟩, horganization⟩ := hwhere
    exact absurd (hstale r hr horganization hqueued) (Nat.not_le.mpr hlt)
  unfold reap_stale_executions
  simp only [hnone, reapExpired, bind, Except.bind, hwaiting, reapStale, pure, Except.pure,
    List.length_nil]

variable {poll : Moment} {worker : ReportWorker} {reports : List ReportDefinition}

/-- The candidates of a poll that finds nothing else in the queue. -/
theorem candidate_alone
    (hplaced : placed settings m report organization_id trigger_type triggered_by idempotency_key
      scheduled_for store = .ok (e, stored))
    (hempty : NothingElseQueued organization_id poll.now store) (hafter : m.now ≤ poll.now)
    (horganization : worker.organization_id = organization_id)
    (hmem : report ∈ reports) (hunique : ∀ other ∈ reports, other.id = report.id → other = report)
    (formats : List String) :
    claimCandidate poll worker formats reports stored =
      if (∀ worker_id ∈ report.worker_id, worker_id = worker.id) ∧
          ∀ format ∈ report.output_formats, format ∈ formats then some e else none := by
  obtain ⟨he, hrows⟩ := placed_ok hplaced
  -- no other row waits, so the query can find the new one alone
  have hothers : store.rows.filter (fun r => r.organization_id = worker.organization_id
      && r.status = .QUEUED && r.available_at ≤ poll.now
      && reports.any fun other => other.id = r.report_id
        && other.worker_id.all (· = worker.id) && other.output_formats.all (· ∈ formats)) = [] := by
    rw [List.filter_eq_nil_iff]
    intro r hr hwhere
    simp only [Bool.and_eq_true, decide_eq_true_eq] at hwhere
    exact hempty.queued r hr (hwhere.1.1.1.trans horganization) hwhere.1.1.2
  have hreport : (reports.any fun other => other.id = e.report_id
      && other.worker_id.all (· = worker.id) && other.output_formats.all (· ∈ formats)) = true ↔
      (∀ worker_id ∈ report.worker_id, worker_id = worker.id) ∧
        ∀ format ∈ report.output_formats, format ∈ formats := by
    have hid : e.report_id = report.id := by rw [he]; rfl
    simp only [List.any_eq_true, Bool.and_eq_true, decide_eq_true_eq, Option.all_eq_true,
      List.all_eq_true]
    constructor
    · rintro ⟨other, hother, ⟨hsame, hpin⟩, hformats⟩
      rw [hunique other hother (hsame.trans hid)] at hpin hformats
      exact ⟨hpin, hformats⟩
    · rintro ⟨hpin, hformats⟩
      exact ⟨report, hmem, ⟨hid.symm, hpin⟩, hformats⟩
  have hqueued : e.organization_id = worker.organization_id ∧ e.status = .QUEUED ∧
      e.available_at ≤ poll.now := by
    rw [he, horganization]
    exact ⟨rfl, rfl, hafter⟩
  unfold claimCandidate
  rw [hrows, List.filter_append, hothers, List.nil_append, List.filter_singleton]
  -- and finds it when the worker is one that may run its report
  by_cases hserves : (∀ worker_id ∈ report.worker_id, worker_id = worker.id) ∧
      ∀ format ∈ report.output_formats, format ∈ formats
  · rw [if_pos hserves, hreport.mpr hserves]
    simp [hqueued, RowOrder.arrange_singleton, oldest]
  · rw [if_neg hserves, Bool.eq_false_iff.mpr (mt hreport.mp hserves)]
    simp [RowOrder.arrange_nil, oldest]

/-- The row of a claim is read back as it was claimed. -/
theorem get_by_id_claimed (he : e ∈ stored.rows) :
    (stored.update e (claimed settings poll worker e)).get_by_id e.id
      = some (claimed settings poll worker e) := by
  have hmem : claimed settings poll worker e
      ∈ (stored.update e (claimed settings poll worker e)).rows :=
    mem_update_written he written_claimed
  rcases hget : (stored.update e (claimed settings poll worker e)).get_by_id e.id with _ | found
  · have hnone := List.find?_eq_none.mp hget _ hmem
    exact absurd (decide_eq_true rfl) hnone
  · have hid : found.id = (claimed settings poll worker e).id := Executions.get_by_id_id hget
    rw [Executions.eq_of_id (Executions.mem_of_get_by_id hget) hmem hid]

/-- **A poll that finds nothing else in the queue** hands the execution to the worker
exactly when the worker serves its report. -/
theorem claim_alone (hreport : report.Validated) (hmem : report ∈ reports)
    (hunique : ∀ other ∈ reports, other.id = report.id → other = report)
    (hplaced : placed settings m report organization_id trigger_type triggered_by idempotency_key
      scheduled_for store = .ok (e, stored))
    (horganization : worker.organization_id = organization_id)
    (hempty : NothingElseQueued organization_id poll.now store) (hafter : m.now ≤ poll.now)
    (hwaiting : poll.db_now ≤ m.now + seconds (timeout_for settings report)) :
    (Serves worker report → claim_next settings poll worker reports stored
      = .ok (some (claimed settings poll worker e),
          stored.update e (claimed settings poll worker e))) ∧
    (¬ Serves worker report → claim_next settings poll worker reports stored
      = .ok (none, stored)) := by
  obtain ⟨he, hrows⟩ := placed_ok hplaced
  have hlast : e ∈ stored.rows := by
    rw [hrows]
    exact List.mem_append_right _ (List.mem_singleton_self e)
  have hreap : reap_stale_executions settings poll (some worker.organization_id) stored
      = .ok (0, stored) := by
    apply reap_nothing
    all_goals
      intro r hr hsame
      rw [hrows, List.mem_append, List.mem_singleton] at hr
      simp only [Option.all_some, decide_eq_true_eq, horganization] at hsame
    · -- the new execution has no lease, the others' have not lapsed
      intro hleased
      rcases hr with hr | rfl
      · exact hempty.lapsed r hr hsame hleased
      · rw [he] at hleased
        cases hleased
    · -- the new execution is not late, the others are not in the queue
      intro hqueued
      rcases hr with hr | rfl
      · exact absurd hqueued (hempty.queued r hr hsame)
      · rw [he]
        exact hwaiting
  have hcandidate := candidate_alone hplaced hempty hafter horganization hmem hunique
    (supported_formats (worker_service.capabilities_of worker))
  have hrequired := required_subset_iff hreport (worker_service.capabilities_of worker)
  unfold claim_next Serves
  simp only [hreap, bind, Except.bind, pure, Except.pure]
  constructor
  · rintro ⟨hpin, hserves⟩
    rw [hrequired] at hserves
    rw [if_neg (not_not.mpr hserves.1)]
    rw [if_pos ⟨hpin, hserves.2⟩] at hcandidate
    unfold supported_formats at hcandidate
    rw [hcandidate]
    dsimp only
    rw [get_by_id_claimed hlast]
  · intro hserves
    by_cases hcapable : [WorkerCapability.EXCEL, .PAFE_AUTOMATION]
        ⊆ worker_service.capabilities_of worker
    · rw [if_neg (not_not.mpr hcapable)]
      rw [if_neg] at hcandidate
      · unfold supported_formats at hcandidate
        rw [hcandidate]
      · rintro ⟨hpin, hformats⟩
        exact hserves ⟨hpin, hrequired.mpr ⟨hcapable, hformats⟩⟩
    · rw [if_pos hcapable]

/-- Who would be handed the execution: who serves the report, where the row can be
inserted. -/
theorem handed_iff (hreport : report.Validated) (hmem : report ∈ reports)
    (hunique : ∀ other ∈ reports, other.id = report.id → other = report)
    (hempty : NothingElseQueued organization_id m.now store)
    (horganization : worker.organization_id = organization_id) :
    Handed settings m report organization_id trigger_type triggered_by idempotency_key
        scheduled_for worker reports store ↔
      Serves worker report ∧ idempotency_key.length ≤ 200 ∧
        store.get_by_idempotency_key organization_id idempotency_key = none := by
  rw [← placed_iff]
  constructor
  · rintro ⟨e, stored, hplaced, hpolls⟩
    refine ⟨?_, e, stored, hplaced⟩
    by_contra hserves
    -- the poll of the moment in which the execution is queued
    obtain ⟨poll, hnow, hdb_now⟩ : ∃ poll : Moment, poll.now = m.now ∧ poll.db_now = m.now :=
      ⟨⟨m.now, m.now, m.order⟩, rfl, rfl⟩
    have hafter : m.now ≤ poll.now := Nat.le_of_eq hnow.symm
    have hwaiting : poll.db_now ≤ m.now + seconds (timeout_for settings report) :=
      Nat.le_trans (Nat.le_of_eq hdb_now) (Nat.le_add_right _ _)
    rw [← hnow] at hempty
    obtain ⟨handed, after, hclaim, -⟩ := hpolls poll hafter hwaiting hempty
    have hnone := (claim_alone hreport hmem hunique hplaced horganization hempty hafter
      hwaiting).2 hserves
    rw [hnone] at hclaim
    cases hclaim
  · intro ⟨hserves, e, stored, hplaced⟩
    refine ⟨e, stored, hplaced, ?_⟩
    intro poll hafter hwaiting hnothing
    have hclaim := (claim_alone hreport hmem hunique hplaced horganization hnothing hafter
      hwaiting).1 hserves
    exact ⟨_, _, hclaim, rfl, rfl⟩

/-- **Enqueue agrees with claim**: an execution of a report that can run is admitted
exactly when some schedulable worker of the organization, one that has the report's pin
and its required capabilities, would be handed it by `claim_next`. -/
theorem enqueue_admits_iff {workers : List ReportWorker}
    (hids : (workers.map ReportWorker.id).Nodup) (hreport : report.Validated)
    (hmem : report ∈ reports) (hunique : ∀ other ∈ reports, other.id = report.id → other = report)
    (hempty : NothingElseQueued organization_id m.now store) :
    (∃ e stored, enqueue settings m report workers organization_id trigger_type triggered_by
        idempotency_key scheduled_for store = .ok ((e, true), stored)) ↔
      report.status = .ACTIVE ∧ report.workbook_id ≠ none ∧
        ∃ worker ∈ workers, worker.organization_id = organization_id ∧
          worker_service.is_schedulable worker = true ∧ Serves worker report ∧
          Handed settings m report organization_id trigger_type triggered_by idempotency_key
            scheduled_for worker reports store := by
  simp only [enqueue_created_iff, assert_ok_iff hids]
  constructor
  · rintro ⟨e, stored, hactive, hworkbook, hworker, hplaced⟩
    obtain ⟨worker, hworker, horganization, hschedulable, hserves⟩ := hworker
    refine ⟨hactive, hworkbook, worker, hworker, horganization, hschedulable, hserves, ?_⟩
    rw [handed_iff hreport hmem hunique hempty horganization]
    exact ⟨hserves, placed_iff.mp ⟨e, stored, hplaced⟩⟩
  · rintro ⟨hactive, hworkbook, worker, hworker, horganization, hschedulable, hserves, hhanded⟩
    obtain ⟨e, stored, hplaced, -⟩ := hhanded
    exact ⟨e, stored, hactive, hworkbook,
      ⟨worker, hworker, horganization, hschedulable, hserves⟩, hplaced⟩

end Poll

/-! ## A report with one worker -/

/-- Nothing waits in a table without executions. -/
theorem empty_nothingElseQueued (organization_id : ℕ) (now : Time) :
    NothingElseQueued organization_id now Executions.empty :=
  ⟨fun _ hr => absurd hr List.not_mem_nil, fun _ hr => absurd hr List.not_mem_nil⟩

/-- Without other reports and executions, a worker that serves a report would be handed
its first execution. -/
theorem handed_first {settings : Settings} {m : Moment} {report : ReportDefinition}
    {worker : ReportWorker} {trigger_type : TriggerType} {triggered_by : Option ℕ} {key : String}
    {scheduled_for : Option Time} (hreport : report.Validated) (hserves : Serves worker report)
    (hkey : key.length ≤ 200) :
    Handed settings m report worker.organization_id trigger_type triggered_by key scheduled_for
      worker [report] Executions.empty := by
  have hunique : ∀ other ∈ [report], other.id = report.id → other = report := by
    intro other hother _
    exact List.mem_singleton.mp hother
  rw [handed_iff hreport (List.mem_singleton_self report) hunique
    (empty_nothingElseQueued worker.organization_id m.now) rfl]
  exact ⟨hserves, hkey, rfl⟩

/-- The report of the example is admitted for the worker of its organization. -/
theorem salesReport_admitted :
    ∃ e stored, enqueue defaultSettings (at_ 0) salesReport [ableWorker] 1 .MANUAL (some 7)
      "manual:1:7:20260101T0000" none Executions.empty = .ok ((e, true), stored) := by
  have hreport : salesReport.Validated := ⟨["xlsx"], [.XLSX], by decide, rfl⟩
  have hserves : Serves ableWorker salesReport := ⟨by decide, by decide⟩
  have hunique : ∀ other ∈ [salesReport], other.id = salesReport.id → other = salesReport := by
    decide
  exact (enqueue_admits_iff (by decide) hreport (List.mem_singleton_self salesReport) hunique
    (empty_nothingElseQueued 1 _)).mpr ⟨rfl, by decide, ableWorker, List.mem_singleton_self _, rfl,
      rfl, hserves, handed_first hreport hserves (by decide)⟩

def pausedReport : ReportDefinition := { salesReport with status := .PAUSED }

/-- A paused report is refused, whoever would be handed its execution: `claim_next` does
not look at the status of a report. -/
theorem pausedReport_not_admitted :
    ¬ ((∃ e stored, enqueue defaultSettings (at_ 0) pausedReport [ableWorker] 1 .MANUAL (some 7)
          "manual:1:7:20260101T0000" none Executions.empty = .ok ((e, true), stored)) ↔
        ∃ worker ∈ [ableWorker], worker.organization_id = 1 ∧
          worker_service.is_schedulable worker = true ∧ Serves worker pausedReport ∧
          Handed defaultSettings (at_ 0) pausedReport 1 .MANUAL (some 7)
            "manual:1:7:20260101T0000" none worker [pausedReport] Executions.empty) := by
  have hreport : pausedReport.Validated := ⟨["xlsx"], [.XLSX], by decide, rfl⟩
  have hserves : Serves ableWorker pausedReport := ⟨by decide, by decide⟩
  have hhanded : Handed defaultSettings (at_ 0) pausedReport ableWorker.organization_id .MANUAL
      (some 7) "manual:1:7:20260101T0000" none ableWorker [pausedReport] Executions.empty :=
    handed_first hreport hserves (by decide)
  intro hiff
  obtain ⟨e, stored, hok⟩ := hiff.mpr
    ⟨ableWorker, List.mem_singleton_self _, rfl, rfl, hserves, hhanded⟩
  have hactive := (enqueue_created_iff.mp hok).1
  exact absurd hactive (by decide)

end PaCopilot.reports
