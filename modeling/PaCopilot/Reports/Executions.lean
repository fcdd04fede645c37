/-
The table of report executions, and the requests on it: the routes of
`api/v1/worker.py` and `api/v1/reports.py`, and the periodic sweep of
`reports/tasks.py`, over `reports/execution_service.py` and
`repositories/report_execution_repository.py`.

Each request is a transaction that is committed when it returns and rolled back
when it raises, so it is a function to an exception or to the table it leaves.
The requests follow one another here, so a key that was looked up and not found is
still free when the row is inserted ([`Executions.create_free`]), and the handlers
for an `IntegrityError` are left out. So is what a route reads and writes after it
has changed this table (the workbook of a claimed job, the audit trail); where
that raises the request changes nothing.
-/
import PaCopilot.Reports.Execution
import PaCopilot.Lib.Table

set_option autoImplicit false

namespace PaCopilot.reports

open Table

/-! ## The table -/

/-- The columns of `uq_report_executions_org_idempotency_key`. -/
def ReportExecution.uniqueKey (r : ReportExecution) : ℕ × String :=
  (r.organization_id, r.idempotency_key)

/-- The rows of `report_executions`, and the next identifier that `uuid4` draws. -/
structure Executions where
  rows : List ReportExecution
  next : ℕ
  fresh : ∀ r ∈ rows, r.id < next
  ids : Table.Unique everyRow ReportExecution.id rows
  uq_report_executions_org_idempotency_key : Table.Unique everyRow ReportExecution.uniqueKey rows

namespace Executions

/-- No execution yet. -/
def empty : Executions := ⟨[], 0, by simp, by decide, by decide⟩

/-- Rows that change and stay the same executions. -/
def edit (store : Executions) (f : ReportExecution → ReportExecution)
    (hf : ∀ r, Same r (f r)) : Executions where
  rows := store.rows.map f
  next := store.next
  fresh := by
    intro r hr
    obtain ⟨q, hq, rfl⟩ := List.mem_map.mp hr
    rw [(hf q).id]
    exact store.fresh q hq
  ids := store.ids.map (fun _ _ _ => rfl) fun r _ _ => (hf r).id
  uq_report_executions_org_idempotency_key :=
    store.uq_report_executions_org_idempotency_key.map (fun _ _ _ => rfl) fun r _ _ => by
      rw [ReportExecution.uniqueKey, ReportExecution.uniqueKey, (hf r).organization_id,
        (hf r).idempotency_key]

/-- `uuid4()`. -/
def uuid4 (store : Executions) : ℕ × Executions :=
  (store.next, { store with
    next := store.next + 1
    fresh := fun r hr => Nat.lt_succ_of_lt (store.fresh r hr) })

/-- `create`: INSERT. The key's column is a `String(200)`. -/
def create (store : Executions) (execution : ReportExecution) :
    Except AppException (ReportExecution × Executions) :=
  if 200 < execution.idempotency_key.length then .error DataError
  else
    match h : Table.insert everyRow ReportExecution.uniqueKey IntegrityError store.rows
        { execution with id := store.next } with
    | .error e => .error e
    | .ok rows => .ok ({ execution with id := store.next }, {
        rows := rows
        next := store.next + 1
        fresh := by
          intro r hr
          rw [insert_eq_ok h, List.mem_append, List.mem_singleton] at hr
          rcases hr with hr | rfl
          · exact Nat.lt_succ_of_lt (store.fresh r hr)
          · exact Nat.lt_succ_self _
        ids := by
          rw [insert_eq_ok h, unique_append_iff rfl]
          refine ⟨store.ids, fun q hq _ heq => ?_⟩
          have hlt := store.fresh q hq
          rw [heq] at hlt
          exact Nat.lt_irrefl _ hlt
        uq_report_executions_org_idempotency_key :=
          store.uq_report_executions_org_idempotency_key.insert h })

/-- `update`: the flush of one execution of the session. -/
def update (store : Executions) (read new : ReportExecution) : Executions :=
  store.edit (fun r => if r.id = read.id then flush read new r else r) fun r => by
    by_cases h : r.id = read.id
    · rw [if_pos h]
      exact same_flush read new r
    · rw [if_neg h]
      exact Same.refl r

/-- `get_by_id`. -/
def get_by_id (store : Executions) (execution_id : ℕ) : Option ReportExecution :=
  store.rows.find? fun r => r.id = execution_id

/-- `get_by_idempotency_key`. The index leaves at most one such row. -/
def get_by_idempotency_key (store : Executions) (organization_id : ℕ) (idempotency_key : String) :
    Option ReportExecution :=
  store.rows.find? fun r => r.uniqueKey = (organization_id, idempotency_key)

section

variable {store store' : Executions} {read new r execution created : ReportExecution}

@[simp] theorem edit_rows {f : ReportExecution → ReportExecution} (hf : ∀ r, Same r (f r)) :
    (store.edit f hf).rows = store.rows.map f := rfl

theorem update_rows : (store.update read new).rows
    = store.rows.map fun r => if r.id = read.id then flush read new r else r := rfl

/-- An update leaves the other executions alone. -/
theorem mem_update_of_ne (hr : r ∈ store.rows) (hid : r.id ≠ read.id) :
    r ∈ (store.update read new).rows := by
  rw [update_rows]
  exact List.mem_map.mpr ⟨r, hr, if_neg hid⟩

theorem mem_update_self (hr : r ∈ store.rows) (hid : r.id = read.id) :
    flush read new r ∈ (store.update read new).rows := by
  rw [update_rows]
  exact List.mem_map.mpr ⟨r, hr, if_pos hid⟩

/-- An identifier is the one of a single execution. -/
theorem eq_of_id (hr : r ∈ store.rows) (hread : read ∈ store.rows) (hid : r.id = read.id) :
    r = read :=
  store.ids.eq hr hread rfl rfl hid

theorem get_by_id_id {execution_id : ℕ} (h : store.get_by_id execution_id = some execution) :
    execution.id = execution_id := by
  simpa using List.find?_some h

theorem mem_of_get_by_id {execution_id : ℕ} (h : store.get_by_id execution_id = some execution) :
    execution ∈ store.rows :=
  List.mem_of_find?_eq_some h

/-- A row that was created is the last one. -/
theorem create_ok (h : store.create execution = .ok (created, store')) :
    created = { execution with id := store.next } ∧ store'.rows = store.rows ++ [created] ∧
      store'.next = store.next + 1 := by
  unfold create at h
  by_cases hlong : 200 < execution.idempotency_key.length
  · rw [if_pos hlong] at h
    cases h
  · rw [if_neg hlong] at h
    split at h
    · cases h
    · rename_i rows hrows
      simp only [Except.ok.injEq, Prod.mk.injEq] at h
      obtain ⟨rfl, rfl⟩ := h
      exact ⟨rfl, insert_eq_ok hrows, rfl⟩

/-- A key that was looked up in vain is free. -/
theorem create_free (h : store.get_by_idempotency_key execution.organization_id
      execution.idempotency_key = none) :
    store.create execution ≠ .error IntegrityError := by
  intro herror
  unfold create at herror
  by_cases hlong : 200 < execution.idempotency_key.length
  · rw [if_pos hlong] at herror
    simp [DataError, IntegrityError] at herror
  · rw [if_neg hlong] at herror
    split at herror
    · rename_i e hinsert
      obtain ⟨-, -, q, hq, -, hkey⟩ := insert_eq_error_iff.mp hinsert
      have hnone := List.find?_eq_none.mp h q hq
      exact hnone (decide_eq_true hkey)
    · cases herror

/-- A row can be inserted when its key fits the column and is free. -/
theorem create_iff :
    (∃ created store', store.create execution = .ok (created, store')) ↔
      execution.idempotency_key.length ≤ 200 ∧ store.get_by_idempotency_key
        execution.organization_id execution.idempotency_key = none := by
  constructor
  · rintro ⟨created, store', hcreate⟩
    obtain ⟨hcreated, hrows, -⟩ := create_ok hcreate
    constructor
    · unfold create at hcreate
      split at hcreate
      · cases hcreate
      · rename_i hshort
        exact Nat.not_lt.mp hshort
    · -- a row under the same key would be the one that was created
      rw [get_by_idempotency_key, List.find?_eq_none]
      intro q hq hkey
      rw [decide_eq_true_eq] at hkey
      have hq' : q ∈ store'.rows := by
        rw [hrows]
        exact List.mem_append_left _ hq
      have hcreated' : created ∈ store'.rows := by
        rw [hrows]
        exact List.mem_append_right _ (List.mem_singleton_self created)
      have hsame : q = created := by
        refine store'.uq_report_executions_org_idempotency_key.eq hq' hcreated' rfl rfl ?_
        rw [hkey, hcreated]
        rfl
      have hlt := store.fresh q hq
      rw [hsame, hcreated] at hlt
      exact Nat.lt_irrefl _ hlt
  · rintro ⟨hshort, hfree⟩
    rcases hcreate : store.create execution with error | ⟨created, store'⟩
    · have hinsert := hcreate
      unfold create at hinsert
      rw [if_neg (Nat.not_lt.mpr hshort)] at hinsert
      split at hinsert
      · rename_i taken herror
        obtain ⟨rfl, -⟩ := insert_eq_error_iff.mp herror
        rw [← Except.error.inj hinsert] at hcreate
        exact absurd hcreate (create_free hfree)
      · cases hinsert
    · exact ⟨created, store', rfl⟩

end

end Executions

/-! ## Reports and workers -/

inductive WorkerCapability
  | EXCEL
  | PAFE_AUTOMATION
  | XLSX_EXPORT
  | PDF_EXPORT
  | CSV_EXPORT
  deriving DecidableEq

def WorkerCapability.ofText : String → Option WorkerCapability
  | "excel" => some .EXCEL
  | "pafe_automation" => some .PAFE_AUTOMATION
  | "xlsx_export" => some .XLSX_EXPORT
  | "pdf_export" => some .PDF_EXPORT
  | "csv_export" => some .CSV_EXPORT
  | _ => none

/-- `FORMAT_CAPABILITY`, in the order of the formats' names. -/
def FORMAT_CAPABILITY : List (String × WorkerCapability) :=
  [("csv", .CSV_EXPORT), ("pdf", .PDF_EXPORT), ("xlsx", .XLSX_EXPORT)]

inductive ReportStatus
  | DRAFT
  | ACTIVE
  | PAUSED
  | ARCHIVED
  deriving DecidableEq

def ReportStatus.value : ReportStatus → String
  | .DRAFT => "draft"
  | .ACTIVE => "active"
  | .PAUSED => "paused"
  | .ARCHIVED => "archived"

/-- What `int` makes of the `timeout_seconds` among a report's parameters. -/
inductive RawTimeout
  | absent
  | unreadable
  | number (n : Int)
  deriving DecidableEq

structure ReportDefinition where
  id : ℕ
  organization_id : ℕ
  status : ReportStatus
  workbook_id : Option ℕ
  worker_id : Option ℕ
  output_formats : List String
  timeout_seconds : RawTimeout
  deriving DecidableEq

namespace worker_service

/-- `is_schedulable`. -/
def is_schedulable (worker : ReportWorker) : Bool :=
  worker.status ∈ [.ONLINE, .BUSY, .OFFLINE] && worker.secret_hash.isSome

/-- `capabilities_of`: what is not a known capability is dropped. -/
def capabilities_of (worker : ReportWorker) : List WorkerCapability :=
  worker.capabilities.filterMap WorkerCapability.ofText

end worker_service

/-- `timeout_for`: the report's own timeout, clamped. -/
def timeout_for (settings : Settings) (report : ReportDefinition) : ℕ :=
  match report.timeout_seconds with
  | .absent | .unreadable => settings.REPORT_EXECUTION_TIMEOUT_SECONDS
  | .number requested =>
    (max 60 (min requested settings.REPORT_EXECUTION_MAX_TIMEOUT_SECONDS)).toNat

/-- `required_capabilities`. -/
def required_capabilities (report : ReportDefinition) : List WorkerCapability :=
  [.EXCEL, .PAFE_AUTOMATION]
    ++ report.output_formats.filterMap fun format => List.lookup format FORMAT_CAPABILITY

/-! ## A request's moment -/

/-- The order in which a query without ORDER BY returns its rows. -/
structure RowOrder where
  arrange : List ReportExecution → List ReportExecution
  perm : ∀ rows, (arrange rows).Perm rows

/-- What a request meets outside the table: the clock of the process, the one of the
database, and the order of its rows. -/
structure Moment where
  now : Time
  db_now : Time
  order : RowOrder

section Requests

variable (settings : Settings) (m : Moment)

/-! ## `enqueue` -/

/-- `_assert_a_worker_could_run_this`. -/
def _assert_a_worker_could_run_this (report : ReportDefinition) (organization_id : ℕ)
    (workers : List ReportWorker) : Except AppException Unit :=
  let required := required_capabilities report
  let offline := ConflictException (message_for .WORKER_OFFLINE)
  let incapable := ConflictException (message_for .WORKER_CAPABILITY_MISSING)
  match report.worker_id with
  | some worker_id =>
    match workers.find? fun w => w.id = worker_id with
    | none => .error offline
    | some worker => do
      refuse (worker.organization_id ≠ organization_id
        ∨ worker_service.is_schedulable worker = false) offline
      refuse (¬ required ⊆ worker_service.capabilities_of worker) incapable
  | none =>
    let schedulable := workers.filter fun w =>
      w.organization_id = organization_id && worker_service.is_schedulable w
    if ∃ w ∈ schedulable, required ⊆ worker_service.capabilities_of w then .ok ()
    -- a worker that cannot, and no worker at all, call for different actions
    else if schedulable ≠ [] then .error incapable
    else .error offline

/-- A first attempt, as `enqueue` makes it. -/
def queued (report : ReportDefinition) (organization_id : ℕ) (trigger_type : TriggerType)
    (triggered_by : Option ℕ) (idempotency_key : String) (correlation_id : ℕ)
    (scheduled_for : Option Time) : ReportExecution where
  id := 0
  organization_id := organization_id
  report_id := report.id
  workbook_id := report.workbook_id
  triggered_by := triggered_by
  trigger_type := trigger_type
  status := .QUEUED
  idempotency_key := idempotency_key
  correlation_id := correlation_id
  scheduled_for := scheduled_for
  attempt := 1
  max_attempts := settings.REPORT_MAX_ATTEMPTS
  queued_at := m.now
  available_at := m.now
  timeout_seconds := timeout_for settings report

/-- `enqueue`: the execution, and whether it is new. -/
def enqueue (report : ReportDefinition) (workers : List ReportWorker) (organization_id : ℕ)
    (trigger_type : TriggerType) (triggered_by : Option ℕ) (idempotency_key : String)
    (scheduled_for : Option Time) (store : Executions) :
    Except AppException ((ReportExecution × Bool) × Executions) := do
  refuse (report.status ≠ .ACTIVE)
    (ConflictException s!"This report is {report.status.value} and cannot be run.")
  refuse (report.workbook_id = none)
    (ValidationException "This report has no workbook attached and cannot be run.")
  match store.get_by_idempotency_key organization_id idempotency_key with
  -- a request that is sent again
  | some existing => return ((existing, false), store)
  | none =>
    _assert_a_worker_could_run_this report organization_id workers
    let (correlation_id, drawn) := store.uuid4
    let (created, stored) ← drawn.create (queued settings m report organization_id trigger_type
      triggered_by idempotency_key correlation_id scheduled_for)
    return ((created, true), stored)

/-! ## Retry and recovery -/

/-- `create_retry`: the attempt after an execution, if one is warranted. -/
def create_retry (execution : ReportExecution) (store : Executions) :
    Except AppException (Option ReportExecution × Executions) :=
  if can_retry execution = false then .ok (none, store)
  else
    match store.get_by_idempotency_key execution.organization_id (retryKey execution) with
    | some existing => .ok (some existing, store)
    | none => do
      let (retry, stored) ← store.create (retryOf settings m.now execution)
      assert_transition execution.status .RETRYING
      return (some retry, stored.update execution { execution with status := .RETRYING })

/-- `find_expired_leases`. -/
def find_expired_leases (organization_id : Option ℕ) (store : Executions) :
    List ReportExecution :=
  (m.order.arrange (store.rows.filter fun r => r.status.leased
    && r.lease_expires_at.any (· < m.now)
    && organization_id.all (r.organization_id = ·))).take 50

/-- `find_stale_queued`, by the clock of the database. -/
def find_stale_queued (organization_id : Option ℕ) (store : Executions) : List ReportExecution :=
  (m.order.arrange (store.rows.filter fun r => r.status = .QUEUED
    && r.queued_at + seconds r.timeout_seconds < m.db_now
    && organization_id.all (r.organization_id = ·))).take 50

/-- The first population of the reaper: leases that lapsed are timed out, and tried
again. -/
def reapExpired : List ReportExecution → Executions → Except AppException Executions
  | [], store => .ok store
  | execution :: rest, store => do
    let failed ← fail settings m.now execution none .WORKER_LEASE_EXPIRED .TIMED_OUT none
      [("reaped", .flag true),
        ("lease_expired_at", match execution.lease_expires_at with
          | none => .null
          | some t => .time t)]
    let (_retry, store) ← create_retry settings m failed (store.update execution failed)
    reapExpired rest store

/-- The second population: what nobody claimed is timed out. -/
def reapStale : List ReportExecution → Executions → Except AppException Executions
  | [], store => .ok store
  | execution :: rest, store => do
    let failed ← fail settings m.now execution none .WORKER_OFFLINE .TIMED_OUT none
      [("reaped", .flag true), ("never_claimed", .flag true)]
    reapStale rest (store.update execution failed)

/-- `reap_stale_executions`: how many executions it timed out. -/
def reap_stale_executions (organization_id : Option ℕ) (store : Executions) :
    Except AppException (ℕ × Executions) := do
  let expired := find_expired_leases m organization_id store
  let store ← reapExpired settings m expired store
  let stale := find_stale_queued m organization_id store
  let store ← reapStale settings m stale store
  return (expired.length + stale.length, store)

/-! ## `claim_next` -/

/-- The execution that waits longest among the rows a query returned. -/
def oldest : List ReportExecution → Option ReportExecution
  | [] => none
  | r :: rest =>
    match oldest rest with
    | none => some r
    | some q =>
      if q.available_at < r.available_at
          ∨ (q.available_at = r.available_at ∧ q.queued_at < r.queued_at) then some q
      else some r

/-- The candidate of the repository's `claim_next`. -/
def claimCandidate (worker : ReportWorker) (supported_formats : List String)
    (reports : List ReportDefinition) (store : Executions) : Option ReportExecution :=
  oldest (m.order.arrange (store.rows.filter fun r =>
    r.organization_id = worker.organization_id && r.status = .QUEUED && r.available_at ≤ m.now
      && reports.any fun report => report.id = r.report_id
        && report.worker_id.all (· = worker.id)
        && report.output_formats.all (· ∈ supported_formats)))

/-- The row of a claimed execution. -/
def claimed (worker : ReportWorker) (r : ReportExecution) : ReportExecution :=
  { r with
    status := .ASSIGNED
    worker_id := some worker.id
    assigned_at := some m.now
    lease_expires_at := some (m.now + seconds settings.REPORT_EXECUTION_LEASE_SECONDS) }

/-- `claim_next`: at most one execution is handed to the worker. -/
def claim_next (worker : ReportWorker) (reports : List ReportDefinition) (store : Executions) :
    Except AppException (Option ReportExecution × Executions) := do
  let (_reaped, store) ← reap_stale_executions settings m (some worker.organization_id) store
  let capabilities := worker_service.capabilities_of worker
  if ¬ [WorkerCapability.EXCEL, .PAFE_AUTOMATION] ⊆ capabilities then return (none, store)
  let supported_formats :=
    (FORMAT_CAPABILITY.filter fun entry => entry.2 ∈ capabilities).map Prod.fst
  match claimCandidate m worker supported_formats reports store with
  | none => return (none, store)
  | some execution =>
    let store := store.update execution (claimed settings m worker execution)
    return (store.get_by_id execution.id, store)

/-! ## The routes -/

/-- `_owned_execution`. -/
def _owned_execution (execution_id : ℕ) (worker : ReportWorker) (store : Executions) :
    Except AppException ReportExecution :=
  match store.get_by_id execution_id with
  | none => .error (NotFoundException "Execution not found.")
  | some execution => do
    _assert_owned_by execution worker
    return execution

/-- `start_job`. -/
def start_job (execution_id : ℕ) (worker : ReportWorker) (store : Executions) :
    Except AppException (ReportExecution × Executions) := do
  let execution ← _owned_execution execution_id worker store
  let started ← mark_started settings m.now execution worker
  return (started, store.update execution started)

/-- `report_progress`. -/
def report_progress (execution_id : ℕ) (worker : ReportWorker) (step : Option String)
    (store : Executions) : Except AppException (ReportExecution × Executions) := do
  let execution ← _owned_execution execution_id worker store
  let extended ← extend_lease settings m.now execution worker step
  return (extended, store.update execution extended)

/-- `complete_job`. A worker whose success was recorded already is told so. -/
def complete_job (execution_id : ℕ) (worker : ReportWorker) (trace_log : Option String)
    (diagnostics : Diagnostics) (store : Executions) :
    Except AppException (ReportExecution × Executions) := do
  let execution ← _owned_execution execution_id worker store
  if execution.status = .SUCCEEDED then return (execution, store)
  let succeeded ← succeed settings m.now execution worker trace_log diagnostics
  return (succeeded, store.update execution succeeded)

/-- `fail_job`. The worker sends a code, the server decides about a retry. -/
def fail_job (execution_id : ℕ) (worker : ReportWorker) (error_code : Option String)
    (trace_log : Option String) (diagnostics : Diagnostics) (store : Executions) :
    Except AppException (Option ReportExecution × Executions) := do
  let execution ← _owned_execution execution_id worker store
  let failed ← fail settings m.now execution (some worker) (coerce_error_code error_code) .FAILED
    trace_log diagnostics
  create_retry settings m failed (store.update execution failed)

/-- `cancel_execution`. -/
def cancel_execution (execution_id organization_id : ℕ) (store : Executions) :
    Except AppException (ReportExecution × Executions) :=
  match store.get_by_id execution_id with
  | none => .error (NotFoundException "Execution not found.")
  | some execution => do
    refuse (execution.organization_id ≠ organization_id)
      (NotFoundException "Execution not found.")
    let cancelled ← cancel settings m.now execution
    return (cancelled, store.update execution cancelled)

/-- A request on the table, with what it is sent. -/
inductive Request
  | enqueue (report : ReportDefinition) (workers : List ReportWorker) (organization_id : ℕ)
      (trigger_type : TriggerType) (triggered_by : Option ℕ) (idempotency_key : String)
      (scheduled_for : Option Time)
  | claim_next (worker : ReportWorker) (reports : List ReportDefinition)
  | start (execution_id : ℕ) (worker : ReportWorker)
  | progress (execution_id : ℕ) (worker : ReportWorker) (step : Option String)
  | complete (execution_id : ℕ) (worker : ReportWorker) (trace_log : Option String)
      (diagnostics : Diagnostics)
  | fail (execution_id : ℕ) (worker : ReportWorker) (error_code : Option String)
      (trace_log : Option String) (diagnostics : Diagnostics)
  | cancel (execution_id organization_id : ℕ)
  | reap (organization_id : Option ℕ)

/-- The table a request leaves when it returns. -/
def outcome : Request → Executions → Except AppException Executions
  | .enqueue report workers organization_id trigger_type triggered_by key scheduled_for, store =>
    (enqueue settings m report workers organization_id trigger_type triggered_by key scheduled_for
      store).map Prod.snd
  | .claim_next worker reports, store => (claim_next settings m worker reports store).map Prod.snd
  | .start execution_id worker, store =>
    (start_job settings m execution_id worker store).map Prod.snd
  | .progress execution_id worker step, store =>
    (report_progress settings m execution_id worker step store).map Prod.snd
  | .complete execution_id worker trace_log diagnostics, store =>
    (complete_job settings m execution_id worker trace_log diagnostics store).map Prod.snd
  | .fail execution_id worker error_code trace_log diagnostics, store =>
    (fail_job settings m execution_id worker error_code trace_log diagnostics store).map Prod.snd
  | .cancel execution_id organization_id, store =>
    (cancel_execution settings m execution_id organization_id store).map Prod.snd
  | .reap organization_id, store =>
    (reap_stale_executions settings m organization_id store).map Prod.snd

/-- The table after a request: committed when it returned, rolled back when it
raised. -/
def handle (request : Request) (store : Executions) : Executions :=
  match outcome settings m request store with
  | .ok after => after
  | .error _ => store

/-- The execution of a route is the one of the table that was named. -/
theorem owned_of_ok {store : Executions} {execution_id : ℕ} {worker : ReportWorker}
    {execution : ReportExecution}
    (h : _owned_execution execution_id worker store = .ok execution) :
    execution ∈ store.rows ∧ execution.id = execution_id := by
  unfold _owned_execution at h
  rcases hget : store.get_by_id execution_id with _ | found
  · rw [hget] at h
    cases h
  · rw [hget] at h
    dsimp only at h
    rw [bind_eq_ok_iff] at h
    obtain ⟨_, -, hsame⟩ := h
    cases hsame
    exact ⟨Executions.mem_of_get_by_id hget, Executions.get_by_id_id hget⟩

end Requests

/-! ## What a request that returned did -/

section Returned

variable {settings : Settings} {m : Moment} {store store' : Executions} {execution_id : ℕ}
  {worker : ReportWorker} {trace_log : Option String} {diagnostics : Diagnostics}

/-- An `enqueue` finds the execution of its key, or makes one of a key that is free. -/
theorem enqueue_ok {report : ReportDefinition} {workers : List ReportWorker} {organization_id : ℕ}
    {trigger_type : TriggerType} {triggered_by : Option ℕ} {key : String}
    {scheduled_for : Option Time} {result : ReportExecution × Bool}
    (h : enqueue settings m report workers organization_id trigger_type triggered_by key
      scheduled_for store = .ok (result, store')) :
    store' = store ∨ ∃ created,
      store.uuid4.2.create (queued settings m report organization_id trigger_type triggered_by key
        store.uuid4.1 scheduled_for) = .ok (created, store') := by
  unfold enqueue at h
  rw [bind_eq_ok_iff] at h
  obtain ⟨_, -, h⟩ := h
  rw [bind_eq_ok_iff] at h
  obtain ⟨_, -, h⟩ := h
  rcases hexisting : store.get_by_idempotency_key organization_id key with _ | existing
  · rw [hexisting] at h
    dsimp only at h
    rw [bind_eq_ok_iff] at h
    obtain ⟨_, -, h⟩ := h
    rw [bind_eq_ok_iff] at h
    obtain ⟨⟨created, stored⟩, hcreate, h⟩ := h
    cases h
    exact .inr ⟨created, hcreate⟩
  · rw [hexisting] at h
    cases h
    exact .inl rfl

/-- A claim reaps, and hands out its candidate when it has one. -/
theorem claim_next_ok {reports : List ReportDefinition} {handed : Option ReportExecution}
    (h : claim_next settings m worker reports store = .ok (handed, store')) :
    ∃ reaped between,
      reap_stale_executions settings m (some worker.organization_id) store = .ok (reaped, between) ∧
        (store' = between ∨ ∃ supported_formats r,
          claimCandidate m worker supported_formats reports between = some r ∧
            store' = between.update r (claimed settings m worker r)) := by
  unfold claim_next at h
  rw [bind_eq_ok_iff] at h
  obtain ⟨⟨reaped, between⟩, hreap, h⟩ := h
  refine ⟨reaped, between, hreap, ?_⟩
  dsimp only at h
  split at h
  · cases h
    exact .inl rfl
  split at h
  · cases h
    exact .inl rfl
  · rename_i r hcandidate
    cases h
    exact .inr ⟨_, r, hcandidate, rfl⟩

theorem start_job_ok {started : ReportExecution}
    (h : start_job settings m execution_id worker store = .ok (started, store')) :
    ∃ execution ∈ store.rows, execution.id = execution_id ∧
      mark_started settings m.now execution worker = .ok started ∧
        store' = store.update execution started := by
  rw [start_job, bind_eq_ok_iff] at h
  obtain ⟨execution, howned, h⟩ := h
  rw [bind_eq_ok_iff] at h
  obtain ⟨new, hnew, h⟩ := h
  cases h
  obtain ⟨hmem, hid⟩ := owned_of_ok howned
  exact ⟨execution, hmem, hid, hnew, rfl⟩

theorem report_progress_ok {step : Option String} {extended : ReportExecution}
    (h : report_progress settings m execution_id worker step store = .ok (extended, store')) :
    ∃ execution ∈ store.rows, execution.id = execution_id ∧
      extend_lease settings m.now execution worker step = .ok extended ∧
        store' = store.update execution extended := by
  rw [report_progress, bind_eq_ok_iff] at h
  obtain ⟨execution, howned, h⟩ := h
  rw [bind_eq_ok_iff] at h
  obtain ⟨new, hnew, h⟩ := h
  cases h
  obtain ⟨hmem, hid⟩ := owned_of_ok howned
  exact ⟨execution, hmem, hid, hnew, rfl⟩

/-- A success that was recorded already changes nothing. -/
theorem complete_job_ok {succeeded : ReportExecution}
    (h : complete_job settings m execution_id worker trace_log diagnostics store
      = .ok (succeeded, store')) :
    ∃ execution ∈ store.rows, execution.id = execution_id ∧
      ((execution.status = .SUCCEEDED ∧ store' = store) ∨
        (execution.status ≠ .SUCCEEDED ∧
          succeed settings m.now execution worker trace_log diagnostics = .ok succeeded ∧
            store' = store.update execution succeeded)) := by
  unfold complete_job at h
  rw [bind_eq_ok_iff] at h
  obtain ⟨execution, howned, h⟩ := h
  obtain ⟨hmem, hid⟩ := owned_of_ok howned
  refine ⟨execution, hmem, hid, ?_⟩
  split at h
  · rename_i hdone
    cases h
    exact .inl ⟨hdone, rfl⟩
  · rename_i hdone
    rw [bind_eq_ok_iff] at h
    obtain ⟨new, hnew, h⟩ := h
    cases h
    exact .inr ⟨hdone, hnew, rfl⟩

theorem fail_job_ok {error_code : Option String} {retry : Option ReportExecution}
    (h : fail_job settings m execution_id worker error_code trace_log diagnostics store
      = .ok (retry, store')) :
    ∃ execution ∈ store.rows, execution.id = execution_id ∧ ∃ failed,
      fail settings m.now execution (some worker) (coerce_error_code error_code) .FAILED trace_log
        diagnostics = .ok failed ∧
        create_retry settings m failed (store.update execution failed) = .ok (retry, store') := by
  rw [fail_job, bind_eq_ok_iff] at h
  obtain ⟨execution, howned, h⟩ := h
  rw [bind_eq_ok_iff] at h
  obtain ⟨failed, hfail, hretry⟩ := h
  obtain ⟨hmem, hid⟩ := owned_of_ok howned
  exact ⟨execution, hmem, hid, failed, hfail, hretry⟩

theorem cancel_execution_ok {organization_id : ℕ} {cancelled : ReportExecution}
    (h : cancel_execution settings m execution_id organization_id store
      = .ok (cancelled, store')) :
    ∃ execution ∈ store.rows, execution.id = execution_id ∧
      cancel settings m.now execution = .ok cancelled ∧
        store' = store.update execution cancelled := by
  unfold cancel_execution at h
  rcases hget : store.get_by_id execution_id with _ | execution
  · rw [hget] at h
    cases h
  · rw [hget] at h
    dsimp only at h
    rw [bind_eq_ok_iff] at h
    obtain ⟨_, -, h⟩ := h
    rw [bind_eq_ok_iff] at h
    obtain ⟨new, hnew, h⟩ := h
    cases h
    exact ⟨execution, Executions.mem_of_get_by_id hget, Executions.get_by_id_id hget, hnew, rfl⟩

end Returned

end PaCopilot.reports
