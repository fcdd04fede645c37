/-
The performance report, `tm1/health/performance.py`, over the runs that were collected.

The rows are those of `Monitoring/Runs` with the time that a run took. A run that PA-Copilot
starts is recorded by TM1's message log, at its end, and by the change that made it, at its
beginning; the source is part of the key, so these are two rows, and the report counts rows.
Here every line and every change is about a real run, and the report is compared with what it
would be made of one record of each (`counted_once_iff`).
-/
import PaCopilot.Lib.Records
import PaCopilot.Monitoring.Runs

set_option autoImplicit false

namespace PaCopilot.performance.timed

open Dedup Records
open Python (isspace afterWord roundHalfEven)

/-! ## Runs with the time they took -/

/-- A row of `tm1_process_runs`. -/
structure TimedRun extends TM1ProcessRun where
  elapsed_seconds : Option ℚ
  deriving DecidableEq

/-- A change that ran a process, with the `duration_ms` of its `execution_result` where that is
a number. -/
structure RunChange where
  change : TM1Change
  duration_ms : Option ℚ
  deriving DecidableEq

/-- `[0-9]+(?:\.[0-9]+)?` at the front of a text that begins with a digit: the number, and what
follows it. -/
def numberAt (s : List Char) : List Char × List Char :=
  let whole := s.takeWhile Char.isDigit
  match s.dropWhile Char.isDigit with
  | '.' :: rest =>
    -- the point belongs to the number only with a digit behind it
    if rest.head?.any Char.isDigit then
      (whole ++ '.' :: rest.takeWhile Char.isDigit, rest.dropWhile Char.isDigit)
    else (whole, '.' :: rest)
  | rest => (whole, rest)

/-- What `_ELAPSED` matches at the front of a text: the number in it. -/
def elapsedAt (s : List Char) : Option String := do
  let rest ← afterWord "elapsed time".toList s
  let number := rest.dropWhile isspace
  let _ ← afterWord "seconds".toList ((numberAt number).2.dropWhile isspace)
  if rest.head?.any isspace ∧ number.head?.any Char.isDigit then
    some (String.ofList (numberAt number).1)
  else none

/-- `_ELAPSED.search(message)`. -/
def _ELAPSED (message : String) : Option String := message.toList.tails.findSome? elapsedAt

/-- The run that a line is about. -/
def runOf (entry : LogEntry) : Option TimedRun :=
  (performance.runOf entry).map fun run =>
    ⟨run, (_ELAPSED entry.message).bind Python.floatOfText⟩

def parse_runs (entries : List LogEntry) : List TimedRun := entries.filterMap runOf

/-- The run that a change has made, if it started. -/
def paRunOf (c : RunChange) : Option TimedRun :=
  (performance.paRunOf c.change).map fun run => ⟨run, c.duration_ms.map (· / 1000)⟩

/-- The columns of `uq_tm1_process_runs_run`. -/
def keyOf (row : TimedRun) : String × ℕ × String := row.toTM1ProcessRun.key

/-- `_store`: how many rows are new, and the rows. -/
def _store (rows runs : List TimedRun) : ℕ × List TimedRun :=
  let stored := insertAll keyOf rows runs
  (stored.length - rows.length, stored)

/-- `collect_runs`, from the lines of the log and the changes of the connection. -/
def collect_runs (entries : List LogEntry) (changes : List RunChange) (rows : List TimedRun) :
    ℕ × List TimedRun :=
  let (added, rows) := _store rows (parse_runs entries)
  let (more, rows) := _store rows (changes.filterMap paRunOf)
  (added + more, rows)

theorem map_parse_runs (entries : List LogEntry) :
    (parse_runs entries).map TimedRun.toTM1ProcessRun = performance.parse_runs entries := by
  rw [parse_runs, List.map_filterMap, performance.parse_runs]
  congr 1
  funext entry
  rw [runOf, Option.map_map]
  exact Option.map_id'

theorem map_paRuns (changes : List RunChange) :
    (changes.filterMap paRunOf).map TimedRun.toTM1ProcessRun
      = (changes.map RunChange.change).filterMap performance.paRunOf := by
  rw [List.map_filterMap, List.filterMap_map]
  congr 1
  funext c
  rw [paRunOf, Option.map_map]
  exact Option.map_id'

/-- Without the times, the rows are those that are collected in `Monitoring/Runs`. -/
theorem map_collect_runs (entries : List LogEntry) (changes : List RunChange)
    (rows : List TimedRun) :
    (collect_runs entries changes rows).2.map TimedRun.toTM1ProcessRun
      = performance.collect_runs entries (changes.map RunChange.change)
          (rows.map TimedRun.toTM1ProcessRun) := by
  have hstore : ∀ rows runs : List TimedRun,
      (_store rows runs).2.map TimedRun.toTM1ProcessRun
        = performance._store (rows.map TimedRun.toTM1ProcessRun)
            (runs.map TimedRun.toTM1ProcessRun) := fun _ _ => map_insertAll
  rw [performance.collect_runs, ← map_parse_runs, ← map_paRuns, ← hstore, ← hstore]
  rfl

/-! ## The report -/

def WINDOW_DAYS : ℕ := 30
def REGRESSION_FACTOR : ℚ := 2
def MIN_PREVIOUS_RUNS : ℕ := 3
def MIN_EXTRA_SECONDS : ℚ := 30

/-- `timedelta(days=n)`, in microseconds. -/
def days (n : ℕ) : ℕ := n * 86400000000

/-- `statistics.median`. -/
def median (data : List ℚ) : ℚ :=
  let sorted := data.mergeSort fun a b => a ≤ b
  let half := data.length / 2
  -- of two middle values the mean
  if data.length % 2 = 1 then sorted.getD half 0
  else (sorted.getD (half - 1) 0 + sorted.getD half 0) / 2

/-! The seconds are exact here. Python rounds the double nearest to them, so that what is half
way between two texts in decimals need not go to the even one. -/

/-- `round(x, 1)`. -/
def round1 (x : ℚ) : ℚ := roundHalfEven (x * 10) / 10

/-- `f"{x:.0f}"`. -/
def fixed0 (x : ℚ) : String := toString (roundHalfEven x)

def _duration (seconds : ℚ) : String :=
  if seconds < 90 then s!"{fixed0 seconds} s"
  else
    let total := roundHalfEven seconds
    if total / 60 < 90 then s!"{total / 60} min {total % 60} s"
    else s!"{total / 60 / 60} h {total / 60 % 60} min"

structure Typical where
  process : String
  median_seconds : ℚ
  runs : ℕ
  deriving DecidableEq

structure Regression where
  process : String
  usual_seconds : ℚ
  latest_seconds : ℚ
  latest_at : String
  increase_percent : ℤ
  based_on_runs : ℕ
  summary : String
  deriving DecidableEq

structure Failure where
  process : String
  failed_runs_7_days : ℕ
  last_failed_at : String
  outcome : String
  deriving DecidableEq

structure Report where
  window_days : ℕ := WINDOW_DAYS
  runs_known : ℕ
  processes_seen : ℕ
  regressions : List Regression
  slowest : List Typical
  failures_7_days : List Failure
  rule : String := "A regression is a latest run over 2x the median of at least 3 earlier runs "
    ++ "in 30 days, and at least 30 s longer."
  not_covered : List String := ["Memory and CPU per process: TM1 REST does not report them per run",
    "Runs older than the message log PA-Copilot has collected"]
  deriving DecidableEq

/-- The runs of one process whose time is known, with it. -/
def timedOf (runs : List TimedRun) : List (TimedRun × ℚ) :=
  runs.filterMap fun r => r.elapsed_seconds.map fun seconds => (r, seconds)

def typicalOf (name : String) (runs : List TimedRun) : Option Typical :=
  let timed := timedOf runs
  if timed ≠ [] then some ⟨name, round1 (median (timed.map Prod.snd)), timed.length⟩ else none

def regressionOf (name : String) (runs : List TimedRun) : Option Regression :=
  let timed := timedOf runs
  match timed.getLast? with
  | none => none
  | some (latest, seconds) =>
    -- the rows are in the order of their ends, so the last one is the newest
    let previous := timed.dropLast
    let usual := median (previous.map Prod.snd)
    if MIN_PREVIOUS_RUNS < timed.length ∧ 0 < usual ∧ REGRESSION_FACTOR * usual < seconds
        ∧ MIN_EXTRA_SECONDS ≤ seconds - usual then
      let increase := (seconds - usual) / usual * 100
      some {
        process := name
        usual_seconds := round1 usual
        latest_seconds := round1 seconds
        latest_at := Python.isoformat latest.finished_at
        increase_percent := roundHalfEven increase
        based_on_runs := previous.length
        summary := s!"{name} normally runs in {_duration usual} (median of "
          ++ s!"{previous.length} runs). Latest run: {_duration seconds} "
          ++ s!"on {Python.formatDate latest.finished_at} {Python.formatMinute latest.finished_at}. "
          ++ s!"Regression: +{fixed0 increase}%." }
    else none

/-- A run that failed in the week before `now`. -/
def failedSince (now : ℕ) (r : TimedRun) : Bool :=
  now ≤ r.finished_at + days 7 && (r.outcome = "aborted" || r.outcome = "completed_with_errors")

def failureOf (now : ℕ) (name : String) (runs : List TimedRun) : Option Failure :=
  let failed := runs.filter (failedSince now)
  failed.getLast?.map fun last =>
    ⟨name, failed.length, Python.isoformat last.finished_at, last.outcome⟩

/-- `by_process`: the rows of each process, the processes in the order of their first rows. -/
def by_process (rows : List TimedRun) : List (String × List TimedRun) :=
  (insertAll id [] (rows.map fun row => row.process_name)).map fun name =>
    (name, rows.filter fun row => row.process_name = name)

/-- The report of rows that were selected. The clock is read once more for the failures. -/
def reportOf (later : ℕ) (rows : List TimedRun) : Report where
  runs_known := rows.length
  processes_seen := (by_process rows).length
  regressions := ((by_process rows).filterMap fun (name, runs) => regressionOf name runs).mergeSort
    fun a b => b.increase_percent ≤ a.increase_percent
  slowest := (((by_process rows).filterMap fun (name, runs) => typicalOf name runs).mergeSort
    fun a b => b.median_seconds ≤ a.median_seconds).take 10
  failures_7_days := ((by_process rows).filterMap fun (name, runs) =>
    failureOf later name runs).mergeSort fun a b => b.failed_runs_7_days ≤ a.failed_runs_7_days

/-- A run of the last `WINDOW_DAYS` days. -/
def inWindow (now : ℕ) (row : TimedRun) : Bool := now ≤ row.finished_at + days WINDOW_DAYS

/-- The order of rows that `ORDER BY finished_at ASC` leaves open. -/
structure ByFinish where
  arrange : List TimedRun → List TimedRun
  perm : ∀ rows, (arrange rows).Perm rows
  sorted : ∀ rows, (arrange rows).Pairwise fun a b => a.finished_at ≤ b.finished_at

/-- The rows that `report` selects. -/
def selected (order : ByFinish) (now : ℕ) (rows : List TimedRun) : List TimedRun :=
  order.arrange (rows.filter (inWindow now))

/-- `report`. -/
def report (order : ByFinish) (now later : ℕ) (rows : List TimedRun) : Report :=
  reportOf later (selected order now rows)

/-! ## The rows of a report -/

section Rows

variable {rows : List TimedRun} {name : String} {later : ℕ}

/-- The rows of a process are the rows of its name. -/
theorem mem_by_process {runs : List TimedRun} (h : (name, runs) ∈ by_process rows) :
    runs = rows.filter fun row => row.process_name = name := by
  obtain ⟨other, -, heq⟩ := List.mem_map.mp h
  rw [Prod.mk.injEq] at heq
  rw [← heq.2, heq.1]

theorem by_process_of_mem {row : TimedRun} (h : row ∈ rows) :
    (row.process_name, rows.filter fun r => r.process_name = row.process_name)
      ∈ by_process rows := by
  apply List.mem_map.mpr
  refine ⟨row.process_name, ?_, rfl⟩
  have hkeys : row.process_name ∈
      (insertAll id [] (rows.map fun r : TimedRun => r.process_name)).map id :=
    mem_keys_insertAll.mpr (.inr (by
      rw [List.map_id]
      exact List.mem_map.mpr ⟨row, h, rfl⟩))
  rwa [List.map_id] at hkeys

theorem length_timedOf (runs : List TimedRun) :
    (timedOf runs).length = (runs.filter fun r => r.elapsed_seconds.isSome).length := by
  rw [timedOf, List.length_filterMap_eq_countP, List.countP_eq_length_filter]
  congr 1
  apply List.filter_congr
  intro r _
  rw [Option.isSome_map]

theorem timedOf_seconds (runs : List TimedRun) :
    (timedOf runs).map Prod.snd = runs.filterMap fun r => r.elapsed_seconds := by
  rw [timedOf, List.map_filterMap]
  congr 1
  funext r
  rw [Option.map_map]
  exact Option.map_id'

theorem typicalOf_some {runs : List TimedRun} {t : Typical} (h : typicalOf name runs = some t) :
    t.process = name ∧ t.runs = (timedOf runs).length ∧
      t.median_seconds = round1 (median ((timedOf runs).map Prod.snd)) := by
  simp only [typicalOf] at h
  split at h
  · cases h
    exact ⟨rfl, rfl, rfl⟩
  · cases h

/-- A regression is of the last timed run, and based on the others. -/
theorem regressionOf_some {runs : List TimedRun} {g : Regression}
    (h : regressionOf name runs = some g) :
    g.process = name ∧ g.based_on_runs + 1 = (timedOf runs).length := by
  simp only [regressionOf] at h
  split at h
  · cases h
  · split at h
    · rename_i hmany
      cases h
      refine ⟨rfl, ?_⟩
      have hpos : 0 < (timedOf runs).length := Nat.lt_of_le_of_lt (Nat.zero_le _) hmany.1
      dsimp only
      rw [List.length_dropLast, Nat.sub_add_cancel hpos]
    · cases h

theorem failureOf_some {runs : List TimedRun} {f : Failure}
    (h : failureOf later name runs = some f) :
    f.process = name ∧ f.failed_runs_7_days = (runs.filter (failedSince later)).length := by
  obtain ⟨last, -, rfl⟩ := Option.map_eq_some_iff.mp h
  exact ⟨rfl, rfl⟩

theorem failureOf_of_mem {runs : List TimedRun} {row : TimedRun}
    (h : row ∈ runs.filter (failedSince later)) : ∃ f, failureOf later name runs = some f := by
  have hsome : ((runs.filter (failedSince later)).getLast?).isSome = true :=
    List.getLast?_isSome.mpr (List.ne_nil_of_mem h)
  obtain ⟨last, hlast⟩ := Option.isSome_iff_exists.mp hsome
  exact ⟨_, Option.map_eq_some_iff.mpr ⟨last, hlast, rfl⟩⟩

/-- The entries of a report are about the rows of their processes. -/
theorem typical_of_report {t : Typical} (h : t ∈ (reportOf later rows).slowest) :
    typicalOf t.process (rows.filter fun row => row.process_name = t.process) = some t := by
  have hmem := List.mem_mergeSort.mp (List.mem_of_mem_take h)
  obtain ⟨⟨name, runs⟩, hby, hsome⟩ := List.mem_filterMap.mp hmem
  rw [(typicalOf_some hsome).1, ← mem_by_process hby]
  exact hsome

theorem regression_of_report {g : Regression} (h : g ∈ (reportOf later rows).regressions) :
    regressionOf g.process (rows.filter fun row => row.process_name = g.process) = some g := by
  obtain ⟨⟨name, runs⟩, hby, hsome⟩ := List.mem_filterMap.mp (List.mem_mergeSort.mp h)
  rw [(regressionOf_some hsome).1, ← mem_by_process hby]
  exact hsome

theorem failure_of_report_iff {f : Failure} : f ∈ (reportOf later rows).failures_7_days ↔
    failureOf later f.process (rows.filter fun row => row.process_name = f.process) = some f := by
  constructor
  · intro h
    obtain ⟨⟨name, runs⟩, hby, hsome⟩ := List.mem_filterMap.mp (List.mem_mergeSort.mp h)
    rw [(failureOf_some hsome).1, ← mem_by_process hby]
    exact hsome
  · intro h
    obtain ⟨last, hlast, -⟩ := Option.map_eq_some_iff.mp h
    have hmem := List.mem_of_mem_filter (List.mem_of_getLast? hlast)
    obtain ⟨hrow, hname⟩ := List.mem_filter.mp hmem
    have hby := by_process_of_mem hrow
    rw [decide_eq_true_eq] at hname
    rw [hname] at hby
    exact List.mem_mergeSort.mpr (List.mem_filterMap.mpr ⟨_, hby, h⟩)

end Rows

/-! ## Real runs -/

/-- A line or a change that was read about a real run, by the row it makes. -/
structure Seen (ι : Type) where
  run : ι
  row : TimedRun

/-- A collection: the lines and the changes that it reads, each with the real run it is about.
What was read before may be read again. -/
structure Collection (ι : Type) where
  entries : List (LogEntry × ι)
  changes : List (RunChange × ι)

/-- What a collection sees of finished runs. -/
def Collection.seen {ι : Type} (c : Collection ι) : List (Seen ι) :=
  (c.entries.filterMap fun (entry, run) => (runOf entry).map (Seen.mk run))
    ++ c.changes.filterMap fun (change, run) => (paRunOf change).map (Seen.mk run)

/-- The rows after collections in their order. -/
def collected {ι : Type} (collections : List (Collection ι)) : List TimedRun :=
  collections.foldl
    (fun rows c => (collect_runs (c.entries.map Prod.fst) (c.changes.map Prod.fst) rows).2) []

/-- What was seen about the runs of the window, at all. -/
def recordsOf {ι : Type} (now : ℕ) (collections : List (Collection ι)) : List (Seen ι) :=
  (collections.flatMap Collection.seen).filter fun s => inWindow now s.row

/-- A report is made of one record for each run: its numbers are numbers of runs. -/
structure MadeOf {ι : Type} (later : ℕ) (counted : List (Seen ι)) (r : Report) : Prop where
  runs_known : r.runs_known = counted.length
  totals : ∀ t ∈ r.slowest, t.runs = (counted.filter fun s =>
    s.row.process_name = t.process && s.row.elapsed_seconds.isSome).length
  durations : ∀ t ∈ r.slowest, t.median_seconds = round1 (median
    ((counted.filter fun s => s.row.process_name = t.process).filterMap fun s =>
      s.row.elapsed_seconds))
  previous : ∀ g ∈ r.regressions, g.based_on_runs + 1 = (counted.filter fun s =>
    s.row.process_name = g.process && s.row.elapsed_seconds.isSome).length
  failures : ∀ f ∈ r.failures_7_days, f.failed_runs_7_days = (counted.filter fun s =>
    s.row.process_name = f.process && failedSince later s.row).length
  failed : ∀ s ∈ counted, failedSince later s.row = true →
    ∃ f ∈ r.failures_7_days, f.process = s.row.process_name

section Collected

variable {ι : Type} {later : ℕ} {counted : List (Seen ι)}

theorem map_seen (c : Collection ι) : c.seen.map Seen.row
    = parse_runs (c.entries.map Prod.fst) ++ (c.changes.map Prod.fst).filterMap paRunOf := by
  -- the same of lines and of changes
  have hsplit : ∀ {β : Type} (f : β → Option TimedRun) (items : List (β × ι)),
      (items.filterMap fun x => (f x.1).map (Seen.mk x.2)).map Seen.row
        = (items.map Prod.fst).filterMap f := by
    intro β f items
    rw [List.map_filterMap, List.filterMap_map]
    congr 1
    funext x
    rw [Option.map_map]
    exact Option.map_id'
  rw [Collection.seen, List.map_append, parse_runs]
  exact congrArg₂ _ (hsplit runOf c.entries) (hsplit paRunOf c.changes)

/-- **The rows are those of everything that was seen, of which the first under a key is
stored.** -/
theorem collected_eq (collections : List (Collection ι)) :
    collected collections
      = insertAll keyOf [] ((collections.flatMap Collection.seen).map Seen.row) := by
  -- one collection stores its lines and then its changes, as one row after the other
  have hrun : ∀ rows : List TimedRun, collections.foldl (fun rows c =>
        (collect_runs (c.entries.map Prod.fst) (c.changes.map Prod.fst) rows).2) rows
      = insertAll keyOf rows ((collections.flatMap Collection.seen).map Seen.row) := by
    induction collections with
    | nil => exact fun _ => rfl
    | cons c collections ih =>
      intro rows
      rw [List.foldl_cons, ih, List.flatMap_cons, List.map_append, map_seen]
      simp only [collect_runs, _store, insertAll, List.foldl_append]
  exact hrun []

theorem madeOf_reportOf : MadeOf later counted (reportOf later (counted.map Seen.row)) := by
  have hname : ∀ name : String, (counted.map Seen.row).filter (fun row => row.process_name = name)
      = (counted.filter fun s => s.row.process_name = name).map Seen.row := fun name => by
    rw [List.filter_map]
    rfl
  -- how many rows of a process have a property
  have hcount : ∀ (name : String) (p : TimedRun → Bool),
      (((counted.map Seen.row).filter fun row => row.process_name = name).filter p).length
        = (counted.filter fun s => s.row.process_name = name && p s.row).length := by
    intro name p
    rw [hname, List.filter_map, List.length_map, List.filter_filter]
    congr 1
    apply List.filter_congr
    intro s _
    exact Bool.and_comm ..
  constructor
  case runs_known => exact List.length_map ..
  case totals =>
    intro t ht
    rw [(typicalOf_some (typical_of_report ht)).2.1, length_timedOf]
    exact hcount t.process fun row => row.elapsed_seconds.isSome
  case durations =>
    intro t ht
    rw [(typicalOf_some (typical_of_report ht)).2.2, timedOf_seconds, hname, List.filterMap_map]
    rfl
  case previous =>
    intro g hg
    rw [(regressionOf_some (regression_of_report hg)).2, length_timedOf]
    exact hcount g.process fun row => row.elapsed_seconds.isSome
  case failures =>
    intro f hf
    rw [(failureOf_some (failure_of_report_iff.mp hf)).2]
    exact hcount f.process (failedSince later)
  case failed =>
    intro s hs hfailed
    have hmem : s.row ∈ ((counted.map Seen.row).filter fun row =>
        row.process_name = s.row.process_name).filter (failedSince later) :=
      List.mem_filter.mpr
        ⟨List.mem_filter.mpr ⟨List.mem_map_of_mem hs, decide_eq_true rfl⟩, hfailed⟩
    obtain ⟨f, hf⟩ : ∃ f, failureOf later s.row.process_name _ = some f := failureOf_of_mem hmem
    have hprocess : f.process = s.row.process_name := (failureOf_some hf).1
    exact ⟨f, failure_of_report_iff.mpr (by rwa [hprocess]), hprocess⟩

end Collected

section Counted

variable {ι : Type} {order : ByFinish} {now : ℕ}
  {collections : List (Collection ι)}

theorem selected_keys : ((selected order now (collected collections)).map keyOf).Nodup := by
  have hperm := (order.perm ((collected collections).filter (inWindow now))).map keyOf
  have hkeys : ((collected collections).map keyOf).Nodup := by
    rw [collected_eq]
    exact nodup_insertAll List.nodup_nil
  rw [selected, hperm.nodup_iff]
  exact hkeys.sublist (List.filter_sublist.map keyOf)

theorem mem_selected_iff {row : TimedRun} : row ∈ selected order now (collected collections) ↔
    row ∈ collected collections ∧ inWindow now row = true := by
  rw [selected, (order.perm _).mem_iff, List.mem_filter]

/-- The time that a run finished at is part of the key. -/
theorem inWindow_of_key {a b : TimedRun} (h : keyOf a = keyOf b) :
    inWindow now a = inWindow now b := by
  rw [inWindow, inWindow, show a.finished_at = b.finished_at from congrArg (fun k => k.2.1) h]

theorem selected_stored (k : String × ℕ × String) :
    k ∈ (selected order now (collected collections)).map keyOf ↔
      ∃ s ∈ recordsOf now collections, keyOf s.row = k := by
  have hkeys : k ∈ (collected collections).map keyOf ↔
      ∃ s ∈ collections.flatMap Collection.seen, keyOf s.row = k := by
    rw [collected_eq, mem_keys_insertAll, List.map_nil, List.map_map, List.mem_map]
    simp only [List.not_mem_nil, false_or, Function.comp_apply]
  simp only [List.mem_map, recordsOf, List.mem_filter] at hkeys ⊢
  constructor
  -- the row that is stored under the key may be of another record, with the same instant
  · rintro ⟨row, hrow, hk⟩
    obtain ⟨hmem, hin⟩ := mem_selected_iff.mp hrow
    obtain ⟨s, hs, hkey⟩ := hkeys.mp ⟨row, hmem, hk⟩
    exact ⟨s, ⟨hs, by rwa [inWindow_of_key (hkey.trans hk.symm)]⟩, hkey⟩
  · rintro ⟨s, ⟨hs, hin⟩, hkey⟩
    obtain ⟨row, hmem, hk⟩ := hkeys.mpr ⟨s, hs, hkey⟩
    exact ⟨row, mem_selected_iff.mpr ⟨hmem, by rwa [inWindow_of_key (hk.trans hkey.symm)]⟩, hk⟩

theorem selected_seen {row : TimedRun} (h : row ∈ selected order now (collected collections)) :
    ∃ s ∈ recordsOf now collections, s.row = row := by
  obtain ⟨hmem, hin⟩ := mem_selected_iff.mp h
  rw [collected_eq] at hmem
  rcases mem_or_mem_of_mem_insertAll hmem with hnil | hseen
  · cases hnil
  · obtain ⟨s, hs, rfl⟩ := List.mem_map.mp hseen
    exact ⟨s, List.mem_filter.mpr ⟨hs, hin⟩, rfl⟩

end Counted

/-- **When the report counts each run once.** Whatever was collected, in whatever order and
however often, each real run of the window is counted by one row, and no row counts two,
exactly if what was seen of the window comes under one key for each run: from one source, at
one instant, and no other run of the process has that instant there. Then the numbers of the
report are numbers of runs. -/
theorem counted_once_iff {ι : Type} [DecidableEq ι] (order : ByFinish) (now later : ℕ)
    (collections : List (Collection ι)) :
    (CountsOnce keyOf Seen.row Seen.run (recordsOf now collections)
        (selected order now (collected collections)) ↔
      OneKeyEach keyOf Seen.row Seen.run (recordsOf now collections)) ∧
    (OneKeyEach keyOf Seen.row Seen.run (recordsOf now collections) →
      ∃ counted : List (Seen ι), (∀ s ∈ counted, s ∈ recordsOf now collections) ∧
        (counted.map Seen.run).Nodup ∧
        (∀ s ∈ recordsOf now collections, s.run ∈ counted.map Seen.run) ∧
        MadeOf later counted (report order now later (collected collections))) := by
  refine ⟨countsOnce_iff selected_keys selected_stored, fun h => ?_⟩
  have hkeys : ((selected order now (collected collections)).map keyOf).Nodup := selected_keys
  -- one record for each row that was selected, and so for each run
  obtain ⟨counted, hrows, hrecords, hnodup, hall⟩ :=
    exists_counted h hkeys selected_stored fun _ => selected_seen
  refine ⟨counted, hrecords, hnodup, hall, ?_⟩
  rw [report, ← hrows]
  exact madeOf_reportOf

/-! ## A run that PA-Copilot starts -/

/-- Rows that finished together stay as they are. -/
def byFinish : ByFinish where
  arrange rows := rows.mergeSort fun a b => a.finished_at ≤ b.finished_at
  perm rows := List.mergeSort_perm rows _
  sorted rows := by
    have hmerged : (rows.mergeSort fun a b => decide (a.finished_at ≤ b.finished_at)).Pairwise
        fun a b => decide (a.finished_at ≤ b.finished_at) = true :=
      List.pairwise_mergeSort
        (fun a b c hab hbc => by
          rw [decide_eq_true_eq] at hab hbc ⊢
          exact Nat.le_trans hab hbc)
        (fun a b => by
          rw [Bool.or_eq_true, decide_eq_true_eq, decide_eq_true_eq]
          exact Nat.le_total _ _) rows
    exact hmerged.imp fun hab => of_decide_eq_true hab

/-- The line that TM1 writes at the end of a run, and the change that started it. -/
def loadLine : LogEntry :=
  ⟨"Process \"Load\":  finished executing normally, elapsed time 12.5 seconds", some 12500000⟩

def loadChange : RunChange where
  change := {
    id := 1
    connection_id := 1
    organization_id := 1
    created_by := 1
    created_at := 0
    change_type := .run_process
    target_name := "Load"
    new_content := none
    status := .executed
    executed_by := some 1
    executed_at := some 0
    execution_result :=
      some (.run ⟨true, "CompletedSuccessfully", none, "ExecuteWithReturn", none, none⟩) }
  duration_ms := some 12600

/-- The run is collected from both. -/
def ownRun : Collection ℕ := ⟨[(loadLine, 1)], [(loadChange, 1)]⟩

/-- **One run, counted twice.** -/
theorem ownRun_counted_twice :
    ¬ CountsOnce keyOf Seen.row Seen.run (recordsOf 20000000 [ownRun])
        (selected byFinish 20000000 (collected [ownRun])) ∧
      (report byFinish 20000000 20000000 (collected [ownRun])).runs_known = 2 := by
  constructor
  · rw [countsOnce_iff selected_keys selected_stored]
    intro h
    have hboth : ∃ s ∈ recordsOf 20000000 [ownRun], ∃ t ∈ recordsOf 20000000 [ownRun],
        s.run = t.run ∧ keyOf s.row ≠ keyOf t.row := by decide +kernel
    obtain ⟨s, hs, t, ht, hrun, hkey⟩ := hboth
    exact hkey ((h s hs t ht).mp hrun)
  · have hlength := (byFinish.perm ((collected [ownRun]).filter (inWindow 20000000))).length_eq
    rw [report, reportOf, selected, hlength]
    decide +kernel

/-- A run that another started is read twice from the log, and counted once. -/
theorem loggedRun_counted_once :
    CountsOnce keyOf Seen.row Seen.run
      (recordsOf 20000000 [⟨[(loadLine, 1)], []⟩, ⟨[(loadLine, 1)], []⟩])
      (selected byFinish 20000000 (collected [⟨[(loadLine, 1)], []⟩, ⟨[(loadLine, 1)], []⟩])) := by
  apply (counted_once_iff byFinish 20000000 20000000
    [⟨[(loadLine, 1)], []⟩, ⟨[(loadLine, 1)], []⟩]).1.mpr
  unfold OneKeyEach
  decide +kernel

end PaCopilot.performance.timed
