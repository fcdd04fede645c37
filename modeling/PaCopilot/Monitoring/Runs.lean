/-
The runs of processes that are collected, `tm1/health/performance.py` with what it asks of
`tm1/services/log_service.py`.

A run comes from TM1's message log, or from a change that ran the process. It is stored
under its process, the instant it finished at and where it comes from; how long it took is
left out here.
-/
import PaCopilot.Change.Row
import PaCopilot.Lib.Dedup
import PaCopilot.Python

set_option autoImplicit false

namespace PaCopilot.performance

open Dedup

/-- A line of the message log. The instant is what `_timestamp` makes of its `TimeStamp`, in
microseconds. -/
structure LogEntry where
  message : String
  timestamp : Option ℕ
  deriving DecidableEq

/-- A row of `tm1_process_runs`. -/
structure TM1ProcessRun where
  process_name : String
  finished_at : ℕ
  outcome : String
  source : String
  deriving DecidableEq

/-- The columns of `uq_tm1_process_runs_run`. -/
def TM1ProcessRun.key (run : TM1ProcessRun) : String × ℕ × String :=
  (run.process_name, run.finished_at, run.source)

def classify_run_message (message : String) : String :=
  let text := Python.lowerAscii message
  if Python.contains text "finished executing normally" then "succeeded"
  else if Python.contains text "aborted" then "aborted"
  else if Python.contains text "minor errors" || Python.contains text "with errors" then
    "completed_with_errors"
  else if Python.contains text "processquit" || Python.contains text "quit called"
      || Python.contains text "process quit" then "quit"
  else if Python.contains text "executed by" || Python.contains text "started" then "started"
  else "other"

def _FINISHED : List String := ["succeeded", "aborted", "completed_with_errors", "quit"]

/-- What `_PROCESS_NAME` matches at the beginning of a text: the word in any case, white space and a
quoted name. -/
def quotedName (s : List Char) : Option String :=
  (Python.afterWord "process".toList s).bind fun following =>
    let gap := following.takeWhile Python.isspace
    match following.dropWhile Python.isspace with
    | '"' :: rest =>
      let name := rest.takeWhile (· ≠ '"')
      if gap ≠ [] ∧ name ≠ [] ∧ name.length < rest.length then some (String.ofList name) else none
    | _ => none

/-- `_PROCESS_NAME.search(message)`: the first match from the left. -/
def _PROCESS_NAME (message : String) : Option String := message.toList.tails.findSome? quotedName

/-- The run that a line is about. -/
def runOf (entry : LogEntry) : Option TM1ProcessRun := do
  let name ← _PROCESS_NAME entry.message
  let finished_at ← entry.timestamp
  let outcome := classify_run_message entry.message
  -- a line about a start, or about anything else, is skipped
  if outcome ∈ _FINISHED then some ⟨name, finished_at, outcome, "message_log"⟩ else none

def parse_runs (entries : List LogEntry) : List TM1ProcessRun := entries.filterMap runOf

/-- The run that a change has made, if it started. -/
def paRunOf (change : TM1Change) : Option TM1ProcessRun := do
  if change.change_type ≠ .run_process then none
  let executed_at ← change.executed_at
  let result ← change.execution_result
  let succeeded := match result with
    | .run result => result.success
    | .noResponse | .notStarted | .view _ _ => false
  if result = .notStarted then none
  else
    -- the instant is that at which the change was executed, not that of the end of the run
    some ⟨change.target_name, executed_at, if succeeded then "succeeded" else "aborted",
      "pa_copilot"⟩

/-- `_store`: a run that is there already is dropped. -/
def _store (rows runs : List TM1ProcessRun) : List TM1ProcessRun :=
  insertAll TM1ProcessRun.key rows runs

/-- `collect_runs`, from the lines of the log and the changes of the connection. -/
def collect_runs (entries : List LogEntry) (changes : List TM1Change) (rows : List TM1ProcessRun) :
    List TM1ProcessRun :=
  _store (_store rows (parse_runs entries)) (changes.filterMap paRunOf)

example : parse_runs [⟨"Process \"Load\" executed by user", some 1⟩,
    ⟨"Process \"Load\":  execution was aborted", some 2⟩]
  = [⟨"Load", 2, "aborted", "message_log"⟩] := by decide +kernel

end PaCopilot.performance
