/-
The files of an execution (`reports/artifact_service.py`) and the request that brings one
(`upload_artifact` of `api/v1/worker.py`).

A file that was put in storage first is recorded by the same function, once its bytes are
read back. The row of an artifact stands here with the bytes that `storage_reference` leads
to in place of the reference.
-/
import PaCopilot.Lib.Table
import PaCopilot.Reports.Execution

set_option autoImplicit false

namespace PaCopilot.reports

open Table

/-- The functions of the standard library that decide what is stored:
`hashlib.sha256(data).hexdigest()`, `str.lower`, `str.isalnum` and `str` of a UUID. -/
structure Library where
  sha256 : List UInt8 → String
  lower : String → String
  isalnum : Char → Bool
  uuid_text : ℕ → List Char

inductive OutputFormat
  | XLSX
  | PDF
  | CSV
  deriving DecidableEq

def OutputFormat.value : OutputFormat → String
  | .XLSX => "xlsx"
  | .PDF => "pdf"
  | .CSV => "csv"

/-- `OutputFormat(value)`; `none` where Python raises `ValueError`. -/
def OutputFormat.ofText : String → Option OutputFormat
  | "xlsx" => some .XLSX
  | "pdf" => some .PDF
  | "csv" => some .CSV
  | _ => none

def MIME_BY_FORMAT : OutputFormat → String
  | .XLSX => "application/vnd.openxmlformats-officedocument.spreadsheetml.sheet"
  | .PDF => "application/pdf"
  | .CSV => "text/csv"

/-- `settings.REPORT_MAX_ARTIFACT_BYTES`. -/
def REPORT_MAX_ARTIFACT_BYTES : ℕ := 50 * 1024 * 1024

structure ReportArtifact where
  organization_id : ℕ
  report_execution_id : ℕ
  output_format : String
  filename : String
  mime_type : String
  size_bytes : ℕ
  checksum : String
  content : List UInt8
  deriving DecidableEq

/-- What `uq_report_artifacts_execution_format` keeps apart. -/
def ReportArtifact.slot (a : ReportArtifact) : ℕ × String := (a.report_execution_id, a.output_format)

/-- `report_artifact_repository.get_by_execution_and_format`. -/
def get_by_execution_and_format (artifacts : List ReportArtifact) (execution_id : ℕ)
    (output_format : String) : Except AppException (Option ReportArtifact) :=
  scalar_one_or_none (PythonError "MultipleResultsFound")
    (artifacts.filter fun a => a.slot = (execution_id, output_format))

section Upload

variable (lib : Library)

/-- `s.rsplit(".", 1)[0]`. -/
def rsplitDot (s : List Char) : List Char :=
  if s.contains '.' then (s.reverse.dropWhile (· ≠ '.')).tail.reverse else s

/-- `_artifact_filename`. -/
def _artifact_filename (execution : ReportExecution) (output_format : OutputFormat)
    (suggested : String) : String :=
  let name := if suggested = "" then "report" else suggested
  let kept := ((rsplitDot name.toList).filter fun c => lib.isalnum c || c = '-' || c = '_').take 60
  let stem := if kept = [] then "report" else String.ofList kept
  s!"{stem}-{String.ofList ((lib.uuid_text execution.id).take 8)}.{output_format.value}"

/-- A checksum was declared, and it is another. -/
def mismatched (declared_checksum : Option String) (computed : String) : Bool :=
  match declared_checksum with
  | none | some "" => false
  | some declared => lib.lower declared ≠ computed

/-- `record_upload`, given the artifact that it finds in the slot. -/
def record_upload (execution : ReportExecution) (output_format : OutputFormat) (filename : String)
    (data : List UInt8) (declared_checksum : Option String) (existing : Option ReportArtifact) :
    Except AppException (ReportArtifact × Bool) := do
  refuse (data = []) (ValidationException "The uploaded artifact is empty.")
  refuse (REPORT_MAX_ARTIFACT_BYTES < data.length)
    (ValidationException "The generated report exceeds the maximum artifact size.")
  let computed := lib.sha256 data
  refuse (mismatched lib declared_checksum computed = true)
    (ValidationException "The uploaded artifact did not match its declared checksum.")
  match existing with
  | some existing => do
    -- the same bytes again are answered with the row there is
    refuse (existing.checksum ≠ computed)
      (ConflictException "A different artifact already exists for this execution and format.")
    return (existing, false)
  | none =>
    return ({
      organization_id := execution.organization_id
      report_execution_id := execution.id
      output_format := output_format.value
      filename := _artifact_filename lib execution output_format filename
      mime_type := MIME_BY_FORMAT output_format
      size_bytes := data.length
      checksum := computed
      content := data }, true)

/-- The form that a worker sends with one of its files. -/
structure Upload where
  filename : String
  output_format : String
  content : List UInt8
  checksum : Option String
  deriving DecidableEq

variable (worker : ReportWorker)

/-- `upload_artifact` up to the lookup: the execution is the worker's and still runs. -/
def upload_format (execution : ReportExecution) (upload : Upload) :
    Except AppException OutputFormat := do
  _assert_owned_by execution worker
  refuse (execution.status.leased = false)
    (ConflictException "This execution is no longer accepting artifacts.")
  match OutputFormat.ofText upload.output_format with
  | none => .error (ValidationException s!"Unknown output format: {upload.output_format}")
  | some output_format => .ok output_format

/-- `upload_artifact`: the artifact, and whether it is a new one. -/
def upload_artifact (execution : ReportExecution) (upload : Upload)
    (existing : Option ReportArtifact) : Except AppException (ReportArtifact × Bool) := do
  let output_format ← upload_format worker execution upload
  record_upload lib execution output_format
    (if upload.filename = "" then "report" else upload.filename) upload.content upload.checksum
    existing

end Upload

/-! ## What an upload leads to -/

theorem value_of_ofText {text : String} {output_format : OutputFormat}
    (h : OutputFormat.ofText text = some output_format) : output_format.value = text := by
  unfold OutputFormat.ofText at h
  split at h
  all_goals cases h
  all_goals rfl

section Uploaded

variable {lib : Library} {worker : ReportWorker} {execution : ReportExecution} {upload : Upload}
  {a : ReportArtifact}

theorem upload_format_ok {output_format : OutputFormat}
    (h : upload_format worker execution upload = .ok output_format) :
    output_format.value = upload.output_format := by
  unfold upload_format at h
  obtain ⟨_, -, h⟩ := bind_eq_ok_iff.mp h
  obtain ⟨-, h⟩ := passed_of_bind h
  split at h
  · cases h
  · rename_i found hfound
    rw [← Except.ok.inj h]
    exact value_of_ofText hfound

/-- An upload that finds an artifact gets it, with the checksum of its own bytes. -/
theorem upload_artifact_found {existing : ReportArtifact} {created : Bool}
    (h : upload_artifact lib worker execution upload (some existing) = .ok (a, created)) :
    a = existing ∧ created = false ∧ existing.checksum = lib.sha256 upload.content := by
  unfold upload_artifact record_upload at h
  obtain ⟨_, -, h⟩ := bind_eq_ok_iff.mp h
  obtain ⟨-, h⟩ := passed_of_bind h
  obtain ⟨-, h⟩ := passed_of_bind h
  obtain ⟨-, h⟩ := passed_of_bind h
  obtain ⟨hsame, h⟩ := passed_of_bind h
  cases h
  exact ⟨rfl, rfl, not_not.mp hsame⟩

/-- An upload that finds none makes one of its bytes, in its slot. -/
theorem upload_artifact_made {created : Bool}
    (h : upload_artifact lib worker execution upload none = .ok (a, created)) :
    created = true ∧ a.slot = (execution.id, upload.output_format) ∧ a.content = upload.content ∧
      a.checksum = lib.sha256 upload.content := by
  unfold upload_artifact record_upload at h
  obtain ⟨output_format, hformat, h⟩ := bind_eq_ok_iff.mp h
  obtain ⟨-, h⟩ := passed_of_bind h
  obtain ⟨-, h⟩ := passed_of_bind h
  obtain ⟨-, h⟩ := passed_of_bind h
  cases h
  exact ⟨rfl, by rw [ReportArtifact.slot, upload_format_ok hformat], rfl, rfl⟩

/-- The artifact that a lookup finds is stored, in the slot. -/
theorem get_by_execution_and_format_found {artifacts : List ReportArtifact} {execution_id : ℕ}
    {output_format : String}
    (h : get_by_execution_and_format artifacts execution_id output_format = .ok (some a)) :
    a ∈ artifacts ∧ a.slot = (execution_id, output_format) := by
  unfold get_by_execution_and_format at h
  have hhead := (scalar_one_or_none_eq_ok_iff.mp h).2
  have hmem := List.mem_of_mem_head? hhead
  rw [List.mem_filter, decide_eq_true_eq] at hmem
  exact hmem

end Uploaded

end PaCopilot.reports
