/-
`reports/errors.py`: the failures of a report execution, and what follows from
them.

A failure carries a code. Whether it is tried again, and what the user is told of
it, are functions of the code; a code that nobody has classified is not tried
again.
-/
import Mathlib.Tactic.Common

set_option autoImplicit false

namespace PaCopilot.reports

inductive RetryClass
  | RETRYABLE
  | NON_RETRYABLE
  | REQUIRES_HUMAN
  deriving DecidableEq

inductive ReportErrorCode
  | WORKER_OFFLINE
  | WORKER_UNAUTHORIZED
  | WORKER_CAPABILITY_MISSING
  | DUPLICATE_JOB
  | EXECUTION_TIMEOUT
  | WORKER_LEASE_EXPIRED
  | CANCELLED
  | WORKBOOK_MISSING
  | WORKBOOK_CHECKSUM_MISMATCH
  | WORKBOOK_INVALID
  | WORKBOOK_TOO_LARGE
  | EXCEL_LAUNCH_FAILED
  | EXCEL_CRASHED
  | PAFE_NOT_INSTALLED
  | PAFE_API_UNAVAILABLE
  | PAFE_VERSION_INCOMPATIBLE
  | WORKBOOK_OPEN_FAILED
  | TM1_AUTH_FAILED
  | TM1_CONNECTION_FAILED
  | REFRESH_FAILED
  | EXPORT_FAILED
  | EXPORT_FORMAT_UNSUPPORTED
  | ARTIFACT_UPLOAD_FAILED
  | EMAIL_FAILED
  | INVALID_RECIPIENT
  | INTERNAL_ERROR
  deriving DecidableEq

/-- `ReportErrorCode(value)`; `none` where Python raises `ValueError`. -/
def ReportErrorCode.ofText : String → Option ReportErrorCode
  | "worker_offline" => some .WORKER_OFFLINE
  | "worker_unauthorized" => some .WORKER_UNAUTHORIZED
  | "worker_capability_missing" => some .WORKER_CAPABILITY_MISSING
  | "duplicate_job" => some .DUPLICATE_JOB
  | "execution_timeout" => some .EXECUTION_TIMEOUT
  | "worker_lease_expired" => some .WORKER_LEASE_EXPIRED
  | "cancelled" => some .CANCELLED
  | "workbook_missing" => some .WORKBOOK_MISSING
  | "workbook_checksum_mismatch" => some .WORKBOOK_CHECKSUM_MISMATCH
  | "workbook_invalid" => some .WORKBOOK_INVALID
  | "workbook_too_large" => some .WORKBOOK_TOO_LARGE
  | "excel_launch_failed" => some .EXCEL_LAUNCH_FAILED
  | "excel_crashed" => some .EXCEL_CRASHED
  | "pafe_not_installed" => some .PAFE_NOT_INSTALLED
  | "pafe_api_unavailable" => some .PAFE_API_UNAVAILABLE
  | "pafe_version_incompatible" => some .PAFE_VERSION_INCOMPATIBLE
  | "workbook_open_failed" => some .WORKBOOK_OPEN_FAILED
  | "tm1_auth_failed" => some .TM1_AUTH_FAILED
  | "tm1_connection_failed" => some .TM1_CONNECTION_FAILED
  | "refresh_failed" => some .REFRESH_FAILED
  | "export_failed" => some .EXPORT_FAILED
  | "export_format_unsupported" => some .EXPORT_FORMAT_UNSUPPORTED
  | "artifact_upload_failed" => some .ARTIFACT_UPLOAD_FAILED
  | "email_failed" => some .EMAIL_FAILED
  | "invalid_recipient" => some .INVALID_RECIPIENT
  | "internal_error" => some .INTERNAL_ERROR
  | _ => none

/-- `coerce_error_code`: what a worker sends is input, not truth. -/
def coerce_error_code (value : Option String) : ReportErrorCode :=
  match value with
  | none => .INTERNAL_ERROR
  | some text => (ReportErrorCode.ofText text).getD .INTERNAL_ERROR

/-- `retry_class_for`. -/
def retry_class_for : ReportErrorCode → RetryClass
  | .WORKER_OFFLINE | .EXECUTION_TIMEOUT | .WORKER_LEASE_EXPIRED | .EXCEL_LAUNCH_FAILED
  | .EXCEL_CRASHED | .TM1_CONNECTION_FAILED | .REFRESH_FAILED | .ARTIFACT_UPLOAD_FAILED
  | .EMAIL_FAILED | .INTERNAL_ERROR => .RETRYABLE
  | .WORKER_UNAUTHORIZED | .WORKER_CAPABILITY_MISSING | .PAFE_NOT_INSTALLED
  | .PAFE_API_UNAVAILABLE | .PAFE_VERSION_INCOMPATIBLE | .TM1_AUTH_FAILED
  | .INVALID_RECIPIENT => .REQUIRES_HUMAN
  | .DUPLICATE_JOB | .CANCELLED | .WORKBOOK_MISSING | .WORKBOOK_CHECKSUM_MISMATCH
  | .WORKBOOK_INVALID | .WORKBOOK_TOO_LARGE | .WORKBOOK_OPEN_FAILED | .EXPORT_FAILED
  | .EXPORT_FORMAT_UNSUPPORTED => .NON_RETRYABLE

/-- `message_for`: what the user is told. -/
def message_for : ReportErrorCode → String
  | .WORKER_OFFLINE => "No online worker was available to run this report."
  | .WORKER_UNAUTHORIZED => "The worker is not authorized to run this report."
  | .WORKER_CAPABILITY_MISSING =>
    "No worker is able to run this report. Check that Planning "
      ++ "Analytics for Microsoft Excel is installed on the worker and that "
      ++ "it supports the requested output formats (run `pa-worker "
      ++ "diagnostics` on the worker host)."
  | .DUPLICATE_JOB => "An execution for this occurrence already exists."
  | .EXECUTION_TIMEOUT => "The report did not finish within the configured time limit."
  | .WORKER_LEASE_EXPIRED => "The worker stopped responding while the report was running."
  | .CANCELLED => "The execution was cancelled."
  | .WORKBOOK_MISSING => "The workbook for this report could not be found."
  | .WORKBOOK_CHECKSUM_MISMATCH =>
    "The downloaded workbook did not match its recorded checksum and "
      ++ "was not opened."
  | .WORKBOOK_INVALID => "The uploaded file is not a valid Excel workbook."
  | .WORKBOOK_TOO_LARGE => "The workbook exceeds the maximum allowed size."
  | .EXCEL_LAUNCH_FAILED => "Microsoft Excel could not be started on the worker."
  | .EXCEL_CRASHED => "Microsoft Excel stopped responding while the report was running."
  | .PAFE_NOT_INSTALLED =>
    "Planning Analytics for Microsoft Excel is not installed on the "
      ++ "worker."
  | .PAFE_API_UNAVAILABLE =>
    "The Planning Analytics for Microsoft Excel automation API could "
      ++ "not be reached on the worker."
  | .PAFE_VERSION_INCOMPATIBLE =>
    "The installed Planning Analytics for Microsoft Excel version is "
      ++ "not supported."
  | .WORKBOOK_OPEN_FAILED => "Excel could not open the workbook."
  | .TM1_AUTH_FAILED => "Sign-in to the Planning Analytics server was rejected."
  | .TM1_CONNECTION_FAILED => "The Planning Analytics server could not be reached."
  | .REFRESH_FAILED => "The workbook refresh did not complete successfully."
  | .EXPORT_FAILED => "The report output could not be generated."
  | .EXPORT_FORMAT_UNSUPPORTED =>
    "This workbook cannot be exported in one of the requested formats."
  | .ARTIFACT_UPLOAD_FAILED => "The generated report could not be uploaded."
  | .EMAIL_FAILED => "The report could not be emailed."
  | .INVALID_RECIPIENT => "One or more recipients are not valid."
  | .INTERNAL_ERROR => "The report failed for an unexpected reason."

end PaCopilot.reports
