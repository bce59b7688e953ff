import PlcGateway.Scan.Pass
import PlcGateway.Settings.Basic

/-!
# The scan loop

The loop makes one pass after the other, with a pause between them, until it is cancelled, the queue
is closed, or, if that is wanted, a pass is not complete. Only passes that ended before cancellation
count towards the totals.
-/

namespace PlcGateway

/-- What the passes of a loop have done together. -/
structure ScanTotals where
  scans : Nat := 0
  messages : Nat := 0
  maxPerScan : Nat := 0
  incomplete : Nat := 0
  deriving DecidableEq, Repr, Inhabited

/-- The totals with one more pass. -/
def ScanTotals.record (totals : ScanTotals) (report : ScanReport) : ScanTotals where
  scans := totals.scans + 1
  messages := totals.messages + report.succeeded
  maxPerScan := max totals.maxPerScan report.succeeded
  incomplete := if report.isComplete then totals.incomplete else totals.incomplete + 1

/-- Why a loop has stopped before it was cancelled. -/
inductive ScanFailure where
  | unhealthy (report : ScanReport)
  | poolClosed
  deriving DecidableEq, Repr

/-- The wording of a failure. -/
def ScanFailure.message : ScanFailure → String
  | .unhealthy report => report.message
  | .poolClosed => "Worker pool is closed"

namespace ScanLoop

/-- What one pass does to a loop: it fails, or it stops or goes on with new totals. -/
inductive Turn where
  | failed (failure : ScanFailure)
  | stopped (totals : ScanTotals)
  | running (totals : ScanTotals)
  deriving DecidableEq, Repr

/-- One turn of a loop, given how its pass ended and with what report. -/
def turn (failOnIncomplete : Bool) (totals : ScanTotals) (ending : PassEnd)
    (report : ScanReport) : Turn :=
  match ending with
  | .closed => .failed .poolClosed
  | .cancelled => .stopped totals
  | .finished =>
    match report.check with
    | .error report =>
      if failOnIncomplete then .failed (.unhealthy report) else .running (totals.record report)
    | .ok () => .running (totals.record report)

/-- Runs a loop over the passes that are made before it is cancelled between two of them. -/
def run (failOnIncomplete : Bool) :
    List (PassEnd × ScanReport) → ScanTotals → Except ScanFailure ScanTotals
  | [], totals => .ok totals
  | (ending, report) :: rest, totals =>
    match turn failOnIncomplete totals ending report with
    | .failed failure => .error failure
    | .stopped totals => .ok totals
    | .running totals => run failOnIncomplete rest totals

/-- The least pause after a pass that had nothing to read, in milliseconds. -/
def idlePauseMs : Nat := 100

/-- The pause after a pass. -/
def pauseMs (intervalMs : Nat) (report : ScanReport) : Nat :=
  if report.attempted = 0 then max intervalMs idlePauseMs else intervalMs

end ScanLoop

end PlcGateway
