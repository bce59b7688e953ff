import PlcGateway.Device.Basic
import PlcGateway.Register.Value
import PlcGateway.Text.Numeral

/-!
# One pass over the devices

A pass reads devices in order and queues every value that it has read. A read that fails or takes
too long is counted, and the pass goes on with the next device. The pass ends early when it is
cancelled, which is looked for before each device, and when the queue is closed.

The pass knows of the devices only what a read gives, and of the queue only whether it takes a
message: `σ` is what reads work on and `π` is what messages go to.

The report of a pass counts the devices that were attempted, by how each read ended. A pass is
complete if every device that was attempted was read.
-/

namespace PlcGateway

/-! ## Reports -/

/-- How the reads of a scan ended. -/
structure ScanReport where
  attempted : Nat := 0
  succeeded : Nat := 0
  timedOut : Nat := 0
  failed : Nat := 0
  deriving DecidableEq, Repr, Inhabited

namespace ScanReport

/-- Whether every device that was attempted was read. -/
def isComplete (report : ScanReport) : Bool := report.succeeded == report.attempted

/-- The report of a complete scan, or the report as an error. -/
def check (report : ScanReport) : Except ScanReport Unit :=
  if report.isComplete then .ok () else .error report

/-- The wording for a scan that is not complete. -/
def message (report : ScanReport) : String :=
  s!"Incomplete scan: read {report.succeeded} of {report.attempted} devices "
    ++ s!"({report.timedOut} timed out, {report.failed} failed)"

end ScanReport

/-! ## Passes -/

/-- How the read of a device ends. -/
inductive Reading where
  | value (v : RegisterValue)
  | failed
  | timedOut
  deriving DecidableEq, Repr

/-- Reads a device of a PLC. -/
abbrev Reader (σ : Type) := String → Device → σ → Reading × σ

/-- Queues a message, if the queue is open. -/
abbrev Queue (π : Type) := Message → π → Option π

/-- How a pass ends. -/
inductive PassEnd where
  /-- Every device was attempted. -/
  | finished
  /-- The pass was cancelled. -/
  | cancelled
  /-- The queue was closed. -/
  | closed
  deriving DecidableEq, Repr

/-- What is left after a pass. -/
structure Pass (σ π : Type) where
  ending : PassEnd
  report : ScanReport
  readers : σ
  queue : π

namespace ScanReport

/-- The report with one more device attempted. -/
def count (report : ScanReport) : Reading → ScanReport
  | .value _ =>
    { report with attempted := report.attempted + 1, succeeded := report.succeeded + 1 }
  | .failed => { report with attempted := report.attempted + 1, failed := report.failed + 1 }
  | .timedOut => { report with attempted := report.attempted + 1, timedOut := report.timedOut + 1 }

end ScanReport

variable {σ π : Type}

/-- Goes on with a pass over `(plc, device)` pairs. With `some n` it is cancelled when `n` more
devices were attempted. -/
def scanFrom (read : Reader σ) (queue : Queue π) :
    List (String × Device) → Option Nat → ScanReport → σ → π → Pass σ π
  | _, some 0, report, s, p => ⟨.cancelled, report, s, p⟩
  | [], _, report, s, p => ⟨.finished, report, s, p⟩
  | (plc, device) :: rest, patience, report, s, p =>
    let (reading, s) := read plc device s
    let report := report.count reading
    match reading with
    | .value v =>
      match queue ⟨device.address, v, plc⟩ p with
      | some p => scanFrom read queue rest (patience.map (· - 1)) report s p
      | none => ⟨.closed, report, s, p⟩
    | _ => scanFrom read queue rest (patience.map (· - 1)) report s p

/-- Makes one pass over devices. -/
def scan (read : Reader σ) (queue : Queue π) (devices : List (String × Device))
    (patience : Option Nat) (s : σ) (p : π) : Pass σ π :=
  scanFrom read queue devices patience {} s p

end PlcGateway
