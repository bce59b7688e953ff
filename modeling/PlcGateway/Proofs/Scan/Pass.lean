import PlcGateway.Scan.Pass

/-!
# What a pass does

As long as the queue is open, a pass attempts devices in order up to where it is cancelled, whatever
the reads give (`scanFrom_hasAttempted`). It counts each of them once and queues one message for
each read that gives a value. So a report is complete exactly if every attempt has a message
(`ScanReport.check_countAll_eq_ok_iff`).
-/

namespace PlcGateway

variable {σ π : Type}

/-- A read of a device in a pass. -/
structure Attempt where
  plc : String
  device : Device
  reading : Reading

namespace Attempt

/-- The device that was attempted, with its PLC. -/
def place (attempt : Attempt) : String × Device := (attempt.plc, attempt.device)

/-- The message for what was read, if there is a value. -/
def message? (attempt : Attempt) : Option Message :=
  match attempt.reading with
  | .value v => some ⟨attempt.device.address, v, attempt.plc⟩
  | _ => none

/-- The messages for what was read, in order. -/
def messages (attempts : List Attempt) : List Message := attempts.filterMap message?

theorem messages_cons (attempt : Attempt) (attempts : List Attempt) :
    messages (attempt :: attempts) = attempt.message?.toList ++ messages attempts := by
  rw [messages, List.filterMap_cons]
  cases attempt.message? <;> rfl

end Attempt

/-- Reads devices one after the other, and gives what the reads leave behind. -/
def Reader.attempts (read : Reader σ) : List (String × Device) → σ → List Attempt × σ
  | [], s => ([], s)
  | (plc, device) :: rest, s =>
    let (reading, s) := read plc device s
    let (others, s) := attempts read rest s
    (⟨plc, device, reading⟩ :: others, s)

/-- The queue takes every message and puts it behind the ones that it was given before. -/
def Queue.IsOpen (queue : Queue π) (queued : π → List Message) : Prop :=
  ∀ message p, ∃ p', queue message p = some p' ∧ queued p' = queued p ++ [message]

/-! ## Reports -/

namespace ScanReport

/-- The report with some more devices attempted. -/
def countAll (report : ScanReport) (attempts : List Attempt) : ScanReport :=
  attempts.foldl (fun report attempt => report.count attempt.reading) report

/-- Every attempt is counted once, by how its read has ended. -/
theorem countAll_eq (report : ScanReport) (attempts : List Attempt) :
    report.countAll attempts =
      { attempted := report.attempted + attempts.length
        succeeded := report.succeeded + (Attempt.messages attempts).length
        timedOut := report.timedOut + attempts.countP (·.reading = .timedOut)
        failed := report.failed + attempts.countP (·.reading = .failed) } := by
  induction attempts generalizing report with
  | nil => rfl
  | cons attempt attempts ih =>
    show (report.count attempt.reading).countAll attempts = _
    rw [ih, Attempt.messages_cons, List.length_append, List.length_cons, List.countP_cons,
      List.countP_cons]
    cases hreading : attempt.reading <;> simp [count, Attempt.message?, hreading] <;> omega

/-- Every attempt has a message, has timed out or has failed. -/
theorem length_attempts (attempts : List Attempt) :
    attempts.length = (Attempt.messages attempts).length +
      attempts.countP (·.reading = .timedOut) + attempts.countP (·.reading = .failed) := by
  induction attempts with
  | nil => rfl
  | cons attempt attempts ih =>
    rw [Attempt.messages_cons, List.length_append, List.length_cons, List.countP_cons,
      List.countP_cons, ih]
    cases hreading : attempt.reading <;> simp [Attempt.message?, hreading] <;> omega

theorem check_eq_ok_iff {report : ScanReport} :
    report.check = .ok () ↔ report.succeeded = report.attempted := by
  simp [check, isComplete]

/-- A report is of a complete scan exactly if there is a message for every attempt. -/
theorem check_countAll_eq_ok_iff {attempts : List Attempt} :
    (countAll {} attempts).check = .ok () ↔
      ∀ attempt ∈ attempts, ∃ message, attempt.message? = some message := by
  rw [check_eq_ok_iff, countAll_eq]
  show 0 + (Attempt.messages attempts).length = 0 + attempts.length ↔ _
  rw [Nat.zero_add, Nat.zero_add, Attempt.messages, List.length_filterMap_eq_countP,
    List.countP_eq_length]
  simp only [Option.isSome_iff_exists]

end ScanReport

/-! ## Passes -/

namespace Reader

theorem map_place_attempts (read : Reader σ) (devices : List (String × Device)) (s : σ) :
    (read.attempts devices s).1.map Attempt.place = devices := by
  induction devices generalizing s with
  | nil => rfl
  | cons place devices ih => exact congrArg (place :: ·) (ih _)

/-- What the reads leave unchanged one by one they leave unchanged all together. -/
theorem attempts_invariant {read : Reader σ} {P : σ → Prop}
    (step : ∀ plc device s, P s → P (read plc device s).2) (devices : List (String × Device))
    {s : σ} (start : P s) : P (read.attempts devices s).2 := by
  induction devices generalizing s with
  | nil => exact start
  | cons place devices ih => exact ih (step place.1 place.2 s start)

/-- Every device is read where the reads before it have left off. -/
theorem getElem?_attempts (read : Reader σ) (devices : List (String × Device)) (s : σ) (i : Nat) :
    (read.attempts devices s).1[i]? = devices[i]?.map fun (plc, device) =>
      ⟨plc, device, (read plc device (read.attempts (devices.take i) s).2).1⟩ := by
  induction devices generalizing s i with
  | nil => rfl
  | cons place devices ih =>
    cases i with
    | zero => rfl
    | succ i => exact ih _ i

end Reader

/-- What a pass has done that has attempted all these devices and nothing else. -/
structure Pass.HasAttempted (pass : Pass σ π) (queued : π → List Message) (report : ScanReport)
    (before : List Message) (attempts : List Attempt × σ) : Prop where
  not_closed : pass.ending ≠ .closed
  report_eq : pass.report = report.countAll attempts.1
  readers_eq : pass.readers = attempts.2
  queued_eq : queued pass.queue = before ++ Attempt.messages attempts.1

section Passes

variable {queue : Queue π} {queued : π → List Message}

/-- A pass that is not cancelled attempts a device, queues what it has read and goes on. -/
theorem scanFrom_cons (read : Reader σ) (isOpen : queue.IsOpen queued) {patience : Option Nat}
    (goesOn : patience ≠ some 0) (plc : String) (device : Device) (rest : List (String × Device))
    (report : ScanReport) (s : σ) (p : π) :
    ∃ p', queued p' =
        queued p ++ (⟨plc, device, (read plc device s).1⟩ : Attempt).message?.toList ∧
      scanFrom read queue ((plc, device) :: rest) patience report s p =
        scanFrom read queue rest (patience.map (· - 1)) (report.count (read plc device s).1)
          (read plc device s).2 p' := by
  rw [scanFrom]
  · rcases read plc device s with ⟨_ | _ | _, s'⟩
    · next v =>
      obtain ⟨p', htaken, hqueued⟩ := isOpen ⟨device.address, v, plc⟩ p
      refine ⟨p', hqueued, ?_⟩
      simp only [htaken]
    · exact ⟨p, (List.append_nil _).symm, rfl⟩
    · exact ⟨p, (List.append_nil _).symm, rfl⟩
  · exact goesOn

/-- A pass attempts as many devices as it has patience for. -/
theorem scanFrom_hasAttempted (read : Reader σ) (isOpen : queue.IsOpen queued)
    (devices : List (String × Device)) (patience : Option Nat) (report : ScanReport) (s : σ)
    (p : π) :
    (scanFrom read queue devices patience report s p).HasAttempted queued report (queued p)
      (read.attempts (devices.take (patience.getD devices.length)) s) := by
  induction devices generalizing patience report s p with
  | nil =>
    rw [List.take_nil]
    rcases patience with _ | _ | n
    all_goals exact ⟨by simp [scanFrom], rfl, rfl, (List.append_nil _).symm⟩
  | cons place rest ih =>
    obtain ⟨plc, device⟩ := place
    by_cases hcancelled : patience = some 0
    · rw [hcancelled]
      exact ⟨by simp [scanFrom], rfl, rfl, (List.append_nil _).symm⟩
    · obtain ⟨p', hqueued, hscan⟩ :=
        scanFrom_cons read isOpen hcancelled plc device rest report s p
      have htake : ((plc, device) :: rest).take (patience.getD (rest.length + 1)) =
          (plc, device) :: rest.take ((patience.map (· - 1)).getD rest.length) := by
        rcases patience with _ | _ | n
        · rfl
        · exact absurd rfl hcancelled
        · rfl
      obtain ⟨hopen, hreport, hreaders, hothers⟩ :=
        ih (patience.map (· - 1)) (report.count (read plc device s).1) (read plc device s).2 p'
      rw [hscan, List.length_cons, htake]
      refine ⟨hopen, hreport, hreaders, ?_⟩
      rw [hothers, hqueued, List.append_assoc, Reader.attempts, Attempt.messages_cons]

/-- A pass is cancelled exactly if it has no patience for more than its devices. -/
theorem ending_scanFrom (read : Reader σ) (isOpen : queue.IsOpen queued)
    (devices : List (String × Device)) (patience : Option Nat) (report : ScanReport) (s : σ)
    (p : π) :
    (scanFrom read queue devices patience report s p).ending = .cancelled ↔
      ∃ n, patience = some n ∧ n ≤ devices.length := by
  induction devices generalizing patience report s p with
  | nil => rcases patience with _ | _ | n <;> simp [scanFrom]
  | cons place rest ih =>
    obtain ⟨plc, device⟩ := place
    by_cases hcancelled : patience = some 0
    · simp [hcancelled, scanFrom]
    · obtain ⟨p', -, hscan⟩ :=
        scanFrom_cons read isOpen hcancelled plc device rest report s p
      rw [hscan, ih]
      rcases patience with _ | _ | n
      · simp
      · exact absurd rfl hcancelled
      · simp

end Passes

end PlcGateway
