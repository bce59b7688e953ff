import Mathlib.Algebra.GroupWithZero.Nat
import Mathlib.Logic.Basic
import PlcGateway.Gateway
import PlcGateway.Proofs.Scan.Pass

/-!
# What a loop comes to

A loop is cancelled in some pass or in the pause before it. `passesUntil` gives the passes that are
begun until then: those before it are made in whole, and the one in which the loop is cancelled is
cut short. What the loop comes to is known from the passes that have ended
(`ScanLoop.run_until`): it fails at the first of them that has not read every device, if it is to,
and otherwise it gives the totals over all of them. A pass that is cut short counts for nothing.
-/

namespace PlcGateway

/-! ## Reports -/

namespace ScanReport

/-- Fewer devices were read than were attempted. -/
def IsShort (report : ScanReport) : Prop := report.succeeded < report.attempted

instance (report : ScanReport) : Decidable report.IsShort :=
  inferInstanceAs (Decidable (report.succeeded < report.attempted))

/-- Every attempt is counted in one of three ways. -/
def IsBalanced (report : ScanReport) : Prop :=
  report.attempted = report.succeeded + report.timedOut + report.failed

theorem isBalanced_empty : IsBalanced {} := rfl

theorem IsBalanced.count {report : ScanReport} (balanced : report.IsBalanced) (reading : Reading) :
    (report.count reading).IsBalanced := by
  unfold IsBalanced at balanced ⊢
  cases reading <;> simp only [ScanReport.count] <;> omega

theorem IsBalanced.isComplete_iff {report : ScanReport} (balanced : report.IsBalanced) :
    report.isComplete = true ↔ ¬ report.IsShort := by
  unfold IsBalanced at balanced
  unfold isComplete IsShort
  rw [beq_iff_eq]
  omega

end ScanReport

/-! ## Totals -/

namespace ScanTotals

/-- The totals over some reports. -/
def ofReports (reports : List ScanReport) : ScanTotals where
  scans := reports.length
  messages := (reports.map ScanReport.succeeded).sum
  maxPerScan := (reports.map ScanReport.succeeded).max?.getD 0
  incomplete := reports.countP fun report => report.IsShort

theorem foldl_record (totals : ScanTotals) (reports : List ScanReport) :
    reports.foldl record totals =
      { scans := totals.scans + reports.length
        messages := totals.messages + (reports.map ScanReport.succeeded).sum
        maxPerScan := (reports.map ScanReport.succeeded).foldl max totals.maxPerScan
        incomplete := totals.incomplete + reports.countP fun report => !report.isComplete } := by
  induction reports generalizing totals with
  | nil => rfl
  | cons report reports ih =>
    rw [List.foldl_cons, ih, record, List.length_cons, List.map_cons, List.sum_cons,
      List.foldl_cons, List.countP_cons]
    cases report.isComplete <;> simp <;> omega

theorem foldl_record_empty {reports : List ScanReport}
    (balanced : ∀ report ∈ reports, report.IsBalanced) :
    reports.foldl record {} = ofReports reports := by
  have hcount : reports.countP (fun report => !report.isComplete) =
      reports.countP fun report => report.IsShort := by
    apply List.countP_congr
    intro report hreport
    rw [Bool.not_eq_true', decide_eq_true_iff, ← Bool.not_eq_true,
      (balanced report hreport).isComplete_iff, not_not]
  rw [foldl_record, hcount, ofReports]
  cases reports with
  | nil => rfl
  | cons report reports =>
    rw [List.map_cons, List.max?_cons', List.foldl_cons, Option.getD_some, Nat.zero_max]
    simp

end ScanTotals

/-! ## How a pass ends -/

section Passes

variable {σ π : Type} (read : Reader σ) (queue : Queue π)

/-- A pass that is not cancelled attempts a device, and then it ends, because the queue is closed,
or goes on. -/
theorem scanFrom_cons_cases {patience : Option Nat} (goesOn : patience ≠ some 0) (plc : String)
    (device : Device) (rest : List (String × Device)) (report : ScanReport) (s : σ) (p : π) :
    let (reading, s') := read plc device s
    scanFrom read queue ((plc, device) :: rest) patience report s p =
        ⟨.closed, report.count reading, s', p⟩ ∨
      ∃ p', scanFrom read queue ((plc, device) :: rest) patience report s p =
        scanFrom read queue rest (patience.map (· - 1)) (report.count reading) s' p' := by
  rw [scanFrom]
  · rcases read plc device s with ⟨v | _ | _, s'⟩
    · simp only
      cases queue ⟨device.address, v, plc⟩ p with
      | none => exact .inl rfl
      | some p' => exact .inr ⟨p', rfl⟩
    · exact .inr ⟨p, rfl⟩
    · exact .inr ⟨p, rfl⟩
  · exact goesOn

theorem isBalanced_scanFrom (devices : List (String × Device)) (patience : Option Nat)
    {report : ScanReport} (balanced : report.IsBalanced) (s : σ) (p : π) :
    (scanFrom read queue devices patience report s p).report.IsBalanced := by
  induction devices generalizing patience report s p with
  | nil => rcases patience with _ | _ | n <;> exact balanced
  | cons place rest ih =>
    by_cases hcancelled : patience = some 0
    · rw [hcancelled]
      exact balanced
    · rcases scanFrom_cons_cases read queue hcancelled place.1 place.2 rest report s p with
        hclosed | ⟨p', hscan⟩
      · rw [hclosed]
        exact balanced.count _
      · rw [hscan]
        exact ih _ (balanced.count _) _ _

theorem ending_scanFrom_none (devices : List (String × Device)) (report : ScanReport) (s : σ)
    (p : π) : (scanFrom read queue devices none report s p).ending ≠ .cancelled := by
  induction devices generalizing report s p with
  | nil => exact PassEnd.noConfusion
  | cons place rest ih =>
    rcases scanFrom_cons_cases read queue (nofun : none ≠ some 0) place.1 place.2 rest
      report s p with hclosed | ⟨p', hscan⟩
    · rw [hclosed]
      exact PassEnd.noConfusion
    · rw [hscan]
      exact ih _ _ _

theorem ending_scanFrom_some {devices : List (String × Device)} {n : Nat}
    (hn : n ≤ devices.length) (report : ScanReport) (s : σ) (p : π) :
    (scanFrom read queue devices (some n) report s p).ending ≠ .finished := by
  induction devices generalizing n report s p with
  | nil =>
    obtain rfl := Nat.le_zero.1 hn
    exact PassEnd.noConfusion
  | cons place rest ih =>
    cases n with
    | zero => exact PassEnd.noConfusion
    | succ n =>
      rcases scanFrom_cons_cases read queue (by simp : some (n + 1) ≠ some 0) place.1 place.2 rest
        report s p with hclosed | ⟨p', hscan⟩
      · rw [hclosed]
        exact PassEnd.noConfusion
      · rw [hscan]
        exact ih (Nat.le_of_succ_le_succ hn) _ _ _

end Passes

/-! ## The passes of a loop -/

namespace ScanLoop

variable {σ π : Type}

/-- The passes that a loop begins up to its cancellation, how each of them ends, and its report. The
loop is cancelled behind `whole` passes: in the next one, when it has attempted so many devices, or
all that there are; or, if no attempts are given, in the pause in front of it. A closed queue ends
the loop before. -/
def passesUntil (read : Reader σ) (queue : Queue π) (devices : σ → List (String × Device)) :
    Nat → Option Nat → σ → π → List (PassEnd × ScanReport)
  | 0, none, _, _ => []
  | 0, some attempts, s, p =>
    let pass := scan read queue (devices s) (some (min attempts (devices s).length)) s p
    [(pass.ending, pass.report)]
  | whole + 1, attempts, s, p =>
    let pass := scan read queue (devices s) none s p
    (pass.ending, pass.report) ::
      match pass.ending with
      | .finished => passesUntil read queue devices whole attempts pass.readers pass.queue
      | _ => []

/-- The reports of the passes that have ended. -/
def ended (passes : List (PassEnd × ScanReport)) : List ScanReport :=
  (passes.filter fun pass => pass.1 = .finished).map Prod.snd

section Begun

variable (read : Reader σ) (queue : Queue π) (devices : σ → List (String × Device))

/-- The pass in which a loop is cancelled does not end. -/
theorem passesUntil_zero (attempts : Nat) (s : σ) (p : π) :
    ∃ report : ScanReport, report.IsBalanced ∧
      (passesUntil read queue devices 0 (some attempts) s p = [(.cancelled, report)] ∨
        passesUntil read queue devices 0 (some attempts) s p = [(.closed, report)]) := by
  have hending := ending_scanFrom_some read queue (Nat.min_le_right attempts (devices s).length)
    {} s p
  refine ⟨_, isBalanced_scanFrom read queue (devices s) (some (min attempts (devices s).length))
    ScanReport.isBalanced_empty s p, ?_⟩
  rw [passesUntil, scan]
  cases hend : (scanFrom read queue (devices s) (some (min attempts (devices s).length)) {} s
    p).ending with
  | finished => exact absurd hend hending
  | cancelled => exact .inl rfl
  | closed => exact .inr rfl

/-- A pass before that ends, unless the queue is closed. -/
theorem passesUntil_succ (whole : Nat) (s : σ) (p : π) :
    ∃ report : ScanReport, report.IsBalanced ∧
      ((∀ attempts, passesUntil read queue devices (whole + 1) attempts s p =
        [(.closed, report)]) ∨
      ∃ s' p', ∀ attempts, passesUntil read queue devices (whole + 1) attempts s p =
        (.finished, report) :: passesUntil read queue devices whole attempts s' p') := by
  have hending := ending_scanFrom_none read queue (devices s) {} s p
  refine ⟨_, isBalanced_scanFrom read queue (devices s) none ScanReport.isBalanced_empty s p, ?_⟩
  simp only [passesUntil, scan]
  cases hend : (scanFrom read queue (devices s) none {} s p).ending with
  | finished => exact .inr ⟨_, _, fun attempts => rfl⟩
  | cancelled => exact absurd hend hending
  | closed => exact .inl fun attempts => rfl

/-- The passes are those that have ended, and one at most that has not. -/
theorem exists_passesUntil_eq (whole : Nat) (attempts : Option Nat) (s : σ) (p : π) :
    ∃ (reports : List ScanReport) (cut : List (PassEnd × ScanReport)),
      passesUntil read queue devices whole attempts s p =
        reports.map (Prod.mk .finished) ++ cut ∧
      ended (passesUntil read queue devices whole attempts s p) = reports ∧
      (∀ report ∈ reports, report.IsBalanced) ∧
      ((cut = [] ∨ ∃ report, cut = [(.cancelled, report)]) ∧ reports.length = whole ∨
        ∃ report, cut = [(.closed, report)]) := by
  induction whole generalizing s p with
  | zero =>
    cases attempts with
    | none => exact ⟨[], [], rfl, rfl, List.forall_mem_nil _, .inl ⟨.inl rfl, rfl⟩⟩
    | some attempts =>
      obtain ⟨report, -, hcut | hcut⟩ := passesUntil_zero read queue devices attempts s p
      · rw [hcut]
        exact ⟨[], _, rfl, rfl, List.forall_mem_nil _, .inl ⟨.inr ⟨report, rfl⟩, rfl⟩⟩
      · rw [hcut]
        exact ⟨[], _, rfl, rfl, List.forall_mem_nil _, .inr ⟨report, rfl⟩⟩
  | succ whole ih =>
    obtain ⟨report, balanced, hcut | ⟨s', p', hrest⟩⟩ :=
      passesUntil_succ read queue devices whole s p
    · rw [hcut]
      exact ⟨[], _, rfl, rfl, List.forall_mem_nil _, .inr ⟨report, rfl⟩⟩
    · obtain ⟨reports, cut, hpasses, hended, hreports, hcut⟩ := ih s' p'
      rw [hrest]
      refine ⟨report :: reports, cut, ?_, ?_, List.forall_mem_cons.2 ⟨balanced, hreports⟩, ?_⟩
      · rw [hpasses]
        rfl
      · rw [← hended]
        rfl
      · rwa [List.length_cons, Nat.add_right_cancel_iff]

/-- A loop that is cancelled in a pass has begun the passes of one that is cancelled in front of it,
and that pass itself, if it comes to it. -/
theorem passesUntil_some (whole attempts : Nat) (s : σ) (p : π) :
    ∃ cut, passesUntil read queue devices whole (some attempts) s p =
        passesUntil read queue devices whole none s p ++ cut ∧
      (cut = [] ∨ ∃ report, cut = [(.cancelled, report)] ∨ cut = [(.closed, report)]) := by
  induction whole generalizing s p with
  | zero =>
    obtain ⟨report, -, hcut⟩ := passesUntil_zero read queue devices attempts s p
    exact ⟨_, rfl, .inr ⟨report, hcut⟩⟩
  | succ whole ih =>
    obtain ⟨report, -, hcut | ⟨s', p', hrest⟩⟩ := passesUntil_succ read queue devices whole s p
    · exact ⟨[], by rw [hcut, hcut, List.append_nil], .inl rfl⟩
    · obtain ⟨cut, hpasses, hcut⟩ := ih s' p'
      exact ⟨cut, by rw [hrest, hrest, hpasses, List.cons_append], hcut⟩

end Begun

/-! ## The outcome of a loop -/

/-- The first of some reports that stops a loop, if it is to fail at reports that are short. -/
def stopping? (failOnIncomplete : Bool) (reports : List ScanReport) : Option ScanReport :=
  reports.find? fun report => failOnIncomplete && report.IsShort

theorem stopping?_eq_some_iff {failOnIncomplete : Bool} {reports : List ScanReport}
    {report : ScanReport} : stopping? failOnIncomplete reports = some report ↔
      failOnIncomplete = true ∧ reports.find? (fun report => report.IsShort) = some report := by
  cases failOnIncomplete with
  | true => simp [stopping?]
  | false =>
    have hnone : stopping? false reports = none := List.find?_eq_none.2 fun _ _ => by simp
    simp [hnone]

theorem stopping?_eq_none_iff {failOnIncomplete : Bool} {reports : List ScanReport} :
    stopping? failOnIncomplete reports = none ↔
      (failOnIncomplete = true → reports.find? (fun report => report.IsShort) = none) := by
  cases failOnIncomplete <;> simp [stopping?]

variable {failOnIncomplete : Bool} {passes : List (PassEnd × ScanReport)} {totals : ScanTotals}

/-- Passes that have ended are recorded, up to the first one that stops the loop. -/
theorem run_ended_append (failOnIncomplete : Bool) {reports : List ScanReport}
    (balanced : ∀ report ∈ reports, report.IsBalanced) (rest : List (PassEnd × ScanReport))
    (totals : ScanTotals) :
    run failOnIncomplete (reports.map (Prod.mk .finished) ++ rest) totals =
      match stopping? failOnIncomplete reports with
      | some report => .error (.unhealthy report)
      | none => run failOnIncomplete rest (reports.foldl ScanTotals.record totals) := by
  induction reports generalizing totals with
  | nil => rfl
  | cons report reports ih =>
    obtain ⟨hreport, hreports⟩ := List.forall_mem_cons.1 balanced
    have hgo := ih hreports (totals.record report)
    rw [List.map_cons, List.cons_append, run, turn, ScanReport.check, stopping?, List.find?_cons,
      List.foldl_cons]
    by_cases hshort : report.IsShort
    · have hincomplete : report.isComplete = false :=
        Bool.eq_false_iff.2 fun h => hreport.isComplete_iff.1 h hshort
      rw [hincomplete, decide_eq_true hshort, Bool.and_true]
      cases failOnIncomplete with
      | true => rfl
      | false => exact hgo
    · rw [hreport.isComplete_iff.2 hshort, decide_eq_false hshort, Bool.and_false]
      exact hgo

/-- A pass that was cancelled changes nothing. -/
theorem run_append_cancelled (report : ScanReport) :
    run failOnIncomplete (passes ++ [(.cancelled, report)]) totals =
      run failOnIncomplete passes totals := by
  induction passes generalizing totals with
  | nil => rfl
  | cons pass passes ih =>
    rw [List.cons_append, run, run]
    split <;> simp only [ih]

section Outcome

variable (read : Reader σ) (queue : Queue π) (devices : σ → List (String × Device))

/-- With a queue that stays open, the passes that have ended are those before the cancellation. -/
theorem length_ended {whole : Nat} {attempts : Option Nat} {s : σ} {p : π}
    (isOpen : ∀ report, (.closed, report) ∉ passesUntil read queue devices whole attempts s p) :
    (ended (passesUntil read queue devices whole attempts s p)).length = whole := by
  obtain ⟨reports, cut, hpasses, hended, -, ⟨-, hlength⟩ | ⟨report, rfl⟩⟩ :=
    exists_passesUntil_eq read queue devices whole attempts s p
  · rw [hended, hlength]
  · refine absurd ?_ (isOpen report)
    rw [hpasses]
    exact List.mem_append_right _ (List.mem_singleton_self _)

/-- With a queue that stays open, it makes no difference whether a pass was begun or not in which
the loop is cancelled. -/
theorem run_passesUntil_some {whole attempts : Nat} {s : σ} {p : π}
    (isOpen : ∀ report,
      (.closed, report) ∉ passesUntil read queue devices whole (some attempts) s p) :
    run failOnIncomplete (passesUntil read queue devices whole (some attempts) s p) totals =
      run failOnIncomplete (passesUntil read queue devices whole none s p) totals := by
  obtain ⟨cut, hpasses, rfl | ⟨report, rfl | rfl⟩⟩ :=
    passesUntil_some read queue devices whole attempts s p
  · rw [hpasses, List.append_nil]
  · rw [hpasses, run_append_cancelled]
  · refine absurd ?_ (isOpen report)
    rw [hpasses]
    exact List.mem_append_right _ (List.mem_singleton_self _)

/-- What a loop comes to is known from the passes that have ended, and from whether the queue was
found closed. -/
theorem run_passesUntil (failOnIncomplete : Bool) (whole : Nat) (attempts : Option Nat) (s : σ)
    (p : π) :
    let passes := passesUntil read queue devices whole attempts s p
    let stop := stopping? failOnIncomplete (ended passes)
    let outcome := run failOnIncomplete passes {}
    (∃ report, stop = some report ∧ outcome = .error (.unhealthy report)) ∨
      (stop = none ∧ (∃ report, (.closed, report) ∈ passes) ∧ outcome = .error .poolClosed) ∨
      (stop = none ∧ (∀ report, (.closed, report) ∉ passes) ∧
        outcome = .ok (.ofReports (ended passes))) := by
  obtain ⟨reports, cut, hpasses, hended, balanced, hcut⟩ :=
    exists_passesUntil_eq read queue devices whole attempts s p
  simp only [hended]
  rw [hpasses, run_ended_append failOnIncomplete balanced, ScanTotals.foldl_record_empty balanced]
  cases stopping? failOnIncomplete reports with
  | some report => exact .inl ⟨report, rfl, rfl⟩
  | none =>
    rcases hcut with ⟨rfl | ⟨report, rfl⟩, -⟩ | ⟨report, rfl⟩
    · exact .inr (.inr ⟨rfl, by simp, rfl⟩)
    · exact .inr (.inr ⟨rfl, by simp, rfl⟩)
    · exact .inr (.inl ⟨rfl, ⟨report, by simp⟩, rfl⟩)

end Outcome

/-! ## The loop of a gateway -/

theorem finished_of_turn_eq_running {ending : PassEnd} {report : ScanReport} {next : ScanTotals}
    (hturn : turn failOnIncomplete totals ending report = .running next) : ending = .finished := by
  cases ending with
  | finished => rfl
  | cancelled => cases hturn
  | closed => cases hturn

/-- The first pass of a loop is a pass of its gateway. -/
theorem passesUntil_pass {ν : Type} (network : Network ν) (queue : Queue π) (gateway : Gateway ν)
    (p : π) (whole : Nat) :
    let (ending, report, p', gateway') := gateway.pass network queue none p
    passesUntil (Service.reader network) queue (fun state => state.1.devices) (whole + 1) none
        (gateway.service, gateway.network) p =
      (ending, report) ::
        match ending with
        | .finished => passesUntil (Service.reader network) queue (fun state => state.1.devices)
            whole none (gateway'.service, gateway'.network) p'
        | _ => [] := rfl

/-- The loop of a gateway is cancelled in a pause, if nothing stops it, and comes to what it comes
to over the passes before this pause. -/
theorem exists_runFrom_eq {ν : Type} (network : Network ν) (queue : Queue π)
    (failOnIncomplete : Bool) (intervalMs : Nat) (goesOn : Nat → Gateway ν → Bool)
    (limit clockMs : Nat) (totals : ScanTotals) (gateway : Gateway ν) (p : π) :
    ∃ whole ≤ limit,
      (gateway.runFrom network queue failOnIncomplete intervalMs goesOn limit clockMs totals p).1 =
        run failOnIncomplete (passesUntil (Service.reader network) queue
          (fun state => state.1.devices) whole none (gateway.service, gateway.network) p)
          totals := by
  induction limit generalizing clockMs totals gateway p with
  | zero => exact ⟨0, Nat.le_refl 0, rfl⟩
  | succ limit ih =>
    have hpasses := passesUntil_pass network queue gateway p
    rw [Gateway.runFrom]
    generalize gateway.pass network queue none p = result at hpasses ⊢
    obtain ⟨ending, report, p', gateway'⟩ := result
    simp only at hpasses ⊢
    cases hturn : turn failOnIncomplete totals ending report with
    | failed failure =>
      refine ⟨1, Nat.le_add_left 1 limit, ?_⟩
      rw [hpasses, run, hturn]
    | stopped last =>
      refine ⟨1, Nat.le_add_left 1 limit, ?_⟩
      rw [hpasses, run, hturn]
    | running next =>
      obtain rfl := finished_of_turn_eq_running hturn
      simp only
      split
      · obtain ⟨whole, hle, hrest⟩ := ih (clockMs + pauseMs intervalMs report) next gateway' p'
        refine ⟨whole + 1, Nat.succ_le_succ hle, ?_⟩
        rw [hpasses, run, hturn]
        exact hrest
      · refine ⟨1, Nat.le_add_left 1 limit, ?_⟩
        rw [hpasses, run, hturn]
        rfl

/-- For a loop that is cancelled somewhere, the scans that count are those that have ended before.
It fails with the report of the first of these that has read fewer devices than it attempted, if it
is to fail so; otherwise it ends in a closed queue, or when it is cancelled, with the totals over
all these scans. A scan that is cut short by the cancellation makes no difference. The loop of a
gateway is a loop of this kind, which is cancelled in a pause. -/
theorem run_until (read : Reader σ) (queue : Queue π) (devices : σ → List (String × Device))
    (failOnIncomplete : Bool) (whole : Nat) (attempts : Option Nat) (s : σ) (p : π) :
    let passes := passesUntil read queue devices whole attempts s p
    let outcome := run failOnIncomplete passes {}
    let short := (ended passes).find? fun report => report.succeeded < report.attempted
    (∀ report, outcome = .error (.unhealthy report) ↔
      failOnIncomplete = true ∧ short = some report) ∧
    (outcome = .error .poolClosed ↔ (failOnIncomplete = true → short = none) ∧
      ∃ report, (.closed, report) ∈ passes) ∧
    (∀ totals, outcome = .ok totals ↔ (failOnIncomplete = true → short = none) ∧
      (∀ report, (.closed, report) ∉ passes) ∧ totals = .ofReports (ended passes)) ∧
    ((∀ report, (.closed, report) ∉ passes) → (ended passes).length = whole ∧
      outcome = run failOnIncomplete (passesUntil read queue devices whole none s p) {}) ∧
    ∀ {ν : Type} (network : Network ν) (gateway : Gateway ν) (intervalMs limit : Nat)
      (goesOn : Nat → Gateway ν → Bool), ∃ whole ≤ limit,
        (gateway.run network queue failOnIncomplete intervalMs goesOn limit p).1 =
          run failOnIncomplete (passesUntil (Service.reader network) queue
            (fun state => state.1.devices) whole none (gateway.service, gateway.network) p) {} := by
  intro passes outcome short
  have hsome : ∀ report, stopping? failOnIncomplete (ended passes) = some report ↔
      failOnIncomplete = true ∧ short = some report := fun report => stopping?_eq_some_iff
  have hnone : stopping? failOnIncomplete (ended passes) = none ↔
      (failOnIncomplete = true → short = none) := stopping?_eq_none_iff
  have hcut : (∀ report, (.closed, report) ∉ passes) → (ended passes).length = whole ∧
      outcome = run failOnIncomplete (passesUntil read queue devices whole none s p) {} := by
    intro isOpen
    refine ⟨length_ended read queue devices isOpen, ?_⟩
    cases attempts with
    | none => rfl
    | some attempts => exact run_passesUntil_some read queue devices isOpen
  have hgateway := fun {ν : Type} (network : Network ν) (gateway : Gateway ν) intervalMs limit
      goesOn => exists_runFrom_eq network queue failOnIncomplete intervalMs goesOn limit 0 {}
        gateway p
  simp only [← hsome, ← hnone]
  -- of the three ends, each excludes the others
  rcases run_passesUntil read queue devices failOnIncomplete whole attempts s p with
    ⟨report, hstop, houtcome⟩ | ⟨hstop, hclosed, houtcome⟩ | ⟨hstop, isOpen, houtcome⟩
  · refine ⟨fun other => ?_, ?_, fun totals => ?_, hcut, hgateway⟩
    all_goals simp [outcome, passes, houtcome, hstop]
  · refine ⟨fun other => ?_, ?_, fun totals => ?_, hcut, hgateway⟩
    · simp [outcome, passes, houtcome, hstop]
    · simp [outcome, passes, houtcome, hstop, hclosed]
    · simp [outcome, passes, houtcome, not_forall_not.2 hclosed]
  · refine ⟨fun other => ?_, ?_, fun totals => ?_, hcut, hgateway⟩
    · simp [outcome, passes, houtcome, hstop]
    · simp [outcome, passes, houtcome, isOpen]
    · simp [outcome, passes, houtcome, hstop, isOpen, eq_comm]

/-- Takes the next of some readings, whatever is read. -/
def nextReading : Reader (List Reading) := fun _ _ readings =>
  (readings.headD .failed, readings.tail)

/-- A device is read, then the read of it takes too long, and a third pass is cut short behind it. A
loop that is to fail does so after the second pass, and any other has counted two. -/
theorem run_until_second_short :
    let device : Device := ⟨.d, "100", 100, .unsigned, 1, rfl, rfl, by decide⟩
    let passes := passesUntil nextReading (fun _ _ => some ()) (fun _ => [("press", device)]) 2
      (some 1) [.value (.unsigned 7), .timedOut, .value (.unsigned 8)] ()
    run true passes {} = .error (.unhealthy ⟨1, 0, 1, 0⟩) ∧
      run false passes {} = .ok ⟨2, 1, 1, 1⟩ := by
  intro device passes
  have hpasses : passes =
      [(.finished, ⟨1, 1, 0, 0⟩), (.finished, ⟨1, 0, 1, 0⟩), (.cancelled, ⟨1, 1, 0, 0⟩)] := by
    decide +kernel
  have hfails := run_until nextReading (fun _ _ => some ()) (fun _ => [("press", device)]) true 2
    (some 1) [.value (.unsigned 7), .timedOut, .value (.unsigned 8)] ()
  have hgoes := run_until nextReading (fun _ _ => some ()) (fun _ => [("press", device)]) false 2
    (some 1) [.value (.unsigned 7), .timedOut, .value (.unsigned 8)] ()
  refine ⟨(hfails.1 _).2 ⟨rfl, ?_⟩, (hgoes.2.2.1 _).2 ⟨nofun, ?_, ?_⟩⟩
  · show (ended passes).find? _ = _
    rw [hpasses]
    rfl
  · show ∀ report, (.closed, report) ∉ passes
    simp [hpasses]
  · show _ = ScanTotals.ofReports (ended passes)
    rw [hpasses]
    rfl

end ScanLoop

end PlcGateway
