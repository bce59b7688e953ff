import PlcGateway.Bus.Publisher
import PlcGateway.Pool
import PlcGateway.Scan.Loop
import PlcGateway.Service.Basic

/-!
# The gateway

The parts of a running gateway put together: the service with its PLCs, the cache, and what has been
put on the bus. Workers handle each scanned value in one of two ways: they publish it, or they apply
the write-back rules to it.
-/

namespace PlcGateway

/-- What the workers do with a scanned value. -/
inductive Handler where
  | publish (publisher : Bus.Publisher)
  | writeBack (map : WriteMap)

/-- A gateway; `ν` is the state of the network that its PLCs are on. -/
structure Gateway (ν : Type) where
  service : Service
  cache : Cache
  /-- What has been put on the bus, in order. -/
  puts : List Bus.Entry
  network : ν

namespace Gateway

/-- How values are handled as configured, on a bus that takes such keys. -/
def handler (accepts : String → Bool) (settings : Settings) : Handler :=
  match settings.scan.mode with
  | .publish => .publish ⟨settings.scan.keyPrefix, settings.serialization, accepts⟩
  | .writeBack => .writeBack (.ofPlcs settings.scan.plcs)

variable {ν : Type}

/-- A gateway over some PLCs before its first scan. -/
def ofPlcs (readTimeoutMs : Nat) (plcs : List PlcSettings) (network : ν) : Gateway ν where
  service := plcs.foldl Service.registerSettings (.empty readTimeoutMs)
  cache := .empty
  puts := []
  network := network

/-- A gateway as configured before its first scan. -/
def ofSettings (settings : Settings) (network : ν) : Gateway ν :=
  ofPlcs settings.scan.readTimeoutMs.toNat settings.scan.plcs network

/-- The status of a running gateway. -/
def status (version : String) (gateway : Gateway ν) : Status :=
  .running version gateway.service.names gateway.service.deviceCount

/-- Applies write-back rules to a message. -/
def evaluate (network : Network ν) (map : WriteMap) (message : Message) (gateway : Gateway ν) :
    Outcome × Gateway ν :=
  let (outcome, cache, service, state) :=
    map.evaluate (Service.writer network) message gateway.cache (gateway.service, gateway.network)
  (outcome, { gateway with cache, service, network := state })

/-- Handles a message. -/
def handle (network : Network ν) (handler : Handler) (message : Message) (gateway : Gateway ν) :
    Gateway ν :=
  match handler with
  | .publish publisher =>
    { gateway with puts := gateway.puts ++ (publisher.message? message).toList }
  | .writeBack map => (gateway.evaluate network map message).2

/-- Makes one pass over all devices, and gives its end, its report and what has become of the
queue. -/
def pass {π : Type} (network : Network ν) (queue : Queue π) (patience : Option Nat)
    (gateway : Gateway ν) (p : π) : PassEnd × ScanReport × π × Gateway ν :=
  let service := gateway.service
  let pass := scan (Service.reader network) queue service.devices patience
    (service, gateway.network) p
  (pass.ending, pass.report, pass.queue,
    { gateway with service := pass.readers.1, network := pass.readers.2 })

/-- Makes at most `limit` passes. After each one `goesOn` is asked, with the time that the pauses
have taken and will have taken then, whether the loop outlives the pause. -/
def runFrom {π : Type} (network : Network ν) (queue : Queue π) (failOnIncomplete : Bool)
    (intervalMs : Nat) (goesOn : Nat → Gateway ν → Bool) :
    Nat → Nat → ScanTotals → Gateway ν → π → Except ScanFailure ScanTotals × π × Gateway ν
  | 0, _, totals, gateway, p => (.ok totals, p, gateway)
  | limit + 1, clockMs, totals, gateway, p =>
    let (ending, report, p, gateway) := gateway.pass network queue none p
    match ScanLoop.turn failOnIncomplete totals ending report with
    | .failed failure => (.error failure, p, gateway)
    | .stopped totals => (.ok totals, p, gateway)
    | .running totals =>
      let clockMs := clockMs + ScanLoop.pauseMs intervalMs report
      if goesOn clockMs gateway then
        runFrom network queue failOnIncomplete intervalMs goesOn limit clockMs totals gateway p
      else (.ok totals, p, gateway)

/-- Runs the scan loop for at most `limit` passes. -/
def run {π : Type} (network : Network ν) (queue : Queue π) (failOnIncomplete : Bool)
    (intervalMs : Nat) (goesOn : Nat → Gateway ν → Bool) (limit : Nat) (gateway : Gateway ν)
    (p : π) : Except ScanFailure ScanTotals × π × Gateway ν :=
  runFrom network queue failOnIncomplete intervalMs goesOn limit 0 {} gateway p

end Gateway

end PlcGateway
