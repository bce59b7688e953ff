import PlcGateway.Frame.Request
import PlcGateway.Frame.Response
import PlcGateway.Link.Basic
import PlcGateway.Service.Endpoint
import PlcGateway.Simulator.Memory

/-!
# Simulated PLCs

A simulated PLC answers requests to read and to write words, in both variants, from a memory of its
own, and counts what it sees. It can be told to answer every request with an end code, to drop the
next request, to be late, and to cut what is read from it.

A plant is a row of simulated PLCs on one network. A port leads to the PLC at that place of the row,
whatever the host; a host whose name holds the character U+0000 has no address. Some of the PLCs may
be offline, and a port behind which there is none accepts no connection.
-/

namespace PlcGateway

/-- A write as a simulated PLC has received it. -/
structure RecordedWrite where
  code : DeviceCode
  offset : UInt32
  points : UInt16
  data : List UInt8
  deriving DecidableEq, Repr

/-- A simulated PLC. -/
structure SimulatedPlc where
  memory : Memory := Memory.zero
  /-- The writes so far, the last one first. -/
  writes : List RecordedWrite := []
  /-- What every request is answered with, if it is not zero. -/
  endCode : UInt16 := 0
  /-- Whether the next request is dropped. -/
  dropsNext : Bool := false
  /-- How late every answer is. -/
  delayMs : Nat := 0
  /-- How many words are read at most. -/
  maxWords : Option Nat := none
  connections : Nat := 0
  /-- How many requests have come, with those that were dropped. -/
  requests : Nat := 0
  /-- How many of them had the extended device fields and were not dropped. -/
  extendedRequests : Nat := 0

instance : Inhabited SimulatedPlc := ⟨{}⟩

namespace SimulatedPlc

/-- The end code for a request that cannot be read. -/
def malformedRequest : UInt16 := 0xC061

/-- The end code for a command that is not known. -/
def unknownCommand : UInt16 := 0xC059

/-- Carries out a request and gives the response to it. -/
def perform (plc : SimulatedPlc) (request : Request) : List UInt8 × SimulatedPlc :=
  let respond (endCode : UInt16) (data : List UInt8) := Station.local.response endCode data
  if plc.endCode ≠ 0 then (respond plc.endCode [], plc)
  else if request.command = readCommand then
    let points := request.points.toNat
    let words := (plc.maxWords.map (min · points)).getD points
    (respond 0 (plc.memory.read request.code request.offset words), plc)
  else if request.command = writeCommand then
    let memory := plc.memory.write request.code request.offset request.data
    let recorded := ⟨request.code, request.offset, request.points, request.data⟩
    (respond 0 [], { plc with memory, writes := recorded :: plc.writes })
  else (respond unknownCommand [], plc)

/-- Answers the body of a request frame. -/
def answerBody (plc : SimulatedPlc) (body : List UInt8) : List UInt8 × SimulatedPlc :=
  let plc :=
    if Request.isExtended body then
      { plc with extendedRequests := plc.extendedRequests + 1 }
    else plc
  match Request.ofBody? body with
  | some request => plc.perform request
  | none => (Station.local.response malformedRequest [], plc)

/-- Answers a request frame; a connection over which anything else comes is closed. -/
def answer (frame : List UInt8) (plc : SimulatedPlc) : Answer × SimulatedPlc :=
  match Frame.next? frame with
  | none => ({ closes := true }, plc)
  | some ((start, body), _) =>
    if start.take 2 ≠ Frame.requestMark then ({ closes := true }, plc)
    else
      let plc := { plc with requests := plc.requests + 1 }
      if plc.dropsNext then ({ closes := true }, { plc with dropsNext := false })
      else
        let (bytes, plc) := plc.answerBody body
        ({ bytes, delayMs := plc.delayMs }, plc)

/-- The peer that a simulated PLC is. -/
def peer : Peer SimulatedPlc where
  accept _ plc := (true, { plc with connections := plc.connections + 1 })
  answer := answer

end SimulatedPlc

/-! ## Plants -/

/-- Simulated PLCs on one network. -/
abbrev Plant := List SimulatedPlc

namespace Plant

/-- The peer that a PLC of a plant is. -/
def peer (place : Nat) : Peer Plant where
  accept limitMs plant :=
    match plant[place]? with
    | none => (false, plant)
    | some plc =>
      let (accepted, plc) := SimulatedPlc.peer.accept limitMs plc
      (accepted, plant.set place plc)
  answer request plant :=
    match plant[place]? with
    | none => ({ closes := true }, plant)
    | some plc =>
      let (answer, plc) := SimulatedPlc.peer.answer request plc
      (answer, plant.set place plc)

/-- The network of a plant, of which the PLCs at some places are online. -/
def network (online : Nat → Bool) : Network Plant where
  resolve? host port :=
    if host.toList.contains (Char.ofNat 0) then none
    else some (if online port.toNat then peer port.toNat else .refusing)

end Plant

end PlcGateway
