import PlcGateway.Bus.Session
import PlcGateway.Frame.Stream
import PlcGateway.Link.Basic
import PlcGateway.Link.Call
import PlcGateway.Link.Line
import PlcGateway.Main
import PlcGateway.Proofs.Bus.Payload
import PlcGateway.Proofs.Bus.Publisher
import PlcGateway.Proofs.Bus.Status
import PlcGateway.Proofs.Bytes.LittleEndian
import PlcGateway.Proofs.Bytes.Words
import PlcGateway.Proofs.Cache.Entries
import PlcGateway.Proofs.Cache.FiniteMap
import PlcGateway.Proofs.Cache.PutBack
import PlcGateway.Proofs.Cbor.Reader
import PlcGateway.Proofs.Device.Address
import PlcGateway.Proofs.Device.Identity
import PlcGateway.Proofs.Device.List
import PlcGateway.Proofs.Device.Number
import PlcGateway.Proofs.Frame.Request
import PlcGateway.Proofs.Frame.Response
import PlcGateway.Proofs.Frame.Stream
import PlcGateway.Proofs.Ieee.Decimal
import PlcGateway.Proofs.Ieee.Fixed
import PlcGateway.Proofs.Ieee.Integer
import PlcGateway.Proofs.Ieee.Literal
import PlcGateway.Proofs.Ieee.Rounding
import PlcGateway.Proofs.Json.Reader
import PlcGateway.Proofs.Json5.Field
import PlcGateway.Proofs.Json5.Integer
import PlcGateway.Proofs.Link.Alone
import PlcGateway.Proofs.Link.Answered
import PlcGateway.Proofs.Link.Asked
import PlcGateway.Proofs.Link.Connected
import PlcGateway.Proofs.Link.Exchange
import PlcGateway.Proofs.Link.Failure
import PlcGateway.Proofs.Link.Line
import PlcGateway.Proofs.Link.Reading
import PlcGateway.Proofs.Link.Recorded
import PlcGateway.Proofs.Link.Response
import PlcGateway.Proofs.Pool.Drain
import PlcGateway.Proofs.Pool.Messages
import PlcGateway.Proofs.Pool.Step
import PlcGateway.Proofs.Register.Cells
import PlcGateway.Proofs.Register.Characters
import PlcGateway.Proofs.Register.Exact
import PlcGateway.Proofs.Register.Hops
import PlcGateway.Proofs.Register.Integer
import PlcGateway.Proofs.Register.Numerals
import PlcGateway.Proofs.Register.Places
import PlcGateway.Proofs.Register.Real
import PlcGateway.Proofs.Register.Tenths
import PlcGateway.Proofs.Scan.Loop
import PlcGateway.Proofs.Scan.Pass
import PlcGateway.Proofs.Service.BitDevice
import PlcGateway.Proofs.Service.FrameLimit
import PlcGateway.Proofs.Service.Frames
import PlcGateway.Proofs.Service.Progress
import PlcGateway.Proofs.Service.Read
import PlcGateway.Proofs.Service.Refusal
import PlcGateway.Proofs.Service.Registry
import PlcGateway.Proofs.Service.Scan
import PlcGateway.Proofs.Service.Walk
import PlcGateway.Proofs.Service.WordDevice
import PlcGateway.Proofs.Service.Write
import PlcGateway.Proofs.Service.WriteBack
import PlcGateway.Proofs.Settings.Integer
import PlcGateway.Proofs.Settings.Validation
import PlcGateway.Proofs.Simulator.BitArea
import PlcGateway.Proofs.Simulator.FlatMemory
import PlcGateway.Proofs.Simulator.Memory
import PlcGateway.Proofs.Simulator.Reply
import PlcGateway.Proofs.Simulator.Session
import PlcGateway.Proofs.Simulator.Write
import PlcGateway.Proofs.Text.Blank
import PlcGateway.Proofs.Text.Cut
import PlcGateway.Proofs.Text.Hexadecimal
import PlcGateway.Proofs.Text.Numeral
import PlcGateway.Proofs.Text.Utf8
import PlcGateway.Proofs.WriteBack.Account
import PlcGateway.Proofs.WriteBack.Configured
import PlcGateway.Proofs.WriteBack.Crew
import PlcGateway.Proofs.WriteBack.Delivery
import PlcGateway.Proofs.WriteBack.Evaluation
import PlcGateway.Proofs.WriteBack.Quiescence
import PlcGateway.Proofs.WriteBack.Reading
import PlcGateway.Proofs.WriteBack.RealBit
import PlcGateway.Proofs.WriteBack.Retry
import PlcGateway.Proofs.WriteBack.Round
import PlcGateway.Proofs.WriteBack.RuleOrder
import PlcGateway.Proofs.WriteBack.RuleText
import PlcGateway.Proofs.WriteBack.Schedule
import PlcGateway.Proofs.WriteBack.Trigger
import PlcGateway.Proofs.WriteBack.Writer
import PlcGateway.Proofs.WritePlan.Placement
import PlcGateway.Register.Value
import PlcGateway.Settings.Document
import PlcGateway.Simulator.Plc
import PlcGateway.WriteBack.Tables
import PlcGateway.WriteBack.Workers
