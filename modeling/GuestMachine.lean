import GuestMachine.Engine.Tiny
import GuestMachine.Script.Engine
import GuestMachine.Session.Call
import GuestMachine.Proofs.Computation
import GuestMachine.Proofs.Memory.Layout
import GuestMachine.Proofs.Memory.Coverage
import GuestMachine.Proofs.Hook.Table
import GuestMachine.Proofs.Hook.Event
import GuestMachine.Proofs.Machine.Evolution
import GuestMachine.Proofs.Machine.Dispatch
import GuestMachine.Proofs.Cpu.Latch
import GuestMachine.Proofs.Cpu.Access
import GuestMachine.Proofs.Cpu.Evolution
import GuestMachine.Proofs.Cpu.Silence
import GuestMachine.Proofs.Session.Boundary
import GuestMachine.Proofs.Session.Ending
import GuestMachine.Proofs.Session.Run
import GuestMachine.Proofs.Session.FirstFault
import GuestMachine.Proofs.Machine.Depth
import GuestMachine.Proofs.Session.Reachable
import GuestMachine.Proofs.Memory.Contents
import GuestMachine.Memory.Call
import GuestMachine.Proofs.Memory.History
import GuestMachine.Proofs.Memory.Access
import GuestMachine.Proofs.Memory.Origin
import GuestMachine.Proofs.Memory.Identity
import GuestMachine.Machine.Deed
import GuestMachine.Proofs.Machine.Account
import GuestMachine.Proofs.Cpu.Account
import GuestMachine.Proofs.Session.Account
import GuestMachine.Proofs.Session.History
import GuestMachine.Proofs.Session.Passage
import GuestMachine.Proofs.Session.Lifecycle
import GuestMachine.Hook.Call
import GuestMachine.Register.Call
import GuestMachine.Proofs.Register.History
import GuestMachine.Proofs.Hook.History
import GuestMachine.Proofs.Memory.InPlace
import GuestMachine.Proofs.Session.Refusal
import GuestMachine.Proofs.Machine.Transcript
import GuestMachine.Proofs.Cpu.Transcript
import GuestMachine.Proofs.Session.Transcript
import GuestMachine.Proofs.Session.Resumption
import GuestMachine.Proofs.Cpu.Running
import GuestMachine.Proofs.Session.Running
import GuestMachine.Proofs.Machine.Mirror
import GuestMachine.Proofs.Machine.Onlooker
import GuestMachine.Proofs.Cpu.Onlooker
import GuestMachine.Proofs.Session.Onlooker
import GuestMachine.Proofs.Register.Snapshot
import GuestMachine.Proofs.Machine.Stop
import GuestMachine.Proofs.Machine.Guest
import GuestMachine.Proofs.Cpu.Guest
import GuestMachine.Proofs.Session.Context
import GuestMachine.Proofs.Session.Stop
import GuestMachine.Proofs.Session.Admission
import GuestMachine.Proofs.Memory.Placement
import GuestMachine.Proofs.Machine.Nest
import GuestMachine.Proofs.Cpu.Reentry
import GuestMachine.Proofs.Machine.Service
import GuestMachine.Proofs.Mode.Integer
import GuestMachine.Proofs.Session.Reentry
import GuestMachine.Proofs.Cpu.RoundTrip
import GuestMachine.Proofs.Register.Order
import GuestMachine.Proofs.Memory.Likeness
import GuestMachine.Proofs.Memory.Order
import GuestMachine.Proofs.Session.Restoration
import GuestMachine.Proofs.Engine.Program
import GuestMachine.Proofs.Engine.Redirection
import GuestMachine.Proofs.Mode.Codec
import GuestMachine.Proofs.Memory.Strict
import GuestMachine.Proofs.Memory.Lookup
