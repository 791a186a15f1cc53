import StackMachine.Address
import StackMachine.Bytes
import StackMachine.Decoder
import StackMachine.Fault
import StackMachine.Float64
import StackMachine.Heap
import StackMachine.Host
import StackMachine.Host.Directory
import StackMachine.Host.Sink
import StackMachine.Host.Source
import StackMachine.Image.Basic
import StackMachine.Image.Error
import StackMachine.Image.Flags
import StackMachine.Image.Header
import StackMachine.Image.Section
import StackMachine.Image.Symbol
import StackMachine.Inspector
import StackMachine.Instruction
import StackMachine.Linker
import StackMachine.Linker.Error
import StackMachine.Linker.Loader
import StackMachine.Linker.Platform
import StackMachine.Log.Calendar
import StackMachine.Log.Level
import StackMachine.Log.Notice
import StackMachine.Machine.Access
import StackMachine.Machine.Arithmetic
import StackMachine.Machine.Interrupt
import StackMachine.Machine.State
import StackMachine.Machine.Step
import StackMachine.Main
import StackMachine.Module
import StackMachine.Module.Load
import StackMachine.Opcode
import StackMachine.PoolTable
import StackMachine.Report
import StackMachine.Runner
import StackMachine.Runner.Demand
import StackMachine.Stack
import StackMachine.Text.Blank
import StackMachine.Text.Layout
import StackMachine.Text.Quoted
import StackMachine.Text.Unprintable
import StackMachine.Text.Utf8
import StackMachine.Word
import StackMachine.Proofs.Action
import StackMachine.Proofs.Heap
import StackMachine.Proofs.Instruction
import StackMachine.Proofs.Bytes
import StackMachine.Proofs.Decoder
import StackMachine.Proofs.Grammar
import StackMachine.Proofs.Loading
import StackMachine.Proofs.PoolTable
import StackMachine.Proofs.Inspection
import StackMachine.Proofs.RoundTrip
import StackMachine.Proofs.Linking
import StackMachine.Proofs.Service
import StackMachine.Proofs.Composition
import StackMachine.Proofs.Run
import StackMachine.Proofs.Segment
import StackMachine.Proofs.Atomicity
import StackMachine.Proofs.Limits
import StackMachine.Proofs.Locality
import StackMachine.Proofs.RegionStore
import StackMachine.Proofs.Effect
import StackMachine.Proofs.Return
import StackMachine.Proofs.ModuleMemory
import StackMachine.Proofs.Slots
import StackMachine.Proofs.Handles
import StackMachine.Proofs.Canonical
import StackMachine.Proofs.Stability
import StackMachine.Proofs.Footprint
import StackMachine.Proofs.Enough
import StackMachine.Proofs.Underflow
import StackMachine.Proofs.Channels
import StackMachine.Proofs.ReadWrite
import StackMachine.Proofs.BrokenInput
import StackMachine.Proofs.Addressing
import StackMachine.Proofs.Pools
import StackMachine.Proofs.Calling
import StackMachine.Proofs.InputStream
import StackMachine.Proofs.Misreading
import StackMachine.Proofs.RegionNumbers
import StackMachine.Proofs.Layout
import StackMachine.Proofs.Integers
import StackMachine.Proofs.Calendar
import StackMachine.Proofs.Disassembly
