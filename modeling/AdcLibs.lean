import AdcLibs.Library.CarryBits
import AdcLibs.Library.Runs
import AdcLibs.Library.Blocks
import AdcLibs.Library.Loops
import AdcLibs.Library.Observed
import AdcLibs.Library.LinearSweep
import AdcLibs.Library.ElementArea
import AdcLibs.Library.Grouping
import AdcLibs.Library.LiveHeap
import AdcLibs.Library.Owners
import AdcLibs.Library.CarryChain
import AdcLibs.Library.SortedSearch
import AdcLibs.Library.FirstMatch
import AdcLibs.Library.Significand
import AdcLibs.Library.Doubling
import AdcLibs.Library.BoundedTable
import AdcLibs.Library.GrowingScan
import AdcLibs.Library.Writes
import AdcLibs.Library.Columns
import AdcLibs.Library.LockedCalls
import AdcLibs.Cpu.State
import AdcLibs.Cpu.Ops
import AdcLibs.Cpu.Exec
import AdcLibs.Cpu.Reference
import AdcLibs.Cpu.Assembly
import AdcLibs.Cpu.Encoding
import AdcLibs.Cpu.Dispatch
import AdcLibs.Cpu.Alu
import AdcLibs.Cpu.Refinement
import AdcLibs.Cpu.Frames
import AdcLibs.Cpu.Arithmetic
import AdcLibs.Cpu.Ram
import AdcLibs.Cpu.InterruptModel
import AdcLibs.Cpu.Interrupts
import AdcLibs.Cpu.InterruptRuns
import AdcLibs.Cpu.Calls
import AdcLibs.Cpu.Init
import AdcLibs.Cpu.Flow
import AdcLibs.Cpu.RamSteps
import AdcLibs.Cpu.Isr
import AdcLibs.Cpu.Multibyte
import AdcLibs.Cpu.Decimal
import AdcLibs.Cpu.Agreement
import AdcLibs.Cpu.StackOrder
import AdcLibs.Cpu.Projection
import AdcLibs.Cpu.HandlerCalls
import AdcLibs.Cpu.RunTest
import AdcLibs.Cpu.Bdos
import AdcLibs.Cpu.Routines
import AdcLibs.Cpu.Diagnostic
import AdcLibs.Cpu.TestRuns
import AdcLibs.Dasm.Table
import AdcLibs.Dasm.Disassemble
import AdcLibs.Dasm.Sweep
import AdcLibs.Dasm.Mnemonic
import AdcLibs.Cpu.Fetches
import AdcLibs.Dasm.Boundaries
import AdcLibs.Cpu.Injected
import AdcLibs.Dasm.Text
import AdcLibs.Dasm.Condbits
import AdcLibs.Dasm.Lookup
import AdcLibs.Dasm.Lifecycle
import AdcLibs.Dasm.Find
import AdcLibs.Dasm.Listing
import AdcLibs.Dasm.OpToString
import AdcLibs.Dasm.Reassemble
import AdcLibs.Cpu.OperandReads
import AdcLibs.Dasm.ReassembledRuns
import AdcLibs.Dasm.ListedRuns
import AdcLibs.Vector.Model
import AdcLibs.Vector.Macros
import AdcLibs.Vector.Refine
import AdcLibs.Vector.Safety
import AdcLibs.Vector.Erase
import AdcLibs.Vector.StorageSize
import AdcLibs.Vector.Capacity
import AdcLibs.Vector.OwnItem
import AdcLibs.Vector.Amortized
import AdcLibs.Vector.Heap
import AdcLibs.Vector.Separation
import AdcLibs.Argp.Libc
import AdcLibs.Argp.Model
import AdcLibs.Argp.Grammar
import AdcLibs.Argp.ValueParsers
import AdcLibs.Argp.ParseRuns
import AdcLibs.Argp.Calls
import AdcLibs.Argp.FindOpt
import AdcLibs.Argp.Numerals
import AdcLibs.Argp.Integers
import AdcLibs.Argp.Bools
import AdcLibs.Argp.Rejection
import AdcLibs.Argp.Doubles
import AdcLibs.Argp.Assertions
import AdcLibs.Argp.Outcome
import AdcLibs.Argp.Settings
import AdcLibs.Log.Callbacks
import AdcLibs.Log.Model
import AdcLibs.Log.Dispatch
import AdcLibs.Log.Streams
import AdcLibs.Log.Trace
import AdcLibs.Log.Guarded
import AdcLibs.Log.Threads
