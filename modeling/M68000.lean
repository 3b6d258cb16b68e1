import M68000.Main
import M68000.Proofs.Flags.Arithmetic
import M68000.Proofs.Flags.Eager
import M68000.Proofs.Shift.Flags
import M68000.Proofs.Shift.Instruction
import M68000.Proofs.Registers.Status
import M68000.Proofs.Registers.StackPointers
import M68000.Proofs.Memory.Place
import M68000.Proofs.Memory.Neighbours
import M68000.Proofs.Memory.Layout
import M68000.Proofs.Memory.Ram
import M68000.Proofs.Memory.ReadBack
import M68000.Proofs.Memory.Bytewise
import M68000.Proofs.Memory.Frame
import M68000.Proofs.Memory.Protected
import M68000.Proofs.Dispatch.Enumeration
import M68000.Proofs.Dispatch.Lookup
import M68000.Proofs.Exec.Maintains
import M68000.Proofs.Exec.Operand
import M68000.Proofs.Exec.Instructions
import M68000.Proofs.Exception.Entry
import M68000.Proofs.Exception.Trap
import M68000.Proofs.Exception.Return
import M68000.Proofs.Run.Step
import M68000.Proofs.Run.Permanent
import M68000.Proofs.Privilege.InterruptMask
import M68000.Proofs.Run.Executes
import M68000.Proofs.Run.Fetch
import M68000.Proofs.Run.Limit
import M68000.Proofs.Dispatch.Installation
import M68000.Proofs.Interrupts.Latches
import M68000.Proofs.Interrupts.Interleaving
import M68000.Proofs.Chained.Arithmetic
import M68000.Proofs.Chained.Number
import M68000.Proofs.Chained.Instruction
import M68000.Proofs.Chained.Parts
import M68000.Proofs.Chained.Chain
import M68000.Proofs.Privilege.Confinement
import M68000.Proofs.Dispatch.Modes
import M68000.Proofs.Dispatch.Legal
import M68000.Proofs.Exec.Faults
import M68000.Proofs.Exec.InPlace
import M68000.Proofs.Exec.Precise
import M68000.Proofs.Run.Faults
import M68000.Proofs.Interrupts.Refused
import M68000.Proofs.Chained.Decimal
import M68000.Proofs.Chained.DecimalChain
import M68000.Proofs.Memory.Writable
import M68000.Proofs.Stack.Block
import M68000.Proofs.Bus.Length
import M68000.Proofs.Memory.Stopped
import M68000.Proofs.Memory.RoundTrip
import M68000.Proofs.Memory.StringEnd
import M68000.Proofs.Memory.History
import M68000.Proofs.Memory.Configured
import M68000.Proofs.Exec.Rewriting
import M68000.Proofs.Run.Retry
import M68000.Proofs.Arithmetic.Comparison
import M68000.Proofs.Memory.Series
import M68000.Proofs.Stack.SavedRegisters
import M68000.Proofs.Run.BlockCopy
import M68000.Proofs.Run.Resolve
import M68000.Proofs.Run.Bits
import M68000.Proofs.Run.FlagFrame
import M68000.Proofs.Stack.Alignment
import M68000.Proofs.Arithmetic.Division
import M68000.Proofs.Checked.Run
