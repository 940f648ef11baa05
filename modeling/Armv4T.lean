import Armv4T.Main
import Armv4T.Word.Lemmas
import Armv4T.Proofs.Word.Bits
import Armv4T.Proofs.Cache.Entries
import Armv4T.Proofs.Cache.Tidy
import Armv4T.Proofs.Registers.Physical
import Armv4T.Proofs.Exec.Plain
import Armv4T.Proofs.Exec.Made
import Armv4T.Proofs.Exec.Arm
import Armv4T.Proofs.Exec.Thumb
import Armv4T.Proofs.Step.Frame
import Armv4T.Proofs.Step.Current
import Armv4T.Proofs.Step.Execute
import Armv4T.Proofs.Machine.Commands
import Armv4T.Proofs.Machine.AtPc
import Armv4T.Proofs.Memory.Bytes
import Armv4T.Proofs.Cache.Invalidate
import Armv4T.Proofs.Bus.Shape
import Armv4T.Proofs.Bus.Upkeep
import Armv4T.Proofs.Bus.Build
import Armv4T.Proofs.Cache.Room
import Armv4T.Proofs.Bus.Coherence
import Armv4T.Proofs.Machine.Transparent
import Armv4T.Proofs.Decode.Layout
import Armv4T.Proofs.Decode.Form
import Armv4T.Proofs.Decode.Arm
import Armv4T.Proofs.Alu.Sum
import Armv4T.Proofs.Exec.Alike
import Armv4T.Proofs.Exec.Equivalent
import Armv4T.Proofs.Decode.Equivalent
import Armv4T.Proofs.Exec.Guarded
import Armv4T.Proofs.Registers.Status
import Armv4T.Proofs.Step.Quiet
import Armv4T.Proofs.Step.Exception
import Armv4T.Proofs.Step.Confinement
import Armv4T.Proofs.Step.Return
import Armv4T.Proofs.Step.Passage
import Armv4T.Proofs.Step.Interrupts
import Armv4T.Proofs.Step.Sequential
import Armv4T.Proofs.Step.Skipped
import Armv4T.Proofs.Machine.Requests
import Armv4T.Proofs.Memory.Values
import Armv4T.Proofs.Bus.Cells
import Armv4T.Proofs.Bus.Configured
import Armv4T.Proofs.Bus.Bursts
import Armv4T.Proofs.Registers.Slots
import Armv4T.Proofs.Machine.Snapshots
import Armv4T.Proofs.Exec.Transfers
import Armv4T.Proofs.Registers.Lists
import Armv4T.Proofs.Exec.Multiple
import Armv4T.Proofs.Exec.Block
import Armv4T.Proofs.Cache.Operations
import Armv4T.Proofs.Cache.Identity
import Armv4T.Proofs.Step.Caching
import Armv4T.Proofs.Machine.Course
import Armv4T.Proofs.Machine.Observers
import Armv4T.Proofs.Bus.SameMemory
import Armv4T.Proofs.Exec.Abreast
import Armv4T.Proofs.Step.Abreast
import Armv4T.Proofs.Machine.Abreast
import Armv4T.Proofs.Cache.Shift
import Armv4T.Proofs.Step.Shifted
import Armv4T.Proofs.Machine.Reset
import Armv4T.Proofs.Machine.Restore
import Armv4T.Proofs.Runner.Loops
import Armv4T.Proofs.Cache.Slots
import Armv4T.Proofs.Cache.DirectMapped
import Armv4T.Proofs.Bus.Timing
import Armv4T.Proofs.Exec.Ascending
import Armv4T.Proofs.Exec.Stores
import Armv4T.Proofs.Step.Issued
import Armv4T.Proofs.Machine.ReadOnly
import Armv4T.Proofs.Exec.UserBank
import Armv4T.Proofs.Exec.BankFault
import Armv4T.Proofs.Exec.RoundTrip
import Armv4T.Proofs.Bus.Image
import Armv4T.Proofs.Step.Redirect
import Armv4T.Proofs.Cache.Marking
import Armv4T.Proofs.Cache.Stale
import Armv4T.Proofs.Machine.Runs
import Armv4T.Proofs.Alu.Shift
import Armv4T.Proofs.Alu.Limbs
import Armv4T.Proofs.Exec.Comparison
import Armv4T.Proofs.Machine.StatusWord
import Armv4T.Proofs.Exec.StatusWrite
import Armv4T.Proofs.Memory.FixedArray
import Armv4T.Proofs.Decode.LongCall
import Armv4T.Proofs.Step.Mirror
import Armv4T.Proofs.Step.LongCall
import Armv4T.Proofs.Exec.Cycles
import Armv4T.Proofs.Machine.Cycles
import Armv4T.Proofs.Exec.Division
import Armv4T.Proofs.Cache.Bounds
import Armv4T.Proofs.Alu.CheckedShift
import Armv4T.Proofs.Decode.WellFormed
import Armv4T.Proofs.Machine.Charges
