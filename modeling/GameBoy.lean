import GameBoy.Cpu.Mnemonic
import GameBoy.Main
import GameBoy.Proofs.Arithmetic.Decimal
import GameBoy.Proofs.Arithmetic.Shifts
import GameBoy.Proofs.BankSelection
import GameBoy.Proofs.Breakpoint
import GameBoy.Proofs.CartridgeRam
import GameBoy.Proofs.Causes
import GameBoy.Proofs.Checked.Runs
import GameBoy.Proofs.Clock
import GameBoy.Proofs.Collection
import GameBoy.Proofs.Dispatch
import GameBoy.Proofs.Execution
import GameBoy.Proofs.FlatMemory
import GameBoy.Proofs.FrameCycles
import GameBoy.Proofs.Frames
import GameBoy.Proofs.HaltBug
import GameBoy.Proofs.Hang
import GameBoy.Proofs.Idling
import GameBoy.Proofs.Isolation
import GameBoy.Proofs.Loading
import GameBoy.Proofs.MasterEnable
import GameBoy.Proofs.Nesting
import GameBoy.Proofs.Overflow
import GameBoy.Proofs.Pending
import GameBoy.Proofs.PlainMemory
import GameBoy.Proofs.Position
import GameBoy.Proofs.PrintLoop
import GameBoy.Proofs.ReadsFirst
import GameBoy.Proofs.Refusal
import GameBoy.Proofs.Requests
import GameBoy.Proofs.SerialHistory
import GameBoy.Proofs.SerialVerdict
import GameBoy.Proofs.SoundHistory
import GameBoy.Proofs.Splitting
import GameBoy.Proofs.Stall
import GameBoy.Proofs.Storage
import GameBoy.Proofs.Switches
import GameBoy.Proofs.Transfer
import GameBoy.Proofs.Watching
import GameBoy.Trace
