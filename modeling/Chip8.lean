import Chip8.Isa.Encode
import Chip8.Machine.Operation
import Chip8.Proofs.Execution.Step
import Chip8.Proofs.Execution.Footprint
import Chip8.Proofs.Run.History
import Chip8.Proofs.Run.Failure
import Chip8.Proofs.Isa.Coding
import Chip8.Proofs.Run.Invariant
import Chip8.Proofs.Run.Listing
import Chip8.Proofs.Run.Calls
import Chip8.Proofs.Run.Display
import Chip8.Proofs.Run.DueFault
import Chip8.Proofs.Run.KeyWait
import Chip8.Proofs.Run.LastWrite
import Chip8.Proofs.Run.ProgramCounter
import Chip8.Proofs.Run.Countdown
import Chip8.Proofs.Safety.Checked
import Chip8.Proofs.Safety.FrameBuffer
import Chip8.Proofs.Safety.ByteMachine
import Chip8.Proofs.Safety.Panic
import Chip8.Proofs.Run.Interleaving
import Chip8.Proofs.Run.Draws
import Chip8.Proofs.Run.Rebuild
import Chip8.Proofs.Run.ReadBack
import Chip8.Proofs.Run.Reporting
import Chip8.Proofs.Run.Keypads
import Chip8.Proofs.Run.Outputs
import Chip8.Proofs.Run.SavedRegisters
import Chip8.Proofs.Drawing.Blit
import Chip8.Proofs.Drawing.Overlay
import Chip8.Proofs.Execution.Arithmetic
import Chip8.Proofs.Execution.NextAddress
import Chip8.Proofs.Text.Digits
import Chip8.Proofs.Text.Lines
import Chip8.Proofs.Text.Width
import Chip8.Proofs.Text.Trace
import Chip8.Proofs.Isa.Assembly
import Chip8.Proofs.Memory.Accesses
import Chip8.Proofs.Memory.Transfers
import Chip8.Proofs.Memory.Loading
