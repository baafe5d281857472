import Chip8.Hardware.CallStack
import Chip8.Hardware.Font
import Chip8.Hardware.Memory
import Chip8.Hardware.Registers
import Chip8.Hardware.Screen
import Chip8.Hardware.Timers
import Chip8.Isa.Opcode

namespace Chip8

structure State where
  v : Registers
  i : UInt16
  pc : UInt16
  timers : Timers
  stack : CallStack
  memory : Memory
  screen : Screen
  /-- The screen was drawn on or cleared since the host last took it. -/
  redraw : Bool
  /-- The register that the next key goes to; while there is one, nothing is executed. -/
  waiting : Option UInt8
  deriving DecidableEq

namespace State

def initialMemory : Memory := ⟨Memory.overwrite Memory.blank.bytes Font.base Font.bytes⟩

def initial (stackDepth : Nat) : State where
  v := .zero
  i := 0
  pc := UInt16.ofNat programStart
  timers := .zero
  stack := .empty stackDepth
  memory := initialMemory
  screen := .blank
  redraw := false
  waiting := none

def fetch (s : State) : Except Fault Opcode :=
  match s.memory.readWord s.pc.toNat with
  | .ok word => .ok ⟨word⟩
  | .error fault => .error fault

/-- Turn every pixel off, without a word to the host. -/
def blankScreen (s : State) : State := { s with screen := .blank }

def setFlag (s : State) (on : Bool) : State := { s with v := s.v.setFlag on }

end State

end Chip8
