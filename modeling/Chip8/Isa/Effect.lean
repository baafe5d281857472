import Chip8.Isa.Instruction

namespace Chip8

inductive Effect where
  | none
  | clearScreen
  | draw
  /-- Nothing is executed until a key is delivered. -/
  | waitForKey
  deriving DecidableEq, Repr

def Instruction.effect : Instruction → Effect
  | clear => .clearScreen
  | draw .. => .draw
  | awaitKey _ => .waitForKey
  | _ => .none

end Chip8
