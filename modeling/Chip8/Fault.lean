import Chip8.Text.Hex

namespace Chip8

inductive Fault where
  /-- The first address outside memory that an access would touch. -/
  | outOfBounds (address : Nat)
  | stackOverflow (capacity : Nat)
  | stackUnderflow
  | unimplemented (word : UInt16)
  /-- An operand that names none of the registers; decoded instructions have none. -/
  | noSuchRegister (register : UInt8)
  | programTooLarge (size capacity : Nat)
  | unreadable (message : String)
  deriving DecidableEq, Repr

namespace Fault

def message : Fault → String
  | outOfBounds address => "memory access out of bounds at address " ++ Hex.marked 4 address
  | stackOverflow capacity =>
    "stack overflow: call depth would exceed " ++ toString capacity
  | stackUnderflow => "stack underflow: return with an empty call stack"
  | unimplemented word => "opcode " ++ Hex.marked 4 word.toNat ++ " is not implemented"
  | noSuchRegister register => "there is no register V" ++ Hex.plain register.toNat
  | programTooLarge size capacity =>
    "program is " ++ toString size ++ " bytes but at most " ++ toString capacity ++
      " fit in memory"
  | unreadable message => "unable to read program: " ++ message

end Fault

end Chip8
