import Chip8.Fault
import Chip8.Hardware.Registers
import Chip8.Isa.Mnemonic
import Chip8.Isa.Decode

namespace Chip8

/-- The levels of records, from the gravest to the most detailed. Which of them are written down is
up to the facility that the records go to. -/
inductive Level where
  | warn
  | debug
  | trace
  deriving DecidableEq, Repr

inductive Record where
  | resetting
  | loaded (size : Nat)
  | fetchFailed (pc : UInt16) (fault : Fault)
  | executing (pc : UInt16) (op : Opcode) (v : Registers) (i : UInt16)
  | failed (op : Opcode) (pc : UInt16) (fault : Fault)
  | awaitingKey (register : UInt8)
  | receivedKey (register key : UInt8)
  deriving DecidableEq

namespace Record

def level : Record → Level
  | fetchFailed .. | failed .. => .warn
  | resetting | loaded _ | awaitingKey _ | receivedKey .. => .debug
  | executing .. => .trace

def mnemonic (op : Opcode) : String := (op.instruction?.map Instruction.text).getD "???"

def padEnd (width : Nat) (s : String) : String := String.ofList (s.toList.rightpad width ' ')

def registersText (v : Registers) : String :=
  "v[" ++ ", ".intercalate (v.toList.map fun value => Hex.padded 2 value.toNat) ++ "]"

/-- One line of a trace: program counter, opcode, mnemonic, registers and index in fixed columns. -/
def traceText (pc : UInt16) (op : Opcode) (v : Registers) (i : UInt16) : String :=
  Hex.padded 4 pc.toNat ++ " " ++ op.text ++ " " ++ padEnd 14 (mnemonic op) ++ " " ++
    registersText v ++ " i" ++ Hex.padded 4 i.toNat

def text : Record → String
  | resetting => "resetting"
  | loaded size => "loaded " ++ toString size ++ " byte program"
  | fetchFailed pc fault => "fetch at " ++ Hex.marked 3 pc.toNat ++ " failed: " ++ fault.message
  | executing pc op v i => traceText pc op v i
  | failed op pc fault =>
    op.text ++ " at " ++ Hex.marked 3 pc.toNat ++ " failed: " ++ fault.message
  | awaitingKey register => "V" ++ Hex.plain register.toNat ++ " waiting for a key"
  | receivedKey register key =>
    "V" ++ Hex.plain register.toNat ++ " = key " ++ Hex.plain key.toNat

end Record

/-- The records of the levels that are written down. -/
def visible (writes : Level → Bool) (log : List Record) : List Record :=
  log.filter fun r => writes r.level

end Chip8
