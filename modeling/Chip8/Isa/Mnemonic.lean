import Chip8.Isa.Instruction
import Chip8.Text.Hex

namespace Chip8

/-- What can stand behind the name of an instruction. -/
inductive Operand where
  | register (x : UInt8)
  | byte (value : UInt8)
  | address (address : UInt16)
  /-- An address that is added to a base. -/
  | offset (address : UInt16)
  | rows (count : UInt8)
  | index
  /-- The memory that the index points at. -/
  | atIndex
  | delayTimer
  | soundTimer
  | key
  | glyph
  | decimal
  deriving DecidableEq, Repr

namespace Operand

/-- Numbers are hexadecimal, but rows are counted in decimal. -/
def text : Operand → String
  | register x => "V" ++ Hex.plain x.toNat
  | byte value => Hex.marked 2 value.toNat
  | address a => Hex.marked 3 a.toNat
  | offset a => "+" ++ Hex.marked 3 a.toNat
  | rows count => toString count.toNat
  | index => "I"
  | atIndex => "[I]"
  | delayTimer => "DT"
  | soundTimer => "ST"
  | key => "K"
  | glyph => "F"
  | decimal => "B"

end Operand

namespace Instruction

def name : Instruction → String
  | clear => "CLS"
  | ret => "RET"
  | sys _ => "SYS"
  | jump _ | jumpOffset _ => "JP"
  | call _ => "CALL"
  | skipEqByte .. | skipEq .. => "SE"
  | skipNeByte .. | skipNe .. => "SNE"
  | addByte .. | add .. | addIndex _ => "ADD"
  | or .. => "OR"
  | and .. => "AND"
  | xor .. => "XOR"
  | sub .. => "SUB"
  | subFrom .. => "SUBN"
  | shiftRight _ => "SHR"
  | shiftLeft _ => "SHL"
  | random .. => "RND"
  | draw .. => "DRW"
  | skipKeyDown _ => "SKP"
  | skipKeyUp _ => "SKNP"
  | setByte .. | copy .. | setIndex _ | readDelay _ | awaitKey _ | setDelay _ | setSound _
  | glyph _ | decimal _ | store _ | load _ => "LD"

/-- The operands, the one that is written to first. -/
def operands : Instruction → List Operand
  | clear | ret => []
  | sys a | jump a | call a => [.address a]
  | jumpOffset a => [.offset a]
  | skipEqByte x value | skipNeByte x value | setByte x value | addByte x value
  | random x value => [.register x, .byte value]
  | skipEq x y | skipNe x y | copy x y | or x y | and x y | xor x y | add x y | sub x y
  | subFrom x y => [.register x, .register y]
  | shiftRight x | shiftLeft x | skipKeyDown x | skipKeyUp x => [.register x]
  | setIndex a => [.index, .address a]
  | draw x y rows => [.register x, .register y, .rows rows]
  | readDelay x => [.register x, .delayTimer]
  | awaitKey x => [.register x, .key]
  | setDelay x => [.delayTimer, .register x]
  | setSound x => [.soundTimer, .register x]
  | addIndex x => [.index, .register x]
  | glyph x => [.glyph, .register x]
  | decimal x => [.decimal, .register x]
  | store x => [.atIndex, .register x]
  | load x => [.register x, .atIndex]

def text (i : Instruction) : String :=
  match i.operands with
  | [] => i.name
  | operands => i.name ++ " " ++ ", ".intercalate (operands.map Operand.text)

end Instruction

end Chip8
