import Chip8.Fault
import Chip8.Isa.Instruction
import Chip8.Isa.Opcode

namespace Chip8.Opcode

/-- The family of register-to-register operations, by the last nibble. -/
def arithmetic? (op : Opcode) : Option Instruction :=
  match op.n with
  | 0x0 => some (.copy op.x op.y)
  | 0x1 => some (.or op.x op.y)
  | 0x2 => some (.and op.x op.y)
  | 0x3 => some (.xor op.x op.y)
  | 0x4 => some (.add op.x op.y)
  | 0x5 => some (.sub op.x op.y)
  | 0x6 => some (.shiftRight op.x)
  | 0x7 => some (.subFrom op.x op.y)
  | 0xE => some (.shiftLeft op.x)
  | _ => none

/-- The family of timers, keys and memory transfers, by the low byte. -/
def transfer? (op : Opcode) : Option Instruction :=
  match op.nn with
  | 0x07 => some (.readDelay op.x)
  | 0x0A => some (.awaitKey op.x)
  | 0x15 => some (.setDelay op.x)
  | 0x18 => some (.setSound op.x)
  | 0x1E => some (.addIndex op.x)
  | 0x29 => some (.glyph op.x)
  | 0x33 => some (.decimal op.x)
  | 0x55 => some (.store op.x)
  | 0x65 => some (.load op.x)
  | _ => none

def instruction? (op : Opcode) : Option Instruction :=
  match op.family with
  | 0x0 =>
    if op.nnn = 0x0E0 then some .clear
    else if op.nnn = 0x0EE then some .ret
    else some (.sys op.nnn)
  | 0x1 => some (.jump op.nnn)
  | 0x2 => some (.call op.nnn)
  | 0x3 => some (.skipEqByte op.x op.nn)
  | 0x4 => some (.skipNeByte op.x op.nn)
  | 0x5 => if op.n = 0 then some (.skipEq op.x op.y) else none
  | 0x6 => some (.setByte op.x op.nn)
  | 0x7 => some (.addByte op.x op.nn)
  | 0x8 => op.arithmetic?
  | 0x9 => if op.n = 0 then some (.skipNe op.x op.y) else none
  | 0xA => some (.setIndex op.nnn)
  | 0xB => some (.jumpOffset op.nnn)
  | 0xC => some (.random op.x op.nn)
  | 0xD => some (.draw op.x op.y op.n)
  | 0xE =>
    if op.nn = 0x9E then some (.skipKeyDown op.x)
    else if op.nn = 0xA1 then some (.skipKeyUp op.x)
    else none
  | 0xF => op.transfer?
  | _ => none

def decode (op : Opcode) : Except Fault Instruction :=
  match op.instruction? with
  | some i => .ok i
  | none => .error (.unimplemented op.word)

theorem decode_eq_ok_iff {op : Opcode} {i : Instruction} :
    op.decode = .ok i ↔ op.instruction? = some i := by
  unfold decode
  cases op.instruction? <;> simp

theorem decode_eq_error_iff {op : Opcode} {e : Fault} :
    op.decode = .error e ↔ op.instruction? = none ∧ e = .unimplemented op.word := by
  unfold decode
  cases op.instruction? <;> simp [eq_comm]

end Chip8.Opcode
