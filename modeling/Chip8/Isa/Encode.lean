import Chip8.Isa.Instruction
import Chip8.Isa.Opcode

namespace Chip8.Instruction

/-- Every operand fits its place in a word, and a host routine is not one of the two addresses
that stand for other instructions. -/
def InRange : Instruction → Prop
  | clear | ret => True
  | sys a => a < 0x1000 ∧ a ≠ 0x0E0 ∧ a ≠ 0x0EE
  | jump a | call a | setIndex a | jumpOffset a => a < 0x1000
  | skipEqByte x _ | skipNeByte x _ | setByte x _ | addByte x _ | random x _ => x < 0x10
  | skipEq x y | skipNe x y | copy x y | or x y | and x y | xor x y | add x y | sub x y
  | subFrom x y => x < 0x10 ∧ y < 0x10
  | draw x y rows => x < 0x10 ∧ y < 0x10 ∧ rows < 0x10
  | shiftRight x | shiftLeft x | skipKeyDown x | skipKeyUp x | readDelay x | awaitKey x
  | setDelay x | setSound x | addIndex x | glyph x | decimal x | store x | load x => x < 0x10

instance (i : Instruction) : Decidable i.InRange := by
  cases i <;> unfold InRange <;> infer_instance

def addressed (family address : UInt16) : Opcode := ⟨family * 0x1000 + address⟩

def immediate (family : UInt16) (x value : UInt8) : Opcode :=
  ⟨family * 0x1000 + x.toUInt16 * 0x100 + value.toUInt16⟩

def registers (family : UInt16) (x y n : UInt8) : Opcode :=
  ⟨family * 0x1000 + x.toUInt16 * 0x100 + y.toUInt16 * 0x10 + n.toUInt16⟩

/-- The opcode of an instruction, with a nibble of choice where shifts leave one free. -/
def encodeWith (spare : UInt8) : Instruction → Opcode
  | clear => ⟨0x00E0⟩
  | ret => ⟨0x00EE⟩
  | sys a => addressed 0x0 a
  | jump a => addressed 0x1 a
  | call a => addressed 0x2 a
  | skipEqByte x value => immediate 0x3 x value
  | skipNeByte x value => immediate 0x4 x value
  | skipEq x y => registers 0x5 x y 0x0
  | setByte x value => immediate 0x6 x value
  | addByte x value => immediate 0x7 x value
  | copy x y => registers 0x8 x y 0x0
  | or x y => registers 0x8 x y 0x1
  | and x y => registers 0x8 x y 0x2
  | xor x y => registers 0x8 x y 0x3
  | add x y => registers 0x8 x y 0x4
  | sub x y => registers 0x8 x y 0x5
  | shiftRight x => registers 0x8 x spare 0x6
  | subFrom x y => registers 0x8 x y 0x7
  | shiftLeft x => registers 0x8 x spare 0xE
  | skipNe x y => registers 0x9 x y 0x0
  | setIndex a => addressed 0xA a
  | jumpOffset a => addressed 0xB a
  | random x mask => immediate 0xC x mask
  | draw x y rows => registers 0xD x y rows
  | skipKeyDown x => immediate 0xE x 0x9E
  | skipKeyUp x => immediate 0xE x 0xA1
  | readDelay x => immediate 0xF x 0x07
  | awaitKey x => immediate 0xF x 0x0A
  | setDelay x => immediate 0xF x 0x15
  | setSound x => immediate 0xF x 0x18
  | addIndex x => immediate 0xF x 0x1E
  | glyph x => immediate 0xF x 0x29
  | decimal x => immediate 0xF x 0x33
  | store x => immediate 0xF x 0x55
  | load x => immediate 0xF x 0x65

def encode (i : Instruction) : Opcode := i.encodeWith 0

/-- The program of a list of opcodes, the high byte of each word first. -/
def assemble (listing : List Opcode) : List UInt8 := listing.flatMap Opcode.bytes

@[simp] theorem length_assemble (listing : List Opcode) :
    (assemble listing).length = 2 * listing.length := by
  induction listing with
  | nil => rfl
  | cons op rest ih =>
    rw [assemble, List.flatMap_cons, List.length_append, ← assemble, ih, List.length_cons]
    simp only [Opcode.bytes, List.length_cons, List.length_nil]
    omega

end Chip8.Instruction
