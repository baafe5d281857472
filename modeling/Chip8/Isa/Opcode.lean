import Chip8.Hardware.Word
import Chip8.Text.Hex

namespace Chip8

structure Opcode where
  word : UInt16
  deriving DecidableEq, Repr

namespace Opcode

def ofBytes (high low : UInt8) : Opcode := ⟨Word.ofBytes high low⟩

def family (op : Opcode) : UInt8 := (op.word / 0x1000).toUInt8

/-- The second nibble: a register. -/
def x (op : Opcode) : UInt8 := (op.word / 0x100 % 0x10).toUInt8

/-- The third nibble: a register. -/
def y (op : Opcode) : UInt8 := (op.word / 0x10 % 0x10).toUInt8

def n (op : Opcode) : UInt8 := (op.word % 0x10).toUInt8

/-- The low byte. -/
def nn (op : Opcode) : UInt8 := (op.word % 0x100).toUInt8

/-- The last three nibbles: an address. -/
def nnn (op : Opcode) : UInt16 := op.word % 0x1000

def nibbles (op : Opcode) : List UInt8 := [op.family, op.x, op.y, op.n]

def bytes (op : Opcode) : List UInt8 := [Word.high op.word, Word.low op.word]

def text (op : Opcode) : String := Hex.padded 4 op.word.toNat

theorem toNat_family (op : Opcode) : op.family.toNat = op.word.toNat / 4096 := by
  have := op.word.toNat_lt
  simp [family]
  omega

theorem toNat_x (op : Opcode) : op.x.toNat = op.word.toNat / 256 % 16 := by
  simp [x]
  omega

theorem toNat_y (op : Opcode) : op.y.toNat = op.word.toNat / 16 % 16 := by
  simp [y]
  omega

theorem toNat_n (op : Opcode) : op.n.toNat = op.word.toNat % 16 := by
  simp [n]
  omega

theorem toNat_nn (op : Opcode) : op.nn.toNat = op.word.toNat % 256 := by
  simp [nn]

theorem toNat_nnn (op : Opcode) : op.nnn.toNat = op.word.toNat % 4096 := by
  simp [nnn]

theorem x_lt (op : Opcode) : op.x.toNat < 16 := by
  rw [toNat_x]
  omega

theorem y_lt (op : Opcode) : op.y.toNat < 16 := by
  rw [toNat_y]
  omega

theorem n_lt (op : Opcode) : op.n.toNat < 16 := by
  rw [toNat_n]
  omega

theorem nnn_lt (op : Opcode) : op.nnn.toNat < 4096 := by
  rw [toNat_nnn]
  omega

end Opcode

end Chip8
