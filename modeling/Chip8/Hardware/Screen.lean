import Chip8.Hardware.Architecture

namespace Chip8

/-- One word of bits for each row, the leftmost pixel in the most significant bit. -/
structure Screen where
  rows : Vector (BitVec 64) 32
  deriving DecidableEq

namespace Screen

def blank : Screen := ⟨Vector.replicate 32 0⟩

def row (s : Screen) (y : Nat) : BitVec 64 :=
  s.rows[(⟨y % 32, Nat.mod_lt _ (by decide)⟩ : Fin 32)]

def pixel (s : Screen) (x y : Nat) : Bool := (s.row y).getMsbD (x % 64)

def flip (s : Screen) (y : Nat) (mask : BitVec 64) : Screen :=
  ⟨s.rows.set (y % 32) (s.row y ^^^ mask) (Nat.mod_lt _ (by decide))⟩

/-- The mask of a sprite row: eight bits from a column on, the rest of the row clear. -/
def mask (x : Nat) (bits : UInt8) : BitVec 64 :=
  ((bits.toBitVec.setWidth 64) <<< (56 : Nat)).rotateRight x

/-- Draw the rows of a sprite downward; true if some set bit met a pixel that was on. -/
def draw (s : Screen) (x y : Nat) : List UInt8 → Screen × Bool
  | [] => (s, false)
  | bits :: rest =>
    let below := (s.flip y (mask x bits)).draw x (y + 1) rest
    (below.1, (s.row y &&& mask x bits) != 0 || below.2)

theorem row_flip (s : Screen) (y z : Nat) (m : BitVec 64) :
    (s.flip y m).row z =
      if y % 32 = z % 32 then s.row z ^^^ m else s.row z := by
  simp only [row, flip, Fin.getElem_fin, Vector.getElem_set]
  split
  · next h => simp only [h]
  · rfl

/-- A column shows the bit of a sprite row that is as far from its left edge, counted around the
screen, and nothing if that is eight or more. -/
theorem getMsbD_mask (x c : Nat) (bits : UInt8) (hc : c < 64) :
    (mask x bits).getMsbD c =
      (decide ((c + 64 - x % 64) % 64 < 8) && bits.toBitVec.getMsbD ((c + 64 - x % 64) % 64)) := by
  have hx : x % 64 < 64 := Nat.mod_lt _ (by decide)
  simp only [mask, BitVec.getMsbD_rotateRight, BitVec.getMsbD_shiftLeft, BitVec.getMsbD_setWidth]
  split
  · next h =>
    have hd : (c + 64 - x % 64) % 64 = c + 64 - x % 64 := by omega
    simp only [hd, BitVec.getMsbD]
    grind
  · next h =>
    have hd : (c + 64 - x % 64) % 64 = c - x % 64 := by omega
    simp only [hd, BitVec.getMsbD]
    grind

theorem pixel_flip (s : Screen) (x y z : Nat) (m : BitVec 64) :
    (s.flip y m).pixel x z =
      (s.pixel x z ^^ (decide (y % 32 = z % 32) && m.getMsbD (x % 64))) := by
  simp only [pixel, row_flip]
  split <;> simp [*]

@[simp] theorem draw_nil (s : Screen) (x y : Nat) : s.draw x y [] = (s, false) := rfl

end Screen

end Chip8
