import Chip8.Hardware.Architecture

namespace Chip8

abbrev Registers := Vector UInt8 16

namespace Registers

def zero : Registers := Vector.replicate 16 0

def get? (v : Registers) (x : UInt8) : Option UInt8 := v[x.toNat]?

def set? (v : Registers) (x value : UInt8) : Option Registers :=
  if h : x.toNat < 16 then some (v.set x.toNat value h) else none

def flag (v : Registers) : UInt8 := v[flagRegister]

def setFlag (v : Registers) (on : Bool) : Registers :=
  v.set flagRegister (if on then 1 else 0) (by decide)

/-- V0 to Vx. -/
def upTo? (v : Registers) (x : UInt8) : Option (List UInt8) :=
  if x.toNat < 16 then some (v.toList.take (x.toNat + 1)) else none

/-- The registers with V0 to Vx replaced by the first of some values. -/
def setUpTo? (v : Registers) (x : UInt8) (values : List UInt8) : Option Registers :=
  if x.toNat < 16 then
    some (Vector.ofFn fun j => if j.val ≤ x.toNat then values[j.val]?.getD v[j] else v[j])
  else none

@[simp] theorem flag_setFlag (v : Registers) (on : Bool) :
    (v.setFlag on).flag = if on then 1 else 0 := by
  simp [flag, setFlag]

theorem get?_of_lt (v : Registers) {x : UInt8} (h : x.toNat < 16) :
    v.get? x = some v[x.toNat] := by
  simp [get?, h]

theorem set?_of_lt (v : Registers) {x : UInt8} (value : UInt8) (h : x.toNat < 16) :
    v.set? x value = some (v.set x.toNat value h) := by
  rw [set?, dif_pos h]

end Registers

end Chip8
