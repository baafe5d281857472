namespace Chip8

/-- A machine only ever asks whether a key is down. -/
abbrev Keypad := UInt8 → Bool

/-- Sixteen keys by number; of a larger number the low nibble counts. -/
def Keypad.ofVector (held : Vector Bool 16) : Keypad :=
  fun key => held[(⟨key.toNat % 16, Nat.mod_lt _ (by decide)⟩ : Fin 16)]

structure Keys where
  held : Vector Bool 16
  deriving DecidableEq

namespace Keys

def none : Keys := ⟨Vector.replicate 16 false⟩

def set (k : Keys) (key : UInt8) (down : Bool) : Keys :=
  ⟨k.held.set (key.toNat % 16) down (Nat.mod_lt _ (by decide))⟩

def press (k : Keys) (key : UInt8) : Keys := k.set key true

def release (k : Keys) (key : UInt8) : Keys := k.set key false

def releaseAll (_ : Keys) : Keys := none

def keypad (k : Keys) : Keypad := .ofVector k.held

@[simp] theorem keypad_none (q : UInt8) : none.keypad q = false := by
  simp [keypad, Keypad.ofVector, none]

theorem keypad_set (k : Keys) (key q : UInt8) (down : Bool) :
    (k.set key down).keypad q =
      if key.toNat % 16 = q.toNat % 16 then down else k.keypad q := by
  simp [keypad, Keypad.ofVector, set, Vector.getElem_set]

end Keys

end Chip8
