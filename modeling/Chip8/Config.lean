import Chip8.Hardware.Architecture

namespace Chip8

/-- What the offset of a relative jump is added to. -/
inductive JumpBase where
  | index
  | v0
  deriving DecidableEq, Repr

def JumpBase.choose {α : Type} (index v0 : α) : JumpBase → α
  | .index => index
  | .v0 => v0

structure Config where
  stackDepth : Nat
  jumpBase : JumpBase
  seed : Option UInt64
  deriving DecidableEq, Repr

namespace Config

def standard : Config := ⟨defaultStackDepth, .index, none⟩

instance : Inhabited Config := ⟨standard⟩

def withStackDepth (c : Config) (depth : Nat) : Config := { c with stackDepth := depth }

def withJumpBase (c : Config) (base : JumpBase) : Config := { c with jumpBase := base }

def withSeed (c : Config) (seed : UInt64) : Config := { c with seed := some seed }

end Config

end Chip8
