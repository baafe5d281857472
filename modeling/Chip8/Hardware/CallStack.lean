import Chip8.Fault

namespace Chip8

/-- The return addresses of the calls in progress, oldest first, and how many there may be. -/
structure CallStack where
  capacity : Nat
  frames : List UInt16
  deriving DecidableEq, Repr

namespace CallStack

def empty (capacity : Nat) : CallStack := ⟨capacity, []⟩

def depth (s : CallStack) : Nat := s.frames.length

def isEmpty (s : CallStack) : Bool := s.frames.isEmpty

def push (s : CallStack) (address : UInt16) : Except Fault CallStack :=
  if s.depth < s.capacity then .ok { s with frames := s.frames ++ [address] }
  else .error (.stackOverflow s.capacity)

def pop (s : CallStack) : Except Fault (UInt16 × CallStack) :=
  match s.frames.getLast? with
  | some address => .ok (address, { s with frames := s.frames.dropLast })
  | none => .error .stackUnderflow

def clear (s : CallStack) : CallStack := empty s.capacity

end CallStack

end Chip8
