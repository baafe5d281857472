namespace Chip8

inductive Instruction where
  | clear
  | ret
  /-- A routine of the host machine; nothing happens. -/
  | sys (address : UInt16)
  | jump (address : UInt16)
  | call (address : UInt16)
  | skipEqByte (x value : UInt8)
  | skipNeByte (x value : UInt8)
  | skipEq (x y : UInt8)
  | setByte (x value : UInt8)
  /-- Add a byte without reporting the carry. -/
  | addByte (x value : UInt8)
  | copy (x y : UInt8)
  | or (x y : UInt8)
  | and (x y : UInt8)
  | xor (x y : UInt8)
  | add (x y : UInt8)
  /-- Vx minus Vy, into Vx. -/
  | sub (x y : UInt8)
  | shiftRight (x : UInt8)
  /-- Vy minus Vx, into Vx. -/
  | subFrom (x y : UInt8)
  | shiftLeft (x : UInt8)
  | skipNe (x y : UInt8)
  | setIndex (address : UInt16)
  /-- Jump relative to the base that the configuration names. -/
  | jumpOffset (address : UInt16)
  | random (x mask : UInt8)
  | draw (x y rows : UInt8)
  | skipKeyDown (x : UInt8)
  | skipKeyUp (x : UInt8)
  | readDelay (x : UInt8)
  | awaitKey (x : UInt8)
  | setDelay (x : UInt8)
  | setSound (x : UInt8)
  | addIndex (x : UInt8)
  /-- Point at the glyph of Vx. -/
  | glyph (x : UInt8)
  | decimal (x : UInt8)
  | store (x : UInt8)
  | load (x : UInt8)
  deriving DecidableEq, Repr

end Chip8
