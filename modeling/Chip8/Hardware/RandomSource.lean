namespace Chip8

/-- A stream of random words, read up to a position. -/
structure RandomSource where
  words : Nat → UInt32
  drawn : Nat

namespace RandomSource

def ofWords (words : Nat → UInt32) : RandomSource := ⟨words, 0⟩

/-- The words of a list, over and over; zeros if there is none. -/
def cycle (words : List UInt32) : RandomSource :=
  ofWords fun n => words[n % words.length]?.getD 0

def next (r : RandomSource) : UInt32 × RandomSource :=
  (r.words r.drawn, { r with drawn := r.drawn + 1 })

def nextByte (r : RandomSource) : UInt8 × RandomSource := (r.next.1.toUInt8, r.next.2)

end RandomSource

end Chip8
