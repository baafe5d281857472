namespace Chip8

abbrev memorySize : Nat := 4096

abbrev programStart : Nat := 0x200

abbrev programCapacity : Nat := 3584

abbrev registerCount : Nat := 16

/-- The register that carries, borrows and collisions are reported in. -/
abbrev flagRegister : Nat := 0xF

abbrev defaultStackDepth : Nat := 16

abbrev screenWidth : Nat := 64

abbrev screenHeight : Nat := 32

abbrev timerRate : Nat := 60

/-- Nanoseconds in a processor cycle, for five hundred cycles a second. -/
abbrev cycleNanoseconds : Nat := 2000000

end Chip8
