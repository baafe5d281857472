namespace Chip8.Hex

def digit (n : Nat) : Char :=
  if n < 10 then Char.ofNat (48 + n) else Char.ofNat (55 + n)

/-- The digits of a number without leading zeros; zero has one digit. -/
def digits (n : Nat) : List Char :=
  if n < 16 then [digit n] else digits (n / 16) ++ [digit (n % 16)]
termination_by n
decreasing_by omega

theorem digits_of_lt {n : Nat} (h : n < 16) : digits n = [digit n] := by
  rw [digits, if_pos h]

theorem digits_of_le {n : Nat} (h : 16 ≤ n) :
    digits n = digits (n / 16) ++ [digit (n % 16)] := by
  rw [digits, if_neg (by omega)]

def plain (n : Nat) : String := String.ofList (digits n)

/-- The number with leading zeros up to a least number of digits. -/
def padded (width n : Nat) : String := String.ofList ((digits n).leftpad width '0')

def marked (width n : Nat) : String := "0x" ++ padded width n

@[simp] theorem toList_plain (n : Nat) : (plain n).toList = digits n := by simp [plain]

@[simp] theorem toList_padded (width n : Nat) :
    (padded width n).toList = (digits n).leftpad width '0' := by simp [padded]

end Chip8.Hex
