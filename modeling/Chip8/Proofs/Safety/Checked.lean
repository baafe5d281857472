import Chip8.Proofs.Execution.Outcome

namespace Chip8

/-- Sizes and indices are below this: they have 64 bits. -/
def sizeBound : Nat := 0x10000000000000000

/-- An allocation is smaller than this, half of what can be addressed. -/
def allocationBound : Nat := 0x8000000000000000

namespace Checked

def add (bound a b : Nat) : Option Nat := if a + b < bound then some (a + b) else none

def mul (bound a b : Nat) : Option Nat := if a * b < bound then some (a * b) else none

def sub (a b : Nat) : Option Nat := if b ≤ a then some (a - b) else none

def shiftRight (byte : UInt8) (count : Nat) : Option UInt8 :=
  if count < 8 then some (byte >>> UInt8.ofNat count) else none

/-- The sub-range of a list from a start to a stop, which have to be in order and inside. -/
def range {α : Type} (xs : List α) (start stop : Nat) : Option (List α) :=
  if start ≤ stop ∧ stop ≤ xs.length then some ((xs.drop start).take (stop - start)) else none

def copy {size : Nat} (bytes : Vector UInt8 size) (start stop : Nat) (data : List UInt8) :
    Option (Vector UInt8 size) :=
  if start ≤ stop ∧ stop ≤ size ∧ data.length = stop - start then
    some (Memory.overwrite bytes start data)
  else none

/-- Room for that many return addresses of two bytes. -/
def allocate (frames : Nat) : Option CallStack :=
  if 2 * frames < allocationBound then some (.empty frames) else none

theorem add_eq_some {bound a b : Nat} (h : a + b < bound) : add bound a b = some (a + b) := if_pos h

theorem mul_eq_some {bound a b : Nat} (h : a * b < bound) : mul bound a b = some (a * b) := if_pos h

theorem sub_eq_some {a b : Nat} (h : b ≤ a) : sub a b = some (a - b) := if_pos h

theorem shiftRight_eq_some (byte : UInt8) {count : Nat} (h : count < 8) :
    shiftRight byte count = some (byte >>> UInt8.ofNat count) := if_pos h

end Checked

namespace Memory

def stop (address length : Nat) : Except Fault Nat :=
  if 4096 ≤ address then .error (.outOfBounds address)
  else
    match Checked.add sizeBound address length with
    | some stop => if stop ≤ 4096 then .ok stop else .error (.outOfBounds 4096)
    | none => .error (.outOfBounds 4096)

def slice? (m : Memory) (address length : Nat) : Option (Except Fault (List UInt8)) :=
  match stop address length with
  | .error fault => some (.error fault)
  | .ok stop => (Checked.range m.bytes.toList address stop).map .ok

def load? (m : Memory) (address : Nat) (data : List UInt8) : Option (Except Fault Memory) :=
  match stop address data.length with
  | .error fault => some (.error fault)
  | .ok stop => (Checked.copy m.bytes address stop data).map fun bytes => .ok ⟨bytes⟩

def readWord? (m : Memory) (address : Nat) : Option (Except Fault UInt16) := do
  match ← m.slice? address 2 with
  | .error fault => return .error fault
  | .ok word => return .ok (Word.ofBytes (← word[0]?) (← word[1]?))

theorem stop_eq (address length : Nat) :
    stop address length =
      if Fits address length then .ok (address + length) else .error (outside address) := by
  by_cases fits : Fits address length
  · obtain ⟨inside, ends⟩ := id fits
    have bounded : address + length < sizeBound := Nat.lt_of_le_of_lt ends (by decide)
    rw [stop, if_neg (Nat.not_le.2 inside), Checked.add_eq_some bounded, if_pos fits]
    exact if_pos ends
  · rw [if_neg fits, outside, stop]
    by_cases inside : address < 4096
    · -- whether the sum is too large for memory or for a size makes no difference
      have beyond : ¬ address + length ≤ 4096 := fun ends => fits ⟨inside, ends⟩
      rw [if_neg (Nat.not_le.2 inside), Nat.max_eq_right (Nat.le_of_lt inside), Checked.add]
      by_cases bounded : address + length < sizeBound
      · rw [if_pos bounded]
        exact if_neg beyond
      · rw [if_neg bounded]
    · rw [if_pos (Nat.not_lt.1 inside), Nat.max_eq_left (Nat.not_lt.1 inside)]

theorem slice?_eq (m : Memory) (address length : Nat) :
    m.slice? address length = some (m.slice address length) := by
  rw [slice?, stop_eq, slice]
  by_cases fits : Fits address length
  · have stop : address + length ≤ m.bytes.toList.length := by
      rw [Vector.length_toList]
      exact fits.2
    rw [if_pos fits, if_pos fits]
    change (Checked.range _ _ _).map _ = _
    rw [Checked.range, if_pos ⟨Nat.le_add_right .., stop⟩, Nat.add_sub_cancel_left]
    rfl
  · rw [if_neg fits, if_neg fits]

theorem load?_eq (m : Memory) (address : Nat) (data : List UInt8) :
    m.load? address data = some (m.load address data) := by
  rw [load?, stop_eq, load]
  by_cases fits : Fits address data.length
  · have sized : data.length = address + data.length - address := (Nat.add_sub_cancel_left ..).symm
    rw [if_pos fits, if_pos fits]
    change (Checked.copy _ _ _ _).map _ = _
    rw [Checked.copy, if_pos ⟨Nat.le_add_right .., fits.2, sized⟩]
    rfl
  · rw [if_neg fits, if_neg fits]

theorem readWord_of_not_fits (m : Memory) {address : Nat} (misfit : ¬ Fits address 2) :
    m.readWord address = .error (outside address) := by
  have short : m.bytes[address + 1]? = none := by
    apply Vector.getElem?_eq_none
    unfold Fits at misfit
    omega
  rw [readWord, short]
  cases m.bytes[address]? <;> rfl

theorem readWord?_eq (m : Memory) (address : Nat) :
    m.readWord? address = some (m.readWord address) := by
  unfold readWord? readWord
  rw [slice?_eq, slice]
  by_cases fits : Fits address 2
  · have high : address < 4096 := fits.1
    have low : address + 1 < 4096 := fits.2
    rw [if_pos fits]
    simp [high, low, List.getElem?_drop]
  · have refused := m.readWord_of_not_fits fits
    rw [readWord] at refused
    rw [if_neg fits, refused]
    rfl

end Memory

namespace Registers

theorem range_eq_upTo (v : Registers) {x : UInt8} (h : x.toNat < 16) :
    Checked.range v.toList 0 (x.toNat + 1) = some (v.upTo x) := by
  have stop : x.toNat + 1 ≤ v.toList.length := by
    rw [Vector.length_toList]
    exact h
  rw [Checked.range, if_pos ⟨Nat.zero_le _, stop⟩, upTo, upTo?, if_pos h]
  rfl

theorem copy_eq_putUpTo (v : Registers) {x : UInt8} (h : x.toNat < 16) {data : List UInt8}
    (sized : data.length = x.toNat + 1) :
    Checked.copy v 0 (x.toNat + 1) data = some (v.putUpTo x data) := by
  rw [Checked.copy, if_pos ⟨Nat.zero_le _, h, sized⟩, putUpTo, setUpTo?, if_pos h, Option.getD_some]
  refine congrArg some ?_
  apply Vector.ext
  intro j hj
  have written := Memory.getElem?_overwrite v 0 data j
  rw [Vector.getElem?_eq_getElem hj] at written
  rw [Vector.getElem_ofFn]
  by_cases inside : j ≤ x.toNat
  · have taken : j < data.length := sized ▸ Nat.lt_succ_of_le inside
    rw [if_pos (by omega), Nat.sub_zero, List.getElem?_eq_getElem taken] at written
    rw [if_pos inside, List.getElem?_eq_getElem taken, Option.getD_some]
    exact Option.some.inj written
  · rw [if_neg (by omega), Vector.getElem?_eq_getElem hj] at written
    rw [if_neg inside]
    exact Option.some.inj written

end Registers

end Chip8
