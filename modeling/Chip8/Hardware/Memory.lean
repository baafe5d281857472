import Chip8.Fault
import Chip8.Hardware.Architecture
import Chip8.Hardware.Word

namespace Chip8

/-- Flat memory. Addresses are natural numbers, so no sum of them wraps, and an access that reaches
outside is refused as a whole. -/
structure Memory where
  bytes : Vector UInt8 4096
  deriving DecidableEq

namespace Memory

def filled (value : UInt8) : Memory := ⟨Vector.replicate 4096 value⟩

def blank : Memory := filled 0

instance : Inhabited Memory := ⟨blank⟩

def Fits (address length : Nat) : Prop :=
  address < 4096 ∧ address + length ≤ 4096

instance (address length : Nat) : Decidable (Fits address length) :=
  inferInstanceAs (Decidable (_ ∧ _))

/-- A range that starts outside fails at its start, any other at the end of memory. -/
def outside (address : Nat) : Fault := .outOfBounds (max address 4096)

def read (m : Memory) (address : Nat) : Except Fault UInt8 :=
  match m.bytes[address]? with
  | some byte => .ok byte
  | none => .error (outside address)

def write (m : Memory) (address : Nat) (value : UInt8) : Except Fault Memory :=
  if address < 4096 then .ok ⟨m.bytes.setIfInBounds address value⟩
  else .error (outside address)

def readWord (m : Memory) (address : Nat) : Except Fault UInt16 :=
  match m.bytes[address]?, m.bytes[address + 1]? with
  | some high, some low => .ok (Word.ofBytes high low)
  | _, _ => .error (outside address)

def slice (m : Memory) (address length : Nat) : Except Fault (List UInt8) :=
  if Fits address length then .ok ((m.bytes.toList.drop address).take length)
  else .error (outside address)

/-- The bytes with others written over them from an address on. -/
def overwrite {size : Nat} (bytes : Vector UInt8 size) (address : Nat) :
    List UInt8 → Vector UInt8 size
  | [] => bytes
  | b :: rest => overwrite (bytes.setIfInBounds address b) (address + 1) rest

/-- Write bytes from an address on, all of them or none. -/
def load (m : Memory) (address : Nat) (data : List UInt8) : Except Fault Memory :=
  if Fits address data.length then .ok ⟨overwrite m.bytes address data⟩
  else .error (outside address)

def fill (m : Memory) (address length : Nat) (value : UInt8) : Except Fault Memory :=
  if Fits address length then .ok ⟨overwrite m.bytes address (List.replicate length value)⟩
  else .error (outside address)

theorem ext_getElem? {m m' : Memory} (h : ∀ a : Nat, m.bytes[a]? = m'.bytes[a]?) :
    m = m' := by
  cases m
  cases m'
  congr 1
  apply Vector.ext
  intro a ha
  simpa [ha] using h a

theorem getElem?_overwrite {size : Nat} (bytes : Vector UInt8 size) (address : Nat)
    (data : List UInt8) (a : Nat) :
    (overwrite bytes address data)[a]? =
      if address ≤ a ∧ a < address + data.length ∧ a < size then data[a - address]?
      else bytes[a]? := by
  induction data generalizing bytes address with
  | nil => rw [overwrite, if_neg (by simp; omega)]
  | cons b rest ih =>
    rw [overwrite, ih, Vector.getElem?_setIfInBounds, List.length_cons]
    rcases Nat.lt_trichotomy a address with h | rfl | h
    · rw [if_neg (by omega), if_neg (by omega), if_neg (by omega)]
    · rw [if_neg (by omega), if_pos rfl]
      by_cases hs : a < size <;> simp [hs]
    · rw [if_neg (c := address = a) (by omega),
        show a - address = a - (address + 1) + 1 by omega, List.getElem?_cons_succ]
      exact ite_congr (propext (by omega)) (fun _ => rfl) (fun _ => rfl)

theorem read_eq_ok_iff {m : Memory} {address : Nat} {value : UInt8} :
    m.read address = .ok value ↔ m.bytes[address]? = some value := by
  unfold read
  cases m.bytes[address]? <;> simp

theorem fill_eq_load (m : Memory) (address length : Nat) (value : UInt8) :
    m.fill address length value = m.load address (List.replicate length value) := by
  simp [fill, load]

theorem length_of_slice {m : Memory} {address length : Nat} {data : List UInt8}
    (h : m.slice address length = .ok data) : data.length = length := by
  unfold slice at h
  split at h
  · next fits =>
    cases h
    have := fits.2
    simp
    omega
  · cases h

end Memory

end Chip8
