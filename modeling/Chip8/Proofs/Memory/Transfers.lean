import Chip8.Proofs.Run.DueFault
import Chip8.Proofs.Run.SavedRegisters

namespace Chip8

namespace Instruction

/-- How many bytes at the index the instruction exchanges with the registers. -/
def transferLength? : Instruction → Option Nat
  | decimal _ => some 3
  | store x | load x => some (x.toNat + 1)
  | _ => none

/-- Memory holds the decimal digits of a byte from an address on. -/
structure HoldsDigits (memory : Memory) (address : Nat) (byte hundreds tens units : UInt8) :
    Prop where
  hundreds_le : hundreds.toNat ≤ 9
  tens_le : tens.toNat ≤ 9
  units_le : units.toNat ≤ 9
  sum_eq : 100 * hundreds.toNat + 10 * tens.toNat + units.toNat = byte.toNat
  first : memory.bytes[address]? = some hundreds
  second : memory.bytes[address + 1]? = some tens
  third : memory.bytes[address + 2]? = some units

def AgreeOutside (m m' : Memory) (address length : Nat) : Prop :=
  ∀ a, a < address ∨ address + length ≤ a → m'.bytes[a]? = m.bytes[a]?

/-- What a transfer leaves in the registers and in memory. -/
def Transfers (s : State) (v : Registers) (memory : Memory) : Instruction → Prop
  | decimal x =>
    (∃ h t u, HoldsDigits memory s.i.toNat (s.v.value x) h t u) ∧
      AgreeOutside s.memory memory s.i.toNat 3 ∧ v = s.v
  | store x =>
    (∀ j ≤ x.toNat, memory.bytes[s.i.toNat + j]? = s.v[j]?) ∧
      AgreeOutside s.memory memory s.i.toNat (x.toNat + 1) ∧ v = s.v
  | load x =>
    (∀ j ≤ x.toNat, v[j]? = s.memory.bytes[s.i.toNat + j]?) ∧
      (∀ r, x.toNat < r → v[r]? = s.v[r]?) ∧ memory = s.memory
  | _ => True

variable {i : Instruction}

theorem agreeOutside_memoryAfter (exist : i.RegistersExist) (s : State) :
    AgreeOutside s.memory (i.memoryAfter s) s.i.toNat i.storedLength := by
  intro a outside
  apply getElem?_memoryAfter exist
  rw [memory_mem_footprint]
  omega

theorem holdsDigits_memoryAfter {x : UInt8} {s : State} (fits : s.i.toNat + 3 ≤ 4096) :
    ∃ h t u, HoldsDigits ((decimal x).memoryAfter s) s.i.toNat (s.v.value x) h t u := by
  have small := (s.v.value x).toNat_lt
  have written (k : Nat) (hk : k < 3) :
      ((decimal x).memoryAfter s).bytes[s.i.toNat + k]? = (decimalDigits (s.v.value x))[k]? := by
    rw [memoryAfter, Memory.getElem?_overwrite, if_pos, Nat.add_sub_cancel_left]
    · rfl
    · exact ⟨Nat.le_add_right .., Nat.add_lt_add_left hk _, by omega⟩
  refine ⟨s.v.value x / 100 % 10, s.v.value x / 10 % 10, s.v.value x % 10, ?_, ?_, ?_, ?_,
    written 0 (by decide), written 1 (by decide), written 2 (by decide)⟩
  all_goals
    simp only [UInt8.toNat_mod, UInt8.toNat_div, UInt8.reduceToNat]
    omega

theorem transfers_after {length : Nat} (transfer : i.transferLength? = some length)
    (exist : i.RegistersExist) {m : Machine} (fits : m.state.i.toNat + length ≤ 4096) :
    i.Transfers m.state (i.registersAfter m) (i.memoryAfter m.state) := by
  have agree := agreeOutside_memoryAfter exist m.state
  cases i with
  | decimal x =>
    cases transfer
    exact ⟨holdsDigits_memoryAfter fits, agree, rfl⟩
  | store x =>
    cases transfer
    have hx := registersExist_store_iff.1 exist
    refine ⟨?_, agree, rfl⟩
    intro j hj
    have inside : m.state.i.toNat + j < 4096 := by omega
    have number : j < 16 := by omega
    rw [getElem?_memoryAfter_eq_or exist _ inside, written?_store_of_le _ hj,
      Vector.getElem?_eq_getElem number, Option.some_or]
  | load x =>
    cases transfer
    have hx := registersExist_load_iff.1 exist
    have safe : m.state.accessFault? (x.toNat + 1) = none := by
      rw [m.state.accessFault?_of_pos (Nat.succ_pos _), if_neg (Nat.not_lt.2 fits)]
    refine ⟨?_, ?_, rfl⟩
    · intro j hj
      exact getElem?_registersAfter_load hx safe hj
    · intro r hr
      exact Registers.getElem?_putUpTo_of_lt _ _ hr
  | _ => cases transfer

theorem outcome_of_transfer {length : Nat} (transfer : i.transferLength? = some length)
    (keypad : Keypad) (m : Machine) :
    0 < length ∧ i.fault? m.state = m.state.accessFault? length ∧ i.effect = .none ∧
      i.outcome keypad m.advance = { m with state := { m.state with
        v := i.registersAfter m, memory := i.memoryAfter m.state, pc := m.state.pc + 2 } } := by
  cases i with
  | decimal _ | store _ | load _ =>
    cases transfer
    exact ⟨Nat.succ_pos _, rfl, rfl, rfl⟩
  | _ => cases transfer

theorem execute_transfer {length : Nat} (transfer : i.transferLength? = some length)
    (range : i.InRange) {op : Opcode} (encoded : i.EncodedBy op) (keypad : Keypad) (m : Machine) :
    op.execute keypad m =
      if 4096 < m.state.i.toNat + length then .error (.outOfBounds (max m.state.i.toNat 4096)) m
      else .ok .none { m with state := { m.state with
        v := i.registersAfter m, memory := i.memoryAfter m.state, pc := m.state.pc + 2 } } := by
  obtain ⟨positive, fault, quiet, outcome⟩ := outcome_of_transfer transfer keypad m
  rw [Opcode.execute_eq, instruction?_of_encodedBy range encoded]
  dsimp only
  rw [fault, m.state.accessFault?_of_pos positive, quiet, outcome]
  by_cases misfit : 4096 < m.state.i.toNat + length
  · rw [if_pos misfit, if_pos misfit]
  · rw [if_neg misfit, if_neg misfit]

/-- A word of an instruction that transfers bytes moves all of them, if they fit behind the index,
and nothing else changes but the program counter; if not all of them fit, it fails and changes
nothing at all. A word that adds to the index wraps it at sixteen bits, and one that points at a
glyph computes five times the register without an overflow; both leave all registers as they are. -/
theorem transfers_are_exact :
    (∀ (i : Instruction) (length : Nat), i.transferLength? = some length → i.InRange →
      ∀ op : Opcode, i.EncodedBy op → ∀ (keypad : Keypad) (m : Machine),
        (m.state.i.toNat + length ≤ 4096 → ∃ v memory,
          op.execute keypad m = .ok .none { m with state := { m.state with
            v := v, memory := memory, pc := m.state.pc + 2 } } ∧
          i.Transfers m.state v memory) ∧
        (4096 < m.state.i.toNat + length →
          op.execute keypad m = .error (.outOfBounds (max m.state.i.toNat 4096)) m)) ∧
    ∀ x : UInt8, x < 0x10 → ∀ (keypad : Keypad) (m : Machine),
      (∃ index : UInt16, (addIndex x).encode.execute keypad m = .ok .none { m with state :=
          { m.state with i := index, pc := m.state.pc + 2 } } ∧
        index.toNat = (m.state.i.toNat + (m.state.v.value x).toNat) % 65536) ∧
      ∃ index : UInt16, (glyph x).encode.execute keypad m = .ok .none { m with state :=
          { m.state with i := index, pc := m.state.pc + 2 } } ∧
        index.toNat = 5 * (m.state.v.value x).toNat := by
  constructor
  · intro i length transfer range op encoded keypad m
    have exist : i.RegistersExist :=
      Opcode.registersExist_of_decoded (instruction?_of_encodedBy range encoded)
    rw [execute_transfer transfer range encoded]
    constructor
    · intro fits
      exact ⟨_, _, if_neg (Nat.not_lt.2 fits), transfers_after transfer exist fits⟩
    · intro misfit
      exact if_pos misfit
  · intro x hx keypad m
    have add : (addIndex x).encode.instruction? = some (addIndex x) :=
      instruction?_of_encodedBy hx (encodedBy_encode _)
    have point : (glyph x).encode.instruction? = some (glyph x) :=
      instruction?_of_encodedBy hx (encodedBy_encode _)
    constructor
    · refine ⟨m.state.i + (m.state.v.value x).toUInt16, ?_, ?_⟩
      · rw [Opcode.execute_eq, add]
        rfl
      · rw [UInt16.toNat_add, UInt8.toNat_toUInt16]
    · refine ⟨Font.address (m.state.v.value x), ?_, ?_⟩
      · rw [Opcode.execute_eq, point]
        rfl
      · rw [Font.toNat_address, Font.base, Font.glyphSize]
        omega

/-- With the index three bytes before the end, 254 goes there digit by digit, and four registers do
not fit, though three of them would; 254 added to the index does not wrap at the end of memory, and
the glyph of 254 is at 1270. -/
theorem transfers_are_exact_before_the_end :
    let idle : Keypad := fun _ => false
    let start := Machine.start .standard (.ofWords fun _ => 0)
    let m := { start with state :=
      { start.state with v := Vector.replicate 16 254, i := 0xFFD } }
    (∃ v memory, (decimal 0xF).encode.execute idle m = .ok .none { m with state :=
        { m.state with v := v, memory := memory, pc := 0x202 } } ∧
      memory.bytes[0xFFD]? = some 2 ∧ memory.bytes[0xFFF]? = some 4 ∧ v[15]? = some 254) ∧
      (store 3).encode.execute idle m = .error (.outOfBounds 4096) m ∧
      (∃ after, (addIndex 0xF).encode.execute idle m = .ok .none after ∧
        after.state.i.toNat = 0x10FB) ∧
      ∃ after, (glyph 0xF).encode.execute idle m = .ok .none after ∧
        after.state.i.toNat = 1270 := by
  intro idle start m
  obtain ⟨transfers, indices⟩ := transfers_are_exact
  obtain ⟨written, -⟩ := transfers (decimal 0xF) 3 rfl (by decide) _ (encodedBy_encode _) idle m
  obtain ⟨-, refused⟩ := transfers (store 3) 4 rfl (by decide) _ (encodedBy_encode _) idle m
  obtain ⟨⟨index, added, sum⟩, index', pointed, product⟩ := indices 0xF (by decide) idle m
  obtain ⟨v, memory, done, ⟨h, t, u, digits⟩, -, same⟩ := written (by decide)
  have value : (m.state.v.value 0xF).toNat = 254 := by decide
  have h_le := digits.hundreds_le
  have t_le := digits.tens_le
  have u_le := digits.units_le
  have digits_sum := digits.sum_eq
  rw [value] at sum product digits_sum
  have hundreds : h = 2 := UInt8.toNat_inj.1 (show h.toNat = 2 by omega)
  have units : u = 4 := UInt8.toNat_inj.1 (show u.toNat = 4 by omega)
  refine ⟨⟨v, memory, done, hundreds ▸ digits.first, units ▸ digits.third, ?_⟩,
    refused (by decide), ⟨_, added, sum⟩, _, pointed, product⟩
  rw [same]
  decide

end Instruction

end Chip8
