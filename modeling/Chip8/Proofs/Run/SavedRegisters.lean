import Chip8.Proofs.Execution.Footprint
import Chip8.Proofs.Run.LastWrite

namespace Chip8

theorem Registers.getElem?_putUpTo_of_le (v : Registers) {x : UInt8} {values : List UInt8}
    (hx : x.toNat < 16) (all : values.length = x.toNat + 1) {r : Nat} (hr : r ≤ x.toNat) :
    (v.putUpTo x values)[r]? = values[r]? := by
  have inside : r < 16 := by omega
  have given : r < values.length := by omega
  rw [putUpTo, setUpTo?, if_pos hx, Option.getD_some]
  simp [inside, hr, given]

namespace Instruction

variable {x : UInt8}

theorem registersExist_store_iff : (store x).RegistersExist ↔ x.toNat < 16 := by
  simp [RegistersExist, operands]

theorem registersExist_load_iff : (load x).RegistersExist ↔ x.toNat < 16 := by
  simp [RegistersExist, operands]

theorem getElem?_registersAfter_load (hx : x.toNat < 16) {m : Machine}
    (fits : m.state.accessFault? (x.toNat + 1) = none) {r : Nat} (hr : r ≤ x.toNat) :
    ((load x).registersAfter m)[r]? = m.state.memory.bytes[m.state.i.toNat + r]? := by
  have all := m.state.length_bytesAtIndex fits
  exact (Registers.getElem?_putUpTo_of_le _ hx all hr).trans
    (m.state.getElem?_bytesAtIndex (Nat.lt_succ_of_le hr))

theorem written?_store_of_le (s : State) {r : Nat} (hr : r ≤ x.toNat) :
    (store x).written? s (s.i.toNat + r) = s.v[r]? := by
  have covered : s.i.toNat ≤ s.i.toNat + r ∧ s.i.toNat + r ≤ s.i.toNat + x.toNat := by omega
  rw [written?, if_pos covered, Nat.add_sub_cancel_left]

end Instruction

namespace Machine

variable {m : Machine} {keypad : Keypad} {x : UInt8}

theorem of_executed_store (executed : m.executed? keypad = some (.store x)) :
    x.toNat < 16 ∧ m.state.accessFault? (x.toNat + 1) = none := by
  obtain ⟨-, decoded, safe⟩ := State.executes_iff.1 (executed?_eq_some_iff.1 executed)
  exact ⟨Instruction.registersExist_store_iff.1
    (State.registersExist_of_instruction? decoded), safe⟩

theorem getElem?_memory_of_store (executed : m.executed? keypad = some (.store x)) {r : Nat}
    (hr : r ≤ x.toNat) :
    (m.step keypad).machine.state.memory.bytes[m.state.i.toNat + r]? = m.state.v[r]? := by
  obtain ⟨hx, safe⟩ := of_executed_store executed
  have ends := (State.accessFault?_eq_none_iff.1 safe).2
  have inside : m.state.i.toNat + r < 4096 := by omega
  have number : r < 16 := by omega
  rw [(m.move_step keypad).memory_after inside, Event.written?_step,
    executed?_eq_some_iff.1 executed]
  dsimp only
  rw [Instruction.written?_store_of_le _ hr, Vector.getElem?_eq_getElem number, Option.some_or]

/-- Where a store at the index would fit, so does a load, which reads what memory holds there. -/
theorem step_of_load (hx : x.toNat < 16) (fits : m.state.accessFault? (x.toNat + 1) = none)
    (running : m.state.waiting = none) (ahead : m.state.instruction? = some (.load x))
    (keypad : Keypad) :
    (m.step keypad).result = .ok .none ∧
      (∀ r ≤ x.toNat, (m.step keypad).machine.state.v[r]? =
        m.state.memory.bytes[m.state.i.toNat + r]?) ∧
      (∀ r, x.toNat < r → (m.step keypad).machine.state.v[r]? = m.state.v[r]?) ∧
      (m.step keypad).machine.state.i = m.state.i ∧
      (m.step keypad).machine.state.memory = m.state.memory := by
  have ready : m.state.prospect = .executes (.load x) :=
    State.executes_iff.2 ⟨running, ahead, fits⟩
  obtain ⟨result, after⟩ := step_of_executes ready keypad
  rw [after]
  refine ⟨result, ?_, ?_, rfl, rfl⟩
  · intro r hr
    have same : m.advance.state.accessFault? (x.toNat + 1) = none := fits
    exact Instruction.getElem?_registersAfter_load hx same hr
  · intro r hr
    exact Registers.getElem?_putUpTo_of_lt _ _ hr

theorem execute_load (hx : x.toNat < 16) (keypad : Keypad) (m : Machine) :
    (Instruction.load x).execute keypad m = match m.state.accessFault? (x.toNat + 1) with
      | some fault => .error fault m
      | none => .ok .none ((Instruction.load x).outcome keypad m) :=
  Instruction.execute_eq (Instruction.registersExist_load_iff.2 hx) keypad m

theorem execute_store (hx : x.toNat < 16) (keypad : Keypad) (m : Machine) :
    (Instruction.store x).execute keypad m = match m.state.accessFault? (x.toNat + 1) with
      | some fault => .error fault m
      | none => .ok .none ((Instruction.store x).outcome keypad m) :=
  Instruction.execute_eq (Instruction.registersExist_store_iff.2 hx) keypad m

theorem memoryAfter_store_of_load (hx : x.toNat < 16)
    (fits : m.state.accessFault? (x.toNat + 1) = none) :
    (Instruction.store x).memoryAfter ((Instruction.load x).outcome keypad m).state =
      m.state.memory := by
  have exist := Instruction.registersExist_store_iff.2 hx
  apply Memory.ext_getElem?
  intro a
  by_cases ha : a < 4096
  · rw [Instruction.getElem?_memoryAfter_eq_or exist _ ha]
    by_cases covered : m.state.i.toNat ≤ a ∧ a ≤ m.state.i.toNat + x.toNat
    · obtain ⟨r, rfl⟩ := Nat.exists_eq_add_of_le covered.1
      have hr : r ≤ x.toNat := by omega
      have stored : (Instruction.store x).written? ((Instruction.load x).outcome keypad m).state
          (m.state.i.toNat + r) = ((Instruction.load x).registersAfter m)[r]? :=
        Instruction.written?_store_of_le _ hr
      -- the register that goes to this address has just been read from it
      rw [stored, Instruction.getElem?_registersAfter_load hx fits hr,
        Vector.getElem?_eq_getElem ha, Option.some_or]
    · have untouched : (Instruction.store x).written?
          ((Instruction.load x).outcome keypad m).state a = none := if_neg covered
      rw [untouched]
      exact Option.none_or
  · rw [Vector.getElem?_eq_none (Nat.not_lt.1 ha), Vector.getElem?_eq_none (Nat.not_lt.1 ha)]

/-- A load and then a store at the same index both succeed or both fail, and leave memory as it
was. -/
theorem execute_store_of_load (hx : x.toNat < 16) (keypad keypad' : Keypad) (m : Machine) :
    (∃ loaded stored, (Instruction.load x).execute keypad m = .ok .none loaded ∧
      (Instruction.store x).execute keypad' loaded = .ok .none stored ∧
      stored.state.memory = m.state.memory) ∨
    ∃ fault, (Instruction.load x).execute keypad m = .error fault m ∧
      (Instruction.store x).execute keypad' m = .error fault m := by
  rw [execute_load hx, execute_store hx]
  cases fits : m.state.accessFault? (x.toNat + 1) with
  | some fault => exact .inr ⟨fault, rfl, rfl⟩
  | none =>
    have safe : ((Instruction.load x).outcome keypad m).state.accessFault? (x.toNat + 1) = none :=
      fits
    refine .inl ⟨_, (Instruction.store x).outcome keypad' ((Instruction.load x).outcome keypad m),
      rfl, ?_, memoryAfter_store_of_load hx fits⟩
    rw [execute_store hx, safe]

/-- Registers V0 to Vx that an instruction has saved at the index are V0 to Vx again when the
opposite instruction is executed with the same index, which never fails, unless something was
written to the saved bytes in between: it changes no other register, nor index or memory. And the
two instructions in the other order, both of which succeed or both of which fail, leave memory as it
was. -/
theorem saved_registers_come_back :
    (∀ (m : Machine) (keypad : Keypad) (x : UInt8), m.executed? keypad = some (.store x) →
      ∀ ops : List Operation,
        (∀ e ∈ (m.step keypad).machine.history ops, ∀ a, m.state.i.toNat ≤ a →
          a ≤ m.state.i.toNat + x.toNat → e.written? a = none) →
        let later := ((m.step keypad).machine.performAll ops).machine
        later.state.waiting = none → later.state.instruction? = some (.load x) →
          later.state.i = m.state.i → ∀ keypad' : Keypad,
            let turn := later.step keypad'
            turn.result = .ok .none ∧
            (∀ r ≤ x.toNat, turn.machine.state.v[r]? = m.state.v[r]?) ∧
            (∀ r, x.toNat < r → turn.machine.state.v[r]? = later.state.v[r]?) ∧
            turn.machine.state.i = later.state.i ∧
            turn.machine.state.memory = later.state.memory) ∧
    ∀ x : UInt8, x.toNat < 16 → ∀ (keypad keypad' : Keypad) (m : Machine),
      (∃ loaded stored, (Instruction.load x).execute keypad m = .ok .none loaded ∧
        (Instruction.store x).execute keypad' loaded = .ok .none stored ∧
        stored.state.memory = m.state.memory) ∨
      ∃ fault, (Instruction.load x).execute keypad m = .error fault m ∧
        (Instruction.store x).execute keypad' m = .error fault m := by
  constructor
  · intro m keypad x executed ops unwritten later running ahead same keypad' turn
    obtain ⟨hx, safe⟩ := of_executed_store executed
    have fits : later.state.accessFault? (x.toNat + 1) = none := by
      rw [State.accessFault?, same]
      exact safe
    obtain ⟨result, loaded, others, index, memory⟩ := step_of_load hx fits running ahead keypad'
    refine ⟨result, ?_, others, index, memory⟩
    intro r hr
    have ends := (State.accessFault?_eq_none_iff.1 safe).2
    have inside : m.state.i.toNat + r < 4096 := by omega
    have kept : later.state.memory.bytes[m.state.i.toNat + r]? =
        (m.step keypad).machine.state.memory.bytes[m.state.i.toNat + r]? := by
      apply getElem?_memory_of_unwritten inside
      intro e mem
      exact unwritten e mem _ (Nat.le_add_right ..) (Nat.add_le_add_left hr _)
    calc turn.machine.state.v[r]?
        = later.state.memory.bytes[later.state.i.toNat + r]? := loaded r hr
      _ = (m.step keypad).machine.state.memory.bytes[m.state.i.toNat + r]? := by rw [same, kept]
      _ = m.state.v[r]? := getElem?_memory_of_store executed hr
  · intro x hx keypad keypad' m
    exact execute_store_of_load hx keypad keypad' m

/-- Two registers saved in the last two bytes of memory and lost to another value and to a key
before they come back; and the first sixteen bytes, loaded and stored. -/
theorem saved_registers_come_back_from_the_last_byte :
    let idle : Keypad := fun _ => false
    let program : List UInt8 :=
      [0x60, 0x11, 0x61, 0x22, 0xAF, 0xFE, 0xF1, 0x55, 0x60, 0x00, 0xF1, 0x0A, 0xF1, 0x65]
    let start := Machine.start .standard (.ofWords fun _ => 0)
    let m := (start.performAll [.loadProgram program, .step idle, .step idle, .step idle]).machine
    let ops := [.step idle, .step idle, .provideKey 9, .tick]
    m.executed? idle = some (.store 1) ∧ m.state.i.toNat + 1 = 0xFFF ∧
      (∃ later, ((m.step idle).machine.performAll ops).machine = later ∧
        later.state.v[0]? = some 0 ∧ later.state.v[1]? = some 9 ∧
        (later.step idle).result = .ok .none ∧
        (later.step idle).machine.state.v[0]? = some 0x11 ∧
        (later.step idle).machine.state.v[1]? = some 0x22) ∧
      ∃ loaded stored, (Instruction.load 0xF).execute idle start = .ok .none loaded ∧
        (Instruction.store 0xF).execute idle loaded = .ok .none stored ∧
        stored.state.memory = start.state.memory := by
  intro idle program start m ops
  obtain ⟨executed, index, first, second, quiet, running, ahead, same, lost, lost'⟩ :
      m.executed? idle = some (.store 1) ∧ m.state.i.toNat = 0xFFE ∧
      m.state.v[0]? = some 0x11 ∧ m.state.v[1]? = some 0x22 ∧
      (∀ e ∈ (m.step idle).machine.history ops,
        e.written? 0xFFE = none ∧ e.written? 0xFFF = none) ∧
      ((m.step idle).machine.performAll ops).machine.state.waiting = none ∧
      ((m.step idle).machine.performAll ops).machine.state.instruction? = some (.load 1) ∧
      ((m.step idle).machine.performAll ops).machine.state.i = m.state.i ∧
      ((m.step idle).machine.performAll ops).machine.state.v[0]? = some 0 ∧
      ((m.step idle).machine.performAll ops).machine.state.v[1]? = some 9 := by
    decide +kernel
  have unwritten : ∀ e ∈ (m.step idle).machine.history ops, ∀ a, m.state.i.toNat ≤ a →
      a ≤ m.state.i.toNat + (1 : UInt8).toNat → e.written? a = none := by
    intro e mem a above below
    rw [index] at above below
    change a ≤ 0xFFF at below
    obtain rfl | rfl : a = 0xFFE ∨ a = 0xFFF := by omega
    · exact (quiet e mem).1
    · exact (quiet e mem).2
  obtain ⟨comeBack, goBack⟩ := saved_registers_come_back
  obtain ⟨result, registers, -⟩ :=
    comeBack m idle 1 executed ops unwritten running ahead same idle
  have zero := (registers 0 (by decide)).trans first
  have one := (registers 1 (by decide)).trans second
  refine ⟨executed, by rw [index], ⟨_, rfl, lost, lost', result, zero, one⟩, ?_⟩
  rcases goBack 0xF (by decide) idle idle start with back | ⟨fault, failed, -⟩
  · exact back
  · have fits : start.state.accessFault? ((0xF : UInt8).toNat + 1) = none := by decide
    rw [execute_load (by decide), fits] at failed
    cases failed

end Machine

end Chip8
