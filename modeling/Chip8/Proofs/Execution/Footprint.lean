import Chip8.Proofs.Execution.Step
import Chip8.Proofs.Isa.Coding

namespace Chip8

def Machine.setPc (m : Machine) (pc : UInt16) : Machine :=
  { m with state := { m.state with pc := pc } }

/-- The parts of a machine, its program counter and its configuration apart. -/
inductive Part where
  | register (r : Nat)
  | index
  | delayTimer
  | soundTimer
  | callStack
  | memory (address : Nat)
  | screen
  | redraw
  | waiting
  | random
  deriving DecidableEq, Repr

namespace Part

def Same (m m' : Machine) : Part → Prop
  | register r => m.state.v[r]? = m'.state.v[r]?
  | index => m.state.i = m'.state.i
  | delayTimer => m.state.timers.delay = m'.state.timers.delay
  | soundTimer => m.state.timers.sound = m'.state.timers.sound
  | callStack => m.state.stack = m'.state.stack
  | memory a => m.state.memory.bytes[a]? = m'.state.memory.bytes[a]?
  | screen => m.state.screen = m'.state.screen
  | redraw => m.state.redraw = m'.state.redraw
  | waiting => m.state.waiting = m'.state.waiting
  | random => m.random = m'.random

theorem eq_of_same {m m' : Machine} (config : m.config = m'.config)
    (same : ∀ p : Part, p.Same m m') : m' = m.setPc m'.state.pc := by
  have registers : m.state.v = m'.state.v := by
    apply Vector.ext
    intro r hr
    have hr' : m.state.v[r]? = m'.state.v[r]? := same (.register r)
    simpa [hr] using hr'
  have memory : m.state.memory = m'.state.memory := by
    apply Memory.ext_getElem?
    intro a
    exact same (.memory a)
  have timers : m.state.timers = m'.state.timers := by
    have delay : m.state.timers.delay = m'.state.timers.delay := same .delayTimer
    have sound : m.state.timers.sound = m'.state.timers.sound := same .soundTimer
    change Timers.mk m.state.timers.delay m.state.timers.sound = m'.state.timers
    rw [delay, sound]
  have index : m.state.i = m'.state.i := same .index
  have stack : m.state.stack = m'.state.stack := same .callStack
  have screen : m.state.screen = m'.state.screen := same .screen
  have redraw : m.state.redraw = m'.state.redraw := same .redraw
  have waiting : m.state.waiting = m'.state.waiting := same .waiting
  have random : m.random = m'.random := same .random
  unfold Machine.setPc
  dsimp only
  rw [config, registers, memory, timers, index, stack, screen, redraw, waiting, random]

end Part

namespace Registers

variable (v : Registers) {r : Nat}

theorem getElem?_put_of_ne {x : UInt8} (value : UInt8) (h : r ≠ x.toNat) :
    (v.put x value)[r]? = v[r]? := by
  unfold put set?
  split
  · next inside => exact Vector.getElem?_set_ne inside h.symm
  · rfl

theorem getElem?_setFlag_of_ne (on : Bool) (h : r ≠ flagRegister) :
    (v.setFlag on)[r]? = v[r]? := by
  unfold setFlag
  exact Vector.getElem?_set_ne _ h.symm

theorem getElem?_putUpTo_of_lt {x : UInt8} (values : List UInt8) (h : x.toNat < r) :
    (v.putUpTo x values)[r]? = v[r]? := by
  unfold putUpTo setUpTo?
  split
  · by_cases hr : r < 16
    · simp [hr, Nat.not_le.2 h]
    · simp [hr]
  · rfl

end Registers

namespace Instruction

/-- What the instruction may change beside the program counter, with the index register at an
address. -/
def footprint (index : Nat) : Instruction → List Part
  | clear => [.screen, .redraw]
  | ret | call _ => [.callStack]
  | setByte x _ | addByte x _ | copy x _ | or x _ | and x _ | xor x _ | readDelay x =>
    [.register x.toNat]
  | add x _ | sub x _ | subFrom x _ | shiftRight x | shiftLeft x =>
    [.register x.toNat, .register flagRegister]
  | setIndex _ | addIndex _ | glyph _ => [.index]
  | random x _ => [.register x.toNat, .random]
  | draw .. => [.register flagRegister, .screen, .redraw]
  | awaitKey _ => [.waiting]
  | setDelay _ => [.delayTimer]
  | setSound _ => [.soundTimer]
  | decimal _ => (List.range 3).map fun k => .memory (index + k)
  | store x => (List.range (x.toNat + 1)).map fun k => .memory (index + k)
  | load x => (List.range (x.toNat + 1)).map .register
  | sys _ | jump _ | jumpOffset _ | skipEqByte .. | skipNeByte .. | skipEq .. | skipNe ..
  | skipKeyDown _ | skipKeyUp _ => []

variable {i : Instruction}

theorem memory_mem_footprint {index a : Nat} :
    .memory a ∈ i.footprint index ↔ index ≤ a ∧ a < index + i.storedLength := by
  have range (length : Nat) :
      .memory a ∈ (List.range length).map (fun k => Part.memory (index + k)) ↔
        index ≤ a ∧ a < index + length := by
    simp only [List.mem_map, List.mem_range, Part.memory.injEq]
    constructor
    · rintro ⟨k, hk, rfl⟩
      omega
    · rintro ⟨above, below⟩
      exact ⟨a - index, by omega, by omega⟩
  cases i with
  | decimal _ | store _ => exact range _
  | _ => simp [footprint, storedLength]

theorem getElem?_registersAfter {index r : Nat} (m : Machine)
    (outside : .register r ∉ i.footprint index) :
    (i.registersAfter m)[r]? = m.state.v[r]? := by
  cases i with
  | setByte x _ | addByte x _ | copy x _ | or x _ | and x _ | xor x _ | readDelay x
  | random x _ =>
    have other : r ≠ x.toNat := by simpa [footprint] using outside
    exact Registers.getElem?_put_of_ne _ _ other
  | add x _ | sub x _ | subFrom x _ =>
    obtain ⟨other, noFlag⟩ : r ≠ x.toNat ∧ r ≠ flagRegister := by simpa [footprint] using outside
    rw [registersAfter, Registers.getElem?_setFlag_of_ne _ _ noFlag,
      Registers.getElem?_put_of_ne _ _ other]
  | shiftRight x | shiftLeft x =>
    obtain ⟨other, noFlag⟩ : r ≠ x.toNat ∧ r ≠ flagRegister := by simpa [footprint] using outside
    rw [registersAfter, Registers.getElem?_put_of_ne _ _ other,
      Registers.getElem?_setFlag_of_ne _ _ noFlag]
  | draw _ _ _ =>
    have noFlag : r ≠ flagRegister := by simpa [footprint] using outside
    exact Registers.getElem?_setFlag_of_ne _ _ noFlag
  | load x =>
    have above : x.toNat < r := by simpa [footprint, Nat.succ_le_iff] using outside
    exact Registers.getElem?_putUpTo_of_lt _ _ above
  | _ => rfl

theorem getElem?_memoryAfter (exist : i.RegistersExist) (s : State) {a : Nat}
    (outside : .memory a ∉ i.footprint s.i.toNat) :
    (i.memoryAfter s).bytes[a]? = s.memory.bytes[a]? := by
  rw [memory_mem_footprint] at outside
  rw [memoryAfter, Memory.getElem?_overwrite, length_stored exist, if_neg]
  rintro ⟨above, below, -⟩
  exact outside ⟨above, below⟩

theorem same_outcome (exist : i.RegistersExist) (keypad : Keypad) (m : Machine) {p : Part}
    (outside : p ∉ i.footprint m.state.i.toNat) : p.Same m (i.outcome keypad m.advance) := by
  -- an instruction that changes the part has it in its footprint, and all others leave it alone
  cases p with
  | register r => exact (getElem?_registersAfter m.advance outside).symm
  | memory a => exact (getElem?_memoryAfter exist m.state.advance outside).symm
  | index =>
    cases i with
    | setIndex _ | addIndex _ | glyph _ => simp [footprint] at outside
    | _ => rfl
  | delayTimer =>
    cases i with
    | setDelay _ => simp [footprint] at outside
    | _ => rfl
  | soundTimer =>
    cases i with
    | setSound _ => simp [footprint] at outside
    | _ => rfl
  | callStack =>
    cases i with
    | ret | call _ => simp [footprint] at outside
    | _ => rfl
  | screen | redraw =>
    cases i with
    | clear | draw _ _ _ => simp [footprint] at outside
    | _ => rfl
  | waiting =>
    cases i with
    | awaitKey _ => simp [footprint] at outside
    | _ => rfl
  | random =>
    cases i with
    | random _ _ => simp [footprint] at outside
    | _ => rfl

/-- What an instruction that is executed to its end leaves alone, and the shape of the changes that
it makes. -/
structure Confined (i : Instruction) (m after : Machine) (effect : Effect) : Prop where
  config_eq : after.config = m.config
  outside : ∀ p, p ∉ i.footprint m.state.i.toNat → p.Same m after
  bare : i.footprint m.state.i.toNat = [] → after = m.setPc after.state.pc
  capacity_eq : after.state.stack.capacity = m.state.stack.capacity
  pushes : ∀ address, i = .call address →
    ∃ frame, after.state.stack.frames = m.state.stack.frames ++ [frame]
  pops : i = .ret → ∃ frame, m.state.stack.frames = after.state.stack.frames ++ [frame]
  raises : .redraw ∈ i.footprint m.state.i.toNat → after.state.redraw = true
  keeps_redraw : m.state.redraw = true → after.state.redraw = true
  draws_once : .random ∈ i.footprint m.state.i.toNat →
    after.random = { m.random with drawn := m.random.drawn + 1 }
  clearScreen_iff : effect = .clearScreen ↔ i = .clear
  draw_iff : effect = .draw ↔ ∃ x y rows, i = .draw x y rows
  waitForKey_iff : effect = .waitForKey ↔ ∃ x, i = .awaitKey x

theorem confined_outcome (exist : i.RegistersExist) (keypad : Keypad) {m : Machine}
    (safe : i.fault? m.state = none) : i.Confined m (i.outcome keypad m.advance) i.effect where
  config_eq := rfl
  outside p hp := same_outcome exist keypad m hp
  bare empty := by
    have config : m.config = (i.outcome keypad m.advance).config := rfl
    apply Part.eq_of_same config
    intro p
    exact same_outcome exist keypad m (empty ▸ List.not_mem_nil)
  capacity_eq := by cases i <;> rfl
  pushes := by
    rintro address rfl
    exact ⟨_, rfl⟩
  pops := by
    rintro rfl
    have saved := fault?_ret_eq_none_iff.1 safe
    exact ⟨_, (List.dropLast_concat_getLast saved).symm⟩
  raises touched := by
    cases i with
    | clear | draw _ _ _ => rfl
    | _ => simp [footprint] at touched
  keeps_redraw pending := by
    cases i with
    | clear | draw _ _ _ => rfl
    | _ => exact pending
  draws_once touched := by
    cases i with
    | random _ _ => rfl
    | _ => simp [footprint] at touched
  clearScreen_iff := by cases i <;> simp [effect]
  draw_iff := by cases i <;> simp [effect]
  waitForKey_iff := by cases i <;> simp [effect]

end Instruction

namespace Opcode

/-- A word that is executed to its end is that of one instruction, whose footprint holds all that
has changed beside the program counter: the call stack by one frame at its end, the redraw flag only
upward and the random source by one draw; the effect names the instructions that clear the screen,
draw on it and await a key. -/
theorem execute_stays_in_footprint {op : Opcode} {keypad : Keypad} {m after : Machine}
    {effect : Effect} (done : op.execute keypad m = .ok effect after) :
    ∃ i : Instruction, i.InRange ∧ i.EncodedBy op ∧ i.Confined m after effect := by
  rw [execute_eq] at done
  cases decoded : op.instruction? with
  | none => simp [decoded] at done
  | some i =>
    obtain ⟨range, encoded⟩ := Instruction.instruction?_eq_some_iff.1 decoded
    cases fault : i.fault? m.state with
    | some _ => simp [decoded, fault] at done
    | none =>
      obtain ⟨rfl, rfl⟩ : i.effect = effect ∧ i.outcome keypad m.advance = after := by
        simpa [decoded, fault] using done
      have exist : i.RegistersExist := registersExist_of_decoded decoded
      exact ⟨i, range, encoded, Instruction.confined_outcome exist keypad fault⟩

/-- VF doubled: the flag takes the place of the sum, and V0 to VE stay. -/
theorem execute_stays_in_footprint_on_VF :
    let idle : Keypad := fun _ => false
    let start := Machine.start .standard (.ofWords fun _ => 0)
    let m := { start with state := { start.state with v := Vector.replicate 16 0xFF } }
    ∃ after, (Opcode.mk 0x8FF4).execute idle m = .ok .none after ∧
      after.state.v.flag = 1 ∧ ∀ r < 15, after.state.v[r]? = some 0xFF := by
  intro idle start m
  obtain ⟨after, done, flag⟩ : ∃ after, (Opcode.mk 0x8FF4).execute idle m = .ok .none after ∧
      after.state.v.flag = 1 := ⟨_, rfl, rfl⟩
  obtain ⟨i, range, encoded, confined⟩ := execute_stays_in_footprint done
  have doubled : (Opcode.mk 0x8FF4).instruction? = some (.add 15 15) := by decide
  obtain rfl : i = .add 15 15 :=
    Option.some.inj ((Instruction.instruction?_of_encodedBy range encoded).symm.trans doubled)
  refine ⟨after, done, flag, ?_⟩
  intro r hr
  have same : m.state.v[r]? = after.state.v[r]? := by
    apply confined.outside (.register r)
    have other : r ≠ 15 := by omega
    simpa [Instruction.footprint] using other
  rw [← same]
  have inside : r < 16 := by omega
  simp [m, inside]

end Opcode

end Chip8
