import Chip8.Proofs.Isa.Coding
import Chip8.Proofs.Run.Invariant

namespace Chip8

def Memory.byte (m : Memory) (address : Nat) : UInt8 := m.bytes[address]?.getD 0

namespace Opcode

/-- The word is that of one of the thirty-five instructions, with operands in range. -/
def IsInstruction (op : Opcode) : Prop := ∃ i : Instruction, i.InRange ∧ i.EncodedBy op

theorem isInstruction_iff {op : Opcode} : op.IsInstruction ↔ op.instruction?.isSome := by
  simp only [IsInstruction, Option.isSome_iff_exists, Instruction.instruction?_eq_some_iff]

instance (op : Opcode) : Decidable op.IsInstruction := decidable_of_iff _ isInstruction_iff.symm

/-- The word draws, writes digits, or stores or loads registers, and the bytes that it needs from
an index on do not all lie in memory. -/
def ReachesOutside (op : Opcode) (index : Nat) : Prop :=
  op.family = 0xD ∧ (4096 ≤ index ∨ 4096 < index + op.n.toNat) ∨
    op.family = 0xF ∧ op.nn = 0x33 ∧ 4096 < index + 3 ∨
    op.family = 0xF ∧ (op.nn = 0x55 ∨ op.nn = 0x65) ∧ 4096 < index + (op.x.toNat + 1)

instance (op : Opcode) (index : Nat) : Decidable (op.ReachesOutside index) :=
  inferInstanceAs (Decidable (_ ∨ _ ∨ _))

theorem word_eq_ret_iff {op : Opcode} {i : Instruction} (decoded : op.instruction? = some i) :
    op.word = 0x00EE ↔ i = .ret := by
  constructor
  · intro hw
    have known : op.instruction? = some .ret := by
      rw [show op = ⟨0x00EE⟩ from congrArg Opcode.mk hw]
      decide
    exact Option.some.inj (decoded.symm.trans known)
  · rintro rfl
    obtain ⟨-, spare, -, rfl⟩ := Instruction.encodedBy_of_instruction? decoded
    rfl

end Opcode

namespace State

def opcode (s : State) : Opcode :=
  .ofBytes (s.memory.byte s.pc.toNat) (s.memory.byte (s.pc.toNat + 1))

/-- Why a step of a machine that does not wait has to fail, if it has to. -/
def dueFault? (config : Config) (s : State) : Option Fault :=
  if 0xFFF ≤ s.pc.toNat then some (.outOfBounds (max s.pc.toNat 0x1000))
  else if ¬ s.opcode.IsInstruction then some (.unimplemented s.opcode.word)
  else if s.opcode.word = 0x00EE ∧ s.stack.frames = [] then some .stackUnderflow
  else if s.opcode.family = 0x2 ∧ s.stack.depth = config.stackDepth then
    some (.stackOverflow config.stackDepth)
  else if s.opcode.ReachesOutside s.i.toNat then some (.outOfBounds (max s.i.toNat 0x1000))
  else none

theorem fetch_eq (s : State) :
    s.fetch =
      if 0xFFF ≤ s.pc.toNat then .error (.outOfBounds (max s.pc.toNat 0x1000))
      else .ok s.opcode := by
  unfold fetch Memory.readWord opcode Memory.byte
  by_cases late : 0xFFF ≤ s.pc.toNat
  · have none_left : s.memory.bytes[s.pc.toNat + 1]? = none := by simp; omega
    rw [if_pos late, none_left]
    cases s.memory.bytes[s.pc.toNat]? <;> rfl
  · have high : s.pc.toNat < 4096 := by omega
    have low : s.pc.toNat + 1 < 4096 := by omega
    rw [if_neg late, Vector.getElem?_eq_getElem high, Vector.getElem?_eq_getElem low]
    rfl

theorem accessFault?_eq (s : State) (length : Nat) :
    s.accessFault? length =
      if 4096 ≤ s.i.toNat ∨ 4096 < s.i.toNat + length then
        some (.outOfBounds (max s.i.toNat 0x1000))
      else none := by
  by_cases fits : Memory.Fits s.i.toNat length
  · obtain ⟨starts, ends⟩ := fits
    rw [accessFault?, if_pos ⟨starts, ends⟩, if_neg (by omega)]
  · rw [accessFault?, if_neg fits, if_pos]
    · rfl
    · unfold Memory.Fits at fits
      omega

theorem accessFault?_of_pos (s : State) {length : Nat} (some_bytes : 0 < length) :
    s.accessFault? length =
      if 4096 < s.i.toNat + length then some (.outOfBounds (max s.i.toNat 0x1000)) else none := by
  rw [accessFault?_eq]
  exact if_congr (by omega) rfl rfl

theorem fault?_of_decoded {op : Opcode} {i : Instruction} (decoded : op.instruction? = some i)
    (s : State) :
    i.fault? s =
      if op.word = 0x00EE ∧ s.stack.frames = [] then some .stackUnderflow
      else if op.family = 0x2 ∧ s.stack.capacity ≤ s.stack.depth then
        some (.stackOverflow s.stack.capacity)
      else if op.ReachesOutside s.i.toNat then some (.outOfBounds (max s.i.toNat 0x1000))
      else none := by
  simp only [Opcode.word_eq_ret_iff decoded, Opcode.ReachesOutside]
  obtain ⟨range, spare, hs, rfl⟩ := Instruction.encodedBy_of_instruction? decoded
  -- the word is put together from the operands, so its fields are the operands again
  cases i with
  | clear | ret =>
    have family : Opcode.family ⟨0x00E0⟩ = 0x0 ∧ Opcode.family ⟨0x00EE⟩ = 0x0 := by decide
    simp [Instruction.fault?, Instruction.encodeWith, family]
  | sys a =>
    have ha : a.toNat < 4096 := UInt16.lt_iff_toNat_lt.1 range.1
    simp [Instruction.fault?, Instruction.encodeWith, Instruction.fields_addressed, ha]
  | call a =>
    have ha : a.toNat < 4096 := UInt16.lt_iff_toNat_lt.1 range
    have turned : (Instruction.call a).fault? s =
        if s.stack.capacity ≤ s.stack.depth then some (.stackOverflow s.stack.capacity)
        else none := by
      simp only [Instruction.fault?, ← Nat.not_lt, ite_not]
    simp [turned, Instruction.encodeWith, Instruction.fields_addressed, ha]
  | jump a | setIndex a | jumpOffset a =>
    have ha : a.toNat < 4096 := UInt16.lt_iff_toNat_lt.1 range
    simp [Instruction.fault?, Instruction.encodeWith, Instruction.fields_addressed, ha]
  | skipEqByte x _ | skipNeByte x _ | setByte x _ | addByte x _ | random x _
  | skipKeyDown x | skipKeyUp x | readDelay x | awaitKey x | setDelay x | setSound x
  | addIndex x | glyph x =>
    have hx : x.toNat < 16 := UInt8.lt_iff_toNat_lt.1 range
    simp [Instruction.fault?, Instruction.encodeWith, Instruction.fields_immediate, hx]
  | skipEq x y | skipNe x y | copy x y | or x y | and x y | xor x y | add x y | sub x y
  | subFrom x y =>
    have hx : x.toNat < 16 := UInt8.lt_iff_toNat_lt.1 range.1
    have hy : y.toNat < 16 := UInt8.lt_iff_toNat_lt.1 range.2
    simp [Instruction.fault?, Instruction.encodeWith, Instruction.fields_registers, hx, hy]
  | shiftRight x | shiftLeft x =>
    have hx : x.toNat < 16 := UInt8.lt_iff_toNat_lt.1 range
    have hs : spare.toNat < 16 := UInt8.lt_iff_toNat_lt.1 hs
    simp [Instruction.fault?, Instruction.encodeWith, Instruction.fields_registers, hx, hs]
  | draw x y rows =>
    have hx : x.toNat < 16 := UInt8.lt_iff_toNat_lt.1 range.1
    have hy : y.toNat < 16 := UInt8.lt_iff_toNat_lt.1 range.2.1
    have hrows : rows.toNat < 16 := UInt8.lt_iff_toNat_lt.1 range.2.2
    simp [Instruction.fault?, Instruction.encodeWith, Instruction.fields_registers, hx, hy, hrows,
      accessFault?_eq]
  | decimal x | store x | load x =>
    have hx : x.toNat < 16 := UInt8.lt_iff_toNat_lt.1 range
    simp [Instruction.fault?, Instruction.encodeWith, Instruction.fields_immediate, hx,
      accessFault?_of_pos]

/-- The step fails with the fault that is due, on a stack of the depth that the configuration asks
for. -/
theorem fails_iff {config : Config} {s : State} {fault : Fault}
    (capacity : s.stack.capacity = config.stackDepth) (fits : s.stack.depth ≤ config.stackDepth) :
    s.prospect = .fails fault ↔ s.waiting = none ∧ s.dueFault? config = some fault := by
  unfold prospect dueFault?
  cases s.waiting with
  | some x => simp
  | none =>
    rw [fetch_eq]
    by_cases late : 0xFFF ≤ s.pc.toNat
    · simp [late]
    · rw [if_neg late, if_neg late]
      cases decoded : s.opcode.instruction? with
      | none => simp [Opcode.isInstruction_iff, decoded]
      | some i =>
        have known : s.opcode.IsInstruction := Opcode.isInstruction_iff.2 (by rw [decoded]; rfl)
        have full : s.stack.capacity ≤ s.stack.depth ↔ s.stack.depth = config.stackDepth := by
          omega
        have due := fault?_of_decoded decoded s
        simp only [full] at due
        rw [capacity] at due
        rw [if_neg (not_not.2 known), ← due]
        simp only [decoded]
        cases i.fault? s <;> simp

theorem cause_of_dueFault? {config : Config} {s : State} {fault : Fault}
    (due : s.dueFault? config = some fault) :
    (∃ address, fault = .outOfBounds address) ∨ fault = .unimplemented s.opcode.word ∨
      fault = .stackUnderflow ∨ fault = .stackOverflow config.stackDepth := by
  unfold dueFault? at due
  split_ifs at due <;> cases due
  · exact .inl ⟨_, rfl⟩
  · exact .inr (.inr (.inl rfl))
  · exact .inr (.inr (.inr rfl))
  · exact .inl ⟨_, rfl⟩
  · exact .inr (.inl rfl)

end State

namespace Machine

variable {config : Config} {m : Machine}

theorem result_step_eq_error_iff_due (sound : Sound config m) {keypad : Keypad} {fault : Fault} :
    (m.step keypad).result = .error fault ↔
      m.state.waiting = none ∧ m.state.dueFault? config = some fault :=
  result_step_eq_error_iff.trans (State.fails_iff sound.capacity_eq sound.depth_le)

theorem result_step_of_not_due (sound : Sound config m) (due : m.state.dueFault? config = none)
    (keypad : Keypad) :
    ∃ effect, (m.step keypad).result = .ok effect := by
  cases answer : (m.step keypad).result with
  | ok effect => exact ⟨effect, rfl⟩
  | error fault =>
    obtain ⟨-, due'⟩ := (result_step_eq_error_iff_due sound).1 answer
    exact absurd (due.symm.trans due') (Option.some_ne_none _).symm

theorem cause_of_step (sound : Sound config m) {keypad : Keypad} {fault : Fault}
    (failed : (m.step keypad).result = .error fault) :
    (∃ address, fault = .outOfBounds address) ∨ fault = .unimplemented m.state.opcode.word ∨
      fault = .stackUnderflow ∨ fault = .stackOverflow config.stackDepth :=
  State.cause_of_dueFault? ((result_step_eq_error_iff_due sound).1 failed).2

/-- A step of a reachable machine answers with no effect while the machine waits for a key, and
otherwise fails exactly if a fault is due, with that fault; it never fails as loading a program
does. -/
theorem step_fails_exactly (config : Config) (random : RandomSource) (past : List Operation)
    (keypad : Keypad) :
    let m := ((start config random).performAll past).machine
    let result := (m.step keypad).result
    (∀ x, m.state.waiting = some x → result = .ok .none) ∧
    (m.state.waiting = none →
      (∀ fault, m.state.dueFault? config = some fault → result = .error fault) ∧
      (m.state.dueFault? config = none → ∃ effect, result = .ok effect)) ∧
    (∀ size capacity, result ≠ .error (.programTooLarge size capacity)) ∧
    ∀ message, result ≠ .error (.unreadable message) := by
  intro m result
  have reached : Reachable config random m := ⟨past, rfl⟩
  have sound : Sound config m := reached.sound
  refine ⟨?_, ?_, ?_, ?_⟩
  · intro x waiting
    have idle : m.state.prospect = .idle := by rw [State.prospect, waiting]
    exact (step_of_idle idle keypad).1
  · intro running
    exact ⟨fun fault due => (result_step_eq_error_iff_due sound).2 ⟨running, due⟩,
      fun due => result_step_of_not_due sound due keypad⟩
  · intro size capacity failed
    rcases cause_of_step sound failed with ⟨_, h⟩ | h | h | h <;> cases h
  · intro message failed
    rcases cause_of_step sound failed with ⟨_, h⟩ | h | h | h <;> cases h

/-- Six registers do not fit from 0xFFB on. -/
theorem step_fails_exactly_behind_memory :
    let random := RandomSource.ofWords fun _ => 0
    let idle : Keypad := fun _ => false
    let past := [.loadProgram [0xAF, 0xFB, 0xF5, 0x55], .step idle]
    let m := ((start .standard random).performAll past).machine
    m.state.waiting = none ∧ m.state.dueFault? .standard = some (.outOfBounds 0x1000) ∧
      (m.step idle).result = .error (.outOfBounds 0x1000) := by
  intro random idle past m
  obtain ⟨running, due⟩ : m.state.waiting = none ∧
      m.state.dueFault? .standard = some (.outOfBounds 0x1000) := by
    decide +kernel
  exact ⟨running, due,
    ((step_fails_exactly .standard random past idle).2.1 running).1 _ due⟩

end Machine

end Chip8
