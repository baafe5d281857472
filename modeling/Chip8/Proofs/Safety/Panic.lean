import Chip8.Proofs.Run.Invariant
import Chip8.Proofs.Safety.ByteMachine

namespace Chip8

namespace Guarded

variable {α β : Type}

theorem bind_run (first : Guarded α) (next : α → Guarded β) (b : ByteMachine) :
    (first >>= next) b = match first b with
      | none => none
      | some (.ok a after) => next a after
      | some (.error fault after) => some (.error fault after) := rfl

theorem check_run (value : Option α) (b : ByteMachine) :
    check value b = value.map (.ok · b) := rfl

theorem attempt_run (value : Except Fault α) (b : ByteMachine) :
    attempt (some value) b = some (match value with
      | .ok a => .ok a b
      | .error fault => .error fault b) := by
  cases value <;> rfl

theorem lift_state_run (b : ByteMachine) : lift MicroOp.state b = some (.ok b.rest.state b) := rfl

theorem lift_update_run (f : State → State) (b : ByteMachine) :
    lift (MicroOp.update f) b =
      some (.ok () { b with rest := { b.rest with state := f b.rest.state } }) := rfl

theorem lift_jumpTo_run (address : UInt16) (b : ByteMachine) :
    lift (MicroOp.jumpTo address) b =
      some (.ok () { b with rest := { b.rest with
        state := { b.rest.state with pc := address } } }) := rfl

theorem recover_of_error {op : Guarded α} {b after : ByteMachine} {fault : Fault}
    (h : op b = some (.error fault after)) (handle : Fault → Guarded α) :
    recover op handle b = handle fault after := by
  rw [recover, h]

theorem recover_of_ok {op : Guarded α} {b after : ByteMachine} {a : α}
    (h : op b = some (.ok a after)) (handle : Fault → Guarded α) :
    recover op handle b = some (.ok a after) := by
  rw [recover, h]

theorem lift_register_run {x : UInt8} (h : x.toNat < 16) (b : ByteMachine) :
    lift (MicroOp.register x) b = some (.ok (b.rest.state.v.value x) b) := by
  rw [lift, MicroOp.register_run_of_lt h]

theorem sliceAtIndex_run (length : Nat) (b : ByteMachine) :
    sliceAtIndex length b = some (match b.rest.state.accessFault? length with
      | some fault => .error fault b
      | none => .ok (b.rest.state.bytesAtIndex length) b) := by
  rw [sliceAtIndex, bind_run, lift_state_run]
  dsimp only
  rw [Memory.slice?_eq, attempt_run, Memory.slice, State.accessFault?]
  by_cases fits : Memory.Fits b.rest.state.i.toNat length
  · rw [if_pos fits, if_pos fits]
    rfl
  · rw [if_neg fits, if_neg fits]

theorem loadAtIndex_run (data : List UInt8) (b : ByteMachine) :
    loadAtIndex data b = some (match b.rest.state.accessFault? data.length with
      | some fault => .error fault b
      | none => .ok () { b with rest := { b.rest with state := { b.rest.state with memory :=
          ⟨Memory.overwrite b.rest.state.memory.bytes b.rest.state.i.toNat data⟩ } } }) := by
  rw [loadAtIndex, bind_run, lift_state_run]
  dsimp only
  rw [bind_run, Memory.load?_eq, attempt_run, Memory.load, State.accessFault?]
  by_cases fits : Memory.Fits b.rest.state.i.toNat data.length
  · rw [if_pos fits, if_pos fits]
    rfl
  · rw [if_neg fits, if_neg fits]

theorem glyphAddress_eq (value : UInt8) : glyphAddress value = some (Font.address value) := by
  have small := value.toNat_lt
  have product : value.toNat * Font.glyphSize < 0x10000 := by
    unfold Font.glyphSize
    omega
  have sum : Font.base + value.toNat * Font.glyphSize < 0x10000 := by
    unfold Font.base
    omega
  rw [glyphAddress, Checked.mul_eq_some product]
  change (do return UInt16.ofNat (← Checked.add _ _ _)) = _
  rw [Checked.add_eq_some sum]
  apply congrArg some
  apply UInt16.toNat_inj.1
  rw [Font.toNat_address]
  simp only [UInt16.toNat_ofNat', Nat.reducePow]
  omega

end Guarded

namespace Instruction

/-- Whether the instruction reads or writes the screen. -/
def UsesScreen : Instruction → Prop
  | clear | draw .. => True
  | _ => False

theorem fault?_ne_noSuchRegister (i : Instruction) (s : State) (x : UInt8) :
    i.fault? s ≠ some (.noSuchRegister x) := by
  intro h
  cases i <;> simp only [fault?, State.accessFault?, Memory.outside] at h <;>
    first | cases h | (split at h <;> cases h)

theorem fault?_blankScreen (i : Instruction) (s : State) : i.fault? s.blankScreen = i.fault? s := by
  cases i <;> rfl

theorem onBytes_outcome {i : Instruction} (h : ¬ i.UsesScreen) (keypad : Keypad) (m : Machine) :
    (i.outcome keypad m).onBytes = ⟨i.outcome keypad m.onBytes.rest, m.onBytes.frame⟩ := by
  cases i with
  | clear | draw _ _ _ => exact absurd trivial h
  | _ => rfl

end Instruction

namespace Guarded

/-- What is to come of an instruction on bytes. -/
def expected (keypad : Keypad) (m : Machine) (i : Instruction) :
    EStateM.Result Fault ByteMachine Unit :=
  match i.fault? m.state with
  | some fault => .error fault m.onBytes
  | none => .ok () (i.outcome keypad m).onBytes

theorem lift_run {i : Instruction} (exist : i.RegistersExist) (h : ¬ i.UsesScreen)
    (keypad : Keypad) (m : Machine) :
    lift (i.run keypad) m.onBytes = some (expected keypad m i) := by
  have fault : i.fault? m.onBytes.rest.state = i.fault? m.state := i.fault?_blankScreen m.state
  rw [lift, Instruction.run_eq exist, fault, expected, i.onBytes_outcome h]
  cases hf : i.fault? m.state with
  | none => rfl
  | some fault =>
    -- the one fault that would be a panic needs a register that does not exist
    cases fault with
    | noSuchRegister x => exact absurd hf (i.fault?_ne_noSuchRegister m.state x)
    | _ => rfl

theorem frame_run (b : ByteMachine) : frame b = some (.ok b.frame b) := rfl

theorem setFrame_run (f : FrameBuffer) (b : ByteMachine) :
    setFrame f b = some (.ok () { b with frame := f }) := rfl

theorem value_onBytes (m : Machine) (x : UInt8) :
    m.onBytes.rest.state.v.value x = m.state.v.value x := rfl

theorem bytesAtIndex_onBytes (m : Machine) (length : Nat) :
    m.onBytes.rest.state.bytesAtIndex length = m.state.bytesAtIndex length := rfl

theorem accessFault?_onBytes (m : Machine) (length : Nat) :
    m.onBytes.rest.state.accessFault? length = m.state.accessFault? length := rfl

theorem run_draw {x y : UInt8} (rows : UInt8) (hx : x.toNat < 16) (hy : y.toNat < 16)
    (keypad : Keypad) (m : Machine) :
    run keypad (.draw x y rows) m.onBytes = some (expected keypad m (.draw x y rows)) := by
  -- a sprite starts at a byte and has at most as many rows as a byte counts
  have length : (m.state.bytesAtIndex rows.toNat).length ≤ rows.toNat := List.length_take_le _ _
  have bounded : (m.state.v.value y).toNat + 0 + (m.state.bytesAtIndex rows.toNat).length <
      sizeBound := by
    have := (m.state.v.value y).toNat_lt
    have := rows.toNat_lt
    unfold sizeBound
    omega
  have drawn := m.state.screen.drawRows?_bytes false (m.state.v.value x).toNat_lt _ bounded
  rw [Bool.false_or, Nat.add_zero] at drawn
  simp only [run, drawSprite, bind_run, sliceAtIndex_run, expected, Instruction.fault?,
    accessFault?_onBytes]
  cases m.state.accessFault? rows.toNat with
  | some fault => rfl
  | none =>
    simp only [lift_register_run hx, lift_register_run hy, frame_run, check_run, value_onBytes,
      bytesAtIndex_onBytes]
    rw [show m.onBytes.frame = m.state.screen.bytes from rfl, drawn]
    rfl

theorem run_store {x : UInt8} (hx : x.toNat < 16) (keypad : Keypad) (m : Machine) :
    run keypad (.store x) m.onBytes = some (expected keypad m (.store x)) := by
  have count : x.toNat + 1 < sizeBound := Nat.lt_of_le_of_lt hx (by decide)
  simp only [run, bind_run, check_run, Checked.add_eq_some count, lift_state_run, loadAtIndex_run,
    Registers.range_eq_upTo _ hx, Option.map_some, expected, Instruction.fault?,
    Registers.length_upTo _ hx, accessFault?_onBytes]
  cases m.state.accessFault? (x.toNat + 1) <;> rfl

theorem run_load {x : UInt8} (hx : x.toNat < 16) (keypad : Keypad) (m : Machine) :
    run keypad (.load x) m.onBytes = some (expected keypad m (.load x)) := by
  have count : x.toNat + 1 < sizeBound := Nat.lt_of_le_of_lt hx (by decide)
  -- the copy is as long as the registers it replaces because the slice is, once it fits
  simp only [run, bind_run, check_run, Checked.add_eq_some count, sliceAtIndex_run,
    Option.map_some, expected, Instruction.fault?, accessFault?_onBytes]
  cases fits : m.state.accessFault? (x.toNat + 1) with
  | some fault => rfl
  | none =>
    have copied := Registers.copy_eq_putUpTo m.state.v hx (m.state.length_bytesAtIndex fits)
    simp only [lift_state_run, bytesAtIndex_onBytes]
    rw [show m.onBytes.rest.state.v = m.state.v from rfl, copied]
    rfl

theorem run_eq {i : Instruction} (exist : i.RegistersExist) (keypad : Keypad) (m : Machine) :
    run keypad i m.onBytes = some (expected keypad m i) := by
  cases i with
  | clear =>
    simp only [run, bind_run, setFrame_run, lift_update_run, ← Screen.bytes_blank]
    rfl
  | draw x y rows =>
    exact run_draw rows (exist x (by simp [Instruction.operands]))
      (exist y (by simp [Instruction.operands])) keypad m
  | glyph x =>
    have hx : x.toNat < 16 := exist x (by simp [Instruction.operands])
    simp only [run, bind_run, lift_register_run hx, glyphAddress_eq, check_run, Option.map_some]
    rfl
  | decimal x =>
    have hx : x.toNat < 16 := exist x (by simp [Instruction.operands])
    simp only [run, bind_run, lift_register_run hx, loadAtIndex_run, expected, Instruction.fault?,
      accessFault?_onBytes]
    rw [show (Instruction.decimalDigits _).length = 3 from rfl]
    cases m.state.accessFault? 3 <;> rfl
  | store x => exact run_store (exist x (by simp [Instruction.operands])) keypad m
  | load x => exact run_load (exist x (by simp [Instruction.operands])) keypad m
  | _ => exact lift_run exist not_false keypad m

theorem execute_eq {i : Instruction} (exist : i.RegistersExist) (keypad : Keypad) (m : Machine) :
    execute keypad i m.onBytes = some (match i.fault? m.state with
      | some fault => .error fault m.onBytes
      | none => .ok i.effect (i.outcome keypad m).onBytes) := by
  rw [execute, bind_run, run_eq exist, expected]
  cases i.fault? m.state <;> rfl

theorem executeWord_eq (op : Opcode) (keypad : Keypad) (m : Machine) :
    executeWord keypad op m.onBytes = some (match op.instruction? with
      | none => .error (.unimplemented op.word) m.onBytes
      | some i =>
        match i.fault? m.state with
        | some fault => .error fault m.onBytes
        | none => .ok i.effect (i.outcome keypad m.advance).onBytes) := by
  rw [executeWord, bind_run, attempt_run, Opcode.decode]
  cases h : op.instruction? with
  | none => rfl
  | some i =>
    have executed := execute_eq (Opcode.registersExist_of_decoded h) keypad m.advance
    rw [show i.fault? m.advance.state = i.fault? m.state from i.fault?_advance m.state] at executed
    dsimp only
    rw [bind_run, lift_state_run]
    dsimp only
    rw [bind_run, lift_jumpTo_run]
    dsimp only
    -- a fault leaves the bytes of the advanced machine, and the handler takes the advance back
    cases hf : i.fault? m.state with
    | some fault =>
      rw [hf] at executed
      exact recover_of_error executed _
    | none =>
      rw [hf] at executed
      exact recover_of_ok executed _

end Guarded

namespace ByteMachine

theorem initial_eq {stackDepth : Nat} (allocates : 2 * stackDepth < allocationBound) :
    initial stackDepth = some (.initial stackDepth) := by
  have sum : Font.base + Font.bytes.length < sizeBound := by decide
  have copied : Checked.copy Memory.blank.bytes Font.base (Font.base + Font.bytes.length)
      Font.bytes = some State.initialMemory.bytes := if_pos (by decide)
  simp only [initial, Checked.allocate, if_pos allocates, Checked.add_eq_some sum, copied,
    Option.bind_eq_bind, Option.bind_some]
  rfl

theorem step_eq (m : Machine) (keypad : Keypad) :
    step m.onBytes keypad = some ((m.step keypad).result, (m.step keypad).machine.onBytes) := by
  unfold step Machine.step Machine.isWaiting State.fetch
  rw [show m.onBytes.rest.state.waiting = m.state.waiting from rfl,
    show m.onBytes.rest.state.memory = m.state.memory from rfl,
    show m.onBytes.rest.state.pc = m.state.pc from rfl, Memory.readWord?_eq]
  cases m.state.waiting with
  | some _ => rfl
  | none =>
    cases m.state.memory.readWord m.state.pc.toNat with
    | error fault => rfl
    | ok word =>
      simp only [Option.bind_eq_bind, Option.bind_some, Guarded.executeWord_eq, Option.isSome_none,
        Bool.false_eq_true, if_false, Machine.executeFetched, Opcode.execute_eq]
      cases Opcode.instruction? ⟨word⟩ with
      | none => rfl
      | some i =>
        dsimp only
        cases i.fault? m.state <;> rfl

theorem provideKey_eq {config : Config} {m : Machine} (sound : Sound config m) (key : UInt8) :
    provideKey m.onBytes key =
      some ((m.provideKey key).result, (m.provideKey key).machine.onBytes) := by
  unfold provideKey Machine.provideKey
  rw [show m.onBytes.rest.state.waiting = m.state.waiting from rfl]
  cases waiting : m.state.waiting with
  | none => rfl
  | some x =>
    have delivered := m.state.v.set?_eq_put (key % 16) (sound.waiting_exists x waiting)
    change (do
      let v ← m.state.v.set? x (key % 16)
      return (true, m.onBytes.setState { m.onBytes.rest.state with v := v, waiting := none })) = _
    rw [delivered]
    rfl

theorem countDown_eq {t : UInt8} (h : t ≠ 0) : countDown t = some (Timers.countDown t) := by
  have positive : 1 ≤ t.toNat := by
    apply Nat.one_le_iff_ne_zero.2
    intro zero
    exact h (UInt8.toNat_inj.1 zero)
  have small := t.toNat_lt
  rw [countDown, Checked.sub_eq_some positive]
  apply congrArg some
  apply UInt8.toNat_inj.1
  rw [Timers.toNat_countDown, UInt8.toNat_ofNat']
  omega

theorem tickDelay_eq (t : UInt8) : tickDelay t = some (Timers.countDown t) := by
  unfold tickDelay
  by_cases zero : t = 0
  · rw [zero]
    rfl
  · rw [if_pos (UInt8.pos_iff_ne_zero.2 zero), countDown_eq zero]

theorem tickSound_eq (t : UInt8) :
    tickSound t = some (if t = 1 then .beep else .none, Timers.countDown t) := by
  unfold tickSound
  by_cases zero : t = 0
  · rw [zero]
    rfl
  · by_cases one : t = 1
    · rw [one]
      rfl
    · rw [if_neg zero, if_neg one, if_neg one, countDown_eq zero]
      rfl

theorem tick_eq (m : Machine) : tick m.onBytes = some (m.tick.result, m.tick.machine.onBytes) := by
  rw [tick, tickDelay_eq, tickSound_eq]
  rfl

theorem loadProgram_eq (m : Machine) (program : List UInt8) :
    loadProgram m.onBytes program =
      some ((m.loadProgram program).result, (m.loadProgram program).machine.onBytes) := by
  have room : Checked.sub memorySize programStart = some programCapacity := rfl
  simp only [loadProgram, room, Memory.load?_eq, Machine.loadProgram, Option.bind_eq_bind,
    Option.bind_some]
  by_cases large : programCapacity < program.length
  · rw [if_pos large, if_pos large]
    rfl
  · rw [if_neg large, if_neg large, show m.onBytes.rest.state.memory = m.state.memory from rfl]
    cases m.state.memory.load programStart program <;> rfl

theorem loadFrom_eq (m : Machine) (reader : Reader) :
    loadFrom m.onBytes reader =
      some ((m.loadFrom reader).result, (m.loadFrom reader).machine.onBytes) := by
  unfold loadFrom Machine.loadFrom
  cases reader.failure with
  | none => exact loadProgram_eq m reader.bytes
  | some message => rfl

theorem reset_eq {m : Machine} (allocates : 2 * m.config.stackDepth < allocationBound) :
    reset m.onBytes = some m.reset.machine.onBytes := by
  have powered : initial m.onBytes.rest.config.stackDepth = some (.initial m.config.stackDepth) :=
    initial_eq allocates
  rw [reset, powered, ← Screen.bytes_blank]
  rfl

theorem takeFrame_eq (m : Machine) :
    takeFrame m.onBytes = (m.takeFrame.result.map Screen.bytes, m.takeFrame.machine.onBytes) := by
  unfold takeFrame Machine.takeFrame
  rw [show m.onBytes.rest.state.redraw = m.state.redraw from rfl]
  cases m.state.redraw <;> rfl

theorem perform_eq {config : Config} (allocates : 2 * config.stackDepth < allocationBound)
    {m : Machine} (sound : Sound config m) (op : Operation) :
    perform m.onBytes op =
      some ((m.perform op).result.onBytes, (m.perform op).machine.onBytes) := by
  cases op with
  | step keypad =>
    rw [perform, step_eq]
    rfl
  | provideKey key =>
    rw [perform, provideKey_eq sound]
    rfl
  | tick =>
    rw [perform, tick_eq]
    rfl
  | loadProgram program =>
    rw [perform, loadProgram_eq]
    rfl
  | loadFrom reader =>
    rw [perform, loadFrom_eq]
    rfl
  | reset =>
    rw [perform, reset_eq (sound.config_eq ▸ allocates)]
    rfl
  | takeFrame =>
    rw [perform, takeFrame_eq]
    rfl

theorem performAll_eq {config : Config} (allocates : 2 * config.stackDepth < allocationBound)
    {m : Machine} (sound : Sound config m) (ops : List Operation) :
    performAll m.onBytes ops =
      some ((m.performAll ops).result.map Answer.onBytes, (m.performAll ops).machine.onBytes) := by
  induction ops generalizing m with
  | nil => rfl
  | cons op rest ih =>
    have later := ih (sound.move (m.moves_perform op))
    simp only [performAll, perform_eq allocates sound, Option.bind_eq_bind, Option.bind_some, later]
    rfl

theorem start_eq {config : Config} (allocates : 2 * config.stackDepth < allocationBound)
    (random : RandomSource) : start config random = some (Machine.start config random).onBytes := by
  rw [start, initial_eq allocates, ← Screen.bytes_blank]
  rfl

theorem sound_onBytes {config : Config} {m : Machine} (sound : Sound config m) :
    Sound config m.onBytes.rest :=
  ⟨sound.config_eq, sound.capacity_eq, sound.depth_le, sound.waiting_exists⟩

/-- If the stack can be allocated, every run from power-on goes through without a panic. It gives
the answers of the machine, it ends in the bytes of the machine with every pixel zero or one and the
invariant in place, and there no operation panics either. -/
theorem runs_without_panic {config : Config} (allocates : 2 * config.stackDepth < allocationBound)
    (random : RandomSource) (ops : List Operation) :
    let turn := (Machine.start config random).performAll ops
    ∃ b, run config random ops = some (turn.result.map Answer.onBytes, b) ∧
      b = turn.machine.onBytes ∧ b.frame.IsBits ∧ Sound config b.rest ∧
      ∀ op, (b.perform op).isSome := by
  intro turn
  have reached : Machine.Reachable config random turn.machine := ⟨ops, rfl⟩
  have sound : Sound config turn.machine := reached.sound
  refine ⟨turn.machine.onBytes, ?_, rfl, Screen.isBits_bytes _, sound_onBytes sound, fun op => ?_⟩
  · rw [run, start_eq allocates]
    exact performAll_eq allocates (.start config random) ops
  · rw [perform_eq allocates sound]
    rfl

/-- A glyph is drawn, and a key above fifteen is delivered to a register that waits. -/
theorem runs_without_panic_after_a_draw :
    let random := RandomSource.ofWords fun _ => 0
    let idle : Keypad := fun _ => false
    let ops := [.loadProgram [0xD0, 0x05, 0xF1, 0x0A], .step idle, .step idle, .provideKey 0xFF]
    2 * Config.standard.stackDepth < allocationBound ∧
      ∃ answers b, run .standard random ops = some (answers, b) ∧ b.frame.IsBits ∧
        b.frame.get? 0 0 = some 1 ∧ b.rest.state.v.value 1 = 15 := by
  intro random idle ops
  have allocates : 2 * Config.standard.stackDepth < allocationBound := by decide
  obtain ⟨b, ran, same, bits, -⟩ := runs_without_panic allocates random ops
  have drawn : b.frame.get? 0 0 = some 1 ∧ b.rest.state.v.value 1 = 15 := by
    rw [same]
    decide +kernel
  exact ⟨allocates, _, b, ran, bits, drawn⟩

end ByteMachine

end Chip8
