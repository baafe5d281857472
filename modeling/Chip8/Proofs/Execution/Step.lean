import Chip8.Machine.Step
import Chip8.Proofs.Execution.Outcome

namespace Chip8

namespace Instruction

@[simp] theorem fault?_advance (i : Instruction) (s : State) : i.fault? s.advance = i.fault? s := by
  cases i <;> rfl

theorem execute_eq {i : Instruction} (h : i.RegistersExist) (keypad : Keypad) (m : Machine) :
    i.execute keypad m = match i.fault? m.state with
      | some fault => .error fault m
      | none => .ok i.effect (i.outcome keypad m) := by
  rw [execute_run, run_eq h]
  cases i.fault? m.state <;> rfl

end Instruction

namespace Opcode

theorem register_of_decoded {op : Opcode} {i : Instruction} (h : op.instruction? = some i)
    {r : UInt8} (hr : .register r ∈ i.operands) : r = op.x ∨ r = op.y := by
  unfold instruction? arithmetic? transfer? at h
  -- one goal for each row of the tables that yields an instruction
  split at h <;> (try split at h) <;> (try split at h) <;> cases h <;>
    simp_all [Instruction.operands]

theorem registersExist_of_decoded {op : Opcode} {i : Instruction} (h : op.instruction? = some i) :
    i.RegistersExist := by
  intro r hr
  rcases register_of_decoded h hr with rfl | rfl
  · exact op.x_lt
  · exact op.y_lt

theorem execute_eq (op : Opcode) (keypad : Keypad) (m : Machine) :
    op.execute keypad m = match op.instruction? with
      | none => .error (.unimplemented op.word) m
      | some i =>
        match i.fault? m.state with
        | some fault => .error fault m
        | none => .ok i.effect (i.outcome keypad m.advance) := by
  rw [execute_run, decode]
  cases h : op.instruction? with
  | none => rfl
  | some i =>
    -- the fault of the advanced machine is that of the machine, whose counter comes back
    have executed := Instruction.execute_eq (registersExist_of_decoded h) keypad m.advance
    rw [Machine.advance, Instruction.fault?_advance, State.advance] at executed
    dsimp only
    rw [executed]
    cases i.fault? m.state <;> rfl

theorem outcome_of_execute {op : Opcode} {keypad : Keypad} {m after : Machine} {effect : Effect}
    (done : op.execute keypad m = .ok effect after) :
    ∃ i, op.instruction? = some i ∧ i.fault? m.state = none ∧ effect = i.effect ∧
      after = i.outcome keypad m.advance := by
  rw [execute_eq] at done
  cases decoded : op.instruction? with
  | none => simp [decoded] at done
  | some i =>
    cases fault : i.fault? m.state with
    | some _ => simp [decoded, fault] at done
    | none =>
      obtain ⟨effect_eq, after_eq⟩ : i.effect = effect ∧ i.outcome keypad m.advance = after := by
        simpa [decoded, fault] using done
      exact ⟨i, rfl, fault, effect_eq.symm, after_eq.symm⟩

end Opcode

/-- What a step of a machine comes to. -/
inductive Prospect where
  | idle
  | fails (fault : Fault)
  | executes (i : Instruction)

/-- What the next step comes to; it is decided before anything is executed. -/
def State.prospect (s : State) : Prospect :=
  match s.waiting with
  | some _ => .idle
  | none =>
    match s.fetch with
    | .error fault => .fails fault
    | .ok op =>
      match op.instruction? with
      | none => .fails (.unimplemented op.word)
      | some i =>
        match i.fault? s with
        | some fault => .fails fault
        | none => .executes i

namespace State

def instruction? (s : State) : Option Instruction :=
  match s.fetch with
  | .ok op => op.instruction?
  | .error _ => none

theorem waiting_of_idle {s : State} (h : s.prospect = .idle) : ∃ x, s.waiting = some x := by
  unfold prospect at h
  cases hw : s.waiting with
  | some x => exact ⟨x, rfl⟩
  | none =>
    rw [hw] at h
    dsimp only at h
    split at h
    · cases h
    · split at h
      · cases h
      · split at h <;> cases h

theorem waiting_of_fails {s : State} {fault : Fault} (h : s.prospect = .fails fault) :
    s.waiting = none := by
  cases hw : s.waiting with
  | none => rfl
  | some x => simp [prospect, hw] at h

theorem executes_iff {s : State} {i : Instruction} :
    s.prospect = .executes i ↔
      s.waiting = none ∧ s.instruction? = some i ∧ i.fault? s = none := by
  unfold prospect instruction?
  cases s.waiting with
  | some x => simp
  | none =>
    cases s.fetch with
    | error fault => simp
    | ok op =>
      dsimp only
      cases op.instruction? with
      | none => simp
      | some j =>
        dsimp only
        cases hf : j.fault? s with
        | none =>
          simp only [Prospect.executes.injEq, Option.some.injEq, true_and]
          exact ⟨fun h => ⟨h, h ▸ hf⟩, And.left⟩
        | some fault =>
          simp only [reduceCtorEq, Option.some.injEq, true_and, false_iff, not_and]
          rintro rfl
          simp [hf]

theorem prospect_of_fault {s : State} {i : Instruction} {fault : Fault}
    (running : s.waiting = none) (decoded : s.instruction? = some i)
    (failing : i.fault? s = some fault) : s.prospect = .fails fault := by
  unfold instruction? at decoded
  cases hf : s.fetch with
  | error _ => simp [hf] at decoded
  | ok op =>
    have decoded' : op.instruction? = some i := by simpa [hf] using decoded
    simp [prospect, running, hf, decoded', failing]

theorem registersExist_of_instruction? {s : State} {i : Instruction} (h : s.instruction? = some i) :
    i.RegistersExist := by
  unfold instruction? at h
  cases hf : s.fetch with
  | error fault => simp [hf] at h
  | ok op => exact Opcode.registersExist_of_decoded (by simpa [hf] using h)

end State

namespace Machine

theorem step_spec (m : Machine) (keypad : Keypad) :
    match m.state.prospect with
    | .idle => (m.step keypad).result = .ok .none ∧ (m.step keypad).machine = m
    | .fails fault => (m.step keypad).result = .error fault ∧ (m.step keypad).machine = m
    | .executes i =>
      (m.step keypad).result = .ok i.effect ∧
        (m.step keypad).machine = i.outcome keypad m.advance := by
  unfold step isWaiting State.prospect executeFetched
  cases m.state.waiting with
  | some _ => exact ⟨rfl, rfl⟩
  | none =>
    cases m.state.fetch with
    | error fault => exact ⟨rfl, rfl⟩
    | ok op =>
      simp only [Option.isSome_none, Bool.false_eq_true, if_false, Opcode.execute_eq]
      cases op.instruction? with
      | none => exact ⟨rfl, rfl⟩
      | some i =>
        dsimp only
        cases i.fault? m.state <;> exact ⟨rfl, rfl⟩

theorem step_of_idle {m : Machine} (h : m.state.prospect = .idle) (keypad : Keypad) :
    (m.step keypad).result = .ok .none ∧ (m.step keypad).machine = m := by
  have spec := m.step_spec keypad
  rwa [h] at spec

theorem step_of_fails {m : Machine} {fault : Fault} (h : m.state.prospect = .fails fault)
    (keypad : Keypad) :
    (m.step keypad).result = .error fault ∧ (m.step keypad).machine = m := by
  have spec := m.step_spec keypad
  rwa [h] at spec

theorem step_of_executes {m : Machine} {i : Instruction} (h : m.state.prospect = .executes i)
    (keypad : Keypad) :
    (m.step keypad).result = .ok i.effect ∧
      (m.step keypad).machine = i.outcome keypad m.advance := by
  have spec := m.step_spec keypad
  rwa [h] at spec

theorem result_step_eq_error_iff {m : Machine} {keypad : Keypad} {fault : Fault} :
    (m.step keypad).result = .error fault ↔ m.state.prospect = .fails fault := by
  cases h : m.state.prospect with
  | idle => simp [step_of_idle h]
  | fails f => simp [step_of_fails h]
  | executes i => simp [step_of_executes h]

/-- The instruction that a step executes to its end: none if it idles or fails. -/
def executed? (m : Machine) (keypad : Keypad) : Option Instruction :=
  match m.state.waiting, (m.step keypad).result with
  | none, .ok _ => m.state.instruction?
  | _, _ => none

theorem executed?_eq (m : Machine) (keypad : Keypad) :
    m.executed? keypad = match m.state.prospect with
      | .executes i => some i
      | _ => none := by
  cases h : m.state.prospect with
  | idle =>
    obtain ⟨x, hx⟩ := State.waiting_of_idle h
    simp [executed?, hx]
  | fails fault => simp [executed?, step_of_fails h]
  | executes j =>
    obtain ⟨running, decoded, -⟩ := State.executes_iff.1 h
    simp [executed?, step_of_executes h, running, decoded]

theorem executed?_eq_some_iff {m : Machine} {keypad : Keypad} {i : Instruction} :
    m.executed? keypad = some i ↔ m.state.prospect = .executes i := by
  rw [executed?_eq]
  cases m.state.prospect <;> simp

end Machine

end Chip8
