import Chip8.Proofs.Run.History

namespace Chip8

/-- The operations that neither load a program nor reset the machine. -/
def Operation.Continues : Operation → Prop
  | step _ | provideKey _ | tick | takeFrame => True
  | loadProgram _ | loadFrom _ | reset => False

theorem Operation.Continues.not_isLoad {op : Operation} (h : op.Continues) : ¬ op.IsLoad := by
  cases op with
  | loadProgram _ | loadFrom _ => exact h.elim
  | _ => exact not_false

theorem Instruction.fault?_congr {s t : State} (i : Instruction) (index : s.i = t.i)
    (stack : s.stack = t.stack) : i.fault? s = i.fault? t := by
  cases i <;> simp only [fault?, State.accessFault?, index, stack]

/-- What a step comes to can be told from these five parts of the state. -/
theorem State.prospect_congr {s t : State} (pc : s.pc = t.pc) (index : s.i = t.i)
    (memory : s.memory = t.memory) (stack : s.stack = t.stack) (waiting : s.waiting = t.waiting) :
    s.prospect = t.prospect := by
  have fault (i : Instruction) : i.fault? s = i.fault? t := i.fault?_congr index stack
  simp only [prospect, fetch, pc, memory, waiting, fault]

theorem Move.keeps_failing {m after : Machine} {op : Operation} {fault : Fault}
    (move : Move m op after) (allowed : op.Continues) (failing : m.state.prospect = .fails fault) :
    after.state.prospect = .fails fault := by
  cases move with
  | idles _ | fails _ | ignores _ => exact failing
  | executes ready => rw [ready] at failing; cases failing
  -- a failing machine does not wait, so no key is delivered
  | delivers waiting => rw [State.waiting_of_fails failing] at waiting; cases waiting
  | ticks | shows => exact (State.prospect_congr rfl rfl rfl rfl rfl).trans failing
  | refuses load _ => exact absurd load allowed.not_isLoad
  | loads accepted => exact absurd (Operation.isLoad_of_program? accepted) allowed.not_isLoad
  | resets => exact allowed.elim

namespace Machine

theorem machine_step_of_error {m : Machine} {keypad : Keypad} {fault : Fault}
    (h : (m.step keypad).result = .error fault) : (m.step keypad).machine = m :=
  (step_of_fails (result_step_eq_error_iff.1 h) keypad).2

theorem answers_of_failing {m : Machine} {fault : Fault} (failing : m.state.prospect = .fails fault)
    {ops : List Operation} (allowed : ∀ op ∈ ops, op.Continues) {n : Nat} {keypad : Keypad}
    (h : ops[n]? = some (.step keypad)) :
    (m.performAll ops).result[n]? = some (.stepped (.error fault)) := by
  have before : (m.performAll (ops.take n)).machine.state.prospect = .fails fault :=
    performAll_keeps (I := fun m => m.state.prospect = .fails fault)
      (fun m op allowed failing => (m.moves_perform op).keeps_failing allowed failing)
      failing _ fun op mem => allowed op (List.mem_of_mem_take mem)
  rw [result_performAll, List.getElem?_map, getElem?_history, h]
  simp only [Option.map_some, Event.answer, perform, Turn.map, (step_of_fails before keypad).1]

theorem failure_leaves_no_trace :
    (∀ (m : Machine) (keypad : Keypad) (fault : Fault),
      (m.step keypad).result = .error fault →
        (m.step keypad).machine = m ∧
        ∀ ops : List Operation, (∀ op ∈ ops, op.Continues) →
          ∀ (n : Nat) (later : Keypad), ops[n]? = some (.step later) →
            ((m.step keypad).machine.performAll ops).result[n]? =
              some (.stepped (.error fault))) ∧
    ∀ (i : Instruction) (keypad : Keypad) (m after : Machine) (fault : Fault),
      i.RegistersExist → i.execute keypad m = .error fault after → after = m := by
  constructor
  · intro m keypad fault failed
    have same : (m.step keypad).machine = m := machine_step_of_error failed
    refine ⟨same, fun ops allowed n later h => ?_⟩
    rw [same]
    exact answers_of_failing (result_step_eq_error_iff.1 failed) allowed h
  · intro i keypad m after fault exist failed
    rw [Instruction.execute_eq exist] at failed
    cases hf : i.fault? m.state with
    | none => simp [hf] at failed
    | some _ =>
      rw [hf] at failed
      injection failed with _ same
      exact same.symm

/-- With the program counter at the last byte no word is left to fetch; and a call fails on a stack
without room. -/
theorem failure_leaves_no_trace_at_last_byte :
    let random := RandomSource.ofWords fun _ => 0
    let idle : Keypad := fun _ => false
    let start := Machine.start .standard random
    let m := start.setState { start.state with pc := 0xFFF }
    let full := Machine.start (Config.standard.withStackDepth 0) random
    let ops := [.tick, .provideKey 3, .takeFrame, .step fun _ => true]
    (m.step idle).machine = m ∧
      ((m.step idle).machine.performAll ops).result[3]? =
        some (.stepped (.error (.outOfBounds 0x1000))) ∧
      ∃ after, (Instruction.call 0x300).execute idle full = .error (.stackOverflow 0) after ∧
        after = full := by
  intro random idle start m full ops
  have failed : (m.step idle).result = .error (.outOfBounds 0x1000) := rfl
  obtain ⟨same, stuck⟩ := failure_leaves_no_trace.1 m idle _ failed
  have overflow : (Instruction.call 0x300).execute idle full = .error (.stackOverflow 0) full := rfl
  have exist : (Instruction.call 0x300).RegistersExist := by
    simp [Instruction.RegistersExist, Instruction.operands]
  exact ⟨same, stuck ops (by simp [ops, Operation.Continues]) 3 _ rfl, full, overflow,
    failure_leaves_no_trace.2 _ idle full full _ exist overflow⟩

end Machine

end Chip8
