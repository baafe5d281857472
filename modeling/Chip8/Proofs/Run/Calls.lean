import Chip8.Proofs.Run.Invariant

namespace Chip8

namespace Instruction

def isCall : Instruction → Bool
  | call _ => true
  | _ => false

def isReturn : Instruction → Bool
  | ret => true
  | _ => false

end Instruction

def Machine.frames (m : Machine) : List UInt16 := m.state.stack.frames

def Machine.depth (m : Machine) : Nat := m.state.stack.depth

theorem Machine.length_frames (m : Machine) : m.frames.length = m.depth := rfl

namespace Event

def calls (e : Event) : Bool := e.executed?.any Instruction.isCall

def returns (e : Event) : Bool := e.executed?.any Instruction.isReturn

theorem exists_step_of_returns {m : Machine} {op : Operation}
    (h : (Event.mk m op).returns = true) :
    ∃ keypad, op = .step keypad ∧ m.executed? keypad = some .ret := by
  obtain ⟨i, executed, isReturn⟩ := (Option.any_eq_true ..).1 h
  cases op with
  | step keypad =>
    cases i with
    | ret => exact ⟨keypad, rfl, executed⟩
    | _ => cases isReturn
  | _ => cases executed

/-- What an event other than a reset does to the saved frames. -/
inductive Frames (e : Event) : Prop where
  | stay (noCall : e.calls = false) (noReturn : e.returns = false)
    (same : e.after.frames = e.before.frames)
  | grow (call : e.calls = true) (noReturn : e.returns = false)
    (pushed : e.after.frames = e.before.frames ++ [e.before.state.pc + 2])
  | shrink (noCall : e.calls = false) (return' : e.returns = true)
    (popped : e.before.frames = e.after.frames ++ [e.after.state.pc])

theorem frames_of_executes {m : Machine} {keypad : Keypad} {i : Instruction}
    (ready : m.state.prospect = .executes i) : Frames ⟨m, .step keypad⟩ := by
  have executed : (Event.mk m (.step keypad)).executed? = some i :=
    Machine.executed?_eq_some_iff.2 ready
  have after : (Event.mk m (.step keypad)).after = i.outcome keypad m.advance :=
    (Machine.step_of_executes ready keypad).2
  obtain ⟨-, -, safe⟩ := State.executes_iff.1 ready
  cases i with
  | call address =>
    -- the counter has advanced before it is saved
    refine .grow (by simp [calls, executed, Instruction.isCall])
      (by simp [returns, executed, Instruction.isReturn]) ?_
    rw [after]
    rfl
  | ret =>
    refine .shrink (by simp [calls, executed, Instruction.isCall])
      (by simp [returns, executed, Instruction.isReturn]) ?_
    obtain ⟨last, hlast⟩ := Option.ne_none_iff_exists'.1
      (mt List.getLast?_eq_none_iff.1 (Instruction.fault?_ret_eq_none_iff.1 safe))
    rw [after]
    change m.state.stack.frames = m.state.stack.frames.dropLast ++
      [m.state.stack.frames.getLast?.getD (m.state.pc + 2)]
    rw [hlast, Option.getD_some, List.dropLast_append_getLast? last hlast]
  | _ =>
    refine .stay (by simp [calls, executed, Instruction.isCall])
      (by simp [returns, executed, Instruction.isReturn]) ?_
    rw [after]
    rfl

theorem frames_of_not_executing {m : Machine} {op : Operation} (kept : op ≠ .reset)
    (executed : (Event.mk m op).executed? = none) : Frames ⟨m, op⟩ := by
  refine .stay (by simp [calls, executed]) (by simp [returns, executed]) ?_
  change (m.perform op).machine.frames = m.frames
  have move := m.moves_perform op
  generalize (m.perform op).machine = after at move
  cases move with
  | idles _ | fails _ | ignores _ | delivers _ | ticks | refuses _ _ | loads _ | shows => rfl
  | resets => exact absurd rfl kept
  | executes ready =>
    change m.executed? _ = none at executed
    rw [Machine.executed?_eq_some_iff.2 ready] at executed
    cases executed

theorem frames_of_not_reset {m : Machine} {op : Operation} (kept : op ≠ .reset) :
    Frames ⟨m, op⟩ := by
  cases executed : (Event.mk m op).executed? with
  | none => exact frames_of_not_executing kept executed
  | some i =>
    cases op with
    | step keypad => exact frames_of_executes (Machine.executed?_eq_some_iff.1 executed)
    | _ => cases executed

/-- The frames below and at a return address stay, unless the event is the return to it. -/
theorem prefix_or_returned {m : Machine} {op : Operation} (kept : op ≠ .reset)
    {frames : List UInt16} {address : UInt16} (below : frames ++ [address] <+: m.frames) :
    frames ++ [address] <+: (m.perform op).machine.frames ∨
      (Event.mk m op).returns = true ∧ (m.perform op).machine.frames = frames ∧
        (m.perform op).machine.state.pc = address := by
  cases frames_of_not_reset (m := m) kept with
  | stay _ _ same =>
    left
    exact same ▸ below
  | grow _ _ pushed =>
    left
    exact pushed ▸ below.trans (List.prefix_append ..)
  | shrink _ returned popped =>
    change m.frames = _ at popped
    rw [popped, List.prefix_concat_iff] at below
    rcases below with same | deeper
    · -- the frame that goes is the one that holds the return address
      obtain ⟨rest, top⟩ := List.append_inj' same rfl
      exact .inr ⟨returned, rest.symm, (List.singleton_inj.1 top).symm⟩
    · exact .inl deeper

end Event

namespace Machine

/-- At no point of the run, the end included, is the stack of that depth. -/
def Avoids (m : Machine) (depth : Nat) (ops : List Operation) : Prop :=
  ∀ n, (m.performAll (ops.take n)).machine.depth ≠ depth

theorem prefix_of_avoids {m : Machine} {frames : List UInt16} {address : UInt16}
    (below : frames ++ [address] <+: m.frames) {ops : List Operation}
    (kept : ∀ op ∈ ops, op ≠ .reset) (avoids : m.Avoids frames.length ops) :
    frames ++ [address] <+: (m.performAll ops).machine.frames := by
  -- the prefix is the invariant of the run: only a return to the depth of the frames ends it
  induction ops generalizing m with
  | nil => exact below
  | cons op rest ih =>
    rcases Event.prefix_or_returned (kept op (List.mem_cons_self ..)) below with
      deeper | ⟨-, same, -⟩
    · exact ih deeper (fun op' h => kept op' (List.mem_cons_of_mem _ h)) fun n => avoids (n + 1)
    · have back : (m.perform op).machine.depth = frames.length := by
        rw [← length_frames, same]
      exact absurd back (avoids 1)

theorem depth_add_returns (config : Config) (random : RandomSource) (ops : List Operation) :
    ((start config random).performAll ops).machine.depth +
        (Event.sinceReset ((start config random).history ops)).countP Event.returns =
      (Event.sinceReset ((start config random).history ops)).countP Event.calls := by
  -- by the last operation, since what is counted ends at the end of the run
  induction ops using List.reverseRecOn with
  | nil => rfl
  | append_singleton ops op ih =>
    rw [history_concat, machine_performAll_concat, Event.sinceReset_concat]
    generalize (start config random).performAll ops = turn at ih ⊢
    by_cases kept : op = .reset
    · -- a reset empties the stack and the count at once
      rw [kept]
      rfl
    · rw [Event.isReset_eq_false kept, Bool.not_false, if_pos rfl, List.countP_append,
        List.countP_append, List.countP_singleton, List.countP_singleton]
      have frames := Event.frames_of_not_reset (m := turn.machine) kept
      rw [← length_frames] at ih ⊢
      cases frames with
      | stay noCall noReturn same =>
        change (turn.machine.perform op).machine.frames = turn.machine.frames at same
        simp only [noCall, noReturn, same]
        exact ih
      | grow call noReturn pushed =>
        change (turn.machine.perform op).machine.frames = turn.machine.frames ++ _ at pushed
        simp only [call, noReturn, pushed, List.length_append, List.length_singleton, if_true]
        rw [if_neg Bool.false_ne_true]
        omega
      | shrink noCall returned popped =>
        change turn.machine.frames = (turn.machine.perform op).machine.frames ++ _ at popped
        rw [popped, List.length_append, List.length_singleton] at ih
        simp only [noCall, returned, if_true]
        rw [if_neg Bool.false_ne_true]
        omega

theorem frames_of_call {m : Machine} {keypad : Keypad} {address : UInt16}
    (called : m.executed? keypad = some (.call address)) :
    (m.step keypad).machine.frames = m.frames ++ [m.state.pc + 2] := by
  rw [(step_of_executes (executed?_eq_some_iff.1 called) keypad).2]
  rfl

/-- An event that brings the stack back to the depth of some frames, with a return address still on
top of them before it, is the return to that address. -/
theorem returned_of_depth {m : Machine} {frames : List UInt16} {address : UInt16}
    (below : frames ++ [address] <+: m.frames) {op : Operation} (kept : op ≠ .reset)
    (back : (m.perform op).machine.depth = frames.length) :
    (∃ keypad, op = .step keypad ∧ m.executed? keypad = some .ret) ∧
      (m.perform op).machine.state.pc = address ∧ (m.perform op).machine.frames = frames := by
  rcases Event.prefix_or_returned kept below with deeper | ⟨returned, same, pc⟩
  · have longer := deeper.length_le
    rw [length_frames, List.length_append, List.length_singleton] at longer
    omega
  · exact ⟨Event.exists_step_of_returns returned, pc, same⟩

variable {config : Config} {m : Machine}

theorem result_step_call (sound : Sound config m) (running : m.state.waiting = none)
    {address : UInt16} (decoded : m.state.instruction? = some (.call address)) (keypad : Keypad) :
    (m.step keypad).result =
      if m.depth = config.stackDepth then .error (.stackOverflow config.stackDepth)
      else .ok .none := by
  have capacity := sound.capacity_eq
  have depth := sound.depth_le
  by_cases full : m.depth = config.stackDepth
  · rw [if_pos full]
    have fault : (Instruction.call address).fault? m.state =
        some (.stackOverflow config.stackDepth) := by
      rw [Instruction.fault?, capacity, if_neg]
      exact full.symm.not_gt
    exact (step_of_fails (State.prospect_of_fault running decoded fault) keypad).1
  · rw [if_neg full]
    have room : m.state.stack.depth < m.state.stack.capacity :=
      capacity ▸ Nat.lt_of_le_of_ne depth full
    have ready := State.executes_iff.2
      ⟨running, decoded, Instruction.fault?_call_eq_none_iff.2 room⟩
    exact (step_of_executes ready keypad).1

theorem result_step_ret (running : m.state.waiting = none)
    (decoded : m.state.instruction? = some .ret) (keypad : Keypad) :
    (m.step keypad).result = if m.depth = 0 then .error .stackUnderflow else .ok .none := by
  by_cases empty : m.depth = 0
  · rw [if_pos empty]
    have fault : Instruction.ret.fault? m.state = some .stackUnderflow := by
      rw [Instruction.fault?, if_pos (List.length_eq_zero_iff.1 empty)]
    exact (step_of_fails (State.prospect_of_fault running decoded fault) keypad).1
  · rw [if_neg empty]
    have saved : m.state.stack.frames ≠ [] := fun h => empty (List.length_eq_zero_iff.2 h)
    have ready := State.executes_iff.2
      ⟨running, decoded, Instruction.fault?_ret_eq_none_iff.2 saved⟩
    exact (step_of_executes ready keypad).1

/-- On every reachable machine: a call puts its return address on the frames, both stay there while
the stack is deeper than before the call, and what brings it back to that depth is the return to
that address; the depth is what the calls since the last reset have over the returns; a call fails
exactly on a full stack and a return exactly on an empty one. -/
theorem calls_match_returns (config : Config) (random : RandomSource) (past : List Operation) :
    let m := ((start config random).performAll past).machine
    (∀ keypad address, m.executed? keypad = some (.call address) →
      ∀ ops, (∀ op ∈ ops, op ≠ .reset) →
        let called := (m.step keypad).machine
        called.Avoids m.depth ops →
          let later := (called.performAll ops).machine
          m.frames ++ [m.state.pc + 2] <+: later.frames ∧
          ∀ op, op ≠ .reset → (later.perform op).machine.depth = m.depth →
            (∃ keypad, op = .step keypad ∧ later.executed? keypad = some .ret) ∧
              (later.perform op).machine.state.pc = m.state.pc + 2 ∧
              (later.perform op).machine.frames = m.frames) ∧
    m.depth + (Event.sinceReset ((start config random).history past)).countP Event.returns =
      (Event.sinceReset ((start config random).history past)).countP Event.calls ∧
    (∀ keypad address, m.state.waiting = none → m.state.instruction? = some (.call address) →
      (m.step keypad).result =
        if m.depth = config.stackDepth then .error (.stackOverflow config.stackDepth)
        else .ok .none) ∧
    ∀ keypad, m.state.waiting = none → m.state.instruction? = some .ret →
      (m.step keypad).result = if m.depth = 0 then .error .stackUnderflow else .ok .none := by
  intro m
  have reached : Reachable config random m := ⟨past, rfl⟩
  have sound : Sound config m := reached.sound
  refine ⟨?_, depth_add_returns config random past, ?_, ?_⟩
  · intro keypad address called ops kept this avoids later
    have below : m.frames ++ [m.state.pc + 2] <+: later.frames :=
      prefix_of_avoids (frames_of_call called ▸ List.prefix_rfl) kept avoids
    exact ⟨below, fun op keptOp back => returned_of_depth below keptOp back⟩
  · intro keypad address running decoded
    exact result_step_call sound running decoded keypad
  · intro keypad running decoded
    exact result_step_ret running decoded keypad

/-- A call from 0x200 to 0x206 and from there to 0x20A; the inner return does not end the outer
call. -/
theorem calls_match_returns_when_nested :
    let random := RandomSource.ofWords fun _ => 0
    let idle : Keypad := fun _ => false
    let program : List UInt8 := [0x22, 0x06, 0, 0, 0, 0, 0x22, 0x0A, 0x00, 0xEE, 0x00, 0xEE]
    let m := ((start .standard random).performAll [.loadProgram program]).machine
    let ops := [.step idle, .tick, .step idle]
    let later := ((m.step idle).machine.performAll ops).machine
    m.executed? idle = some (.call 0x206) ∧ (m.step idle).machine.Avoids m.depth ops ∧
      m.frames ++ [m.state.pc + 2] <+: later.frames ∧
      (later.perform (.step idle)).machine.state.pc = m.state.pc + 2 := by
  intro random idle program m ops later
  obtain ⟨called, early, reached⟩ : m.executed? idle = some (.call 0x206) ∧
      (∀ n ≤ 3, ((m.step idle).machine.performAll (ops.take n)).machine.depth ≠ m.depth) ∧
      (later.perform (.step idle)).machine.depth = m.depth := by
    decide +kernel
  have avoids : (m.step idle).machine.Avoids m.depth ops := by
    intro n
    -- behind its end a prefix is the whole run
    have same : (ops.take 3).take n = ops.take (min n 3) := List.take_take
    rw [show ops.take n = ops.take (min n 3) from same]
    exact early _ (Nat.min_le_right ..)
  obtain ⟨below, back⟩ := (calls_match_returns .standard random [.loadProgram program]).1
    idle _ called ops (by simp [ops]) avoids
  exact ⟨called, avoids, below, (back _ (by simp) reached).2.1⟩

end Machine

end Chip8
