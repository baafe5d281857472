import Chip8.Proofs.Run.History

namespace Chip8

/-- What ties the parts of a reachable machine to each other. -/
structure Sound (config : Config) (m : Machine) : Prop where
  config_eq : m.config = config
  capacity_eq : m.state.stack.capacity = config.stackDepth
  depth_le : m.state.stack.depth ≤ config.stackDepth
  waiting_exists : ∀ x, m.state.waiting = some x → x.toNat < 16

namespace Sound

variable {config : Config} {m after : Machine}

theorem start (config : Config) (random : RandomSource) : Sound config (.start config random) where
  config_eq := rfl
  capacity_eq := rfl
  depth_le := Nat.zero_le _
  waiting_exists _ h := nomatch h

theorem depth_stackAfter {s : State} {i : Instruction} (fits : s.stack.depth ≤ s.stack.capacity)
    (safe : i.fault? s = none) :
    (i.stackAfter s).capacity = s.stack.capacity ∧ (i.stackAfter s).depth ≤ s.stack.capacity := by
  cases i with
  | ret =>
    refine ⟨rfl, ?_⟩
    simp only [Instruction.stackAfter, CallStack.depth, List.length_dropLast] at fits ⊢
    omega
  | call address =>
    have room : s.stack.depth < s.stack.capacity := Instruction.fault?_call_eq_none_iff.1 safe
    refine ⟨rfl, ?_⟩
    simp only [Instruction.stackAfter, CallStack.depth, List.length_append, List.length_singleton]
      at room ⊢
    omega
  | _ => exact ⟨rfl, fits⟩

theorem executes (sound : Sound config m) {i : Instruction} (exist : i.RegistersExist)
    (safe : i.fault? m.state = none) (keypad : Keypad) :
    Sound config (i.outcome keypad m.advance) := by
  have fits : m.advance.state.stack.depth ≤ m.advance.state.stack.capacity := by
    change m.state.stack.depth ≤ m.state.stack.capacity
    rw [sound.capacity_eq]
    exact sound.depth_le
  obtain ⟨capacity, depth⟩ := depth_stackAfter fits ((i.fault?_advance m.state).trans safe)
  have same : m.advance.state.stack.capacity = config.stackDepth := sound.capacity_eq
  refine ⟨sound.config_eq, capacity.trans same, same ▸ depth, fun x hx => ?_⟩
  change i.waitingAfter m.advance.state = some x at hx
  cases i with
  | awaitKey y =>
    obtain rfl : y = x := by simpa [Instruction.waitingAfter] using hx
    exact exist y (by simp [Instruction.operands])
  | _ => exact sound.waiting_exists x hx

theorem move {op : Operation} (sound : Sound config m) (move : Move m op after) :
    Sound config after := by
  obtain ⟨same, capacity, depth, waiting⟩ := sound
  cases move with
  | idles _ | fails _ | ignores _ | refuses _ _ => exact ⟨same, capacity, depth, waiting⟩
  | ticks | loads _ | shows => exact ⟨same, capacity, depth, waiting⟩
  | delivers _ => exact ⟨same, capacity, depth, fun _ h => nomatch h⟩
  | resets => exact ⟨same, congrArg Config.stackDepth same, Nat.zero_le _, fun _ h => nomatch h⟩
  | executes ready =>
    obtain ⟨-, decoded, safe⟩ := State.executes_iff.1 ready
    exact executes ⟨same, capacity, depth, waiting⟩
      (State.registersExist_of_instruction? decoded) safe _

end Sound

theorem Machine.Reachable.sound {config : Config} {random : RandomSource} {m : Machine}
    (h : Reachable config random m) : Sound config m := by
  obtain ⟨ops, rfl⟩ := h
  have keeps : ∀ (m : Machine) (op : Operation), True → Sound config m →
      Sound config (m.perform op).machine :=
    fun m op _ sound => sound.move (m.moves_perform op)
  exact performAll_keeps keeps (.start config random) ops fun _ _ => trivial

end Chip8
