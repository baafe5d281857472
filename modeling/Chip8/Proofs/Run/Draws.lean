import Chip8.Proofs.Run.History

namespace Chip8

namespace RandomSource

/-- The source behind so many further words. -/
def ahead (r : RandomSource) (count : Nat) : RandomSource := { r with drawn := r.drawn + count }

@[simp] theorem ahead_zero (r : RandomSource) : r.ahead 0 = r := rfl

theorem ahead_ahead (r : RandomSource) (first later : Nat) :
    (r.ahead first).ahead later = r.ahead (first + later) := by
  unfold ahead
  rw [Nat.add_assoc]

theorem ahead_injective (r : RandomSource) : Function.Injective r.ahead := by
  intro first later same
  exact Nat.add_left_cancel (congrArg drawn same)

theorem nextByte_ahead (r : RandomSource) (count : Nat) :
    (r.ahead count).nextByte.1 = (r.words (r.drawn + count)).toUInt8 := rfl

end RandomSource

/-- The mask that the instruction puts over a random byte, if it asks for one. -/
def Instruction.mask? : Instruction → Option UInt8
  | random _ mask => some mask
  | _ => none

theorem Instruction.exists_random_of_mask? {i : Instruction} {mask : UInt8}
    (masked : i.mask? = some mask) : ∃ x, i = .random x mask := by
  cases i with
  | random x _ =>
    cases masked
    exact ⟨x, rfl⟩
  | _ => cases masked

namespace Event

def mask? (e : Event) : Option UInt8 := e.executed?.bind Instruction.mask?

def draws (e : Event) : Bool := e.mask?.isSome

/-- The events that draw, in their order. -/
def drawing (events : List Event) : List Event := events.filter draws

theorem mask?_step (m : Machine) (keypad : Keypad) :
    (Event.mk m (.step keypad)).mask? = match m.state.prospect with
      | .executes i => i.mask?
      | _ => none := by
  rw [mask?, executed?_step]
  cases m.state.prospect <;> rfl

theorem drawing_cons (e : Event) (events : List Event) :
    drawing (e :: events) = if e.draws then e :: drawing events else drawing events :=
  List.filter_cons

theorem register_of_mask? {e : Event} {mask : UInt8} (masked : e.mask? = some mask) :
    ∃ x, e.executed? = some (.random x mask) ∧
      e.after.state.v[x.toNat]? = some (e.before.random.nextByte.1 &&& mask) := by
  obtain ⟨m, op⟩ := e
  obtain ⟨i, executed, asked⟩ := Option.bind_eq_some_iff.1 masked
  obtain ⟨x, rfl⟩ := Instruction.exists_random_of_mask? asked
  refine ⟨x, executed, ?_⟩
  cases op with
  | step keypad =>
    have ready := Machine.executed?_eq_some_iff.1 executed
    obtain ⟨-, decoded, -⟩ := State.executes_iff.1 ready
    have hx : x.toNat < 16 :=
      State.registersExist_of_instruction? decoded x (by simp [Instruction.operands])
    change (m.step keypad).machine.state.v[x.toNat]? = _
    rw [(Machine.step_of_executes ready keypad).2]
    change (m.state.v.put x (m.random.nextByte.1 &&& mask))[x.toNat]? = _
    rw [Registers.put, Registers.set?_of_lt _ _ hx, Option.getD_some]
    simp [hx]
  | _ => cases executed

end Event

theorem Move.random_after {m after : Machine} {op : Operation} (move : Move m op after) :
    after.random = m.random.ahead (if (Event.mk m op).draws then 1 else 0) := by
  unfold Event.draws
  cases move with
  | idles h | fails h =>
    rw [Event.mask?_step, h]
    rfl
  | @executes _ i ready =>
    rw [Event.mask?_step, ready]
    cases i with
    | _ => rfl
  | refuses load _ => obtain ⟨_, rfl⟩ | ⟨_, rfl⟩ := load.eq_load <;> rfl
  | loads accepted =>
    obtain ⟨_, rfl⟩ | ⟨_, rfl⟩ := (Operation.isLoad_of_program? accepted).eq_load <;> rfl
  | _ => rfl

namespace Machine

theorem random_performAll (m : Machine) (ops : List Operation) :
    (m.performAll ops).machine.random =
      m.random.ahead (Event.drawing (m.history ops)).length := by
  induction ops generalizing m with
  | nil => rfl
  | cons op rest ih =>
    rw [history, Event.drawing_cons]
    refine (ih _).trans ?_
    rw [(m.moves_perform op).random_after, RandomSource.ahead_ahead]
    split
    · rw [List.length_cons, Nat.add_comm]
    · rw [Nat.zero_add]

/-- Before the step that draws for the j-th time, counted from zero, j words have been drawn. -/
theorem random_of_draw {m : Machine} {ops : List Operation} {j : Nat} {e : Event}
    (number : (Event.drawing (m.history ops))[j]? = some e) :
    e.before.random = m.random.ahead j := by
  induction ops generalizing m j with
  | nil => cases number
  | cons op rest ih =>
    have next := (m.moves_perform op).random_after
    rw [history, Event.drawing_cons] at number
    split at number
    · next first =>
      rw [if_pos first] at next
      cases j with
      | zero =>
        cases number
        rfl
      | succ j => rw [ih number, next, RandomSource.ahead_ahead, Nat.add_comm]
    · next other =>
      rw [if_neg other] at next
      rw [ih number, next, RandomSource.ahead_zero]

end Machine

end Chip8
