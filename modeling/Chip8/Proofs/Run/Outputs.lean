import Chip8.Proofs.Run.Failure
import Chip8.Proofs.Run.Lockstep

namespace Chip8

/-- The answer without what it tells of the tone and the screen. -/
def Answer.inward : Answer → Answer
  | ticked _ => .ticked .none
  | frame _ => .frame none
  | answer => answer

def Machine.withOutputs (m : Machine) (sound : UInt8) (redraw : Bool) : Machine :=
  m.setState { m.state with timers := { m.state.timers with sound := sound }, redraw := redraw }

/-- The machines are equal in everything except the sound timer and the redraw flag. -/
def SameInside (m m' : Machine) : Prop := ∃ sound redraw, m' = m.withOutputs sound redraw

theorem Instruction.sameInside_outcome (i : Instruction) (keypad : Keypad) (m : Machine)
    (sound : UInt8) (redraw : Bool) :
    SameInside (i.outcome keypad m.advance)
      (i.outcome keypad (m.withOutputs sound redraw).advance) := by
  refine ⟨(i.timersAfter (m.withOutputs sound redraw).advance.state).sound,
    i.redrawAfter (m.withOutputs sound redraw).advance.state, ?_⟩
  cases i with
  | _ => rfl

namespace Machine

theorem step_withOutputs (m : Machine) (sound : UInt8) (redraw : Bool) (keypad : Keypad) :
    (m.step keypad).Matches SameInside ((m.withOutputs sound redraw).step keypad) := by
  have core : m.state.SameCore (m.withOutputs sound redraw).state := ⟨rfl, rfl, rfl, rfl, rfl⟩
  refine step_matches core ?_ keypad ⟨sound, redraw, rfl⟩ ?_
  · intro _ i _
    exact i.fault?_congr rfl rfl
  · intro i _
    exact i.sameInside_outcome keypad m sound redraw

theorem provideKey_withOutputs (m : Machine) (sound : UInt8) (redraw : Bool) (key : UInt8) :
    (m.provideKey key).Matches SameInside ((m.withOutputs sound redraw).provideKey key) := by
  apply provideKey_matches
  · rfl
  · exact ⟨sound, redraw, rfl⟩
  · exact fun x _ => ⟨sound, redraw, rfl⟩

theorem perform_withOutputs (m : Machine) (sound : UInt8) (redraw : Bool) (op : Operation) :
    ((m.perform op).map Answer.inward).Matches SameInside
      (((m.withOutputs sound redraw).perform op).map Answer.inward) := by
  cases op with
  | step keypad =>
    exact ((m.step_withOutputs sound redraw keypad).map Answer.stepped).map Answer.inward
  | provideKey key =>
    exact ((m.provideKey_withOutputs sound redraw key).map Answer.delivered).map Answer.inward
  | loadProgram _ | loadFrom _ =>
    apply Turn.Matches.map
    apply load_matches
    · trivial
    · exact ⟨sound, redraw, rfl⟩
    · exact fun program => ⟨sound, redraw, rfl⟩
  | tick => exact ⟨rfl, rfl, Timers.countDown sound, redraw, rfl⟩
  | takeFrame =>
    rw [perform, perform, takeFrame_eq, takeFrame_eq]
    exact ⟨rfl, rfl, sound, false, rfl⟩
  | reset => exact ⟨rfl, rfl, 0, false, rfl⟩

theorem sameInside_performAll {m m' : Machine} (same : SameInside m m') (ops : List Operation) :
    ((m.performAll ops).map (List.map Answer.inward)).Matches SameInside
      ((m'.performAll ops).map (List.map Answer.inward)) := by
  let anything : Event → Prop := fun _ => True
  have keeps : ∀ m m' op, SameInside m m' → anything ⟨m, op⟩ →
      ((m.perform op).map Answer.inward).Matches SameInside
        ((m'.perform op).map Answer.inward) := by
    rintro m _ op ⟨sound, redraw, rfl⟩ -
    exact m.perform_withOutputs sound redraw op
  exact performAll_matches_view Answer.inward keeps same fun _ _ => trivial

/-- Two machines that are equal in everything except the sound timer and the redraw flag answer
alike, but for what ticks and requests for a frame tell of just these, report alike and draw the
same random words at every point of a run, and are again equal in everything except these two. -/
theorem outputs_never_feed_back (m m' : Machine) (same : SameInside m m') (ops : List Operation)
    (n : Nat) :
    let turn := m.performAll (ops.take n)
    let turn' := m'.performAll (ops.take n)
    turn'.result.map Answer.inward = turn.result.map Answer.inward ∧
      turn'.log = turn.log ∧
      turn'.machine.random = turn.machine.random ∧
      SameInside turn.machine turn'.machine := by
  intro turn turn'
  have matched := sameInside_performAll same (ops.take n)
  have inside : SameInside turn.machine turn'.machine := matched.related
  refine ⟨matched.result_eq, matched.log_eq, ?_, inside⟩
  obtain ⟨sound, redraw, after⟩ := inside
  rw [after]
  rfl

/-- A tone in its last tick against a longer one, and no frame due against one that is: the delay
timer is read and sets the tone, in one register and with one log. -/
theorem outputs_never_feed_back_into_the_delay :
    let idle : Keypad := fun _ => false
    let start := Machine.start .standard (.ofWords fun _ => 0)
    let m := start.setState { start.state with timers := ⟨9, 1⟩ }
    let m' := m.withOutputs 200 true
    let ops := [.loadProgram [0xF3, 0x07, 0xF3, 0x18], .tick, .step idle, .takeFrame, .step idle]
    m.tick.result = .beep ∧ m'.tick.result = .none ∧
      m.takeFrame.result = none ∧ m'.takeFrame.result = some m.screen ∧
      (m'.performAll ops).log = (m.performAll ops).log ∧
      (m.performAll ops).machine.state.v.value 3 = 8 ∧
      (m'.performAll ops).machine.state.v.value 3 = 8 := by
  intro idle start m m' ops
  have same : SameInside m m' := ⟨200, true, rfl⟩
  obtain ⟨-, log, -, sound, redraw, after⟩ := outputs_never_feed_back m m' same ops 5
  have register : (m.performAll ops).machine.state.v.value 3 = 8 := by decide +kernel
  refine ⟨rfl, rfl, rfl, rfl, log, register, ?_⟩
  change (m'.performAll (ops.take 5)).machine.state.v.value 3 = 8
  rw [after]
  exact register

end Machine

end Chip8
