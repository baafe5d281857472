import Chip8.Machine.Host

namespace Chip8

inductive Operation where
  | step (keypad : Keypad)
  | provideKey (key : UInt8)
  | tick
  | loadProgram (program : List UInt8)
  | loadFrom (reader : Reader)
  | reset
  | takeFrame

inductive Answer where
  | stepped (result : Except Fault Effect)
  | delivered (accepted : Bool)
  | ticked (event : TimerEvent)
  | loaded (result : Except Fault Unit)
  | wasReset
  | frame (screen : Option Screen)

def Turn.map {α β : Type} (f : α → β) (t : Turn α) : Turn β := ⟨f t.result, t.machine, t.log⟩

namespace Machine

def perform (m : Machine) : Operation → Turn Answer
  | .step keypad => (m.step keypad).map .stepped
  | .provideKey key => (m.provideKey key).map .delivered
  | .tick => m.tick.map .ticked
  | .loadProgram program => (m.loadProgram program).map .loaded
  | .loadFrom reader => (m.loadFrom reader).map .loaded
  | .reset => m.reset.map fun _ => .wasReset
  | .takeFrame => m.takeFrame.map .frame

def performAll (m : Machine) : List Operation → Turn (List Answer)
  | [] => ⟨[], m, []⟩
  | op :: rest =>
    let first := m.perform op
    let later := first.machine.performAll rest
    ⟨first.result :: later.result, later.machine, first.log ++ later.log⟩

/-- What operations can make of a machine at power-on. -/
def Reachable (config : Config) (random : RandomSource) (m : Machine) : Prop :=
  ∃ operations, ((start config random).performAll operations).machine = m

theorem performAll_append (m : Machine) (first later : List Operation) :
    (m.performAll (first ++ later)).machine =
      ((m.performAll first).machine.performAll later).machine := by
  induction first generalizing m with
  | nil => rfl
  | cons op rest ih => exact ih _

end Machine

end Chip8
