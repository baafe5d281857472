import Chip8.Machine.Step

namespace Chip8

/-- A source of a program: the bytes that it gives, and the message it fails with after them. -/
structure Reader where
  bytes : List UInt8
  failure : Option String
  deriving DecidableEq, Repr

namespace Machine

def setState (m : Machine) (s : State) : Machine := { m with state := s }

/-- Back to power-on. The random source goes on where it was, and the program is gone. -/
def reset (m : Machine) : Turn Unit :=
  ⟨(), m.setState (.initial m.config.stackDepth), [.resetting]⟩

def loadProgram (m : Machine) (program : List UInt8) : Turn (Except Fault Unit) :=
  if programCapacity < program.length then
    ⟨.error (.programTooLarge program.length programCapacity), m, []⟩
  else match m.state.memory.load programStart program with
    | .ok memory =>
      ⟨.ok (), m.setState { m.state with memory := memory }, [.loaded program.length]⟩
    | .error fault => ⟨.error fault, m, []⟩

def loadFrom (m : Machine) (reader : Reader) : Turn (Except Fault Unit) :=
  match reader.failure with
  | some message => ⟨.error (.unreadable message), m, []⟩
  | none => m.loadProgram reader.bytes

/-- Deliver a key; false if no register waited for one. -/
def provideKey (m : Machine) (key : UInt8) : Turn Bool :=
  match m.state.waiting with
  | none => ⟨false, m, []⟩
  | some x =>
    let key := key % 16
    let v := (m.state.v.set? x key).getD m.state.v
    ⟨true, m.setState { m.state with v := v, waiting := none }, [.receivedKey x key]⟩

def tick (m : Machine) : Turn TimerEvent :=
  let ticked := m.state.timers.tick
  ⟨ticked.2, m.setState { m.state with timers := ticked.1 }, []⟩

/-- The screen if it is to be shown again; it then counts as shown. -/
def takeFrame (m : Machine) : Turn (Option Screen) :=
  if m.state.redraw then
    ⟨some m.state.screen, m.setState { m.state with redraw := false }, []⟩
  else ⟨none, m, []⟩

def ticks (m : Machine) : Nat → Turn (List TimerEvent)
  | 0 => ⟨[], m, []⟩
  | count + 1 =>
    let first := m.tick
    let rest := first.machine.ticks count
    ⟨first.result :: rest.result, rest.machine, first.log ++ rest.log⟩

end Machine

end Chip8
