import Chip8.Machine.Execution
import Chip8.Machine.Log

namespace Chip8

/-- What an operation answers, the machine behind it, and what it reported. -/
structure Turn (α : Type) where
  result : α
  machine : Machine
  log : List Record

namespace Machine

def executeFetched (m : Machine) (keypad : Keypad) (op : Opcode) : Turn (Except Fault Effect) :=
  let before := Record.executing m.state.pc op m.state.v m.state.i
  match op.execute keypad m with
  | .ok effect after =>
    ⟨.ok effect, after, before :: (after.state.waiting.map Record.awaitingKey).toList⟩
  | .error fault after => ⟨.error fault, after, [before, .failed op m.state.pc fault]⟩

/-- Execute the opcode at the program counter unless a register waits for a key. -/
def step (m : Machine) (keypad : Keypad) : Turn (Except Fault Effect) :=
  if m.isWaiting then ⟨.ok .none, m, []⟩
  else match m.state.fetch with
    | .ok op => m.executeFetched keypad op
    | .error fault => ⟨.error fault, m, [.fetchFailed m.state.pc fault]⟩

/-- Step until a step fails or the count is used up: the effects in order and the fault. -/
def run (m : Machine) (keypad : Keypad) : Nat → Turn (List Effect × Option Fault)
  | 0 => ⟨([], none), m, []⟩
  | count + 1 =>
    let first := m.step keypad
    match first.result with
    | .error fault => ⟨([], some fault), first.machine, first.log⟩
    | .ok effect =>
      let rest := first.machine.run keypad count
      ⟨(effect :: rest.result.1, rest.result.2), rest.machine, first.log ++ rest.log⟩

end Machine

end Chip8
