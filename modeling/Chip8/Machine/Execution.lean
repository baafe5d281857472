import Chip8.Isa.Decode
import Chip8.Isa.Effect
import Chip8.Machine.MicroOp

namespace Chip8

namespace MicroOp

/-- Vx becomes a minus b, and the flag tells whether a was the larger. -/
def subtract (x a b : UInt8) : MicroOp Unit := do
  setRegister x (a - b)
  setFlag (b < a)

/-- The flag takes the bit that a shift pushes out, then Vx takes the rest, so that VF shifted
keeps the rest. -/
def shift (x : UInt8) (out : Bool) (rest : UInt8) : MicroOp Unit := do
  setFlag out
  setRegister x rest

def drawSprite (x y rows : UInt8) : MicroOp Unit := do
  let sprite ← sliceAtIndex rows.toNat
  let column ← register x
  let row ← register y
  update fun s =>
    let drawn := s.screen.draw column.toNat row.toNat sprite
    { s.setFlag drawn.2 with screen := drawn.1, redraw := true }

end MicroOp

namespace Instruction

open MicroOp

def decimalDigits (value : UInt8) : List UInt8 := [value / 100 % 10, value / 10 % 10, value % 10]

/-- The changes that the instruction makes. The program counter already points behind it: jumps
replace it and skips add to it. -/
def run (keypad : Keypad) : Instruction → MicroOp Unit
  | clear => update fun s => { s.blankScreen with redraw := true }
  | ret => do
    let (address, stack) ← attempt (← state).stack.pop
    update fun s => { s with stack := stack, pc := address }
  | sys _ => pure ()
  | jump address => jumpTo address
  | call address => do
    let s ← state
    let stack ← attempt (s.stack.push s.pc)
    update fun s => { s with stack := stack, pc := address }
  | skipEqByte x value => do skipIf ((← register x) == value)
  | skipNeByte x value => do skipIf ((← register x) != value)
  | skipEq x y => do skipIf ((← register x) == (← register y))
  | skipNe x y => do skipIf ((← register x) != (← register y))
  | setByte x value => setRegister x value
  | addByte x value => do setRegister x ((← register x) + value)
  | copy x y => do setRegister x (← register y)
  | or x y => do setRegister x ((← register x) ||| (← register y))
  | and x y => do setRegister x ((← register x) &&& (← register y))
  | xor x y => do setRegister x ((← register x) ^^^ (← register y))
  | add x y => do
    let a ← register x
    let b ← register y
    setRegister x (a + b)
    setFlag (256 ≤ a.toNat + b.toNat)
  | sub x y => do subtract x (← register x) (← register y)
  | subFrom x y => do
    let a ← register x
    let b ← register y
    subtract x b a
  | shiftRight x => do
    let a ← register x
    shift x (a % 2 == 1) (a / 2)
  | shiftLeft x => do
    let a ← register x
    shift x (128 ≤ a) (a + a)
  | setIndex address => MicroOp.setIndex address
  | jumpOffset address => do jumpTo ((← jumpBase) + address)
  | random x mask => do setRegister x ((← randomByte) &&& mask)
  | draw x y rows => drawSprite x y rows
  | skipKeyDown x => do skipIf (keypad ((← register x) % 16))
  | skipKeyUp x => do skipIf (!keypad ((← register x) % 16))
  | readDelay x => do setRegister x (← state).timers.delay
  | awaitKey x => update fun s => { s with waiting := some x }
  | setDelay x => do
    let value ← register x
    update fun s => { s with timers := { s.timers with delay := value } }
  | setSound x => do
    let value ← register x
    update fun s => { s with timers := { s.timers with sound := value } }
  | addIndex x => do
    let value ← register x
    update fun s => { s with i := s.i + value.toUInt16 }
  | glyph x => do MicroOp.setIndex (Font.address (← register x))
  | decimal x => do loadAtIndex (decimalDigits (← register x))
  | store x => do loadAtIndex (← registersUpTo x)
  | load x => do setRegistersUpTo x (← sliceAtIndex (x.toNat + 1))

def execute (keypad : Keypad) (i : Instruction) : MicroOp Effect := do
  i.run keypad
  return i.effect

theorem execute_run (keypad : Keypad) (i : Instruction) (m : Machine) :
    i.execute keypad m = match i.run keypad m with
      | .ok _ after => .ok i.effect after
      | .error fault after => .error fault after := by
  unfold execute
  rw [bind_run]
  cases i.run keypad m <;> rfl

end Instruction

namespace Opcode

open MicroOp

/-- Decode and execute a word as if it had been fetched. The program counter moves behind it first
and comes back if the instruction fails. -/
def execute (keypad : Keypad) (op : Opcode) : MicroOp Effect := do
  let i ← attempt op.decode
  let pc := (← state).pc
  jumpTo (pc + 2)
  try i.execute keypad
  catch fault =>
    jumpTo pc
    throw fault

theorem execute_run (keypad : Keypad) (op : Opcode) (m : Machine) :
    op.execute keypad m = match op.decode with
      | .error fault => .error fault m
      | .ok i =>
        match i.execute keypad { m with state := { m.state with pc := m.state.pc + 2 } } with
        | .ok effect after => .ok effect after
        | .error fault after =>
          .error fault { after with state := { after.state with pc := m.state.pc } } := by
  unfold execute
  rw [bind_run, attempt_run]
  cases op.decode with
  | error fault => rfl
  | ok i =>
    dsimp only
    rw [bind_run, state_run]
    dsimp only
    rw [bind_run, jumpTo, update_run]
    show EStateM.tryCatch (i.execute keypad) _ _ = _
    unfold EStateM.tryCatch
    dsimp only
    cases i.execute keypad { m with state := { m.state with pc := m.state.pc + 2 } } <;> rfl

end Opcode

end Chip8
