import Chip8.Hardware.Keypad
import Chip8.Machine.Basic

namespace Chip8

/-- A small operation on a machine. What it has changed before a fault stays changed, so a failing
instruction leaves no trace only if it checks before it writes. -/
abbrev MicroOp := EStateM Fault Machine

namespace MicroOp

def attempt {α : Type} : Except Fault α → MicroOp α
  | .ok a => pure a
  | .error fault => throw fault

/-- Go on with a register's content, or stop because there is no such register. -/
def named {α : Type} (x : UInt8) : Option α → MicroOp α
  | some a => pure a
  | none => throw (.noSuchRegister x)

def state : MicroOp State := return (← get).state

def update (f : State → State) : MicroOp Unit := modify fun m => { m with state := f m.state }

def register (x : UInt8) : MicroOp UInt8 := do named x ((← state).v.get? x)

def setRegister (x value : UInt8) : MicroOp Unit := do
  let v ← named x ((← state).v.set? x value)
  update fun s => { s with v := v }

def setFlag (on : Bool) : MicroOp Unit := update (·.setFlag on)

def registersUpTo (x : UInt8) : MicroOp (List UInt8) := do named x ((← state).v.upTo? x)

def setRegistersUpTo (x : UInt8) (values : List UInt8) : MicroOp Unit := do
  let v ← named x ((← state).v.setUpTo? x values)
  update fun s => { s with v := v }

def jumpTo (address : UInt16) : MicroOp Unit := update fun s => { s with pc := address }

def skipIf (condition : Bool) : MicroOp Unit :=
  update fun s => if condition then { s with pc := s.pc + 2 } else s

def setIndex (address : UInt16) : MicroOp Unit := update fun s => { s with i := address }

def sliceAtIndex (length : Nat) : MicroOp (List UInt8) := do
  let s ← state
  attempt (s.memory.slice s.i.toNat length)

def loadAtIndex (data : List UInt8) : MicroOp Unit := do
  let s ← state
  let memory ← attempt (s.memory.load s.i.toNat data)
  update fun s => { s with memory := memory }

def randomByte : MicroOp UInt8 := do
  let m ← get
  set { m with random := m.random.nextByte.2 }
  return m.random.nextByte.1

def jumpBase : MicroOp UInt16 := do
  let m ← get
  return m.jumpOrigin

theorem bind_run {α β : Type} (first : MicroOp α) (next : α → MicroOp β) (m : Machine) :
    (first >>= next) m = match first m with
      | .ok a after => next a after
      | .error fault after => .error fault after := by
  show EStateM.bind first next m = _
  unfold EStateM.bind
  cases first m <;> rfl

theorem attempt_run {α : Type} (r : Except Fault α) (m : Machine) :
    attempt r m = match r with
      | .ok a => .ok a m
      | .error fault => .error fault m := by
  cases r <;> rfl

theorem named_run {α : Type} (x : UInt8) (r : Option α) (m : Machine) :
    named x r m = match r with
      | some a => .ok a m
      | none => .error (.noSuchRegister x) m := by
  cases r <;> rfl

theorem state_run (m : Machine) : state m = .ok m.state m := rfl

theorem update_run (f : State → State) (m : Machine) :
    update f m = .ok () { m with state := f m.state } := rfl

theorem register_run (x : UInt8) (m : Machine) :
    register x m = named x (m.state.v.get? x) m := rfl

theorem setRegister_run (x value : UInt8) (m : Machine) :
    setRegister x value m = match m.state.v.set? x value with
      | some v => .ok () { m with state := { m.state with v := v } }
      | none => .error (.noSuchRegister x) m := by
  unfold setRegister
  rw [bind_run, state_run]
  dsimp only
  rw [bind_run, named_run]
  cases m.state.v.set? x value <;> rfl

theorem sliceAtIndex_run (length : Nat) (m : Machine) :
    sliceAtIndex length m = attempt (m.state.memory.slice m.state.i.toNat length) m := rfl

theorem loadAtIndex_run (data : List UInt8) (m : Machine) :
    loadAtIndex data m = match m.state.memory.load m.state.i.toNat data with
      | .ok memory => .ok () { m with state := { m.state with memory := memory } }
      | .error fault => .error fault m := by
  unfold loadAtIndex
  rw [bind_run, state_run]
  dsimp only
  rw [bind_run, attempt_run]
  cases m.state.memory.load m.state.i.toNat data <;> rfl

theorem randomByte_run (m : Machine) :
    randomByte m = .ok m.random.nextByte.1 { m with random := m.random.nextByte.2 } := rfl

theorem jumpBase_run (m : Machine) : jumpBase m = .ok m.jumpOrigin m := rfl

end MicroOp

end Chip8
