import Chip8.Isa.Mnemonic
import Chip8.Machine.Execution

namespace Chip8

namespace Registers

/-- The content of a register; zero if there is no such register. -/
def value (v : Registers) (x : UInt8) : UInt8 := (v.get? x).getD 0

def put (v : Registers) (x value : UInt8) : Registers := (v.set? x value).getD v

def upTo (v : Registers) (x : UInt8) : List UInt8 := (v.upTo? x).getD []

def putUpTo (v : Registers) (x : UInt8) (values : List UInt8) : Registers :=
  (v.setUpTo? x values).getD v

theorem get?_eq_value (v : Registers) {x : UInt8} (h : x.toNat < 16) :
    v.get? x = some (v.value x) := by
  rw [value, get?_of_lt v h, Option.getD_some]

theorem set?_eq_put (v : Registers) {x : UInt8} (value : UInt8) (h : x.toNat < 16) :
    v.set? x value = some (v.put x value) := by
  rw [put, set?_of_lt v value h, Option.getD_some]

theorem value_put (v : Registers) {x : UInt8} (a r : UInt8) (h : x.toNat < 16) :
    (v.put x a).value r = if r = x then a else v.value r := by
  rw [put, set?_of_lt v a h, Option.getD_some, value, get?, Vector.getElem?_set]
  by_cases same : r = x
  · simp [same]
  · have other : x.toNat ≠ r.toNat := fun number => same (UInt8.toNat_inj.1 number).symm
    rw [if_neg other, if_neg same]
    rfl

theorem value_setFlag_of_ne (v : Registers) (on : Bool) {r : UInt8} (h : r ≠ 0xF) :
    (v.setFlag on).value r = v.value r := by
  have other : flagRegister ≠ r.toNat := fun number => h (UInt8.toNat_inj.1 number.symm)
  rw [value, get?, setFlag, Vector.getElem?_set_ne _ other]
  rfl

theorem flag_eq_value (v : Registers) : v.flag = v.value 0xF := rfl

theorem upTo?_eq_upTo (v : Registers) {x : UInt8} (h : x.toNat < 16) :
    v.upTo? x = some (v.upTo x) := by
  rw [upTo, upTo?, if_pos h, Option.getD_some]

theorem setUpTo?_eq_putUpTo (v : Registers) {x : UInt8} (values : List UInt8) (h : x.toNat < 16) :
    v.setUpTo? x values = some (v.putUpTo x values) := by
  rw [putUpTo, setUpTo?, if_pos h, Option.getD_some]

theorem length_upTo (v : Registers) {x : UInt8} (h : x.toNat < 16) :
    (v.upTo x).length = x.toNat + 1 := by
  rw [upTo, upTo?, if_pos h, Option.getD_some, List.length_take, Vector.length_toList]
  omega

end Registers

namespace State

/-- The state as an instruction finds it, with the program counter behind the instruction. -/
def advance (s : State) : State := { s with pc := s.pc + 2 }

def bytesAtIndex (s : State) (length : Nat) : List UInt8 :=
  (s.memory.bytes.toList.drop s.i.toNat).take length

/-- The fault of an access to that many bytes from the index on. -/
def accessFault? (s : State) (length : Nat) : Option Fault :=
  if Memory.Fits s.i.toNat length then none else some (Memory.outside s.i.toNat)

/-- The screen and the collision after a sprite of that many rows at column Vx and row Vy. -/
def drawn (s : State) (x y rows : UInt8) : Screen × Bool :=
  s.screen.draw (s.v.value x).toNat (s.v.value y).toNat (s.bytesAtIndex rows.toNat)

theorem accessFault?_eq_none_iff {s : State} {length : Nat} :
    s.accessFault? length = none ↔ Memory.Fits s.i.toNat length := by
  unfold accessFault?
  split
  · next fits => exact iff_of_true rfl fits
  · next outside => exact iff_of_false (Option.some_ne_none _) outside

theorem length_bytesAtIndex (s : State) {length : Nat} (h : s.accessFault? length = none) :
    (s.bytesAtIndex length).length = length := by
  have ends := (accessFault?_eq_none_iff.1 h).2
  rw [bytesAtIndex, List.length_take, List.length_drop, Vector.length_toList]
  omega

theorem getElem?_bytesAtIndex (s : State) {length k : Nat} (hk : k < length) :
    (s.bytesAtIndex length)[k]? = s.memory.bytes[s.i.toNat + k]? := by
  rw [bytesAtIndex, List.getElem?_take, if_pos hk, List.getElem?_drop, Vector.getElem?_toList]

end State

def Machine.advance (m : Machine) : Machine := { m with state := m.state.advance }

namespace Instruction

/-- Every register that the instruction names is one of the sixteen. -/
def RegistersExist (i : Instruction) : Prop := ∀ x, .register x ∈ i.operands → x.toNat < 16

/-- Why the instruction fails on a state, if it does. -/
def fault? (s : State) : Instruction → Option Fault
  | ret => if s.stack.frames = [] then some .stackUnderflow else none
  | call _ =>
    if s.stack.depth < s.stack.capacity then none else some (.stackOverflow s.stack.capacity)
  | draw _ _ rows => s.accessFault? rows.toNat
  | decimal _ => s.accessFault? 3
  | store x | load x => s.accessFault? (x.toNat + 1)
  | _ => none

def skips (keypad : Keypad) (s : State) : Instruction → Bool
  | skipEqByte x value => s.v.value x == value
  | skipNeByte x value => s.v.value x != value
  | skipEq x y => s.v.value x == s.v.value y
  | skipNe x y => s.v.value x != s.v.value y
  | skipKeyDown x => keypad (s.v.value x % 16)
  | skipKeyUp x => !keypad (s.v.value x % 16)
  | _ => false

def pcAfter (keypad : Keypad) (m : Machine) : Instruction → UInt16
  | ret => m.state.stack.frames.getLast?.getD m.state.pc
  | jump address | call address => address
  | jumpOffset address => m.jumpOrigin + address
  | i => if i.skips keypad m.state then m.state.pc + 2 else m.state.pc

def registersAfter (m : Machine) : Instruction → Registers
  | setByte x value => m.state.v.put x value
  | addByte x value => m.state.v.put x (m.state.v.value x + value)
  | copy x y => m.state.v.put x (m.state.v.value y)
  | or x y => m.state.v.put x (m.state.v.value x ||| m.state.v.value y)
  | and x y => m.state.v.put x (m.state.v.value x &&& m.state.v.value y)
  | xor x y => m.state.v.put x (m.state.v.value x ^^^ m.state.v.value y)
  | add x y =>
    (m.state.v.put x (m.state.v.value x + m.state.v.value y)).setFlag
      (256 ≤ (m.state.v.value x).toNat + (m.state.v.value y).toNat)
  | sub x y =>
    (m.state.v.put x (m.state.v.value x - m.state.v.value y)).setFlag
      (m.state.v.value y < m.state.v.value x)
  | subFrom x y =>
    (m.state.v.put x (m.state.v.value y - m.state.v.value x)).setFlag
      (m.state.v.value x < m.state.v.value y)
  | shiftRight x => (m.state.v.setFlag (m.state.v.value x % 2 == 1)).put x (m.state.v.value x / 2)
  | shiftLeft x =>
    (m.state.v.setFlag (128 ≤ m.state.v.value x)).put x (m.state.v.value x + m.state.v.value x)
  | random x mask => m.state.v.put x (m.random.nextByte.1 &&& mask)
  | draw x y rows => m.state.v.setFlag (m.state.drawn x y rows).2
  | readDelay x => m.state.v.put x m.state.timers.delay
  | load x => m.state.v.putUpTo x (m.state.bytesAtIndex (x.toNat + 1))
  | _ => m.state.v

def indexAfter (s : State) : Instruction → UInt16
  | setIndex address => address
  | addIndex x => s.i + (s.v.value x).toUInt16
  | glyph x => Font.address (s.v.value x)
  | _ => s.i

def timersAfter (s : State) : Instruction → Timers
  | setDelay x => { s.timers with delay := s.v.value x }
  | setSound x => { s.timers with sound := s.v.value x }
  | _ => s.timers

def stackAfter (s : State) : Instruction → CallStack
  | ret => { s.stack with frames := s.stack.frames.dropLast }
  | call _ => { s.stack with frames := s.stack.frames ++ [s.pc] }
  | _ => s.stack

def stored (s : State) : Instruction → List UInt8
  | decimal x => decimalDigits (s.v.value x)
  | store x => s.v.upTo x
  | _ => []

def storedLength : Instruction → Nat
  | decimal _ => 3
  | store x => x.toNat + 1
  | _ => 0

def memoryAfter (s : State) (i : Instruction) : Memory :=
  ⟨Memory.overwrite s.memory.bytes s.i.toNat (i.stored s)⟩

def screenAfter (s : State) : Instruction → Screen
  | clear => .blank
  | draw x y rows => (s.drawn x y rows).1
  | _ => s.screen

def redrawAfter (s : State) : Instruction → Bool
  | clear | draw .. => true
  | _ => s.redraw

def waitingAfter (s : State) : Instruction → Option UInt8
  | awaitKey x => some x
  | _ => s.waiting

def randomAfter (m : Machine) : Instruction → RandomSource
  | random .. => m.random.nextByte.2
  | _ => m.random

/-- The machine behind an instruction that does not fail. -/
def outcome (keypad : Keypad) (m : Machine) (i : Instruction) : Machine where
  state :=
    { v := i.registersAfter m
      i := i.indexAfter m.state
      pc := i.pcAfter keypad m
      timers := i.timersAfter m.state
      stack := i.stackAfter m.state
      memory := i.memoryAfter m.state
      screen := i.screenAfter m.state
      redraw := i.redrawAfter m.state
      waiting := i.waitingAfter m.state }
  config := m.config
  random := i.randomAfter m

theorem length_stored {i : Instruction} (h : i.RegistersExist) (s : State) :
    (i.stored s).length = i.storedLength := by
  cases i with
  | store x => exact Registers.length_upTo _ (h x (by simp [operands]))
  | _ => rfl

theorem fault?_ret_eq_none_iff {s : State} : ret.fault? s = none ↔ s.stack.frames ≠ [] := by
  simp [fault?]

theorem fault?_call_eq_none_iff {s : State} {address : UInt16} :
    (call address).fault? s = none ↔ s.stack.depth < s.stack.capacity := by
  simp [fault?]

end Instruction

namespace MicroOp

theorem register_run_of_lt {x : UInt8} (h : x.toNat < 16) (m : Machine) :
    register x m = .ok (m.state.v.value x) m := by
  rw [register_run, Registers.get?_eq_value _ h, named_run]

theorem setRegister_run_of_lt {x : UInt8} (h : x.toNat < 16) (value : UInt8) (m : Machine) :
    setRegister x value m =
      .ok () { m with state := { m.state with v := m.state.v.put x value } } := by
  rw [setRegister_run, Registers.set?_eq_put _ _ h]

theorem registersUpTo_run_of_lt {x : UInt8} (h : x.toNat < 16) (m : Machine) :
    registersUpTo x m = .ok (m.state.v.upTo x) m := by
  unfold registersUpTo
  rw [bind_run, state_run]
  dsimp only
  rw [Registers.upTo?_eq_upTo _ h, named_run]

theorem setRegistersUpTo_run_of_lt {x : UInt8} (h : x.toNat < 16) (values : List UInt8)
    (m : Machine) :
    setRegistersUpTo x values m =
      .ok () { m with state := { m.state with v := m.state.v.putUpTo x values } } := by
  unfold setRegistersUpTo
  rw [bind_run, state_run]
  dsimp only
  rw [bind_run, Registers.setUpTo?_eq_putUpTo _ _ h, named_run]
  rfl

theorem sliceAtIndex_run_eq (length : Nat) (m : Machine) :
    sliceAtIndex length m = match m.state.accessFault? length with
      | some fault => .error fault m
      | none => .ok (m.state.bytesAtIndex length) m := by
  rw [sliceAtIndex_run, attempt_run, Memory.slice, State.accessFault?]
  by_cases fits : Memory.Fits m.state.i.toNat length
  · rw [if_pos fits, if_pos fits]
    rfl
  · rw [if_neg fits, if_neg fits]

theorem loadAtIndex_run_eq (data : List UInt8) (m : Machine) :
    loadAtIndex data m = match m.state.accessFault? data.length with
      | some fault => .error fault m
      | none => .ok () { m with state := { m.state with
          memory := ⟨Memory.overwrite m.state.memory.bytes m.state.i.toNat data⟩ } } := by
  rw [loadAtIndex_run, Memory.load, State.accessFault?]
  by_cases fits : Memory.Fits m.state.i.toNat data.length
  · rw [if_pos fits, if_pos fits]
  · rw [if_neg fits, if_neg fits]

theorem skipIf_run (condition : Bool) (m : Machine) :
    skipIf condition m = .ok () { m with state := { m.state with
      pc := if condition then m.state.pc + 2 else m.state.pc } } := by
  cases condition <;> rfl

end MicroOp

namespace Instruction

open MicroOp

theorem run_eq {i : Instruction} (h : i.RegistersExist) (keypad : Keypad) (m : Machine) :
    i.run keypad m = match i.fault? m.state with
      | some fault => .error fault m
      | none => .ok () (i.outcome keypad m) := by
  cases i with
  | clear => rfl
  | ret =>
    simp only [run, bind_run, state_run, attempt_run, CallStack.pop, fault?]
    by_cases empty : m.state.stack.frames = []
    · simp [empty]
    · obtain ⟨last, hlast⟩ := Option.ne_none_iff_exists'.1 (mt List.getLast?_eq_none_iff.1 empty)
      simp only [hlast, if_neg empty, update_run, outcome, pcAfter, Option.getD_some]
      rfl
  | call address =>
    simp only [run, bind_run, state_run, attempt_run, CallStack.push, fault?]
    by_cases room : m.state.stack.depth < m.state.stack.capacity
    · rw [if_pos room, if_pos room]
      rfl
    · rw [if_neg room, if_neg room]
  | sys _ | jump _ | setIndex _ | awaitKey _ => rfl
  | jumpOffset offset =>
    simp only [run, bind_run, jumpBase_run]
    rfl
  | skipEqByte x _ | skipNeByte x _ | skipKeyDown x | skipKeyUp x =>
    have hx : x.toNat < 16 := h x (by simp [operands])
    simp only [run, bind_run, register_run_of_lt hx, skipIf_run]
    rfl
  | skipEq x y | skipNe x y =>
    have hx : x.toNat < 16 := h x (by simp [operands])
    have hy : y.toNat < 16 := h y (by simp [operands])
    simp only [run, bind_run, register_run_of_lt hx, register_run_of_lt hy, skipIf_run]
    rfl
  | setByte x _ =>
    have hx : x.toNat < 16 := h x (by simp [operands])
    simp only [run, setRegister_run_of_lt hx]
    rfl
  | addByte x _ | readDelay x =>
    have hx : x.toNat < 16 := h x (by simp [operands])
    simp only [run, bind_run, state_run, register_run_of_lt hx, setRegister_run_of_lt hx]
    rfl
  | copy x y | or x y | and x y | xor x y | add x y | sub x y | subFrom x y =>
    have hx : x.toNat < 16 := h x (by simp [operands])
    have hy : y.toNat < 16 := h y (by simp [operands])
    simp only [run, bind_run, register_run_of_lt hx, register_run_of_lt hy, subtract,
      setRegister_run_of_lt hx]
    rfl
  | shiftRight x | shiftLeft x =>
    have hx : x.toNat < 16 := h x (by simp [operands])
    -- the flag is set first, so that VF shifted keeps the rest
    simp only [run, bind_run, register_run_of_lt hx, shift, MicroOp.setFlag, update_run,
      setRegister_run_of_lt hx]
    rfl
  | random x _ =>
    have hx : x.toNat < 16 := h x (by simp [operands])
    simp only [run, bind_run, randomByte_run, setRegister_run_of_lt hx]
    rfl
  | draw x y rows =>
    have hx : x.toNat < 16 := h x (by simp [operands])
    have hy : y.toNat < 16 := h y (by simp [operands])
    -- memory is asked first, so a sprite outside it fails before anything is drawn
    simp only [run, drawSprite, bind_run, sliceAtIndex_run_eq, fault?]
    cases m.state.accessFault? rows.toNat with
    | some fault => rfl
    | none =>
      simp only [register_run_of_lt hx, register_run_of_lt hy, update_run]
      rfl
  | setDelay x | setSound x | addIndex x | glyph x =>
    have hx : x.toNat < 16 := h x (by simp [operands])
    simp only [run, bind_run, register_run_of_lt hx]
    rfl
  | decimal x =>
    have hx : x.toNat < 16 := h x (by simp [operands])
    simp only [run, bind_run, register_run_of_lt hx, loadAtIndex_run_eq]
    rfl
  | store x =>
    have hx : x.toNat < 16 := h x (by simp [operands])
    simp only [run, bind_run, registersUpTo_run_of_lt hx, loadAtIndex_run_eq,
      Registers.length_upTo _ hx]
    rfl
  | load x =>
    have hx : x.toNat < 16 := h x (by simp [operands])
    simp only [run, bind_run, sliceAtIndex_run_eq, fault?]
    cases m.state.accessFault? (x.toNat + 1) with
    | some fault => rfl
    | none =>
      simp only [setRegistersUpTo_run_of_lt hx]
      rfl

end Instruction

end Chip8
