import Chip8.Machine.Operation
import Chip8.Proofs.Safety.FrameBuffer

namespace Chip8

/-- A machine whose screen is a frame buffer. The screen of its state is not used and stays
blank. -/
structure ByteMachine where
  rest : Machine
  frame : FrameBuffer

def Machine.onBytes (m : Machine) : ByteMachine :=
  ⟨{ m with state := m.state.blankScreen }, m.state.screen.bytes⟩

/-- An operation of the machine on bytes: nothing if it panics, else an answer or a fault and the
machine behind it. -/
def Guarded (α : Type) : Type := ByteMachine → Option (EStateM.Result Fault ByteMachine α)

namespace Guarded

variable {α β : Type}

instance : Monad Guarded where
  pure a := fun b => some (.ok a b)
  bind first next := fun b =>
    match first b with
    | none => none
    | some (.ok a after) => next a after
    | some (.error fault after) => some (.error fault after)

/-- Go on behind a fault. There is no going on behind a panic. -/
def recover (op : Guarded α) (handle : Fault → Guarded α) : Guarded α := fun b =>
  match op b with
  | some (.error fault after) => handle fault after
  | result => result

instance : MonadExceptOf Fault Guarded where
  throw fault := fun b => some (.error fault b)
  tryCatch := recover

def check (value : Option α) : Guarded α := fun b => value.map (.ok · b)

def attempt (value : Option (Except Fault α)) : Guarded α := do
  match ← check value with
  | .ok a => pure a
  | .error fault => throw fault

/-- Do what does not concern the screen; to name a register that does not exist is a panic. -/
def lift (op : MicroOp α) : Guarded α := fun b =>
  match op b.rest with
  | .ok a after => some (.ok a ⟨after, b.frame⟩)
  | .error (.noSuchRegister _) _ => none
  | .error fault after => some (.error fault ⟨after, b.frame⟩)

def frame : Guarded FrameBuffer := fun b => some (.ok b.frame b)

def setFrame (frame : FrameBuffer) : Guarded Unit :=
  fun b => some (.ok () { b with frame := frame })

def sliceAtIndex (length : Nat) : Guarded (List UInt8) := do
  let s ← lift MicroOp.state
  attempt (s.memory.slice? s.i.toNat length)

def loadAtIndex (data : List UInt8) : Guarded Unit := do
  let s ← lift MicroOp.state
  let memory ← attempt (s.memory.load? s.i.toNat data)
  lift (MicroOp.update fun s => { s with memory := memory })

def drawSprite (x y rows : UInt8) : Guarded Unit := do
  let sprite ← sliceAtIndex rows.toNat
  let column ← lift (MicroOp.register x)
  let row ← lift (MicroOp.register y)
  let drawn ← check ((← frame).drawRows? false column.toNat row.toNat 0 sprite)
  setFrame drawn.1
  lift (MicroOp.update fun s => { s.setFlag drawn.2 with redraw := true })

def glyphAddress (value : UInt8) : Option UInt16 := do
  let distance ← Checked.mul 0x10000 value.toNat Font.glyphSize
  return UInt16.ofNat (← Checked.add 0x10000 Font.base distance)

def run (keypad : Keypad) : Instruction → Guarded Unit
  | .clear => do
    setFrame .blank
    lift (MicroOp.update fun s => { s with redraw := true })
  | .draw x y rows => drawSprite x y rows
  | .glyph x => do
    let value ← lift (MicroOp.register x)
    lift (MicroOp.setIndex (← check (glyphAddress value)))
  | .decimal x => do
    let value ← lift (MicroOp.register x)
    loadAtIndex (Instruction.decimalDigits value)
  | .store x => do
    let count ← check (Checked.add sizeBound x.toNat 1)
    let s ← lift MicroOp.state
    loadAtIndex (← check (Checked.range s.v.toList 0 count))
  | .load x => do
    let count ← check (Checked.add sizeBound x.toNat 1)
    let data ← sliceAtIndex count
    let s ← lift MicroOp.state
    let v ← check (Checked.copy s.v 0 count data)
    lift (MicroOp.update fun s => { s with v := v })
  | i => lift (i.run keypad)

def execute (keypad : Keypad) (i : Instruction) : Guarded Effect := do
  run keypad i
  return i.effect

def executeWord (keypad : Keypad) (op : Opcode) : Guarded Effect := do
  let i ← attempt (some op.decode)
  let pc := (← lift MicroOp.state).pc
  lift (MicroOp.jumpTo (pc + 2))
  try execute keypad i
  catch fault =>
    lift (MicroOp.jumpTo pc)
    throw fault

end Guarded

inductive ByteAnswer where
  | plain (answer : Answer)
  | frame (frame : Option FrameBuffer)

def Answer.onBytes : Answer → ByteAnswer
  | .frame screen => .frame (screen.map Screen.bytes)
  | answer => .plain answer

namespace ByteMachine

def setState (b : ByteMachine) (s : State) : ByteMachine := { b with rest := b.rest.setState s }

def initial (stackDepth : Nat) : Option State := do
  let stack ← Checked.allocate stackDepth
  let stop ← Checked.add sizeBound Font.base Font.bytes.length
  let bytes ← Checked.copy Memory.blank.bytes Font.base stop Font.bytes
  return { State.initial stackDepth with stack := stack, memory := ⟨bytes⟩ }

def start (config : Config) (random : RandomSource) : Option ByteMachine := do
  return ⟨⟨← initial config.stackDepth, config, random⟩, .blank⟩

def step (b : ByteMachine) (keypad : Keypad) : Option (Except Fault Effect × ByteMachine) :=
  match b.rest.state.waiting with
  | some _ => some (.ok .none, b)
  | none => do
    match ← b.rest.state.memory.readWord? b.rest.state.pc.toNat with
    | .error fault => return (.error fault, b)
    | .ok word =>
      match ← Guarded.executeWord keypad ⟨word⟩ b with
      | .ok effect after => return (.ok effect, after)
      | .error fault after => return (.error fault, after)

def provideKey (b : ByteMachine) (key : UInt8) : Option (Bool × ByteMachine) :=
  match b.rest.state.waiting with
  | none => some (false, b)
  | some x => do
    let v ← b.rest.state.v.set? x (key % 16)
    return (true, b.setState { b.rest.state with v := v, waiting := none })

def countDown (t : UInt8) : Option UInt8 := return UInt8.ofNat (← Checked.sub t.toNat 1)

def tickDelay (t : UInt8) : Option UInt8 := if 0 < t then countDown t else some t

def tickSound (t : UInt8) : Option (TimerEvent × UInt8) :=
  if t = 0 then some (.none, t)
  else if t = 1 then some (.beep, 0)
  else (countDown t).map (Prod.mk .none)

def tick (b : ByteMachine) : Option (TimerEvent × ByteMachine) := do
  let delay ← tickDelay b.rest.state.timers.delay
  let (event, sound) ← tickSound b.rest.state.timers.sound
  return (event, b.setState { b.rest.state with timers := ⟨delay, sound⟩ })

def loadProgram (b : ByteMachine) (program : List UInt8) :
    Option (Except Fault Unit × ByteMachine) := do
  let room ← Checked.sub memorySize programStart
  if room < program.length then return (.error (.programTooLarge program.length room), b)
  match ← b.rest.state.memory.load? programStart program with
  | .error fault => return (.error fault, b)
  | .ok memory => return (.ok (), b.setState { b.rest.state with memory := memory })

def loadFrom (b : ByteMachine) (reader : Reader) : Option (Except Fault Unit × ByteMachine) :=
  match reader.failure with
  | some message => some (.error (.unreadable message), b)
  | none => b.loadProgram reader.bytes

def reset (b : ByteMachine) : Option ByteMachine := do
  return ⟨b.rest.setState (← initial b.rest.config.stackDepth), .blank⟩

def takeFrame (b : ByteMachine) : Option FrameBuffer × ByteMachine :=
  if b.rest.state.redraw then
    (some b.frame, b.setState { b.rest.state with redraw := false })
  else (none, b)

def perform (b : ByteMachine) : Operation → Option (ByteAnswer × ByteMachine)
  | .step keypad => (b.step keypad).map (Prod.map (.plain ∘ .stepped) id)
  | .provideKey key => (b.provideKey key).map (Prod.map (.plain ∘ .delivered) id)
  | .tick => b.tick.map (Prod.map (.plain ∘ .ticked) id)
  | .loadProgram program => (b.loadProgram program).map (Prod.map (.plain ∘ .loaded) id)
  | .loadFrom reader => (b.loadFrom reader).map (Prod.map (.plain ∘ .loaded) id)
  | .reset => b.reset.map (.plain .wasReset, ·)
  | .takeFrame => some (Prod.map .frame id b.takeFrame)

def performAll (b : ByteMachine) : List Operation → Option (List ByteAnswer × ByteMachine)
  | [] => some ([], b)
  | op :: rest => do
    let (answer, after) ← b.perform op
    let (answers, last) ← after.performAll rest
    return (answer :: answers, last)

def run (config : Config) (random : RandomSource) (ops : List Operation) :
    Option (List ByteAnswer × ByteMachine) := do
  (← start config random).performAll ops

end ByteMachine

end Chip8
