import Mathlib.Data.List.DropRight
import Chip8.Machine.Operation
import Chip8.Proofs.Execution.Step

namespace Chip8

/-- An operation and the machine that it is performed on. -/
structure Event where
  before : Machine
  operation : Operation

namespace Event

def answer (e : Event) : Answer := (e.before.perform e.operation).result

def after (e : Event) : Machine := (e.before.perform e.operation).machine

/-- The instruction that the event executes, if it is a step that executes one. -/
def executed? (e : Event) : Option Instruction :=
  match e.operation with
  | .step keypad => e.before.executed? keypad
  | _ => none

theorem executed?_step (m : Machine) (keypad : Keypad) :
    (Event.mk m (.step keypad)).executed? = match m.state.prospect with
      | .executes i => some i
      | _ => none :=
  m.executed?_eq keypad

def effect (e : Event) : Effect :=
  match e.answer with
  | .stepped (.ok effect) => effect
  | _ => .none

theorem effect_eq (e : Event) : e.effect = (e.executed?.map Instruction.effect).getD .none := by
  obtain ⟨m, op⟩ := e
  cases op with
  | step keypad =>
    have answer : (Event.mk m (.step keypad)).answer = .stepped (m.step keypad).result := rfl
    rw [effect, answer, executed?_step]
    cases h : m.state.prospect with
    | idle => simp [Machine.step_of_idle h]
    | fails fault => simp [Machine.step_of_fails h]
    | executes i => simp [Machine.step_of_executes h]
  | _ => rfl

def isReset (e : Event) : Bool :=
  match e.operation with
  | .reset => true
  | _ => false

theorem isReset_eq_false {m : Machine} {op : Operation} (kept : op ≠ .reset) :
    (Event.mk m op).isReset = false := by
  cases op with
  | reset => exact absurd rfl kept
  | _ => rfl

/-- The events behind the last reset; all of them if there is none. -/
def sinceReset (events : List Event) : List Event := events.rtakeWhile fun e => !e.isReset

theorem sinceReset_concat (events : List Event) (e : Event) :
    sinceReset (events ++ [e]) = if !e.isReset then sinceReset events ++ [e] else [] :=
  List.rtakeWhile_concat ..

/-- What the last of the events gives that give something. -/
def last? {α : Type} (f : Event → Option α) (events : List Event) : Option α :=
  (events.filterMap f).getLast?

theorem last?_concat {α : Type} (f : Event → Option α) (events : List Event) (e : Event) :
    last? f (events ++ [e]) = (f e).or (last? f events) := by
  unfold last?
  rw [List.filterMap_append, List.getLast?_append]
  cases h : f e <;> simp [h]

end Event

namespace Operation

def IsLoad : Operation → Prop
  | loadProgram _ | loadFrom _ => True
  | _ => False

/-- The program that the operation puts into memory, if it is one that loads and can. -/
def program? : Operation → Option (List UInt8)
  | loadProgram program | loadFrom ⟨program, none⟩ =>
    if program.length ≤ programCapacity then some program else none
  | _ => none

theorem IsLoad.eq_load {op : Operation} (load : op.IsLoad) :
    (∃ program, op = .loadProgram program) ∨ ∃ reader, op = .loadFrom reader := by
  cases op with
  | loadProgram program => exact .inl ⟨program, rfl⟩
  | loadFrom reader => exact .inr ⟨reader, rfl⟩
  | _ => exact load.elim

theorem isLoad_of_program? {op : Operation} {program : List UInt8}
    (h : op.program? = some program) : op.IsLoad := by
  cases op with
  | loadProgram _ | loadFrom _ => trivial
  | _ => cases h

end Operation

/-- What an operation can make of a machine. -/
inductive Move (m : Machine) : Operation → Machine → Prop where
  | idles {keypad : Keypad} (idle : m.state.prospect = .idle) : Move m (.step keypad) m
  | fails {keypad : Keypad} {fault : Fault} (failing : m.state.prospect = .fails fault) :
    Move m (.step keypad) m
  | executes {keypad : Keypad} {i : Instruction} (ready : m.state.prospect = .executes i) :
    Move m (.step keypad) (i.outcome keypad m.advance)
  | ignores {key : UInt8} (running : m.state.waiting = none) : Move m (.provideKey key) m
  | delivers {key x : UInt8} (waiting : m.state.waiting = some x) :
    Move m (.provideKey key)
      (m.setState { m.state with v := m.state.v.put x (key % 16), waiting := none })
  | ticks : Move m .tick (m.setState { m.state with timers := m.state.timers.tick.1 })
  | refuses {op : Operation} (load : op.IsLoad) (refused : op.program? = none) : Move m op m
  | loads {op : Operation} {program : List UInt8} (accepted : op.program? = some program) :
    Move m op (m.setState { m.state with
      memory := ⟨Memory.overwrite m.state.memory.bytes programStart program⟩ })
  | resets : Move m .reset (m.setState (.initial m.config.stackDepth))
  | shows : Move m .takeFrame (m.setState { m.state with redraw := false })

namespace Machine

theorem move_step (m : Machine) (keypad : Keypad) :
    Move m (.step keypad) (m.step keypad).machine := by
  cases h : m.state.prospect with
  | idle =>
    rw [(step_of_idle h keypad).2]
    exact .idles h
  | fails fault =>
    rw [(step_of_fails h keypad).2]
    exact .fails h
  | executes i =>
    rw [(step_of_executes h keypad).2]
    exact .executes h

theorem move_provideKey (m : Machine) (key : UInt8) :
    Move m (.provideKey key) (m.provideKey key).machine := by
  unfold provideKey
  cases h : m.state.waiting with
  | none => exact .ignores h
  | some x => exact .delivers h

theorem fits_program_iff (length : Nat) :
    Memory.Fits programStart length ↔ length ≤ programCapacity := by
  unfold Memory.Fits programStart programCapacity
  omega

theorem loadProgram_eq (m : Machine) (program : List UInt8) :
    m.loadProgram program =
      if program.length ≤ programCapacity then
        ⟨.ok (), m.setState { m.state with
          memory := ⟨Memory.overwrite m.state.memory.bytes programStart program⟩ },
          [.loaded program.length]⟩
      else ⟨.error (.programTooLarge program.length programCapacity), m, []⟩ := by
  unfold loadProgram
  by_cases short : program.length ≤ programCapacity
  · rw [if_neg (by omega), if_pos short, Memory.load, if_pos ((fits_program_iff _).2 short)]
  · rw [if_pos (by omega), if_neg short]

theorem move_loadProgram (m : Machine) (program : List UInt8) :
    Move m (.loadProgram program) (m.loadProgram program).machine := by
  rw [loadProgram_eq]
  by_cases short : program.length ≤ programCapacity
  · rw [if_pos short]
    exact .loads (if_pos short)
  · rw [if_neg short]
    exact .refuses trivial (if_neg short)

theorem move_loadFrom (m : Machine) (reader : Reader) :
    Move m (.loadFrom reader) (m.loadFrom reader).machine := by
  obtain ⟨program, failure⟩ := reader
  cases failure with
  | some message => exact .refuses trivial rfl
  | none =>
    rw [loadFrom, loadProgram_eq]
    by_cases short : program.length ≤ programCapacity
    · rw [if_pos short]
      exact .loads (if_pos short)
    · rw [if_neg short]
      exact .refuses trivial (if_neg short)

theorem takeFrame_eq (m : Machine) :
    m.takeFrame = ⟨if m.state.redraw then some m.screen else none,
      m.setState { m.state with redraw := false }, []⟩ := by
  unfold takeFrame
  cases h : m.state.redraw with
  | true => rfl
  | false =>
    have same : m.setState { m.state with redraw := false } = m := by
      rw [← h]
      rfl
    rw [same]
    rfl

theorem move_takeFrame (m : Machine) : Move m .takeFrame m.takeFrame.machine := by
  rw [takeFrame_eq]
  exact .shows

theorem moves_perform (m : Machine) (op : Operation) : Move m op (m.perform op).machine := by
  cases op with
  | step keypad => exact m.move_step keypad
  | provideKey key => exact m.move_provideKey key
  | tick => exact .ticks
  | loadProgram program => exact m.move_loadProgram program
  | loadFrom reader => exact m.move_loadFrom reader
  | reset => exact .resets
  | takeFrame => exact m.move_takeFrame

def history (m : Machine) : List Operation → List Event
  | [] => []
  | op :: rest => ⟨m, op⟩ :: (m.perform op).machine.history rest

theorem history_append (m : Machine) (first later : List Operation) :
    m.history (first ++ later) =
      m.history first ++ (m.performAll first).machine.history later := by
  induction first generalizing m with
  | nil => rfl
  | cons op rest ih => exact congrArg (_ :: ·) (ih _)

theorem operation_mem_of_history {m : Machine} {ops : List Operation} {e : Event}
    (mem : e ∈ m.history ops) : e.operation ∈ ops := by
  induction ops generalizing m with
  | nil => cases mem
  | cons op rest ih =>
    rcases List.mem_cons.1 mem with rfl | later
    · exact List.mem_cons_self ..
    · exact List.mem_cons_of_mem _ (ih later)

theorem history_take (m : Machine) (ops : List Operation) (n : Nat) :
    (m.history ops).take n = m.history (ops.take n) := by
  induction ops generalizing m n with
  | nil => simp [history]
  | cons op rest ih =>
    cases n with
    | zero => rfl
    | succ n => simp [history, ih]

theorem result_performAll (m : Machine) (ops : List Operation) :
    (m.performAll ops).result = (m.history ops).map Event.answer := by
  induction ops generalizing m with
  | nil => rfl
  | cons op rest ih => exact congrArg (_ :: ·) (ih _)

theorem machine_performAll_concat (m : Machine) (ops : List Operation) (op : Operation) :
    (m.performAll (ops ++ [op])).machine = ((m.performAll ops).machine.perform op).machine := by
  rw [performAll_append]
  rfl

theorem history_concat (m : Machine) (ops : List Operation) (op : Operation) :
    m.history (ops ++ [op]) = m.history ops ++ [⟨(m.performAll ops).machine, op⟩] :=
  history_append ..

theorem getElem?_history (m : Machine) (ops : List Operation) (n : Nat) :
    (m.history ops)[n]? =
      ops[n]?.map fun op => ⟨(m.performAll (ops.take n)).machine, op⟩ := by
  induction ops generalizing m n with
  | nil => rfl
  | cons op rest ih =>
    cases n with
    | zero => rfl
    | succ n => exact ih _ n

/-- What operations of a kind keep is kept by a run of them. -/
theorem performAll_keeps {I : Machine → Prop} {allowed : Operation → Prop}
    (keeps : ∀ m op, allowed op → I m → I (m.perform op).machine)
    {m : Machine} (hm : I m) (ops : List Operation) (hops : ∀ op ∈ ops, allowed op) :
    I (m.performAll ops).machine := by
  induction ops generalizing m with
  | nil => exact hm
  | cons op rest ih =>
    have first : I (m.perform op).machine := keeps m op (hops op (List.mem_cons_self ..)) hm
    exact ih first fun op' h => hops op' (List.mem_cons_of_mem _ h)

end Machine

end Chip8
