import Chip8.Proofs.Run.History

namespace Chip8

namespace Operation

/-- The operations that a waiting machine waits through. -/
def WaitsThrough : Operation → Prop
  | provideKey _ | reset => False
  | _ => True

def IsBetweenSteps : Operation → Prop
  | step _ | reset => False
  | _ => True

end Operation

namespace Instruction

def awaits : Instruction → Bool
  | awaitKey _ => true
  | _ => false

theorem isSome_waitingAfter (i : Instruction) {s : State} (running : s.waiting = none) :
    (i.waitingAfter s).isSome = i.awaits := by
  cases i with
  | awaitKey _ => rfl
  | _ => exact congrArg Option.isSome running

end Instruction

namespace Event

def awaits (e : Event) : Bool := e.effect == .waitForKey

def delivers (e : Event) : Bool :=
  match e.answer with
  | .delivered accepted => accepted
  | _ => false

/-- The event is a reset of a waiting machine. -/
def abandons (e : Event) : Bool := e.isReset && e.before.isWaiting

theorem awaits_eq (e : Event) : e.awaits = e.executed?.any Instruction.awaits := by
  rw [awaits, effect_eq]
  cases e.executed? with
  | none => rfl
  | some i => cases i <;> rfl

end Event

/-- The machine executes nothing until a key is delivered, and then goes on at an address. -/
structure Parked (m : Machine) (x : UInt8) (pc : UInt16) : Prop where
  runState_eq : m.runState = .waitingForKey x
  pc_eq : m.state.pc = pc
  step_eq : ∀ keypad, m.step keypad = ⟨.ok .none, m, []⟩
  tick_changes : ∃ timers, m.tick.machine = m.setState { m.state with timers := timers }
  load_changes : ∀ op : Operation, op.IsLoad →
    ∃ memory, (m.perform op).machine = m.setState { m.state with memory := memory }

/-- The next step of the machine fetches at an address. -/
structure Resumed (m : Machine) (pc : UInt16) : Prop where
  runState_eq : m.runState = .running
  pc_eq : m.state.pc = pc
  step_eq : ∀ keypad, m.step keypad =
    match m.state.memory.readWord pc.toNat with
    | .ok word => m.executeFetched keypad ⟨word⟩
    | .error fault => ⟨.error fault, m, [.fetchFailed pc fault]⟩

namespace Move

variable {m after : Machine} {op : Operation}

theorem keeps_waiting {x : UInt8} (move : Move m op after) (through : op.WaitsThrough)
    (waiting : m.state.waiting = some x) :
    after.state.waiting = some x ∧ after.state.pc = m.state.pc := by
  cases move with
  | executes ready =>
    -- a waiting machine executes nothing
    rw [(State.executes_iff.1 ready).1] at waiting
    cases waiting
  | delivers _ | resets => exact through.elim
  | _ => exact ⟨waiting, rfl⟩

theorem keeps_running (move : Move m op after) (between : op.IsBetweenSteps)
    (running : m.state.waiting = none) :
    after.state.waiting = none ∧ after.state.pc = m.state.pc := by
  cases move with
  | executes _ | resets => exact between.elim
  | delivers _ => exact ⟨rfl, rfl⟩
  | _ => exact ⟨running, rfl⟩

theorem waiting_of_not_awaits (move : Move m op after) (running : m.state.waiting = none)
    (other : (Event.mk m op).awaits = false) : after.state.waiting = none := by
  cases move with
  | @executes _ i ready =>
    rw [Event.awaits_eq, Event.executed?_step, ready] at other
    have parked : (i.waitingAfter m.advance.state).isSome = false :=
      (i.isSome_waitingAfter running).trans other
    exact Option.isNone_iff_eq_none.1 (Option.isSome_eq_false_iff.1 parked)
  | delivers _ | resets => rfl
  | _ => exact running

/-- Waits that are going on or begin at an event end at it or go on behind it. -/
theorem count_awaits (move : Move m op after) :
    (if m.isWaiting then 1 else 0) + (if (Event.mk m op).awaits then 1 else 0) =
      (if (Event.mk m op).delivers then 1 else 0) + (if (Event.mk m op).abandons then 1 else 0) +
        if after.isWaiting then 1 else 0 := by
  rw [Event.awaits_eq]
  cases move with
  | idles h | fails h =>
    rw [Event.executed?_step, h]
    exact Nat.add_comm ..
  | @executes keypad i ready =>
    obtain ⟨running, -, -⟩ := State.executes_iff.1 ready
    have parked : (i.outcome keypad m.advance).isWaiting = i.awaits :=
      i.isSome_waitingAfter running
    rw [Event.executed?_step, ready, parked, Machine.isWaiting, running]
    rfl
  | @ignores key running =>
    have answer : (Event.mk m (.provideKey key)).answer = .delivered false := by
      rw [Event.answer, Machine.perform, Machine.provideKey, running]
      rfl
    rw [Event.delivers, answer]
    exact Nat.add_comm ..
  | @delivers key x waiting =>
    have answer : (Event.mk m (.provideKey key)).answer = .delivered true := by
      rw [Event.answer, Machine.perform, Machine.provideKey, waiting]
      rfl
    rw [Event.delivers, answer, Machine.isWaiting, waiting]
    rfl
  | ticks | shows => exact Nat.add_comm ..
  | refuses load _ => obtain ⟨_, rfl⟩ | ⟨_, rfl⟩ := load.eq_load <;> exact Nat.add_comm ..
  | loads accepted =>
    obtain ⟨_, rfl⟩ | ⟨_, rfl⟩ := (Operation.isLoad_of_program? accepted).eq_load <;>
      exact Nat.add_comm ..
  | resets => exact (Nat.zero_add _).symm

end Move

namespace Machine

variable {m : Machine} {x : UInt8} {pc : UInt16}

theorem load_changes (m : Machine) {op : Operation} (load : op.IsLoad) :
    ∃ memory, (m.perform op).machine = m.setState { m.state with memory := memory } := by
  have move := m.moves_perform op
  generalize (m.perform op).machine = after at move
  cases move with
  | refuses _ _ => exact ⟨m.state.memory, rfl⟩
  | loads _ => exact ⟨_, rfl⟩
  | _ => exact load.elim

theorem parked_of_waiting (waiting : m.state.waiting = some x) (at_pc : m.state.pc = pc) :
    Parked m x pc where
  runState_eq := by rw [runState, waiting]
  pc_eq := at_pc
  step_eq keypad := by
    rw [step, isWaiting, waiting]
    rfl
  tick_changes := ⟨_, rfl⟩
  load_changes _ load := m.load_changes load

theorem resumed_of_running (running : m.state.waiting = none) (at_pc : m.state.pc = pc) :
    Resumed m pc where
  runState_eq := by rw [runState, running]
  pc_eq := at_pc
  step_eq keypad := by
    rw [step, isWaiting, running, State.fetch, at_pc]
    cases m.state.memory.readWord pc.toNat <;> rfl

theorem stays_put {waited : Option UInt8} {allowed : Operation → Prop}
    (keeps : ∀ {m after : Machine} {op : Operation}, Move m op after → allowed op →
      m.state.waiting = waited → after.state.waiting = waited ∧ after.state.pc = m.state.pc)
    (now : m.state.waiting = waited) {ops : List Operation} (hops : ∀ op ∈ ops, allowed op) :
    (m.performAll ops).machine.state.waiting = waited ∧
      (m.performAll ops).machine.state.pc = m.state.pc := by
  refine performAll_keeps (I := fun after => after.state.waiting = waited ∧
    after.state.pc = m.state.pc) ?_ ⟨now, rfl⟩ ops hops
  intro before op allows ⟨waits, same⟩
  obtain ⟨waits', same'⟩ := keeps (before.moves_perform op) allows waits
  exact ⟨waits', same'.trans same⟩

theorem running_of_no_awaits (running : m.state.waiting = none) {ops : List Operation}
    (other : ∀ e ∈ m.history ops, e.awaits = false) :
    (m.performAll ops).machine.state.waiting = none := by
  induction ops generalizing m with
  | nil => exact running
  | cons op rest ih =>
    have first : (m.perform op).machine.state.waiting = none :=
      (m.moves_perform op).waiting_of_not_awaits running (other _ (List.mem_cons_self ..))
    exact ih first fun e h => other e (List.mem_cons_of_mem _ h)

theorem waiting_of_awaitKey {keypad : Keypad} (awaited : m.executed? keypad = some (.awaitKey x)) :
    x.toNat < 16 ∧ (m.step keypad).machine.state.waiting = some x ∧
      (m.step keypad).machine.state.pc = m.state.pc + 2 := by
  have ready := executed?_eq_some_iff.1 awaited
  obtain ⟨-, decoded, -⟩ := State.executes_iff.1 ready
  rw [(step_of_executes ready keypad).2]
  exact ⟨State.registersExist_of_instruction? decoded x (by simp [Instruction.operands]), rfl, rfl⟩

theorem provideKey_of_waiting (waiting : m.state.waiting = some x) (hx : x.toNat < 16)
    (key : UInt8) :
    m.provideKey key =
      ⟨true,
        m.setState { m.state with v := m.state.v.set x.toNat (key % 16) hx, waiting := none },
        [.receivedKey x (key % 16)]⟩ := by
  rw [provideKey, waiting]
  dsimp only
  rw [Registers.set?_of_lt _ _ hx, Option.getD_some]

theorem provideKey_of_running (running : m.state.waiting = none) (key : UInt8) :
    m.provideKey key = ⟨false, m, []⟩ := by
  rw [provideKey, running]

theorem count_awaits (m : Machine) (ops : List Operation) :
    (if m.isWaiting then 1 else 0) + (m.history ops).countP Event.awaits =
      (m.history ops).countP Event.delivers + (m.history ops).countP Event.abandons +
        if (m.performAll ops).machine.isWaiting then 1 else 0 := by
  induction ops generalizing m with
  | nil => exact Nat.add_comm ..
  | cons op rest ih =>
    have first := (m.moves_perform op).count_awaits
    have later := ih (m.perform op).machine
    change _ = _ + if ((m.perform op).machine.performAll rest).machine.isWaiting then 1 else 0
    rw [history, List.countP_cons, List.countP_cons, List.countP_cons]
    omega

/-- A machine that has executed the wait for a key into a register stays parked behind the
instruction whatever is done to it but delivering a key or resetting it. The key that is delivered
first goes to the register and to nothing else, the next step fetches behind the instruction, and
keys that follow are refused until the next wait. Over a run from power-on the waits that began are
those that a key or a reset has ended and the one that is still going on. -/
theorem key_wait_protocol :
    (∀ (m : Machine) (keypad : Keypad) (x : UInt8), m.executed? keypad = some (.awaitKey x) →
      ∀ ops : List Operation, (∀ op ∈ ops, op.WaitsThrough) →
        let waiting := ((m.step keypad).machine.performAll ops).machine
        Parked waiting x (m.state.pc + 2) ∧
        ∀ key : UInt8,
          let delivery := waiting.provideKey key
          delivery.result = true ∧
          (∃ hx : x.toNat < 16, delivery.machine = waiting.setState { waiting.state with
            v := waiting.state.v.set x.toNat (key % 16) hx, waiting := none }) ∧
          (∀ later : List Operation, (∀ op ∈ later, op.IsBetweenSteps) →
            Resumed (delivery.machine.performAll later).machine (m.state.pc + 2)) ∧
          ∀ later : List Operation, (∀ e ∈ delivery.machine.history later, e.awaits = false) →
            ∀ further : UInt8,
              let after := (delivery.machine.performAll later).machine
              after.provideKey further = ⟨false, after, []⟩) ∧
    ∀ (config : Config) (random : RandomSource) (ops : List Operation),
      let events := (start config random).history ops
      events.countP Event.awaits =
        events.countP Event.delivers + events.countP Event.abandons +
          if ((start config random).performAll ops).machine.isWaiting then 1 else 0 := by
  constructor
  · intro m keypad x awaited ops through waiting
    obtain ⟨hx, begins, behind⟩ := waiting_of_awaitKey awaited
    obtain ⟨waits, same⟩ := stays_put Move.keeps_waiting begins through
    have pc : waiting.state.pc = m.state.pc + 2 := same.trans behind
    refine ⟨parked_of_waiting waits pc, fun key => ?_⟩
    dsimp only
    rw [provideKey_of_waiting waits hx key]
    dsimp only
    generalize delivered : waiting.setState _ = resumed
    have running : resumed.state.waiting = none := by rw [← delivered]; rfl
    have unmoved : resumed.state.pc = m.state.pc + 2 := by rw [← delivered]; exact pc
    refine ⟨rfl, ⟨hx, delivered.symm⟩, ?_, ?_⟩
    · intro later between
      obtain ⟨runs, stays⟩ := stays_put Move.keeps_running running between
      exact resumed_of_running runs (stays.trans unmoved)
    · intro later other further
      exact provideKey_of_running (running_of_no_awaits running other) further
  · intro config random ops events
    exact (Nat.zero_add _).symm.trans (count_awaits (start config random) ops)

/-- A wait into V1 that steps, a tick and a new program do not end, and a key of 0x1E. -/
theorem key_wait_protocol_for_V1 :
    let random := RandomSource.ofWords fun _ => 0
    let idle : Keypad := fun _ => false
    let m := ((start .standard random).performAll [.loadProgram [0xF1, 0x0A, 0x61, 0x22]]).machine
    let ops := [.step idle, .tick, .loadProgram [0xF1, 0x0A, 0x61, 0x33], .takeFrame]
    let waiting := ((m.step idle).machine.performAll ops).machine
    let delivered := (waiting.provideKey 0x1E).machine
    m.executed? idle = some (.awaitKey 1) ∧ Parked waiting 1 0x202 ∧
      (waiting.provideKey 0x1E).result = true ∧ Resumed delivered 0x202 ∧
      (delivered.performAll [.step idle]).machine.provideKey 3 =
        ⟨false, (delivered.performAll [.step idle]).machine, []⟩ := by
  intro random idle m ops waiting delivered
  obtain ⟨awaited, behind, other⟩ : m.executed? idle = some (.awaitKey 1) ∧
      m.state.pc + 2 = 0x202 ∧ ∀ e ∈ delivered.history [.step idle], e.awaits = false := by
    decide +kernel
  have through : ∀ op ∈ ops, op.WaitsThrough := by simp [ops, Operation.WaitsThrough]
  obtain ⟨parked, delivers⟩ := key_wait_protocol.1 m idle 1 awaited ops through
  obtain ⟨accepted, -, resumes, refuses⟩ := delivers 0x1E
  rw [behind] at parked resumes
  exact ⟨awaited, parked, accepted, resumes [] (by simp), refuses _ other 3⟩

end Machine

end Chip8
