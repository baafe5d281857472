import Chip8.Proofs.Run.Failure
import Chip8.Proofs.Run.Lockstep

namespace Chip8

def Operation.IsCall : Operation → Prop
  | step _ | provideKey _ => True
  | _ => False

def Answer.tickEvent? : Answer → Option TimerEvent
  | ticked event => some event
  | _ => none

/-- An order in which calls to the processor and a number of ticks can happen. -/
inductive Interleaving : List Operation → Nat → List Operation → Prop where
  | nil : Interleaving [] 0 []
  | call {op : Operation} {calls ops : List Operation} {ticks : Nat} (isCall : op.IsCall)
    (rest : Interleaving calls ticks ops) : Interleaving (op :: calls) ticks (op :: ops)
  | tick {calls ops : List Operation} {ticks : Nat} (rest : Interleaving calls ticks ops) :
    Interleaving calls (ticks + 1) (.tick :: ops)

def Instruction.usesTimer : Instruction → Bool
  | readDelay _ | setDelay _ | setSound _ => true
  | _ => false

def Event.usesTimer (e : Event) : Bool := e.executed?.any Instruction.usesTimer

def Event.Timeless (e : Event) : Prop := e.operation.IsCall ∧ e.usesTimer = false

namespace Machine

/-- No step of the run reads or sets a timer. -/
def TimersUnused (m : Machine) (ops : List Operation) : Prop :=
  ∀ e ∈ m.history ops, e.usesTimer = false

instance (m : Machine) (ops : List Operation) : Decidable (m.TimersUnused ops) :=
  inferInstanceAs (Decidable (∀ e ∈ m.history ops, _))

variable {m : Machine} {op : Operation}

theorem timersUnused_cons {rest : List Operation} :
    m.TimersUnused (op :: rest) ↔
      (Event.mk m op).usesTimer = false ∧ (m.perform op).machine.TimersUnused rest :=
  List.forall_mem_cons

theorem prospect_tick (m : Machine) : m.tick.machine.state.prospect = m.state.prospect :=
  State.prospect_congr rfl rfl rfl rfl rfl

theorem usesTimer_tick (m : Machine) (op : Operation) :
    (Event.mk m.tick.machine op).usesTimer = (Event.mk m op).usesTimer := by
  unfold Event.usesTimer
  cases op with
  | step keypad => rw [Event.executed?_step, Event.executed?_step, prospect_tick]
  | _ => rfl

theorem outcome_tick {i : Instruction} (unused : i.usesTimer = false) (keypad : Keypad)
    (m : Machine) :
    i.outcome keypad m.tick.machine.advance = (i.outcome keypad m.advance).tick.machine ∧
      (i.outcome keypad m.advance).state.timers = m.state.timers := by
  cases i with
  | readDelay _ | setDelay _ | setSound _ => cases unused
  | _ => exact ⟨rfl, rfl⟩

theorem unused_of_executes {keypad : Keypad} {i : Instruction}
    (ready : m.state.prospect = .executes i)
    (unused : (Event.mk m (.step keypad)).usesTimer = false) : i.usesTimer = false := by
  rw [Event.usesTimer, Event.executed?_step, ready] at unused
  exact unused

theorem step_tick {keypad : Keypad} (unused : (Event.mk m (.step keypad)).usesTimer = false) :
    (m.step keypad).Matches (fun after ticked => ticked = after.tick.machine)
      (m.tick.machine.step keypad) := by
  have core : m.state.SameCore m.tick.machine.state := ⟨rfl, rfl, rfl, rfl, rfl⟩
  refine step_matches core ?_ keypad rfl ?_
  · intro _ i _
    exact i.fault?_congr rfl rfl
  · intro i ready
    exact (outcome_tick (unused_of_executes ready unused) keypad m).1

/-- A call that uses no timer does the same before a tick as behind it. -/
theorem tick_perform (isCall : op.IsCall) (unused : (Event.mk m op).usesTimer = false) :
    (m.perform op).Matches (fun after ticked => ticked = after.tick.machine)
      (m.tick.machine.perform op) := by
  cases op with
  | step keypad => exact (step_tick unused).map Answer.stepped
  | provideKey key =>
    have delivered : (m.provideKey key).Matches (fun after ticked => ticked = after.tick.machine)
        (m.tick.machine.provideKey key) := by
      apply provideKey_matches
      · rfl
      · rfl
      · exact fun x _ => rfl
    exact delivered.map Answer.delivered
  | _ => exact isCall.elim

theorem timers_perform (isCall : op.IsCall) (unused : (Event.mk m op).usesTimer = false) :
    (m.perform op).machine.state.timers = m.state.timers := by
  have move := m.moves_perform op
  generalize (m.perform op).machine = after at move
  cases move with
  | @executes keypad i ready =>
    exact (outcome_tick (unused_of_executes ready unused) keypad m).2
  | idles _ | fails _ | ignores _ | delivers _ | refuses _ _ => rfl
  | ticks | resets | shows => exact isCall.elim
  | loads accepted =>
    obtain ⟨_, rfl⟩ | ⟨_, rfl⟩ := (Operation.isLoad_of_program? accepted).eq_load <;>
      exact isCall.elim

variable {calls : List Operation}

theorem timersUnused_tick (isCall : ∀ op ∈ calls, op.IsCall) :
    m.tick.machine.TimersUnused calls ↔ m.TimersUnused calls := by
  induction calls generalizing m with
  | nil => exact Iff.rfl
  | cons op rest ih =>
    obtain ⟨first, later⟩ := List.forall_mem_cons.1 isCall
    rw [timersUnused_cons, timersUnused_cons, usesTimer_tick]
    apply and_congr_right
    intro unused
    rw [(tick_perform first unused).related]
    exact ih later

theorem tick_performAll (isCall : ∀ op ∈ calls, op.IsCall) (unused : m.TimersUnused calls) :
    (m.performAll calls).Matches
      (fun after ticked => ticked = after.tick.machine ∧ after.state.timers = m.state.timers)
      (m.tick.machine.performAll calls) := by
  have keeps : ∀ before ticked op,
      ticked = before.tick.machine ∧ before.state.timers = m.state.timers →
      (Event.mk before op).Timeless → (before.perform op).Matches
        (fun after ticked => ticked = after.tick.machine ∧ after.state.timers = m.state.timers)
        (ticked.perform op) := by
    rintro before _ op ⟨rfl, same⟩ ⟨isCall, unused⟩
    have matched := tick_perform isCall unused
    exact ⟨matched.result_eq, matched.log_eq, matched.related,
      (timers_perform isCall unused).trans same⟩
  refine performAll_matches keeps ⟨rfl, rfl⟩ ?_
  intro e mem
  exact ⟨isCall _ (operation_mem_of_history mem), unused e mem⟩

end Machine

namespace Interleaving

variable {calls ops : List Operation} {ticks : Nat} {m : Machine}

theorem isCall (order : Interleaving calls ticks ops) : ∀ op ∈ calls, op.IsCall := by
  induction order with
  | nil => exact fun _ h => nomatch h
  | call isCall _ ih => exact List.forall_mem_cons.2 ⟨isCall, ih⟩
  | tick _ ih => exact ih

theorem timersUnused_iff (order : Interleaving calls ticks ops) :
    m.TimersUnused ops ↔ m.TimersUnused calls := by
  induction order generalizing m with
  | nil => exact Iff.rfl
  | call _ _ ih =>
    rw [Machine.timersUnused_cons, Machine.timersUnused_cons]
    exact and_congr_right fun _ => ih
  | tick rest ih =>
    rw [Machine.timersUnused_cons, ← Machine.timersUnused_tick rest.isCall]
    exact (and_iff_right rfl).trans ih

end Interleaving

/-- What a run of calls and ticks comes to: the answers to the calls, what the timers answered, what
was reported and the machine behind it all. -/
structure Summary where
  answers : List Answer
  events : List TimerEvent
  log : List Record
  machine : Machine

namespace Machine

def summary (m : Machine) (ops : List Operation) : Summary where
  answers := (m.performAll ops).result.filter (·.tickEvent?.isNone)
  events := (m.performAll ops).result.filterMap Answer.tickEvent?
  log := (m.performAll ops).log
  machine := (m.performAll ops).machine

/-- What calls and ticks come to if all ticks happen behind the calls. -/
def settled (m : Machine) (calls : List Operation) (ticks : Nat) : Summary where
  answers := (m.performAll calls).result
  events := ((m.performAll calls).machine.ticks ticks).result
  log := (m.performAll calls).log
  machine := ((m.performAll calls).machine.ticks ticks).machine

variable {m : Machine} {op : Operation} {calls : List Operation}

theorem tickEvent?_perform (m : Machine) (isCall : op.IsCall) :
    (m.perform op).result.tickEvent? = none := by
  cases op with
  | step _ | provideKey _ => rfl
  | _ => exact isCall.elim

theorem summary_call (isCall : op.IsCall) (ops : List Operation) :
    m.summary (op :: ops) =
      let rest := (m.perform op).machine.summary ops
      { rest with
        answers := (m.perform op).result :: rest.answers
        log := (m.perform op).log ++ rest.log } := by
  have quiet := m.tickEvent?_perform isCall
  simp [summary, performAll, quiet]

theorem summary_tick (m : Machine) (ops : List Operation) :
    m.summary (.tick :: ops) =
      let rest := m.tick.machine.summary ops
      { rest with events := m.tick.result :: rest.events } := rfl

/-- A tick ahead of the calls may wait until they are done. -/
theorem settled_tick (isCall : ∀ op ∈ calls, op.IsCall) (unused : m.TimersUnused calls)
    (ticks : Nat) :
    m.settled calls (ticks + 1) =
      let rest := m.tick.machine.settled calls ticks
      { rest with events := m.tick.result :: rest.events } := by
  obtain ⟨result, log, machine, timers⟩ := tick_performAll isCall unused
  have event : (m.performAll calls).machine.tick.result = m.tick.result := by
    rw [tick, tick, timers]
  unfold settled
  rw [result, log, machine, Machine.ticks, event]

end Machine

namespace Interleaving

variable {calls ops : List Operation} {ticks : Nat} {m : Machine}

theorem settles (order : Interleaving calls ticks ops) (unused : m.TimersUnused calls) :
    m.summary ops = m.settled calls ticks := by
  induction order generalizing m with
  | nil => rfl
  | call isCall rest ih =>
    obtain ⟨-, later⟩ := Machine.timersUnused_cons.1 unused
    rw [Machine.summary_call isCall, ih later]
    rfl
  | tick rest ih =>
    have behind := (Machine.timersUnused_tick rest.isCall).2 unused
    rw [Machine.summary_tick, ih behind, Machine.settled_tick rest.isCall unused]

end Interleaving

namespace Machine

/-- A step that fails, idles or executes an instruction without a timer may change places with a
tick: answers, reports and the machine behind both are the same. Whether a run of calls and ticks
uses a timer depends on its calls alone, and if it does not, every other order of the same calls and
as many ticks has the same answers, the same events of the timers, the same log and the same
machine in the end. -/
theorem clocks_are_independent :
    (∀ (m : Machine) (keypad : Keypad),
      (∀ i, m.executed? keypad = some i → i.usesTimer = false) →
        (m.tick.machine.step keypad).result = (m.step keypad).result ∧
        (m.tick.machine.step keypad).log = (m.step keypad).log ∧
        (m.step keypad).machine.tick.result = m.tick.result ∧
        (m.tick.machine.step keypad).machine = (m.step keypad).machine.tick.machine) ∧
    ∀ (m : Machine) (calls : List Operation) (ticks : Nat) (ops ops' : List Operation),
      Interleaving calls ticks ops → Interleaving calls ticks ops' → m.TimersUnused ops →
        m.TimersUnused ops' ∧ m.summary ops' = m.summary ops := by
  constructor
  · intro m keypad other
    have unused : (Event.mk m (.step keypad)).usesTimer = false := by
      rw [Event.usesTimer, Option.any_eq_false]
      exact other
    have matched := step_tick unused
    have isCall : Operation.IsCall (.step keypad) := trivial
    have timers : (m.step keypad).machine.state.timers = m.state.timers :=
      timers_perform isCall unused
    refine ⟨matched.result_eq, matched.log_eq, ?_, matched.related⟩
    rw [tick, tick, timers]
  · intro m calls ticks ops ops' order order' unused
    have quiet : m.TimersUnused calls := order.timersUnused_iff.1 unused
    refine ⟨order'.timersUnused_iff.2 quiet, ?_⟩
    rw [order'.settles quiet, order.settles quiet]

/-- A tone of two ticks that run out before, between or behind a sum, a wait and the key for it. -/
theorem clocks_are_independent_around_a_wait :
    let random := RandomSource.ofWords fun _ => 0
    let idle : Keypad := fun _ => false
    let program : List UInt8 := [0x61, 0x02, 0xF1, 0x18, 0x71, 0x01, 0xF1, 0x0A]
    let m := ((start .standard random).performAll
      [.loadProgram program, .step idle, .step idle]).machine
    let mixed := [.tick, .step idle, .tick, .step idle, .provideKey 7]
    let behind := [.step idle, .step idle, .provideKey 7, .tick, .tick]
    (m.tick.machine.step idle).machine = (m.step idle).machine.tick.machine ∧
      m.TimersUnused mixed ∧ m.summary mixed = m.summary behind ∧
      (m.summary behind).events = [.none, .beep] := by
  intro random idle program m mixed behind
  obtain ⟨executed, unused, events⟩ : m.executed? idle = some (.addByte 1 1) ∧
      m.TimersUnused behind ∧ (m.summary behind).events = [.none, .beep] := by
    decide +kernel
  have other : ∀ i, m.executed? idle = some i → i.usesTimer = false := by
    intro i this
    rw [executed] at this
    cases this
    rfl
  have step (calls : List Operation) {ticks : Nat} {ops : List Operation} :
      Interleaving calls ticks ops →
        Interleaving (.step idle :: calls) ticks (.step idle :: ops) := .call trivial
  have key : Interleaving [.provideKey 7] 0 [.provideKey 7] := .call trivial .nil
  have orderMixed : Interleaving [.step idle, .step idle, .provideKey 7] 2 mixed :=
    .tick (step _ (.tick (step _ key)))
  have orderBehind : Interleaving [.step idle, .step idle, .provideKey 7] 2 behind :=
    step _ (step _ (.call trivial (.tick (.tick .nil))))
  obtain ⟨-, -, -, swaps⟩ := clocks_are_independent.1 m idle other
  obtain ⟨quiet, same⟩ := clocks_are_independent.2 m _ 2 behind mixed orderBehind orderMixed unused
  exact ⟨swaps, quiet, same, events⟩

end Machine

end Chip8
