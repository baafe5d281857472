import Chip8.Proofs.Run.History

namespace Chip8

def Instruction.paints : Instruction → Bool
  | clear | draw .. => true
  | _ => false

namespace Event

def isTake (e : Event) : Bool :=
  match e.operation with
  | .takeFrame => true
  | _ => false

/-- The event is a step that answers that a sprite was drawn or the screen blanked. -/
def paints (e : Event) : Bool := e.effect == .draw || e.effect == .clearScreen

def frame? (e : Event) : Option Screen :=
  match e.answer with
  | .frame screen => screen
  | _ => none

/-- The events behind the last reset or request for a frame. -/
def sinceTake (events : List Event) : List Event :=
  events.rtakeWhile fun e => !(e.isReset || e.isTake)

/-- The events behind the last frame that was handed out. -/
def sinceFrame (events : List Event) : List Event := events.rtakeWhile fun e => e.frame?.isNone

/-- The frame that was handed out last; blank if there was none. -/
def lastFrame (events : List Event) : Screen := (events.filterMap frame?).getLast?.getD .blank

theorem paints_eq (e : Event) : e.paints = e.executed?.any Instruction.paints := by
  rw [paints, effect_eq]
  cases e.executed? with
  | none => rfl
  | some i => cases i <;> rfl

theorem exists_step_of_paints {m : Machine} {op : Operation}
    (h : (Event.mk m op).paints = true) : ∃ keypad, op = .step keypad := by
  rw [paints_eq] at h
  cases op with
  | step keypad => exact ⟨keypad, rfl⟩
  | _ => cases h

theorem frame?_eq (e : Event) :
    e.frame? = if e.isTake && e.before.state.redraw then some e.before.screen else none := by
  obtain ⟨m, op⟩ := e
  cases op with
  | takeFrame =>
    change m.takeFrame.result = if true && m.state.redraw then some m.screen else none
    rw [Machine.takeFrame, Bool.true_and]
    split <;> rfl
  | _ => rfl

theorem sinceTake_concat (events : List Event) (e : Event) :
    sinceTake (events ++ [e]) =
      if !(e.isReset || e.isTake) then sinceTake events ++ [e] else [] :=
  List.rtakeWhile_concat ..

theorem sinceFrame_concat (events : List Event) (e : Event) :
    sinceFrame (events ++ [e]) = if e.frame?.isNone then sinceFrame events ++ [e] else [] :=
  List.rtakeWhile_concat ..

theorem lastFrame_concat (events : List Event) (e : Event) :
    lastFrame (events ++ [e]) = e.frame?.getD (lastFrame events) := by
  change (last? frame? (events ++ [e])).getD .blank = _
  rw [last?_concat]
  cases e.frame? with
  | none => rfl
  | some _ => rfl

end Event

namespace Move

variable {m after : Machine} {op : Operation}

theorem redraw_after (move : Move m op after) :
    after.state.redraw =
      (!((Event.mk m op).isReset || (Event.mk m op).isTake) &&
        (m.state.redraw || (Event.mk m op).paints)) := by
  rw [Event.paints_eq]
  cases move with
  | idles h | fails h =>
    rw [Event.executed?_step, h]
    exact (Bool.or_false _).symm
  | @executes _ i ready =>
    rw [Event.executed?_step, ready]
    change i.redrawAfter m.state = (m.state.redraw || i.paints)
    cases i with
    | clear | draw _ _ _ => exact (Bool.or_true _).symm
    | _ => exact (Bool.or_false _).symm
  | ignores _ | delivers _ | ticks => exact (Bool.or_false _).symm
  | refuses load _ =>
    obtain ⟨_, rfl⟩ | ⟨_, rfl⟩ := load.eq_load <;> exact (Bool.or_false _).symm
  | loads accepted =>
    obtain ⟨_, rfl⟩ | ⟨_, rfl⟩ := (Operation.isLoad_of_program? accepted).eq_load <;>
      exact (Bool.or_false _).symm
  | resets | shows => rfl

theorem screen_after (move : Move m op after) (quiet : (Event.mk m op).paints = false) :
    after.screen = if (Event.mk m op).isReset then .blank else m.screen := by
  rw [Event.paints_eq] at quiet
  cases move with
  | @executes _ i ready =>
    rw [Event.executed?_step, ready] at quiet
    cases i with
    | clear | draw _ _ _ => cases quiet
    | _ => rfl
  | refuses load _ => obtain ⟨_, rfl⟩ | ⟨_, rfl⟩ := load.eq_load <;> rfl
  | loads accepted =>
    obtain ⟨_, rfl⟩ | ⟨_, rfl⟩ := (Operation.isLoad_of_program? accepted).eq_load <;> rfl
  | _ => rfl

theorem redraw_of_paints (move : Move m op after) (painted : (Event.mk m op).paints = true) :
    after.state.redraw = true := by
  obtain ⟨keypad, rfl⟩ := Event.exists_step_of_paints painted
  rw [move.redraw_after, painted, Bool.or_true]
  rfl

end Move

namespace Machine

theorem redraw_eq_any_paints (config : Config) (random : RandomSource) (ops : List Operation) :
    ((start config random).performAll ops).machine.state.redraw =
      (Event.sinceTake ((start config random).history ops)).any Event.paints := by
  -- by the last operation, since what counts ends at the end of the run
  induction ops using List.reverseRecOn with
  | nil => rfl
  | append_singleton ops op ih =>
    have move := moves_perform ((start config random).performAll ops).machine op
    rw [machine_performAll_concat, move.redraw_after, ih, history_concat, Event.sinceTake_concat]
    split
    · next outside =>
      rw [outside, Bool.true_and, List.any_append, List.any_cons, List.any_nil, Bool.or_false]
    · next inside =>
      rw [Bool.eq_false_iff.2 inside, Bool.false_and]
      rfl

theorem screen_of_not_redraw (config : Config) (random : RandomSource) (ops : List Operation)
    (quiet : ((start config random).performAll ops).machine.state.redraw = false) :
    ((start config random).performAll ops).machine.screen =
      if (Event.sinceFrame ((start config random).history ops)).any Event.isReset then .blank
      else Event.lastFrame ((start config random).history ops) := by
  induction ops using List.reverseRecOn with
  | nil => rfl
  | append_singleton ops op ih =>
    rw [machine_performAll_concat] at quiet ⊢
    rw [history_concat, Event.sinceFrame_concat, Event.lastFrame_concat, Event.frame?_eq]
    generalize ((start config random).performAll ops).machine = m at *
    have move := m.moves_perform op
    have still : (Event.mk m op).paints = false := by
      by_contra painted
      rw [move.redraw_of_paints (Bool.not_eq_false _ ▸ painted)] at quiet
      cases quiet
    rw [move.screen_after still]
    dsimp only
    by_cases handed : ((Event.mk m op).isTake && m.state.redraw) = true
    · -- the frame that is handed out is the screen, and no event is behind it
      have kept : op ≠ .reset := by
        rintro rfl
        cases handed
      rw [if_pos handed, Event.isReset_eq_false kept]
      rfl
    · rw [if_neg handed]
      simp only [Option.isNone_none, if_true, List.any_append, List.any_cons, List.any_nil,
        Bool.or_false, Option.getD_none]
      by_cases reset : (Event.mk m op).isReset = true
      · rw [reset, Bool.or_true, if_pos rfl, if_pos rfl]
      · have down : m.state.redraw = false := by
          have after := move.redraw_after
          rw [quiet, still, Bool.or_false] at after
          grind
        rw [ih down, Bool.eq_false_iff.2 reset, Bool.or_false]
        rfl

theorem redraw_of_step {m : Machine} (pending : m.state.redraw = true) (keypad : Keypad) :
    (m.step keypad).machine.state.redraw = true := by
  have after := (m.move_step keypad).redraw_after
  rw [after, pending]
  rfl

/-- On every machine that a run from power-on leads to, a request hands out the screen if a step has
painted since the last reset or request, and nothing otherwise; it takes the flag down and changes
nothing else, so that the next one hands out nothing. No step takes the flag down. -/
theorem takeFrame_hands_out_exactly (config : Config) (random : RandomSource)
    (past : List Operation) :
    let m := ((start config random).performAll past).machine
    let events := (start config random).history past
    m.takeFrame.result =
        (if (Event.sinceTake events).any Event.paints then some m.screen else none) ∧
      m.takeFrame.machine = m.setState { m.state with redraw := false } ∧
      m.takeFrame.log = [] ∧
      m.takeFrame.machine.takeFrame = ⟨none, m.takeFrame.machine, []⟩ ∧
      ∀ (m : Machine) (keypad : Keypad), m.state.redraw = true →
        (m.step keypad).machine.state.redraw = true := by
  intro m events
  have flag : m.state.redraw = (Event.sinceTake events).any Event.paints :=
    redraw_eq_any_paints config random past
  rw [takeFrame_eq, ← flag]
  refine ⟨rfl, rfl, rfl, ?_, fun m keypad pending => redraw_of_step pending keypad⟩
  rw [takeFrame_eq]
  rfl

/-- A sprite is drawn, and the next word is no instruction. -/
theorem takeFrame_hands_out_after_a_draw :
    let random := RandomSource.ofWords fun _ => 0
    let idle : Keypad := fun _ => false
    let past := [.loadProgram [0xD0, 0x05, 0xFF, 0xFF], .takeFrame, .step idle]
    let m := ((start .standard random).performAll past).machine
    m.takeFrame.result = some m.screen ∧ m.takeFrame.machine.takeFrame.result = none ∧
      (m.step idle).result = .error (.unimplemented 0xFFFF) ∧
      (m.step idle).machine.state.redraw = true := by
  intro random idle past m
  obtain ⟨result, -, -, again, keeps⟩ := takeFrame_hands_out_exactly .standard random past
  obtain ⟨painted, pending, failed⟩ :
      (Event.sinceTake ((start .standard random).history past)).any Event.paints = true ∧
        m.state.redraw = true ∧ (m.step idle).result = .error (.unimplemented 0xFFFF) := by
    decide +kernel
  rw [if_pos painted] at result
  exact ⟨result, congrArg Turn.result again, failed, keeps m idle pending⟩

/-- When no frame is due, the screen is the frame that was handed out last, unless the machine has
been reset since: then it is blank. So a host that repaints only the frames it is handed is left
with an old picture exactly if a reset has followed a frame that was not blank. -/
theorem screen_when_no_frame_is_due (config : Config) (random : RandomSource)
    (past : List Operation) :
    let m := ((start config random).performAll past).machine
    let events := (start config random).history past
    m.takeFrame.result = none →
      m.screen = (if (Event.sinceFrame events).any Event.isReset then .blank
        else Event.lastFrame events) ∧
      (m.screen ≠ Event.lastFrame events ↔
        (Event.sinceFrame events).any Event.isReset ∧ Event.lastFrame events ≠ .blank) := by
  intro m events none_due
  have quiet : m.state.redraw = false := by
    rw [takeFrame_eq] at none_due
    by_contra pending
    rw [Bool.not_eq_false] at pending
    simp [pending] at none_due
  have screen : m.screen = if (Event.sinceFrame events).any Event.isReset then .blank
      else Event.lastFrame events := screen_of_not_redraw config random past quiet
  refine ⟨screen, ?_⟩
  rw [screen]
  split
  · next reset => simp [reset, eq_comm]
  · next noReset => simp [noReset]

/-- A drawn frame is taken, and nothing happens since but a waiting tick. -/
theorem screen_when_no_frame_is_due_after_a_take :
    let random := RandomSource.ofWords fun _ => 0
    let idle : Keypad := fun _ => false
    let past := [.loadProgram [0xD0, 0x05], .step idle, .takeFrame, .tick]
    let m := ((start .standard random).performAll past).machine
    m.takeFrame.result = none ∧
      m.screen = Event.lastFrame ((start .standard random).history past) ∧ m.screen ≠ .blank := by
  intro random idle past m
  obtain ⟨none_due, noReset, drawn⟩ : m.takeFrame.result = none ∧
      ¬ (Event.sinceFrame ((start .standard random).history past)).any Event.isReset ∧
        m.screen ≠ .blank := by
    decide +kernel
  obtain ⟨screen, -⟩ := screen_when_no_frame_is_due .standard random past none_due
  rw [if_neg noReset] at screen
  exact ⟨none_due, screen, drawn⟩

/-- A reset between two requests: the second one hands out nothing, while the host still shows the
sprite that the first one handed out and the screen is blank. -/
theorem reset_leaves_an_old_frame :
    let random := RandomSource.ofWords fun _ => 0
    let idle : Keypad := fun _ => false
    let past := [.loadProgram [0xD0, 0x05], .step idle, .takeFrame, .reset]
    let m := ((start .standard random).performAll past).machine
    m.takeFrame.result = none ∧ m.screen = .blank ∧
      m.screen ≠ Event.lastFrame ((start .standard random).history past) := by
  decide +kernel

end Machine

end Chip8
