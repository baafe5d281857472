import Chip8.Proofs.Run.Calls
import Chip8.Proofs.Run.DueFault

namespace Chip8

namespace State

variable {s : State} {i : Instruction}

theorem toNat_pc_initial (stackDepth : Nat) : (initial stackDepth).pc.toNat = 0x200 := rfl

theorem pc_lt_of_instruction? (decoded : s.instruction? = some i) : s.pc.toNat < 0xFFF := by
  by_contra late
  rw [instruction?, fetch_eq, if_pos (Nat.not_lt.1 late)] at decoded
  cases decoded

theorem inRange_of_instruction? (decoded : s.instruction? = some i) : i.InRange := by
  unfold instruction? at decoded
  cases fetched : s.fetch with
  | error fault => simp [fetched] at decoded
  | ok op =>
    rw [fetched] at decoded
    exact (Instruction.instruction?_eq_some_iff.1 decoded).1

theorem prospect_of_late (running : s.waiting = none) (late : 0xFFF ≤ s.pc.toNat) :
    s.prospect = .fails (.outOfBounds (max s.pc.toNat 0x1000)) := by
  rw [prospect, running, fetch_eq, if_pos late]

theorem toNat_pc_add (early : s.pc.toNat < 0xFFF) :
    s.advance.pc.toNat = s.pc.toNat + 2 ∧ (s.advance.pc + 2).toNat = s.pc.toNat + 4 := by
  have two : (2 : UInt16).toNat = 2 := rfl
  unfold advance
  simp only [UInt16.toNat_add, two]
  omega

end State

namespace Machine

/-- Every saved return address lies behind a word of memory. -/
def ReturnsInMemory (m : Machine) : Prop :=
  ∀ address ∈ m.frames, 2 ≤ address.toNat ∧ address.toNat ≤ 0x1000

end Machine

namespace Event

def movesPc (e : Event) : Bool := e.after.state.pc != e.before.state.pc

theorem pc_lt_of_executed {m : Machine} {op : Operation} {i : Instruction}
    (executed : (Event.mk m op).executed? = some i) : m.state.pc.toNat < 0xFFF := by
  cases op with
  | step keypad =>
    obtain ⟨-, decoded, -⟩ := State.executes_iff.1 (Machine.executed?_eq_some_iff.1 executed)
    exact State.pc_lt_of_instruction? decoded
  | _ => cases executed

theorem returnsInMemory_after {m : Machine} {op : Operation} (returns : m.ReturnsInMemory) :
    (m.perform op).machine.ReturnsInMemory := by
  by_cases kept : op = .reset
  · intro address saved
    rw [kept] at saved
    cases saved
  · intro address saved
    cases frames_of_not_reset (m := m) kept with
    | stay _ _ same =>
      apply returns
      exact same ▸ saved
    | grow call _ pushed =>
      change (m.perform op).machine.frames = m.frames ++ [m.state.advance.pc] at pushed
      rw [pushed, List.mem_append, List.mem_singleton] at saved
      rcases saved with older | rfl
      · exact returns address older
      · obtain ⟨_, executed, -⟩ := (Option.any_eq_true ..).1 call
        have early := pc_lt_of_executed executed
        have behind := (State.toNat_pc_add early).1
        omega
    | shrink _ _ popped =>
      apply returns
      change m.frames = _ at popped
      rw [popped]
      exact List.mem_append_left _ saved

end Event

namespace Instruction

variable {i : Instruction} {m : Machine}

theorem pcAfter_le (returns : m.ReturnsInMemory) (early : m.state.pc.toNat < 0xFFF)
    (range : i.InRange) (absolute : ∀ address, i ≠ .jumpOffset address) (keypad : Keypad) :
    (i.pcAfter keypad m.advance).toNat ≤ 0x1002 := by
  obtain ⟨behind, further⟩ := State.toNat_pc_add early
  have next : m.advance.state.pc.toNat = m.state.pc.toNat + 2 := behind
  have afterNext : (m.advance.state.pc + 2).toNat = m.state.pc.toNat + 4 := further
  have sequential (skips : Bool) :
      (if skips then m.advance.state.pc + 2 else m.advance.state.pc).toNat ≤ 0x1002 := by
    split
    · omega
    · omega
  -- a return goes to an address that was saved, jumps and calls have twelve bits
  cases i with
  | ret =>
    change (m.frames.getLast?.getD m.advance.state.pc).toNat ≤ 0x1002
    cases saved : m.frames.getLast? with
    | none =>
      rw [Option.getD_none]
      omega
    | some address =>
      have bound := (returns address (List.mem_of_getLast? saved)).2
      rw [Option.getD_some]
      omega
  | jump address | call address =>
    have small : address.toNat < 0x1000 := UInt16.lt_iff_toNat_lt.1 range
    change address.toNat ≤ 0x1002
    omega
  | jumpOffset address => exact absurd rfl (absolute address)
  | _ => exact sequential _

end Instruction

theorem Move.pc_after {m after : Machine} {op : Operation} (move : Move m op after)
    (returns : m.ReturnsInMemory) :
    after.state.pc = m.state.pc ∨ after.state.pc.toNat ≤ 0x1002 ∨
      ∃ address : UInt16, address < 0x1000 ∧
        (Event.mk m op).executed? = some (.jumpOffset address) ∧
          after.state.pc = m.jumpOrigin + address := by
  cases move with
  | @executes keypad i ready =>
    obtain ⟨-, decoded, -⟩ := State.executes_iff.1 ready
    have range : i.InRange := State.inRange_of_instruction? decoded
    right
    by_cases absolute : ∀ address, i ≠ .jumpOffset address
    · left
      have early := State.pc_lt_of_instruction? decoded
      exact Instruction.pcAfter_le returns early range absolute keypad
    · right
      push Not at absolute
      obtain ⟨address, rfl⟩ := absolute
      exact ⟨address, range, Machine.executed?_eq_some_iff.2 ready, rfl⟩
  | resets =>
    right
    left
    exact (State.toNat_pc_initial _).trans_le (by decide)
  | _ =>
    left
    rfl

/-- The bounds that hold of reachable machines. -/
structure Bounded (config : Config) (m : Machine) : Prop where
  sound : Sound config m
  returns : m.ReturnsInMemory
  pc_le : config.jumpBase = .v0 → m.state.pc.toNat ≤ 0x10FE

namespace Machine

theorem jumpOrigin_le {m : Machine} (base : m.config.jumpBase = .v0) :
    m.jumpOrigin.toNat ≤ 0xFF := by
  have byte := m.state.v[0].toNat_lt
  rw [jumpOrigin, base, JumpBase.choose, UInt8.toNat_toUInt16]
  omega

theorem bounded_performAll (config : Config) (random : RandomSource) (ops : List Operation) :
    Bounded config ((start config random).performAll ops).machine := by
  have initially : Bounded config (start config random) := by
    refine ⟨.start config random, ?_, ?_⟩
    · intro address saved
      cases saved
    · intro _
      exact (State.toNat_pc_initial _).trans_le (by decide)
  have keeps : ∀ (m : Machine) (op : Operation), True → Bounded config m →
      Bounded config (m.perform op).machine := by
    intro m op _ bounded
    have move := m.moves_perform op
    refine ⟨bounded.sound.move move, Event.returnsInMemory_after bounded.returns, ?_⟩
    intro base
    rcases move.pc_after bounded.returns with same | near | ⟨address, small, -, jumped⟩
    · rw [same]
      exact bounded.pc_le base
    · omega
    · -- relative to V0, a jump adds a byte to an address of twelve bits
      have origin : m.jumpOrigin.toNat ≤ 0xFF := jumpOrigin_le (bounded.sound.config_eq ▸ base)
      have small : address.toNat < 0x1000 := UInt16.lt_iff_toNat_lt.1 small
      rw [jumped, UInt16.toNat_add]
      omega
  exact performAll_keeps keeps initially ops fun _ _ => trivial

/-- A counter behind 0x1002 was left there by a relative jump, and nothing has moved it since. -/
theorem last_move_of_far (config : Config) (random : RandomSource) (ops : List Operation)
    (far : 0x1002 < ((start config random).performAll ops).machine.state.pc.toNat) :
    ∃ e address, (((start config random).history ops).filter Event.movesPc).getLast? = some e ∧
      e.executed? = some (.jumpOffset address) := by
  -- by the last operation: it moved the counter there, or the counter was there before it
  induction ops using List.reverseRecOn with
  | nil =>
    have near := (State.toNat_pc_initial config.stackDepth).trans_le (by decide : _ ≤ 0x1002)
    exact absurd far (Nat.not_lt.2 near)
  | append_singleton ops op ih =>
    have bounded := bounded_performAll config random ops
    rw [machine_performAll_concat] at far
    rw [history_concat, List.filter_append]
    generalize ((start config random).performAll ops).machine = m at *
    rcases (m.moves_perform op).pc_after bounded.returns with
      same | near | ⟨address, -, executed, -⟩
    · have still : ¬ (Event.mk m op).movesPc = true := by simp [Event.movesPc, Event.after, same]
      rw [List.filter_cons_of_neg still, List.filter_nil, List.append_nil]
      rw [same] at far
      exact ih far
    · omega
    · have moved : (Event.mk m op).movesPc = true := by
        have early := Event.pc_lt_of_executed executed
        simp only [Event.movesPc, Event.after, bne_iff_ne]
        intro same
        rw [same] at far
        omega
      rw [List.filter_cons_of_pos moved, List.filter_nil, List.getLast?_concat]
      exact ⟨_, address, rfl, executed⟩

/-- From the last byte of memory on nothing but a reset moves the counter. -/
theorem pc_of_late {m : Machine} (late : 0xFFF ≤ m.state.pc.toNat) {ops : List Operation}
    (kept : ∀ op ∈ ops, op ≠ .reset) : (m.performAll ops).machine.state.pc = m.state.pc := by
  have keeps : ∀ (before : Machine) (op : Operation), op ≠ .reset →
      before.state.pc = m.state.pc → (before.perform op).machine.state.pc = m.state.pc := by
    intro before op keptOp same
    have move := before.moves_perform op
    generalize (before.perform op).machine = after at move
    cases move with
    | executes ready =>
      obtain ⟨-, decoded, -⟩ := State.executes_iff.1 ready
      have early := State.pc_lt_of_instruction? decoded
      rw [same] at early
      omega
    | resets => exact absurd rfl keptOp
    | _ => exact same
  exact performAll_keeps keeps rfl ops kept

theorem toNat_pc_of_skips {m : Machine} {i : Instruction} (running : m.state.waiting = none)
    (decoded : m.state.instruction? = some i) {keypad : Keypad}
    (skips : i.skips keypad m.state = true) :
    (m.step keypad).machine.state.pc.toNat = m.advance.state.pc.toNat + 2 := by
  have early := State.pc_lt_of_instruction? decoded
  obtain ⟨behind, further⟩ := State.toNat_pc_add early
  have safe : i.fault? m.state = none ∧ i.pcAfter keypad m.advance = m.state.advance.pc + 2 := by
    cases i with
    | skipEqByte _ _ | skipNeByte _ _ | skipEq _ _ | skipNe _ _ | skipKeyDown _ | skipKeyUp _ =>
      exact ⟨rfl, if_pos skips⟩
    | _ => cases skips
  have ready := State.executes_iff.2 ⟨running, decoded, safe.1⟩
  rw [(step_of_executes ready keypad).2]
  change (i.pcAfter keypad m.advance).toNat = m.state.advance.pc.toNat + 2
  rw [safe.2]
  omega

/-- On every reachable machine the saved return addresses lie behind words of memory; the counter
wraps neither when it advances over an instruction nor when that one skips the next; with V0 as the
base of relative jumps it is at most 0x10FE, and with any base a relative jump was the last event to
move it if it is greater than 0x1002. From 0xFFF on it stays until a reset, and every step of the
machine fails while that does not wait. -/
theorem pc_stays_in_bounds (config : Config) (random : RandomSource) (past : List Operation) :
    let m := ((start config random).performAll past).machine
    (∀ address ∈ m.frames, 2 ≤ address.toNat ∧ address.toNat ≤ 0x1000) ∧
    (∀ i, m.state.waiting = none → m.state.instruction? = some i →
      m.advance.state.pc.toNat = m.state.pc.toNat + 2 ∧
      ∀ keypad, i.skips keypad m.state = true →
        (m.step keypad).machine.state.pc.toNat = m.advance.state.pc.toNat + 2) ∧
    (config.jumpBase = .v0 → m.state.pc.toNat ≤ 0x10FE) ∧
    (0x1002 < m.state.pc.toNat →
      ∃ e address, (((start config random).history past).filter Event.movesPc).getLast? = some e ∧
        e.executed? = some (.jumpOffset address)) ∧
    (0xFFF ≤ m.state.pc.toNat → ∀ ops, (∀ op ∈ ops, op ≠ .reset) →
      let later := (m.performAll ops).machine
      later.state.pc = m.state.pc ∧
      ∀ keypad, later.state.waiting = none →
        (later.step keypad).result = .error (.outOfBounds (max m.state.pc.toNat 0x1000))) := by
  intro m
  have bounded : Bounded config m := bounded_performAll config random past
  refine ⟨bounded.returns, ?_, bounded.pc_le, ?_, ?_⟩
  · intro i running decoded
    have early := State.pc_lt_of_instruction? decoded
    refine ⟨(State.toNat_pc_add early).1, ?_⟩
    intro keypad skips
    exact toNat_pc_of_skips running decoded skips
  · intro far
    exact last_move_of_far config random past far
  · intro late ops kept later
    have same : later.state.pc = m.state.pc := pc_of_late late kept
    refine ⟨same, ?_⟩
    intro keypad running
    have failing := State.prospect_of_late running (same ▸ late)
    rw [(step_of_fails failing keypad).1, same]

/-- A call; a skip; a jump to 0xFFF behind the index 0xFFF, which only a reset would end; and a jump
to 0xFFF behind V0. -/
theorem pc_stays_in_bounds_behind_memory :
    let random := RandomSource.ofWords fun _ => 0
    let idle : Keypad := fun _ => false
    let calling := [.loadProgram [0x22, 0x02], .step idle]
    let skipping := [.loadProgram [0x30, 0x00]]
    let jumping := [.loadProgram [0xAF, 0xFF, 0xBF, 0xFF], .step idle, .step idle]
    let nearby := [.loadProgram [0xBF, 0xFF], .step idle]
    let ops := [.tick, .loadProgram [0x12, 0x00], .takeFrame]
    let called := ((start .standard random).performAll calling).machine
    let skips := ((start .standard random).performAll skipping).machine
    let far := ((start .standard random).performAll jumping).machine
    let near := ((start (Config.standard.withJumpBase .v0) random).performAll nearby).machine
    let later := (far.performAll ops).machine
    0x202 ∈ called.frames ∧ 2 ≤ (0x202 : UInt16).toNat ∧
      (skips.step idle).machine.state.pc.toNat = skips.advance.state.pc.toNat + 2 ∧
      near.state.pc.toNat ≤ 0x10FE ∧ far.state.pc.toNat = 0x1FFE ∧
      (∃ e address,
        (((start .standard random).history jumping).filter Event.movesPc).getLast? = some e ∧
          e.executed? = some (.jumpOffset address)) ∧
      later.state.pc = far.state.pc ∧
      (later.step idle).result = .error (.outOfBounds (max far.state.pc.toNat 0x1000)) := by
  intro random idle calling skipping jumping nearby ops called skips far near later
  have saved : 0x202 ∈ called.frames := by decide +kernel
  obtain ⟨running, decoded, equal⟩ : skips.state.waiting = none ∧
      skips.state.instruction? = some (.skipEqByte 0 0) ∧
        (Instruction.skipEqByte 0 0).skips idle skips.state = true := by
    decide +kernel
  obtain ⟨pc, resting⟩ : far.state.pc.toNat = 0x1FFE ∧ later.state.waiting = none := by
    unfold later ops far jumping idle random
    decide +kernel
  have beyond : 0x1002 < far.state.pc.toNat := by omega
  have late : 0xFFF ≤ far.state.pc.toNat := by omega
  have kept : ∀ op ∈ ops, op ≠ .reset := by simp [ops]
  obtain ⟨returns, -⟩ := pc_stays_in_bounds .standard random calling
  obtain ⟨-, advances, -⟩ := pc_stays_in_bounds .standard random skipping
  obtain ⟨-, -, limit, -⟩ := pc_stays_in_bounds (Config.standard.withJumpBase .v0) random nearby
  obtain ⟨-, -, -, moved, stuck⟩ := pc_stays_in_bounds .standard random jumping
  obtain ⟨stays, fails⟩ := stuck late ops kept
  exact ⟨saved, (returns 0x202 saved).1, (advances _ running decoded).2 idle equal, limit rfl, pc,
    moved beyond, stays, fails idle resting⟩

end Machine

end Chip8
