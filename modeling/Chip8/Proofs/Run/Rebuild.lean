import Chip8.Proofs.Run.Draws
import Chip8.Proofs.Run.DueFault
import Chip8.Proofs.Run.Lockstep

namespace Chip8

theorem JumpBase.choose_self {α : Type} (base : JumpBase) (a : α) : base.choose a a = a := by
  cases base with
  | index | v0 => rfl

def State.withCapacity (s : State) (capacity : Nat) : State :=
  { s with stack := { s.stack with capacity := capacity } }

/-- The machine in its state, but built with another configuration and random source. -/
def Machine.rebuilt (m : Machine) (config : Config) (random : RandomSource) : Machine :=
  ⟨m.state.withCapacity config.stackDepth, config, random⟩

namespace Event

def overflows (e : Event) : Bool :=
  match e.answer with
  | .stepped (.error (.stackOverflow _)) => true
  | _ => false

/-- The event of a machine of one configuration finds the same with another one and with another
random source: as much room for a call, the same origin of a jump, the same bits of a random
byte. -/
structure Alike (e : Event) (config config' : Config) (random : RandomSource) : Prop where
  room : e.overflows = true → config'.stackDepth = config.stackDepth
  jump : ∀ address, e.executed? = some (.jumpOffset address) →
    config'.jumpBase = config.jumpBase ∨ e.before.state.i = (e.before.state.v.value 0).toUInt16
  byte : ∀ mask, e.mask? = some mask →
    random.nextByte.1 &&& mask = e.before.random.nextByte.1 &&& mask

end Event

namespace Machine

/-- The second machine is the first one as built with another configuration, and both have drawn as
many words, each from its own source. -/
def Twin (source : RandomSource) (config : Config) (source' : RandomSource) (m m' : Machine) :
    Prop :=
  ∃ count, m.random = source.ahead count ∧ m' = m.rebuilt config (source'.ahead count)

variable {config config' : Config} {source source' random : RandomSource} {m m' : Machine}
  {op : Operation} {keypad : Keypad} {i : Instruction}

theorem rebuilt_of_twin (twin : Twin source config source m m') :
    m' = m.rebuilt config m.random := by
  obtain ⟨count, drawn, rfl⟩ := twin
  rw [drawn]

theorem jumpOrigin_eq (m : Machine) :
    m.jumpOrigin = m.config.jumpBase.choose m.state.i (m.state.v.value 0).toUInt16 :=
  rfl

theorem jumpOrigin_rebuilt
    (same : config'.jumpBase = m.config.jumpBase ∨ m.state.i = (m.state.v.value 0).toUInt16) :
    (m.rebuilt config' random).jumpOrigin = m.jumpOrigin := by
  rw [m.jumpOrigin_eq]
  change config'.jumpBase.choose m.state.i (m.state.v.value 0).toUInt16 = _
  rcases same with base | origin
  · rw [base]
  · rw [origin, JumpBase.choose_self, JumpBase.choose_self]

theorem outcome_rebuilt
    (jump : ∀ address, i = .jumpOffset address →
      (m.rebuilt config' random).jumpOrigin = m.jumpOrigin)
    (byte : ∀ mask, i.mask? = some mask →
      random.nextByte.1 &&& mask = m.random.nextByte.1 &&& mask) :
    i.outcome keypad (m.rebuilt config' random).advance =
      (i.outcome keypad m.advance).rebuilt config'
        (random.ahead (if i.mask?.isSome then 1 else 0)) := by
  cases i with
  | jumpOffset address =>
    have pc : (Instruction.jumpOffset address).pcAfter keypad (m.rebuilt config' random).advance =
        (Instruction.jumpOffset address).pcAfter keypad m.advance :=
      congrArg (· + address) (jump address rfl)
    rw [Instruction.outcome, pc]
    rfl
  | random x mask =>
    have registers : (Instruction.random x mask).registersAfter (m.rebuilt config' random).advance =
        (Instruction.random x mask).registersAfter m.advance :=
      congrArg (m.state.v.put x) (byte mask rfl)
    rw [Instruction.outcome, registers]
    rfl
  | _ => rfl

theorem fault?_rebuilt (capacity : m.state.stack.capacity = m.config.stackDepth)
    (le : m.config.stackDepth ≤ config'.stackDepth) (running : m.state.waiting = none)
    (ahead : m.state.instruction? = some i)
    (room : (Event.mk m (.step keypad)).overflows = true →
      config'.stackDepth = m.config.stackDepth) :
    i.fault? (m.rebuilt config' random).state = i.fault? m.state := by
  cases i with
  | call address =>
    change (if m.state.stack.depth < config'.stackDepth then none
      else some (Fault.stackOverflow config'.stackDepth)) =
      if m.state.stack.depth < m.state.stack.capacity then none
      else some (Fault.stackOverflow m.state.stack.capacity)
    rw [capacity]
    by_cases fits : m.state.stack.depth < m.config.stackDepth
    · rw [if_pos fits, if_pos (fits.trans_le le)]
    · -- the smaller stack is full: the step overflows, and both stacks are of one size
      have full : (Instruction.call address).fault? m.state =
          some (.stackOverflow m.state.stack.capacity) := by
        rw [Instruction.fault?, capacity, if_neg fits]
      have failed := (step_of_fails (State.prospect_of_fault running ahead full) keypad).1
      have overflow : (Event.mk m (.step keypad)).overflows = true := by
        rw [Event.overflows, Event.answer, perform, Turn.map, failed]
      rw [room overflow]
  | _ => rfl

theorem step_rebuilt {count : Nat} (sound : Sound config m)
    (le : config.stackDepth ≤ config'.stackDepth) (drawn : m.random = source.ahead count)
    (alike : (Event.mk m (.step keypad)).Alike config config' (source'.ahead count)) :
    (m.step keypad).Matches (Twin source config' source')
      ((m.rebuilt config' (source'.ahead count)).step keypad) := by
  obtain rfl := sound.config_eq
  have core : m.state.SameCore (m.rebuilt config' (source'.ahead count)).state :=
    ⟨rfl, rfl, rfl, rfl, rfl⟩
  refine step_matches core ?_ keypad ⟨count, drawn, rfl⟩ ?_
  · intro running i ahead
    exact fault?_rebuilt sound.capacity_eq le running ahead alike.room
  · intro i ready
    have executed : (Event.mk m (.step keypad)).executed? = some i :=
      executed?_eq_some_iff.2 ready
    have asked : (Event.mk m (.step keypad)).mask? = i.mask? := by
      rw [Event.mask?, executed, Option.bind_some]
    have move : Move m (.step keypad) (i.outcome keypad m.advance) := .executes ready
    have after := move.random_after
    rw [Event.draws, asked, drawn, RandomSource.ahead_ahead] at after
    refine ⟨_, after, ?_⟩
    rw [outcome_rebuilt, RandomSource.ahead_ahead]
    · rintro address rfl
      exact jumpOrigin_rebuilt (alike.jump address executed)
    · intro mask masked
      exact alike.byte mask (asked.trans masked)

theorem perform_rebuilt {count : Nat} (sound : Sound config m)
    (le : config.stackDepth ≤ config'.stackDepth) (drawn : m.random = source.ahead count)
    (alike : (Event.mk m op).Alike config config' (source'.ahead count)) :
    (m.perform op).Matches (Twin source config' source')
      ((m.rebuilt config' (source'.ahead count)).perform op) := by
  cases op with
  | step keypad => exact (step_rebuilt sound le drawn alike).map Answer.stepped
  | provideKey key =>
    have delivered : (m.provideKey key).Matches (Twin source config' source')
        ((m.rebuilt config' (source'.ahead count)).provideKey key) := by
      apply provideKey_matches
      · rfl
      · exact ⟨count, drawn, rfl⟩
      · exact fun x _ => ⟨count, drawn, rfl⟩
    exact delivered.map Answer.delivered
  | loadProgram _ | loadFrom _ =>
    apply load_matches
    · trivial
    · exact ⟨count, drawn, rfl⟩
    · exact fun program => ⟨count, drawn, rfl⟩
  | takeFrame =>
    rw [perform, perform, takeFrame_eq, takeFrame_eq]
    exact ⟨rfl, rfl, count, drawn, rfl⟩
  | tick | reset => exact ⟨rfl, rfl, count, drawn, rfl⟩

/-- A machine at power-on runs in lockstep with one that was built with as deep a call stack or a
deeper one, as long as its events find the same on both. -/
theorem inLockstep_of_alike (le : config.stackDepth ≤ config'.stackDepth) {ops : List Operation}
    (alike : ∀ e ∈ (start config source).history ops, ∀ count,
      e.before.random = source.ahead count → e.Alike config config' (source'.ahead count)) :
    (start config source).InLockstep
      (fun m m' => Sound config m ∧ Twin source config' source' m m')
      (start config' source') ops := by
  refine inLockstep_of_matches ?_ ⟨.start config source, 0, rfl, rfl⟩ alike
  rintro m _ op ⟨sound, count, drawn, rfl⟩ allowed
  have matched := perform_rebuilt sound le drawn (allowed count drawn)
  exact ⟨matched.result_eq, matched.log_eq, sound.move (m.moves_perform op), matched.related⟩

theorem alike_of_agree {ops : List Operation}
    (agree : ∀ j e mask, (Event.drawing ((start config source).history ops))[j]? = some e →
      e.mask? = some mask →
      (source'.words (source'.drawn + j)).toUInt8 &&& mask =
        (source.words (source.drawn + j)).toUInt8 &&& mask) :
    ∀ e ∈ (start config source).history ops, ∀ count,
      e.before.random = source.ahead count → e.Alike config config (source'.ahead count) := by
  intro e mem count drawn
  refine ⟨fun _ => rfl, fun _ _ => .inl rfl, ?_⟩
  intro mask masked
  have draws : e ∈ Event.drawing ((start config source).history ops) :=
    List.mem_filter.2 ⟨mem, Option.isSome_iff_exists.2 ⟨mask, masked⟩⟩
  obtain ⟨j, number⟩ := List.mem_iff_getElem?.1 draws
  -- the number of the draw is the count of words drawn before it
  obtain rfl : j = count := source.ahead_injective ((random_of_draw number).symm.trans drawn)
  rw [drawn, RandomSource.nextByte_ahead, RandomSource.nextByte_ahead]
  exact agree j e mask number masked

/-- Sources whose words agree under the masks that a run puts over them make the same run. -/
theorem inLockstep_of_agree {ops : List Operation}
    (agree : ∀ j e mask, (Event.drawing ((start config source).history ops))[j]? = some e →
      e.mask? = some mask →
      (source'.words (source'.drawn + j)).toUInt8 &&& mask =
        (source.words (source.drawn + j)).toUInt8 &&& mask) :
    (start config source).InLockstep (fun m m' => m'.state = m.state) (start config source')
      ops := by
  intro n
  apply (inLockstep_of_alike le_rfl (alike_of_agree agree) n).mono
  rintro m _ ⟨sound, count, -, rfl⟩
  rw [rebuilt, ← sound.capacity_eq]
  rfl

/-- Over a run from power-on as many random words are drawn as steps have executed the instruction
that asks for a random byte, and the one of each number, counted from zero, puts the low byte of the
word of that number into its register, under its mask. A machine with another source answers,
reports and passes through the same states at every point, if the words agree under the masks; so
any other source will do where every mask is zero. -/
theorem random_words_count_under_masks (config : Config) (random : RandomSource)
    (ops : List Operation) :
    let m := start config random
    let draws := Event.drawing (m.history ops)
    (m.performAll ops).machine.random = random.ahead draws.length ∧
    (∀ j e, draws[j]? = some e → ∃ x mask, e.executed? = some (.random x mask) ∧
      e.after.state.v[x.toNat]? =
        some ((random.words (random.drawn + j)).toUInt8 &&& mask)) ∧
    (∀ other : RandomSource,
      (∀ j e mask, draws[j]? = some e → e.mask? = some mask →
        (other.words (other.drawn + j)).toUInt8 &&& mask =
          (random.words (random.drawn + j)).toUInt8 &&& mask) →
      m.InLockstep (fun after after' => after'.state = after.state) (start config other) ops) ∧
    ((∀ e ∈ draws, e.mask? = some 0) → ∀ other : RandomSource,
      m.InLockstep (fun after after' => after'.state = after.state) (start config other) ops) := by
  intro m draws
  refine ⟨random_performAll m ops, ?_, ?_, ?_⟩
  · intro j e number
    obtain ⟨-, masked⟩ := List.mem_filter.1 (List.mem_of_getElem? number)
    obtain ⟨mask, asked⟩ := Option.isSome_iff_exists.1 masked
    obtain ⟨x, executed, register⟩ := Event.register_of_mask? asked
    rw [random_of_draw number] at register
    exact ⟨x, mask, executed, register⟩
  · intro other agree
    exact inLockstep_of_agree agree
  · intro zero other
    apply inLockstep_of_agree
    intro j e mask number masked
    obtain rfl : 0 = mask :=
      Option.some.inj ((zero e (List.mem_of_getElem? number)).symm.trans masked)
    rw [UInt8.and_zero, UInt8.and_zero]

/-- Two masked draws with a reset between them, from sources that share the low nibble; and a draw
under no bits at all. -/
theorem random_words_count_under_masks_across_a_reset :
    let random := RandomSource.ofWords fun _ => 0xAB
    let other := RandomSource.ofWords fun _ => 0x1B
    let idle : Keypad := fun _ => false
    let drawn := [.loadProgram [0xC3, 0x0F], .step idle, .reset, .loadProgram [0xC3, 0x0F],
      .step idle]
    let unused := [.loadProgram [0xC3, 0x00], .step idle]
    let m := start .standard random
    (m.performAll drawn).machine.random = random.ahead 2 ∧
      (∃ e, (Event.drawing (m.history drawn))[1]? = some e ∧
        ∃ x : UInt8, e.after.state.v[x.toNat]? = some 0x0B) ∧
      m.InLockstep (fun after after' => after'.state = after.state) (start .standard other) drawn ∧
      m.InLockstep (fun after after' => after'.state = after.state) (start .standard other)
        unused := by
  intro random other idle drawn unused m
  obtain ⟨count, masks, zero⟩ : (Event.drawing (m.history drawn)).length = 2 ∧
      (∀ e ∈ Event.drawing (m.history drawn), e.mask? = some 0x0F) ∧
        ∀ e ∈ Event.drawing (m.history unused), e.mask? = some 0 := by
    decide +kernel
  have agree : ∀ j e mask, (Event.drawing (m.history drawn))[j]? = some e → e.mask? = some mask →
      (other.words (other.drawn + j)).toUInt8 &&& mask =
        (random.words (random.drawn + j)).toUInt8 &&& mask := by
    intro j e mask number masked
    obtain rfl : 0x0F = mask :=
      Option.some.inj ((masks e (List.mem_of_getElem? number)).symm.trans masked)
    change (0x1B : UInt32).toUInt8 &&& 0x0F = (0xAB : UInt32).toUInt8 &&& 0x0F
    decide
  obtain ⟨behind, register, lockstep, -⟩ := random_words_count_under_masks .standard random drawn
  obtain ⟨-, -, -, blind⟩ := random_words_count_under_masks .standard random unused
  obtain ⟨e, second⟩ : ∃ e, (Event.drawing (m.history drawn))[1]? = some e :=
    ⟨_, List.getElem?_eq_getElem (by rw [count]; decide)⟩
  refine ⟨count ▸ behind, ⟨e, second, ?_⟩, lockstep other agree, blind zero other⟩
  obtain ⟨x, mask, executed, value⟩ := register 1 e second
  obtain rfl : mask = 0x0F := by
    have masked := masks e (List.mem_of_getElem? second)
    rw [Event.mask?, executed] at masked
    exact Option.some.inj masked
  have nibble : (random.words (random.drawn + 1)).toUInt8 &&& 0x0F = 0x0B := by decide
  exact ⟨x, nibble ▸ value⟩

end Machine

/-- What a step needs to tell two configurations apart, the first of which asks for a call stack
that is no deeper. -/
inductive Divergence (config config' : Config) (m : Machine) : Operation → Prop where
  | call {keypad : Keypad} {address : UInt16} (running : m.state.waiting = none)
    (ahead : m.state.instruction? = some (.call address))
    (full : m.state.stack.depth = config.stackDepth)
    (deeper : config.stackDepth < config'.stackDepth) : Divergence config config' m (.step keypad)
  | jump {keypad : Keypad} {address : UInt16}
    (executed : m.executed? keypad = some (.jumpOffset address))
    (apart : m.state.i ≠ (m.state.v.value 0).toUInt16)
    (bases : config'.jumpBase ≠ config.jumpBase) : Divergence config config' m (.step keypad)

namespace Machine

variable {config config' : Config} {m : Machine} {op : Operation}

theorem call_of_overflow (sound : Sound config m) {capacity : Nat}
    (overflow : m.state.prospect = .fails (.stackOverflow capacity)) :
    m.state.waiting = none ∧ m.state.stack.depth = config.stackDepth ∧
      ∃ address, m.state.instruction? = some (.call address) := by
  obtain ⟨running, due⟩ := (State.fails_iff sound.capacity_eq sound.depth_le).1 overflow
  unfold State.dueFault? at due
  -- of the causes in their order only the full call stack gives this fault
  split_ifs at due with late known ret call <;> cases due
  obtain ⟨family, full⟩ := call
  refine ⟨running, full, m.state.opcode.nnn, ?_⟩
  rw [State.instruction?, State.fetch_eq, if_neg late]
  simp [Opcode.instruction?, family]

theorem exists_step_of_overflows (overflow : (Event.mk m op).overflows = true) :
    ∃ keypad capacity, op = .step keypad ∧
      (m.step keypad).result = .error (.stackOverflow capacity) := by
  cases op with
  | step keypad =>
    change (match Answer.stepped (m.step keypad).result with
      | .stepped (.error (.stackOverflow _)) => true
      | _ => false) = true at overflow
    split at overflow
    · next capacity failed => exact ⟨keypad, capacity, rfl, Answer.stepped.inj failed⟩
    · cases overflow
  | _ => cases overflow

theorem alike_of_not_divergence (sound : Sound config m)
    (le : config.stackDepth ≤ config'.stackDepth) (same : ¬ Divergence config config' m op) :
    (Event.mk m op).Alike config config' m.random := by
  refine ⟨?_, ?_, fun _ _ => rfl⟩
  · intro overflow
    obtain ⟨keypad, capacity, rfl, failed⟩ := exists_step_of_overflows overflow
    obtain ⟨running, full, address, ahead⟩ :=
      call_of_overflow sound (result_step_eq_error_iff.1 failed)
    by_contra deeper
    exact same (.call running ahead full (Nat.lt_of_le_of_ne le (Ne.symm deeper)))
  · intro address executed
    cases op with
    | step keypad =>
      by_contra apart
      rw [not_or] at apart
      exact same (.jump executed apart.2 apart.1)
    | _ => cases executed

/-- A machine at power-on and one that was built with another configuration, whose call stack is as
deep or deeper, answer, report and pass through the same states but for the capacity of the stack,
at every point of a run in which the first one has overflown no stack and has jumped relative to a
base only where both bases are the same. Where they have done so up to an operation and do not go on
so, the operation is a call on the full stack of the first one or a relative jump with the index
apart from V0. -/
theorem configuration_shows_in_calls_and_jumps (config config' : Config) (random : RandomSource)
    (le : config.stackDepth ≤ config'.stackDepth) :
    let m := start config random
    let m' := start config' random
    let R := fun after after' : Machine => after' = after.rebuilt config' after.random
    (∀ ops : List Operation, (∀ e ∈ m.history ops, e.overflows = false) →
      (config'.jumpBase = config.jumpBase ∨
        ∀ e ∈ m.history ops, ∀ address, e.executed? = some (.jumpOffset address) →
          e.before.state.i = (e.before.state.v.value 0).toUInt16) →
      m.InLockstep R m' ops) ∧
    ∀ (ops : List Operation) (op : Operation),
      (m.performAll ops).Matches R (m'.performAll ops) →
      ¬ (m.performAll (ops ++ [op])).Matches R (m'.performAll (ops ++ [op])) →
        Divergence config config' (m.performAll ops).machine op := by
  intro m m' R
  constructor
  · intro ops room jump n
    have alike : ∀ e ∈ m.history ops, ∀ count, e.before.random = random.ahead count →
        e.Alike config config' (random.ahead count) := by
      intro e mem count drawn
      refine ⟨?_, ?_, ?_⟩
      · intro overflow
        rw [room e mem] at overflow
        cases overflow
      · intro address executed
        exact jump.imp_right fun origin => origin e mem address executed
      · intro mask _
        rw [drawn]
    exact (inLockstep_of_alike le alike n).mono fun after after' h => rebuilt_of_twin h.2
  · intro ops op before apart
    by_contra same
    apply apart
    apply matches_concat before
    have reached : Reachable config random (m.performAll ops).machine := ⟨ops, rfl⟩
    have sound : Sound config (m.performAll ops).machine := reached.sound
    rw [before.related]
    have drawn : (m.performAll ops).machine.random = (m.performAll ops).machine.random.ahead 0 :=
      rfl
    have matched := perform_rebuilt sound le drawn (alike_of_not_divergence sound le same)
    exact matched.mono fun after after' => rebuilt_of_twin

/-- One frame and the index as base against two frames and V0: a call and a jump from where both
bases are zero; and two nested calls. -/
theorem configuration_shows_in_calls_and_jumps_when_nested :
    let random := RandomSource.ofWords fun _ => 0
    let idle : Keypad := fun _ => false
    let config := Config.standard.withStackDepth 1
    let config' := (Config.standard.withStackDepth 2).withJumpBase .v0
    let m := start config random
    let m' := start config' random
    let R := fun after after' : Machine => after' = after.rebuilt config' after.random
    let jumping := [.loadProgram [0x22, 0x04, 0, 0, 0xB3, 0x00], .step idle, .step idle, .tick]
    let calling := [.loadProgram [0x22, 0x00], .step idle]
    m.InLockstep R m' jumping ∧ m.InLockstep R m' calling ∧
      Divergence config config' (m.performAll calling).machine (.step idle) := by
  intro random idle config config' m m' R jumping calling
  obtain ⟨lockstep, diverges⟩ := configuration_shows_in_calls_and_jumps config config' random
    (by decide : config.stackDepth ≤ config'.stackDepth)
  obtain ⟨roomJumping, roomCalling, logs⟩ :
      (∀ e ∈ m.history jumping, e.overflows = false) ∧
      (∀ e ∈ m.history calling, e.overflows = false) ∧
      (m'.performAll (calling ++ [.step idle])).log ≠
        (m.performAll (calling ++ [.step idle])).log := by
    decide +kernel
  obtain ⟨origins, absolute⟩ :
      (∀ e ∈ m.history jumping, e.before.state.i = (e.before.state.v.value 0).toUInt16) ∧
      ∀ e ∈ m.history calling, e.before.state.i = (e.before.state.v.value 0).toUInt16 := by
    decide +kernel
  have shared : m.InLockstep R m' jumping :=
    lockstep jumping roomJumping (.inr fun e mem _ _ => origins e mem)
  have called : m.InLockstep R m' calling :=
    lockstep calling roomCalling (.inr fun e mem _ _ => absolute e mem)
  exact ⟨shared, called, diverges calling (.step idle) (called 2) fun h => logs h.log_eq⟩

end Machine

end Chip8
