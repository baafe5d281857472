import Chip8.Proofs.Run.History

namespace Chip8

namespace Memory

/-- The byte that data placed from one address on gives to another address. -/
def placed (data : List UInt8) (address a : Nat) : Option UInt8 :=
  if address ≤ a then data[a - address]? else none

theorem getElem?_overwrite_eq_or {size : Nat} (bytes : Vector UInt8 size) (address : Nat)
    (data : List UInt8) {a : Nat} (ha : a < size) :
    (overwrite bytes address data)[a]? = (placed data address a).or bytes[a]? := by
  rw [getElem?_overwrite, placed]
  by_cases above : address ≤ a
  · rw [if_pos above]
    by_cases below : a < address + data.length
    · have inside : a - address < data.length := by omega
      rw [if_pos ⟨above, below, ha⟩, List.getElem?_eq_getElem inside, Option.some_or]
    · have behind : data.length ≤ a - address := by omega
      rw [if_neg (by omega), List.getElem?_eq_none behind, Option.none_or]
  · rw [if_neg above, if_neg (by omega), Option.none_or]

theorem placed_eq_none {data : List UInt8} {address a : Nat} (h : a < address) :
    placed data address a = none := if_neg (Nat.not_le.2 h)

/-- The byte at an address at power-on: that of a glyph, or zero. -/
def initialByte (a : Nat) : UInt8 := if a < 80 then Font.bytes.getD a 0 else 0

theorem initialByte_eq (a : Nat) : initialByte a = Font.bytes[a]?.getD 0 := by
  rw [initialByte, List.getD_eq_getElem?_getD]
  split
  · rfl
  · next behind =>
    have length : Font.bytes.length = 80 := rfl
    rw [List.getElem?_eq_none (by omega), Option.getD_none]

theorem getElem?_initialMemory {a : Nat} (ha : a < 4096) :
    State.initialMemory.bytes[a]? = some (initialByte a) := by
  have blank : blank.bytes[a]? = some 0 := by simp [Memory.blank, filled, ha]
  rw [State.initialMemory, getElem?_overwrite_eq_or _ _ _ ha, placed, Font.base,
    if_pos (Nat.zero_le a), Nat.sub_zero, blank, initialByte_eq]
  cases Font.bytes[a]? <;> rfl

end Memory

namespace Instruction

/-- The byte that the instruction gives to an address: the hundreds, tens or units of Vx, or the
register that lies as far behind V0 as the address behind the index. -/
def written? (s : State) (a : Nat) : Instruction → Option UInt8
  | decimal x =>
    let value := (s.v.value x).toNat
    if a = s.i.toNat then some (UInt8.ofNat (value / 100))
    else if a = s.i.toNat + 1 then some (UInt8.ofNat (value / 10 % 10))
    else if a = s.i.toNat + 2 then some (UInt8.ofNat (value % 10))
    else none
  | store x => if s.i.toNat ≤ a ∧ a ≤ s.i.toNat + x.toNat then s.v[a - s.i.toNat]? else none
  | _ => none

def stores : Instruction → Bool
  | decimal _ | store _ => true
  | _ => false

theorem decimalDigits_eq (value : UInt8) :
    decimalDigits value = [UInt8.ofNat (value.toNat / 100), UInt8.ofNat (value.toNat / 10 % 10),
      UInt8.ofNat (value.toNat % 10)] := by
  have small := value.toNat_lt
  have hundreds : (value / 100 % 10).toNat = value.toNat / 100 := by
    change value.toNat / 100 % 10 = value.toNat / 100
    omega
  have tens : (value / 10 % 10).toNat = value.toNat / 10 % 10 := rfl
  have units : (value % 10).toNat = value.toNat % 10 := rfl
  rw [← hundreds, ← tens, ← units, UInt8.ofNat_toNat, UInt8.ofNat_toNat, UInt8.ofNat_toNat,
    decimalDigits]

theorem placed_decimalDigits (x : UInt8) (s : State) (a : Nat) :
    Memory.placed (decimalDigits (s.v.value x)) s.i.toNat a = (decimal x).written? s a := by
  rw [decimalDigits_eq, written?]
  by_cases above : s.i.toNat ≤ a
  · obtain ⟨k, rfl⟩ := Nat.exists_eq_add_of_le above
    rw [Memory.placed, if_pos above, Nat.add_sub_cancel_left]
    -- by how far the address lies behind the index
    match k with
    | 0 | 1 | 2 => simp
    | k + 3 => simp
  · rw [Memory.placed_eq_none (Nat.not_le.1 above), if_neg (by omega), if_neg (by omega),
      if_neg (by omega)]

theorem placed_stored {i : Instruction} (exist : i.RegistersExist) (s : State) (a : Nat) :
    Memory.placed (i.stored s) s.i.toNat a = i.written? s a := by
  cases i with
  | decimal x => exact placed_decimalDigits x s a
  | store x =>
    have hx : x.toNat < 16 := exist x (by simp [operands])
    have values : s.v.upTo x = s.v.toList.take (x.toNat + 1) := by
      rw [Registers.upTo, Registers.upTo?, if_pos hx, Option.getD_some]
    change Memory.placed (s.v.upTo x) s.i.toNat a =
      if s.i.toNat ≤ a ∧ a ≤ s.i.toNat + x.toNat then s.v[a - s.i.toNat]? else none
    rw [Memory.placed, values, List.getElem?_take, ite_and]
    apply if_congr Iff.rfl _ rfl
    apply if_congr _ _ rfl
    · omega
    · exact Vector.getElem?_toList
  | _ =>
    change Memory.placed [] s.i.toNat a = none
    simp [Memory.placed]

theorem getElem?_memoryAfter_eq_or {i : Instruction} (exist : i.RegistersExist) (s : State)
    {a : Nat} (ha : a < 4096) :
    (i.memoryAfter s).bytes[a]? = (i.written? s a).or s.memory.bytes[a]? := by
  rw [memoryAfter, Memory.getElem?_overwrite_eq_or _ _ _ ha, placed_stored exist]

end Instruction

def Operation.payload? : Operation → Option (List UInt8)
  | loadProgram program => some program
  | loadFrom reader => some reader.bytes
  | _ => none

namespace Event

def fails (e : Event) : Bool :=
  match e.answer with
  | .stepped (.error _) | .loaded (.error _) => true
  | _ => false

/-- The program that the event loads, if it is a load that succeeds. -/
def loaded? (e : Event) : Option (List UInt8) :=
  match e.answer with
  | .loaded (.ok _) => e.operation.payload?
  | _ => none

/-- The byte that the event gives to an address, if it covers the address. -/
def written? (a : Nat) (e : Event) : Option UInt8 :=
  if e.isReset then some (Memory.initialByte a)
  else (e.executed?.bind (·.written? e.before.state a)).or
    (e.loaded?.bind (Memory.placed · 0x200 a))

/-- The event is a step that stores, with the index in the glyphs. -/
def storesAmongGlyphs (e : Event) : Bool :=
  e.executed?.any Instruction.stores && e.before.state.i < 0x50

theorem loaded?_loadProgram (m : Machine) (program : List UInt8) :
    (Event.mk m (.loadProgram program)).loaded? =
      if program.length ≤ programCapacity then some program else none := by
  have answer : (Event.mk m (.loadProgram program)).answer =
    .loaded (m.loadProgram program).result := rfl
  rw [loaded?, answer, Machine.loadProgram_eq]
  by_cases short : program.length ≤ programCapacity
  · rw [if_pos short, if_pos short]
    rfl
  · rw [if_neg short, if_neg short]

theorem loaded?_eq (e : Event) : e.loaded? = e.operation.program? := by
  obtain ⟨m, op⟩ := e
  cases op with
  | loadProgram program => exact loaded?_loadProgram m program
  | loadFrom reader =>
    obtain ⟨program, failure⟩ := reader
    cases failure with
    | none => exact loaded?_loadProgram m program
    | some message => rfl
  | _ => rfl

theorem written?_of_isLoad {m : Machine} {op : Operation} (load : op.IsLoad) (a : Nat) :
    (Event.mk m op).written? a = op.program?.bind (Memory.placed · 0x200 a) := by
  rw [← loaded?_eq ⟨m, op⟩]
  obtain ⟨_, rfl⟩ | ⟨_, rfl⟩ := load.eq_load <;> exact Option.none_or

theorem written?_step (m : Machine) (keypad : Keypad) (a : Nat) :
    (Event.mk m (.step keypad)).written? a = match m.state.prospect with
      | .executes i => i.written? m.state a
      | _ => none := by
  change ((Event.mk m (.step keypad)).executed?.bind (·.written? m.state a)).or none = _
  rw [executed?_step, Option.or_none]
  cases m.state.prospect <;> rfl

theorem executed?_of_fails {e : Event} (failed : e.fails = true) : e.executed? = none := by
  obtain ⟨m, op⟩ := e
  cases op with
  | step keypad =>
    rw [executed?_step]
    cases h : m.state.prospect with
    | executes i =>
      have answer : (Event.mk m (.step keypad)).answer = .stepped (.ok i.effect) :=
        congrArg Answer.stepped (Machine.step_of_executes h keypad).1
      simp [fails, answer] at failed
    | _ => rfl
  | _ => rfl

theorem loaded?_of_fails {e : Event} (failed : e.fails = true) : e.loaded? = none := by
  unfold fails at failed
  unfold loaded?
  split at failed
  · next stepped => rw [stepped]
  · next refused => rw [refused]
  · cases failed

theorem written?_of_fails {e : Event} (failed : e.fails = true) (a : Nat) :
    e.written? a = none := by
  have kept : e.isReset = false := by
    obtain ⟨m, op⟩ := e
    cases op with
    | reset => cases failed
    | _ => rfl
  rw [written?, kept, executed?_of_fails failed, loaded?_of_fails failed]
  rfl

theorem written?_of_quiet {e : Event} (kept : e.isReset = false)
    (quiet : e.storesAmongGlyphs = false) {a : Nat} (ha : a < 80) : e.written? a = none := by
  have executed : e.executed?.bind (·.written? e.before.state a) = none := by
    apply Option.bind_eq_none_iff.2
    intro i executed
    have behind (stores : i.stores = true) : 80 ≤ e.before.state.i.toNat := by
      have large : ¬ e.before.state.i < 0x50 := by
        simpa [storesAmongGlyphs, executed, stores] using quiet
      exact UInt16.le_iff_toNat_le.1 (UInt16.not_lt.1 large)
    cases i with
    | decimal x =>
      have below := behind rfl
      rw [← Instruction.placed_decimalDigits]
      exact Memory.placed_eq_none (by omega)
    | store _ =>
      have below := behind rfl
      apply if_neg
      omega
    | _ => rfl
  have loaded : e.loaded?.bind (Memory.placed · 0x200 a) = none := by
    apply Option.bind_eq_none_iff.2
    intro program _
    exact Memory.placed_eq_none (by omega)
  rw [written?, kept, executed, loaded]
  rfl

end Event

/-- An operation leaves at an address the byte that it gives to it, or what was there. -/
theorem Move.memory_after {m after : Machine} {op : Operation} (move : Move m op after) {a : Nat}
    (ha : a < 4096) :
    after.state.memory.bytes[a]? = ((Event.mk m op).written? a).or m.state.memory.bytes[a]? := by
  cases move with
  | idles h | fails h =>
    rw [Event.written?_step, h]
    rfl
  | @executes keypad i ready =>
    obtain ⟨-, decoded, -⟩ := State.executes_iff.1 ready
    have exist : i.RegistersExist := State.registersExist_of_instruction? decoded
    rw [Event.written?_step, ready]
    exact Instruction.getElem?_memoryAfter_eq_or exist m.state.advance ha
  | refuses load refused =>
    rw [Event.written?_of_isLoad load, refused]
    rfl
  | loads accepted =>
    rw [Event.written?_of_isLoad (Operation.isLoad_of_program? accepted), accepted]
    exact Memory.getElem?_overwrite_eq_or _ _ _ ha
  | resets => exact Memory.getElem?_initialMemory ha
  | ignores _ | delivers _ | ticks | shows => rfl

namespace Machine

theorem getElem?_memory_performAll (m : Machine) (ops : List Operation) {a : Nat} (ha : a < 4096) :
    (m.performAll ops).machine.state.memory.bytes[a]? =
      (Event.last? (Event.written? a) (m.history ops)).or m.state.memory.bytes[a]? := by
  -- by the last operation, whose byte counts if it gives one
  induction ops using List.reverseRecOn with
  | nil => rfl
  | append_singleton ops op ih =>
    have move := moves_perform (m.performAll ops).machine op
    rw [machine_performAll_concat, move.memory_after ha, history_concat, Event.last?_concat, ih,
      Option.or_assoc]

theorem getElem?_memory_eq_last (config : Config) (random : RandomSource) (ops : List Operation)
    {a : Nat} (ha : a < 4096) :
    ((start config random).performAll ops).machine.state.memory.bytes[a]? =
      some ((Event.last? (Event.written? a) ((start config random).history ops)).getD
        (Memory.initialByte a)) := by
  have initial : (start config random).state.memory.bytes[a]? = some (Memory.initialByte a) :=
    Memory.getElem?_initialMemory ha
  rw [getElem?_memory_performAll _ _ ha, initial]
  cases Event.last? (Event.written? a) ((start config random).history ops) <;> rfl

theorem getElem?_memory_of_unwritten {m : Machine} {ops : List Operation} {a : Nat} (ha : a < 4096)
    (unwritten : ∀ e ∈ m.history ops, e.written? a = none) :
    (m.performAll ops).machine.state.memory.bytes[a]? = m.state.memory.bytes[a]? := by
  induction ops generalizing m with
  | nil => rfl
  | cons op rest ih =>
    have first : (m.perform op).machine.state.memory.bytes[a]? = m.state.memory.bytes[a]? := by
      rw [(m.moves_perform op).memory_after ha, unwritten _ (List.mem_cons_self ..),
        Option.none_or]
    exact (ih fun e later => unwritten e (List.mem_cons_of_mem _ later)).trans first

theorem memory_of_unwritten {m : Machine} {op : Operation}
    (unwritten : ∀ a < 4096, (Event.mk m op).written? a = none) :
    (m.perform op).machine.state.memory = m.state.memory := by
  apply Memory.ext_getElem?
  intro a
  by_cases ha : a < 4096
  · rw [(m.moves_perform op).memory_after ha, unwritten a ha, Option.none_or]
  · rw [Vector.getElem?_eq_none (Nat.not_lt.1 ha), Vector.getElem?_eq_none (Nat.not_lt.1 ha)]

theorem glyphs_stay (config : Config) (random : RandomSource) {ops : List Operation}
    (quiet : (Event.sinceReset ((start config random).history ops)).any
      Event.storesAmongGlyphs = false) {a : Nat} (ha : a < 80) :
    ((start config random).performAll ops).machine.state.memory.bytes[a]? = Font.bytes[a]? := by
  have inside : a < Font.bytes.length := ha
  have initial : some (Memory.initialByte a) = Font.bytes[a]? := by
    rw [Memory.initialByte_eq, List.getElem?_eq_getElem inside, Option.getD_some]
  induction ops using List.reverseRecOn with
  | nil => exact (Memory.getElem?_initialMemory (by omega)).trans initial
  | append_singleton ops op ih =>
    rw [history_concat, Event.sinceReset_concat] at quiet
    rw [machine_performAll_concat]
    generalize ((start config random).performAll ops).machine = m at *
    rw [(m.moves_perform op).memory_after (by omega)]
    cases reset : (Event.mk m op).isReset with
    | true =>
      -- a reset puts the glyphs back, whatever was there
      rw [Event.written?, reset, if_pos rfl, Option.some_or, initial]
    | false =>
      rw [reset, Bool.not_false, if_pos rfl, List.any_append, Bool.or_eq_false_iff] at quiet
      obtain ⟨before, last⟩ := quiet
      have lastQuiet : (Event.mk m op).storesAmongGlyphs = false := by simpa using last
      rw [Event.written?_of_quiet reset lastQuiet ha, Option.none_or]
      exact ih before

theorem slice_of_glyph {m : Machine}
    (glyphs : ∀ a < 80, m.state.memory.bytes[a]? = Font.bytes[a]?) {keypad : Keypad} {x : UInt8}
    (executed : m.executed? keypad = some (.glyph x)) (digit : m.state.v.value x ≤ 15) :
    let after := (m.step keypad).machine.state
    after.memory.slice after.i.toNat 5 =
      .ok ((Font.bytes.drop (5 * (m.state.v.value x).toNat)).take 5) := by
  intro after
  have small : (m.state.v.value x).toNat ≤ 15 := UInt8.le_iff_toNat_le.1 digit
  have step := (step_of_executes (executed?_eq_some_iff.1 executed) keypad).2
  have index : after.i.toNat = 5 * (m.state.v.value x).toNat := by
    have at_glyph : after.i = Font.address (m.state.v.value x) := by
      change (m.step keypad).machine.state.i = _
      rw [step]
      rfl
    rw [at_glyph, Font.toNat_address, Font.base, Font.glyphSize, Nat.zero_add, Nat.mul_comm]
  have same : after.memory = m.state.memory := by
    change (m.step keypad).machine.state.memory = _
    rw [step]
    rfl
  have fits : Memory.Fits after.i.toNat 5 := by
    unfold Memory.Fits
    omega
  rw [Memory.slice, if_pos fits, same, index]
  congr 1
  apply List.ext_getElem?
  intro k
  rw [List.getElem?_take, List.getElem?_take, List.getElem?_drop, List.getElem?_drop]
  by_cases row : k < 5
  · rw [if_pos row, if_pos row, Vector.getElem?_toList]
    exact glyphs _ (by omega)
  · rw [if_neg row, if_neg row]

/-- After any run from power-on every address holds the byte of the last event that covers it, and
its byte at power-on if there is none. An event that covers no address changes nothing, and no
failed one covers any. As long as no instruction has stored with the index in the glyphs since the
last reset, the glyphs are in place, and the instruction that points at the glyph of a digit leaves
that glyph at the index. -/
theorem memory_is_last_write (config : Config) (random : RandomSource) (past : List Operation) :
    let m := ((start config random).performAll past).machine
    let events := (start config random).history past
    (∀ a < 4096, m.state.memory.bytes[a]? =
      some ((Event.last? (Event.written? a) events).getD (Memory.initialByte a))) ∧
    (∀ op, (∀ a < 4096, (Event.mk m op).written? a = none) →
      (m.perform op).machine.state.memory = m.state.memory) ∧
    (∀ op, (Event.mk m op).fails = true →
      (m.perform op).machine.state.memory = m.state.memory) ∧
    ((Event.sinceReset events).any Event.storesAmongGlyphs = false →
      (∀ a < 80, m.state.memory.bytes[a]? = Font.bytes[a]?) ∧
      ∀ keypad x, m.executed? keypad = some (.glyph x) → m.state.v.value x ≤ 15 →
        let after := (m.step keypad).machine.state
        after.memory.slice after.i.toNat 5 =
          .ok ((Font.bytes.drop (5 * (m.state.v.value x).toNat)).take 5)) := by
  intro m events
  refine ⟨?_, ?_, ?_, ?_⟩
  · intro a ha
    exact getElem?_memory_eq_last config random past ha
  · intro op unwritten
    exact memory_of_unwritten unwritten
  · intro op failed
    exact memory_of_unwritten fun a _ => Event.written?_of_fails failed a
  · intro quiet
    have glyphs : ∀ a < 80, m.state.memory.bytes[a]? = Font.bytes[a]? :=
      fun a ha => glyphs_stay config random quiet ha
    refine ⟨glyphs, ?_⟩
    intro keypad x executed digit
    exact slice_of_glyph glyphs executed digit

/-- The digits of 254 go behind the program, over a byte of it, and then the glyph of 0xD is pointed
at. -/
theorem memory_is_last_write_over_a_program :
    let random := RandomSource.ofWords fun _ => 0
    let idle : Keypad := fun _ => false
    let program : List UInt8 := [0x60, 0xFE, 0xA2, 0x0A, 0xF0, 0x33, 0x60, 0x0D, 0xF0, 0x29, 0xFF]
    let past := [.loadProgram program, .step idle, .step idle, .step idle, .step idle]
    let m := ((start .standard random).performAll past).machine
    let after := (m.step idle).machine.state
    m.state.memory.bytes[0x20A]? = some 2 ∧ m.state.memory.bytes[0x20B]? = some 5 ∧
      m.state.memory.bytes[0x20C]? = some 4 ∧
      (m.perform (.loadFrom ⟨[0x12], some "gone"⟩)).machine.state.memory = m.state.memory ∧
      after.memory.slice after.i.toNat 5 = .ok [0xE0, 0x90, 0x90, 0x90, 0xE0] := by
  intro random idle program past m after
  obtain ⟨holds, unwritten, failed, quiet⟩ := memory_is_last_write .standard random past
  obtain ⟨first, second, third⟩ :
      Event.last? (Event.written? 0x20A) ((start .standard random).history past) = some 2 ∧
        Event.last? (Event.written? 0x20B) ((start .standard random).history past) = some 5 ∧
          Event.last? (Event.written? 0x20C) ((start .standard random).history past) = some 4 := by
    decide +kernel
  obtain ⟨noStore, executed, digit, value⟩ :
      (Event.sinceReset ((start .standard random).history past)).any
          Event.storesAmongGlyphs = false ∧
        m.executed? idle = some (.glyph 0) ∧ m.state.v.value 0 ≤ 15 ∧
          (m.state.v.value 0).toNat = 13 := by
    decide +kernel
  refine ⟨?_, ?_, ?_, ?_, ?_⟩
  · rw [holds 0x20A (by decide), first, Option.getD_some]
  · rw [holds 0x20B (by decide), second, Option.getD_some]
  · rw [holds 0x20C (by decide), third, Option.getD_some]
  · exact failed _ rfl
  · rw [(quiet noStore).2 idle 0 executed digit, value]
    rfl

end Machine

end Chip8
