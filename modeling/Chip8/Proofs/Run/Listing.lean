import Mathlib.Data.List.Forall2
import Mathlib.Data.Nat.Init
import Chip8.Proofs.Isa.Coding
import Chip8.Proofs.Run.Failure

namespace Chip8

abbrev Listing := List Instruction

namespace Listing

/-- The instruction at an address: the first one is where programs start, and each takes two
bytes. -/
def at? (listing : Listing) (address : UInt16) : Option Instruction :=
  if programStart ≤ address.toNat ∧ address.toNat % 2 = 0 then
    listing[(address.toNat - programStart) / 2]?
  else none

/-- A step that looks its instruction up. The program counter moves behind the instruction first
and comes back if it fails; outside the listing there is nothing to execute. -/
def step (listing : Listing) (m : Machine) (keypad : Keypad) : Except Fault Effect × Machine :=
  match m.state.waiting with
  | some _ => (.ok .none, m)
  | none =>
    match listing.at? m.state.pc with
    | none => (.error (.outOfBounds m.state.pc.toNat), m)
    | some i =>
      match i.execute keypad m.advance with
      | .ok effect after => (.ok effect, after)
      | .error fault after =>
        (.error fault, after.setState { after.state with pc := m.state.pc })

/-- What the operations other than steps do has nothing to do with code. -/
def perform (listing : Listing) (m : Machine) : Operation → Answer × Machine
  | .step keypad => (.stepped (listing.step m keypad).1, (listing.step m keypad).2)
  | op => ((m.perform op).result, (m.perform op).machine)

def trace (listing : Listing) (m : Machine) : List Operation → List (Answer × Machine)
  | [] => []
  | op :: rest => listing.perform m op :: listing.trace (listing.perform m op).2 rest

theorem trace_take (listing : Listing) (m : Machine) (ops : List Operation) (n : Nat) :
    (listing.trace m ops).take n = listing.trace m (ops.take n) := by
  induction ops generalizing m n with
  | nil => simp [trace]
  | cons op rest ih =>
    cases n with
    | zero => rfl
    | succ n => exact congrArg (_ :: ·) (ih _ n)

theorem at?_of_toNat_eq (listing : Listing) {address : UInt16} {k : Nat}
    (h : address.toNat = programStart + 2 * k) : listing.at? address = listing[k]? := by
  have even : address.toNat % 2 = 0 := by rw [h, programStart]; omega
  rw [at?, if_pos ⟨by omega, even⟩]
  congr 1
  omega

end Listing

/-- A step that is not idle finds the program counter at an instruction of the listing, and if it
stores anything, it stores beside the listing. -/
def Event.StaysIn (listing : Listing) : Event → Prop
  | ⟨m, .step keypad⟩ => m.state.waiting = none →
    (∃ k < listing.length, m.state.pc.toNat = programStart + 2 * k) ∧
      ∀ i ∈ m.executed? keypad, ∀ a, m.state.i.toNat ≤ a → a < m.state.i.toNat + i.storedLength →
        ¬ (programStart ≤ a ∧ a < programStart + 2 * listing.length)
  | _ => True

instance (listing : Listing) : (e : Event) → Decidable (e.StaysIn listing)
  | ⟨_, .step _⟩ => inferInstanceAs (Decidable (_ → _ ∧ _))
  | ⟨_, .provideKey _⟩ | ⟨_, .tick⟩ | ⟨_, .loadProgram _⟩ | ⟨_, .loadFrom _⟩ | ⟨_, .reset⟩
  | ⟨_, .takeFrame⟩ => .isTrue trivial

namespace Instruction

theorem getElem?_assemble (opcodes : List Opcode) (k : Nat) :
    (assemble opcodes)[2 * k]? = opcodes[k]?.map (fun op => Word.high op.word) ∧
      (assemble opcodes)[2 * k + 1]? = opcodes[k]?.map fun op => Word.low op.word := by
  induction opcodes generalizing k with
  | nil => exact ⟨rfl, rfl⟩
  | cons op rest ih =>
    cases k with
    | zero => exact ⟨rfl, rfl⟩
    | succ k => exact ih k

end Instruction

namespace Machine

/-- The program lies in memory, from the address on where programs start. -/
def Holds (m : Machine) (program : List UInt8) : Prop :=
  ∀ k < program.length, m.state.memory.bytes[programStart + k]? = program[k]?

def trace (m : Machine) (ops : List Operation) : List (Answer × Machine) :=
  (m.history ops).map fun e => (e.answer, e.after)

theorem fetch_of_holds {m : Machine} {opcodes : List Opcode} {op : Opcode} {k : Nat}
    (holds : m.Holds (Instruction.assemble opcodes)) (pc : m.state.pc.toNat = programStart + 2 * k)
    (hk : opcodes[k]? = some op) : m.state.fetch = .ok op := by
  have inside : k < opcodes.length := (List.getElem?_eq_some_iff.1 hk).1
  obtain ⟨hhigh, hlow⟩ := Instruction.getElem?_assemble opcodes k
  have high := holds (2 * k) (by rw [Instruction.length_assemble]; omega)
  have low := holds (2 * k + 1) (by rw [Instruction.length_assemble]; omega)
  rw [hhigh, hk, Option.map_some] at high
  rw [hlow, hk, Option.map_some, ← Nat.add_assoc] at low
  rw [State.fetch, pc, Memory.readWord, high, low]
  dsimp only
  rw [Word.ofBytes_high_low]

theorem fetch_decode_of_holds {m : Machine} {listing : Listing} {opcodes : List Opcode} {k : Nat}
    (range : ∀ i ∈ listing, i.InRange)
    (encoded : List.Forall₂ Instruction.EncodedBy listing opcodes)
    (holds : m.Holds (Instruction.assemble opcodes)) (inside : k < listing.length)
    (pc : m.state.pc.toNat = programStart + 2 * k) :
    ∃ op, m.state.fetch = .ok op ∧ op.decode = .ok listing[k] := by
  have inside' : k < opcodes.length := encoded.length_eq ▸ inside
  refine ⟨opcodes[k], fetch_of_holds holds pc (List.getElem?_eq_getElem inside'), ?_⟩
  exact Opcode.decode_eq_ok_iff.2 (Instruction.instruction?_of_encodedBy
    (range _ (List.getElem_mem inside)) (encoded.get inside inside'))

theorem holds_of_overwrite {m after : Machine} {program data : List UInt8} {address : Nat}
    (holds : m.Holds program)
    (written : after.state.memory.bytes = Memory.overwrite m.state.memory.bytes address data)
    (beside : ∀ a, address ≤ a → a < address + data.length →
      ¬ (programStart ≤ a ∧ a < programStart + program.length)) : after.Holds program := by
  intro k hk
  rw [written, Memory.getElem?_overwrite, if_neg]
  · exact holds k hk
  · rintro ⟨above, below, -⟩
    exact beside _ above below ⟨by omega, by omega⟩

theorem holds_loadProgram (m : Machine) {program : List UInt8}
    (short : program.length ≤ programCapacity) : (m.loadProgram program).machine.Holds program := by
  intro k hk
  rw [loadProgram_eq, if_pos short]
  change (Memory.overwrite m.state.memory.bytes programStart program)[programStart + k]? = _
  have inside : programStart + k < 4096 := by
    unfold programStart
    unfold programCapacity at short
    omega
  rw [Memory.getElem?_overwrite, if_pos ⟨by omega, by omega, inside⟩, Nat.add_sub_cancel_left]

theorem holds_perform {m : Machine} {op : Operation} {program : List UInt8}
    {listing : Listing} (size : program.length = 2 * listing.length) (holds : m.Holds program)
    (continues : op.Continues) (stays : Event.StaysIn listing ⟨m, op⟩) :
    (m.perform op).machine.Holds program := by
  have move := m.moves_perform op
  generalize (m.perform op).machine = after at move
  cases move with
  | idles _ | fails _ | ignores _ | delivers _ | ticks | shows => exact holds
  | refuses load _ => exact absurd load continues.not_isLoad
  | loads accepted => exact absurd (Operation.isLoad_of_program? accepted) continues.not_isLoad
  | resets => exact continues.elim
  | @executes keypad i ready =>
    obtain ⟨running, decoded, -⟩ := State.executes_iff.1 ready
    have exist : i.RegistersExist := State.registersExist_of_instruction? decoded
    -- every instruction leaves memory as written over with what it stores, most of them nothing
    obtain ⟨-, beside⟩ := stays running
    have written : (i.outcome keypad m.advance).state.memory.bytes =
      Memory.overwrite m.state.memory.bytes m.state.i.toNat (i.stored m.state.advance) := rfl
    refine holds_of_overwrite holds written fun a above below => ?_
    rw [Instruction.length_stored exist] at below
    rw [size]
    exact beside i (executed?_eq_some_iff.2 ready) a above below

theorem step_of_decoded {m : Machine} {op : Opcode} {i : Instruction} {keypad : Keypad}
    (running : m.state.waiting = none) (fetched : m.state.fetch = .ok op)
    (decoded : op.decode = .ok i) :
    ((m.step keypad).result, (m.step keypad).machine) =
      match i.execute keypad m.advance with
      | .ok effect after => (.ok effect, after)
      | .error fault after =>
        (.error fault, after.setState { after.state with pc := m.state.pc }) := by
  have executed := op.execute_run keypad m
  rw [decoded] at executed
  change op.execute keypad m = (match i.execute keypad m.advance with
    | .ok effect after => .ok effect after
    | .error fault after => .error fault (after.setState { after.state with pc := m.state.pc }))
    at executed
  simp only [step, isWaiting, running, Option.isSome_none, Bool.false_eq_true, if_false, fetched,
    executeFetched, executed]
  cases i.execute keypad m.advance <;> rfl

theorem perform_eq_listing {m : Machine} {op : Operation} {listing : Listing}
    {opcodes : List Opcode} (range : ∀ i ∈ listing, i.InRange)
    (encoded : List.Forall₂ Instruction.EncodedBy listing opcodes)
    (holds : m.Holds (Instruction.assemble opcodes)) (stays : Event.StaysIn listing ⟨m, op⟩) :
    listing.perform m op = ((m.perform op).result, (m.perform op).machine) := by
  cases op with
  | step keypad =>
    suffices listing.step m keypad = ((m.step keypad).result, (m.step keypad).machine) by
      rw [Listing.perform, this]
      rfl
    cases hw : m.state.waiting with
    | some x => simp [Listing.step, step, isWaiting, hw]
    | none =>
      obtain ⟨⟨k, inside, pc⟩, -⟩ := stays hw
      -- both sides have the same instruction: one looks it up, the other fetches its word
      have listed : listing.at? m.state.pc = some listing[k] := by
        rw [listing.at?_of_toNat_eq pc, List.getElem?_eq_getElem inside]
      obtain ⟨op, fetched, decoded⟩ := fetch_decode_of_holds range encoded holds inside pc
      rw [step_of_decoded hw fetched decoded]
      simp only [Listing.step, hw, listed]
  | _ => rfl

/-- A run that stays in the listing is answered by the listing, operation by operation. -/
theorem trace_eq_listing {m : Machine} {listing : Listing} {opcodes : List Opcode}
    (range : ∀ i ∈ listing, i.InRange)
    (encoded : List.Forall₂ Instruction.EncodedBy listing opcodes)
    (holds : m.Holds (Instruction.assemble opcodes)) (ops : List Operation)
    (continues : ∀ op ∈ ops, op.Continues) (stays : ∀ e ∈ m.history ops, e.StaysIn listing) :
    m.trace ops = listing.trace m ops := by
  -- that the program is still where it was loaded is what the induction carries along
  induction ops generalizing m with
  | nil => rfl
  | cons op rest ih =>
    have first : Event.StaysIn listing ⟨m, op⟩ := stays _ (List.mem_cons_self ..)
    have same := perform_eq_listing range encoded holds first
    have size : (Instruction.assemble opcodes).length = 2 * listing.length := by
      rw [Instruction.length_assemble, encoded.length_eq]
    have later : (m.perform op).machine.Holds (Instruction.assemble opcodes) :=
      holds_perform size holds (continues op (List.mem_cons_self ..)) first
    rw [Listing.trace, same]
    exact congrArg (_ :: ·) (ih later (fun op' h => continues op' (List.mem_cons_of_mem _ h))
      fun e h => stays e (List.mem_cons_of_mem _ h))

/-- A listing that is encoded and loaded into a machine at power-on is interpreted by the machine:
for as long as the run stays in the listing, answers and machines are those of looking up. -/
theorem machine_interprets_listing (config : Config) (random : RandomSource) {listing : Listing}
    {opcodes : List Opcode} (short : listing.length ≤ 1792) (range : ∀ i ∈ listing, i.InRange)
    (encoded : List.Forall₂ Instruction.EncodedBy listing opcodes) {ops : List Operation}
    (continues : ∀ op ∈ ops, op.Continues) :
    let loading := (start config random).loadProgram (Instruction.assemble opcodes)
    loading.result = .ok () ∧
      ∀ n, (∀ e ∈ (loading.machine.history ops).take n, e.StaysIn listing) →
        (loading.machine.trace ops).take n = (listing.trace loading.machine ops).take n := by
  intro loading
  have size : (Instruction.assemble opcodes).length ≤ programCapacity := by
    rw [Instruction.length_assemble, ← encoded.length_eq]
    unfold programCapacity
    omega
  have accepted : loading.result = .ok () := by
    dsimp only [loading]
    rw [loadProgram_eq, if_pos size]
  refine ⟨accepted, fun n stays => ?_⟩
  rw [history_take] at stays
  have prefixes := trace_eq_listing range encoded (holds_loadProgram _ size) (ops.take n)
    (fun op h => continues op (List.mem_of_mem_take h)) stays
  rw [trace, ← List.map_take, history_take, listing.trace_take]
  exact prefixes

/-- Eight bytes of code that store right behind themselves, with a nibble of choice in the second
instruction. -/
theorem machine_interprets_storing_listing :
    let listing : Listing := [.setIndex 0x208, .shiftRight 1, .store 1, .jump 0x202]
    let opcodes : List Opcode := [⟨0xA208⟩, ⟨0x8136⟩, ⟨0xF155⟩, ⟨0x1202⟩]
    let idle : Keypad := fun _ => false
    let ops := [.step idle, .step idle, .tick, .step idle, .step idle, .takeFrame, .step idle]
    let m := ((start .standard (.ofWords fun _ => 0)).loadProgram
      (Instruction.assemble opcodes)).machine
    m.trace ops = listing.trace m ops := by
  intro listing opcodes idle ops m
  have encoded : List.Forall₂ Instruction.EncodedBy listing opcodes :=
    .cons ⟨0, by decide, by decide⟩ (.cons ⟨3, by decide, by decide⟩
      (.cons ⟨0, by decide, by decide⟩ (.cons ⟨0, by decide, by decide⟩ .nil)))
  have stays : ∀ e ∈ (m.history ops).take 7, e.StaysIn listing := by decide +kernel
  exact (machine_interprets_listing .standard (.ofWords fun _ => 0) (by decide) (by decide)
    encoded (by simp [ops, Operation.Continues])).2 7 stays

end Machine

end Chip8
