import Mathlib.Data.List.Forall2
import Chip8.Proofs.Isa.Coding
import Chip8.Proofs.Run.Failure
import Chip8.Proofs.Run.Listing

namespace Chip8

namespace Opcode

/-- All nibbles agree but the third, which names the second register. -/
structure EqButY (op op' : Opcode) : Prop where
  family : op.family = op'.family
  x : op.x = op'.x
  n : op.n = op'.n

end Opcode

namespace Instruction

section Spare

variable {op : Opcode} {i : Instruction} {family : UInt16} {x y y' n : UInt8}

theorem eqButY_registers (hf : family.toNat < 16) (hx : x.toNat < 16) (hy : y.toNat < 16)
    (hy' : y'.toNat < 16) (hn : n.toNat < 16) :
    (registers family x y n).EqButY (registers family x y' n) := by
  obtain ⟨family_eq, x_eq, -, n_eq⟩ := fields_registers hf hx hy hn
  obtain ⟨family_eq', x_eq', -, n_eq'⟩ := fields_registers hf hx hy' hn
  exact ⟨family_eq.trans family_eq'.symm, x_eq.trans x_eq'.symm, n_eq.trans n_eq'.symm⟩

theorem eq_registers_of_eqButY (hf : family.toNat < 16) (hx : x.toNat < 16) (hy : y.toNat < 16)
    (hn : n.toNat < 16) (same : op.EqButY (registers family x y n)) :
    op = registers family x op.y n := by
  obtain ⟨family_eq, x_eq, -, n_eq⟩ := fields_registers hf hx hy hn
  have hfamily : op.family.toNat = family.toNat := by
    rw [same.family, family_eq, UInt16.toNat_toUInt8]
    omega
  have word := eq_registers hf hfamily
  rwa [same.x, x_eq, same.n, n_eq] at word

def isShift : Instruction → Bool
  | shiftRight _ | shiftLeft _ => true
  | _ => false

theorem encodeWith_of_not_isShift (h : i.isShift = false) (spare : UInt8) :
    i.encodeWith spare = i.encode := by
  cases i with
  | shiftRight | shiftLeft => cases h
  | _ => rfl

theorem encodedBy_iff_of_isShift (range : i.InRange) (h : i.isShift = true) :
    i.EncodedBy op ↔ op.EqButY i.encode := by
  cases i with
  | shiftRight x | shiftLeft x =>
    have hx : x.toNat < 16 := UInt8.lt_iff_toNat_lt.1 range
    constructor
    · rintro ⟨spare, hs, rfl⟩
      exact eqButY_registers (by decide) hx (UInt8.lt_iff_toNat_lt.1 hs) (by decide) (by decide)
    · intro same
      exact ⟨op.y, y_in_range op,
        eq_registers_of_eqButY (by decide) hx (by decide) (by decide) same⟩
  | _ => cases h

/-- The words of an instruction: its encoding, and for a shift also what differs from that in the
third nibble. -/
theorem encodedBy_iff (range : i.InRange) :
    i.EncodedBy op ↔ op = i.encode ∨ i.isShift = true ∧ op.EqButY i.encode := by
  cases shift : i.isShift with
  | true =>
    rw [encodedBy_iff_of_isShift range shift]
    constructor
    · exact fun same => .inr ⟨rfl, same⟩
    · rintro (rfl | ⟨-, same⟩)
      · exact ⟨rfl, rfl, rfl⟩
      · exact same
  | false =>
    constructor
    · rintro ⟨spare, -, word⟩
      exact .inl (word.trans (encodeWith_of_not_isShift shift spare))
    · rintro (rfl | ⟨h, -⟩)
      · exact i.encodedBy_encode
      · cases h

end Spare

end Instruction

def State.instructionAt (s : State) (address : UInt16) : Except Fault Instruction := do
  let op ← { s with pc := address }.fetch
  op.decode

namespace Machine

theorem instructionAt_of_holds {m : Machine} {listing : Listing} {opcodes : List Opcode}
    (range : ∀ i ∈ listing, i.InRange)
    (encoded : List.Forall₂ Instruction.EncodedBy listing opcodes)
    (holds : m.Holds (Instruction.assemble opcodes)) {k : Nat} (inside : k < listing.length)
    {address : UInt16} (here : address.toNat = programStart + 2 * k) :
    m.state.instructionAt address = .ok listing[k] := by
  -- where the program counter is makes no difference to what memory holds
  have there : (m.setState { m.state with pc := address }).Holds (Instruction.assemble opcodes) :=
    holds
  obtain ⟨op, fetched, decoded⟩ := fetch_decode_of_holds range encoded there inside here
  change { m.state with pc := address }.fetch = .ok op at fetched
  rw [State.instructionAt, fetched]
  exact decoded

/-- Decoding is the inverse of encoding: for whole programs, which any machine with room for them
loads and then has instruction by instruction at every other address, and for single words, which
are words of what they decode to or else decode to nothing because there is nothing. -/
theorem decoding_inverts_encoding :
    (∀ (m : Machine) (listing : Listing) (opcodes : List Opcode), listing.length ≤ 1792 →
      (∀ i ∈ listing, i.InRange) → List.Forall₂ Instruction.EncodedBy listing opcodes →
        let loading := m.loadProgram (Instruction.assemble opcodes)
        loading.result = .ok () ∧
          ∀ k (_ : k < listing.length), loading.machine.state.instructionAt
            (UInt16.ofNat (programStart + 2 * k)) = .ok listing[k]) ∧
    (∀ (op : Opcode) (i : Instruction), op.decode = .ok i ↔
      i.InRange ∧ (op = i.encode ∨ i.isShift = true ∧ op.EqButY i.encode)) ∧
    ∀ (op : Opcode) (fault : Fault), op.decode = .error fault ↔
      fault = .unimplemented op.word ∧ ∀ i : Instruction, i.InRange → ¬ i.EncodedBy op := by
  refine ⟨?programs, ?words, ?holes⟩
  case programs =>
    intro m listing opcodes short range encoded loading
    have size : (Instruction.assemble opcodes).length ≤ programCapacity := by
      rw [Instruction.length_assemble, ← encoded.length_eq]
      unfold programCapacity
      omega
    have accepted : loading.result = .ok () := by
      dsimp only [loading]
      rw [loadProgram_eq, if_pos size]
    refine ⟨accepted, fun k inside => ?_⟩
    refine instructionAt_of_holds range encoded (holds_loadProgram m size) inside ?_
    -- the last instruction there is room for still has an address
    apply UInt16.toNat_ofNat_of_lt'
    simp only [programStart, UInt16.size]
    omega
  case words =>
    intro op i
    rw [Opcode.decode_eq_ok_iff, Instruction.instruction?_eq_some_iff]
    exact and_congr_right Instruction.encodedBy_iff
  case holes =>
    intro op fault
    rw [Opcode.decode_eq_error_iff, Option.eq_none_iff_forall_ne_some, and_comm]
    simp only [ne_eq, Instruction.instruction?_eq_some_iff, not_and]

/-- Memory full of left shifts, each with 0xA in the free nibble: the last one is read back from the
last two bytes, and the hole behind the family of arithmetic is the word of no instruction. -/
theorem decoding_inverts_encoding_up_to_the_last_byte :
    let opcodes := List.replicate 1792 (Opcode.mk 0x8FAE)
    let loading := (start .standard (.ofWords fun _ => 0)).loadProgram
      (Instruction.assemble opcodes)
    loading.result = .ok () ∧
      loading.machine.state.instructionAt 0xFFE = .ok (.shiftLeft 0xF) ∧
      (Instruction.shiftLeft 0xF).isShift = true ∧
      (Opcode.mk 0x8FAE).EqButY (Instruction.shiftLeft 0xF).encode ∧
      ∀ i : Instruction, i.InRange → ¬ i.EncodedBy ⟨0x8FAF⟩ := by
  intro opcodes loading
  obtain ⟨programs, words, holes⟩ := decoding_inverts_encoding
  have range : ∀ i ∈ List.replicate 1792 (Instruction.shiftLeft 0xF), i.InRange := by
    intro i hi
    rw [List.eq_of_mem_replicate hi]
    decide
  have encoded (n : Nat) : List.Forall₂ Instruction.EncodedBy
      (List.replicate n (Instruction.shiftLeft 0xF)) (List.replicate n ⟨0x8FAE⟩) := by
    induction n with
    | zero => exact .nil
    | succ n ih => exact .cons ⟨0xA, by decide, by decide⟩ ih
  obtain ⟨accepted, readBack⟩ := programs (start .standard (.ofWords fun _ => 0)) _ opcodes
    (List.length_replicate ..).le range (encoded 1792)
  have last := readBack 1791 (by rw [List.length_replicate]; decide)
  have address : UInt16.ofNat (programStart + 2 * 1791) = 0xFFE := by decide
  rw [List.getElem_replicate, address] at last
  obtain ⟨-, word⟩ := (words ⟨0x8FAE⟩ (.shiftLeft 0xF)).1 (by decide)
  have shifted := word.resolve_left (by decide)
  obtain ⟨-, hole⟩ := (holes ⟨0x8FAF⟩ (.unimplemented 0x8FAF)).1 (by decide)
  dsimp only [loading]
  exact ⟨accepted, last, shifted.1, shifted.2, hole⟩

end Machine

end Chip8
