import Chip8.Proofs.Execution.Footprint

namespace Chip8

namespace Instruction

/-- The instruction sets the program counter to an address of its own. -/
def jumps : Instruction → Bool
  | ret | jump _ | call _ | jumpOffset _ => true
  | _ => false

def opposite? : Instruction → Option Instruction
  | skipEqByte x value => some (skipNeByte x value)
  | skipNeByte x value => some (skipEqByte x value)
  | skipEq x y => some (skipNe x y)
  | skipNe x y => some (skipEq x y)
  | skipKeyDown x => some (skipKeyUp x)
  | skipKeyUp x => some (skipKeyDown x)
  | _ => none

/-- The address of the instruction that follows on a machine. -/
structure ContinuesAt (i : Instruction) (keypad : Keypad) (m : Machine) (pc : UInt16) : Prop where
  of_jump : ∀ address, i = .jump address ∨ i = .call address → pc = address
  of_ret : i = .ret → m.state.stack.frames.getLast? = some pc
  of_jumpOffset : ∀ address, i = .jumpOffset address →
    (m.config.jumpBase = .index → pc = m.state.i + address) ∧
      (m.config.jumpBase = .v0 → pc = (m.state.v.value 0).toUInt16 + address)
  of_skips : i.skips keypad m.state = true → pc = m.state.pc + 4
  otherwise : i.jumps = false → i.skips keypad m.state = false → pc = m.state.pc + 2

theorem skips_advance (i : Instruction) (keypad : Keypad) (s : State) :
    i.skips keypad s.advance = i.skips keypad s := by
  cases i <;> rfl

theorem jumps_of_skips {i : Instruction} {keypad : Keypad} {s : State}
    (h : i.skips keypad s = true) : i.jumps = false := by
  cases i with
  | ret | jump _ | call _ | jumpOffset _ => cases h
  | _ => rfl

theorem pcAfter_of_not_jumps {i : Instruction} (h : i.jumps = false) (keypad : Keypad)
    (m : Machine) :
    i.pcAfter keypad m.advance =
      if i.skips keypad m.state then m.state.pc + 4 else m.state.pc + 2 := by
  have two_and_two : m.state.pc + 2 + 2 = m.state.pc + 4 := UInt16.add_assoc ..
  have moved : i.pcAfter keypad m.advance =
      if i.skips keypad m.state.advance then m.state.pc + 2 + 2 else m.state.pc + 2 := by
    cases i with
    | ret | jump _ | call _ | jumpOffset _ => cases h
    | _ => rfl
  rw [moved, skips_advance, two_and_two]

theorem continuesAt_pcAfter {i : Instruction} {m : Machine} (safe : i.fault? m.state = none)
    (keypad : Keypad) : i.ContinuesAt keypad m (i.pcAfter keypad m.advance) where
  of_jump := by
    rintro address (rfl | rfl) <;> rfl
  of_ret := by
    rintro rfl
    have saved := fault?_ret_eq_none_iff.1 safe
    change m.state.stack.frames.getLast? = some (m.state.stack.frames.getLast?.getD _)
    rw [List.getLast?_eq_some_getLast saved]
    rfl
  of_jumpOffset := by
    rintro address rfl
    change (_ → m.config.jumpBase.choose m.state.i (m.state.v.value 0).toUInt16 + address = _) ∧
      (_ → m.config.jumpBase.choose m.state.i (m.state.v.value 0).toUInt16 + address = _)
    exact ⟨fun base => by rw [base]; rfl, fun base => by rw [base]; rfl⟩
  of_skips skips := by rw [pcAfter_of_not_jumps (jumps_of_skips skips), if_pos skips]
  otherwise falls goes := by
    rw [pcAfter_of_not_jumps falls, goes]
    rfl

theorem skips_opposite {i j : Instruction} (h : i.opposite? = some j) (keypad : Keypad)
    (s : State) : j.skips keypad s = !i.skips keypad s := by
  cases i with
  | skipEqByte _ _ | skipNeByte _ _ | skipEq _ _ | skipNe _ _ | skipKeyDown _ | skipKeyUp _ =>
    cases h
    simp [skips, bne]
  | _ => cases h

theorem opposite?_comm {i j : Instruction} (h : i.opposite? = some j) : j.opposite? = some i := by
  cases i with
  | skipEqByte _ _ | skipNeByte _ _ | skipEq _ _ | skipNe _ _ | skipKeyDown _ | skipKeyUp _ =>
    cases h
    rfl
  | _ => cases h

theorem inRange_opposite {i j : Instruction} (h : i.opposite? = some j) (range : i.InRange) :
    j.InRange := by
  cases i with
  | skipEqByte _ _ | skipNeByte _ _ | skipEq _ _ | skipNe _ _ | skipKeyDown _ | skipKeyUp _ =>
    cases h
    exact range
  | _ => cases h

theorem execute_skip {i j : Instruction} (skip : i.opposite? = some j) (range : i.InRange)
    {op : Opcode} (encoded : i.EncodedBy op) (keypad : Keypad) (m : Machine) :
    op.execute keypad m = .ok .none (m.setPc
      (if i.skips keypad m.state then m.state.pc + 4 else m.state.pc + 2)) := by
  have falls : i.jumps = false := by
    cases i with
    | ret | jump _ | call _ | jumpOffset _ => cases skip
    | _ => rfl
  rw [Opcode.execute_eq, instruction?_of_encodedBy range encoded, ← pcAfter_of_not_jumps falls]
  cases i with
  | skipEqByte _ _ | skipNeByte _ _ | skipEq _ _ | skipNe _ _ | skipKeyDown _ | skipKeyUp _ => rfl
  | _ => cases skip

end Instruction

namespace Opcode

open Instruction

/-- A word that is executed to its end leaves the program counter where its instruction goes on. Of
two words of skips on opposite conditions, executed on one machine with one keypad, exactly one
skips, and both leave everything but the program counter as it is. -/
theorem execute_continues_exactly :
    (∀ (op : Opcode) (keypad : Keypad) (m after : Machine) (effect : Effect),
      op.execute keypad m = .ok effect after →
        ∃ i : Instruction, i.InRange ∧ i.EncodedBy op ∧ i.ContinuesAt keypad m after.state.pc) ∧
    ∀ i j : Instruction, i.opposite? = some j → i.InRange →
      ∀ op op' : Opcode, i.EncodedBy op → j.EncodedBy op' → ∀ (keypad : Keypad) (m : Machine),
        (op.execute keypad m = .ok .none (m.setPc (m.state.pc + 4)) ∧
          op'.execute keypad m = .ok .none (m.setPc (m.state.pc + 2))) ∨
        (op.execute keypad m = .ok .none (m.setPc (m.state.pc + 2)) ∧
          op'.execute keypad m = .ok .none (m.setPc (m.state.pc + 4))) := by
  constructor
  · intro op keypad m after effect done
    obtain ⟨i, decoded, safe, rfl, rfl⟩ := outcome_of_execute done
    obtain ⟨range, encoded⟩ := instruction?_eq_some_iff.1 decoded
    exact ⟨i, range, encoded, continuesAt_pcAfter safe keypad⟩
  · intro i j pair range op op' encoded encoded' keypad m
    rw [execute_skip pair range encoded,
      execute_skip (opposite?_comm pair) (inRange_opposite pair range) encoded',
      skips_opposite pair]
    cases i.skips keypad m.state with
    | true => exact .inl ⟨rfl, rfl⟩
    | false => exact .inr ⟨rfl, rfl⟩

/-- A jump relative to V0 past the end of memory, and two skips on V0 at the last even address, of
which the one that skips comes out at address two. -/
theorem execute_continues_exactly_around_the_end :
    let idle : Keypad := fun _ => false
    let start := Machine.start { Config.standard with jumpBase := .v0 } (.ofWords fun _ => 0)
    let m := { start with state := { start.state with v := start.state.v.put 0 5, pc := 0xFFFE } }
    (∃ after, (Opcode.mk 0xBFFF).execute idle m = .ok .none after ∧ after.state.pc = 0x1004) ∧
      (Opcode.mk 0x3005).execute idle m = .ok .none (m.setPc 2) ∧
      (Opcode.mk 0x4005).execute idle m = .ok .none (m.setPc 0) := by
  intro idle start m
  obtain ⟨goesOn, pairs⟩ := execute_continues_exactly
  have decodes {op : Opcode} {i j : Instruction} (known : op.instruction? = some j)
      (range : i.InRange) (encoded : i.EncodedBy op) : i = j :=
    Option.some.inj ((instruction?_of_encodedBy range encoded).symm.trans known)
  constructor
  · obtain ⟨after, done⟩ : ∃ after, (Opcode.mk 0xBFFF).execute idle m = .ok .none after := ⟨_, rfl⟩
    obtain ⟨i, range, encoded, continues⟩ := goesOn _ _ _ _ _ done
    obtain rfl : i = .jumpOffset 0xFFF := decodes (by decide) range encoded
    exact ⟨after, done, ((continues.of_jumpOffset _ rfl).2 rfl).trans (by decide)⟩
  · have both := pairs (.skipEqByte 0 5) (.skipNeByte 0 5) rfl (by decide) ⟨0x3005⟩ ⟨0x4005⟩
      ⟨0, by decide, by decide⟩ ⟨0, by decide, by decide⟩ idle m
    have further : m.state.pc + 4 = 2 := by decide
    have next : m.state.pc + 2 = 0 := by decide
    rw [further, next] at both
    rcases both with skipped | ⟨stayed, -⟩
    · exact skipped
    · obtain ⟨i, range, encoded, continues⟩ := goesOn _ _ _ _ _ stayed
      obtain rfl : i = .skipEqByte 0 5 := decodes (by decide) range encoded
      have here : (0 : UInt16) = m.state.pc + 4 := continues.of_skips (by decide)
      rw [further] at here
      cases here

end Opcode

end Chip8
