import Mathlib.Algebra.Ring.Nat
import Chip8.Isa.Mnemonic
import Chip8.Proofs.Isa.Coding
import Chip8.Proofs.Text.Digits

namespace Chip8

namespace Operand

def Fits : Operand → Prop
  | register x => x < 0x10
  | address a | offset a => a < 0x1000
  | rows count => count < 0x10
  | _ => True

def width : Operand → Nat
  | register _ | delayTimer | soundTimer => 2
  | byte _ => 4
  | address _ => 5
  | offset _ => 6
  | rows count => if count.toNat < 10 then 1 else 2
  | atIndex => 3
  | index | key | glyph | decimal => 1

theorem length_marked {width n : Nat} (h : n < 16 ^ (width + 1)) :
    (Hex.marked (width + 1) n).length = width + 3 := by
  rw [← String.length_toList, Hex.toList_marked, Hex.leftpad_digits h, List.length_cons,
    List.length_cons, Hex.length_places]

theorem length_toString {n : Nat} (h : n < 16) :
    (toString n).length = if n < 10 then 1 else 2 := by
  have all : ∀ n < 16, (toString n).length = if n < 10 then 1 else 2 := by decide
  exact all n h

theorem length_text {o : Operand} (fits : o.Fits) : o.text.length = o.width := by
  cases o with
  | register x =>
    have one : Hex.digits x.toNat = [Hex.digit x.toNat] :=
      Hex.digits_of_lt (UInt8.lt_iff_toNat_lt.1 fits)
    simp [text, width, Hex.plain, one, ← String.length_toList]
  | byte value => exact length_marked value.toNat_lt
  | address a => exact length_marked (UInt16.lt_iff_toNat_lt.1 fits)
  | offset a =>
    rw [text, String.length_append, length_marked (UInt16.lt_iff_toNat_lt.1 fits)]
    rfl
  | rows count => exact length_toString (UInt8.lt_iff_toNat_lt.1 fits)
  | index | atIndex | delayTimer | soundTimer | key | glyph | decimal => rfl

end Operand

theorem length_intercalate_cons (sep part : String) (parts : List String) :
    (sep.intercalate (part :: parts)).length =
      part.length + (parts.map fun p => sep.length + p.length).sum := by
  induction parts generalizing part with
  | nil => rw [String.intercalate_singleton]; rfl
  | cons next parts ih =>
    rw [String.intercalate_cons_cons, String.length_append, String.length_append, ih,
      List.map_cons, List.sum_cons]
    omega

namespace Instruction

variable {i : Instruction}

theorem fits_of_inRange (range : i.InRange) : ∀ o ∈ i.operands, o.Fits := by
  cases i <;> simp_all [operands, InRange, Operand.Fits]

theorem length_text (i : Instruction) :
    i.text.length = i.name.length + ((i.operands.map fun o => 2 + o.text.length).sum - 1) := by
  unfold text
  cases i.operands with
  | nil => rfl
  | cons o rest =>
    have blank : " ".length = 1 := rfl
    have comma : ", ".length = 2 := rfl
    simp only [List.map_cons, List.map_map, Function.comp_def, List.sum_cons,
      String.length_append, length_intercalate_cons, blank, comma]
    omega

/-- The length of the text if all operands fit. -/
def width (i : Instruction) : Nat :=
  i.name.length + ((i.operands.map fun o => 2 + o.width).sum - 1)

theorem length_text_of_inRange (range : i.InRange) : i.text.length = i.width := by
  have operands : (i.operands.map fun o => 2 + o.text.length) =
      i.operands.map fun o => 2 + o.width := by
    apply List.map_congr_left
    intro o h
    rw [Operand.length_text (fits_of_inRange range o h)]
  rw [length_text, operands, width]

theorem width_draw (x y rows : UInt8) :
    (draw x y rows).width = if rows.toNat < 10 then 13 else 14 := by
  have letters : "DRW".length = 3 := rfl
  simp only [width, name, letters, operands, List.map_cons, List.map_nil, List.sum_cons,
    List.sum_nil, Operand.width]
  split <;> rfl

theorem width_lt (other : ∀ x y rows, i ≠ draw x y rows) : i.width < 14 := by
  cases i with
  | draw x y rows => exact absurd rfl (other x y rows)
  | _ => simp [width, name, operands, Operand.width, ← String.length_toList]

/-- Sprites of ten rows or more have the longest texts. -/
theorem width_le (i : Instruction) :
    i.width ≤ 14 ∧ (i.width = 14 ↔ ∃ x y rows, i = draw x y rows ∧ 10 ≤ rows.toNat) := by
  by_cases drawing : ∃ x y rows, i = draw x y rows
  · obtain ⟨x, y, rows, rfl⟩ := drawing
    rw [width_draw]
    refine ⟨by split <;> decide, ?_, ?_⟩
    · intro full
      refine ⟨x, y, rows, rfl, Nat.not_lt.1 fun low => ?_⟩
      rw [if_pos low] at full
      exact absurd full (by decide)
    · rintro ⟨_, _, _, same, high⟩
      cases same
      exact if_neg (Nat.not_lt.2 high)
  · simp only [not_exists] at drawing
    have shorter := width_lt drawing
    refine ⟨Nat.le_of_lt shorter, fun full => absurd full (Nat.ne_of_lt shorter), ?_⟩
    rintro ⟨x, y, rows, rfl, -⟩
    exact absurd rfl (drawing x y rows)

theorem length_text_of_decode {op : Opcode} (h : op.decode = .ok i) : i.text.length = i.width :=
  length_text_of_inRange (instruction?_eq_some_iff.1 (Opcode.decode_eq_ok_iff.1 h)).1

end Instruction

end Chip8
