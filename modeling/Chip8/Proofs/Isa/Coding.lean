import Chip8.Isa.Decode
import Chip8.Isa.Encode

namespace Chip8.Instruction

section Fields

variable {family a : UInt16} {x y n value : UInt8}

theorem toNat_addressed (hf : family.toNat < 16) (ha : a.toNat < 4096) :
    (addressed family a).word.toNat = family.toNat * 4096 + a.toNat := by
  simp [addressed]
  omega

theorem toNat_immediate (hf : family.toNat < 16) (hx : x.toNat < 16) :
    (immediate family x value).word.toNat =
      family.toNat * 4096 + x.toNat * 256 + value.toNat := by
  have := value.toNat_lt
  simp [immediate]
  omega

theorem toNat_registers (hf : family.toNat < 16) (hx : x.toNat < 16) (hy : y.toNat < 16)
    (hn : n.toNat < 16) :
    (registers family x y n).word.toNat =
      family.toNat * 4096 + x.toNat * 256 + y.toNat * 16 + n.toNat := by
  simp [registers]
  omega

theorem fields_addressed (hf : family.toNat < 16) (ha : a.toNat < 4096) :
    (addressed family a).family = family.toUInt8 ∧ (addressed family a).nnn = a := by
  have word := toNat_addressed hf ha
  constructor
  · rw [← UInt8.toNat_inj, Opcode.toNat_family, word, UInt16.toNat_toUInt8]
    omega
  · rw [← UInt16.toNat_inj, Opcode.toNat_nnn, word]
    omega

theorem fields_immediate (hf : family.toNat < 16) (hx : x.toNat < 16) :
    (immediate family x value).family = family.toUInt8 ∧ (immediate family x value).x = x ∧
      (immediate family x value).nn = value := by
  have word : (immediate family x value).word.toNat = _ := toNat_immediate hf hx
  have := value.toNat_lt
  refine ⟨?_, ?_, ?_⟩
  · rw [← UInt8.toNat_inj, Opcode.toNat_family, word, UInt16.toNat_toUInt8]
    omega
  · rw [← UInt8.toNat_inj, Opcode.toNat_x, word]
    omega
  · rw [← UInt8.toNat_inj, Opcode.toNat_nn, word]
    omega

theorem fields_registers (hf : family.toNat < 16) (hx : x.toNat < 16) (hy : y.toNat < 16)
    (hn : n.toNat < 16) :
    (registers family x y n).family = family.toUInt8 ∧ (registers family x y n).x = x ∧
      (registers family x y n).y = y ∧ (registers family x y n).n = n := by
  have word := toNat_registers hf hx hy hn
  refine ⟨?_, ?_, ?_, ?_⟩
  · rw [← UInt8.toNat_inj, Opcode.toNat_family, word, UInt16.toNat_toUInt8]
    omega
  · rw [← UInt8.toNat_inj, Opcode.toNat_x, word]
    omega
  · rw [← UInt8.toNat_inj, Opcode.toNat_y, word]
    omega
  · rw [← UInt8.toNat_inj, Opcode.toNat_n, word]
    omega

end Fields

/-- The opcodes that stand for an instruction: one, or one for each value of a nibble that the
instruction leaves free. -/
def EncodedBy (i : Instruction) (op : Opcode) : Prop := ∃ spare < 0x10, op = i.encodeWith spare

theorem encodedBy_encode (i : Instruction) : i.EncodedBy i.encode := ⟨0, by decide, rfl⟩

theorem instruction?_of_encodedBy {i : Instruction} {op : Opcode} (range : i.InRange)
    (encoded : i.EncodedBy op) : op.instruction? = some i := by
  obtain ⟨spare, hs, rfl⟩ := encoded
  have hs : spare.toNat < 16 := UInt8.lt_iff_toNat_lt.1 hs
  cases i with
  | clear =>
    change Opcode.instruction? ⟨0x00E0⟩ = _
    decide
  | ret =>
    change Opcode.instruction? ⟨0x00EE⟩ = _
    decide
  | sys a =>
    obtain ⟨small, notClear, notRet⟩ := range
    have ha : a.toNat < 4096 := UInt16.lt_iff_toNat_lt.1 small
    simp [encodeWith, Opcode.instruction?, fields_addressed, ha, notClear, notRet]
  | jump a | call a | setIndex a | jumpOffset a =>
    have ha : a.toNat < 4096 := UInt16.lt_iff_toNat_lt.1 range
    simp [encodeWith, Opcode.instruction?, fields_addressed, ha]
  | skipEqByte x _ | skipNeByte x _ | setByte x _ | addByte x _ | random x _
  | skipKeyDown x | skipKeyUp x =>
    have hx : x.toNat < 16 := UInt8.lt_iff_toNat_lt.1 range
    simp [encodeWith, Opcode.instruction?, fields_immediate, hx]
  | readDelay x | awaitKey x | setDelay x | setSound x | addIndex x | glyph x | decimal x
  | store x | load x =>
    have hx : x.toNat < 16 := UInt8.lt_iff_toNat_lt.1 range
    simp [encodeWith, Opcode.instruction?, Opcode.transfer?, fields_immediate, hx]
  | skipEq x y | skipNe x y =>
    have hx : x.toNat < 16 := UInt8.lt_iff_toNat_lt.1 range.1
    have hy : y.toNat < 16 := UInt8.lt_iff_toNat_lt.1 range.2
    simp [encodeWith, Opcode.instruction?, fields_registers, hx, hy]
  | copy x y | or x y | and x y | xor x y | add x y | sub x y | subFrom x y =>
    have hx : x.toNat < 16 := UInt8.lt_iff_toNat_lt.1 range.1
    have hy : y.toNat < 16 := UInt8.lt_iff_toNat_lt.1 range.2
    simp [encodeWith, Opcode.instruction?, Opcode.arithmetic?, fields_registers, hx, hy]
  | shiftRight x | shiftLeft x =>
    have hx : x.toNat < 16 := UInt8.lt_iff_toNat_lt.1 range
    simp [encodeWith, Opcode.instruction?, Opcode.arithmetic?, fields_registers, hx, hs]
  | draw x y rows =>
    have hx : x.toNat < 16 := UInt8.lt_iff_toNat_lt.1 range.1
    have hy : y.toNat < 16 := UInt8.lt_iff_toNat_lt.1 range.2.1
    have hrows : rows.toNat < 16 := UInt8.lt_iff_toNat_lt.1 range.2.2
    simp [encodeWith, Opcode.instruction?, fields_registers, hx, hy, hrows]

section Words

variable {op : Opcode} {family : UInt16}

theorem eq_of_toNat_word {op op' : Opcode} (h : op.word.toNat = op'.word.toNat) : op = op' :=
  congrArg Opcode.mk (UInt16.toNat_inj.1 h)

theorem eq_addressed (hf : family.toNat < 16) (h : op.family.toNat = family.toNat) :
    op = addressed family op.nnn := by
  apply eq_of_toNat_word
  rw [toNat_addressed hf op.nnn_lt, ← h, Opcode.toNat_family, Opcode.toNat_nnn]
  omega

theorem eq_immediate (hf : family.toNat < 16) (h : op.family.toNat = family.toNat) :
    op = immediate family op.x op.nn := by
  apply eq_of_toNat_word
  rw [toNat_immediate hf op.x_lt, ← h, Opcode.toNat_family, Opcode.toNat_x, Opcode.toNat_nn]
  omega

theorem eq_registers (hf : family.toNat < 16) (h : op.family.toNat = family.toNat) :
    op = registers family op.x op.y op.n := by
  apply eq_of_toNat_word
  rw [toNat_registers hf op.x_lt op.y_lt op.n_lt, ← h, Opcode.toNat_family, Opcode.toNat_x,
    Opcode.toNat_y, Opcode.toNat_n]
  omega

end Words

section Decoded

variable {op : Opcode} {i : Instruction}

theorem x_in_range (op : Opcode) : op.x < 0x10 := UInt8.lt_iff_toNat_lt.2 op.x_lt

theorem y_in_range (op : Opcode) : op.y < 0x10 := UInt8.lt_iff_toNat_lt.2 op.y_lt

theorem encodedBy_of_arithmetic? (hf : op.family = 0x8) (h : op.arithmetic? = some i) :
    i.InRange ∧ i.EncodedBy op := by
  have word : op = registers 0x8 op.x op.y op.n :=
    eq_registers (by decide) (congrArg UInt8.toNat hf)
  unfold Opcode.arithmetic? at h
  split at h
  case h_7 _ hn | h_9 _ hn =>
    -- a shift leaves the nibble of the second register free
    cases h
    rw [hn] at word
    exact ⟨x_in_range op, op.y, y_in_range op, word⟩
  case h_10 => cases h
  all_goals
    next hn =>
    cases h
    rw [hn] at word
    exact ⟨⟨x_in_range op, y_in_range op⟩, 0, by decide, word⟩

theorem encodedBy_of_transfer? (hf : op.family = 0xF) (h : op.transfer? = some i) :
    i.InRange ∧ i.EncodedBy op := by
  have word : op = immediate 0xF op.x op.nn := eq_immediate (by decide) (congrArg UInt8.toNat hf)
  unfold Opcode.transfer? at h
  split at h
  case h_10 => cases h
  all_goals
    next hnn =>
    cases h
    rw [hnn] at word
    exact ⟨x_in_range op, 0, by decide, word⟩

theorem encodedBy_of_instruction? (h : op.instruction? = some i) :
    i.InRange ∧ i.EncodedBy op := by
  unfold Opcode.instruction? at h
  split at h
  case h_1 _ hf =>
    have word : op = addressed 0x0 op.nnn := eq_addressed (by decide) (congrArg UInt8.toNat hf)
    split at h
    case isTrue clear =>
      cases h
      rw [clear] at word
      exact ⟨trivial, 0, by decide, word⟩
    case isFalse clear =>
      split at h
      case isTrue ret =>
        cases h
        rw [ret] at word
        exact ⟨trivial, 0, by decide, word⟩
      case isFalse ret =>
        cases h
        exact ⟨⟨UInt16.lt_iff_toNat_lt.2 op.nnn_lt, clear, ret⟩, 0, by decide, word⟩
  case h_2 _ hf | h_3 _ hf | h_11 _ hf | h_12 _ hf =>
    cases h
    exact ⟨UInt16.lt_iff_toNat_lt.2 op.nnn_lt, 0, by decide,
      eq_addressed (by decide) (congrArg UInt8.toNat hf)⟩
  case h_4 _ hf | h_5 _ hf | h_7 _ hf | h_8 _ hf | h_13 _ hf =>
    cases h
    exact ⟨x_in_range op, 0, by decide, eq_immediate (by decide) (congrArg UInt8.toNat hf)⟩
  case h_6 _ hf | h_10 _ hf =>
    split at h
    case isTrue hn =>
      cases h
      exact ⟨⟨x_in_range op, y_in_range op⟩, 0, by decide,
        (eq_registers (by decide) (congrArg UInt8.toNat hf)).trans
          (congrArg (registers _ op.x op.y) hn)⟩
    case isFalse => cases h
  case h_9 _ hf => exact encodedBy_of_arithmetic? hf h
  case h_14 _ hf =>
    cases h
    exact ⟨⟨x_in_range op, y_in_range op, UInt8.lt_iff_toNat_lt.2 op.n_lt⟩, 0, by decide,
      eq_registers (by decide) (congrArg UInt8.toNat hf)⟩
  case h_15 _ hf =>
    have word : op = immediate 0xE op.x op.nn := eq_immediate (by decide) (congrArg UInt8.toNat hf)
    split at h
    case isTrue down =>
      cases h
      rw [down] at word
      exact ⟨x_in_range op, 0, by decide, word⟩
    case isFalse =>
      split at h
      case isTrue up =>
        cases h
        rw [up] at word
        exact ⟨x_in_range op, 0, by decide, word⟩
      case isFalse => cases h
  case h_16 _ hf => exact encodedBy_of_transfer? hf h
  case h_17 => cases h

theorem instruction?_eq_some_iff : op.instruction? = some i ↔ i.InRange ∧ i.EncodedBy op :=
  ⟨encodedBy_of_instruction?, fun h => instruction?_of_encodedBy h.1 h.2⟩

end Decoded

end Chip8.Instruction
