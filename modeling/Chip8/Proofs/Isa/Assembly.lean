import Chip8.Proofs.Run.ReadBack
import Chip8.Proofs.Text.Digits

namespace Chip8

def InWord (c : Char) : Prop := c ≠ ' ' ∧ c ≠ ','

instance (c : Char) : Decidable (InWord c) := inferInstanceAs (Decidable (_ ∧ _))

theorem inWord_of_isAlphanum {c : Char} (h : c.isAlphanum = true) : InWord c := by
  constructor <;> rintro rfl <;> cases h

theorem inWord_of_all {word : List Char} (all : word.all fun c => decide (InWord c)) {c : Char}
    (h : c ∈ word) : InWord c :=
  of_decide_eq_true (List.all_eq_true.1 all c h)

namespace Operand

/-- The operand that a word is the text of; another word gives some operand or other. -/
def ofWord : List Char → Operand
  | 'V' :: digits => .register (UInt8.ofNat (Hex.value digits))
  | '0' :: 'x' :: digits =>
    if digits.length = 2 then .byte (UInt8.ofNat (Hex.value digits))
    else .address (UInt16.ofNat (Hex.value digits))
  | '+' :: '0' :: 'x' :: digits => .offset (UInt16.ofNat (Hex.value digits))
  | ['I'] => .index
  | ['[', 'I', ']'] => .atIndex
  | ['D', 'T'] => .delayTimer
  | ['S', 'T'] => .soundTimer
  | ['K'] => .key
  | ['F'] => .glyph
  | ['B'] => .decimal
  | digits => .rows (UInt8.ofNat (Nat.ofDigitChars 10 digits 0))

theorem ofWord_of_isDigit {ds : List Char} (h : ∀ c ∈ ds, c.isDigit = true) :
    ofWord ds = .rows (UInt8.ofNat (Nat.ofDigitChars 10 ds 0)) := by
  unfold ofWord
  split
  -- every other word holds a letter or a sign
  case h_11 => rfl
  all_goals simp at h

theorem ofWord_text (o : Operand) : ofWord o.text.toList = o := by
  cases o with
  | register x =>
    have word : (Operand.register x).text.toList = 'V' :: Hex.digits x.toNat := by simp [text]
    rw [word, ofWord, Hex.value_digits, UInt8.ofNat_toNat]
  | byte value =>
    have two : (Hex.digits value.toNat).length ≤ 2 := Hex.length_digits_le value.toNat_lt
    rw [text, Hex.toList_marked, ofWord, List.length_leftpad, if_pos (Nat.max_eq_left two),
      Hex.value_leftpad, Hex.value_digits, UInt8.ofNat_toNat]
  | address a =>
    -- padded to three digits, an address is never taken for a byte
    rw [text, Hex.toList_marked, ofWord, List.length_leftpad, if_neg (by omega),
      Hex.value_leftpad, Hex.value_digits, UInt16.ofNat_toNat]
  | offset a =>
    have word : (Operand.offset a).text.toList =
        '+' :: '0' :: 'x' :: (Hex.digits a.toNat).leftpad 3 '0' := by simp [text, Hex.toList_marked]
    rw [word, ofWord, Hex.value_leftpad, Hex.value_digits, UInt16.ofNat_toNat]
  | rows count =>
    have word : (Operand.rows count).text.toList = Nat.toDigits 10 count.toNat := by
      simp [text]
    have digits : ∀ c ∈ Nat.toDigits 10 count.toNat, c.isDigit = true :=
      fun c h => Nat.isDigit_of_mem_toDigits (by decide) (by decide) h
    rw [word, ofWord_of_isDigit digits, Nat.ofDigitChars_ten_toDigits, UInt8.ofNat_toNat]
  | index | atIndex | delayTimer | soundTimer | key | glyph | decimal => rfl

theorem inWord_of_mem_marked {width n : Nat} {c : Char} (h : c ∈ (Hex.marked width n).toList) :
    InWord c := by
  simp only [Hex.toList_marked, List.leftpad, List.mem_cons, List.mem_append,
    List.mem_replicate] at h
  rcases h with rfl | rfl | ⟨-, rfl⟩ | digit
  · decide
  · decide
  · decide
  · exact inWord_of_isAlphanum (Hex.isAlphanum_of_mem_digits digit)

theorem inWord_of_mem_text {o : Operand} {c : Char} (h : c ∈ o.text.toList) : InWord c := by
  cases o with
  | register x =>
    have letter : c = 'V' ∨ c ∈ Hex.digits x.toNat := by simpa [text] using h
    rcases letter with rfl | digit
    · decide
    · exact inWord_of_isAlphanum (Hex.isAlphanum_of_mem_digits digit)
  | byte _ | address _ => exact inWord_of_mem_marked h
  | offset a =>
    have sign : c = '+' ∨ c ∈ (Hex.marked 3 a.toNat).toList := by simpa [text] using h
    rcases sign with rfl | marked
    · decide
    · exact inWord_of_mem_marked marked
  | rows count =>
    have digit : c ∈ Nat.toDigits 10 count.toNat := by simpa [text] using h
    have isDigit := Nat.isDigit_of_mem_toDigits (by decide) (by decide) digit
    exact inWord_of_isAlphanum (by simp [Char.isAlphanum, isDigit])
  | index | atIndex | delayTimer | soundTimer | key | glyph | decimal =>
    exact inWord_of_all (by decide) h

end Operand

def words (line : String) : List (List Char) := (line.toList.filter (· ≠ ',')).splitOn ' '

theorem filter_eq_self_of_inWord {word : List Char} (h : ∀ c ∈ word, InWord c) :
    word.filter (· ≠ ',') = word := by
  apply List.filter_eq_self.2
  intro c hc
  simpa using (h c hc).2

theorem filter_intercalate {parts : List (List Char)} (h : ∀ word ∈ parts, ∀ c ∈ word, InWord c) :
    ([',', ' '].intercalate parts).filter (· ≠ ',') = [' '].intercalate parts := by
  induction parts with
  | nil => rfl
  | cons word rest ih =>
    have first := filter_eq_self_of_inWord (h word (List.mem_cons_self ..))
    have others := ih fun word' later => h word' (List.mem_cons_of_mem _ later)
    cases rest with
    | nil => rw [List.intercalate_singleton, List.intercalate_singleton, first]
    | cons next rest =>
      rw [List.intercalate_cons_cons, List.intercalate_cons_cons, List.filter_append,
        List.filter_append, first, others]
      rfl

namespace Instruction

theorem inWord_of_mem_name {i : Instruction} {c : Char} (h : c ∈ i.name.toList) : InWord c := by
  apply inWord_of_all _ h
  cases i <;> simp only [name] <;> decide

theorem toList_text (i : Instruction) :
    i.text.toList.filter (· ≠ ',') =
      [' '].intercalate (i.name.toList :: i.operands.map fun o => o.text.toList) := by
  have name := filter_eq_self_of_inWord fun c => inWord_of_mem_name (i := i) (c := c)
  unfold text
  cases i.operands with
  | nil => rw [name, List.map_nil, List.intercalate_singleton]
  | cons o rest =>
    have inWord : ∀ word ∈ (o :: rest).map fun o => o.text.toList, ∀ c ∈ word, InWord c := by
      intro word hword c hc
      obtain ⟨o', -, rfl⟩ := List.mem_map.1 hword
      exact Operand.inWord_of_mem_text hc
    have operands := filter_intercalate inWord
    rw [List.intercalate_cons_of_ne_nil (by simp), ← operands, String.toList_append,
      String.toList_append, String.toList_intercalate, List.map_map, List.filter_append,
      List.filter_append, name]
    rfl

theorem words_text (i : Instruction) :
    words i.text = i.name.toList :: i.operands.map fun o => o.text.toList := by
  rw [words, toList_text]
  apply List.splitOn_intercalate
  · intro word hword blank
    rcases List.mem_cons.1 hword with rfl | operand
    · exact (inWord_of_mem_name blank).1 rfl
    · obtain ⟨o, -, rfl⟩ := List.mem_map.1 operand
      exact (Operand.inWord_of_mem_text blank).1 rfl
  · exact List.cons_ne_nil _ _

def ofParts? : String → List Operand → Option Instruction
  | "CLS", [] => some clear
  | "RET", [] => some ret
  | "SYS", [.address a] => some (sys a)
  | "JP", [.address a] => some (jump a)
  | "CALL", [.address a] => some (call a)
  | "SE", [.register x, .byte value] => some (skipEqByte x value)
  | "SNE", [.register x, .byte value] => some (skipNeByte x value)
  | "SE", [.register x, .register y] => some (skipEq x y)
  | "LD", [.register x, .byte value] => some (setByte x value)
  | "ADD", [.register x, .byte value] => some (addByte x value)
  | "LD", [.register x, .register y] => some (copy x y)
  | "OR", [.register x, .register y] => some (or x y)
  | "AND", [.register x, .register y] => some (and x y)
  | "XOR", [.register x, .register y] => some (xor x y)
  | "ADD", [.register x, .register y] => some (add x y)
  | "SUB", [.register x, .register y] => some (sub x y)
  | "SHR", [.register x] => some (shiftRight x)
  | "SUBN", [.register x, .register y] => some (subFrom x y)
  | "SHL", [.register x] => some (shiftLeft x)
  | "SNE", [.register x, .register y] => some (skipNe x y)
  | "LD", [.index, .address a] => some (setIndex a)
  | "JP", [.offset a] => some (jumpOffset a)
  | "RND", [.register x, .byte mask] => some (random x mask)
  | "DRW", [.register x, .register y, .rows rows] => some (draw x y rows)
  | "SKP", [.register x] => some (skipKeyDown x)
  | "SKNP", [.register x] => some (skipKeyUp x)
  | "LD", [.register x, .delayTimer] => some (readDelay x)
  | "LD", [.register x, .key] => some (awaitKey x)
  | "LD", [.delayTimer, .register x] => some (setDelay x)
  | "LD", [.soundTimer, .register x] => some (setSound x)
  | "ADD", [.index, .register x] => some (addIndex x)
  | "LD", [.glyph, .register x] => some (glyph x)
  | "LD", [.decimal, .register x] => some (decimal x)
  | "LD", [.atIndex, .register x] => some (store x)
  | "LD", [.register x, .atIndex] => some (load x)
  | _, _ => none

theorem ofParts?_parts (i : Instruction) : ofParts? i.name i.operands = some i := by
  cases i <;> rfl

/-- The instruction that a line is the text of. -/
def ofText? (line : String) : Option Instruction :=
  match words line with
  | [] => none
  | name :: operands => ofParts? (String.ofList name) (operands.map Operand.ofWord)

theorem ofText?_text (i : Instruction) : ofText? i.text = some i := by
  have operands : (i.operands.map fun o => o.text.toList).map Operand.ofWord = i.operands := by
    rw [List.map_map]
    exact List.map_id'' Operand.ofWord_text _
  rw [ofText?, words_text]
  dsimp only
  rw [operands, String.ofList_toList, ofParts?_parts]

theorem text_injective : Function.Injective text := by
  intro i j h
  have he := congrArg ofText? h
  rw [ofText?_text, ofText?_text] at he
  exact Option.some.inj he

end Instruction

namespace Opcode

/-- The word is one of a shift, which has no use for its third nibble. -/
def IsShift (op : Opcode) : Prop := op.family = 0x8 ∧ (op.n = 0x6 ∨ op.n = 0xE)

variable {op op' : Opcode} {i : Instruction}

theorem isShift_registers {x y n : UInt8} (hx : x.toNat < 16) (hy : y.toNat < 16)
    (hn : n = 0x6 ∨ n = 0xE) : (Instruction.registers 0x8 x y n).IsShift := by
  have small : n.toNat < 16 := by rcases hn with rfl | rfl <;> decide
  obtain ⟨family, -, -, last⟩ := @Instruction.fields_registers 0x8 x y n (by decide) hx hy small
  rw [Opcode.IsShift, last]
  exact ⟨family, hn⟩

theorem isShift_of_encodedBy (range : i.InRange) (shift : i.isShift = true)
    (encoded : i.EncodedBy op) : op.IsShift := by
  obtain ⟨spare, small, rfl⟩ := encoded
  have hs : spare.toNat < 16 := UInt8.lt_iff_toNat_lt.1 small
  cases i with
  | shiftRight x => exact isShift_registers (UInt8.lt_iff_toNat_lt.1 range) hs (.inl rfl)
  | shiftLeft x => exact isShift_registers (UInt8.lt_iff_toNat_lt.1 range) hs (.inr rfl)
  | _ => cases shift

theorem instruction?_of_eqButY (shift : op.IsShift) (same : op.EqButY op') :
    op.instruction? = op'.instruction? := by
  obtain ⟨hf, hn | hn⟩ := shift
  all_goals
    have hf' := same.family.symm.trans hf
    have hn' := same.n.symm.trans hn
    simp [instruction?, arithmetic?, hf, hf', hn, hn', same.x]

theorem eq_or_eqButY (h : op.instruction? = some i) (h' : op'.instruction? = some i) :
    op = op' ∨ op.IsShift ∧ op.EqButY op' := by
  obtain ⟨range, encoded⟩ := Instruction.instruction?_eq_some_iff.1 h
  obtain ⟨-, encoded'⟩ := Instruction.instruction?_eq_some_iff.1 h'
  cases shift : i.isShift with
  | true =>
    have same := (Instruction.encodedBy_iff_of_isShift range shift).1 encoded
    have same' := (Instruction.encodedBy_iff_of_isShift range shift).1 encoded'
    exact .inr ⟨isShift_of_encodedBy range shift encoded, same.family.trans same'.family.symm,
      same.x.trans same'.x.symm, same.n.trans same'.n.symm⟩
  | false =>
    obtain ⟨spare, -, word⟩ := encoded
    obtain ⟨spare', -, word'⟩ := encoded'
    rw [Instruction.encodeWith_of_not_isShift shift] at word word'
    exact .inl (word.trans word'.symm)

end Opcode

namespace Instruction

/-- No two instructions have one text, whatever their operands. So two words that decode have one
text exactly if they decode to one instruction, which is to say if they are equal, or words of a
shift that differ in the third nibble alone. -/
theorem texts_are_unambiguous :
    (∀ i j : Instruction, i.text = j.text → i = j) ∧
    ∀ (op op' : Opcode) (i j : Instruction), op.decode = .ok i → op'.decode = .ok j →
      (i.text = j.text ↔ i = j) ∧ (i = j ↔ op = op' ∨ op.IsShift ∧ op.EqButY op') := by
  refine ⟨fun i j h => text_injective h, ?_⟩
  intro op op' i j h h'
  have decoded := Opcode.decode_eq_ok_iff.1 h
  have decoded' := Opcode.decode_eq_ok_iff.1 h'
  refine ⟨text_injective.eq_iff, ?_, ?_⟩
  · rintro rfl
    exact Opcode.eq_or_eqButY decoded decoded'
  · intro words
    have same : op.instruction? = op'.instruction? := by
      rcases words with rfl | ⟨shift, same⟩
      · rfl
      · exact Opcode.instruction?_of_eqButY shift same
    exact Option.some.inj (decoded.symm.trans (same.trans decoded'))

/-- The two shifts of VA under one text each, with any third nibble, and an address beyond twelve
bits that is no byte. -/
theorem texts_are_unambiguous_of_shifts :
    (Opcode.mk 0x8AB6).decode = .ok (shiftRight 0xA) ∧
      (Opcode.mk 0x8A36).decode = .ok (shiftRight 0xA) ∧
      (Opcode.mk 0x8A3E).decode = .ok (shiftLeft 0xA) ∧
      (Opcode.mk 0x8AB6).IsShift ∧ (Opcode.mk 0x8AB6).EqButY ⟨0x8A36⟩ ∧
      (shiftRight 0xA).text ≠ (shiftLeft 0xA).text ∧ (jump 0x1000).text ≠ (jump 0x100).text := by
  obtain ⟨apart, words⟩ := texts_are_unambiguous
  have right : (Opcode.mk 0x8AB6).decode = .ok (shiftRight 0xA) := by decide
  have right' : (Opcode.mk 0x8A36).decode = .ok (shiftRight 0xA) := by decide
  have left : (Opcode.mk 0x8A3E).decode = .ok (shiftLeft 0xA) := by decide
  obtain ⟨-, same⟩ := words _ _ _ _ right right'
  obtain ⟨shift, differ⟩ := (same.1 rfl).resolve_left (by decide)
  refine ⟨right, right', left, shift, differ, ?_, ?_⟩
  · intro equal
    cases (words _ _ _ _ right left).1.1 equal
  · intro equal
    cases apart _ _ equal

end Instruction

end Chip8
