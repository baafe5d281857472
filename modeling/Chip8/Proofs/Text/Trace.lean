import Mathlib.Algebra.BigOperators.Group.List.Lemmas
import Chip8.Proofs.Run.Reporting
import Chip8.Proofs.Text.Width

namespace Chip8

/-- A word that has been fetched, where it was fetched, and the registers and the index before it is
executed: what a line of a trace is about. -/
@[ext] structure Fetched where
  pc : UInt16
  op : Opcode
  v : Registers
  i : UInt16
  deriving DecidableEq

def field (start width : Nat) (line : String) : List Char := (line.toList.drop start).take width

theorem map_intersperse {α β : Type} (f : α → β) (sep : α) (l : List α) :
    (l.intersperse sep).map f = (l.map f).intersperse (f sep) := by
  induction l with
  | nil => rfl
  | cons a l ih =>
    cases l with
    | nil => rfl
    | cons b l => simpa using ih

namespace Fetched

def text (e : Fetched) : String := Record.traceText e.pc e.op e.v e.i

def mnemonicPart (op : Opcode) : List Char := (Record.mnemonic op).toList.rightpad 14 ' '

def registerParts (v : Registers) : List (List Char) :=
  (v.toList.map fun value => Hex.places 2 value.toNat).intersperse [',', ' ']

def parts (e : Fetched) : List (List Char) :=
  [Hex.places 4 e.pc.toNat, [' '], Hex.places 4 e.op.word.toNat, [' '], mnemonicPart e.op,
    [' ', 'v', '[']] ++ registerParts e.v ++ [[']', ' ', 'i'], Hex.places 4 e.i.toNat]

/-- The widths of the parts, whatever the entry. -/
def widths : List Nat := [4, 1, 4, 1, 14, 3] ++ List.replicate 31 2 ++ [3, 4]

theorem toList_text (e : Fetched) : e.text.toList = e.parts.flatten := by
  have word (w : UInt16) : (Hex.padded 4 w.toNat).toList = Hex.places 4 w.toNat :=
    Hex.toList_padded_of_lt w.toNat_lt
  have byte (b : UInt8) : (Hex.padded 2 b.toNat).toList = Hex.places 2 b.toNat :=
    Hex.toList_padded_of_lt b.toNat_lt
  simp [text, Record.traceText, Record.registersText, Record.padEnd, Opcode.text, parts,
    mnemonicPart, registerParts, String.toList_intercalate, List.intercalate, word, byte,
    Function.comp_def]

theorem length_mnemonic_le (op : Opcode) : (Record.mnemonic op).length ≤ 14 := by
  unfold Record.mnemonic
  cases decoded : op.instruction? with
  | none => decide
  | some i =>
    have length := Instruction.length_text_of_decode (Opcode.decode_eq_ok_iff.2 decoded)
    exact length.trans_le i.width_le.1

theorem length_mnemonicPart (op : Opcode) : (mnemonicPart op).length = 14 := by
  rw [mnemonicPart, List.length_rightpad, String.length_toList]
  exact Nat.max_eq_left (length_mnemonic_le op)

theorem getElem?_registerParts_register (v : Registers) {j : Nat} (h : j < 16) :
    (registerParts v)[2 * j]? = some (Hex.places 2 v[j].toNat) := by
  simp [registerParts, h]

theorem getElem?_registerParts_comma (v : Registers) {j : Nat} (h : j < 15) :
    (registerParts v)[2 * j + 1]? = some [',', ' '] := by
  apply List.getElem?_intersperse_two_mul_add_one
  rw [List.length_map, Vector.length_toList]
  exact Nat.succ_lt_succ h

theorem length_registerParts (v : Registers) : (registerParts v).length = 31 := by
  simp [registerParts]

theorem widths_registerParts (v : Registers) :
    (registerParts v).map List.length = List.replicate 31 2 := by
  have registers : (v.toList.map fun value => Hex.places 2 value.toNat).map List.length =
      List.replicate 16 2 := by
    simp [Function.comp_def]
  rw [registerParts, map_intersperse, registers]
  rfl

theorem widths_parts (e : Fetched) : e.parts.map List.length = widths := by
  simp [parts, widths, widths_registerParts, length_mnemonicPart]

/-- A part stands where the parts before it end. -/
theorem field_text {e : Fetched} {k start width : Nat} {part : List Char}
    (here : e.parts[k]? = some part) (before : (widths.take k).sum = start)
    (wide : widths[k]? = some width) : field start width e.text = part := by
  obtain ⟨inside, rfl⟩ := List.getElem?_eq_some_iff.1 here
  -- where a part begins depends on no entry, as the mnemonic is padded and never longer than that
  have length : e.parts[k].length = width := by
    rw [← widths_parts e, List.getElem?_map, here] at wide
    exact Option.some.inj wide
  rw [field, toList_text, ← before, ← widths_parts e, List.drop_sum_flatten,
    List.drop_eq_getElem_cons inside, List.flatten_cons, ← length, List.take_left]

theorem field_text_mnemonic (e : Fetched) : field 10 14 e.text = mnemonicPart e.op :=
  field_text (k := 4) rfl rfl rfl

theorem field_text_registers (e : Fetched) {k : Nat} {part : List Char} (inside : k < 31)
    (here : (registerParts e.v)[k]? = some part) : field (27 + 2 * k) 2 e.text = part := by
  -- a register is as wide as what stands between two of them, so these parts are evenly spaced
  have places : ∀ k < 31, (widths.take (6 + k)).sum = 27 + 2 * k ∧ widths[6 + k]? = some 2 := by
    decide
  obtain ⟨before, wide⟩ := places k inside
  refine field_text ?_ before wide
  have registers : k < (registerParts e.v).length := by rwa [length_registerParts]
  rw [parts, List.append_assoc, List.getElem?_append_right (Nat.le_add_right 6 k)]
  change (registerParts e.v ++ _)[6 + k - 6]? = some part
  rw [Nat.add_sub_cancel_left, List.getElem?_append_left registers, here]

end Fetched

/-- A line has the parts of an entry in the columns that are kept for them. -/
structure Fetched.InColumns (e : Fetched) (line : String) : Prop where
  length : line.length = 96
  pc : field 0 4 line = Hex.places 4 e.pc.toNat
  afterPc : field 4 1 line = " ".toList
  word : field 5 4 line = Hex.places 4 e.op.word.toNat
  afterWord : field 9 1 line = " ".toList
  decoded : ∀ i, e.op.decode = .ok i →
    field 10 14 line = i.text.toList ++ List.replicate (14 - i.text.length) ' '
  undecoded : ∀ fault, e.op.decode = .error fault → field 10 14 line = "???           ".toList
  afterMnemonic : field 24 3 line = " v[".toList
  register : ∀ j (_ : j < 16), field (27 + 4 * j) 2 line = Hex.places 2 e.v[j].toNat
  afterRegister : ∀ j < 15, field (29 + 4 * j) 2 line = ", ".toList
  afterRegisters : field 89 3 line = "] i".toList
  index : field 92 4 line = Hex.places 4 e.i.toNat

namespace Fetched

theorem inColumns_text (e : Fetched) : e.InColumns e.text where
  length := by
    rw [← String.length_toList, toList_text, List.length_flatten, widths_parts]
    decide
  pc := field_text (k := 0) rfl rfl rfl
  afterPc := field_text (k := 1) rfl rfl rfl
  word := field_text (k := 2) rfl rfl rfl
  afterWord := field_text (k := 3) rfl rfl rfl
  decoded i h := by
    rw [field_text_mnemonic, mnemonicPart, Record.mnemonic, Opcode.decode_eq_ok_iff.1 h]
    rfl
  undecoded fault h := by
    rw [field_text_mnemonic, mnemonicPart, Record.mnemonic, (Opcode.decode_eq_error_iff.1 h).1]
    rfl
  afterMnemonic := field_text (k := 5) rfl rfl rfl
  register j h := by
    have column : 27 + 4 * j = 27 + 2 * (2 * j) := by omega
    rw [column]
    exact field_text_registers e (by omega) (getElem?_registerParts_register e.v h)
  afterRegister j h := by
    have column : 29 + 4 * j = 27 + 2 * (2 * j + 1) := by omega
    rw [column]
    exact field_text_registers e (by omega) (getElem?_registerParts_comma e.v h)
  afterRegisters := field_text (k := 37) (by simp [parts, length_registerParts]) rfl rfl
  index := field_text (k := 38) (by simp [parts, length_registerParts]) rfl rfl

def ofText (line : String) : Fetched where
  pc := UInt16.ofNat (Hex.value (field 0 4 line))
  op := ⟨UInt16.ofNat (Hex.value (field 5 4 line))⟩
  v := Vector.ofFn fun j => UInt8.ofNat (Hex.value (field (27 + 4 * j.val) 2 line))
  i := UInt16.ofNat (Hex.value (field 92 4 line))

theorem ofText_of_inColumns {e : Fetched} {line : String} (h : e.InColumns line) :
    ofText line = e := by
  have word (w : UInt16) : UInt16.ofNat (Hex.value (Hex.places 4 w.toNat)) = w := by
    rw [Hex.value_places w.toNat_lt, UInt16.ofNat_toNat]
  have registers : (ofText line).v = e.v := by
    ext j hj
    have byte : Hex.value (Hex.places 2 e.v[j].toNat) = e.v[j].toNat :=
      Hex.value_places e.v[j].toNat_lt
    simp [ofText, h.register j hj, byte]
  ext1
  · rw [ofText, h.pc, word]
  · rw [ofText, h.word, word]
  · exact registers
  · rw [ofText, h.index, word]

theorem ofText_text (e : Fetched) : ofText e.text = e := ofText_of_inColumns e.inColumns_text

theorem text_injective : Function.Injective text := Function.LeftInverse.injective ofText_text

end Fetched

/-- The lines of a log that trace what is executed. -/
def traceLines (log : List Record) : List String :=
  (log.filter fun r => r.level = .trace).map Record.text

/-- The word that a step gets to execute; none if the machine waits or there is no word to fetch. -/
def Machine.fetched? (m : Machine) : Option Fetched :=
  if m.isWaiting then none
  else match m.state.fetch with
    | .ok op => some ⟨m.state.pc, op, m.state.v, m.state.i⟩
    | .error _ => none

def Event.fetched? (e : Event) : Option Fetched :=
  match e.operation with
  | .step _ => e.before.fetched?
  | _ => none

theorem traceLines_append (log later : List Record) :
    traceLines (log ++ later) = traceLines log ++ traceLines later := by
  rw [traceLines, List.filter_append, List.map_append]
  rfl

theorem traceLines_of_debug {α : Type} (value : Option α) {f : α → Record}
    (h : ∀ a, (f a).level = .debug) : traceLines (value.map f).toList = [] := by
  cases value with
  | none => rfl
  | some a => simp [traceLines, h a]

namespace Machine

theorem traceLines_step (m : Machine) (keypad : Keypad) :
    traceLines (m.step keypad).log = (m.fetched?.map Fetched.text).toList := by
  unfold fetched?
  cases running : m.isWaiting with
  | true => rw [step, running]; rfl
  | false =>
    cases fetched : m.state.fetch with
    | error fault => rw [step_of_unfetched running fetched]; rfl
    | ok op =>
      rw [log_step_of_fetched running fetched, ← List.singleton_append, traceLines_append]
      cases (m.step keypad).result with
      | error fault => rfl
      | ok effect =>
        dsimp only
        rw [traceLines_of_debug _ fun _ => rfl]
        rfl

theorem traceLines_perform (m : Machine) (op : Operation) :
    traceLines (m.perform op).log = ((Event.mk m op).fetched?.map Fetched.text).toList := by
  cases op with
  | step keypad => exact m.traceLines_step keypad
  | provideKey key =>
    change traceLines (m.provideKey key).log = []
    rw [(m.log_provideKey key).1]
    exact traceLines_of_debug _ fun _ => rfl
  | loadProgram _ | loadFrom _ =>
    rw [log_of_isLoad (by trivial)]
    exact traceLines_of_debug _ fun _ => rfl
  | reset | tick => rfl
  | takeFrame =>
    change traceLines m.takeFrame.log = []
    rw [takeFrame_log]
    rfl

theorem traceLines_performAll (m : Machine) (ops : List Operation) :
    traceLines (m.performAll ops).log =
      ((m.history ops).filterMap Event.fetched?).map Fetched.text := by
  induction ops generalizing m with
  | nil => rfl
  | cons op rest ih =>
    rw [performAll, history, traceLines_append, traceLines_perform, ih, List.filterMap_cons]
    cases (Event.mk m op).fetched? <;> rfl

/-- A step that gets past the fetch, whether the word decodes or not, writes one line of trace. All
these lines are of one length and have everything in the same columns; no word that decodes has a
text too long for its field, and only those of sprites with ten rows or more fill it. Two lines are
equal exactly if program counter, word, all registers and index are, so what was there before the
step can be read back from the line, and from the trace of a run what was there before each step. -/
theorem trace_lines_are_lossless :
    (∀ (m : Machine) (keypad : Keypad) (e : Fetched), m.fetched? = some e →
      ∃ line, traceLines (m.step keypad).log = [line] ∧ e.InColumns line ∧
        Fetched.ofText line = e) ∧
    (∀ (m m' : Machine) (keypad keypad' : Keypad) (e e' : Fetched),
      m.fetched? = some e → m'.fetched? = some e' →
        (traceLines (m.step keypad).log = traceLines (m'.step keypad').log ↔ e = e')) ∧
    (∀ (op : Opcode) (i : Instruction), op.decode = .ok i →
      i.text.length ≤ 14 ∧
        (i.text.length = 14 ↔ ∃ x y rows, i = .draw x y rows ∧ 10 ≤ rows.toNat)) ∧
    ∀ (m : Machine) (ops : List Operation),
      (traceLines (m.performAll ops).log).map Fetched.ofText =
        (m.history ops).filterMap Event.fetched? := by
  refine ⟨?columns, ?injective, ?mnemonics, ?runs⟩
  case columns =>
    intro m keypad e ready
    refine ⟨e.text, ?_, e.inColumns_text, e.ofText_text⟩
    rw [traceLines_step, ready]
    rfl
  case injective =>
    intro m m' keypad keypad' e e' ready ready'
    rw [traceLines_step, traceLines_step, ready, ready']
    simp [Fetched.text_injective.eq_iff]
  case mnemonics =>
    intro op i decoded
    rw [Instruction.length_text_of_decode decoded]
    exact i.width_le
  case runs =>
    intro m ops
    rw [traceLines_performAll, List.map_map]
    exact List.map_id'' Fetched.ofText_text _

/-- A sprite of fifteen rows behind the end of memory, and a word that does not decode, both at
0x202: the steps fail, but each has its line, the first with a mnemonic that fills the field. -/
theorem trace_lines_are_lossless_of_failed_steps :
    let idle : Keypad := fun _ => false
    let machine (high low : UInt8) := ((start .standard (.ofWords fun _ => 0)).performAll
      [.loadProgram [0xAF, 0xFF, high, low], .step idle]).machine
    let sprite : Fetched := ⟨0x202, ⟨0xDAFF⟩, .zero, 0xFFF⟩
    let hole : Fetched := ⟨0x202, ⟨0xFFFF⟩, .zero, 0xFFF⟩
    (machine 0xDA 0xFF).fetched? = some sprite ∧ (machine 0xFF 0xFF).fetched? = some hole ∧
      ((machine 0xDA 0xFF).step idle).result = .error (.outOfBounds 0x1000) ∧
      (∃ line, traceLines ((machine 0xDA 0xFF).step idle).log = [line] ∧ line.length = 96 ∧
        field 0 4 line = "0202".toList ∧ field 5 4 line = "DAFF".toList ∧
        field 10 14 line = (Instruction.draw 0xA 0xF 0xF).text.toList ∧
        field 92 4 line = "0FFF".toList ∧ Fetched.ofText line = sprite) ∧
      (∃ line, traceLines ((machine 0xFF 0xFF).step idle).log = [line] ∧ line.length = 96 ∧
        field 10 14 line = "???           ".toList ∧ Fetched.ofText line = hole) ∧
      traceLines ((machine 0xDA 0xFF).step idle).log ≠
        traceLines ((machine 0xFF 0xFF).step idle).log := by
  intro idle machine sprite hole
  obtain ⟨lines, apart, mnemonics, -⟩ := trace_lines_are_lossless
  have ready : (machine 0xDA 0xFF).fetched? = some sprite := by decide +kernel
  have ready' : (machine 0xFF 0xFF).fetched? = some hole := by decide +kernel
  have failed : ((machine 0xDA 0xFF).step idle).result = .error (.outOfBounds 0x1000) := by
    decide +kernel
  have decoded : sprite.op.decode = .ok (.draw 0xA 0xF 0xF) := by decide
  have undecoded : hole.op.decode = .error (.unimplemented 0xFFFF) := by decide
  have full : (Instruction.draw 0xA 0xF 0xF).text.length = 14 :=
    (mnemonics _ _ decoded).2.2 ⟨0xA, 0xF, 0xF, rfl, by decide⟩
  refine ⟨ready, ready', failed, ?_, ?_, fun same => ?_⟩
  · obtain ⟨line, traced, columns, readBack⟩ := lines _ idle sprite ready
    have mnemonic := columns.decoded _ decoded
    rw [full, Nat.sub_self, List.replicate_zero, List.append_nil] at mnemonic
    exact ⟨line, traced, columns.length, columns.pc.trans (by decide),
      columns.word.trans (by decide), mnemonic, columns.index.trans (by decide), readBack⟩
  · obtain ⟨line, traced, columns, readBack⟩ := lines _ idle hole ready'
    exact ⟨line, traced, columns.length, columns.undecoded _ undecoded, readBack⟩
  · have equal : sprite = hole := (apart _ _ idle idle sprite hole ready ready').1 same
    exact absurd equal (by decide)

end Machine

end Chip8
