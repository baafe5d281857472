import Chip8.Machine.Step
import Chip8.Proofs.Text.Digits

namespace Chip8

/-- Upper-case hexadecimal digits, with leading zeros up to a least width. -/
def hexadecimal (width n : Nat) : String :=
  String.ofList (((Nat.toDigits 16 n).map Char.toUpper).leftpad width '0')

theorem padded_eq_hexadecimal (width n : Nat) : Hex.padded width n = hexadecimal width n := by
  rw [hexadecimal, Hex.map_toUpper_toDigits, Hex.padded]

theorem plain_eq_hexadecimal (n : Nat) : Hex.plain n = hexadecimal 0 n := by
  rw [hexadecimal, Hex.map_toUpper_toDigits, List.leftpad, Nat.zero_sub]
  rfl

theorem marked_eq_hexadecimal (width n : Nat) :
    Hex.marked width n = "0x" ++ hexadecimal width n := by
  rw [Hex.marked, padded_eq_hexadecimal]

def Fault.wording : Fault → String
  | outOfBounds address => "memory access out of bounds at address 0x" ++ hexadecimal 4 address
  | stackOverflow capacity => "stack overflow: call depth would exceed " ++ toString capacity
  | stackUnderflow => "stack underflow: return with an empty call stack"
  | unimplemented word => "opcode 0x" ++ hexadecimal 4 word.toNat ++ " is not implemented"
  | noSuchRegister register => "there is no register V" ++ hexadecimal 0 register.toNat
  | programTooLarge size capacity =>
    "program is " ++ toString size ++ " bytes but at most " ++ toString capacity ++
      " fit in memory"
  | unreadable message => "unable to read program: " ++ message

theorem Fault.message_eq_wording (fault : Fault) : fault.message = fault.wording := by
  unfold message wording
  cases fault with
  | outOfBounds _ =>
    have mark : "memory access out of bounds at address " ++ "0x" =
      "memory access out of bounds at address 0x" := rfl
    dsimp only
    rw [marked_eq_hexadecimal, ← String.append_assoc, mark]
  | unimplemented _ =>
    have mark : "opcode " ++ "0x" = "opcode 0x" := rfl
    dsimp only
    rw [marked_eq_hexadecimal, ← String.append_assoc, mark]
  | noSuchRegister _ =>
    dsimp only
    rw [plain_eq_hexadecimal]
  | stackOverflow _ | stackUnderflow | programTooLarge _ _ | unreadable _ => rfl

structure Line where
  level : Level
  text : String
  deriving DecidableEq

/-- The line of the trace on a word that has been fetched: the program counter, the word and its
mnemonic, the registers and the index, all as they are before the word is executed. -/
def Machine.traceLine (m : Machine) (op : Opcode) : Line where
  level := .trace
  text :=
    let mnemonic := match op.decode with
      | .ok i => i.text
      | .error _ => "???"
    let blanks := String.ofList (List.replicate (14 - mnemonic.length) ' ')
    let registers := m.state.v.toList.map fun value => hexadecimal 2 value.toNat
    hexadecimal 4 m.state.pc.toNat ++ " " ++ hexadecimal 4 op.word.toNat ++ " " ++ mnemonic ++
      blanks ++ " v[" ++ ", ".intercalate registers ++ "] i" ++ hexadecimal 4 m.state.i.toNat

namespace Record

def line (r : Record) : Line := ⟨r.level, r.text⟩

theorem line_fetchFailed (pc : UInt16) (fault : Fault) :
    (fetchFailed pc fault).line =
      ⟨.warn, "fetch at 0x" ++ hexadecimal 3 pc.toNat ++ " failed: " ++ fault.wording⟩ := by
  have mark : "fetch at " ++ "0x" = "fetch at 0x" := rfl
  rw [line, text, marked_eq_hexadecimal, fault.message_eq_wording, ← String.append_assoc, mark,
    level]

theorem line_failed (op : Opcode) (pc : UInt16) (fault : Fault) :
    (failed op pc fault).line =
      ⟨.warn, hexadecimal 4 op.word.toNat ++ " at 0x" ++ hexadecimal 3 pc.toNat ++ " failed: " ++
        fault.wording⟩ := by
  have mark (s : String) : s ++ " at " ++ "0x" = s ++ " at 0x" := String.append_assoc
  rw [line, text, Opcode.text, padded_eq_hexadecimal, marked_eq_hexadecimal,
    fault.message_eq_wording, ← String.append_assoc, mark, level]

theorem line_awaitingKey (x : UInt8) :
    (awaitingKey x).line = ⟨.debug, "V" ++ hexadecimal 0 x.toNat ++ " waiting for a key"⟩ := by
  rw [line, text, plain_eq_hexadecimal, level]

theorem line_receivedKey (x key : UInt8) :
    (receivedKey x key).line =
      ⟨.debug, "V" ++ hexadecimal 0 x.toNat ++ " = key " ++ hexadecimal 0 key.toNat⟩ := by
  rw [line, text, plain_eq_hexadecimal, plain_eq_hexadecimal, level]

theorem padEnd_eq (width : Nat) (s : String) :
    padEnd width s = s ++ String.ofList (List.replicate (width - s.length) ' ') := by
  apply String.toList_injective
  simp [padEnd, List.rightpad, String.length_toList]

theorem mnemonic_eq (op : Opcode) :
    mnemonic op = match op.decode with
      | .ok i => i.text
      | .error _ => "???" := by
  rw [mnemonic, Opcode.decode]
  cases op.instruction? <;> rfl

theorem line_executing (m : Machine) (op : Opcode) :
    (executing m.state.pc op m.state.v m.state.i).line = m.traceLine op := by
  have opening (s : String) : " " ++ ("v[" ++ s) = " v[" ++ s := by
    rw [← String.append_assoc]
    rfl
  have closing (s : String) : "]" ++ (" i" ++ s) = "] i" ++ s := by
    rw [← String.append_assoc]
    rfl
  rw [line, text, traceText, registersText, Opcode.text, padEnd_eq, mnemonic_eq, level,
    Machine.traceLine]
  simp only [padded_eq_hexadecimal, String.append_assoc, opening, closing]

end Record

end Chip8
