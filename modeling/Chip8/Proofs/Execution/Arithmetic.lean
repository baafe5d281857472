import Chip8.Proofs.Execution.Footprint

namespace Chip8

theorem Registers.flag_put (v : Registers) {x : UInt8} (a : UInt8) (hx : x.toNat < 16) :
    (v.put x a).flag = if x = 0xF then a else v.flag := by
  rw [flag_eq_value, value_put v a _ hx]
  exact ite_congr (propext eq_comm) (fun _ => rfl) fun _ => rfl

namespace Instruction

/-- The register that an instruction of arithmetic on registers puts its result into. -/
def arithmeticTarget? : Instruction → Option UInt8
  | addByte x _ | copy x _ | or x _ | and x _ | xor x _ | add x _ | sub x _ | subFrom x _
  | shiftRight x | shiftLeft x => some x
  | _ => none

def writesFlag : Instruction → Bool
  | add .. | sub .. | subFrom .. | shiftRight _ | shiftLeft _ => true
  | _ => false

/-- The instruction leaves a flag in VF. A shift of VF leaves what is shifted there. -/
def leavesFlag : Instruction → Bool
  | add .. | sub .. | subFrom .. => true
  | shiftRight x | shiftLeft x => x != 0xF
  | _ => false

/-- Registers behind a subtraction into Vx. Equal operands count as a borrow. -/
def Subtracts (w : Registers) (x a b : UInt8) : Prop :=
  w.flag = (if b < a then 1 else 0) ∧
    (x ≠ 0xF → ((w.value x).toNat : Int) = ((a.toNat : Int) - b.toNat) % 256)

/-- What an arithmetic instruction makes of the registers, those behind it against those before. -/
def Computes (v w : Registers) : Instruction → Prop
  | addByte x value => (w.value x).toNat = ((v.value x).toNat + value.toNat) % 256
  | copy x y => w.value x = v.value y
  | or x y => w.value x = v.value x ||| v.value y
  | and x y => w.value x = v.value x &&& v.value y
  | xor x y => w.value x = v.value x ^^^ v.value y
  | add x y =>
    if x = 0xF then w.flag.toNat = ((v.value x).toNat + (v.value y).toNat) / 256
    else 256 * w.flag.toNat + (w.value x).toNat = (v.value x).toNat + (v.value y).toNat
  | sub x y => Subtracts w x (v.value x) (v.value y)
  | subFrom x y => Subtracts w x (v.value y) (v.value x)
  | shiftRight x =>
    if x = 0xF then w.flag.toNat = (v.value x).toNat / 2
    else 2 * (w.value x).toNat + w.flag.toNat = (v.value x).toNat
  | shiftLeft x =>
    if x = 0xF then w.flag.toNat = 2 * (v.value x).toNat % 256
    else 256 * w.flag.toNat + (w.value x).toNat = 2 * (v.value x).toNat
  | _ => True

section Flags

variable (a b : UInt8)

theorem toNat_carry :
    (if decide (256 ≤ a.toNat + b.toNat) = true then 1 else 0 : UInt8).toNat =
      (a.toNat + b.toNat) / 256 := by
  have ha := a.toNat_lt
  have hb := b.toNat_lt
  by_cases carry : 256 ≤ a.toNat + b.toNat
  · rw [if_pos (decide_eq_true carry), UInt8.toNat_one]
    omega
  · rw [if_neg (by simpa using carry), UInt8.toNat_zero]
    omega

theorem toNat_lowBit : (if (a % 2 == 1) = true then 1 else 0 : UInt8).toNat = a.toNat % 2 := by
  have low : (a % 2).toNat = a.toNat % 2 := UInt8.toNat_mod a 2
  rcases Nat.mod_two_eq_zero_or_one a.toNat with even | odd
  · have zero : a % 2 = 0 := UInt8.toNat_inj.1 (low.trans even)
    rw [zero, even]
    rfl
  · have one : a % 2 = 1 := UInt8.toNat_inj.1 (low.trans odd)
    rw [one, odd]
    rfl

theorem toNat_highBit :
    (if decide (128 ≤ a) = true then 1 else 0 : UInt8).toNat = 2 * a.toNat / 256 := by
  have ha := a.toNat_lt
  have bound : 128 ≤ a ↔ 128 ≤ a.toNat := UInt8.le_iff_toNat_le
  by_cases high : 128 ≤ a
  · have above := bound.1 high
    rw [if_pos (decide_eq_true high), UInt8.toNat_one]
    omega
  · have below := mt bound.2 high
    rw [if_neg (by simpa using high), UInt8.toNat_zero]
    omega

end Flags

section Results

variable (v : Registers) {x : UInt8} (hx : x.toNat < 16)
include hx

theorem value_put_self (a : UInt8) : (v.put x a).value x = a := by
  rw [Registers.value_put v a x hx, if_pos rfl]

theorem value_setFlag_put (a : UInt8) (on : Bool) (h : x ≠ 0xF) :
    ((v.put x a).setFlag on).value x = a := by
  rw [Registers.value_setFlag_of_ne _ _ h, value_put_self v hx]

theorem flag_put_setFlag (a : UInt8) (on : Bool) (h : x ≠ 0xF) :
    ((v.setFlag on).put x a).flag = if on then 1 else 0 := by
  rw [Registers.flag_put _ _ hx, if_neg h, Registers.flag_setFlag]

theorem subtracts (a b : UInt8) : Subtracts ((v.put x (a - b)).setFlag (b < a)) x a b := by
  constructor
  · rw [Registers.flag_setFlag]
    simp
  · intro h
    have ha := a.toNat_lt
    have hb := b.toNat_lt
    rw [value_setFlag_put v hx _ _ h, UInt8.toNat_sub]
    omega

end Results

theorem computes_registersAfter {i : Instruction} (exist : i.RegistersExist) (m : Machine) :
    i.Computes m.state.v (i.registersAfter m) := by
  cases i with
  | addByte x value =>
    have hx : x.toNat < 16 := exist x (by simp [operands])
    rw [Computes, registersAfter, value_put_self _ hx, UInt8.toNat_add]
  | copy x _ | or x _ | and x _ | xor x _ =>
    have hx : x.toNat < 16 := exist x (by simp [operands])
    rw [Computes, registersAfter, value_put_self _ hx]
  | add x y =>
    have hx : x.toNat < 16 := exist x (by simp [operands])
    rw [Computes, registersAfter, Registers.flag_setFlag, toNat_carry]
    split
    · rfl
    · next h =>
      rw [value_setFlag_put _ hx _ _ h, UInt8.toNat_add]
      exact Nat.div_add_mod ..
  | sub x y | subFrom x y =>
    have hx : x.toNat < 16 := exist x (by simp [operands])
    exact subtracts _ hx _ _
  | shiftRight x =>
    have hx : x.toNat < 16 := exist x (by simp [operands])
    rw [Computes, registersAfter]
    split
    · next h =>
      rw [Registers.flag_put _ _ hx, if_pos h]
      exact UInt8.toNat_div ..
    · next h =>
      rw [value_put_self _ hx, flag_put_setFlag _ hx _ _ h, toNat_lowBit, UInt8.toNat_div]
      exact Nat.div_add_mod ..
  | shiftLeft x =>
    have hx : x.toNat < 16 := exist x (by simp [operands])
    have doubled (a : UInt8) : (a + a).toNat = 2 * a.toNat % 256 := by
      rw [UInt8.toNat_add, Nat.two_mul]
    rw [Computes, registersAfter]
    split
    · next h => rw [Registers.flag_put _ _ hx, if_pos h, doubled]
    · next h =>
      rw [value_put_self _ hx, flag_put_setFlag _ hx _ _ h, toNat_highBit, doubled]
      exact Nat.div_add_mod ..
  | _ => trivial

theorem flag_registersAfter {i : Instruction} (exist : i.RegistersExist)
    (leaves : i.leavesFlag = true) (m : Machine) :
    (i.registersAfter m).flag = 0 ∨ (i.registersAfter m).flag = 1 := by
  have bit (on : Bool) : (if on then 1 else 0 : UInt8) = 0 ∨ (if on then 1 else 0 : UInt8) = 1 := by
    cases on <;> decide
  cases i with
  | add x y | sub x y | subFrom x y =>
    rw [registersAfter, Registers.flag_setFlag]
    exact bit _
  | shiftRight x | shiftLeft x =>
    have hx : x.toNat < 16 := exist x (by simp [operands])
    have other : x ≠ 0xF := by simpa [leavesFlag] using leaves
    rw [registersAfter, flag_put_setFlag _ hx _ _ other]
    exact bit _
  | _ => cases leaves

theorem register_not_mem_footprint {i : Instruction} {x : UInt8} {r index : Nat}
    (target : i.arithmeticTarget? = some x) (other : r ≠ x.toNat)
    (noFlag : i.writesFlag = true → r ≠ flagRegister) : .register r ∉ i.footprint index := by
  cases i with
  | addByte _ _ | copy _ _ | or _ _ | and _ _ | xor _ _ =>
    cases target
    simpa [footprint] using other
  | add _ _ | sub _ _ | subFrom _ _ | shiftRight _ | shiftLeft _ =>
    cases target
    simpa [footprint] using ⟨other, noFlag rfl⟩
  | _ => cases target

theorem outcome_of_arithmetic {i : Instruction} {x : UInt8}
    (target : i.arithmeticTarget? = some x) (keypad : Keypad) (m : Machine) :
    i.fault? m.state = none ∧ i.effect = .none ∧
      i.outcome keypad m.advance = { m with state := { m.state with
        v := i.registersAfter m, pc := m.state.pc + 2 } } := by
  cases i with
  | addByte _ _ | copy _ _ | or _ _ | and _ _ | xor _ _ | add _ _ | sub _ _ | subFrom _ _
  | shiftRight _ | shiftLeft _ => exact ⟨rfl, rfl, rfl⟩
  | _ => cases target

/-- A word of an instruction of arithmetic on registers is executed to its end, changes the program
counter and registers alone, of these its target and, if it reports there, VF, and computes exactly
what it should, a flag in VF being zero or one. All words of the instruction do the same, so that
the second register named in the word of a shift has no part in it. -/
theorem arithmetic_is_exact {i : Instruction} {x : UInt8} {op : Opcode}
    (target : i.arithmeticTarget? = some x) (range : i.InRange) (encoded : i.EncodedBy op)
    (keypad : Keypad) (m : Machine) :
    ∃ w : Registers,
      op.execute keypad m = .ok .none { m with state := { m.state with
        v := w, pc := m.state.pc + 2 } } ∧
      i.Computes m.state.v w ∧
      (i.leavesFlag = true → w.flag = 0 ∨ w.flag = 1) ∧
      (∀ r, r ≠ x.toNat → (i.writesFlag = true → r ≠ flagRegister) → w[r]? = m.state.v[r]?) ∧
      ∀ op', i.EncodedBy op' → op'.execute keypad m = op.execute keypad m := by
  obtain ⟨safe, quiet, outcome⟩ := outcome_of_arithmetic target keypad m
  have executes {op' : Opcode} (encoded' : i.EncodedBy op') :
      op'.execute keypad m = .ok .none { m with state := { m.state with
        v := i.registersAfter m, pc := m.state.pc + 2 } } := by
    rw [Opcode.execute_eq, instruction?_of_encodedBy range encoded']
    dsimp only
    rw [safe, quiet, outcome]
  have exist : i.RegistersExist :=
    Opcode.registersExist_of_decoded (instruction?_of_encodedBy range encoded)
  refine ⟨_, executes encoded, computes_registersAfter exist m,
    fun leaves => flag_registersAfter exist leaves m, ?_, ?_⟩
  · intro r other noFlag
    have untouched : .register r ∉ i.footprint m.state.i.toNat :=
      register_not_mem_footprint target other noFlag
    exact getElem?_registersAfter m untouched
  · intro op' encoded'
    rw [executes encoded', executes encoded]

/-- VF holding two hundred: added to itself it is left with the carry, shifted left with the rest,
whatever the free nibble. -/
theorem arithmetic_is_exact_on_VF :
    let idle : Keypad := fun _ => false
    let start := Machine.start .standard (.ofWords fun _ => 0)
    let m := { start with state := { start.state with v := Vector.replicate 16 200 } }
    (∃ w : Registers, (Opcode.mk 0x8FF4).execute idle m = .ok .none { m with state :=
        { m.state with v := w, pc := 0x202 } } ∧ w.flag.toNat = 1 ∧ w[0]? = some 200) ∧
      ∃ w : Registers, (Opcode.mk 0x8F3E).execute idle m = .ok .none { m with state :=
        { m.state with v := w, pc := 0x202 } } ∧ w.flag.toNat = 144 ∧
        (Opcode.mk 0x8FFE).execute idle m = (Opcode.mk 0x8F3E).execute idle m := by
  intro idle start m
  have add : (Instruction.add 15 15).EncodedBy ⟨0x8FF4⟩ := ⟨0, by decide, by decide⟩
  have shift : (Instruction.shiftLeft 15).EncodedBy ⟨0x8F3E⟩ := ⟨3, by decide, by decide⟩
  obtain ⟨w, done, sum, -, others, -⟩ := arithmetic_is_exact rfl (by decide) add idle m
  obtain ⟨w', done', shifted, -, -, free⟩ := arithmetic_is_exact rfl (by decide) shift idle m
  have held : m.state.v.value 15 = 200 := by decide
  have carry : w.flag.toNat = 1 := by simpa [Computes, held] using sum
  have rest : w'.flag.toNat = 144 := by simpa [Computes, held] using shifted
  exact ⟨⟨w, done, carry, others 0 (by decide) (by decide)⟩, w', done', rest,
    free ⟨0x8FFE⟩ ⟨15, by decide, by decide⟩⟩

end Instruction

end Chip8
