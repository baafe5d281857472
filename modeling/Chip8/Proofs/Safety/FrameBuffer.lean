import Chip8.Proofs.Safety.Checked

namespace Chip8

/-- A byte to a pixel, by row and column. -/
abbrev FrameBuffer := Vector (Vector UInt8 64) 32

namespace FrameBuffer

def blank : FrameBuffer := Vector.replicate 32 (Vector.replicate 64 0)

def get? (f : FrameBuffer) (y x : Nat) : Option UInt8 := do (← f[y]?)[x]?

def set? (f : FrameBuffer) (y x : Nat) (value : UInt8) : Option FrameBuffer :=
  if hy : y < 32 then
    if hx : x < 64 then some (f.set y (f[y].set x value)) else none
  else none

/-- Draw one bit of a sprite row, counted from the left; true if there was a collision. -/
def drawBit? (f : FrameBuffer) (collision : Bool) (x y : Nat) (byte : UInt8) (bit : Nat) :
    Option (FrameBuffer × Bool) := do
  let column := (← Checked.add sizeBound x bit) % 64
  let shifted ← Checked.shiftRight byte (← Checked.sub 7 bit)
  let pixel := shifted &&& 1
  let current ← f.get? y column
  let drawn ← f.set? y column (current ^^^ pixel)
  return (drawn, collision || pixel &&& current == 1)

def drawBits? (f : FrameBuffer) (collision : Bool) (x y : Nat) (byte : UInt8) :
    Nat → Option (FrameBuffer × Bool)
  | 0 => some (f, collision)
  | bits + 1 => do
    let (drawn, collided) ← f.drawBits? collision x y byte bits
    drawn.drawBit? collided x y byte bits

def drawRows? (f : FrameBuffer) (collision : Bool) (x y row : Nat) :
    List UInt8 → Option (FrameBuffer × Bool)
  | [] => some (f, collision)
  | byte :: rest => do
    let line := (← Checked.add sizeBound y row) % 32
    let (drawn, collided) ← f.drawBits? collision x line byte 8
    drawn.drawRows? collided x y (row + 1) rest

def IsBits (f : FrameBuffer) : Prop := ∀ row ∈ f, ∀ pixel ∈ row, pixel = 0 ∨ pixel = 1

def ofPixels (p : Nat → Nat → Bool) : FrameBuffer :=
  Vector.ofFn fun y => Vector.ofFn fun x => (p x y).toUInt8

theorem isBits_ofPixels (p : Nat → Nat → Bool) : (ofPixels p).IsBits := by
  intro row inFrame pixel inRow
  obtain ⟨y, hy, rfl⟩ := Vector.mem_iff_getElem.1 inFrame
  obtain ⟨x, hx, rfl⟩ := Vector.mem_iff_getElem.1 inRow
  simp only [ofPixels, Vector.getElem_ofFn]
  cases p x y with
  | false => exact .inl rfl
  | true => exact .inr rfl

theorem ofPixels_congr {p q : Nat → Nat → Bool} (h : ∀ y < 32, ∀ x < 64, p x y = q x y) :
    ofPixels p = ofPixels q := by
  apply Vector.ext
  intro y hy
  apply Vector.ext
  intro x hx
  simp only [ofPixels, Vector.getElem_ofFn, h y hy x hx]

theorem get?_ofPixels (p : Nat → Nat → Bool) {y x : Nat} (hy : y < 32) (hx : x < 64) :
    (ofPixels p).get? y x = some (p x y).toUInt8 := by
  simp [get?, ofPixels, hy, hx]

theorem set?_ofPixels (p : Nat → Nat → Bool) {y x : Nat} (hy : y < 32) (hx : x < 64) (on : Bool) :
    (ofPixels p).set? y x on.toUInt8 =
      some (ofPixels fun c r => if r = y ∧ c = x then on else p c r) := by
  rw [set?, dif_pos hy, dif_pos hx]
  refine congrArg some ?_
  apply Vector.ext
  intro r hr
  apply Vector.ext
  intro c hc
  simp only [ofPixels, Vector.getElem_set, Vector.getElem_ofFn]
  by_cases same : y = r
  · subst same
    by_cases at' : x = c
    · simp [at']
    · simp [at', Ne.symm at']
  · simp [same, Ne.symm same]

theorem shifted_and_one (byte : UInt8) {bit : Nat} (h : bit < 8) :
    byte >>> UInt8.ofNat (7 - bit) &&& 1 = (byte.toBitVec.getMsbD bit).toUInt8 := by
  have amount : (7 - bit) % 256 % 8 = 7 - bit := by omega
  have tested : byte.toBitVec.getMsbD bit = byte.toNat.testBit (7 - bit) := by
    rw [BitVec.getMsbD, decide_eq_true h, Bool.true_and]
    rfl
  apply UInt8.toNat_inj.1
  rw [tested, Nat.testBit_eq_decide_div_mod_eq, UInt8.toNat_and, UInt8.toNat_shiftRight]
  simp only [UInt8.toNat_ofNat', Nat.reducePow, amount, Nat.shiftRight_eq_div_pow,
    UInt8.reduceToNat, Nat.and_one_is_mod]
  rcases Nat.mod_two_eq_zero_or_one (byte.toNat / 2 ^ (7 - bit)) with even | odd
  · rw [even]
    rfl
  · rw [odd]
    rfl

/-- How far a column lies to the right of another, around the screen. -/
def offset (x column : Nat) : Nat := (column + 64 - x % 64) % 64

theorem eq_column_iff {x column bit : Nat} (hc : column < 64) (h : bit < 8) :
    column = (x + bit) % 64 ↔ offset x column = bit := by
  unfold offset
  omega

theorem drawBit?_ofPixels (p : Nat → Nat → Bool) (collision : Bool) {x y : Nat} (hx : x < 256)
    (hy : y < 32) (byte : UInt8) {bit : Nat} (h : bit < 8) :
    (ofPixels p).drawBit? collision x y byte bit =
      some (ofPixels fun c r =>
          if r = y ∧ c = (x + bit) % 64 then p c r ^^ byte.toBitVec.getMsbD bit else p c r,
        collision || (byte.toBitVec.getMsbD bit && p ((x + bit) % 64) y)) := by
  have bounded : x + bit < sizeBound := Nat.lt_trans (Nat.add_lt_add hx h) (by decide)
  have column : (x + bit) % 64 < 64 := Nat.mod_lt _ (by decide)
  have flipped (on bit' : Bool) : on.toUInt8 ^^^ bit'.toUInt8 = (on ^^ bit').toUInt8 := by
    cases on <;> cases bit' <;> rfl
  have met (on bit' : Bool) : (bit'.toUInt8 &&& on.toUInt8 == 1) = (bit' && on) := by
    cases on <;> cases bit' <;> rfl
  have drawn : ofPixels (fun c r => if r = y ∧ c = (x + bit) % 64 then
        p ((x + bit) % 64) y ^^ byte.toBitVec.getMsbD bit else p c r) =
      ofPixels fun c r =>
        if r = y ∧ c = (x + bit) % 64 then p c r ^^ byte.toBitVec.getMsbD bit else p c r := by
    apply ofPixels_congr
    rintro r - c -
    by_cases here : r = y ∧ c = (x + bit) % 64
    · rw [if_pos here, if_pos here, here.1, here.2]
    · rw [if_neg here, if_neg here]
  have amount : 7 - bit < 8 := by omega
  simp only [drawBit?, Checked.add_eq_some bounded, Checked.sub_eq_some (Nat.le_of_lt_succ h),
    Checked.shiftRight_eq_some byte amount, shifted_and_one byte h, get?_ofPixels p hy column,
    set?_ofPixels p hy column, Option.bind_eq_bind, Option.bind_some, flipped, met, drawn]
  rfl

def covers (x y : Nat) (byte : UInt8) (bits c r : Nat) : Bool :=
  decide (r = y ∧ offset x c < bits) && byte.toBitVec.getMsbD (offset x c)

theorem covers_at_last {x y : Nat} (byte : UInt8) {bits : Nat} (h : bits < 8) :
    covers x y byte bits ((x + bits) % 64) y = false := by
  have column : (x + bits) % 64 < 64 := Nat.mod_lt _ (by decide)
  have last : offset x ((x + bits) % 64) = bits := (eq_column_iff column h).1 rfl
  simp [covers, last]

theorem covers_succ {x y : Nat} (byte : UInt8) {bits c : Nat} (hc : c < 64) (h : bits < 8)
    (r : Nat) :
    covers x y byte (bits + 1) c r =
      if r = y ∧ c = (x + bits) % 64 then byte.toBitVec.getMsbD bits
      else covers x y byte bits c r := by
  unfold covers
  by_cases here : r = y ∧ c = (x + bits) % 64
  · have last : offset x c = bits := (eq_column_iff hc h).1 here.2
    rw [if_pos here, last]
    simp [here.1]
  · have other : r = y → offset x c ≠ bits := fun row same =>
      here ⟨row, (eq_column_iff hc h).2 same⟩
    have before : (r = y ∧ offset x c < bits + 1) = (r = y ∧ offset x c < bits) := by
      apply propext
      omega
    rw [if_neg here]
    simp only [before]

/-- The invariant of the loop over a sprite row: the bits done so far are flipped, and there was a
collision if one of them met a pixel. -/
theorem drawBits?_ofPixels (p : Nat → Nat → Bool) (collision : Bool) {x y : Nat} (hx : x < 256)
    (hy : y < 32) (byte : UInt8) {bits : Nat} (h : bits ≤ 8) :
    (ofPixels p).drawBits? collision x y byte bits =
      some (ofPixels fun c r => p c r ^^ covers x y byte bits c r,
        collision || (List.range bits).any fun bit =>
          byte.toBitVec.getMsbD bit && p ((x + bit) % 64) y) := by
  induction bits with
  | zero => simp [drawBits?, covers]
  | succ bits ih =>
    have drawn : ofPixels (fun c r =>
          if r = y ∧ c = (x + bits) % 64 then
            (p c r ^^ covers x y byte bits c r) ^^ byte.toBitVec.getMsbD bits
          else p c r ^^ covers x y byte bits c r) =
        ofPixels fun c r => p c r ^^ covers x y byte (bits + 1) c r := by
      apply ofPixels_congr
      intro r hr c hc
      rw [covers_succ byte hc h]
      by_cases here : r = y ∧ c = (x + bits) % 64
      · -- eight columns do not reach around the screen, so no earlier bit was here
        rw [if_pos here, if_pos here, here.1, here.2, covers_at_last byte h, Bool.xor_false]
      · rw [if_neg here, if_neg here]
    rw [drawBits?, ih (Nat.le_of_succ_le h)]
    change drawBit? _ _ _ _ _ _ = _
    rw [drawBit?_ofPixels _ _ hx hy byte h, drawn, covers_at_last byte h, Bool.xor_false,
      List.range_succ, List.any_append, Bool.or_assoc]
    simp

end FrameBuffer

namespace Screen

def bytes (s : Screen) : FrameBuffer := .ofPixels s.pixel

theorem isBits_bytes (s : Screen) : s.bytes.IsBits := FrameBuffer.isBits_ofPixels _

theorem bytes_blank : blank.bytes = FrameBuffer.blank := by
  apply Vector.ext
  intro y hy
  apply Vector.ext
  intro x hx
  have off : (0 : BitVec 64).getMsbD (x % 64) = false := BitVec.getMsbD_zero
  simp only [bytes, FrameBuffer.ofPixels, FrameBuffer.blank, pixel, row, blank,
    Vector.getElem_ofFn, Vector.getElem_replicate, Fin.getElem_fin, off]
  rfl

theorem getMsbD_row_and_mask (s : Screen) (x y : Nat) (byte : UInt8) {c : Nat} (hc : c < 64) :
    (s.row y &&& mask x byte).getMsbD c =
      (s.pixel c y && FrameBuffer.covers x y byte 8 c y) := by
  rw [BitVec.getMsbD_and, getMsbD_mask x c byte hc, pixel, Nat.mod_eq_of_lt hc]
  simp [FrameBuffer.covers, FrameBuffer.offset]

theorem exists_getMsbD_of_ne_zero {row : BitVec 64} (h : row ≠ 0) :
    ∃ c < 64, row.getMsbD c = true := by
  apply Classical.byContradiction
  intro none
  apply h
  apply BitVec.eq_of_getMsbD_eq
  intro c hc
  cases on : row.getMsbD c with
  | false => exact BitVec.getMsbD_zero.symm
  | true => exact absurd ⟨c, hc, on⟩ none

theorem row_mod (s : Screen) (y : Nat) : s.row (y % 32) = s.row y := by
  simp only [row, Nat.mod_mod]

/-- A mask meets a row where a set bit of the sprite row meets a pixel. -/
theorem row_and_mask_ne_zero (s : Screen) (x y : Nat) (byte : UInt8) :
    (s.row y &&& mask x byte != 0) =
      (List.range 8).any fun bit => byte.toBitVec.getMsbD bit && s.pixel ((x + bit) % 64) y := by
  rw [Bool.eq_iff_iff, bne_iff_ne, List.any_eq_true]
  constructor
  · intro met
    obtain ⟨c, hc, on⟩ := exists_getMsbD_of_ne_zero met
    rw [getMsbD_row_and_mask s x y byte hc] at on
    obtain ⟨pixel, inside, bit⟩ : s.pixel c y = true ∧ FrameBuffer.offset x c < 8 ∧
        byte.toBitVec.getMsbD (FrameBuffer.offset x c) = true := by
      simpa [FrameBuffer.covers] using on
    -- the column is where the bit of its offset is drawn
    have column : c = (x + FrameBuffer.offset x c) % 64 :=
      (FrameBuffer.eq_column_iff hc inside).2 rfl
    refine ⟨FrameBuffer.offset x c, List.mem_range.2 inside, ?_⟩
    rw [bit, ← column, pixel]
    rfl
  · rintro ⟨bit, inByte, on⟩ none
    have inside : bit < 8 := List.mem_range.1 inByte
    have hc : (x + bit) % 64 < 64 := Nat.mod_lt _ (by decide)
    have here : FrameBuffer.offset x ((x + bit) % 64) = bit :=
      (FrameBuffer.eq_column_iff hc inside).1 rfl
    obtain ⟨set', pixel⟩ := Bool.and_eq_true_iff.1 on
    have off := getMsbD_row_and_mask s x y byte hc
    have zero : (0 : BitVec 64).getMsbD ((x + bit) % 64) = false := BitVec.getMsbD_zero
    rw [none, zero, pixel, FrameBuffer.covers, here, set'] at off
    simp [inside] at off

theorem bytes_flip (s : Screen) (x y : Nat) (byte : UInt8) :
    (s.flip y (mask x byte)).bytes =
      .ofPixels fun c r => s.pixel c r ^^ FrameBuffer.covers x (y % 32) byte 8 c r := by
  apply FrameBuffer.ofPixels_congr
  intro r hr c hc
  rw [pixel_flip, Nat.mod_eq_of_lt hr, Nat.mod_eq_of_lt hc, getMsbD_mask x c byte hc]
  have turned : decide (y % 32 = r) = decide (r = y % 32) := decide_eq_decide.2 eq_comm
  rw [FrameBuffer.covers, Bool.decide_and, Bool.and_assoc, FrameBuffer.offset, turned]

theorem drawBits?_bytes (s : Screen) (collision : Bool) {x : Nat} (hx : x < 256) (y : Nat)
    (byte : UInt8) :
    s.bytes.drawBits? collision x (y % 32) byte 8 =
      some ((s.flip y (mask x byte)).bytes, collision || s.row y &&& mask x byte != 0) := by
  have line : y % 32 < 32 := Nat.mod_lt _ (by decide)
  rw [bytes, FrameBuffer.drawBits?_ofPixels s.pixel collision hx line byte (Nat.le_refl 8),
    ← bytes_flip, ← row_and_mask_ne_zero, row_mod]

theorem drawRows?_bytes (s : Screen) (collision : Bool) {x y row : Nat} (hx : x < 256)
    (sprite : List UInt8) (bounded : y + row + sprite.length < sizeBound) :
    s.bytes.drawRows? collision x y row sprite =
      some ((s.draw x (y + row) sprite).1.bytes,
        collision || (s.draw x (y + row) sprite).2) := by
  induction sprite generalizing s collision row with
  | nil => simp [FrameBuffer.drawRows?]
  | cons byte rest ih =>
    rw [List.length_cons] at bounded
    have sum : y + row < sizeBound := by omega
    rw [FrameBuffer.drawRows?, Checked.add_eq_some sum]
    change (do
      let (drawn, collided) ← s.bytes.drawBits? collision x ((y + row) % 32) byte 8
      drawn.drawRows? collided x y (row + 1) rest) = _
    rw [drawBits?_bytes s collision hx]
    change FrameBuffer.drawRows? _ _ _ _ _ _ = _
    rw [ih _ _ (by omega), draw, Bool.or_assoc]
    rfl

end Screen

end Chip8
