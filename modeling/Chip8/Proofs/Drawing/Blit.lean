import Chip8.Proofs.Execution.Step
import Chip8.Proofs.Safety.FrameBuffer

namespace Chip8

/-- The bytes of a picture eight pixels wide, one to a row where there is one, and the column and
row of its upper left corner. -/
structure Sprite where
  byte? : Nat → Option UInt8
  x : Nat
  y : Nat

namespace Sprite

def bit (p : Sprite) (r b : Nat) : Bool := (p.byte? r).any fun byte => byte.toNat.testBit (7 - b)

/-- The row has a set bit over the pixel at a column and row of the screen. -/
def hits (p : Sprite) (c z r : Nat) : Bool :=
  decide ((p.y + r) % 32 = z) && decide (FrameBuffer.offset p.x c < 8) &&
    p.bit r (FrameBuffer.offset p.x c)

/-- How many of the first rows have a set bit over the pixel. -/
def hitCount (p : Sprite) (c z rows : Nat) : Nat := (List.range rows).countP (p.hits c z)

/-- The first rows flip the pixel: an odd number of them has a set bit over it. -/
def flips (p : Sprite) (c z rows : Nat) : Bool := p.hitCount c z rows % 2 == 1

/-- What drawing the first rows of a sprite makes of a screen, and whether it reports a
collision. -/
structure Blits (p : Sprite) (rows : Nat) (before after : Screen) (collision : Bool) : Prop where
  pixel_eq : ∀ c < 64, ∀ z < 32, after.pixel c z = (before.pixel c z ^^ p.flips c z rows)
  /-- A set bit meets a pixel as the rows above have left it. -/
  collision_iff : collision = true ↔ ∃ r < rows, ∃ b < 8, p.bit r b = true ∧
    (before.pixel ((p.x + b) % 64) ((p.y + r) % 32) ^^
      p.flips ((p.x + b) % 64) ((p.y + r) % 32) r) = true
  erases_iff : rows ≤ 32 → (collision = true ↔
    ∃ c < 64, ∃ z < 32, before.pixel c z = true ∧ after.pixel c z = false)

def below (p : Sprite) : Sprite := ⟨fun r => p.byte? (r + 1), p.x, p.y + 1⟩

theorem odd_add (a b : Nat) : ((a + b) % 2 == 1) = ((a % 2 == 1) ^^ (b % 2 == 1)) := by
  rcases Nat.mod_two_eq_zero_or_one a with ha | ha <;>
    rcases Nat.mod_two_eq_zero_or_one b with hb | hb <;>
    simp [Nat.add_mod, ha, hb]

section Rows

variable (p : Sprite) (c z : Nat)

@[simp] theorem flips_zero : p.flips c z 0 = false := rfl

theorem hits_succ (r : Nat) : p.hits c z (r + 1) = p.below.hits c z r := by
  have line : p.y + (r + 1) = p.y + 1 + r := by omega
  unfold hits
  rw [line]
  rfl

theorem flips_succ (rows : Nat) :
    p.flips c z (rows + 1) = (p.hits c z 0 ^^ p.below.flips c z rows) := by
  have shifted : p.hits c z ∘ Nat.succ = p.below.hits c z := funext (p.hits_succ c z)
  unfold flips hitCount
  rw [List.range_succ_eq_map, List.countP_cons, List.countP_map, shifted, odd_add, Bool.xor_comm]
  cases p.hits c z 0 <;> rfl

theorem flips_succ_last (rows : Nat) :
    p.flips c z (rows + 1) = (p.flips c z rows ^^ p.hits c z rows) := by
  unfold flips hitCount
  rw [List.range_succ, List.countP_append, List.countP_singleton, odd_add]
  cases p.hits c z rows <;> rfl

variable {p c z} {r r' rows : Nat}

/-- Rows of one sprite over a pixel are a whole number of screens apart. -/
theorem eq_of_hits (hr : r < 32) (hr' : r' < 32) (h : p.hits c z r = true)
    (h' : p.hits c z r' = true) : r = r' := by
  simp only [hits, Bool.and_eq_true, decide_eq_true_eq] at h h'
  omega

theorem flips_eq_any (low : rows ≤ 32) :
    p.flips c z rows = (List.range rows).any (p.hits c z) := by
  induction rows with
  | zero => rfl
  | succ rows ih =>
    rw [flips_succ_last, ih (Nat.le_of_succ_le low), List.range_succ, List.any_append,
      List.any_cons, List.any_nil, Bool.or_false]
    cases last : p.hits c z rows with
    | false => rw [Bool.xor_false, Bool.or_false]
    | true =>
      -- no row before the last is over the pixel as well
      have first : (List.range rows).any (p.hits c z) = false := by
        rw [List.any_eq_false]
        intro r mem hit
        have above : r < rows := List.mem_range.1 mem
        have same := eq_of_hits (by omega) (by omega) hit last
        omega
      rw [first]
      rfl

theorem flips_of_hits (low : rows ≤ 32) (hr : r < rows) (hit : p.hits c z r = true) :
    p.flips c z rows = true ∧ p.flips c z r = false := by
  constructor
  · rw [flips_eq_any low, List.any_eq_true]
    exact ⟨r, List.mem_range.2 hr, hit⟩
  · rw [flips_eq_any (by omega), List.any_eq_false]
    intro r' mem hit'
    have above : r' < r := List.mem_range.1 mem
    have same := eq_of_hits (by omega) (by omega) hit' hit
    omega

theorem hits_iff (hc : c < 64) :
    p.hits c z r = true ↔
      (p.y + r) % 32 = z ∧ ∃ b < 8, p.bit r b = true ∧ (p.x + b) % 64 = c := by
  simp only [hits, Bool.and_eq_true, decide_eq_true_eq, and_assoc]
  refine and_congr_right fun _ => ⟨?_, ?_⟩
  · rintro ⟨inside, set'⟩
    exact ⟨_, inside, set', ((FrameBuffer.eq_column_iff hc inside).2 rfl).symm⟩
  · rintro ⟨b, inside, set', column⟩
    have distance : FrameBuffer.offset p.x c = b :=
      (FrameBuffer.eq_column_iff hc inside).1 column.symm
    rw [distance]
    exact ⟨inside, set'⟩

/-- Where no pixel is under two rows, a set bit meets a pixel if and only if a pixel goes off. -/
theorem meets_iff_erases (low : rows ≤ 32) {before after : Screen}
    (pixel_eq : ∀ c < 64, ∀ z < 32, after.pixel c z = (before.pixel c z ^^ p.flips c z rows)) :
    (∃ r < rows, ∃ b < 8, p.bit r b = true ∧
      (before.pixel ((p.x + b) % 64) ((p.y + r) % 32) ^^
        p.flips ((p.x + b) % 64) ((p.y + r) % 32) r) = true) ↔
      ∃ c < 64, ∃ z < 32, before.pixel c z = true ∧ after.pixel c z = false := by
  constructor
  · rintro ⟨r, hr, b, hb, set', met⟩
    have column : (p.x + b) % 64 < 64 := Nat.mod_lt _ (by decide)
    have line : (p.y + r) % 32 < 32 := Nat.mod_lt _ (by decide)
    have hit : p.hits ((p.x + b) % 64) ((p.y + r) % 32) r = true :=
      (hits_iff column).2 ⟨rfl, b, hb, set', rfl⟩
    -- rows this few never meet, so no other row flips the pixel
    obtain ⟨flipped, fresh⟩ := flips_of_hits low hr hit
    rw [fresh, Bool.xor_false] at met
    refine ⟨_, column, _, line, met, ?_⟩
    rw [pixel_eq _ column _ line, met, flipped]
    rfl
  · rintro ⟨c, hc, z, hz, on, off⟩
    have flipped : p.flips c z rows = true := by
      rw [pixel_eq c hc z hz, on] at off
      simpa using off
    rw [flips_eq_any low, List.any_eq_true] at flipped
    obtain ⟨r, mem, hit⟩ := flipped
    have hr : r < rows := List.mem_range.1 mem
    obtain ⟨-, fresh⟩ := flips_of_hits low hr hit
    obtain ⟨rfl, b, hb, set', rfl⟩ := (hits_iff hc).1 hit
    refine ⟨r, hr, b, hb, set', ?_⟩
    rw [on, fresh]
    rfl

end Rows

def ofBytes (x y : Nat) (bytes : List UInt8) : Sprite := ⟨fun r => bytes[r]?, x, y⟩

end Sprite

namespace Screen

open Sprite

theorem ext_pixel {s t : Screen} (h : ∀ c < 64, ∀ z < 32, s.pixel c z = t.pixel c z) : s = t := by
  cases s with | mk rows =>
  cases t with | mk rows' =>
  congr 1
  apply Vector.ext
  intro z hz
  apply BitVec.eq_of_getMsbD_eq
  intro c hc
  simpa [pixel, row, Nat.mod_eq_of_lt hc, Nat.mod_eq_of_lt hz] using h c hc z hz

theorem getMsbD_eq_testBit (byte : UInt8) {b : Nat} (hb : b < 8) :
    byte.toBitVec.getMsbD b = byte.toNat.testBit (7 - b) := by
  rw [BitVec.getMsbD, decide_eq_true hb, Bool.true_and]
  rfl

theorem pixel_mod (s : Screen) (c z : Nat) : s.pixel c (z % 32) = s.pixel c z := by
  simp only [pixel, row_mod]

theorem pixel_flip_mask (s : Screen) (x y : Nat) (byte : UInt8) (rest : List UInt8) {c z : Nat}
    (hc : c < 64) (hz : z < 32) :
    (s.flip y (mask x byte)).pixel c z =
      (s.pixel c z ^^ (ofBytes x y (byte :: rest)).hits c z 0) := by
  rw [pixel_flip, Nat.mod_eq_of_lt hc, Nat.mod_eq_of_lt hz, getMsbD_mask x c byte hc]
  change _ = (s.pixel c z ^^ (decide (y % 32 = z) && decide (FrameBuffer.offset x c < 8) &&
    byte.toNat.testBit (7 - FrameBuffer.offset x c)))
  rw [Bool.and_assoc]
  by_cases inside : FrameBuffer.offset x c < 8
  · rw [← getMsbD_eq_testBit byte inside]
    rfl
  · rw [← FrameBuffer.offset, decide_eq_false inside, Bool.false_and, Bool.false_and]

theorem pixel_flip_xor_flips (s : Screen) (x y : Nat) (byte : UInt8) (rest : List UInt8)
    {c z : Nat} (hc : c < 64) (hz : z < 32) (rows : Nat) :
    ((s.flip y (mask x byte)).pixel c z ^^ (ofBytes x (y + 1) rest).flips c z rows) =
      (s.pixel c z ^^ (ofBytes x y (byte :: rest)).flips c z (rows + 1)) := by
  rw [pixel_flip_mask s x y byte rest hc hz, flips_succ, Bool.xor_assoc]
  rfl

theorem pixel_draw (s : Screen) (x y : Nat) (bytes : List UInt8) {c z : Nat} (hc : c < 64)
    (hz : z < 32) :
    (s.draw x y bytes).1.pixel c z =
      (s.pixel c z ^^ (ofBytes x y bytes).flips c z bytes.length) := by
  induction bytes generalizing s y with
  | nil => exact (Bool.xor_false _).symm
  | cons byte rest ih =>
    change ((s.flip y (mask x byte)).draw x (y + 1) rest).1.pixel c z = _
    rw [ih, pixel_flip_xor_flips s x y byte rest hc hz, List.length_cons]

theorem draw_collides_iff (s : Screen) (x y : Nat) (bytes : List UInt8) :
    (s.draw x y bytes).2 = true ↔
      ∃ r < bytes.length, ∃ b < 8, (ofBytes x y bytes).bit r b = true ∧
        (s.pixel ((x + b) % 64) ((y + r) % 32) ^^
          (ofBytes x y bytes).flips ((x + b) % 64) ((y + r) % 32) r) = true := by
  induction bytes generalizing s y with
  | nil => simp
  | cons byte rest ih =>
    change ((s.row y &&& mask x byte) != 0 ||
      ((s.flip y (mask x byte)).draw x (y + 1) rest).2) = true ↔ _
    rw [Bool.or_eq_true, ih, List.length_cons, Nat.exists_lt_succ_left]
    -- the first row is drawn on the screen itself, the others on what the first row leaves
    refine or_congr ?_ (exists_congr fun r => and_congr_right fun hr => exists_congr fun b =>
      and_congr_right fun hb => and_congr_right fun _ => ?_)
    · rw [row_and_mask_ne_zero, List.any_eq_true]
      simp only [List.mem_range, Bool.and_eq_true, Nat.add_zero, flips_zero, Bool.xor_false,
        pixel_mod]
      refine exists_congr fun b => and_congr_right fun hb => ?_
      rw [getMsbD_eq_testBit byte hb]
      rfl
    · have column : (x + b) % 64 < 64 := Nat.mod_lt _ (by decide)
      have line : (y + 1 + r) % 32 < 32 := Nat.mod_lt _ (by decide)
      have same : y + (r + 1) = y + 1 + r := by omega
      rw [pixel_flip_xor_flips s x y byte rest column line, same]

theorem blits_draw (s : Screen) (x y : Nat) (bytes : List UInt8) :
    (ofBytes x y bytes).Blits bytes.length s (s.draw x y bytes).1 (s.draw x y bytes).2 := by
  have pixel_eq : ∀ c < 64, ∀ z < 32, (s.draw x y bytes).1.pixel c z =
      (s.pixel c z ^^ (ofBytes x y bytes).flips c z bytes.length) :=
    fun c hc z hz => s.pixel_draw x y bytes hc hz
  have collides := s.draw_collides_iff x y bytes
  exact ⟨pixel_eq, collides, fun low => collides.trans (meets_iff_erases low pixel_eq)⟩

end Screen

def Memory.sprite (m : Memory) (address rows x y : Nat) : Sprite where
  byte? r := if r < rows then m.bytes[address + r]? else none
  x := x
  y := y

def State.sprite (s : State) (x y rows : UInt8) : Sprite :=
  s.memory.sprite s.i.toNat rows.toNat (s.v.value x).toNat (s.v.value y).toNat

theorem State.sprite_eq_ofBytes (s : State) (x y rows : UInt8) :
    s.sprite x y rows = .ofBytes (s.v.value x).toNat (s.v.value y).toNat
      (s.bytesAtIndex rows.toNat) := by
  unfold sprite Memory.sprite Sprite.ofBytes
  congr 1
  funext r
  split
  · next inside => exact (s.getElem?_bytesAtIndex inside).symm
  · next outside =>
    rw [bytesAtIndex, List.getElem?_take, if_neg outside]

namespace Instruction

variable {x y rows : UInt8} {m : Machine}

theorem registersExist_draw (hx : x.toNat < 16) (hy : y.toNat < 16) :
    (draw x y rows).RegistersExist := by
  simp [RegistersExist, operands, hx, hy]

theorem execute_draw (hx : x.toNat < 16) (hy : y.toNat < 16)
    (fits : Memory.Fits m.state.i.toNat rows.toNat) (keypad : Keypad) :
    (draw x y rows).execute keypad m = .ok .draw ((draw x y rows).outcome keypad m) := by
  have safe : (draw x y rows).fault? m.state = none := State.accessFault?_eq_none_iff.2 fits
  rw [execute_eq (registersExist_draw hx hy), safe]
  rfl

theorem blits_drawn (x y : UInt8) {s : State} (fits : Memory.Fits s.i.toNat rows.toNat) :
    (s.sprite x y rows).Blits rows.toNat s.screen (s.drawn x y rows).1 (s.drawn x y rows).2 := by
  have height := s.length_bytesAtIndex (State.accessFault?_eq_none_iff.2 fits)
  have blits := s.screen.blits_draw (s.v.value x).toNat (s.v.value y).toNat
    (s.bytesAtIndex rows.toNat)
  rwa [height, ← State.sprite_eq_ofBytes] at blits

/-- A sprite of any height that lies in memory is drawn: each pixel is flipped once for each set bit
over it, around both edges of the screen; the flag tells whether a set bit met a pixel that was on,
which for a sprite no higher than the screen is a pixel that is now off; a frame is due and nothing
else has changed. Going bit by bit over a screen of bytes comes to the same. -/
theorem draw_blits (hx : x.toNat < 16) (hy : y.toNat < 16)
    (fits : Memory.Fits m.state.i.toNat rows.toNat) (keypad : Keypad) :
    ∃ (screen : Screen) (collision : Bool),
      (draw x y rows).execute keypad m = .ok .draw { m with state := { m.state with
        v := m.state.v.setFlag collision, screen := screen, redraw := true } } ∧
      (m.state.sprite x y rows).Blits rows.toNat m.screen screen collision ∧
      m.screen.bytes.drawRows? false (m.state.v.value x).toNat (m.state.v.value y).toNat 0
        (m.state.bytesAtIndex rows.toNat) = some (screen.bytes, collision) := by
  refine ⟨_, _, execute_draw hx hy fits keypad, blits_drawn x y fits, ?_⟩
  have column : (m.state.v.value x).toNat < 256 := UInt8.toNat_lt _
  have line : (m.state.v.value y).toNat < 256 := UInt8.toNat_lt _
  have height := m.state.length_bytesAtIndex (State.accessFault?_eq_none_iff.2 fits)
  have count : rows.toNat < 256 := UInt8.toNat_lt _
  have bounded : (m.state.v.value y).toNat + 0 + (m.state.bytesAtIndex rows.toNat).length <
      sizeBound := by
    rw [height]
    exact Nat.lt_trans (by omega : _ < 512) (by decide)
  rw [m.screen.drawRows?_bytes false column _ bounded, Bool.false_or]
  rfl

/-- A sprite of thirty-three rows over the lower right corner, its place in VF: its last row meets
its first, takes it off a blank screen again and reports that; the row between wraps at both
edges. -/
theorem draw_blits_a_sprite_higher_than_the_screen :
    let start := Machine.start .standard (.ofWords fun _ => 0)
    let m := { start with state := { start.state with v := start.state.v.put 0xF 62 } }
    ∃ after, (draw 0xF 0xF 33).execute (fun _ => false) m = .ok .draw after ∧
      after.state.v.flag = 1 ∧ (∀ c < 64, after.screen.pixel c 30 = false) ∧
      after.screen.pixel 62 31 = true ∧ after.screen.pixel 1 31 = true := by
  intro start m
  have fits : Memory.Fits m.state.i.toNat (33 : UInt8).toNat := by decide
  obtain ⟨screen, collision, done, blits, -⟩ :=
    draw_blits (x := 0xF) (y := 0xF) (by decide) (by decide) fits fun _ => false
  have met : collision = true :=
    blits.collision_iff.2 ⟨32, by decide, 0, by decide, by decide +kernel, by decide +kernel⟩
  have even : ∀ c < 64,
      (m.screen.pixel c 30 ^^ (m.state.sprite 0xF 0xF 33).flips c 30 33) = false := by
    decide +kernel
  refine ⟨_, done, ?_, ?_, ?_, ?_⟩
  · rw [met]
    exact Registers.flag_setFlag _ _
  · intro c hc
    exact (blits.pixel_eq c hc 30 (by decide)).trans (even c hc)
  · exact (blits.pixel_eq 62 (by decide) 31 (by decide)).trans (by decide +kernel)
  · exact (blits.pixel_eq 1 (by decide) 31 (by decide)).trans (by decide +kernel)

end Instruction

end Chip8
