import Chip8.Proofs.Drawing.Blit

namespace Chip8

theorem Registers.flag_setFlag_eq_one_iff (v : Registers) (on : Bool) :
    (v.setFlag on).flag = 1 ↔ on = true := by
  rw [flag_setFlag]
  cases on <;> decide

namespace Instruction

def executeAll (keypad : Keypad) : List Instruction → MicroOp Unit
  | [] => pure ()
  | i :: rest => do
    let _ ← i.execute keypad
    executeAll keypad rest

theorem executeAll_cons {i : Instruction} {keypad : Keypad} {m after : Machine} {effect : Effect}
    (done : i.execute keypad m = .ok effect after) (rest : List Instruction) :
    executeAll keypad (i :: rest) m = executeAll keypad rest after := by
  rw [executeAll, MicroOp.bind_run, done]

theorem execute_setByte {x : UInt8} (hx : x.toNat < 16) (value : UInt8) (keypad : Keypad)
    (m : Machine) :
    (setByte x value).execute keypad m =
      .ok .none { m with state := { m.state with v := m.state.v.put x value } } := by
  have exist : (setByte x value).RegistersExist := by simpa [RegistersExist, operands] using hx
  rw [execute_eq exist]
  rfl

end Instruction

/-- A draw of a sprite that lies in memory, with the two registers that are to hold its place,
neither of them VF. -/
structure Stamp where
  index : UInt16
  x : UInt8
  y : UInt8
  column : UInt8
  row : UInt8
  rows : UInt8
  x_lt : x.toNat < flagRegister
  y_lt : y.toNat < flagRegister
  fits : Memory.Fits index.toNat rows.toNat

namespace Stamp

open Instruction

def code (d : Stamp) : List Instruction :=
  [.setIndex d.index, .setByte d.x d.column, .setByte d.y d.row, .draw d.x d.y d.rows]

/-- The sprite as it is drawn. The row is set last, so in a single register it is the column too. -/
def sprite (memory : Memory) (d : Stamp) : Sprite :=
  memory.sprite d.index.toNat d.rows.toNat
    (if d.x = d.y then d.row else d.column).toNat d.row.toNat

/-- The rows that have a set bit over a pixel. -/
def hitRows (memory : Memory) (c z : Nat) (d : Stamp) : List Nat :=
  (List.range d.rows.toNat).filter ((d.sprite memory).hits c z)

def prepare (m : Machine) (d : Stamp) : Machine :=
  { m with state := { m.state with
      v := (m.state.v.put d.x d.column).put d.y d.row
      i := d.index } }

theorem x_exists (d : Stamp) : d.x.toNat < 16 := Nat.lt_succ_of_lt d.x_lt

theorem y_exists (d : Stamp) : d.y.toNat < 16 := Nat.lt_succ_of_lt d.y_lt

theorem sprite_prepare (m : Machine) (d : Stamp) :
    (d.prepare m).state.sprite d.x d.y d.rows = d.sprite m.state.memory := by
  have row : (d.prepare m).state.v.value d.y = d.row := by
    change ((m.state.v.put d.x d.column).put d.y d.row).value d.y = _
    rw [Registers.value_put _ _ _ d.y_exists, if_pos rfl]
  have column : (d.prepare m).state.v.value d.x = if d.x = d.y then d.row else d.column := by
    change ((m.state.v.put d.x d.column).put d.y d.row).value d.x = _
    rw [Registers.value_put _ _ _ d.y_exists, Registers.value_put _ _ _ d.x_exists, if_pos rfl]
  unfold State.sprite sprite
  rw [row, column]
  rfl

theorem pixel_drawn_prepare (m : Machine) (d : Stamp) {c z : Nat} (hc : c < 64) (hz : z < 32) :
    ((d.prepare m).state.drawn d.x d.y d.rows).1.pixel c z =
      (m.screen.pixel c z ^^ (d.hitRows m.state.memory c z).length % 2 == 1) := by
  have blits := blits_drawn (s := (d.prepare m).state) d.x d.y d.fits
  rw [sprite_prepare] at blits
  rw [hitRows, ← List.countP_eq_length_filter]
  exact blits.pixel_eq c hc z hz

theorem executeAll_code_append (d : Stamp) (rest : List Instruction) (keypad : Keypad)
    (m : Machine) :
    executeAll keypad (d.code ++ rest) m = executeAll keypad rest
      ((Instruction.draw d.x d.y d.rows).outcome keypad (d.prepare m)) := by
  let indexed : Machine := { m with state := { m.state with i := d.index } }
  let placed : Machine :=
    { m with state := { m.state with v := m.state.v.put d.x d.column, i := d.index } }
  have index : (setIndex d.index).execute keypad m = .ok .none indexed := rfl
  have column : (setByte d.x d.column).execute keypad indexed = .ok .none placed :=
    execute_setByte d.x_exists ..
  have row : (setByte d.y d.row).execute keypad placed = .ok .none (d.prepare m) :=
    execute_setByte d.y_exists ..
  have drawn := execute_draw (m := d.prepare m) d.x_exists d.y_exists d.fits keypad
  change executeAll keypad
    (setIndex d.index :: setByte d.x d.column :: setByte d.y d.row :: draw d.x d.y d.rows :: rest)
    m = _
  rw [executeAll_cons index, executeAll_cons column, executeAll_cons row, executeAll_cons drawn]

theorem executeAll_code (draws : List Stamp) (keypad : Keypad) (m : Machine) :
    ∃ after, executeAll keypad (draws.flatMap code) m = .ok () after ∧
      after.state.memory = m.state.memory ∧
      ∀ c < 64, ∀ z < 32, after.screen.pixel c z =
        (m.screen.pixel c z ^^ (draws.flatMap (hitRows m.state.memory c z)).length % 2 == 1) := by
  induction draws generalizing m with
  | nil => exact ⟨m, rfl, rfl, fun c _ z _ => (Bool.xor_false _).symm⟩
  | cons d rest ih =>
    let mid := (Instruction.draw d.x d.y d.rows).outcome keypad (d.prepare m)
    have kept : mid.state.memory = m.state.memory := rfl
    obtain ⟨after, done, kept', flipped⟩ := ih mid
    refine ⟨after, ?_, kept'.trans kept, ?_⟩
    · rw [List.flatMap_cons, executeAll_code_append, done]
    · intro c hc z hz
      have drawn : mid.screen.pixel c z =
          (m.screen.pixel c z ^^ (d.hitRows m.state.memory c z).length % 2 == 1) :=
        pixel_drawn_prepare m d hc hz
      rw [flipped c hc z hz, drawn, kept, List.flatMap_cons, List.length_append, Sprite.odd_add,
        Bool.xor_assoc]

/-- Draws that flip each pixel as often, by a multiple of two more or less, leave the same
screen. -/
theorem screen_eq_of_parity {draws draws' : List Stamp} {m : Machine}
    (parity : ∀ c z, (draws.flatMap (hitRows m.state.memory c z)).length % 2 =
      (draws'.flatMap (hitRows m.state.memory c z)).length % 2) (keypad : Keypad) :
    ∃ after after', executeAll keypad (draws.flatMap code) m = .ok () after ∧
      executeAll keypad (draws'.flatMap code) m = .ok () after' ∧
      after'.screen = after.screen := by
  obtain ⟨after, done, -, flipped⟩ := executeAll_code draws keypad m
  obtain ⟨after', done', -, flipped'⟩ := executeAll_code draws' keypad m
  refine ⟨after, after', done, done', Screen.ext_pixel fun c hc z hz => ?_⟩
  rw [flipped' c hc z hz, flipped c hc z hz, parity]

/-- The second of two equal draws finds the sprite where the first has found it and takes it away
again. -/
theorem draw_again {x y rows : UInt8} (hx : x.toNat < flagRegister) (hy : y.toNat < flagRegister)
    {m : Machine} (fits : Memory.Fits m.state.i.toNat rows.toNat) (keypad keypad' : Keypad) :
    ∃ first second, (draw x y rows).execute keypad m = .ok .draw first ∧
      (draw x y rows).execute keypad' first = .ok .draw second ∧
      second.screen = m.screen ∧
      (rows.toNat ≤ 32 → (second.state.v.flag = 1 ↔ ∃ c < 64, ∃ z < 32,
        m.screen.pixel c z = false ∧ first.screen.pixel c z = true)) := by
  have place {r : UInt8} (hr : r.toNat < flagRegister) (on : Bool) :
      (m.state.v.setFlag on).value r = m.state.v.value r := by
    apply Registers.value_setFlag_of_ne
    rintro rfl
    exact Nat.lt_irrefl _ hr
  -- a draw writes no register but VF and no memory, so the second one finds the same sprite
  let first := (Instruction.draw x y rows).outcome keypad m
  have same : first.state.sprite x y rows = m.state.sprite x y rows := by
    change m.state.memory.sprite _ _ ((m.state.v.setFlag _).value x).toNat
      ((m.state.v.setFlag _).value y).toNat = _
    rw [place hx, place hy]
    rfl
  have exists_x : x.toNat < 16 := Nat.lt_succ_of_lt hx
  have exists_y : y.toNat < 16 := Nat.lt_succ_of_lt hy
  have fits' : Memory.Fits first.state.i.toNat rows.toNat := fits
  have blits := blits_drawn x y fits
  have blits' := blits_drawn x y fits'
  rw [same] at blits'
  have restored : (first.state.drawn x y rows).1 = m.screen := by
    refine Screen.ext_pixel fun c hc z hz => ?_
    have flipped : first.state.screen.pixel c z =
        (m.screen.pixel c z ^^ (m.state.sprite x y rows).flips c z rows.toNat) :=
      blits.pixel_eq c hc z hz
    rw [blits'.pixel_eq c hc z hz, flipped, Bool.xor_assoc, Bool.xor_self, Bool.xor_false]
  refine ⟨first, (Instruction.draw x y rows).outcome keypad' first,
    execute_draw exists_x exists_y fits keypad, execute_draw exists_x exists_y fits' keypad',
    restored, ?_⟩
  intro low
  refine (Registers.flag_setFlag_eq_one_iff _ _).trans ((blits'.erases_iff low).trans ?_)
  rw [restored]
  refine exists_congr fun c => and_congr_right fun _ => exists_congr fun z =>
    and_congr_right fun _ => ?_
  exact and_comm

/-- Sprites may be drawn in any order, and one that is drawn twice might as well not be drawn. In
particular a draw that is done again at once gives the screen back, and reports a collision, if the
sprite is no higher than the screen, exactly if the first had turned a pixel on. -/
theorem draws_commute_and_cancel :
    (∀ draws draws' : List Stamp, draws.Perm draws' → ∀ (keypad : Keypad) (m : Machine),
      ∃ after after', executeAll keypad (draws.flatMap code) m = .ok () after ∧
        executeAll keypad (draws'.flatMap code) m = .ok () after' ∧
        after'.screen = after.screen) ∧
    (∀ (d : Stamp) (before between behind : List Stamp) (keypad : Keypad) (m : Machine),
      ∃ after after',
        executeAll keypad ((before ++ d :: between ++ d :: behind).flatMap code) m = .ok () after ∧
        executeAll keypad ((before ++ between ++ behind).flatMap code) m = .ok () after' ∧
        after'.screen = after.screen) ∧
    ∀ x y rows : UInt8, x.toNat < flagRegister → y.toNat < flagRegister → ∀ m : Machine,
      Memory.Fits m.state.i.toNat rows.toNat → ∀ keypad keypad' : Keypad,
        ∃ first second, (draw x y rows).execute keypad m = .ok .draw first ∧
          (draw x y rows).execute keypad' first = .ok .draw second ∧
          second.screen = m.screen ∧
          (rows.toNat ≤ 32 → (second.state.v.flag = 1 ↔ ∃ c < 64, ∃ z < 32,
            m.screen.pixel c z = false ∧ first.screen.pixel c z = true)) := by
  refine ⟨?_, ?_, ?_⟩
  · intro draws draws' perm keypad m
    apply screen_eq_of_parity
    intro c z
    rw [(perm.flatMap_right _).length_eq]
  · intro d before between behind keypad m
    apply screen_eq_of_parity
    intro c z
    simp only [List.flatMap_append, List.flatMap_cons, List.length_append]
    omega
  · intro x y rows hx hy m fits keypad keypad'
    exact draw_again hx hy fits keypad keypad'

/-- Two glyphs over one another in the lower right corner, in both orders; the one and the other and
the one again; and the one at once again. -/
theorem draws_commute_and_cancel_in_a_corner :
    let idle : Keypad := fun _ => false
    let start := Machine.start .standard (.ofWords fun _ => 0)
    let zero : Stamp := ⟨0, 0, 1, 62, 30, 5, by decide, by decide, by decide⟩
    let eight : Stamp := ⟨40, 2, 1, 60, 31, 5, by decide, by decide, by decide⟩
    (∃ after after', executeAll idle ([zero, eight].flatMap code) start = .ok () after ∧
      executeAll idle ([eight, zero].flatMap code) start = .ok () after' ∧
      after'.screen = after.screen) ∧
    (∃ after after', executeAll idle ([zero, eight, zero].flatMap code) start = .ok () after ∧
      executeAll idle ([eight].flatMap code) start = .ok () after' ∧
      after'.screen = after.screen) ∧
    ∃ first second, (draw 0 1 5).execute idle (zero.prepare start) = .ok .draw first ∧
      (draw 0 1 5).execute idle first = .ok .draw second ∧
      first.screen.pixel 62 30 = true ∧ second.screen = start.screen ∧
      second.state.v.flag = 1 := by
  intro idle start zero eight
  obtain ⟨commute, cancel, again⟩ := draws_commute_and_cancel
  obtain ⟨first, second, done, done', restored, collided⟩ :=
    again 0 1 5 (by decide) (by decide) (zero.prepare start) (by decide) idle idle
  have on : first.screen.pixel 62 30 = true := by
    have drawn : (draw 0 1 5).execute idle (zero.prepare start) =
        .ok .draw ((Instruction.draw 0 1 5).outcome idle (zero.prepare start)) :=
      execute_draw (by decide) (by decide) (by decide) idle
    obtain rfl : (Instruction.draw 0 1 5).outcome idle (zero.prepare start) = first := by
      simpa [drawn] using done
    decide +kernel
  refine ⟨commute _ _ (List.Perm.swap ..) idle start, cancel zero [] [eight] [] idle start,
    first, second, done, done', on, restored, ?_⟩
  exact (collided (by decide)).2 ⟨62, by decide, 30, by decide, by decide +kernel, on⟩

end Stamp

end Chip8
