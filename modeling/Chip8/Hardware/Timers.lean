namespace Chip8

inductive TimerEvent where
  | none
  /-- The tone has just run out. -/
  | beep
  deriving DecidableEq, Repr

structure Timers where
  delay : UInt8
  sound : UInt8
  deriving DecidableEq, Repr

namespace Timers

def zero : Timers := ⟨0, 0⟩

def countDown (t : UInt8) : UInt8 := if t = 0 then 0 else t - 1

/-- Count both down; the tick that ends the tone beeps. -/
def tick (t : Timers) : Timers × TimerEvent :=
  (⟨countDown t.delay, countDown t.sound⟩, if t.sound = 1 then .beep else .none)

theorem toNat_countDown (t : UInt8) : (countDown t).toNat = t.toNat - 1 := by
  unfold countDown
  split
  · next h => simp [h]
  · next h =>
    have hne : t.toNat ≠ 0 := fun hz => h (by rw [← UInt8.toNat_inj]; simpa using hz)
    have hlt := t.toNat_lt
    rw [UInt8.toNat_sub]
    simp
    omega

end Timers

end Chip8
