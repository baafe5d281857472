namespace Chip8.Word

def ofBytes (high low : UInt8) : UInt16 := high.toUInt16 * 0x100 + low.toUInt16

def high (w : UInt16) : UInt8 := (w / 0x100).toUInt8

def low (w : UInt16) : UInt8 := (w % 0x100).toUInt8

theorem toNat_ofBytes (h l : UInt8) : (ofBytes h l).toNat = h.toNat * 256 + l.toNat := by
  have := h.toNat_lt
  have := l.toNat_lt
  simp [ofBytes]
  omega

theorem toNat_high (w : UInt16) : (high w).toNat = w.toNat / 256 := by
  have := w.toNat_lt
  simp [high]
  omega

theorem toNat_low (w : UInt16) : (low w).toNat = w.toNat % 256 := by
  simp [low]

@[simp] theorem ofBytes_high_low (w : UInt16) : ofBytes (high w) (low w) = w := by
  rw [← UInt16.toNat_inj, toNat_ofBytes, toNat_high, toNat_low]
  omega

end Chip8.Word
