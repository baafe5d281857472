import Mathlib.Algebra.Group.Nat.Defs
import Chip8.Text.Hex

namespace Chip8.Hex

def digitValue (c : Char) : Nat := if c.toNat < 58 then c.toNat - 48 else c.toNat - 55

def value (ds : List Char) : Nat := ds.foldl (fun n c => 16 * n + digitValue c) 0

theorem digitValue_digit {n : Nat} (h : n < 16) : digitValue (digit n) = n := by
  have all : ∀ n < 16, digitValue (digit n) = n := by decide
  exact all n h

theorem isAlphanum_digit {n : Nat} (h : n < 16) : (digit n).isAlphanum = true := by
  have all : ∀ n < 16, (digit n).isAlphanum = true := by decide
  exact all n h

theorem isAlphanum_of_mem_digits {n : Nat} {c : Char} (h : c ∈ digits n) :
    c.isAlphanum = true := by
  induction n using digits.induct with
  | case1 n small =>
    rw [digits_of_lt small, List.mem_singleton] at h
    rw [h]
    exact isAlphanum_digit small
  | case2 n large ih =>
    rw [digits_of_le (Nat.not_lt.1 large), List.mem_append, List.mem_singleton] at h
    rcases h with first | rfl
    · exact ih first
    · exact isAlphanum_digit (Nat.mod_lt n (by decide))

theorem toUpper_digitChar {n : Nat} (h : n < 16) : (Nat.digitChar n).toUpper = digit n := by
  have all : ∀ n < 16, (Nat.digitChar n).toUpper = digit n := by decide
  exact all n h

theorem map_toUpper_toDigits (n : Nat) : (Nat.toDigits 16 n).map Char.toUpper = digits n := by
  induction n using digits.induct with
  | case1 n small =>
    rw [digits_of_lt small, Nat.toDigits_of_lt_base small, List.map_singleton,
      toUpper_digitChar small]
  | case2 n large ih =>
    rw [digits_of_le (Nat.not_lt.1 large), Nat.toDigits_eq_if (by decide), if_neg large,
      List.map_append, ih, List.map_singleton, toUpper_digitChar (Nat.mod_lt n (by decide))]

theorem value_concat (ds : List Char) (c : Char) :
    value (ds ++ [c]) = 16 * value ds + digitValue c := by
  simp [value]

theorem value_digits (n : Nat) : value (digits n) = n := by
  induction n using digits.induct with
  | case1 n small =>
    rw [digits_of_lt small, ← List.nil_append [digit n], value_concat, digitValue_digit small]
    exact Nat.zero_add n
  | case2 n large ih =>
    rw [digits_of_le (Nat.not_lt.1 large), value_concat, ih,
      digitValue_digit (Nat.mod_lt n (by decide))]
    exact Nat.div_add_mod n 16

theorem value_zero_cons (ds : List Char) : value ('0' :: ds) = value ds := rfl

theorem value_leftpad (width : Nat) (ds : List Char) : value (ds.leftpad width '0') = value ds := by
  unfold List.leftpad
  generalize width - ds.length = zeros
  induction zeros with
  | zero => rfl
  | succ zeros ih => exact (value_zero_cons _).trans ih

theorem div_lt_pow {width n : Nat} (h : n < 16 ^ (width + 1)) : n / 16 < 16 ^ width := by
  rw [Nat.pow_succ, Nat.mul_comm] at h
  exact Nat.div_lt_of_lt_mul h

theorem length_digits_le {n k : Nat} (h : n < 16 ^ (k + 1)) : (digits n).length ≤ k + 1 := by
  induction k generalizing n with
  | zero =>
    rw [digits_of_lt h]
    exact Nat.le_refl 1
  | succ k ih =>
    by_cases small : n < 16
    · rw [digits_of_lt small, List.length_singleton]
      omega
    · rw [digits_of_le (Nat.not_lt.1 small), List.length_append, List.length_singleton]
      exact Nat.succ_le_succ (ih (div_lt_pow h))

/-- The last digits of a number, one for each place. -/
def places : Nat → Nat → List Char
  | 0, _ => []
  | width + 1, n => places width (n / 16) ++ [digit (n % 16)]

@[simp] theorem length_places (width n : Nat) : (places width n).length = width := by
  induction width generalizing n with
  | zero => rfl
  | succ width ih => rw [places, List.length_append, ih, List.length_singleton]

theorem places_zero (width : Nat) : places width 0 = List.replicate width '0' := by
  induction width with
  | zero => rfl
  | succ width ih =>
    rw [places, Nat.zero_div, ih, List.replicate_succ']
    rfl

theorem value_places {width n : Nat} (h : n < 16 ^ width) : value (places width n) = n := by
  induction width generalizing n with
  | zero => exact (Nat.lt_one_iff.1 h).symm
  | succ width ih =>
    rw [places, value_concat, ih (div_lt_pow h), digitValue_digit (Nat.mod_lt n (by decide))]
    exact Nat.div_add_mod n 16

theorem leftpad_concat (width : Nat) (ds : List Char) (d : Char) :
    (ds ++ [d]).leftpad (width + 1) '0' = ds.leftpad width '0' ++ [d] := by
  simp [List.leftpad]

theorem leftpad_digit (width : Nat) {n : Nat} (h : n < 16) :
    [digit n].leftpad (width + 1) '0' = places (width + 1) n := by
  rw [places, Nat.div_eq_of_lt h, Nat.mod_eq_of_lt h, places_zero]
  rfl

/-- A number that fits its places has no digits beyond them. -/
theorem leftpad_digits {width n : Nat} (h : n < 16 ^ (width + 1)) :
    (digits n).leftpad (width + 1) '0' = places (width + 1) n := by
  induction width generalizing n with
  | zero => rw [digits_of_lt h, leftpad_digit 0 h]
  | succ width ih =>
    by_cases small : n < 16
    · rw [digits_of_lt small, leftpad_digit (width + 1) small]
    · rw [digits_of_le (Nat.not_lt.1 small), leftpad_concat, ih (div_lt_pow h)]
      rfl

theorem toList_marked (width n : Nat) :
    (marked width n).toList = '0' :: 'x' :: (digits n).leftpad width '0' := by
  simp [marked]

theorem toList_padded_of_lt {width n : Nat} (h : n < 16 ^ (width + 1)) :
    (padded (width + 1) n).toList = places (width + 1) n :=
  (toList_padded _ n).trans (leftpad_digits h)

end Chip8.Hex
