import Intercept.Bytes.Bits
import Mathlib.Algebra.Group.Nat.Defs

set_option autoImplicit false

/-! # The range of a bit field

A field of `w` bits holds the numbers below `2 ^ w`, and gives back what was written to it cut to
that range. Both follow from what reading and writing do to single bits. -/

namespace Intercept.Field

/-- A field holds no number that its width has no room for. -/
theorem read_lt (f : Field) (b : Bytes) : f.read b < 2 ^ f.width := by
  refine Nat.lt_pow_two_of_testBit _ fun k hk => ?_
  rw [testBit_read]
  simp [Nat.not_lt.2 hk]

/-- A field gives back what was written to it, cut to its width. -/
theorem read_write_self {f : Field} {b : Bytes} (v : Nat) (h : f.Within b.size) :
    f.read (f.write v b) = v % 2 ^ f.width := by
  refine Nat.eq_of_testBit_eq fun k => ?_
  rw [testBit_read, Nat.testBit_mod_two_pow]
  unfold Within at h
  by_cases hk : k < f.width
  · rw [bit_write, if_pos (by omega)]
    congr 2
    omega
  · simp [hk]

end Intercept.Field
