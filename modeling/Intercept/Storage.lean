import Intercept.Bytes

set_option autoImplicit false

/-! # Storage

Every buffer has storage of the same size, large enough for the largest IP packet: an IPv6 header
and the longest payload its length field can state. Writing into storage never changes its
size, so the size is part of the type. -/

namespace Intercept

/-- The number of bytes in the storage of a buffer. -/
def bufferSize : Nat := 65575

/-- The bytes of one buffer. -/
structure Storage where
  bytes : Bytes
  size_eq : bytes.size = bufferSize

namespace Storage

@[ext] theorem ext {s t : Storage} (h : s.bytes = t.bytes) : s = t := by
  cases s; cases t; cases h; rfl

/-- Storage in which nothing was written yet. -/
def blank : Storage := ⟨Bytes.zeros bufferSize, Bytes.size_zeros _⟩

/-- Replace the bytes from `offset` on; what does not fit is not written. -/
def overwrite (s : Storage) (offset : Nat) (src : Bytes) : Storage :=
  ⟨s.bytes.overwrite offset src, (Bytes.size_overwrite ..).trans s.size_eq⟩

/-- Zero the bytes from `lo` up to and without `hi`. -/
def clear (s : Storage) (lo hi : Nat) : Storage :=
  ⟨s.bytes.clear lo hi, (Bytes.size_clear ..).trans s.size_eq⟩

/-- All bytes from position `n` on are zero. -/
def ZeroFrom (s : Storage) (n : Nat) : Prop := ∀ i, n ≤ i → s.bytes.byte i = 0

theorem zeroFrom_blank (n : Nat) : blank.ZeroFrom n := fun _ _ => Bytes.byte_zeros ..

theorem byte_overwrite (s : Storage) (offset i : Nat) (src : Bytes) :
    (s.overwrite offset src).bytes.byte i =
      if offset + src.size ≤ bufferSize ∧ offset ≤ i ∧ i < offset + src.size
      then src.byte (i - offset) else s.bytes.byte i := by
  rw [overwrite, Bytes.byte_overwrite, s.size_eq]

theorem byte_clear (s : Storage) (lo hi i : Nat) :
    (s.clear lo hi).bytes.byte i = if lo ≤ i ∧ i < hi then 0 else s.bytes.byte i :=
  Bytes.byte_clear ..

/-- Storage is blank as soon as all its bytes are zero. -/
theorem eq_blank_of_zeroFrom_zero {s : Storage} (h : s.ZeroFrom 0) : s = blank := by
  refine Storage.ext (Bytes.ext_byte (s.size_eq.trans blank.size_eq.symm) fun i _ => ?_)
  rw [h i (Nat.zero_le _), zeroFrom_blank 0 i (Nat.zero_le _)]

/-- Storage that is cleared as far as it is not zero is blank. -/
theorem clear_eq_blank {s : Storage} {n : Nat} (h : s.ZeroFrom n) : s.clear 0 n = blank := by
  refine eq_blank_of_zeroFrom_zero fun i _ => ?_
  rw [byte_clear]
  split
  · rfl
  · exact h i (by omega)

end Storage

end Intercept
