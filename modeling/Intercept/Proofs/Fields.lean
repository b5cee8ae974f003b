import Intercept.Bytes.Range
import Intercept.Buffer
import Intercept.Proofs.Basic

set_option autoImplicit false

/-! # Fields beside fields, and fields in slices

Reading and writing one field obey the laws of a place that holds a value: the last of two writes
counts (`Field.write_write`), and writes to fields without a common bit may be swapped
(`Field.write_comm`).

A header is read and changed in a slice of the storage, where its fields start to count from the
start of the slice. Reading a field there is reading the field moved by so many bytes
(`Field.read_extract`), and writing the slice back with the field changed is writing the field moved
by so many bytes (`Field.overwrite_write_extract`). So what is done to a header is done to the
storage itself (`Buffer.overwrite_write`). -/

namespace Intercept

namespace Field

/-! ## Two writes -/

/-- The last of two writes to a field counts. -/
theorem write_write (f : Field) (v w : Nat) (b : Bytes) :
    f.write w (f.write v b) = f.write w b := by
  refine write_congr (size_write ..) fun i hi => ?_
  rw [bit_write, if_neg fun h => hi ⟨h.1, h.2.1⟩]

/-- Writes to fields that have no bit in common may be swapped. -/
theorem write_comm {f g : Field} (v w : Nat) (b : Bytes) (h : f.Disjoint g) :
    f.write v (g.write w b) = g.write w (f.write v b) := by
  unfold Disjoint at h
  have hsize : (f.write v (g.write w b)).size = (g.write w (f.write v b)).size := by
    simp only [size_write]
  refine Bytes.ext_bit hsize fun i _ => ?_
  simp only [bit_write, size_write]
  by_cases hf : f.first ≤ i ∧ i < f.first + f.width ∧ i / 8 < b.size
  · rw [if_pos hf, if_neg (by omega), if_pos hf]
  · rw [if_neg hf, if_neg hf]

/-! ## Slices -/

/-- A field `n` bytes farther on. -/
def shift (n : Nat) (f : Field) : Field := ⟨8 * n + f.first, f.width⟩

@[simp] theorem first_shift (n : Nat) (f : Field) : (f.shift n).first = 8 * n + f.first := rfl

@[simp] theorem width_shift (n : Nat) (f : Field) : (f.shift n).width = f.width := rfl

@[simp] theorem shift_zero (f : Field) : f.shift 0 = f := by
  simp only [shift, Nat.mul_zero, Nat.zero_add]

/-- A field that is read in a slice is read in the whole. -/
theorem read_extract {f : Field} {lo hi : Nat} (b : Bytes) (h : f.Within (hi - lo)) :
    f.read (b.extract lo hi) = (f.shift lo).read b := by
  unfold Within at h
  refine Nat.eq_of_testBit_eq fun k => ?_
  rw [testBit_read, testBit_read, width_shift, first_shift]
  by_cases hk : k < f.width
  · rw [Bytes.bit_extract, decide_eq_true (show lo + (f.first + f.width - 1 - k) / 8 < hi by omega),
      Bool.true_and]
    congr 2
    omega
  · rw [decide_eq_false hk, Bool.false_and, Bool.false_and]

/-- A field that is written in a slice is written in the whole, once the slice is written back. -/
theorem overwrite_write_extract {f : Field} {lo hi : Nat} {b : Bytes} (v : Nat)
    (h : f.Within (hi - lo)) (hle : lo ≤ hi) (hhi : hi ≤ b.size) :
    b.overwrite lo (f.write v (b.extract lo hi)) = (f.shift lo).write v b := by
  have hsize : (f.write v (b.extract lo hi)).size = hi - lo := by
    rw [size_write, ByteArray.size_extract]
    omega
  have hslice : (b.extract lo hi).size = hi - lo := by rw [← hsize, size_write]
  have hwhole : (b.overwrite lo (f.write v (b.extract lo hi))).size =
      ((f.shift lo).write v b).size := by rw [Bytes.size_overwrite, size_write]
  unfold Within at h
  refine Bytes.ext_bit hwhole fun i _ => ?_
  rw [bit_write, first_shift, width_shift]
  -- in the slice the bit counts from its start
  by_cases hin : 8 * lo ≤ i ∧ i < 8 * hi
  · have hbit : Bytes.bit (b.overwrite lo (f.write v (b.extract lo hi))) i =
        Bytes.bit (f.write v (b.extract lo hi)) (i - 8 * lo) := by
      unfold Bytes.bit
      rw [Bytes.byte_overwrite, hsize, if_pos (by omega),
        show (i - 8 * lo) / 8 = i / 8 - lo by omega, show (i - 8 * lo) % 8 = i % 8 by omega]
    rw [hbit, bit_write, hslice, Bytes.bit_extract]
    by_cases hf : f.first ≤ i - 8 * lo ∧ i - 8 * lo < f.first + f.width
    · rw [if_pos (by omega), if_pos (by omega)]
      congr 1
      omega
    · rw [if_neg (by omega), if_neg (by omega), decide_eq_true (by omega), Bool.true_and]
      congr 1
      omega
  · have hbit : Bytes.bit (b.overwrite lo (f.write v (b.extract lo hi))) i = Bytes.bit b i := by
      unfold Bytes.bit
      rw [Bytes.byte_overwrite, hsize, if_neg (by omega)]
    rw [hbit, if_neg (by omega)]

end Field

/-! ## Storage -/

/-- Store the low bits of a number in a field of the storage. -/
def Storage.write (f : Field) (v : Nat) (s : Storage) : Storage :=
  ⟨f.write v s.bytes, (Field.size_write ..).trans s.size_eq⟩

/-- Writing a field in a part of the storage is writing it in the storage. -/
theorem Buffer.overwrite_write {f : Field} {lo hi : Nat} (v : Nat) (b : Buffer)
    (h : f.Within (hi - lo)) (hle : lo ≤ hi) (hhi : hi ≤ bufferSize) :
    b.overwrite lo (f.write v (b.storage.bytes.extract lo hi)) =
      { b with storage := b.storage.write (f.shift lo) v } := by
  refine Buffer.ext (Storage.ext ?_) rfl
  exact Field.overwrite_write_extract v h hle (hhi.trans b.storage.size_eq.ge)

end Intercept
