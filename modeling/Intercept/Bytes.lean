set_option autoImplicit false

/-! # Byte strings

Packets, headers and buffers are all byte strings of a fixed size that are read and overwritten
in place. A byte string is seen through two functions only: its `size`, and `byte`, which reads
one position and is zero past the end. Each operation below has one lemma for either, and
`ext_byte` says that the two determine the string; nothing else needs to unfold an operation. -/

namespace Intercept

/-- A byte string. -/
abbrev Bytes := ByteArray

namespace Bytes

/-! ## Reading -/

/-- The byte at position `i`, zero past the end. -/
def byte (b : Bytes) (i : Nat) : UInt8 :=
  if h : i < b.size then b[i] else 0

/-- Bytes that are given one by one. -/
def ofList (l : List UInt8) : Bytes := ⟨l.toArray⟩

/-- The bytes one by one. -/
def toList (b : Bytes) : List UInt8 := b.data.toList

/-- As many zero bytes. -/
def zeros (n : Nat) : Bytes := ⟨Array.replicate n 0⟩

/-- The bytes from `lo` up to and without `hi`, or nothing unless both ends are in range. -/
def slice? (b : Bytes) (lo hi : Nat) : Option Bytes :=
  if lo ≤ hi ∧ hi ≤ b.size then some (b.extract lo hi) else none

theorem byte_of_lt {b : Bytes} {i : Nat} (h : i < b.size) : b.byte i = b[i] := dif_pos h

theorem byte_of_size_le {b : Bytes} {i : Nat} (h : b.size ≤ i) : b.byte i = 0 :=
  dif_neg (by omega)

/-- Two byte strings are equal as soon as their sizes and all their bytes are. -/
theorem ext_byte {a b : Bytes} (hs : a.size = b.size) (h : ∀ i < b.size, a.byte i = b.byte i) :
    a = b := by
  refine ByteArray.ext_getElem hs fun i hi hi' => ?_
  simpa [byte_of_lt hi, byte_of_lt hi'] using h i hi'

@[simp] theorem size_ofList (l : List UInt8) : (ofList l).size = l.length := by
  simp [← ByteArray.size_data, ofList]

@[simp] theorem length_toList (b : Bytes) : b.toList.length = b.size := by
  simp [toList]

@[simp] theorem toList_ofList (l : List UInt8) : (ofList l).toList = l := rfl

@[simp] theorem ofList_toList (b : Bytes) : ofList b.toList = b := rfl

@[simp] theorem size_zeros (n : Nat) : (zeros n).size = n := by
  simp [← ByteArray.size_data, zeros]

@[simp] theorem byte_zeros (n i : Nat) : (zeros n).byte i = 0 := by
  unfold byte
  split
  · simp [zeros, ByteArray.getElem_eq_getElem_data]
  · rfl

theorem byte_eq_getElem? (b : Bytes) (i : Nat) : b.byte i = b.toList[i]?.getD 0 := by
  unfold byte
  split
  · next h => simp [toList, ByteArray.getElem_eq_getElem_data, h]
  · next h => simp [toList, h]

@[simp] theorem byte_ofList (l : List UInt8) (i : Nat) : (ofList l).byte i = l[i]?.getD 0 := by
  rw [byte_eq_getElem?, toList_ofList]

theorem byte_extract (b : Bytes) (lo hi i : Nat) :
    Bytes.byte (b.extract lo hi) i = if lo + i < hi then b.byte (lo + i) else 0 := by
  unfold byte
  have hs : (b.extract lo hi).size = min hi b.size - lo := ByteArray.size_extract
  split
  · next h =>
    rw [dif_pos (by omega), if_pos (by omega), ByteArray.getElem_extract]
  · next h =>
    split
    · rw [dif_neg (by omega)]
    · rfl

/-! ## Overwriting -/

/-- Replace the byte at position `i`; out of range nothing changes. -/
def put (b : Bytes) (i : Nat) (v : UInt8) : Bytes :=
  if h : i < b.size then b.set i v h else b

/-- Replace the bytes from `offset` on by `src`; if `src` does not fit there, nothing changes. -/
def overwrite (b : Bytes) (offset : Nat) (src : Bytes) : Bytes :=
  if offset + src.size ≤ b.size then src.copySlice 0 b offset src.size else b

/-- Zero the bytes from `lo` up to and without `hi`. -/
def clear (b : Bytes) (lo hi : Nat) : Bytes :=
  b.overwrite lo (zeros (min hi b.size - lo))

/-- Exclusive-or `n` bytes from `offset` on with `mask`. -/
def flip (b : Bytes) (offset : Nat) (mask : UInt8) : Nat → Bytes
  | 0 => b
  | n + 1 => (flip b offset mask n).put (offset + n) (b.byte (offset + n) ^^^ mask)

@[simp] theorem size_put (b : Bytes) (i : Nat) (v : UInt8) : (b.put i v).size = b.size := by
  unfold put
  split
  · simp [← ByteArray.size_data]
  · rfl

theorem byte_put (b : Bytes) (i j : Nat) (v : UInt8) :
    (b.put i v).byte j = if i = j ∧ i < b.size then v else b.byte j := by
  unfold put
  split
  · next h =>
    have hs : (b.set i v h).size = b.size := by simp [← ByteArray.size_data]
    by_cases hj : j < b.size
    · rw [byte_of_lt (by omega), byte_of_lt hj]
      simp [ByteArray.getElem_eq_getElem_data, Array.getElem_set, h]
    · rw [byte_of_size_le (by omega), byte_of_size_le (by omega), if_neg (by omega)]
  · next h => rw [if_neg (fun hh => h hh.2)]

private theorem overwrite_eq_append {b src : Bytes} {offset : Nat}
    (h : offset + src.size ≤ b.size) :
    b.overwrite offset src
      = b.extract 0 offset ++ src ++ b.extract (offset + src.size) b.size := by
  simp [overwrite, h, ByteArray.copySlice_eq_append]

@[simp] theorem size_overwrite (b src : Bytes) (offset : Nat) :
    (b.overwrite offset src).size = b.size := by
  by_cases h : offset + src.size ≤ b.size
  · rw [overwrite_eq_append h]
    simp only [ByteArray.size_append, ByteArray.size_extract]
    omega
  · simp [overwrite, h]

theorem byte_overwrite (b src : Bytes) (offset i : Nat) :
    (b.overwrite offset src).byte i =
      if offset + src.size ≤ b.size ∧ offset ≤ i ∧ i < offset + src.size
      then src.byte (i - offset) else b.byte i := by
  by_cases h : offset + src.size ≤ b.size
  · by_cases hi : i < b.size
    · have hs := size_overwrite b src offset
      rw [byte_of_lt (by omega)]
      simp only [overwrite_eq_append h]
      have hp : (b.extract 0 offset).size = offset := by
        rw [ByteArray.size_extract]; omega
      by_cases h1 : i < offset
      · rw [ByteArray.getElem_append_left (by simp only [ByteArray.size_append]; omega),
          ByteArray.getElem_append_left (by omega), ByteArray.getElem_extract,
          if_neg (by omega), byte_of_lt hi]
        simp
      · by_cases h2 : i < offset + src.size
        · rw [ByteArray.getElem_append_left (by simp only [ByteArray.size_append]; omega),
            ByteArray.getElem_append_right (by omega), if_pos (by omega),
            byte_of_lt (by omega)]
          simp [hp]
        · rw [ByteArray.getElem_append_right (by simp only [ByteArray.size_append]; omega),
            ByteArray.getElem_extract, if_neg (by omega), byte_of_lt hi]
          congr 1
          simp only [ByteArray.size_append, hp]
          omega
    · rw [byte_of_size_le (by rw [size_overwrite]; omega), if_neg (by omega),
        byte_of_size_le (by omega)]
  · rw [if_neg (fun hh => h hh.1)]
    simp [overwrite, h]

@[simp] theorem size_clear (b : Bytes) (lo hi : Nat) : (b.clear lo hi).size = b.size :=
  size_overwrite ..

theorem byte_clear (b : Bytes) (lo hi i : Nat) :
    (b.clear lo hi).byte i = if lo ≤ i ∧ i < hi then 0 else b.byte i := by
  unfold clear
  rw [byte_overwrite, size_zeros, byte_zeros]
  by_cases h : lo ≤ i ∧ i < hi
  · rw [if_pos h]
    split
    · rfl
    · exact byte_of_size_le (by omega)
  · rw [if_neg h, if_neg (by omega)]

@[simp] theorem size_flip (b : Bytes) (offset : Nat) (mask : UInt8) (n : Nat) :
    (b.flip offset mask n).size = b.size := by
  induction n with
  | zero => rfl
  | succ n ih => rw [flip, size_put, ih]

theorem byte_flip (b : Bytes) (offset : Nat) (mask : UInt8) (n i : Nat) :
    (b.flip offset mask n).byte i =
      if offset ≤ i ∧ i < offset + n ∧ i < b.size then b.byte i ^^^ mask else b.byte i := by
  induction n with
  | zero => rw [flip, if_neg (by omega)]
  | succ n ih =>
    rw [flip, byte_put, size_flip, ih]
    by_cases h : offset + n = i ∧ offset + n < b.size
    · obtain ⟨rfl, hs⟩ := h
      rw [if_pos ⟨rfl, hs⟩, if_pos (by omega)]
    · rw [if_neg h]
      by_cases hi : offset ≤ i ∧ i < offset + n ∧ i < b.size
      · rw [if_pos hi, if_pos (by omega)]
      · rw [if_neg hi, if_neg (by omega)]

/-! ## Joining -/

theorem byte_append (a b : Bytes) (i : Nat) :
    Bytes.byte (a ++ b) i = if i < a.size then a.byte i else b.byte (i - a.size) := by
  have hs : (a ++ b).size = a.size + b.size := ByteArray.size_append
  by_cases h : i < (a ++ b).size
  · rw [byte_of_lt h]
    split
    · next h1 => rw [ByteArray.getElem_append_left h1, byte_of_lt h1]
    · next h1 => rw [ByteArray.getElem_append_right (by omega), byte_of_lt (by omega)]
  · rw [byte_of_size_le (by omega), if_neg (by omega), byte_of_size_le (by omega)]

end Bytes

end Intercept
