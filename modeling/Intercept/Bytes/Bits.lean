import Intercept.Bytes

set_option autoImplicit false

/-! # Bit fields in network order

A header is laid out as consecutive bit fields. Bits are numbered from zero at the most
significant bit of the first byte, the way protocol diagrams number them, and a field holds an
unsigned number with its most significant bit first. A field is read as a natural number, and a
write keeps the low `width` bits of what it is given, so a write never reaches outside its own
field. `bit_write` and `testBit_read` say this bit by bit; that fields with no bit in common do not
disturb each other follows from the two. -/

namespace Intercept

/-! ## Single bits -/

/-- Bit `k` of a byte, counted from the least significant one, replaced by `v`. -/
def replaceBit (x : UInt8) (k : Nat) (v : Bool) : UInt8 :=
  if x.toNat.testBit k = v then x else x ^^^ UInt8.ofNat (1 <<< k)

theorem testBit_replaceBit {x : UInt8} {k j : Nat} {v : Bool} (hk : k < 8) :
    (replaceBit x k v).toNat.testBit j = if k = j then v else x.toNat.testBit j := by
  have hm : (UInt8.ofNat (1 <<< k)).toNat = 2 ^ k := by
    rw [Nat.one_shiftLeft]
    have : (2 : Nat) ^ k < 2 ^ 8 := Nat.pow_lt_pow_right (by decide) hk
    simpa using this
  unfold replaceBit
  split
  · next h => split
              · next hkj => rw [← hkj, h]
              · rfl
  · next h =>
    rw [UInt8.toNat_xor, Nat.testBit_xor, hm, Nat.testBit_two_pow]
    split
    · next hkj => subst hkj; cases v <;> simp_all
    · next hkj => simp [hkj]

namespace Bytes

/-- Bit `i` of a byte string in network order, false past the end. -/
def bit (b : Bytes) (i : Nat) : Bool := (b.byte (i / 8)).toNat.testBit (7 - i % 8)

/-- Replace bit `i`; out of range nothing changes. -/
def setBit (b : Bytes) (i : Nat) (v : Bool) : Bytes :=
  b.put (i / 8) (replaceBit (b.byte (i / 8)) (7 - i % 8) v)

@[simp] theorem size_setBit (b : Bytes) (i : Nat) (v : Bool) : (b.setBit i v).size = b.size :=
  size_put ..

theorem bit_setBit (b : Bytes) (i j : Nat) (v : Bool) :
    (b.setBit i v).bit j = if i = j ∧ i / 8 < b.size then v else b.bit j := by
  unfold bit setBit
  rw [byte_put]
  by_cases h : i / 8 = j / 8 ∧ i / 8 < b.size
  · rw [if_pos h, testBit_replaceBit (by omega)]
    by_cases hij : i = j
    · rw [if_pos (by omega), if_pos ⟨hij, h.2⟩]
    · rw [if_neg (by omega), if_neg (fun hh => hij hh.1), h.1]
  · rw [if_neg h, if_neg]
    rintro ⟨rfl, h2⟩
    exact h ⟨rfl, h2⟩

/-- Two byte strings of one size are equal as soon as all their bits are. -/
theorem ext_bit {a b : Bytes} (hs : a.size = b.size)
    (h : ∀ i < 8 * b.size, a.bit i = b.bit i) : a = b := by
  refine ext_byte hs fun i hi => UInt8.toNat_inj.1 (Nat.eq_of_testBit_eq fun k => ?_)
  by_cases hk : k < 8
  · have := h (8 * i + (7 - k)) (by omega)
    unfold bit at this
    rwa [show (8 * i + (7 - k)) / 8 = i by omega,
      show 7 - (8 * i + (7 - k)) % 8 = k by omega] at this
  · have hp : (2 : Nat) ^ 8 ≤ 2 ^ k := Nat.pow_le_pow_right (by decide) (by omega)
    rw [Nat.testBit_lt_two_pow (Nat.lt_of_lt_of_le (UInt8.toNat_lt _) hp),
      Nat.testBit_lt_two_pow (Nat.lt_of_lt_of_le (UInt8.toNat_lt _) hp)]

/-! ## Runs of bits -/

/-- The number held by the `w` bits from bit `first` on. -/
def readBits (b : Bytes) (first : Nat) : Nat → Nat
  | 0 => 0
  | w + 1 => 2 * readBits b first w + (b.bit (first + w)).toNat

/-- Store the low `w` bits of a number in the `w` bits from bit `first` on. -/
def writeBits (b : Bytes) (first : Nat) : Nat → Nat → Bytes
  | 0, _ => b
  | w + 1, v => (writeBits b first w (v / 2)).setBit (first + w) (v.testBit 0)

@[simp] theorem size_writeBits (b : Bytes) (first w v : Nat) :
    (b.writeBits first w v).size = b.size := by
  induction w generalizing v with
  | zero => rfl
  | succ w ih => simp [writeBits, ih]

theorem testBit_readBits (b : Bytes) (first w k : Nat) :
    (b.readBits first w).testBit k = (decide (k < w) && b.bit (first + w - 1 - k)) := by
  induction w generalizing k with
  | zero => simp [readBits]
  | succ w ih =>
    rw [readBits]
    cases k with
    | zero =>
      rw [Nat.testBit_zero]
      cases hb : b.bit (first + w) <;> simp [hb]
    | succ k =>
      rw [Nat.testBit_succ]
      have h2 : (2 * b.readBits first w + (b.bit (first + w)).toNat) / 2 = b.readBits first w := by
        have := (b.bit (first + w)).toNat_lt
        omega
      rw [h2, ih]
      congr 2
      · simp
      · omega

theorem bit_writeBits (b : Bytes) (first w v j : Nat) :
    (b.writeBits first w v).bit j =
      if first ≤ j ∧ j < first + w ∧ j / 8 < b.size then v.testBit (first + w - 1 - j)
      else b.bit j := by
  induction w generalizing v with
  | zero => rw [writeBits, if_neg (by omega)]
  | succ w ih =>
    rw [writeBits, bit_setBit, size_writeBits, ih]
    by_cases hj : first + w = j
    · subst hj
      by_cases hs : (first + w) / 8 < b.size
      · rw [if_pos ⟨rfl, hs⟩, if_pos (by omega),
          show first + (w + 1) - 1 - (first + w) = 0 by omega]
      · rw [if_neg (fun h => hs h.2), if_neg (fun h => hs h.2.2), if_neg (fun h => hs h.2.2)]
    · rw [if_neg (fun h => hj h.1)]
      by_cases hr : first ≤ j ∧ j < first + w ∧ j / 8 < b.size
      · rw [if_pos hr, if_pos (by omega),
          show first + (w + 1) - 1 - j = (first + w - 1 - j) + 1 by omega, Nat.testBit_succ]
      · rw [if_neg hr, if_neg (by omega)]

end Bytes

/-! ## Fields -/

/-- A bit field of a header: its first bit and its width. -/
structure Field where
  first : Nat
  width : Nat
deriving DecidableEq, Repr

namespace Field

/-- The number a field holds. -/
def read (f : Field) (b : Bytes) : Nat := b.readBits f.first f.width

/-- Store the low `width` bits of `v` in a field. -/
def write (f : Field) (v : Nat) (b : Bytes) : Bytes := b.writeBits f.first f.width v

/-- A field lies within the first `n` bytes. -/
def Within (f : Field) (n : Nat) : Prop := f.first + f.width ≤ 8 * n

/-- Two fields have no bit in common. -/
def Disjoint (f g : Field) : Prop := f.first + f.width ≤ g.first ∨ g.first + g.width ≤ f.first

instance (f : Field) (n : Nat) : Decidable (f.Within n) := by unfold Within; infer_instance

instance (f g : Field) : Decidable (f.Disjoint g) := by unfold Disjoint; infer_instance

@[simp] theorem size_write (f : Field) (v : Nat) (b : Bytes) : (f.write v b).size = b.size :=
  Bytes.size_writeBits ..

theorem testBit_read (f : Field) (b : Bytes) (k : Nat) :
    (f.read b).testBit k = (decide (k < f.width) && b.bit (f.first + f.width - 1 - k)) :=
  Bytes.testBit_readBits ..

theorem bit_write (f : Field) (v : Nat) (b : Bytes) (j : Nat) :
    (f.write v b).bit j =
      if f.first ≤ j ∧ j < f.first + f.width ∧ j / 8 < b.size
      then v.testBit (f.first + f.width - 1 - j) else b.bit j :=
  Bytes.bit_writeBits ..

/-- What a field holds depends on its own bits only. -/
theorem read_congr {f : Field} {a b : Bytes}
    (h : ∀ i, f.first ≤ i → i < f.first + f.width → a.bit i = b.bit i) : f.read a = f.read b := by
  refine Nat.eq_of_testBit_eq fun k => ?_
  rw [testBit_read, testBit_read]
  by_cases hk : k < f.width
  · rw [h _ (by omega) (by omega)]
  · simp [hk]

/-- Writing a field leaves every field disjoint from it as it was. -/
theorem read_write_of_disjoint {f g : Field} {b : Bytes} (v : Nat) (h : f.Disjoint g) :
    f.read (g.write v b) = f.read b := by
  refine read_congr fun i h1 h2 => ?_
  unfold Disjoint at h
  rw [bit_write, if_neg (by omega)]

/-- Writing a field changes no byte outside it. -/
theorem byte_write_of_outside {f : Field} {v : Nat} {b : Bytes} {i : Nat}
    (h : 8 * i + 8 ≤ f.first ∨ f.first + f.width ≤ 8 * i) : (f.write v b).byte i = b.byte i := by
  refine UInt8.toNat_inj.1 (Nat.eq_of_testBit_eq fun k => ?_)
  by_cases hk : k < 8
  · have := bit_write f v b (8 * i + (7 - k))
    rw [if_neg (by omega)] at this
    unfold Bytes.bit at this
    rwa [show (8 * i + (7 - k)) / 8 = i by omega,
      show 7 - (8 * i + (7 - k)) % 8 = k by omega] at this
  · have hp : (2 : Nat) ^ 8 ≤ 2 ^ k := Nat.pow_le_pow_right (by decide) (by omega)
    rw [Nat.testBit_lt_two_pow (Nat.lt_of_lt_of_le (UInt8.toNat_lt _) hp),
      Nat.testBit_lt_two_pow (Nat.lt_of_lt_of_le (UInt8.toNat_lt _) hp)]

end Field

end Intercept
