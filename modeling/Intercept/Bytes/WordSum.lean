import Intercept.Bytes

set_option autoImplicit false

/-! # One's complement sums

Internet checksums add a byte string up as big-endian 16-bit words, bringing every carry out of
the top back in at the bottom. An odd last byte is the high half of a word whose low half is
zero. -/

namespace Intercept

/-- Add two words, bringing the carry back in at the bottom. -/
def addCarry (a b : UInt16) : UInt16 :=
  if a + b < a then a + b + 1 else a + b

/-- The big-endian word of two bytes. -/
def word (hi lo : UInt8) : UInt16 := UInt16.ofNat (256 * hi.toNat + lo.toNat)

/-- Add the words of a list of bytes to a running sum. -/
def sumWordsFrom (acc : UInt16) : List UInt8 → UInt16
  | hi :: lo :: rest => sumWordsFrom (addCarry acc (word hi lo)) rest
  | [hi] => addCarry acc (word hi 0)
  | [] => acc

/-- The one's complement sum of the words of a list of bytes. -/
def sumWords (l : List UInt8) : UInt16 := sumWordsFrom 0 l

/-- The one's complement sum of a byte string. -/
def Bytes.wordSum (b : Bytes) : UInt16 := sumWords b.toList

/-- The carry added at the bottom never carries again. -/
theorem toNat_addCarry (a b : UInt16) :
    (addCarry a b).toNat = if a.toNat + b.toNat < 65536 then a.toNat + b.toNat
      else a.toNat + b.toNat - 65535 := by
  have ha := a.toNat_lt
  have hb := b.toNat_lt
  have hs : (a + b).toNat = (a.toNat + b.toNat) % 65536 := by simp [UInt16.toNat_add]
  have h1 : (a + b + 1).toNat = (a.toNat + b.toNat + 1) % 65536 := by
    simp [UInt16.toNat_add]
  unfold addCarry
  simp only [UInt16.lt_iff_toNat_lt, hs]
  split <;> split <;> omega

@[simp] theorem toNat_word (hi lo : UInt8) : (word hi lo).toNat = 256 * hi.toNat + lo.toNat := by
  have h1 := hi.toNat_lt
  have h2 := lo.toNat_lt
  simp only [word, UInt16.toNat_ofNat']
  omega

end Intercept
