import Intercept.Bytes.WordSum
import Intercept.Proofs.Basic
import Mathlib.Algebra.BigOperators.Group.Finset.Basic

set_option autoImplicit false

/-! # The exact sum behind a one's complement sum

A one's complement sum brings each carry back in as it arises. The same number comes out if the
words are added up exactly and all carries are brought back at the end (`toNat_wordSum`): zero only
for a sum of zero, and otherwise the residue modulo 65535 that lies between 1 and 65535. In this
form sums of parts add, and a word that is written into a byte string adds to its total what the
word holds (`total_write`), which is all that checksums need. -/

namespace Intercept

/-! ## Bringing all carries back at once -/

/-- An exact sum with its carries brought back in at the bottom. -/
def foldCarries (n : Nat) : Nat := if n = 0 then 0 else (n - 1) % 65535 + 1

theorem foldCarries_mod (n : Nat) : foldCarries n % 65535 = n % 65535 := by
  unfold foldCarries
  split <;> omega

theorem foldCarries_eq_zero {n : Nat} : foldCarries n = 0 ↔ n = 0 := by
  unfold foldCarries
  split <;> omega

/-- Of the two forms of zero only the exact sum of zero has the form 0. -/
theorem foldCarries_congr {m n : Nat} (h : m % 65535 = n % 65535) (hz : m = 0 ↔ n = 0) :
    foldCarries m = foldCarries n := by
  unfold foldCarries
  split <;> split <;> omega

theorem foldCarries_add (m n : Nat) : foldCarries (foldCarries m + n) = foldCarries (m + n) := by
  have hz := @foldCarries_eq_zero m
  refine foldCarries_congr ?_ (by omega)
  rw [Nat.add_mod, foldCarries_mod, ← Nat.add_mod]

/-- A sum that is a multiple of 65535, but not zero, folds to all ones. -/
theorem foldCarries_eq_ones {n : Nat} (h : n % 65535 = 0) (hz : n ≠ 0) :
    foldCarries n = 65535 := by
  unfold foldCarries
  split <;> omega

theorem toNat_addCarry_eq_foldCarries (a b : UInt16) :
    (addCarry a b).toNat = foldCarries (a.toNat + b.toNat) := by
  have ha := a.toNat_lt
  have hb := b.toNat_lt
  rw [toNat_addCarry]
  unfold foldCarries
  split <;> split <;> omega

/-! ## Exact sums -/

/-- The exact sum of the words of a list of bytes. -/
def wordTotal : List UInt8 → Nat
  | hi :: lo :: rest => 256 * hi.toNat + lo.toNat + wordTotal rest
  | [hi] => 256 * hi.toNat
  | [] => 0

theorem toNat_sumWordsFrom (acc : UInt16) (l : List UInt8) :
    (sumWordsFrom acc l).toNat = foldCarries (acc.toNat + wordTotal l) := by
  -- the carry of each word goes into the sum so far, which may as well be folded in the end
  induction acc, l using sumWordsFrom.induct with
  | case1 acc hi lo rest ih =>
      rw [sumWordsFrom, ih, toNat_addCarry_eq_foldCarries, foldCarries_add, toNat_word, wordTotal]
      congr 1
      omega
  | case2 acc hi =>
      rw [sumWordsFrom, toNat_addCarry_eq_foldCarries, toNat_word, wordTotal]
      rfl
  | case3 acc =>
      have := acc.toNat_lt
      rw [sumWordsFrom, wordTotal]
      unfold foldCarries
      split <;> omega

/-- What a byte counts for in a sum of words, by its position. -/
def wordWeight (i : Nat) : Nat := if i % 2 = 0 then 256 else 1

theorem wordWeight_add_of_even {n : Nat} (h : n % 2 = 0) (i : Nat) :
    wordWeight (n + i) = wordWeight i := by
  unfold wordWeight
  rw [show (n + i) % 2 = i % 2 by omega]

/-- The exact sum by positions. -/
theorem wordTotal_eq_sum (l : List UInt8) :
    wordTotal l = ∑ i ∈ Finset.range l.length, wordWeight i * (l[i]?.getD 0).toNat := by
  induction l using wordTotal.induct with
  | case1 hi lo rest ih =>
      rw [wordTotal, ih, List.length_cons, List.length_cons, Finset.sum_range_succ',
        Finset.sum_range_succ']
      have hw : ∀ i, wordWeight (i + 1 + 1) = wordWeight i := fun i => by
        rw [show i + 1 + 1 = 2 + i by omega, wordWeight_add_of_even (by decide)]
      simp only [List.getElem?_cons_succ, List.getElem?_cons_zero, Option.getD_some, hw]
      rw [show wordWeight 0 = 256 from rfl, show wordWeight (0 + 1) = 1 from rfl]
      omega
  | case2 hi => simp [wordTotal, wordWeight]
  | case3 => rfl

namespace Bytes

/-- The exact sum of the words of a byte string. -/
def total (b : Bytes) : Nat := wordTotal b.toList

/-- **A one's complement sum is the exact sum with its carries brought back.** -/
theorem toNat_wordSum (b : Bytes) : b.wordSum.toNat = foldCarries b.total := by
  have h := toNat_sumWordsFrom 0 b.toList
  rwa [UInt16.toNat_zero, Nat.zero_add] at h

theorem wordSum_eq_ones {b : Bytes} : b.wordSum = 0xffff ↔ foldCarries b.total = 65535 := by
  rw [← toNat_wordSum, ← UInt16.toNat_inj]
  rfl

theorem total_eq_sum (b : Bytes) :
    b.total = ∑ i ∈ Finset.range b.size, wordWeight i * (b.byte i).toNat := by
  rw [total, wordTotal_eq_sum, length_toList]
  refine Finset.sum_congr rfl fun i _ => ?_
  rw [byte_eq_getElem?]

/-- The sum goes on behind an even number of bytes as it started. -/
theorem total_append {a : Bytes} (h : a.size % 2 = 0) (b : Bytes) :
    Bytes.total (a ++ b) = a.total + b.total := by
  rw [total_eq_sum, total_eq_sum, total_eq_sum, ByteArray.size_append, Finset.sum_range_add]
  congr 1
  · refine Finset.sum_congr rfl fun i hi => ?_
    rw [byte_append, if_pos (Finset.mem_range.1 hi)]
  · refine Finset.sum_congr rfl fun i _ => ?_
    rw [byte_append, if_neg (by omega), Nat.add_sub_cancel_left, wordWeight_add_of_even h]

/-- The exact sum with one of the words taken out. -/
theorem total_split {b : Bytes} {i : Nat} (hi : i % 2 = 0) (hs : i + 2 ≤ b.size) :
    b.total = (⟨8 * i, 16⟩ : Field).read b +
      ((∑ j ∈ Finset.range i, wordWeight j * (b.byte j).toNat) +
        ∑ j ∈ Finset.range (b.size - (i + 2)),
          wordWeight (i + 2 + j) * (b.byte (i + 2 + j)).toNat) := by
  have hsize : b.size = i + 2 + (b.size - (i + 2)) := by omega
  have h0 : wordWeight i = 256 := by simp [wordWeight, hi]
  have h1 : wordWeight (i + 1) = 1 := by
    rw [wordWeight_add_of_even hi]
    rfl
  rw [total_eq_sum, hsize, Finset.sum_range_add, Finset.sum_range_succ, Finset.sum_range_succ,
    Field.read_word, h0, h1, ← hsize]
  omega

/-- A word that is written on an even position puts its value in the place of the one it
replaces. -/
theorem total_write {b : Bytes} {i : Nat} (v : Nat) (hi : i % 2 = 0) (hs : i + 2 ≤ b.size) :
    Bytes.total ((⟨8 * i, 16⟩ : Field).write v b) + (⟨8 * i, 16⟩ : Field).read b =
      b.total + v % 65536 := by
  have hsize : ((⟨8 * i, 16⟩ : Field).write v b).size = b.size := Field.size_write ..
  have hread : (⟨8 * i, 16⟩ : Field).read ((⟨8 * i, 16⟩ : Field).write v b) = v % 65536 :=
    Field.read_write_self v (by unfold Field.Within; simp only; omega)
  have hbyte : ∀ j, j < i ∨ i + 2 ≤ j →
      Bytes.byte ((⟨8 * i, 16⟩ : Field).write v b) j = b.byte j := fun j hj =>
    Field.byte_write_of_outside (by simp only; omega)
  -- everything but the word itself is the same on both sides
  rw [total_split hi (by omega), total_split hi hs, hread, hsize]
  have hlo : ∀ j ∈ Finset.range i, wordWeight j *
      (Bytes.byte ((⟨8 * i, 16⟩ : Field).write v b) j).toNat
        = wordWeight j * (b.byte j).toNat := fun j hj => by
    rw [hbyte j (Or.inl (Finset.mem_range.1 hj))]
  have hhi : ∀ j ∈ Finset.range (b.size - (i + 2)), wordWeight (i + 2 + j) *
      (Bytes.byte ((⟨8 * i, 16⟩ : Field).write v b) (i + 2 + j)).toNat
        = wordWeight (i + 2 + j) * (b.byte (i + 2 + j)).toNat := fun j _ => by
    rw [hbyte _ (Or.inr (by omega))]
  rw [Finset.sum_congr rfl hlo, Finset.sum_congr rfl hhi]
  omega

end Bytes

end Intercept
