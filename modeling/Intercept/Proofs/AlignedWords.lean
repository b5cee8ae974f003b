import Intercept.Proofs.WordSum

set_option autoImplicit false

/-! # One's complement sums of aligned words

Adding words with the carry brought back is adding modulo 65535, with all ones for a zero that came
of something. So it may be regrouped and reordered (`addCarry_assoc`, `addCarry_comm`), and the sum
of a byte string is the sum of its aligned words in any order (`wordSum_eq_foldl`). The carry that
is brought back never carries again, because what is left of a sum that has carried is not all ones
(`toNat_add_lt_of_carries`).

`wordSum_exact` puts this beside the exact sum of the words, folded once at the end. -/

namespace Intercept

/-! ## Adding with the carry brought back -/

section AddCarry

variable (a b c : UInt16)

theorem addCarry_comm : addCarry a b = addCarry b a := by
  refine UInt16.toNat_inj.1 ?_
  rw [toNat_addCarry_eq_foldCarries, toNat_addCarry_eq_foldCarries, Nat.add_comm]

/-- However a sum is grouped, it is the exact sum with its carries brought back. -/
theorem addCarry_assoc : addCarry (addCarry a b) c = addCarry a (addCarry b c) := by
  have hleft : (addCarry (addCarry a b) c).toNat = foldCarries (a.toNat + b.toNat + c.toNat) := by
    rw [toNat_addCarry_eq_foldCarries, toNat_addCarry_eq_foldCarries, foldCarries_add]
  have hright : (addCarry a (addCarry b c)).toNat = foldCarries (b.toNat + c.toNat + a.toNat) := by
    rw [addCarry_comm, toNat_addCarry_eq_foldCarries, toNat_addCarry_eq_foldCarries,
      foldCarries_add]
  refine UInt16.toNat_inj.1 ?_
  rw [hleft, hright, Nat.add_comm (b.toNat + c.toNat), Nat.add_assoc]

@[simp] theorem zero_addCarry : addCarry 0 a = a := by
  have ha := a.toNat_lt
  refine UInt16.toNat_inj.1 ?_
  rw [toNat_addCarry, UInt16.toNat_zero, Nat.zero_add, if_pos (by omega)]

@[simp] theorem addCarry_zero : addCarry a 0 = a := by
  rw [addCarry_comm, zero_addCarry]

/-- A word and its complement add up to all ones, without a carry. -/
theorem addCarry_complement : addCarry a (~~~a) = 0xffff := by
  have ha := a.toNat_lt
  have hc : (~~~a).toNat = 65535 - a.toNat := UInt16.toNat_not a
  refine UInt16.toNat_inj.1 ?_
  rw [toNat_addCarry, hc, if_pos (by omega), show (0xffff : UInt16).toNat = 65535 from rfl]
  omega

variable {a b}

/-- A sum has carried if it is less than what was added to. -/
theorem lt_left_iff_carries : a + b < a ↔ 65536 ≤ a.toNat + b.toNat := by
  have ha := a.toNat_lt
  have hb := b.toNat_lt
  rw [UInt16.lt_iff_toNat_lt, UInt16.toNat_add]
  omega

/-- What is left of a sum that has carried has room for the carry. -/
theorem toNat_add_lt_of_carries (h : 65536 ≤ a.toNat + b.toNat) : (a + b).toNat + 1 < 65536 := by
  have ha := a.toNat_lt
  have hb := b.toNat_lt
  rw [UInt16.toNat_add]
  omega

theorem toNat_addCarry_of_carries (h : 65536 ≤ a.toNat + b.toNat) :
    (addCarry a b).toNat = (a + b).toNat + 1 := by
  have hroom := toNat_add_lt_of_carries h
  rw [addCarry, if_pos (lt_left_iff_carries.2 h), UInt16.toNat_add, UInt16.toNat_one]
  exact Nat.mod_eq_of_lt hroom

end AddCarry

namespace Bytes

/-! ## Aligned words -/

/-- The words of a byte string from its start on. A last byte without another is the high half of a
word whose low half is zero. -/
def words (b : Bytes) : List UInt16 :=
  (List.range ((b.size + 1) / 2)).map fun i => word (b.byte (2 * i)) (b.byte (2 * i + 1))

theorem words_cons_cons (hi lo : UInt8) (rest : List UInt8) :
    words (ofList (hi :: lo :: rest)) = word hi lo :: words (ofList rest) := by
  have hlen : (rest.length + 1 + 1 + 1) / 2 = (rest.length + 1) / 2 + 1 := by omega
  simp only [words, size_ofList, List.length_cons, hlen, List.range_succ_eq_map, List.map_cons,
    List.map_map, byte_ofList]
  rfl

theorem words_singleton (hi : UInt8) : words (ofList [hi]) = [word hi 0] := by
  simp [words]

/-- The sum is taken word by word. -/
theorem sumWordsFrom_eq_foldl (acc : UInt16) (l : List UInt8) :
    sumWordsFrom acc l = (words (ofList l)).foldl addCarry acc := by
  induction acc, l using sumWordsFrom.induct with
  | case1 acc hi lo rest ih => rw [sumWordsFrom, ih, words_cons_cons, List.foldl_cons]
  | case2 acc hi => rw [sumWordsFrom, words_singleton, List.foldl_cons, List.foldl_nil]
  | case3 acc => rfl

theorem wordSum_eq_foldl (b : Bytes) : b.wordSum = b.words.foldl addCarry 0 :=
  sumWordsFrom_eq_foldl 0 b.toList

/-- The order of the words does not matter. -/
theorem wordSum_perm {a b : Bytes} (h : a.words.Perm b.words) : a.wordSum = b.wordSum := by
  rw [wordSum_eq_foldl, wordSum_eq_foldl]
  refine h.foldl_eq' (fun x _ y _ acc => ?_) 0
  rw [addCarry_assoc, addCarry_comm x y, ← addCarry_assoc]

/-- The sum goes on behind an even number of bytes. -/
theorem wordSum_append {a : Bytes} (h : a.size % 2 = 0) (b : Bytes) :
    Bytes.wordSum (a ++ b) = addCarry a.wordSum b.wordSum := by
  refine UInt16.toNat_inj.1 ?_
  rw [toNat_addCarry_eq_foldCarries, toNat_wordSum, toNat_wordSum, toNat_wordSum, total_append h,
    foldCarries_add, Nat.add_comm a.total, Nat.add_comm a.total, foldCarries_add]

/-! ## The exact sum -/

theorem sum_wordWeight_eq (b : Bytes) (n : Nat) :
    ∑ i ∈ Finset.range (2 * n), wordWeight i * (b.byte i).toNat =
      ∑ i ∈ Finset.range n, (256 * (b.byte (2 * i)).toNat + (b.byte (2 * i + 1)).toNat) := by
  induction n with
  | zero => rfl
  | succ n ih =>
      have hhigh : wordWeight (2 * n) = 256 := if_pos (by omega)
      have hlow : wordWeight (2 * n + 1) = 1 := if_neg (by omega)
      rw [Nat.mul_succ, Finset.sum_range_succ, Finset.sum_range_succ, Finset.sum_range_succ, ih,
        hhigh, hlow]
      omega

/-- The exact sum, word by word. The byte that an odd last byte goes with is not there and counts
nothing. -/
theorem total_eq_sum_words (b : Bytes) :
    b.total = ∑ i ∈ Finset.range ((b.size + 1) / 2),
      (256 * (b.byte (2 * i)).toNat + (b.byte (2 * i + 1)).toNat) := by
  rw [← sum_wordWeight_eq, total_eq_sum]
  refine Finset.sum_subset (Finset.range_subset_range.2 (by omega)) fun i _ hi => ?_
  rw [byte_of_size_le (Nat.le_of_not_lt fun h => hi (Finset.mem_range.2 h)), UInt8.toNat_zero,
    Nat.mul_zero]

end Bytes

/-- **A one's complement sum is the exact sum, folded at the end.** The sum of a byte string is zero
if its words add up to zero, and otherwise lies between 1 and 65535 and differs from the exact sum
by a multiple of 65535. Adding with the carry brought back is associative and commutative, zero
changes nothing, and the carry never carries again. So the sum goes on behind an even number of
bytes, does not depend on the order of the words, and makes all ones with its own complement. -/
theorem wordSum_exact :
    (∀ b : Bytes,
      let s := ∑ i ∈ Finset.range ((b.size + 1) / 2),
        (256 * (b.byte (2 * i)).toNat + (b.byte (2 * i + 1)).toNat)
      b.wordSum.toNat = if s = 0 then 0 else (s - 1) % 65535 + 1) ∧
    (∀ a b c : UInt16, addCarry (addCarry a b) c = addCarry a (addCarry b c)) ∧
    (∀ a b : UInt16, addCarry a b = addCarry b a) ∧
    (∀ a : UInt16, addCarry 0 a = a ∧ addCarry a 0 = a) ∧
    (∀ a b : UInt16, 65536 ≤ a.toNat + b.toNat →
      (a + b).toNat + 1 < 65536 ∧ (addCarry a b).toNat = (a + b).toNat + 1) ∧
    (∀ a b : Bytes, a.size % 2 = 0 → Bytes.wordSum (a ++ b) = addCarry a.wordSum b.wordSum) ∧
    (∀ a b : Bytes, a.words.Perm b.words → a.wordSum = b.wordSum) ∧
    ∀ b : Bytes, addCarry b.wordSum (~~~b.wordSum) = 0xffff := by
  refine ⟨fun b => ?_, addCarry_assoc, addCarry_comm, fun a => ⟨zero_addCarry a, addCarry_zero a⟩,
    fun a b h => ⟨toNat_add_lt_of_carries h, toNat_addCarry_of_carries h⟩,
    fun a b h => Bytes.wordSum_append h b, fun a b h => Bytes.wordSum_perm h,
    fun b => addCarry_complement _⟩
  rw [← Bytes.total_eq_sum_words]
  exact b.toNat_wordSum

/-- Five bytes carry twice, and their last word, that has only one byte, may as well come first. -/
theorem wordSum_exact_fiveBytes :
    65536 ≤ (0xfffe : UInt16).toNat + (0x0102 : UInt16).toNat ∧
      (addCarry 0xfffe 0x0102).toNat = 0x0101 ∧
      Bytes.wordSum (Bytes.ofList [0xff, 0xfe, 0x01, 0x02] ++ Bytes.ofList [0xff]) =
        addCarry 0x0101 0xff00 ∧
      (Bytes.ofList [0xff, 0xfe, 0x01, 0x02, 0xff]).words.Perm
        (Bytes.ofList [0xff, 0x00, 0x01, 0x02, 0xff, 0xfe]).words ∧
      (Bytes.ofList [0xff, 0xfe, 0x01, 0x02, 0xff]).wordSum =
        (Bytes.ofList [0xff, 0x00, 0x01, 0x02, 0xff, 0xfe]).wordSum := by
  obtain ⟨-, -, -, -, hcarry, happend, hperm, -⟩ := wordSum_exact
  have hover : 65536 ≤ (0xfffe : UInt16).toNat + (0x0102 : UInt16).toNat := by decide
  have hwords : (Bytes.ofList [0xff, 0xfe, 0x01, 0x02, 0xff]).words.Perm
      (Bytes.ofList [0xff, 0x00, 0x01, 0x02, 0xff, 0xfe]).words := by decide
  exact ⟨hover, (hcarry _ _ hover).2, happend _ _ rfl, hwords, hperm _ _ hwords⟩

end Intercept
