import Intercept.Bytes.Range
import Mathlib.Tactic.Ring
import Mathlib.Tactic.SplitIfs

set_option autoImplicit false

/-! # Results, slots, slices and fields

What the proofs share: how a result came about, what is in a slot, what a slice of a byte string
holds, and on which bytes a field depends. A header is read in a slice of a
packet and written back into it, so most of it says that a field means the same in a slice as in
the whole, and that writing a slice back changes nothing around it. -/

namespace Intercept

/-! ## Results -/

theorem Except.map_eq_ok {ε α β : Type} {r : Except ε α} {f : α → β} {y : β} :
    r.map f = .ok y ↔ ∃ x, r = .ok x ∧ f x = y := by
  cases r <;> simp [Except.map]

theorem Except.map_eq_error {ε α β : Type} {r : Except ε α} {f : α → β} {e : ε} :
    r.map f = .error e ↔ r = .error e := by
  cases r <;> simp [Except.map]

theorem Except.mapError_eq_ok {ε ε' α : Type} {r : Except ε α} {f : ε → ε'} {y : α} :
    r.mapError f = .ok y ↔ r = .ok y := by
  cases r <;> simp [Except.mapError]

theorem Except.bind_eq_ok {ε α β : Type} {r : Except ε α} {f : α → Except ε β} {y : β} :
    (r >>= f) = .ok y ↔ ∃ x, r = .ok x ∧ f x = .ok y := by
  cases r <;> simp [bind, Except.bind]

/-- Whatever is refused only for want of bytes is granted with enough of them. -/
theorem Except.map_enough_eq_ok {ε α β : Type} {n k : Nat} {e : ε} {x : α} {f : α → β} {y : β} :
    (if n < k then .error e else .ok x : Except ε α).map f = .ok y ↔ k ≤ n ∧ y = f x := by
  split
  · next h => simp only [Except.map, reduceCtorEq, false_iff]; omega
  · next h =>
      simp only [Except.map, Except.ok.injEq]
      exact ⟨fun hy => ⟨by omega, hy.symm⟩, fun hy => hy.2.symm⟩

/-! ## Slots -/

/-- A slot is filled, in a list that is lengthened to have it, without a change to the others. -/
theorem List.join_getElem?_fill {α : Type} (l : List (Option α)) (i j : Nat) (x : Option α) :
    ((l ++ .replicate (i + 1 - l.length) none).set i x)[j]?.join =
      if i = j then x else l[j]?.join := by
  simp only [List.getElem?_set, List.length_append, List.length_replicate]
  by_cases hij : i = j
  · subst hij
    rw [if_pos rfl, if_pos (by omega), if_pos rfl, Option.join_some]
  · rw [if_neg hij, if_neg hij]
    rcases Nat.lt_or_ge j l.length with hj | hj
    · rw [List.getElem?_append_left hj]
    · rw [List.getElem?_append_right hj, List.getElem?_eq_none hj, List.getElem?_replicate]
      split <;> rfl

/-- Filling a slot with what is in it changes nothing, not even the number of slots. -/
theorem List.fill_of_join_getElem? {α : Type} {l : List (Option α)} {i : Nat} {x : α}
    (h : l[i]?.join = some x) :
    (l ++ .replicate (i + 1 - l.length) none).set i (some x) = l := by
  obtain ⟨hi, hx⟩ := List.getElem?_eq_some_iff.1 (Option.join_eq_some_iff.1 h)
  have hpad : i + 1 - l.length = 0 := Nat.sub_eq_zero_of_le hi
  rw [hpad, List.replicate_zero, List.append_nil, ← hx, List.set_getElem_self]

/-- Filling a slot changes how many slots are of some kind by that slot only. -/
theorem List.countP_fill {α : Type} (q : Option α → Bool) (hq : q none = false)
    (l : List (Option α)) (i : Nat) (x : Option α) :
    ((l ++ .replicate (i + 1 - l.length) none).set i x).countP q + (q l[i]?.join).toNat =
      l.countP q + (q x).toNat := by
  have hpad : (List.replicate (i + 1 - l.length) (none : Option α)).countP q = 0 := by
    rw [List.countP_replicate, if_neg (by rw [hq]; exact Bool.false_ne_true)]
  have hlen : i < (l ++ List.replicate (i + 1 - l.length) (none : Option α)).length := by
    rw [List.length_append, List.length_replicate]
    omega
  have hslot : (l ++ List.replicate (i + 1 - l.length) none)[i] = l[i]?.join := by
    rcases Nat.lt_or_ge i l.length with hi | hi
    · rw [List.getElem_append_left hi, List.getElem?_eq_getElem hi, Option.join_some]
    · rw [List.getElem_append_right hi, List.getElem_replicate, List.getElem?_eq_none hi]
      rfl
  have hle : (q l[i]?.join).toNat ≤ l.countP q := by
    cases hj : q l[i]?.join with
    | false => exact Nat.zero_le _
    | true =>
        obtain ⟨o, ho⟩ : ∃ o, l[i]? = some o := by
          rw [← Option.ne_none_iff_exists']
          intro hnone
          rw [hnone, Option.join_none, hq] at hj
          exact Bool.false_ne_true hj
        rw [ho, Option.join_some] at hj
        exact List.countP_pos_iff.mpr ⟨o, List.mem_of_getElem? ho, hj⟩
  have htoNat : ∀ b : Bool, (if b = true then 1 else 0) = b.toNat := by decide
  rw [List.countP_set hlen, hslot, List.countP_append, hpad, htoNat, htoNat]
  omega

namespace Bytes

/-! ## Slices -/

theorem bit_extract (b : Bytes) (lo hi i : Nat) :
    Bytes.bit (b.extract lo hi) i = (decide (lo + i / 8 < hi) && b.bit (8 * lo + i)) := by
  unfold bit
  rw [byte_extract, show (8 * lo + i) / 8 = lo + i / 8 by omega,
    show (8 * lo + i) % 8 = i % 8 by omega]
  split
  · next h => simp [h]
  · next h => simp [h]

/-- A slice is determined by its own bytes. -/
theorem extract_congr {a b : Bytes} {lo hi : Nat} (hs : a.size = b.size)
    (h : ∀ i, lo ≤ i → i < hi → a.byte i = b.byte i) : a.extract lo hi = b.extract lo hi := by
  have hsize : (a.extract lo hi).size = (b.extract lo hi).size := by
    rw [ByteArray.size_extract, ByteArray.size_extract, hs]
  refine ext_byte hsize fun i _ => ?_
  rw [byte_extract, byte_extract]
  split
  · next hi => exact h _ (by omega) hi
  · rfl

/-- What was written somewhere is found there. -/
theorem extract_overwrite_self {b src : Bytes} {lo : Nat} (h : lo + src.size ≤ b.size) :
    (b.overwrite lo src).extract lo (lo + src.size) = src := by
  have hsize : ((b.overwrite lo src).extract lo (lo + src.size)).size = src.size := by
    rw [ByteArray.size_extract, size_overwrite]
    omega
  refine ext_byte hsize fun i hi => ?_
  rw [byte_extract, if_pos (by omega), byte_overwrite, if_pos (by omega), Nat.add_sub_cancel_left]

/-- A slice that is written back where it came from changes nothing. -/
theorem overwrite_extract (b : Bytes) (lo hi : Nat) : b.overwrite lo (b.extract lo hi) = b := by
  refine ext_byte (size_overwrite ..) fun i _ => ?_
  rw [byte_overwrite, ByteArray.size_extract]
  split
  · next h => rw [byte_extract, if_pos (by omega), Nat.add_sub_cancel' h.2.1]
  · rfl

theorem slice?_eq_some {b s : Bytes} {lo hi : Nat} :
    b.slice? lo hi = some s ↔ lo ≤ hi ∧ hi ≤ b.size ∧ s = b.extract lo hi := by
  unfold slice?
  split
  · next h => simp [h.1, h.2, eq_comm]
  · next h => simp only [reduceCtorEq, false_iff]; exact fun hh => h ⟨hh.1, hh.2.1⟩

end Bytes

/-! ## Fields and bytes -/

namespace Bytes

/-- A run of bits is read in two parts. -/
theorem readBits_add (b : Bytes) (first m n : Nat) :
    b.readBits first (m + n) = b.readBits first m * 2 ^ n + b.readBits (first + m) n := by
  induction n with
  | zero => simp [readBits]
  | succ n ih =>
      rw [← Nat.add_assoc, readBits, readBits, ih, Nat.pow_succ, Nat.add_assoc first]
      ring

/-- Eight bits on a byte boundary are a byte. -/
theorem readBits_eight (b : Bytes) (i : Nat) : b.readBits (8 * i) 8 = (b.byte i).toNat := by
  refine Nat.eq_of_testBit_eq fun k => ?_
  rw [testBit_readBits]
  by_cases hk : k < 8
  · unfold bit
    rw [show (8 * i + 8 - 1 - k) / 8 = i by omega, show 7 - (8 * i + 8 - 1 - k) % 8 = k by omega]
    simp [hk]
  · have hp : (2 : Nat) ^ 8 ≤ 2 ^ k := Nat.pow_le_pow_right (by decide) (by omega)
    rw [Nat.testBit_lt_two_pow (Nat.lt_of_lt_of_le (UInt8.toNat_lt _) hp)]
    simp [hk]

end Bytes

namespace Field

theorem Within.mono {f : Field} {m n : Nat} (h : f.Within m) (hle : m ≤ n) : f.Within n := by
  unfold Within at h ⊢
  omega

/-- No byte is written behind those that a field lies in. -/
theorem byte_write_of_within {f : Field} {n v i : Nat} {b : Bytes} (h : f.Within n) (hi : n ≤ i) :
    (f.write v b).byte i = b.byte i := by
  unfold Within at h
  exact byte_write_of_outside (Or.inr (by omega))

/-- What a field holds depends only on the bytes it touches. -/
theorem read_congr_byte {f : Field} {a b : Bytes}
    (h : ∀ i, f.first < 8 * i + 8 → 8 * i < f.first + f.width → a.byte i = b.byte i) :
    f.read a = f.read b := by
  refine read_congr fun i h1 h2 => ?_
  unfold Bytes.bit
  rw [h (i / 8) (by omega) (by omega)]

/-- Writing a field wipes out what the bytes in it were. -/
theorem write_congr {f : Field} {a b : Bytes} {v : Nat} (hs : a.size = b.size)
    (h : ∀ i, ¬(f.first ≤ i ∧ i < f.first + f.width) → a.bit i = b.bit i) :
    f.write v a = f.write v b := by
  refine Bytes.ext_bit (by rw [size_write, size_write, hs]) fun i _ => ?_
  rw [bit_write, bit_write, hs]
  split
  · rfl
  · next hi =>
      by_cases hf : f.first ≤ i ∧ i < f.first + f.width
      · have hout : b.size ≤ i / 8 := by omega
        unfold Bytes.bit
        rw [Bytes.byte_of_size_le (hs ▸ hout), Bytes.byte_of_size_le hout]
      · exact h i hf

/-- Writing back what a field holds changes nothing. -/
theorem write_read (f : Field) (b : Bytes) : f.write (f.read b) b = b := by
  refine Bytes.ext_bit (size_write ..) fun i _ => ?_
  rw [bit_write, testBit_read]
  split
  · next hi =>
      rw [show f.first + f.width - 1 - (f.first + f.width - 1 - i) = i by omega,
        decide_eq_true (by omega), Bool.true_and]
  · rfl

/-- Writing a field in a leading slice that covers it is writing it in the whole. -/
theorem extract_zero_write {f : Field} {n : Nat} {b : Bytes} (v : Nat) (h : f.Within n) :
    (f.write v b).extract 0 n = f.write v (b.extract 0 n) := by
  have hsize : ((f.write v b).extract 0 n).size = (b.extract 0 n).size := by
    rw [ByteArray.size_extract, ByteArray.size_extract, size_write]
  unfold Within at h
  refine Bytes.ext_bit (hsize.trans (size_write ..).symm) fun i _ => ?_
  rw [Bytes.bit_extract, bit_write, bit_write, Bytes.bit_extract, ByteArray.size_extract,
    Nat.mul_zero, Nat.zero_add, Nat.zero_add]
  by_cases hi : f.first ≤ i ∧ i < f.first + f.width
  · by_cases hb : i / 8 < b.size
    · rw [if_pos ⟨hi.1, hi.2, hb⟩, if_pos (by omega)]
      simp only [Bool.and_eq_right_iff_imp, decide_eq_true_eq]
      omega
    · rw [if_neg (fun hh => hb hh.2.2), if_neg (by omega)]
  · rw [if_neg (fun hh => hi ⟨hh.1, hh.2.1⟩), if_neg (fun hh => hi ⟨hh.1, hh.2.1⟩)]

/-- A field of sixteen bits on a byte boundary holds two bytes, the high one first. -/
theorem read_word (b : Bytes) (i : Nat) :
    (⟨8 * i, 16⟩ : Field).read b = 256 * (b.byte i).toNat + (b.byte (i + 1)).toNat := by
  have h : b.readBits (8 * i) 16 = _ := b.readBits_add (8 * i) 8 8
  rw [b.readBits_eight, show 8 * i + 8 = 8 * (i + 1) by omega, b.readBits_eight] at h
  unfold read
  rw [h]
  omega

end Field

end Intercept
