import Intercept.Proofs.ExactChecksum
import Mathlib.Logic.Function.Iterate

set_option autoImplicit false

/-! # Recomputing checksums again

What the checksums of a packet were before does not matter for what they are recomputed to, nor for
whether they can be. Two packets of one length that differ only where they hold checksums
(`UpToChecksums`) get the same result, and if that is a success, the same bytes (`fill_congr`):
nothing that is decided on the way, from the version to the data offset of TCP, is read from a
checksum, and every sum is taken with its own checksum blanked. A packet and what it becomes differ
in no more than that, so recomputing again changes nothing (`fill_fill`).

The same cannot be said of a packet whose checksums are right as they stand, because zero has two
forms in one's complement, and a checksum of the form that recomputing does not choose is right
too. That is the only exception: a packet that verifies and has no such checksum is left as it is
(`fill_of_settled`). -/

namespace Intercept

/-! ## Writing over words -/

/-- What two bytes held is wiped out by a word that is written over them. -/
theorem Field.write_word_congr {a b : Bytes} {i v : Nat} (hs : a.size = b.size)
    (h : ∀ j, j ≠ i → j ≠ i + 1 → a.byte j = b.byte j) :
    (⟨8 * i, 16⟩ : Field).write v a = (⟨8 * i, 16⟩ : Field).write v b := by
  refine write_congr hs fun j hj => ?_
  simp only at hj
  unfold Bytes.bit
  rw [h (j / 8) (by omega) (by omega)]

/-- What is overwritten to the end of a byte string is wiped out. -/
theorem Bytes.overwrite_congr {a b src : Bytes} {lo : Nat} (hs : a.size = b.size)
    (hfit : lo + src.size = b.size) (h : ∀ i < lo, a.byte i = b.byte i) :
    a.overwrite lo src = b.overwrite lo src := by
  refine ext_byte (by rw [size_overwrite, size_overwrite, hs]) fun i hi => ?_
  rw [size_overwrite] at hi
  rw [byte_overwrite, byte_overwrite, hs]
  split
  · rfl
  · next hout => exact h i (by omega)

namespace Checksum

variable {a b s : Bytes} {t : Transport} {n : Nat}

/-! ## Old checksums are forgotten -/

/-- Whether a segment has the header of its protocol is decided by how long it is and, for TCP, by
the data offset. -/
theorem checkSegment_congr {s' : Bytes} (hs : s.size = s'.size)
    (h : t = .tcp → s.byte 12 = s'.byte 12) : checkSegment t s = checkSegment t s' := by
  cases t with
  | tcp => simp only [checkSegment, Tcp.validate_congr hs (h rfl)]
  | udp | icmpv4 | icmpv6 => simp only [checkSegment, hs]

/-- A segment is filled in with no regard to the checksum that it had. -/
theorem fillSegment_congr {s' : Bytes} (pseudo : UInt16) (hs : s.size = s'.size)
    (h : ∀ i, i ≠ offset t → i ≠ offset t + 1 → s.byte i = s'.byte i) :
    fillSegment t pseudo s = fillSegment t pseudo s' := by
  simp only [fillSegment_eq, sumOf, field_eq, Field.write_word_congr hs h]

/-- An IPv4 header is filled in with no regard to the checksum that it had. -/
theorem extract_fillIpv4Header_congr (hn : 20 ≤ n) (hs : a.size = b.size)
    (h : ∀ i < n, i ≠ 10 → i ≠ 11 → a.byte i = b.byte i) :
    (fillIpv4Header n a).extract 0 n = (fillIpv4Header n b).extract 0 n := by
  have hwithin : Ipv4.Cell.checksum.field.Within n := by
    simp only [Field.Within, Ipv4.Cell.field]
    omega
  have hsize : (a.extract 0 n).size = (b.extract 0 n).size := by
    rw [ByteArray.size_extract, ByteArray.size_extract, hs]
  have hword : ∀ v, Ipv4.Cell.checksum.field.write v (a.extract 0 n) =
      Ipv4.Cell.checksum.field.write v (b.extract 0 n) := fun v =>
    Field.write_word_congr (i := 10) hsize fun j h0 h1 => by
      rw [Bytes.byte_extract, Bytes.byte_extract, Nat.zero_add]
      split
      · next hj => exact h j hj h0 h1
      · rfl
  simp only [fillIpv4Header, Field.extract_zero_write _ hwithin, hword]

/-- A valid IP header has twenty bytes at least, the checksum of IPv4 among them. -/
theorem ValidHeader.twenty_le (h : ValidHeader b) : 20 ≤ segmentStart b := by
  obtain ⟨-, hend, -⟩ := h.start
  have h20 : 20 ≤ addressesEnd (version b) := by cases version b <;> decide
  exact Nat.le_trans h20 hend

/-- Two packets are of one length and differ at most in bytes that hold a checksum of the second. -/
structure UpToChecksums (a b : Bytes) : Prop where
  size : a.size = b.size
  same : ∀ i, ¬ Covers b i → a.byte i = b.byte i

theorem upToChecksums_fill (b : Bytes) : UpToChecksums (fill b).2 b :=
  ⟨size_fill b, fun _ => byte_fill⟩

namespace UpToChecksums

/-- No checksum is held in the first two bytes. -/
theorem byte_zero (h : UpToChecksums a b) : a.byte 0 = b.byte 0 := by
  refine h.same 0 ?_
  rintro (⟨-, hc⟩ | ⟨t, -, hc⟩)
  · omega
  · cases t <;> simp only [offset] at hc <;> omega

theorem version (h : UpToChecksums a b) : version a = version b := by
  unfold Checksum.version
  rw [Ipv4.version_congr h.byte_zero]

theorem start (h : UpToChecksums a b) : segmentStart a = segmentStart b := by
  unfold segmentStart
  rw [h.version, Ipv4.headerLen_congr h.byte_zero]

theorem size_segment (h : UpToChecksums a b) : (segment a).size = (segment b).size := by
  rw [Checksum.size_segment, Checksum.size_segment, h.size, h.start]

/-- The IP header of the one is valid if that of the other is. -/
theorem validHeader (h : UpToChecksums a b) (hb : ValidHeader b) : ValidHeader a := by
  obtain ⟨hvalid, -, -⟩ := hb.start
  refine ⟨⟨segmentStart b, ?_⟩, fun hv => ?_⟩
  · rw [h.version, IpVersion.validate_of_byte_zero hvalid]
    · exact h.size ▸ IpVersion.validate_le hvalid
    · exact h.byte_zero
  · rw [h.size_segment]
    exact hb.fits (h.version ▸ hv)

/-- Behind a valid IP header, no checksum is held but that of the header in its first bytes. -/
theorem sameHeader (h : UpToChecksums a b) (hb : ValidHeader b) : SameHeader a b := by
  obtain ⟨-, hend, -⟩ := hb.start
  cases hv : Checksum.version b with
  | v4 =>
      rw [hv] at hend
      simp only [addressesEnd] at hend
      refine sameHeader_v4 hv h.size fun i hi h0 h1 => h.same i ?_
      rintro (⟨-, hc⟩ | ⟨t, -, hc⟩) <;> omega
  | v6 =>
      rw [hv] at hend
      simp only [addressesEnd] at hend
      refine sameHeader_v6 hv h.size fun i hi => h.same i ?_
      rintro (⟨hc, -⟩ | ⟨t, -, hc⟩)
      · rw [hv] at hc
        cases hc
      · omega

/-- The IP header is filled in to the same bytes. -/
theorem byte_filledHeader_of_lt (h : UpToChecksums a b) (hb : ValidHeader b) {i : Nat}
    (hi : i < segmentStart b) : (filledHeader a).byte i = (filledHeader b).byte i := by
  have hstart := hb.start.2.1
  unfold filledHeader
  rw [h.version]
  cases hv : Checksum.version b with
  | v4 =>
      have hlen : segmentStart b = Ipv4.headerLen b := by simp only [segmentStart, hv]
      rw [hv] at hstart
      simp only [addressesEnd] at hstart
      have hextract := extract_fillIpv4Header_congr (n := segmentStart b) hstart h.size
        fun j hj h0 h1 => h.same j (by rintro (⟨-, hc⟩ | ⟨t, -, hc⟩) <;> omega)
      have hbyte := congrArg (fun x : Bytes => x.byte i) hextract
      simp only [Bytes.byte_extract, Nat.zero_add, if_pos hi] at hbyte
      simpa only [Ipv4.headerLen_congr h.byte_zero, ← hlen] using hbyte
  | v6 =>
      refine h.same i ?_
      rintro (⟨hc, -⟩ | ⟨t, -, hc⟩)
      · rw [hv] at hc
        cases hc
      · omega

/-- Packets that agree behind the IP header have the same bytes once that is filled in. -/
theorem filledHeader_eq (h : UpToChecksums a b) (hb : ValidHeader b)
    (hsame : ∀ i, segmentStart b ≤ i → a.byte i = b.byte i) : filledHeader a = filledHeader b := by
  have h20 := hb.twenty_le
  refine Bytes.ext_byte (by rw [size_filledHeader, size_filledHeader, h.size]) fun i _ => ?_
  by_cases hi : i < segmentStart b
  · exact h.byte_filledHeader_of_lt hb hi
  · rw [byte_filledHeader (by omega) (by omega), byte_filledHeader (by omega) (by omega)]
    exact hsame i (Nat.le_of_not_lt hi)

/-- Segments agree but for their checksum. -/
theorem byte_segment (h : UpToChecksums a b) (hb : ValidHeader b)
    (ht : Transport.ofNumber? (protocol b) = some t) {i : Nat} (h0 : i ≠ offset t)
    (h1 : i ≠ offset t + 1) : (segment a).byte i = (segment b).byte i := by
  have h20 := hb.twenty_le
  rw [segment, segment, Bytes.byte_extract, Bytes.byte_extract, h.start, h.size]
  split
  · refine h.same _ ?_
    rintro (⟨-, hc⟩ | ⟨t', ht', hc⟩)
    · omega
    · cases ht.symm.trans ht'
      omega
  · rfl

/-- Behind a valid header, what becomes of a packet does not depend on its checksums. -/
theorem fill_of_validHeader (h : UpToChecksums a b) (hb : ValidHeader b) :
    (fill a).1 = (fill b).1 ∧ ((fill b).1 = .ok () → fill a = fill b) := by
  have ha := h.validHeader hb
  have hsame := h.sameHeader hb
  obtain ⟨-, -, hle⟩ := hb.start
  have hsega := ha.segment_filledHeader
  have hsegb := hb.segment_filledHeader
  rw [hsame.start, h.size] at hsega
  have hpseudo : pseudoSumOf a = pseudoSumOf b := by
    rw [pseudoSumOf, pseudoSumOf, hsame.addresses, h.size_segment, hsame.protocol]
  rw [Checksum.fill_of_validHeader ha, Checksum.fill_of_validHeader hb, hsame.start,
    hsame.protocol, hpseudo]
  unfold fillFrom
  rw [size_filledHeader, size_filledHeader, h.size, hsega, hsegb]
  cases ht : Transport.ofNumber? (protocol b) with
  | none =>
      refine ⟨rfl, fun _ => congrArg _ (h.filledHeader_eq hb fun i hi => h.same i ?_)⟩
      have h20 := hb.twenty_le
      rintro (⟨-, hc⟩ | ⟨t, ht', -⟩)
      · omega
      · rw [ht] at ht'
        cases ht'
  | some t =>
      -- the data offset of TCP is held in front of the checksum
      have hcheck : checkSegment t (segment a) = checkSegment t (segment b) :=
        checkSegment_congr h.size_segment fun htcp => by
          subst htcp
          exact h.byte_segment hb ht (by decide) (by decide)
      simp only [hcheck]
      cases checkSegment t (segment b) with
      | error m => exact ⟨rfl, fun hok => by cases hok⟩
      | ok u =>
          have hover : (filledHeader a).overwrite (segmentStart b)
              (fillSegment t (pseudoSumOf b) (segment a)) =
                (filledHeader b).overwrite (segmentStart b)
                  (fillSegment t (pseudoSumOf b) (segment b)) := by
            rw [fillSegment_congr _ h.size_segment fun i => h.byte_segment hb ht]
            refine Bytes.overwrite_congr ?_ ?_ fun i => h.byte_filledHeader_of_lt hb
            · rw [size_filledHeader, size_filledHeader, h.size]
            · rw [size_fillSegment, size_filledHeader, Checksum.size_segment]
              omega
          simp only [hover, implies_true, and_self]

/-- Without a valid header, the fault is the same. -/
theorem fst_fill (h : UpToChecksums a b) (hb : ¬ ValidHeader b) : (fill a).1 = (fill b).1 := by
  rw [fill_eq, fill_eq, h.version]
  cases hv : Checksum.version b with
  | v4 =>
      simp only [fillIpv4, Ipv4.validate_congr h.size h.byte_zero, h.size]
      cases hn : Ipv4.validate b with
      | error m => rfl
      | ok n =>
          obtain ⟨-, rfl, -⟩ := Ipv4.validate_eq_ok.1 hn
          have hlong : 65536 ≤ b.size - Ipv4.headerLen b := by
            by_contra hshort
            refine hb ⟨⟨_, by rw [hv]; exact hn⟩, fun _ => ?_⟩
            rw [Checksum.size_segment, segmentStart, hv]
            exact Nat.le_of_lt_succ (Nat.lt_of_not_le hshort)
          simp only [if_pos hlong]
  | v6 =>
      simp only [fillIpv6, Ipv6.validate_congr h.size (Ipv4.version_congr h.byte_zero)]
      cases hn : Ipv6.validate b with
      | error m => rfl
      | ok n =>
          exact absurd ⟨⟨n, by rw [hv]; exact hn⟩, fun h4 => by rw [hv] at h4; cases h4⟩ hb

end UpToChecksums

/-- **Old checksums are forgotten.** Packets that differ in nothing else get the same result, and
if that is a success the same bytes. -/
theorem fill_congr (h : UpToChecksums a b) :
    (fill a).1 = (fill b).1 ∧ ((fill b).1 = .ok () → fill a = fill b) := by
  by_cases hb : ValidHeader b
  · exact h.fill_of_validHeader hb
  · refine ⟨h.fst_fill hb, fun hok => ?_⟩
    obtain ⟨m, hm⟩ := fill_of_not_validHeader hb
    rw [hm] at hok
    cases hok

/-! ## Recomputing twice -/

/-- **Recomputing again changes nothing**, whether it succeeds or not. -/
theorem fill_fill (b : Bytes) : fill (fill b).2 = fill b := by
  obtain ⟨hfst, hsnd⟩ := fill_congr (upToChecksums_fill b)
  rcases fill_cases b with ⟨-, -, hok⟩ | ⟨hb, -, m, hm⟩ | ⟨-, m, hm⟩
  · exact hsnd hok
  · -- only the header was filled in, and it is filled in to the same bytes again
    have hupto := upToChecksums_fill b
    rw [hm] at hfst hupto ⊢
    simp only at hfst hupto ⊢
    have h20 := hb.twenty_le
    have hheader : filledHeader (filledHeader b) = filledHeader b :=
      hupto.filledHeader_eq hb fun i hi => byte_filledHeader (by omega) (by omega)
    rcases fill_cases (filledHeader b) with ⟨-, -, hok⟩ | ⟨-, -, m', hm'⟩ | ⟨hc, -⟩
    · rw [hok] at hfst
      cases hfst
    · rw [hheader] at hm'
      rw [hm'] at hfst ⊢
      simp only at hfst
      rw [hfst]
    · exact absurd (hupto.validHeader hb) hc
  · rw [hm]
    exact hm

/-! ## Checksums that are right already -/

/-- The form of zero that a checksum is not given where the other would do. -/
def otherZero : Transport → Nat
  | .udp => 0
  | _ => 65535

/-- The checksums of a packet are right, and none of them is a zero in the form that it would not be
given. -/
structure Settled (b : Bytes) : Prop extends Verified b where
  headerZero : version b = .v4 → wordAt b 10 ≠ 65535
  transportZero : ∀ t, Transport.ofNumber? (protocol b) = some t →
    wordAt b (segmentStart b + offset t) ≠ otherZero t

/-- One's complement sums can be cancelled, but for the two forms of zero: a word that completes a
sum to all ones is the checksum that the sum calls for. -/
theorem ofSum_eq_of_foldCarries {sum : UInt16} {c : Nat} (hsum : sum.toNat = foldCarries n)
    (hc : c < 65536) (hones : foldCarries (n + c) = 65535) (hzero : c ≠ otherZero t) :
    (ofSum t sum).toNat = c := by
  have hpos : n + c ≠ 0 := fun h0 => by
    rw [foldCarries_eq_zero.2 h0] at hones
    cases hones
  have hmod := foldCarries_mod (n + c)
  rw [hones] at hmod
  rw [toNat_ofSum_eq hsum, complement, endAround_eq_foldCarries]
  unfold foldCarries
  cases t with
  | udp =>
      simp only [otherZero, true_and] at hzero ⊢
      split <;> split <;> omega
  | tcp | icmpv4 | icmpv6 =>
      simp only [otherZero, reduceCtorEq, false_and, if_false] at hzero ⊢
      split <;> omega

/-- A segment that verifies is filled in with the checksum that it has. -/
theorem fillSegment_self {pseudo : UInt16} (hp : pseudo.toNat = foldCarries n)
    (hs : offset t + 2 ≤ s.size) (hones : foldCarries (companion t n + s.total) = 65535)
    (hzero : wordAt s (offset t) ≠ otherZero t) : fillSegment t pseudo s = s := by
  have hblank := Bytes.total_write 0 (offset_even t) hs
  rw [← field_eq, field_eq, ← wordAt_eq_read, ← field_eq] at hblank
  have hlt : wordAt s (offset t) < 65536 := by
    rw [wordAt_eq_read]
    exact Field.read_lt _ s
  have hsum : (ofSum t (sumOf t pseudo s)).toNat = wordAt s (offset t) := by
    refine ofSum_eq_of_foldCarries (toNat_sumOf hp) hlt ?_ hzero
    rw [Nat.add_assoc, hblank, Nat.zero_mod, Nat.add_zero, hones]
  rw [fillSegment_eq, hsum, wordAt_eq_read, field_eq, Field.write_read]

/-- An IPv4 header that verifies is filled in with the checksum that it has. -/
theorem fillIpv4Header_self (hn : 20 ≤ n) (hs : n ≤ b.size)
    (hones : Bytes.wordSum (b.extract 0 n) = 0xffff) (hzero : wordAt b 10 ≠ 65535) :
    fillIpv4Header n b = b := by
  have hfield : Ipv4.Cell.checksum.field = ⟨8 * 10, 16⟩ := rfl
  have hsize : (b.extract 0 n).size = n := by
    rw [ByteArray.size_extract]
    omega
  have hwithin : (⟨8 * 10, 16⟩ : Field).Within n := by
    simp only [Field.Within]
    omega
  have hword : wordAt (b.extract 0 n) 10 = wordAt b 10 := by
    refine wordAt_congr ?_ ?_ <;> rw [Bytes.byte_extract, if_pos (by omega), Nat.zero_add]
  have hlt : wordAt b 10 < 65536 := by
    rw [wordAt_eq_read]
    exact Field.read_lt _ b
  have hblank := Bytes.total_write (b := b.extract 0 n) (i := 10) 0 rfl (by omega)
  rw [← wordAt_eq_read, hword] at hblank
  have hsum := ofSum_eq_of_foldCarries (t := .tcp)
    (Bytes.toNat_wordSum ((⟨8 * 10, 16⟩ : Field).write 0 (b.extract 0 n))) hlt
    (by rw [hblank, Nat.zero_mod, Nat.add_zero]; exact Bytes.wordSum_eq_ones.1 hones) hzero
  simp only [ofSum, reduceCtorEq, false_and, if_false] at hsum
  rw [fillIpv4Header, hfield, Field.extract_zero_write _ hwithin, hsum, wordAt_eq_read,
    Field.write_read]

/-- What a checksum is about adds up in two parts, of which ICMPv4 has only one. -/
theorem wordSum_covered_eq_ones (heven : (pseudoHeader b).size % 2 = 0) :
    (covered t b).wordSum = 0xffff ↔
      foldCarries (companion t (pseudoHeader b).total + (segment b).total) = 65535 := by
  rw [Bytes.wordSum_eq_ones]
  unfold covered companion
  split
  · rw [Nat.zero_add]
  · rw [Bytes.total_append heven]

/-- **Right checksums are left alone**, unless one of them is a zero in its other form. -/
theorem fill_of_settled (hok : (fill b).1 = .ok ()) (h : Settled b) : (fill b).2 = b := by
  rcases fill_cases b with ⟨hb, -, -⟩ | ⟨-, -, m, hm⟩ | ⟨-, m, hm⟩
  · obtain ⟨hstart, hend, hle⟩ := hb.start
    have hheader : filledHeader b = b := by
      unfold filledHeader
      cases hv : version b with
      | v4 =>
          have hlen : segmentStart b = Ipv4.headerLen b := by simp only [segmentStart, hv]
          exact fillIpv4Header_self (hlen ▸ hb.twenty_le) (hlen ▸ hle) (h.header hv)
            (h.headerZero hv)
      | v6 => rfl
    rw [fill_of_validHeader hb, hheader] at hok ⊢
    cases ht : Transport.ofNumber? (protocol b) with
    | none => simp only [fillFrom, ht]
    | some t =>
        obtain ⟨-, hroom, -⟩ := segment_of_fillFrom hok ht
        obtain ⟨heven, hpseudo⟩ :=
          toNat_pseudoSum_eq_pseudoHeader (Nat.le_trans hend hle) hb.fits
        have hword : wordAt (segment b) (offset t) = wordAt b (segmentStart b + offset t) := by
          refine wordAt_congr ?_ ?_
          · rw [segment, Bytes.byte_extract, if_pos (by omega)]
          · rw [segment, Bytes.byte_extract, if_pos (by omega), Nat.add_assoc]
        have hsegment : fillSegment t (pseudoSumOf b) (segment b) = segment b :=
          fillSegment_self hpseudo (by rw [size_segment]; exact hroom)
            ((wordSum_covered_eq_ones heven).1 (h.transport t ht))
            (by rw [hword]; exact h.transportZero t ht)
        have hself : b.overwrite (segmentStart b) (segment b) = b := Bytes.overwrite_extract b _ _
        simp only [fillFrom, ht]
        rw [← segment, hsegment, hself]
        split <;> rfl
  · rw [hm] at hok
    cases hok
  · rw [hm] at hok
    cases hok

/-- **Recomputing checksums is idempotent, forgets old ones and leaves right ones alone.** However
often it is done, the last time ends as the first did, with the same bytes. What the fields held
that it writes has no influence on its result, nor on the bytes if it succeeds. A packet that it
accepts and whose checksums are right, with no zero in the form that would not be chosen, is left
as it is. -/
theorem fill_idempotent :
    (∀ (b : Bytes) (k : Nat), fill ((fun x => (fill x).2)^[k] b) = fill b) ∧
      (∀ a b : Bytes, UpToChecksums a b →
        (fill a).1 = (fill b).1 ∧ ((fill b).1 = .ok () → (fill a).2 = (fill b).2)) ∧
      ∀ b : Bytes, (fill b).1 = .ok () → Settled b → (fill b).2 = b := by
  refine ⟨fun b k => ?_, fun a b h => ?_, fun b => fill_of_settled⟩
  · induction k generalizing b with
    | zero => rfl
    | succ k ih => rw [Function.iterate_succ_apply, ih, fill_fill]
  · obtain ⟨hfst, hsnd⟩ := fill_congr h
    exact ⟨hfst, fun hok => by rw [hsnd hok]⟩

/-- A UDP datagram over IPv4 with four bytes of payload, before its checksums are computed. -/
def unsummedDatagram : Bytes :=
  .ofList [69, 0, 0, 32, 28, 70, 64, 0, 64, 17, 0, 0, 10, 0, 0, 1, 10, 0, 0, 2,
    31, 144, 0, 53, 0, 12, 0, 0, 112, 105, 110, 103]

/-- Once computed, its checksums are right and stay as they are. -/
theorem fill_idempotent_unsummedDatagram :
    (fill unsummedDatagram).1 = .ok () ∧
      UpToChecksums (fill unsummedDatagram).2 unsummedDatagram ∧
      fill (fill unsummedDatagram).2 = (.ok (), (fill unsummedDatagram).2) ∧
      Settled (fill unsummedDatagram).2 ∧ (fill unsummedDatagram).2 ≠ unsummedDatagram := by
  have hok : (fill unsummedDatagram).1 = .ok () := rfl
  have hupto := upToChecksums_fill unsummedDatagram
  have hudp : Transport.ofNumber? (protocol (fill unsummedDatagram).2) = some .udp := by
    decide +kernel
  have hsettled : Settled (fill unsummedDatagram).2 := by
    refine ⟨⟨fun _ => by decide +kernel, fun t ht => ?_, fun _ => by decide +kernel⟩,
      fun _ => by decide +kernel, fun t ht => ?_⟩
    all_goals
      cases hudp.symm.trans ht
      decide +kernel
  have hfst : (fill (fill unsummedDatagram).2).1 = .ok () := by
    rw [(fill_idempotent.2.1 _ _ hupto).1, hok]
  exact ⟨hok, hupto, Prod.ext hfst (fill_idempotent.2.2 _ hfst hsettled), hsettled,
    by decide +kernel⟩

end Checksum

end Intercept
