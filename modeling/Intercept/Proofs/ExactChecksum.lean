import Intercept.Proofs.Checksum

set_option autoImplicit false

/-! # Recomputed checksums against exact sums

Checksums are defined (RFC 1071) by the one's complement sum of all the words that they are about,
the word that holds the checksum taken as zero. Here that sum is one natural number:
`headerChecksum` and `transportChecksum` lay the pseudo-header out as bytes, add everything up
exactly, bring the carries back in at the bottom until there are none, and take the complement.
They are functions of the packet as it comes, and owe nothing to how the sums are taken in pieces.

Recomputing the checksums of a packet puts exactly these numbers in their places, whatever the
places held, and touches nothing else (`fill_exact`). It succeeds exactly if the headers are well
formed, and otherwise leaves the packet as it was, except for an IPv4 packet that is at fault only
in its transport header: it keeps the checksum of the IP header, which is filled in first.

All of it rests on one reading of the code: with a valid header in front, recomputing is filling
in the segment, behind a header that for IPv4 has been filled in (`fill_of_validHeader`). -/

namespace Intercept

/-- Bring the carries of an exact sum back in at the bottom until there are none. -/
def endAround (n : Nat) : Nat :=
  if n < 65536 then n else endAround (n % 65536 + n / 65536)
decreasing_by omega

/-- However often that takes, the result is a residue modulo 65535. -/
theorem endAround_eq_foldCarries (n : Nat) : endAround n = foldCarries n := by
  induction n using endAround.induct with
  | case1 n h =>
      rw [endAround, if_pos h]
      unfold foldCarries
      split <;> omega
  | case2 n h ih =>
      -- 65536 is 1 more than the modulus, so a carry counts the same at the bottom
      rw [endAround, if_neg h, ih]
      exact foldCarries_congr (by omega) (by omega)

namespace Checksum

/-! ## The checksums that a packet should have -/

/-- The complement of an exact sum. -/
def complement (n : Nat) : Nat := 65535 - endAround n

/-- The word at two bytes of a byte string. -/
def wordAt (b : Bytes) (i : Nat) : Nat := 256 * (b.byte i).toNat + (b.byte (i + 1)).toNat

/-- A byte string with the word at two of its bytes made zero. -/
def zeroAt (i : Nat) (b : Bytes) : Bytes := (⟨8 * i, 16⟩ : Field).write 0 b

/-- The checksum for the IPv4 header of a packet. -/
def headerChecksum (b : Bytes) : Nat :=
  complement (zeroAt 10 (b.extract 0 (Ipv4.headerLen b))).total

/-- The checksum for the segment of a packet: over the pseudo-header as well, except for ICMPv4,
and never zero for UDP. -/
def transportChecksum (t : Transport) (b : Bytes) : Nat :=
  let c := complement
    ((if t = .icmpv4 then 0 else (pseudoHeader b).total) + (zeroAt (offset t) (segment b)).total)
  if t = .udp ∧ c = 0 then 65535 else c

/-- The IP header of a packet is valid, and for IPv4 the length of what is behind it fits the
pseudo-header. -/
structure ValidHeader (b : Bytes) : Prop where
  header : ∃ n, (version b).validate b = .ok n
  fits : version b = .v4 → (segment b).size ≤ 65535

/-- A packet of a known protocol does not have the header of that protocol. -/
def Misshapen (b : Bytes) : Prop :=
  ∃ t m, Transport.ofNumber? (protocol b) = some t ∧ checkSegment t (segment b) = .error m

/-- **Bytes with all their checksums filled in**: as many, the same wherever no checksum is held,
and with the checksums that they should have. -/
structure Filled (b r : Bytes) : Prop where
  size : r.size = b.size
  same : ∀ i, ¬ Covers b i → r.byte i = b.byte i
  header : version b = .v4 → wordAt r 10 = headerChecksum b
  transport : ∀ t, Transport.ofNumber? (protocol b) = some t →
    wordAt r (segmentStart b + offset t) = transportChecksum t b

/-- Bytes with nothing but the checksum of their IPv4 header filled in. -/
structure HeaderFilled (b r : Bytes) : Prop where
  size : r.size = b.size
  same : ∀ i, i ≠ 10 → i ≠ 11 → r.byte i = b.byte i
  header : wordAt r 10 = headerChecksum b

/-! ## The words that are written -/

theorem wordAt_eq_read (b : Bytes) (i : Nat) : wordAt b i = (⟨8 * i, 16⟩ : Field).read b :=
  (Field.read_word b i).symm

theorem wordAt_congr {a b : Bytes} {i j : Nat} (h0 : a.byte i = b.byte j)
    (h1 : a.byte (i + 1) = b.byte (j + 1)) : wordAt a i = wordAt b j := by
  rw [wordAt, wordAt, h0, h1]

/-- A word is found where it was written. -/
theorem wordAt_write {b : Bytes} {i v : Nat} (hv : v < 65536) (hs : i + 2 ≤ b.size) :
    wordAt ((⟨8 * i, 16⟩ : Field).write v b) i = v := by
  rw [wordAt_eq_read, Field.read_write_self v (by simp only [Field.Within]; omega)]
  exact Nat.mod_eq_of_lt hv

/-- The complement of a sum taken in pieces is that of the exact sum. -/
theorem toNat_not_eq_complement {s : UInt16} {n : Nat} (h : s.toNat = foldCarries n) :
    (~~~s).toNat = complement n := by
  rw [toNat_complement, h, complement, endAround_eq_foldCarries]

theorem toNat_ofSum_eq {t : Transport} {s : UInt16} {n : Nat} (h : s.toNat = foldCarries n) :
    (ofSum t s).toNat = if t = .udp ∧ complement n = 0 then 65535 else complement n := by
  have hzero : ~~~s = 0 ↔ complement n = 0 := by
    rw [← UInt16.toNat_inj, toNat_not_eq_complement h, UInt16.toNat_zero]
  simp only [ofSum, hzero]
  split
  · rfl
  · exact toNat_not_eq_complement h

/-- **The header gets the checksum of its exact sum.** -/
theorem wordAt_fillIpv4Header {b : Bytes} (hn : 20 ≤ Ipv4.headerLen b)
    (hs : Ipv4.headerLen b ≤ b.size) :
    wordAt (fillIpv4Header (Ipv4.headerLen b) b) 10 = headerChecksum b := by
  have hfield : Ipv4.Cell.checksum.field = ⟨8 * 10, 16⟩ := rfl
  have hwithin : (⟨8 * 10, 16⟩ : Field).Within (Ipv4.headerLen b) := by
    simp only [Field.Within]
    omega
  rw [fillIpv4Header, hfield, wordAt_write (UInt16.toNat_lt _) (by omega),
    Field.extract_zero_write _ hwithin]
  exact toNat_not_eq_complement (Bytes.toNat_wordSum _)

/-- **A segment gets the checksum of its exact sum**, added to that of its pseudo-header if it
has one. -/
theorem wordAt_fillSegment {t : Transport} {pseudo : UInt16} {s : Bytes} {n : Nat}
    (hp : pseudo.toNat = foldCarries n) (hs : offset t + 2 ≤ s.size) :
    wordAt (fillSegment t pseudo s) (offset t) =
      if t = .udp ∧ complement (companion t n + (zeroAt (offset t) s).total) = 0 then 65535
      else complement (companion t n + (zeroAt (offset t) s).total) := by
  have hsum : (sumOf t pseudo s).toNat =
      foldCarries (companion t n + (zeroAt (offset t) s).total) := by
    rw [toNat_sumOf hp, field_eq]
    rfl
  rw [fillSegment_eq, field_eq, wordAt_write (UInt16.toNat_lt _) hs]
  exact toNat_ofSum_eq hsum

/-! ## What recomputing does -/

/-- A packet whose IP header, if it has a checksum, is filled in. -/
def filledHeader (b : Bytes) : Bytes :=
  match version b with
  | .v4 => fillIpv4Header (Ipv4.headerLen b) b
  | .v6 => b

@[simp] theorem size_filledHeader (b : Bytes) : (filledHeader b).size = b.size := by
  unfold filledHeader
  split
  · exact size_fillIpv4Header ..
  · rfl

theorem byte_filledHeader {b : Bytes} {i : Nat} (h0 : i ≠ 10) (h1 : i ≠ 11) :
    (filledHeader b).byte i = b.byte i := by
  unfold filledHeader
  split
  · exact byte_fillIpv4Header _ b h0 h1
  · rfl

/-- A valid header ends where the segment starts, and has room for its checksum. -/
theorem ValidHeader.start {b : Bytes} (h : ValidHeader b) :
    (version b).validate b = .ok (segmentStart b) ∧ addressesEnd (version b) ≤ segmentStart b ∧
      segmentStart b ≤ b.size := by
  obtain ⟨n, hn⟩ := h.header
  unfold segmentStart
  cases hv : version b with
  | v4 =>
      rw [hv] at hn
      obtain ⟨-, rfl, hmin, hle⟩ := Ipv4.validate_eq_ok.1 hn
      exact ⟨hn, hmin, hle⟩
  | v6 =>
      rw [hv] at hn
      obtain ⟨-, rfl, hle⟩ := Ipv6.validate_eq_ok.1 hn
      exact ⟨hn, Nat.le_refl _, hle⟩

/-- Filling in the header does not touch the segment. -/
theorem ValidHeader.segment_filledHeader {b : Bytes} (h : ValidHeader b) :
    (filledHeader b).extract (segmentStart b) b.size = segment b := by
  obtain ⟨-, hend, -⟩ := h.start
  have h20 : 20 ≤ addressesEnd (version b) := by cases version b <;> decide
  exact Bytes.extract_congr (size_filledHeader b) fun i hi _ =>
    byte_filledHeader (by omega) (by omega)

/-- **Behind a valid header, recomputing is filling in the segment.** -/
theorem fill_of_validHeader {b : Bytes} (h : ValidHeader b) :
    fill b = fillFrom (segmentStart b) (protocol b) (pseudoSumOf b) (filledHeader b) := by
  have hstart := h.start.1
  have hfits := h.fits
  rw [size_segment] at hfits
  rw [fill_eq, pseudoSumOf, size_segment]
  unfold protocol addresses filledHeader segmentStart at *
  cases hv : version b with
  | v4 =>
      simp only [hv, IpVersion.validate] at hstart hfits ⊢
      rw [fillIpv4, hstart]
      simp only
      rw [if_neg (by have := hfits trivial; omega)]
  | v6 =>
      simp only [hv, IpVersion.validate] at hstart ⊢
      rw [fillIpv6, hstart]

/-- Without a valid header, recomputing fails and does nothing. -/
theorem fill_of_not_validHeader {b : Bytes} (h : ¬ ValidHeader b) :
    ∃ m, fill b = (.error m, b) := by
  rw [fill_eq]
  cases hv : version b with
  | v4 =>
      simp only
      cases hn : Ipv4.validate b with
      | error m => exact ⟨m, by rw [fillIpv4, hn]⟩
      | ok n =>
          refine ⟨.ipv4PseudoLen, ?_⟩
          obtain ⟨-, rfl, -⟩ := Ipv4.validate_eq_ok.1 hn
          have hlen : ¬ b.size - Ipv4.headerLen b ≤ 65535 := fun hle => h
            ⟨⟨_, by rw [hv]; exact hn⟩, fun _ => by simpa only [size_segment, segmentStart, hv]⟩
          rw [fillIpv4, hn]
          simp only
          rw [if_pos (by omega)]
  | v6 =>
      simp only
      cases hn : Ipv6.validate b with
      | error m => exact ⟨m, by rw [fillIpv6, hn]⟩
      | ok n => exact absurd ⟨⟨n, by rw [hv]; exact hn⟩, fun h4 => by rw [hv] at h4; cases h4⟩ h

/-- A segment is either filled in or found malformed, and then nothing is written. -/
theorem fillFrom_cases (start p : Nat) (pseudo : UInt16) (b : Bytes) :
    ((fillFrom start p pseudo b).1 = .ok () ∧ ∀ t m, Transport.ofNumber? p = some t →
        checkSegment t (b.extract start b.size) ≠ .error m) ∨
      ∃ t m, Transport.ofNumber? p = some t ∧
        checkSegment t (b.extract start b.size) = .error m ∧
          fillFrom start p pseudo b = (.error m, b) := by
  unfold fillFrom
  cases ht : Transport.ofNumber? p with
  | none => exact .inl ⟨rfl, fun t m h => by cases h⟩
  | some t =>
      simp only
      cases hc : checkSegment t (b.extract start b.size) with
      | ok u =>
          refine .inl ⟨rfl, fun t' m h => ?_⟩
          cases h
          rw [hc]
          exact nofun
      | error m => exact .inr ⟨t, m, rfl, hc, rfl⟩

/-- **What becomes of a packet**: everything is filled in, or the header alone, or nothing. -/
theorem fill_cases (b : Bytes) :
    (ValidHeader b ∧ ¬ Misshapen b ∧ (fill b).1 = .ok ()) ∨
      (ValidHeader b ∧ Misshapen b ∧ ∃ m, fill b = (.error m, filledHeader b)) ∨
        (¬ ValidHeader b ∧ ∃ m, fill b = (.error m, b)) := by
  by_cases h : ValidHeader b
  · have hcases := fillFrom_cases (segmentStart b) (protocol b) (pseudoSumOf b) (filledHeader b)
    rw [size_filledHeader, h.segment_filledHeader, ← fill_of_validHeader h] at hcases
    rcases hcases with ⟨hok, hshape⟩ | ⟨t, m, ht, hc, hfill⟩
    · exact .inl ⟨h, fun ⟨t, m, ht, hc⟩ => hshape t m ht hc, hok⟩
    · exact .inr (.inl ⟨h, ⟨t, m, ht, hc⟩, m, hfill⟩)
  · exact .inr (.inr ⟨h, fill_of_not_validHeader h⟩)

/-! ## What is filled in -/

/-- The header of a packet that is filled in has its checksum. -/
theorem ValidHeader.headerFilled {b : Bytes} (h : ValidHeader b) (hv : version b = .v4) :
    HeaderFilled b (filledHeader b) := by
  refine ⟨size_filledHeader b, fun i => byte_filledHeader, ?_⟩
  obtain ⟨hstart, -, -⟩ := h.start
  rw [hv] at hstart
  obtain ⟨-, -, hmin, hle⟩ := Ipv4.validate_eq_ok.1 hstart
  simp only [filledHeader, hv]
  exact wordAt_fillIpv4Header hmin hle

/-- The segment of a packet that is filled in has its checksum. -/
theorem wordAt_fill {b : Bytes} (hb : version b = .v6 → (segment b).size < 4294967296)
    (h : ValidHeader b) (hok : (fill b).1 = .ok ()) {t : Transport}
    (ht : Transport.ofNumber? (protocol b) = some t) :
    wordAt (fill b).2 (segmentStart b + offset t) = transportChecksum t b := by
  obtain ⟨-, hend, hle⟩ := h.start
  have hlimit : (segment b).size < segmentLimit (version b) := by
    cases hv : version b with
    | v4 => exact Nat.lt_succ_of_le (h.fits hv)
    | v6 => exact hb hv
  have hpseudo : (pseudoSumOf b).toNat = foldCarries (pseudoHeader b).total :=
    (toNat_pseudoSum_addresses (Nat.le_trans hend hle) hlimit).2
  have hsize : (fill b).2.size = b.size := size_fill b
  have hsegment := segment_of_fillFrom (fill_of_validHeader h ▸ hok) ht
  rw [size_filledHeader, h.segment_filledHeader, ← fill_of_validHeader h] at hsegment
  obtain ⟨-, hroom, hsegment⟩ := hsegment
  -- the two bytes are looked up in the segment, which is one that has been filled in
  have hword : wordAt (fill b).2 (segmentStart b + offset t) =
      wordAt ((fill b).2.extract (segmentStart b) b.size) (offset t) := by
    refine wordAt_congr ?_ ?_
    · rw [Bytes.byte_extract, if_pos (by omega)]
    · rw [Bytes.byte_extract, if_pos (by omega), Nat.add_assoc]
  rw [hword, hsegment, wordAt_fillSegment hpseudo (by rw [size_segment]; exact hroom)]
  rfl

/-- A packet whose checksums were all recomputed. -/
theorem ValidHeader.filled {b : Bytes} (hb : version b = .v6 → (segment b).size < 4294967296)
    (h : ValidHeader b) (hok : (fill b).1 = .ok ()) : Filled b (fill b).2 := by
  refine ⟨size_fill b, fun i => byte_fill, fun hv => ?_, fun t ht => wordAt_fill hb h hok ht⟩
  obtain ⟨-, hend, -⟩ := h.start
  rw [hv] at hend
  simp only [addressesEnd] at hend
  -- the segment lies behind the checksum of the header
  have hbehind : ∀ i < 20, (fill b).2.byte i = (filledHeader b).byte i := by
    intro i hi
    rw [fill_of_validHeader h]
    exact byte_fillFrom _ _ fun t _ => by omega
  rw [← (h.headerFilled hv).header]
  exact wordAt_congr (hbehind 10 (by omega)) (hbehind 11 (by omega))

/-- **Recomputed checksums are those of the exact sums, and nothing else is touched.** It succeeds
for packets whose headers are well formed. All checksums are filled in then, and if it fails, only
that of an IPv4 header whose transport header is at fault. The limit is that of the length in the
pseudo-header of an IPv6 packet. -/
theorem fill_exact {b : Bytes} (hb : version b = .v6 → (segment b).size < 4294967296) :
    ((fill b).1 = .ok () ↔ ValidHeader b ∧ ¬ Misshapen b) ∧
      (∀ r, fill b = (.ok (), r) → Filled b r) ∧
        ∀ m r, fill b = (.error m, r) →
          (version b = .v4 ∧ ValidHeader b ∧ Misshapen b → HeaderFilled b r) ∧
            (¬ (version b = .v4 ∧ ValidHeader b ∧ Misshapen b) → r = b) := by
  rcases fill_cases b with ⟨h, hshape, hok⟩ | ⟨h, hshape, m, hfill⟩ | ⟨h, m, hfill⟩
  · refine ⟨⟨fun _ => ⟨h, hshape⟩, fun _ => hok⟩, fun r hr => ?_, fun m r hr => ?_⟩
    · have hfilled := h.filled hb hok
      rwa [hr] at hfilled
    · rw [hr] at hok
      cases hok
  · refine ⟨⟨fun hok => ?_, fun hc => absurd hshape hc.2⟩, fun r hr => ?_, fun m' r hr => ?_⟩
    · rw [hfill] at hok
      cases hok
    · rw [hfill] at hr
      cases hr
    · rw [hfill] at hr
      cases hr
      refine ⟨fun hv => h.headerFilled hv.1, fun hv => ?_⟩
      -- the header of an IPv6 packet has no checksum
      cases hversion : version b with
      | v4 => exact absurd ⟨hversion, h, hshape⟩ hv
      | v6 => simp only [filledHeader, hversion]
  · refine ⟨⟨fun hok => ?_, fun hc => absurd hc.1 h⟩, fun r hr => ?_, fun m' r hr => ?_⟩
    · rw [hfill] at hok
      cases hok
    · rw [hfill] at hr
      cases hr
    · rw [hfill] at hr
      cases hr
      exact ⟨fun hv => absurd hv.2.1 h, fun _ => rfl⟩

/-- A UDP datagram over IPv6 with one byte of payload, whose words add up to all ones. -/
def oddDatagram : Bytes :=
  .ofList [96, 0, 0, 0, 0, 9, 17, 64, 0, 0, 0, 0, 0, 0, 0, 0, 0, 0, 0, 0, 0, 0, 0, 0,
    0, 0, 0, 0, 0, 0, 0, 0, 0, 0, 0, 0, 0, 0, 0, 0, 254, 167, 0, 53, 0, 9, 0, 0, 1]

/-- A checksum that would be zero is stored in its other form. -/
theorem fill_exact_oddDatagram :
    (version oddDatagram = .v6 ∧ (segment oddDatagram).size < 4294967296) ∧
      (fill oddDatagram).1 = .ok () ∧ Filled oddDatagram (fill oddDatagram).2 ∧
        transportChecksum .udp oddDatagram = 65535 := by
  have hsize : (segment oddDatagram).size < 4294967296 := by decide
  have hok : (fill oddDatagram).1 = .ok () := rfl
  have hfilled := (fill_exact fun _ => hsize).2.1 (fill oddDatagram).2 rfl
  refine ⟨⟨rfl, hsize⟩, hok, hfilled, ?_⟩
  rw [← hfilled.transport .udp rfl]
  decide +kernel

end Checksum

end Intercept
