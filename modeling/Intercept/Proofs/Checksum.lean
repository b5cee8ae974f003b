import Intercept.Checksum
import Intercept.Proofs.Header.Ip
import Intercept.Proofs.Header.Next
import Intercept.Proofs.WordSum

set_option autoImplicit false

/-! # What recomputed checksums are worth

`Checksum.Verified` says of the bytes of a packet that a receiver would accept its checksums. It is
put the way a receiver checks them, with the pseudo-header laid out as bytes: the IPv4 header adds
up to all ones, and so does the segment, together with the pseudo-header unless it is an ICMPv4
segment; and a UDP segment does not claim to have no checksum. `Checksum.Covers` says which bytes
hold a checksum.

Recomputing the checksums of a packet, if it succeeds, leaves one that verifies (`verified_fill`);
whether or not it succeeds, it changes no byte that holds no checksum (`byte_fill`). The argument
is one about exact sums: the checksum is written over a zero, adds its own value to the total, and
makes that a multiple of 65535. -/

namespace Intercept.Checksum

/-! ## Segments and pseudo-headers as bytes -/

/-- The version of the IP header that a packet starts with, if it is a packet at all. -/
def version (b : Bytes) : IpVersion := if Ipv4.version b = 6 then .v6 else .v4

/-- Where the IP header ends. -/
def segmentStart (b : Bytes) : Nat :=
  match version b with
  | .v4 => Ipv4.headerLen b
  | .v6 => Ipv6.headerLen

/-- The number of the protocol that follows the IP header. -/
def protocol (b : Bytes) : Nat :=
  match version b with
  | .v4 => Ipv4.get .protocol b
  | .v6 => Ipv6.get .nextHeader b

/-- Everything behind the IP header. -/
def segment (b : Bytes) : Bytes := b.extract (segmentStart b) b.size

/-- The two addresses in the IP header. -/
def addresses (b : Bytes) : Bytes :=
  match version b with
  | .v4 => b.extract 12 20
  | .v6 => b.extract 8 40

/-- The pseudo-header of a packet: the addresses, the length of the segment and the protocol, with
zeros to fill up. -/
def pseudoHeader (b : Bytes) : Bytes :=
  let n := (segment b).size
  let p := protocol b
  addresses b ++ Bytes.ofList ((match version b with
    | .v4 => [0, p, n / 256, n]
    | .v6 => [n / 16777216, n / 65536, n / 256, n, 0, 0, 0, p]).map UInt8.ofNat)

/-- The bytes that the checksum of a protocol is about. -/
def covered (t : Transport) (b : Bytes) : Bytes :=
  if t = .icmpv4 then segment b else pseudoHeader b ++ segment b

/-- **The checksums of a packet are right.** -/
structure Verified (b : Bytes) : Prop where
  header : version b = .v4 → Bytes.wordSum (b.extract 0 (Ipv4.headerLen b)) = 0xffff
  transport : ∀ t, Transport.ofNumber? (protocol b) = some t → (covered t b).wordSum = 0xffff
  udp : Transport.ofNumber? (protocol b) = some .udp → Udp.get .checksum (segment b) ≠ 0

/-- How far into its segment a protocol keeps its checksum. -/
def offset : Transport → Nat
  | .tcp => 16
  | .udp => 6
  | .icmpv4 => 2
  | .icmpv6 => 2

/-- A byte of a packet holds a checksum. -/
def Covers (b : Bytes) (i : Nat) : Prop :=
  (version b = .v4 ∧ (i = 10 ∨ i = 11)) ∨
    ∃ t, Transport.ofNumber? (protocol b) = some t ∧
      (i = segmentStart b + offset t ∨ i = segmentStart b + offset t + 1)

theorem field_eq (t : Transport) : field t = ⟨8 * offset t, 16⟩ := by
  cases t <;> rfl

theorem offset_even (t : Transport) : offset t % 2 = 0 := by
  cases t <;> rfl

/-! ## Sums of pseudo-headers -/

/-- The sum of a pseudo-header is taken without laying it out. -/
theorem toNat_pseudoSum (addresses : Bytes) (n p : Nat) :
    (pseudoSum addresses n p).toNat =
      foldCarries (addresses.total + n / 65536 % 65536 + n % 65536 + p % 65536) := by
  simp only [pseudoSum, toNat_addCarry_eq_foldCarries, Bytes.toNat_wordSum, foldCarries_add,
    UInt16.toNat_ofNat']

theorem protocol_lt (b : Bytes) : protocol b < 256 := by
  unfold protocol
  split
  · exact Ipv4.Cell.protocol.field.read_lt b
  · exact Ipv6.Cell.nextHeader.field.read_lt b

/-- How long a segment a pseudo-header can state the length of. -/
def segmentLimit : IpVersion → Nat
  | .v4 => 65536
  | .v6 => 4294967296

/-- How many bytes there have to be for the addresses to be in place. -/
def addressesEnd : IpVersion → Nat
  | .v4 => 20
  | .v6 => 40

/-- A pseudo-header has an even number of bytes, and they add up to what is taken for their sum. Of
a length that takes more than four bytes both cut off the same. -/
theorem toNat_pseudoSum_eq_pseudoHeader {b : Bytes} (hs : addressesEnd (version b) ≤ b.size)
    (hn : version b = .v4 → (segment b).size ≤ 65535) :
    (pseudoHeader b).size % 2 = 0 ∧
      (pseudoSum (addresses b) (segment b).size (protocol b)).toNat =
        foldCarries (pseudoHeader b).total := by
  have hp := protocol_lt b
  rw [toNat_pseudoSum]
  unfold pseudoHeader addresses
  generalize protocol b = p at hp ⊢
  generalize (segment b).size = n at hn ⊢
  -- the length takes one word of the pseudo-header in the one version and two in the other
  cases hv : version b with
  | v4 =>
      simp only [hv, addressesEnd, forall_const] at hs hn ⊢
      have haddr : (b.extract 12 20).size = 8 := by
        rw [ByteArray.size_extract]
        omega
      rw [ByteArray.size_append, Bytes.total_append (by omega), haddr]
      simp only [Bytes.size_ofList, List.length_cons, List.length_nil, Bytes.total,
        Bytes.toList_ofList, List.map_cons, List.map_nil, wordTotal, UInt8.toNat_ofNat']
      exact ⟨trivial, congrArg foldCarries (by omega)⟩
  | v6 =>
      simp only [hv, addressesEnd] at hs ⊢
      have haddr : (b.extract 8 40).size = 32 := by
        rw [ByteArray.size_extract]
        omega
      rw [ByteArray.size_append, Bytes.total_append (by omega), haddr]
      simp only [Bytes.size_ofList, List.length_cons, List.length_nil, Bytes.total,
        Bytes.toList_ofList, List.map_cons, List.map_nil, wordTotal, UInt8.toNat_ofNat']
      exact ⟨trivial, congrArg foldCarries (by omega)⟩

/-- Within the limit, no length is cut off. -/
theorem toNat_pseudoSum_addresses {b : Bytes} (hs : addressesEnd (version b) ≤ b.size)
    (hn : (segment b).size < segmentLimit (version b)) :
    (pseudoHeader b).size % 2 = 0 ∧
      (pseudoSum (addresses b) (segment b).size (protocol b)).toNat =
        foldCarries (pseudoHeader b).total := by
  refine toNat_pseudoSum_eq_pseudoHeader hs fun hv => ?_
  rw [hv] at hn
  exact Nat.le_of_lt_succ hn

/-! ## Segments -/

theorem toNat_complement (s : UInt16) : (~~~s).toNat = 65535 - s.toNat := by
  rw [UInt16.toNat_not]
  rfl

/-- The checksum completes the sum it is taken of to a multiple of 65535, and is zero only if that
sum is not. -/
theorem toNat_ofSum (t : Transport) (s : UInt16) :
    (s.toNat + (ofSum t s).toNat) % 65535 = 0 ∧ (s.toNat = 0 → (ofSum t s).toNat = 65535) ∧
      (t = .udp → (ofSum t s).toNat ≠ 0) ∧ (ofSum t s).toNat < 65536 := by
  have hs := s.toNat_lt
  have hc := toNat_complement s
  have hzero : ~~~s = 0 ↔ s.toNat = 65535 := by
    rw [← UInt16.toNat_inj, hc, UInt16.toNat_zero]
    omega
  unfold ofSum
  split
  · next h =>
      have := hzero.1 h.2
      simp only [UInt16.reduceToNat]
      omega
  · next h =>
      refine ⟨by omega, by omega, fun ht h0 => h ⟨ht, ?_⟩, by omega⟩
      rw [hzero]
      omega

@[simp] theorem size_fillSegment (t : Transport) (pseudo : UInt16) (s : Bytes) :
    (fillSegment t pseudo s).size = s.size := Field.size_write ..

theorem byte_fillSegment {t : Transport} (pseudo : UInt16) (s : Bytes) {i : Nat}
    (h0 : i ≠ offset t) (h1 : i ≠ offset t + 1) :
    (fillSegment t pseudo s).byte i = s.byte i := by
  simp only [fillSegment, field_eq]
  exact Field.byte_write_of_outside (by simp only; omega)

/-- A sum and its checksum fold to all ones. -/
theorem foldCarries_ofSum {t : Transport} {s : UInt16} {n : Nat} (h : s.toNat = foldCarries n) :
    foldCarries (n + (ofSum t s).toNat) = 65535 := by
  obtain ⟨hmod, hzero, -, -⟩ := toNat_ofSum t s
  refine foldCarries_eq_ones ?_ fun h0 => ?_
  · rw [Nat.add_mod, ← foldCarries_mod n, ← h, ← Nat.add_mod]
    exact hmod
  -- the sum of nothing has a checksum of all ones, so the two are never both zero
  · have hn : n = 0 := by omega
    rw [foldCarries_eq_zero.2 hn] at h
    have := hzero h
    omega

/-- The exact sum that the sum of a segment is added to: that of its pseudo-header, if it has
one. -/
def companion (t : Transport) (pseudo : Nat) : Nat := if t = .icmpv4 then 0 else pseudo

/-- The sum that the checksum of a segment is taken of. -/
def sumOf (t : Transport) (pseudo : UInt16) (segment : Bytes) : UInt16 :=
  let blank := (field t).write 0 segment
  if t = .icmpv4 then blank.wordSum else addCarry blank.wordSum pseudo

theorem toNat_sumOf {t : Transport} {pseudo : UInt16} {s : Bytes} {n : Nat}
    (hp : pseudo.toNat = foldCarries n) :
    (sumOf t pseudo s).toNat =
      foldCarries (companion t n + Bytes.total ((field t).write 0 s)) := by
  simp only [sumOf, companion]
  split
  · rw [Bytes.toNat_wordSum, Nat.zero_add]
  · rw [toNat_addCarry_eq_foldCarries, Bytes.toNat_wordSum, hp, foldCarries_add, Nat.add_comm,
      foldCarries_add]

theorem fillSegment_eq (t : Transport) (pseudo : UInt16) (s : Bytes) :
    fillSegment t pseudo s = (field t).write (ofSum t (sumOf t pseudo s)).toNat s := rfl

/-- **A segment that has been filled in adds up to all ones**, with its pseudo-header if it has
one. -/
theorem foldCarries_fillSegment {t : Transport} {pseudo : UInt16} {s : Bytes} {n : Nat}
    (hp : pseudo.toNat = foldCarries n) (hs : offset t + 2 ≤ s.size) :
    foldCarries (companion t n + (fillSegment t pseudo s).total) = 65535 := by
  have hfilled := Bytes.total_write (ofSum t (sumOf t pseudo s)).toNat (offset_even t) hs
  have hblank := Bytes.total_write 0 (offset_even t) hs
  rw [← field_eq] at hfilled hblank
  obtain ⟨-, -, -, hlt⟩ := toNat_ofSum t (sumOf t pseudo s)
  rw [Nat.mod_eq_of_lt hlt, ← fillSegment_eq] at hfilled
  -- against the segment as it came, whose old checksum drops out
  have htotal : (fillSegment t pseudo s).total =
      Bytes.total ((field t).write 0 s) + (ofSum t (sumOf t pseudo s)).toNat := by omega
  rw [htotal, ← Nat.add_assoc]
  exact foldCarries_ofSum (toNat_sumOf hp)

/-- A UDP segment that has been filled in claims to have a checksum. -/
theorem read_fillSegment_udp {pseudo : UInt16} {s : Bytes} (hs : 8 ≤ s.size) :
    Udp.get .checksum (fillSegment .udp pseudo s) ≠ 0 := by
  obtain ⟨-, -, hne, hlt⟩ := toNat_ofSum .udp (sumOf .udp pseudo s)
  have hread : Udp.get .checksum (fillSegment .udp pseudo s) =
      (ofSum .udp (sumOf .udp pseudo s)).toNat % 65536 :=
    Field.read_write_self (f := Udp.Cell.checksum.field) _ (by
      unfold Field.Within Udp.Cell.field
      simp only
      omega)
  rw [hread, Nat.mod_eq_of_lt hlt]
  exact hne rfl

/-! ## The header -/

/-- **An IPv4 header that has been filled in adds up to all ones.** -/
theorem wordSum_fillIpv4Header {n : Nat} {b : Bytes} (hn : 20 ≤ n) (hs : n ≤ b.size) :
    Bytes.wordSum ((fillIpv4Header n b).extract 0 n) = 0xffff := by
  have hsize : (b.extract 0 n).size = n := by
    rw [ByteArray.size_extract]
    omega
  have hwithin : Ipv4.Cell.checksum.field.Within n := by
    simp only [Field.Within, Ipv4.Cell.field]
    omega
  simp only [fillIpv4Header, Field.extract_zero_write _ hwithin]
  have hsum := Bytes.toNat_wordSum (Ipv4.Cell.checksum.field.write 0 (b.extract 0 n))
  generalize Bytes.wordSum (Ipv4.Cell.checksum.field.write 0 (b.extract 0 n)) = c at hsum ⊢
  have hfilled := Bytes.total_write (b := b.extract 0 n) (i := 10) (~~~c).toNat rfl (by omega)
  have hblank := Bytes.total_write (b := b.extract 0 n) (i := 10) 0 rfl (by omega)
  have hlt := (~~~c).toNat_lt
  rw [Bytes.wordSum_eq_ones]
  have htotal : Bytes.total (Ipv4.Cell.checksum.field.write (~~~c).toNat (b.extract 0 n)) =
      Bytes.total (Ipv4.Cell.checksum.field.write 0 (b.extract 0 n)) + (~~~c).toNat := by
    change Bytes.total ((⟨8 * 10, 16⟩ : Field).write _ _) =
      Bytes.total ((⟨8 * 10, 16⟩ : Field).write _ _) + _
    omega
  rw [htotal]
  -- as for every protocol that lets a checksum be zero
  exact foldCarries_ofSum (t := .tcp) hsum

/-! ## Which bytes are written -/

theorem byte_fillIpv4Header (n : Nat) (b : Bytes) {i : Nat} (h0 : i ≠ 10) (h1 : i ≠ 11) :
    (fillIpv4Header n b).byte i = b.byte i := by
  simp only [fillIpv4Header]
  exact Field.byte_write_of_outside (by simp only [Ipv4.Cell.field]; omega)

theorem byte_fillFrom {start p : Nat} (pseudo : UInt16) (b : Bytes) {i : Nat}
    (h : ∀ t, Transport.ofNumber? p = some t → i ≠ start + offset t ∧ i ≠ start + offset t + 1) :
    (fillFrom start p pseudo b).2.byte i = b.byte i := by
  unfold fillFrom
  split
  · rfl
  · next t ht =>
      obtain ⟨h0, h1⟩ := h t ht
      simp only
      split
      · rfl
      · simp only
        rw [Bytes.byte_overwrite, size_fillSegment]
        split
        · next hin =>
            rw [byte_fillSegment pseudo _ (by omega) (by omega), Bytes.byte_extract,
              Nat.add_sub_cancel' hin.2.1]
            split
            · rfl
            · exact (Bytes.byte_of_size_le (by omega)).symm
        · rfl

/-- Filling in the checksum of a segment leaves the header in front of it alone. -/
theorem extract_fillFrom (start p : Nat) (pseudo : UInt16) (b : Bytes) :
    (fillFrom start p pseudo b).2.extract 0 start = b.extract 0 start := by
  refine Bytes.extract_congr (size_fillFrom ..) fun i _ hi => ?_
  exact byte_fillFrom pseudo b fun t _ => by omega

theorem fill_eq (b : Bytes) :
    fill b = match version b with
      | .v4 => fillIpv4 b
      | .v6 => fillIpv6 b := by
  unfold fill version
  by_cases h : Ipv4.version b = 6
  · have hs : 0 < b.size := by
      -- no byte at all would read as version 0
      rcases Nat.eq_zero_or_pos b.size with h0 | h0
      · have hz : Ipv4.version b = Ipv4.version (Bytes.zeros 0) := by
          refine Ipv4.version_congr ?_
          rw [Bytes.byte_of_size_le (by omega), Bytes.byte_zeros]
        rw [h] at hz
        exact absurd hz (by decide)
      · exact h0
    rw [if_pos ⟨hs, h⟩, if_pos h]
  · rw [if_neg (fun hh => h hh.2), if_neg h]

/-- **Recomputing checksums changes no byte that holds no checksum**, whether it succeeds or
not. -/
theorem byte_fill {b : Bytes} {i : Nat} (h : ¬ Covers b i) : (fill b).2.byte i = b.byte i := by
  unfold Covers at h
  rw [not_or, not_exists] at h
  obtain ⟨hheader, hsegment⟩ := h
  have hsegment : ∀ t, Transport.ofNumber? (protocol b) = some t →
      i ≠ segmentStart b + offset t ∧ i ≠ segmentStart b + offset t + 1 := fun t ht =>
    not_or.1 fun hh => hsegment t ⟨ht, hh⟩
  rw [fill_eq]
  unfold protocol segmentStart at hsegment
  cases hv : version b with
  | v4 =>
      simp only [hv, true_and] at hheader hsegment ⊢
      unfold fillIpv4
      split
      · rfl
      · next n hn =>
          obtain ⟨-, rfl, -, -⟩ := Ipv4.validate_eq_ok.1 hn
          simp only
          split
          · rfl
          · rw [byte_fillFrom _ _ hsegment, byte_fillIpv4Header] <;> omega
  | v6 =>
      simp only [hv] at hsegment ⊢
      unfold fillIpv6
      split
      · rfl
      · next n hn =>
          obtain ⟨-, rfl, -⟩ := Ipv6.validate_eq_ok.1 hn
          exact byte_fillFrom _ _ hsegment

/-! ## What is filled in verifies -/

/-- A segment whose checksum could be filled in has room for it, and is found filled in. -/
theorem segment_of_fillFrom {start p : Nat} {pseudo : UInt16} {b : Bytes} {t : Transport}
    (h : (fillFrom start p pseudo b).1 = .ok ()) (hp : Transport.ofNumber? p = some t) :
    8 ≤ b.size - start ∧ offset t + 2 ≤ b.size - start ∧
      (fillFrom start p pseudo b).2.extract start b.size =
        fillSegment t pseudo (b.extract start b.size) := by
  have hsize : (b.extract start b.size).size = b.size - start := by
    rw [ByteArray.size_extract]
    omega
  unfold fillFrom at h ⊢
  rw [hp] at h ⊢
  simp only at h ⊢
  cases hc : checkSegment t (b.extract start b.size) with
  | error m =>
      rw [hc] at h
      cases h
  | ok u =>
      have hroom : 8 ≤ b.size - start ∧ offset t + 2 ≤ b.size - start := by
        -- all checksums but that of TCP, which has a longer header, are in the first eight bytes
        cases t with
        | tcp =>
            obtain ⟨n, hn, -⟩ := Except.map_eq_ok.1 hc
            obtain ⟨-, hmin, hlen⟩ := Tcp.validate_eq_ok.1 hn
            simp only [Tcp.minHeaderLen] at hmin
            simp only [offset]
            omega
        | _ =>
            simp only [checkSegment] at hc
            split_ifs at hc
            simp only [offset]
            omega
      refine ⟨hroom.1, hroom.2, ?_⟩
      have hfit : start + (fillSegment t pseudo (b.extract start b.size)).size = b.size := by
        rw [size_fillSegment, hsize]
        omega
      have hself := Bytes.extract_overwrite_self (Nat.le_of_eq hfit)
      rwa [hfit] at hself

/-- The bytes a checksum is about add up to all ones once the segment is filled in. -/
theorem wordSum_covered {t : Transport} {pseudo : UInt16} {b s : Bytes}
    (heven : (pseudoHeader b).size % 2 = 0)
    (hp : pseudo.toNat = foldCarries (pseudoHeader b).total) (hs : offset t + 2 ≤ s.size)
    (hb : segment b = fillSegment t pseudo s) : (covered t b).wordSum = 0xffff := by
  have h := foldCarries_fillSegment hp hs
  unfold companion at h
  rw [Bytes.wordSum_eq_ones]
  unfold covered
  split
  · next ht =>
      rw [if_pos ht, Nat.zero_add] at h
      rw [hb, h]
  · next ht =>
      rw [if_neg ht] at h
      rw [Bytes.total_append heven, hb, h]

/-! ## What a checksum is about is not written -/

theorem size_segment (b : Bytes) : (segment b).size = b.size - segmentStart b := by
  rw [segment, ByteArray.size_extract]
  omega

/-- Two packets have the same header, apart from its checksum. -/
structure SameHeader (a b : Bytes) : Prop where
  size : a.size = b.size
  version : version a = version b
  start : segmentStart a = segmentStart b
  protocol : protocol a = protocol b
  addresses : addresses a = addresses b

theorem SameHeader.size_segment {a b : Bytes} (h : SameHeader a b) :
    (segment a).size = (segment b).size := by
  rw [Checksum.size_segment, Checksum.size_segment, h.size, h.start]

theorem sameHeader_v4 {a b : Bytes} (hv : version b = .v4) (hs : a.size = b.size)
    (h : ∀ i < 20, i ≠ 10 → i ≠ 11 → a.byte i = b.byte i) : SameHeader a b := by
  have hversion : version a = version b := by
    unfold version
    rw [Ipv4.version_congr (h 0 (by omega) (by omega) (by omega))]
  refine ⟨hs, hversion, ?_, ?_, ?_⟩
  · simp only [segmentStart, hversion, hv]
    exact Ipv4.headerLen_congr (h 0 (by omega) (by omega) (by omega))
  · simp only [protocol, hversion, hv]
    refine Field.read_congr_byte fun i h1 h2 => ?_
    simp only [Ipv4.Cell.field] at h1 h2
    exact h i (by omega) (by omega) (by omega)
  · simp only [addresses, hversion, hv]
    exact Bytes.extract_congr hs fun i h1 h2 => h i (by omega) (by omega) (by omega)

theorem sameHeader_v6 {a b : Bytes} (hv : version b = .v6) (hs : a.size = b.size)
    (h : ∀ i < 40, a.byte i = b.byte i) : SameHeader a b := by
  have hversion : version a = version b := by
    unfold version
    rw [Ipv4.version_congr (h 0 (by omega))]
  refine ⟨hs, hversion, ?_, ?_, ?_⟩
  · simp only [segmentStart, hversion, hv]
  · simp only [protocol, hversion, hv]
    refine Field.read_congr_byte fun i h1 h2 => ?_
    simp only [Ipv6.Cell.field] at h1 h2
    exact h i (by omega)
  · simp only [addresses, hversion, hv]
    exact Bytes.extract_congr hs fun i h1 h2 => h i (by omega)

/-! ## Whole packets -/

/-- The sum that a segment is filled in with. -/
def pseudoSumOf (b : Bytes) : UInt16 := pseudoSum (addresses b) (segment b).size (protocol b)

theorem fillIpv4_eq_ok {b r : Bytes} (hv : version b = .v4) (h : fillIpv4 b = (.ok (), r)) :
    20 ≤ Ipv4.headerLen b ∧ Ipv4.headerLen b ≤ b.size ∧ (segment b).size < 65536 ∧
      fillFrom (segmentStart b) (protocol b) (pseudoSumOf b)
        (fillIpv4Header (Ipv4.headerLen b) b) = (.ok (), r) := by
  unfold fillIpv4 at h
  split at h
  · cases h
  · next n hn =>
      obtain ⟨-, rfl, hmin, hle⟩ := Ipv4.validate_eq_ok.1 hn
      have hstart : segmentStart b = Ipv4.headerLen b := by simp only [segmentStart, hv]
      simp only at h
      split at h
      · cases h
      · next hlen =>
          refine ⟨hmin, hle, by rw [size_segment, hstart]; omega, ?_⟩
          rw [← h, pseudoSumOf, size_segment, hstart]
          simp only [protocol, addresses, hv]

theorem fillIpv6_eq_ok {b r : Bytes} (hv : version b = .v6) (h : fillIpv6 b = (.ok (), r)) :
    40 ≤ b.size ∧
      fillFrom (segmentStart b) (protocol b) (pseudoSumOf b) b = (.ok (), r) := by
  unfold fillIpv6 at h
  split at h
  · cases h
  · next n hn =>
      obtain ⟨-, rfl, hle⟩ := Ipv6.validate_eq_ok.1 hn
      have hstart : segmentStart b = Ipv6.headerLen := by simp only [segmentStart, hv]
      refine ⟨hle, ?_⟩
      rw [← h, pseudoSumOf, size_segment, hstart]
      simp only [protocol, addresses, hv]

/-- Once the header is right, filling in the segment with the sum of the pseudo-header makes all
checksums right. -/
theorem verified_of_fillFrom {a b r : Bytes}
    (h : fillFrom (segmentStart b) (protocol b) (pseudoSumOf b) a = (.ok (), r))
    (hr : SameHeader r b) (ha : a.size = b.size) (hs : addressesEnd (version b) ≤ b.size)
    (hn : (segment b).size < segmentLimit (version b))
    (hheader : version b = .v4 → Bytes.wordSum (r.extract 0 (Ipv4.headerLen r)) = 0xffff) :
    Verified r := by
  have hok : (fillFrom (segmentStart b) (protocol b) (pseudoSumOf b) a).1 = .ok () := by rw [h]
  have hsegment : ∀ t, Transport.ofNumber? (protocol r) = some t →
      8 ≤ a.size - segmentStart b ∧ offset t + 2 ≤ a.size - segmentStart b ∧
        segment r = fillSegment t (pseudoSumOf b) (a.extract (segmentStart b) a.size) := by
    intro t ht
    rw [hr.protocol] at ht
    have hfill := segment_of_fillFrom hok ht
    rw [h] at hfill
    rwa [segment, hr.start, hr.size, ← ha]
  have hsize : (a.extract (segmentStart b) a.size).size = a.size - segmentStart b := by
    rw [ByteArray.size_extract]
    omega
  refine ⟨fun hv => hheader (hr.version ▸ hv), fun t ht => ?_, fun ht => ?_⟩
  · obtain ⟨-, hoff, hseg⟩ := hsegment t ht
    obtain ⟨heven, hp⟩ := toNat_pseudoSum_addresses (b := r)
      (by rw [hr.version, hr.size]; exact hs) (by rw [hr.version, hr.size_segment]; exact hn)
    rw [hr.addresses, hr.size_segment, hr.protocol] at hp
    exact wordSum_covered heven hp (by rw [hsize]; exact hoff) hseg
  · obtain ⟨h8, -, hseg⟩ := hsegment .udp ht
    rw [hseg]
    exact read_fillSegment_udp (by rw [hsize]; exact h8)

/-- **Recomputed checksums verify.** The limit is that of the length in the pseudo-header of an
IPv6 packet. -/
theorem verified_fill {b r : Bytes} (h : fill b = (.ok (), r)) (hb : b.size < 4294967296) :
    Verified r := by
  have hsize : r.size = b.size := by
    have := size_fill b
    rwa [h] at this
  have hbyte : ∀ i, ¬ Covers b i → r.byte i = b.byte i := fun i hi => by
    have := byte_fill hi
    rwa [h] at this
  rw [fill_eq] at h
  cases hv : version b with
  | v4 =>
      simp only [hv] at h
      obtain ⟨hmin, hle, hn, hfill⟩ := fillIpv4_eq_ok hv h
      have hstart : segmentStart b = Ipv4.headerLen b := by simp only [segmentStart, hv]
      have hsame : SameHeader r b := by
        refine sameHeader_v4 hv hsize fun i hi h0 h1 => hbyte i ?_
        rintro (⟨-, hc⟩ | ⟨t, -, hc⟩) <;> omega
      refine verified_of_fillFrom hfill hsame (size_fillIpv4Header ..)
        (by rw [hv]; exact Nat.le_trans hmin hle) (by rw [hv]; exact hn) fun _ => ?_
      have hlen : Ipv4.headerLen r = Ipv4.headerLen b := by
        have := hsame.start
        rw [hstart] at this
        simpa only [segmentStart, hsame.version, hv] using this
      -- the segment is filled in last, and leaves the header as it was filled in
      have hprefix : r.extract 0 (Ipv4.headerLen b) =
          (fillIpv4Header (Ipv4.headerLen b) b).extract 0 (Ipv4.headerLen b) := by
        have hkept := extract_fillFrom (segmentStart b) (protocol b) (pseudoSumOf b)
          (fillIpv4Header (Ipv4.headerLen b) b)
        rwa [hfill, hstart] at hkept
      rw [hlen, hprefix]
      exact wordSum_fillIpv4Header hmin hle
  | v6 =>
      simp only [hv] at h
      obtain ⟨hle, hfill⟩ := fillIpv6_eq_ok hv h
      have hstart : segmentStart b = 40 := by simp only [segmentStart, hv, Ipv6.headerLen]
      have hsame : SameHeader r b := by
        refine sameHeader_v6 hv hsize fun i hi => hbyte i ?_
        rintro (⟨hc, -⟩ | ⟨t, -, hc⟩)
        · rw [hv] at hc
          cases hc
        · omega
      refine verified_of_fillFrom hfill hsame rfl (by rw [hv]; exact hle) ?_ fun hc => ?_
      · rw [hv, size_segment, segmentLimit]
        omega
      · rw [hv] at hc
        cases hc

/-- Bytes with their checksums renewed: as many, the same wherever no checksum is held, and with
checksums that are right. -/
structure Renews (b r : Bytes) : Prop where
  size : r.size = b.size
  same : ∀ i, ¬ Covers b i → r.byte i = b.byte i
  verified : Verified r

theorem renews_fill {b r : Bytes} (h : fill b = (.ok (), r)) (hb : b.size < 4294967296) :
    Renews b r := by
  have hr : (fill b).2 = r := by rw [h]
  exact ⟨by rw [← hr, size_fill], fun i hi => by rw [← hr, byte_fill hi], verified_fill h hb⟩

end Intercept.Checksum
