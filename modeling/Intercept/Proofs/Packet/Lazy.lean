import Intercept.Proofs.Packet.Current
import Intercept.Proofs.Packet.ReadOnly
import Intercept.Proofs.StableChecksum

set_option autoImplicit false

/-! # When the headers are looked for does not matter

The headers of a packet are looked for when an operation first needs them. A packet whose headers
have been looked for before that (`Packet.located`) answers every operation as the packet would
have, but for a listing, which shows what is remembered, and becomes what the packet becomes, again
but for what is remembered (`Reads.run`).

Only two things happen to bytes before the headers are found: nothing, and the recomputing of
checksums. The second is why this has to be proved. Checksums lie beside all that is looked at when
headers are found, so the same layout is found before and after (`Layout.parse_fill`), and if none
is found, for the same reason. -/

namespace Intercept

/-! ## Finding headers in bytes whose checksums were recomputed -/

/-- Whether a header is there depends on how many bytes there are and, for TCP, on the data
offset. -/
theorem NextHeader.ofBytes_congr {α : Type} {n : Nat} {a b : Bytes} (c : α)
    (hs : a.size = b.size)
    (h : Transport.ofNumber? n = some .tcp → a.byte 12 = b.byte 12) :
    (ofBytes n a).map (fun _ => c) = (ofBytes n b).map fun _ => c := by
  unfold ofBytes
  cases ht : Transport.ofNumber? n with
  | none => rfl
  | some t =>
      cases t with
      | tcp =>
          simp only
          rw [Tcp.validate_congr hs (h ht)]
          cases Tcp.validate b <;> rfl
      | udp =>
          simp only [Udp.header, Udp.validate, hs]
          split <;> rfl
      | icmpv4 =>
          simp only [Icmp.header, Icmp.validate, hs]
          split <;> rfl
      | icmpv6 =>
          simp only [Icmp.header, Icmp.validate, hs]
          split <;> rfl

/-- The version that a header was found with is the one that checksums are computed for. -/
theorem Checksum.version_of_validate {b : Bytes} {v : IpVersion} {n : Nat}
    (h : v.validate b = .ok n) : version b = v := by
  unfold version
  rw [IpVersion.version_of_validate h]
  cases v <;> rfl

/-- The IP header that is found is the one that checksums are computed for. -/
theorem IpHeader.ofBytes_of_validate {b : Bytes} {n : Nat}
    (h : (Checksum.version b).validate b = .ok n) :
    ∃ ip, ofBytes b = .ok ip ∧ ip.version = Checksum.version b ∧
      ip.headerLen = Checksum.segmentStart b ∧ ip.nextProtocol = Checksum.protocol b := by
  obtain ⟨ip, hip, hv, hn⟩ := exists_ofBytes h
  have hstart := Packet.segmentStart_of_validate h
  have hbytes := (ofBytes_eq_ok hip).2
  have hpos := IpVersion.validate_pos h
  have hmin : Checksum.version b = .v6 → n = 40 := fun hv => by
    rw [hv] at h
    exact (Ipv6.validate_eq_ok.1 h).2.1
  refine ⟨ip, hip, hv, hn.trans hstart.symm, ?_⟩
  rw [hn] at hbytes
  unfold Checksum.protocol
  -- the protocol field lies within the header, wherever that is cut
  cases ip with
  | v4 x =>
      rw [← hv]
      simp only [bytes] at hbytes
      rw [hbytes]
      refine Field.read_congr_byte fun i h1 h2 => ?_
      simp only [Ipv4.Cell.field] at h1 h2
      rw [Bytes.byte_extract, if_pos (by omega), Nat.zero_add]
  | v6 x =>
      have hforty := hmin hv.symm
      rw [← hv]
      simp only [bytes] at hbytes
      rw [hbytes]
      refine Field.read_congr_byte fun i h1 h2 => ?_
      simp only [Ipv6.Cell.field] at h1 h2
      rw [Bytes.byte_extract, if_pos (by omega), Nat.zero_add]

/-- Recomputing checksums leaves all of the IP header but its checksum alone. -/
theorem Checksum.sameHeader_fill {b : Bytes} (h : ValidHeader b) :
    SameHeader (fill b).2 b := (upToChecksums_fill b).sameHeader h

namespace Layout

/-- Behind a valid IP header, a layout is found if the header of the protocol is there. -/
theorem parse_of_validate {b : Bytes} {n : Nat} (h : (Checksum.version b).validate b = .ok n) :
    parse b = (NextHeader.ofBytes (Checksum.protocol b) (Checksum.segment b)).map fun _ =>
      ⟨Checksum.version b, Checksum.segmentStart b, Checksum.protocol b,
        b.size - Checksum.segmentStart b, false, false⟩ := by
  obtain ⟨ip, hip, hv, hn, hp⟩ := IpHeader.ofBytes_of_validate h
  unfold parse Checksum.segment
  rw [hip]
  simp only [bind, Except.bind, hv, hn, hp]
  cases NextHeader.ofBytes (Checksum.protocol b) (b.extract (Checksum.segmentStart b) b.size) <;>
    rfl

/-- **The same layout is found, or not found for the same reason, once checksums have been
recomputed.** -/
theorem parse_fill (b : Bytes) : parse (Checksum.fill b).2 = parse b := by
  by_cases h : Checksum.ValidHeader b
  · obtain ⟨hvalid, hend, -⟩ := h.start
    have hsame := Checksum.sameHeader_fill h
    have hmin := IpVersion.validate_pos hvalid
    have hle := IpVersion.validate_le hvalid
    have hfirst : (Checksum.fill b).2.byte 0 = b.byte 0 := by
      refine Checksum.byte_fill ?_
      rintro (⟨-, hc⟩ | ⟨t, -, hc⟩) <;> omega
    have hfilled : (Checksum.version (Checksum.fill b).2).validate (Checksum.fill b).2 =
        .ok (Checksum.segmentStart b) := by
      rw [hsame.version]
      exact IpVersion.validate_of_byte_zero hvalid (by rwa [hsame.size]) hfirst
    rw [parse_of_validate hfilled, parse_of_validate hvalid, hsame.version, hsame.start,
      hsame.protocol, hsame.size]
    refine NextHeader.ofBytes_congr _ hsame.size_segment fun ht => ?_
    -- the checksum of TCP lies behind the data offset
    have hoffset : (Checksum.fill b).2.byte (Checksum.segmentStart b + 12) =
        b.byte (Checksum.segmentStart b + 12) := by
      refine Checksum.byte_fill ?_
      rintro (⟨-, hc⟩ | ⟨t, ht', hc⟩)
      · omega
      · cases ht.symm.trans ht'
        simp only [Checksum.offset] at hc
        omega
    rw [Checksum.segment, Checksum.segment, Bytes.byte_extract, Bytes.byte_extract, hsame.start,
      hsame.size, hoffset]
  · obtain ⟨m, hm⟩ := Checksum.fill_of_not_validHeader h
    rw [hm]

end Layout

namespace Packet

variable {p q : Packet} {l : Layout}

/-! ## One operation -/

/-- The operation shows what is remembered of the headers. -/
def Op.showsLayout : Op → Bool
  | .ask .listing => true
  | _ => false

theorem read_located {x : Question} (hx : x ≠ .listing) (p : Packet) :
    p.located.read x = p.read x := by
  have hport : ∀ side, p.located.port side = p.port side := fun side => by
    rw [port, nextHeader_located, ← port]
  cases x with
  | listing => exact absurd rfl hx
  | srcPort => simp only [read, srcPort, hport]
  | dstPort => simp only [read, dstPort, hport]
  | srcIp => simp only [read, srcIp, addr, ipHeader_located]
  | dstIp => simp only [read, dstIp, addr, ipHeader_located]
  | tcp => simp only [read, tcpSegment, nextHeader_located]
  | summary =>
      simp only [read, summary, headerSummary, ipHeader_located, locate_located,
        nextHeader_located, address_located, len, buffer_located]
  | parse | ipVersion | ipHeaderLen | protocol | protocolName | ip | next | payload | direction
  | address | contents =>
      simp only [read, locate_located, ipHeader_located, nextHeader_located, payload_located,
        address_located, contents_located]

theorem locate_readdress (a : Address) (p : Packet) :
    ({ p with address := a } : Packet).locate = p.locate := rfl

theorem located_readdress (a : Address) (p : Packet) :
    ({ p with address := a } : Packet).located = { p.located with address := a } := by
  unfold located
  rw [locate_readdress]
  cases p.locate <;> rfl

theorem changeIp_located (change : IpDraft → Option IpDraft) (e : Error) (p : Packet) :
    p.located.changeIp change e = p.changeIp change e := by
  simp only [changeIp, openIp_located, located_located]

theorem changeNext_located (change : NextDraft → Option NextDraft) (p : Packet) :
    p.located.changeNext change = p.changeNext change := by
  simp only [changeNext, openNext_located, located_located]

theorem setTcpPayload_located (data : Bytes) (p : Packet) :
    p.located.setTcpPayload data = p.setTcpPayload data := by
  simp only [setTcpPayload, openTcp_located, located_located]

/-- **An operation does and answers the same if the headers are found before it**, but for a
listing. -/
theorem run_op_located {op : Op} (hop : op.showsLayout = false) (p : Packet) :
    (p.located.run op).1 = (p.run op).1 ∧ (p.run op).2.Reads (p.located.run op).2 := by
  cases op with
  | ask x =>
      have hx : x ≠ .listing := by
        rintro rfl
        cases hop
      refine ⟨read_located hx p, ?_⟩
      simp only [run, ask, located_located]
      split
      · exact .inl rfl
      · exact .inr rfl
  | setAddress a => exact ⟨rfl, .inr (located_readdress a p).symm⟩
  | setSrcIp a | setDstIp a =>
      simp only [run, setSrcIp, setDstIp, setAddr, changeIp_located, Reads, true_or, and_self]
  | setSrcPort n | setDstPort n =>
      simp only [run, setSrcPort, setDstPort, setPort, changeNext_located, Reads, true_or, and_self]
  | updateLength => simp only [run, updateLength_located, Reads, true_or, and_self]
  | setTcpPayload data => simp only [run, setTcpPayload_located, Reads, true_or, and_self]
  | withIp rs =>
      simp only [run, withIp, openIp_located, located_located, Reads, true_or, and_self]
  | withNext rs =>
      simp only [run, withNext, openNext_located, located_located, Reads, true_or, and_self]
  | withTcp rs =>
      simp only [run, withTcp, openTcp_located, located_located, Reads, true_or, and_self]

/-! ## Recomputed checksums, and giving the packet up -/

theorem locate_refill (p : Packet) : p.refill.locate = p.locate := by
  unfold locate
  rw [layout_refill]
  cases p.layout with
  | some l => rfl
  | none =>
      simp only
      rw [contents_refill, Layout.parse_fill]

/-- Finding the headers and recomputing the checksums can be done in either order. -/
theorem located_refill (p : Packet) : p.refill.located = p.located.refill := by
  cases h : p.locate with
  | error e => rw [located_of_error h, located_of_error ((locate_refill p).trans h)]
  | ok l =>
      rw [located_of_locate h, located_of_locate ((locate_refill p).trans h)]
      rfl

/-- A packet whose headers are just found has a segment that ends where it does, so finding them
makes no difference to the buffer it gives up. -/
theorem retire_located (p : Packet) : p.located.retire = p.retire := by
  cases hp : p.layout with
  | some l => rw [located_of_layout hp]
  | none =>
      cases hl : p.locate with
      | error e => rw [located_of_error hl]
      | ok l =>
          have hparse : Layout.parse p.contents = .ok l := by
            unfold locate at hl
            rw [hp] at hl
            exact Except.mapError_eq_ok.1 hl
          have hend := (Layout.found_of_parse hparse).segment
          rw [size_contents] at hend
          rw [located_of_locate hl]
          unfold retire
          rw [hp]
          exact if_neg (Nat.not_lt.2 hend.le)

namespace Reads

theorem refl (p : Packet) : p.Reads p := .inl rfl

theorem locate (h : p.Reads q) : p.Reads q.located := by
  rcases h with rfl | rfl
  · exact .inr rfl
  · exact .inr (located_located p)

theorem buffer (h : p.Reads q) : q.buffer = p.buffer := by
  rcases h with rfl | rfl
  · rfl
  · exact buffer_located p

theorem retire (h : p.Reads q) : q.retire = p.retire := by
  rcases h with rfl | rfl
  · rfl
  · exact retire_located p

theorem refill (h : p.Reads q) : p.refill.Reads q.refill := by
  rcases h with rfl | rfl
  · exact .inl rfl
  · exact .inr (located_refill p).symm

theorem run (h : p.Reads q) (op : Op) :
    (op.showsLayout = false → (q.run op).1 = (p.run op).1) ∧ (p.run op).2.Reads (q.run op).2 := by
  rcases h with rfl | rfl
  · exact ⟨fun _ => rfl, .inl rfl⟩
  · cases hop : op.showsLayout with
    | false =>
        obtain ⟨hanswer, hreads⟩ := run_op_located hop p
        exact ⟨fun _ => hanswer, hreads⟩
    | true =>
        -- a listing leaves the packet as it is
        unfold Op.showsLayout at hop
        split at hop
        · exact ⟨nofun, .inr rfl⟩
        · cases hop

end Reads

end Packet

end Intercept
