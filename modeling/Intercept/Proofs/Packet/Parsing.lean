import Intercept.Proofs.Packet.ProtocolField

set_option autoImplicit false

/-! # Which packets have headers to be found

`WellFormed` says of the bytes of a packet, position by position, that they start with an IP header
and go on with the header of the protocol that it names, and `firstFault` what kind of fault is the
first to be met where they do not: a field whose value rules a header out, or too few bytes for it.
Neither mentions how headers are opened.

The headers of a packet are found exactly if its bytes are well formed, and are the ones that the
bytes have; otherwise the fault that is reported is of the first kind met (`parse_eq_ok`,
`firstFault_of_parse`). A packet whose headers are not found is no good for anything that needs
them: every such operation is refused for the same reason, and none of them, nor any other, makes
the packet remember headers or changes its bytes (`parse_decides`). -/

namespace Intercept

/-! ## Halves of bytes -/

/-- A field of four bits on a byte boundary is the high half of the byte. -/
theorem Field.read_highHalf (b : Bytes) (i : Nat) :
    (⟨8 * i, 4⟩ : Field).read b = (b.byte i).toNat / 16 := by
  have hbyte := b.readBits_add (8 * i) 4 4
  rw [show 4 + 4 = 8 from rfl, b.readBits_eight] at hbyte
  have hlow : b.readBits (8 * i + 4) 4 < 16 := Field.read_lt ⟨8 * i + 4, 4⟩ b
  simp only [read]
  omega

/-- The low half of a byte is a field of four bits as well. -/
theorem Field.read_lowHalf (b : Bytes) (i : Nat) :
    (⟨8 * i + 4, 4⟩ : Field).read b = (b.byte i).toNat % 16 := by
  have hbyte := b.readBits_add (8 * i) 4 4
  rw [show 4 + 4 = 8 from rfl, b.readBits_eight] at hbyte
  have hlow : b.readBits (8 * i + 4) 4 < 16 := Field.read_lt ⟨8 * i + 4, 4⟩ b
  simp only [read]
  omega

theorem Ipv4.version_eq_byte (b : Bytes) : version b = (b.byte 0).toNat / 16 :=
  Field.read_highHalf b 0

theorem Ipv4.headerLen_eq_byte (b : Bytes) : headerLen b = 4 * ((b.byte 0).toNat % 16) :=
  congrArg (4 * ·) (Field.read_lowHalf b 0)

theorem Tcp.headerLen_eq_byte (b : Bytes) : headerLen b = 4 * ((b.byte 12).toNat / 16) :=
  congrArg (4 * ·) (Field.read_highHalf b 12)

/-! ## Well-formed packets -/

/-- The bytes start with an IP header of a version, so many bytes long, that names a protocol. -/
inductive StartsWithIp (b : Bytes) : IpVersion → Nat → Nat → Prop where
  | v4 (version : (b.byte 0).toNat / 16 = 4) (ihl : 5 ≤ (b.byte 0).toNat % 16)
      (size : 4 * ((b.byte 0).toNat % 16) ≤ b.size) :
      StartsWithIp b .v4 (4 * ((b.byte 0).toNat % 16)) (b.byte 9).toNat
  | v6 (version : (b.byte 0).toNat / 16 = 6) (size : 40 ≤ b.size) :
      StartsWithIp b .v6 40 (b.byte 6).toNat

/-- The bytes behind an IP header start with the header of the protocol it names: TCP is 6, UDP 17,
and ICMP 1 or 58. Of other protocols nothing is asked. -/
structure StartsWithNext (protocol : Nat) (r : Bytes) : Prop where
  tcp : protocol = 6 → 20 ≤ r.size ∧ 5 ≤ (r.byte 12).toNat / 16 ∧
    4 * ((r.byte 12).toNat / 16) ≤ r.size
  fixed : protocol = 17 ∨ protocol = 1 ∨ protocol = 58 → 8 ≤ r.size

/-- A packet has an IP header of `len` bytes and behind it the header of `protocol`. -/
structure WellFormed (b : Bytes) (version : IpVersion) (len protocol : Nat) : Prop where
  nonempty : 0 < b.size
  ip : StartsWithIp b version len protocol
  next : StartsWithNext protocol (b.extract len b.size)

/-! ## First faults -/

/-- The first fault behind an IP header. -/
def nextFault (protocol : Nat) (r : Bytes) : Option FaultKind :=
  if protocol = 6 then
    if r.size < 20 then some .insufficientBytes
    else if (r.byte 12).toNat / 16 < 5 then some .invalidValue
    else if r.size < 4 * ((r.byte 12).toNat / 16) then some .insufficientBytes
    else none
  else if (protocol = 17 ∨ protocol = 1 ∨ protocol = 58) ∧ r.size < 8 then
    some .insufficientBytes
  else none

/-- The first fault in a packet. -/
def firstFault (b : Bytes) : Option FaultKind :=
  if b.size = 0 then some .insufficientBytes
  else if (b.byte 0).toNat / 16 = 4 then
    if (b.byte 0).toNat % 16 < 5 then some .invalidValue
    else if b.size < 4 * ((b.byte 0).toNat % 16) then some .insufficientBytes
    else nextFault (b.byte 9).toNat (b.extract (4 * ((b.byte 0).toNat % 16)) b.size)
  else if (b.byte 0).toNat / 16 = 6 then
    if b.size < 40 then some .insufficientBytes
    else nextFault (b.byte 6).toNat (b.extract 40 b.size)
  else some .invalidValue

variable {b r : Bytes} {v : IpVersion} {h n : Nat} {m : Malformed}

/-! ## The header behind the IP header -/

theorem startsWithNext_iff :
    StartsWithNext n r ↔ ∀ t, Transport.ofNumber? n = some t → NextHeader.Holds t r := by
  have htcp : NextHeader.Holds .tcp r ↔ 20 ≤ r.size ∧ 5 ≤ (r.byte 12).toNat / 16 ∧
      4 * ((r.byte 12).toNat / 16) ≤ r.size := by
    unfold NextHeader.Holds
    rw [if_pos rfl, Tcp.headerLen_eq_byte, Tcp.minHeaderLen]
    omega
  constructor
  · intro hs t ht
    rw [Transport.ofNumber?_eq_some_iff] at ht
    cases t with
    | tcp => exact htcp.2 (hs.tcp ht)
    | udp => exact hs.fixed (.inl ht)
    | icmpv4 => exact hs.fixed (.inr (.inl ht))
    | icmpv6 => exact hs.fixed (.inr (.inr ht))
  · intro hs
    refine ⟨fun ht => htcp.1 (hs .tcp (Transport.ofNumber?_eq_some_iff.2 ht)), ?_⟩
    rintro (hn | hn | hn)
    · exact hs .udp (Transport.ofNumber?_eq_some_iff.2 hn)
    · exact hs .icmpv4 (Transport.ofNumber?_eq_some_iff.2 hn)
    · exact hs .icmpv6 (Transport.ofNumber?_eq_some_iff.2 hn)

theorem nextFault_tcp (he : Tcp.validate r = .error m) :
    nextFault Transport.tcp.number r = some m.kind := by
  have hnumber : Transport.tcp.number = 6 := rfl
  unfold Tcp.validate at he
  rw [Tcp.headerLen_eq_byte, Tcp.minHeaderLen] at he
  unfold nextFault
  rw [if_pos hnumber]
  split_ifs at he <;> cases he
  · rw [if_pos (by omega)]
    rfl
  · rw [if_neg (by omega), if_pos (by omega)]
    rfl
  · rw [if_neg (by omega), if_neg (by omega), if_pos (by omega)]
    rfl

/-- A header of a fixed length is only ever refused for want of bytes. -/
theorem nextFault_fixed {e : Malformed} {t : Transport} (ht : t ≠ .tcp)
    (hkind : e.kind = .insufficientBytes)
    (he : (if r.size < 8 then .error e else .ok 8 : Except Malformed Nat) = .error m) :
    nextFault t.number r = some m.kind := by
  have hnumber : t.number ≠ 6 := by cases t <;> simp_all [Transport.number]
  have hfixed : t.number = 17 ∨ t.number = 1 ∨ t.number = 58 := by
    cases t <;> simp_all [Transport.number]
  split_ifs at he with hsize
  cases he
  unfold nextFault
  rw [if_neg hnumber, if_pos ⟨hfixed, hsize⟩, hkind]

theorem nextFault_of_ofBytes (he : NextHeader.ofBytes n r = .error m) :
    nextFault n r = some m.kind := by
  unfold NextHeader.ofBytes at he
  cases ht : Transport.ofNumber? n with
  | none =>
      rw [ht] at he
      cases he
  | some t =>
      rw [ht] at he
      rw [Transport.ofNumber?_eq_some_iff.1 ht]
      cases t with
      | tcp => exact nextFault_tcp (Except.map_eq_error.1 he)
      | udp =>
          exact nextFault_fixed nofun rfl (Except.map_eq_error.1 (Except.map_eq_error.1 he))
      | icmpv4 =>
          exact nextFault_fixed nofun rfl (Except.map_eq_error.1 (Except.map_eq_error.1 he))
      | icmpv6 =>
          exact nextFault_fixed nofun rfl (Except.map_eq_error.1 (Except.map_eq_error.1 he))

/-! ## The IP header -/

theorem startsWithIp_iff :
    StartsWithIp b v h n ↔ v.validate b = .ok h ∧ n = (b.byte v.protocolByte).toNat := by
  constructor
  · rintro (⟨hv, hihl, hs⟩ | ⟨hv, hs⟩)
    · refine ⟨Ipv4.validate_eq_ok.2 ?_, rfl⟩
      rw [Ipv4.version_eq_byte, Ipv4.headerLen_eq_byte, Ipv4.minHeaderLen]
      exact ⟨hv, rfl, by omega, hs⟩
    · refine ⟨Ipv6.validate_eq_ok.2 ⟨?_, rfl, hs⟩, rfl⟩
      exact (Ipv4.version_eq_byte b).trans hv
  · rintro ⟨hvalid, rfl⟩
    cases v with
    | v4 =>
        obtain ⟨hv, rfl, hmin, hs⟩ := Ipv4.validate_eq_ok.1 hvalid
        rw [Ipv4.version_eq_byte] at hv
        rw [Ipv4.headerLen_eq_byte, Ipv4.minHeaderLen] at hmin
        rw [Ipv4.headerLen_eq_byte] at hs ⊢
        exact .v4 hv (by omega) hs
    | v6 =>
        obtain ⟨hv, rfl, hs⟩ := Ipv6.validate_eq_ok.1 hvalid
        exact .v6 ((Ipv4.version_eq_byte b).symm.trans hv) hs

/-- Where no IP header is found, the fault is the first one of the packet. -/
theorem firstFault_of_ipHeader (he : IpHeader.ofBytes b = .error m) :
    firstFault b = some m.kind := by
  unfold IpHeader.ofBytes at he
  rw [Ipv4.version_eq_byte] at he
  unfold firstFault
  split_ifs at he with h0 h4 h6
  · cases he
    rw [if_pos h0]
    rfl
  · have hv := Except.map_eq_error.1 (Except.map_eq_error.1 he)
    unfold Ipv4.validate at hv
    rw [Ipv4.version_eq_byte, Ipv4.headerLen_eq_byte, Ipv4.minHeaderLen, if_neg h0,
      if_neg (not_not.2 h4)] at hv
    rw [if_neg h0, if_pos h4]
    split_ifs at hv with hihl hs <;> cases hv
    · rw [if_pos (by omega)]
      rfl
    · rw [if_neg (by omega), if_pos hs]
      rfl
  · have hv := Except.map_eq_error.1 (Except.map_eq_error.1 he)
    unfold Ipv6.validate at hv
    rw [if_neg h0, if_neg h4, if_pos h6]
    split_ifs at hv with hs hn <;> cases hv
    · rw [if_pos (show b.size < 40 from hs)]
      rfl
    · exact absurd ((Ipv4.version_eq_byte b).trans h6) hn
  · cases he
    rw [if_neg h0, if_neg h4, if_neg h6]
    rfl

/-- Behind an IP header, the first fault of a packet is the first one behind the header. -/
theorem firstFault_of_startsWithIp (hip : StartsWithIp b v h n) (h0 : 0 < b.size) :
    firstFault b = nextFault n (b.extract h b.size) := by
  unfold firstFault
  rw [if_neg (by omega)]
  cases hip with
  | v4 hv hihl hs => rw [if_pos hv, if_neg (by omega), if_neg (by omega)]
  | v6 hv hs => rw [if_neg (by omega), if_pos hv, if_neg (by omega)]

/-! ## Whole packets -/

theorem WellFormed.firstFault (hb : WellFormed b v h n) : firstFault b = none := by
  obtain ⟨h0, hip, htcp, hfixed⟩ := hb
  rw [firstFault_of_startsWithIp hip h0]
  unfold nextFault
  split
  · next hn =>
      obtain ⟨hmin, hoffset, hs⟩ := htcp hn
      rw [if_neg (by omega), if_neg (by omega), if_neg (by omega)]
  · rw [if_neg fun hc => absurd (hfixed hc.1) (Nat.not_le.2 hc.2)]

namespace Layout

/-- **The headers of a packet are found exactly if its bytes are well formed**, and are the ones
that the bytes have. -/
theorem parse_eq_ok {l : Layout} :
    parse b = .ok l ↔ ∃ v h n, WellFormed b v h n ∧ l = ⟨v, h, n, b.size - h, false, false⟩ := by
  constructor
  · intro hl
    have hvalid := (found_of_parse hl).validate
    have hlen := IpVersion.validate_le hvalid
    have hpos := IpVersion.validate_pos hvalid
    have hversion := Checksum.version_of_validate hvalid
    rw [← hversion] at hvalid
    have hstart := Packet.segmentStart_of_validate hvalid
    have hnext := (found_of_parse hl).next
    rw [parse_of_validate hvalid] at hl
    obtain ⟨x, -, hx⟩ := Except.map_eq_ok.1 hl
    have hprotocol : l.protocol = (b.byte (Checksum.version b).protocolByte).toNat := by
      rw [← hx, ← Checksum.protocol_eq_byte]
    refine ⟨l.version, l.ipHeaderLen, l.protocol, ⟨by omega, ?_, ?_⟩, ?_⟩
    · exact startsWithIp_iff.2 ⟨hversion ▸ hvalid, hversion ▸ hprotocol⟩
    · exact startsWithNext_iff.2 (NextHeader.exists_ofBytes.1 hnext)
    · rw [← hx]
  · rintro ⟨v, h, n, ⟨h0, hip, hnext⟩, rfl⟩
    obtain ⟨hvalid, hn⟩ := startsWithIp_iff.1 hip
    have hversion := Checksum.version_of_validate hvalid
    have hstart := Packet.segmentStart_of_validate hvalid
    have hprotocol : Checksum.protocol b = n := by
      rw [Checksum.protocol_eq_byte, hversion, hn]
    obtain ⟨x, hx⟩ := NextHeader.exists_ofBytes.2 (startsWithNext_iff.1 hnext)
    rw [← hversion] at hvalid
    rw [parse_of_validate hvalid, hprotocol, Checksum.segment, hstart, hx, hversion]
    rfl

/-- **If they are not found, it is for the first fault in the packet.** -/
theorem firstFault_of_parse (he : parse b = .error m) : firstFault b = some m.kind := by
  unfold parse at he
  cases hip : IpHeader.ofBytes b with
  | error e =>
      rw [hip] at he
      cases he
      exact firstFault_of_ipHeader hip
  | ok ip =>
      obtain ⟨hvalid, -⟩ := IpHeader.ofBytes_eq_ok hip
      have hlen := IpVersion.validate_le hvalid
      have hpos := IpVersion.validate_pos hvalid
      rw [← Checksum.version_of_validate hvalid] at hvalid
      obtain ⟨ip', hip', hversion, -, hprotocol⟩ := IpHeader.ofBytes_of_validate hvalid
      cases hip.symm.trans hip'
      rw [Checksum.protocol_eq_byte, ← hversion] at hprotocol
      rw [← hversion] at hvalid
      rw [firstFault_of_startsWithIp (startsWithIp_iff.2 ⟨hvalid, hprotocol⟩) (by omega)]
      rw [hip] at he
      simp only [bind, Except.bind] at he
      split at he
      · next e hnext =>
          cases he
          exact nextFault_of_ofBytes hnext
      · cases he

end Layout

/-! ## Packets whose headers are not found -/

namespace Packet

variable {p : Packet} {e : Fault}

/-- The operation needs the headers of the packet. -/
def Op.needsHeaders : Op → Bool
  | .ask .direction | .ask .address | .ask .contents | .ask .summary | .ask .listing => false
  | .setAddress _ => false
  | _ => true

theorem read_of_error {x : Question} (hx : (Op.ask x).needsHeaders = true)
    (he : p.locate = .error e) : p.read x = .error e := by
  have hip : p.ipHeader = .error e := by
    unfold ipHeader
    rw [he]
    rfl
  have hnext : p.nextHeader = .error e := by
    unfold nextHeader
    rw [he]
    rfl
  have hport : ∀ side, p.port side = .error e := fun side => by
    unfold port
    rw [hnext]
    rfl
  cases x with
  | direction | address | contents | summary | listing => cases hx
  | parse | ipVersion | ipHeaderLen | protocol | protocolName =>
      simp only [read, he, Except.map]
  | srcPort => simp only [read, srcPort, hport, Except.map]
  | dstPort => simp only [read, dstPort, hport, Except.map]
  | srcIp => simp only [read, srcIp, addr, hip, bind, Except.bind, Except.map]
  | dstIp => simp only [read, dstIp, addr, hip, bind, Except.bind, Except.map]
  | ip => simp only [read, hip, Except.map]
  | next => simp only [read, hnext, Except.map]
  | tcp => simp only [read, tcpSegment, hnext, bind, Except.bind, Except.map]
  | payload => simp only [read, payload, he, bind, Except.bind, Except.map]

/-- Whatever needs headers is refused for the reason that they are not found, and does nothing. -/
theorem run_of_error {op : Op} (hop : op.needsHeaders = true) (he : p.locate = .error e) :
    p.run op = (.error e, p) := by
  have hlocated := located_of_error he
  have hip : p.openIp = .error e := by
    unfold openIp
    rw [he]
    rfl
  have hnext : p.openNext = .error e := by
    unfold openNext
    rw [he]
    rfl
  have htcp : p.openTcp = .error e := by
    unfold openTcp
    rw [hnext]
    rfl
  cases op with
  | ask x =>
      simp only [run, ask, read_of_error hop he, hlocated, ite_self]
  | setAddress a => cases hop
  | setSrcIp a => simp only [run, setSrcIp, setAddr, changeIp, hip, hlocated, answering, Except.map]
  | setDstIp a => simp only [run, setDstIp, setAddr, changeIp, hip, hlocated, answering, Except.map]
  | setSrcPort n =>
      simp only [run, setSrcPort, setPort, changeNext, hnext, hlocated, answering, Except.map]
  | setDstPort n =>
      simp only [run, setDstPort, setPort, changeNext, hnext, hlocated, answering, Except.map]
  | updateLength => simp only [run, updateLength, he, answering, Except.map]
  | setTcpPayload data =>
      simp only [run, setTcpPayload, htcp, hlocated, answering, Except.map]
  | withIp rs => simp only [run, withIp, hip, hlocated]
  | withNext rs => simp only [run, withNext, hnext, hlocated]
  | withTcp rs => simp only [run, withTcp, htcp, hlocated]

/-- A packet after operations in turn. -/
def runAll (ops : List Op) (p : Packet) : Packet := ops.foldl (fun q op => (q.run op).2) p

/-- No operation at all makes anything of a packet whose headers are not found but give it another
address. -/
theorem runAll_of_error (ops : List Op) (he : p.locate = .error e) :
    (p.runAll ops).locate = .error e ∧ (p.runAll ops).buffer = p.buffer ∧
      (p.runAll ops).layout = p.layout := by
  induction ops generalizing p with
  | nil => exact ⟨he, rfl, rfl⟩
  | cons op ops ih =>
      have hstep : (p.run op).2.locate = .error e ∧ (p.run op).2.buffer = p.buffer ∧
          (p.run op).2.layout = p.layout := by
        cases op with
        | ask x =>
            simp only [run, ask, located_of_error he, ite_self]
            exact ⟨he, trivial, trivial⟩
        | setAddress a => exact ⟨he, rfl, rfl⟩
        | _ =>
            rw [run_of_error rfl he]
            exact ⟨he, rfl, rfl⟩
      obtain ⟨hlocate, hbuffer, hlayout⟩ := ih hstep.1
      exact ⟨hlocate, hbuffer.trans hstep.2.1, hlayout.trans hstep.2.2⟩

/-- **The headers of a packet are found exactly if it is well formed.** They are the ones that its
bytes have then, and no change to them has been asked for. Otherwise the fault is of the first kind
met in the bytes; whatever is done to the packet, everything that needs headers is refused for that
fault, and the packet stays as it is, with no headers remembered. -/
theorem parse_decides {p : Packet} (hp : p.layout = none) :
    ((p.run (.ask .parse)).1 = .ok .done ↔ ∃ v h n, WellFormed p.contents v h n) ∧
      (∀ v h n, WellFormed p.contents v h n →
        let q := (p.run (.ask .parse)).2
        q = { p with layout := some ⟨v, h, n, p.len - h, false, false⟩ } ∧
          q.read .ipVersion = .ok (.number v.number) ∧
          q.read .ipHeaderLen = .ok (.number h) ∧ q.read .protocol = .ok (.number n)) ∧
      ((¬ ∃ v h n, WellFormed p.contents v h n) →
        ∃ m, firstFault p.contents = some m.kind ∧
          ∀ ops : List Op,
            let q := p.runAll ops
            q.contents = p.contents ∧ q.isParsed = false ∧ q.needsChecksum = false ∧
              ∀ op : Op, op.needsHeaders = true → q.run op = (.error (.malformed m), q)) := by
  have hlocate : p.locate = (Layout.parse p.contents).mapError .malformed := by
    unfold locate
    rw [hp]
  have hfound : ∀ v h n, WellFormed p.contents v h n →
      p.locate = .ok ⟨v, h, n, p.len - h, false, false⟩ := fun v h n hb => by
    rw [hlocate, Layout.parse_eq_ok.2 ⟨v, h, n, hb, rfl⟩, size_contents]
    rfl
  refine ⟨⟨fun hok => ?_, fun ⟨v, h, n, hb⟩ => ?_⟩, fun v h n hb => ?_, fun hb => ?_⟩
  · obtain ⟨l, hl, -⟩ := Except.map_eq_ok.1 hok
    rw [hlocate] at hl
    obtain ⟨v, h, n, hb, -⟩ := Layout.parse_eq_ok.1 (Except.mapError_eq_ok.1 hl)
    exact ⟨v, h, n, hb⟩
  · exact congrArg (Except.map fun _ => Reply.done) (hfound v h n hb)
  · have hq : (p.run (.ask .parse)).2 =
        { p with layout := some ⟨v, h, n, p.len - h, false, false⟩ } :=
      located_of_locate (hfound v h n hb)
    simp only [hq]
    exact ⟨trivial, rfl, rfl, rfl⟩
  · cases hparse : Layout.parse p.contents with
    | ok l =>
        obtain ⟨v, h, n, hwell, -⟩ := Layout.parse_eq_ok.1 hparse
        exact absurd ⟨v, h, n, hwell⟩ hb
    | error m =>
        refine ⟨m, Layout.firstFault_of_parse hparse, fun ops => ?_⟩
        rw [hparse] at hlocate
        obtain ⟨he, hbuffer, hlayout⟩ := runAll_of_error ops hlocate
        rw [hp] at hlayout
        refine ⟨congrArg Buffer.contents hbuffer, ?_, ?_, fun op hop => run_of_error hop he⟩
        · simp only [isParsed, hlayout, Option.isSome_none]
        · simp only [needsChecksum, hlayout, Option.any_none]

/-- A TCP segment over IPv4 whose data offset is four. -/
def shortOffset : Bytes :=
  .ofList [69, 0, 0, 40, 0, 0, 0, 0, 64, 6, 0, 0, 10, 0, 0, 1, 10, 0, 0, 2,
    0, 80, 1, 187, 0, 0, 0, 1, 0, 0, 0, 0, 64, 2, 255, 255, 0, 0, 0, 0]

/-- A new packet with a datagram has headers to be found. One with a segment whose data offset is
too small has not, and no port of it can be set, also when a port was asked for before. -/
theorem parse_decides_shortOffset :
    (∃ p : Packet, p.layout = none ∧ p.contents = query ∧ WellFormed p.contents .v6 40 17 ∧
      (p.run (.ask .parse)).1 = .ok .done ∧
      (p.run (.ask .parse)).2.read .ipHeaderLen = .ok (.number 40)) ∧
    ∃ p : Packet, p.layout = none ∧ p.contents = shortOffset ∧
      (¬ ∃ v h n, WellFormed p.contents v h n) ∧
      ∃ m : Malformed, m.kind = .invalidValue ∧
        ((p.runAll [.ask .srcPort]).run (.setDstPort 80)).1 = .error (.malformed m) := by
  constructor
  · obtain ⟨b, hb⟩ : ∃ b, (Buffer.ofStorage .blank).append? query = some b :=
      ⟨_, dif_pos (by decide)⟩
    have hcontents : (ofBuffer b .blank).contents = query := Buffer.contents_append? hb
    have hwell : WellFormed (ofBuffer b .blank).contents .v6 40 17 := by
      rw [hcontents]
      exact ⟨by decide, .v6 (by decide) (by decide), ⟨nofun, fun _ => by decide⟩⟩
    obtain ⟨hiff, hfound, -⟩ := parse_decides (p := ofBuffer b .blank) rfl
    exact ⟨_, rfl, hcontents, hwell, hiff.2 ⟨_, _, _, hwell⟩, (hfound _ _ _ hwell).2.2.1⟩
  · obtain ⟨b, hb⟩ : ∃ b, (Buffer.ofStorage .blank).append? shortOffset = some b :=
      ⟨_, dif_pos (by decide)⟩
    have hcontents : (ofBuffer b .blank).contents = shortOffset := Buffer.contents_append? hb
    have hfault : firstFault (ofBuffer b .blank).contents = some .invalidValue := by
      rw [hcontents]
      decide
    have hbad : ¬ ∃ v h n, WellFormed (ofBuffer b .blank).contents v h n := by
      rintro ⟨v, h, n, hwell⟩
      rw [hwell.firstFault] at hfault
      cases hfault
    obtain ⟨m, hm, hall⟩ := (parse_decides (p := ofBuffer b .blank) rfl).2.2 hbad
    obtain ⟨-, -, -, hrun⟩ := hall [.ask .srcPort]
    rw [hfault] at hm
    exact ⟨_, rfl, hcontents, hbad, m, (Option.some.inj hm).symm,
      congrArg Prod.fst (hrun (.setDstPort 80) rfl)⟩

end Packet

end Intercept
