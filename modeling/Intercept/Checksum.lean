import Intercept.Bytes.WordSum
import Intercept.Header.Ip
import Intercept.Header.Next

set_option autoImplicit false

/-! # Recomputing checksums

The checksums of an IP packet are recomputed in place. The IPv4 header sums itself; a TCP, UDP or
ICMPv6 segment is summed together with a pseudo-header of the two addresses, the length of the
segment and the protocol number, and an ICMPv4 segment is summed alone. All bytes behind the IP
header count as the segment, whatever the length fields say, and a protocol whose header is not
known has no checksum to compute. -/

namespace Intercept.Checksum

/-- Where a protocol keeps its checksum. -/
def field : Transport → Field
  | .tcp => Tcp.Cell.checksum.field
  | .udp => Udp.Cell.checksum.field
  | .icmpv4 => Icmp.Cell.checksum.field
  | .icmpv6 => Icmp.Cell.checksum.field

/-- The segment has the header that its checksum lies in. -/
def checkSegment (t : Transport) (segment : Bytes) : Except Malformed Unit :=
  match t with
  | .tcp => (Tcp.validate segment).map fun _ => ()
  | _ => if segment.size < 8 then .error (.shortTransport t.layer) else .ok ()

/-- The checksum that a sum calls for: its complement, except that for UDP a zero, which would
stand for no checksum, becomes its other form. -/
def ofSum (t : Transport) (sum : UInt16) : UInt16 :=
  if t = .udp ∧ ~~~sum = 0 then 0xffff else ~~~sum

/-- Store the checksum of a segment, given the sum of its pseudo-header. -/
def fillSegment (t : Transport) (pseudo : UInt16) (segment : Bytes) : Bytes :=
  let blank := (field t).write 0 segment
  let sum := if t = .icmpv4 then blank.wordSum else addCarry blank.wordSum pseudo
  (field t).write (ofSum t sum).toNat segment

/-- Store the checksum of what lies behind the first `start` bytes of a packet. -/
def fillFrom (start protocol : Nat) (pseudo : UInt16) (packet : Bytes) :
    Except Malformed Unit × Bytes :=
  match Transport.ofNumber? protocol with
  | none => (.ok (), packet)
  | some t =>
    let segment := packet.extract start packet.size
    match checkSegment t segment with
    | .error m => (.error m, packet)
    | .ok () => (.ok (), packet.overwrite start (fillSegment t pseudo segment))

/-- Store the checksum of an IPv4 header of `n` bytes. -/
def fillIpv4Header (n : Nat) (packet : Bytes) : Bytes :=
  let blank := Ipv4.Cell.checksum.field.write 0 packet
  Ipv4.Cell.checksum.field.write (~~~(Bytes.wordSum (blank.extract 0 n))).toNat packet

/-- The sum of a pseudo-header: the addresses, the segment length, and the protocol. -/
def pseudoSum (addresses : Bytes) (len protocol : Nat) : UInt16 :=
  addCarry
    (addCarry (addCarry addresses.wordSum (UInt16.ofNat (len / 65536))) (UInt16.ofNat len))
    (UInt16.ofNat protocol)

/-- Recompute the checksums of an IPv4 packet. -/
def fillIpv4 (packet : Bytes) : Except Malformed Unit × Bytes :=
  match Ipv4.validate packet with
  | .error m => (.error m, packet)
  | .ok n =>
    let len := packet.size - n
    if 65536 ≤ len then (.error .ipv4PseudoLen, packet)
    else
      let protocol := Ipv4.get .protocol packet
      fillFrom n protocol (pseudoSum (packet.extract 12 20) len protocol) (fillIpv4Header n packet)

/-- Recompute the checksums of an IPv6 packet. -/
def fillIpv6 (packet : Bytes) : Except Malformed Unit × Bytes :=
  match Ipv6.validate packet with
  | .error m => (.error m, packet)
  | .ok n =>
    let protocol := Ipv6.get .nextHeader packet
    fillFrom n protocol (pseudoSum (packet.extract 8 40) (packet.size - n) protocol) packet

/-- Recompute all checksums of a packet. The bytes are the same afterwards except in checksums,
also when a fault is reported: a sound IPv4 header in front of a malformed segment has its own
checksum recomputed. -/
def fill (packet : Bytes) : Except Malformed Unit × Bytes :=
  if 0 < packet.size ∧ Ipv4.version packet = 6 then fillIpv6 packet else fillIpv4 packet

/-! ## The length is kept -/

theorem size_fillFrom (start protocol : Nat) (pseudo : UInt16) (packet : Bytes) :
    (fillFrom start protocol pseudo packet).2.size = packet.size := by
  unfold fillFrom
  split
  · rfl
  · simp only
    split
    · rfl
    · exact Bytes.size_overwrite ..

@[simp] theorem size_fillIpv4Header (n : Nat) (packet : Bytes) :
    (fillIpv4Header n packet).size = packet.size := Field.size_write ..

theorem size_fillIpv4 (packet : Bytes) : (fillIpv4 packet).2.size = packet.size := by
  unfold fillIpv4
  split
  · rfl
  · simp only
    split
    · rfl
    · rw [size_fillFrom, size_fillIpv4Header]

theorem size_fillIpv6 (packet : Bytes) : (fillIpv6 packet).2.size = packet.size := by
  unfold fillIpv6
  split
  · rfl
  · exact size_fillFrom ..

/-- Recomputing checksums keeps the length of a packet. -/
theorem size_fill (packet : Bytes) : (fill packet).2.size = packet.size := by
  unfold fill
  split
  · exact size_fillIpv6 packet
  · exact size_fillIpv4 packet

end Intercept.Checksum
