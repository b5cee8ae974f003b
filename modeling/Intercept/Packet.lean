import Intercept.Address
import Intercept.Buffer
import Intercept.Error
import Intercept.Header.Ip
import Intercept.Header.Next

set_option autoImplicit false

/-! # Packets

A packet is a buffer that holds its bytes, the address recorded with it, and, once its headers
have been found, a layout that remembers where they lie. Headers are looked for when an
operation first needs them; a success is remembered, a failure is not.

What follows the IP header is the segment. Its length belongs to the layout, because a TCP
payload may be replaced by a longer or shorter one before the length of the packet itself and the
length field of its IP header are brought up to date. -/

namespace Intercept

/-! ## Layouts -/

/-- Where the headers of a packet lie, and whether a change to either has been asked for. -/
structure Layout where
  version : IpVersion
  ipHeaderLen : Nat
  protocol : Nat
  segmentLen : Nat
  ipModified : Bool
  segmentModified : Bool
deriving DecidableEq, Repr

namespace Layout

/-- Find the headers of a packet. -/
def parse (b : Bytes) : Except Malformed Layout := do
  let ip ← IpHeader.ofBytes b
  let _ ← NextHeader.ofBytes ip.nextProtocol (b.extract ip.headerLen b.size)
  return ⟨ip.version, ip.headerLen, ip.nextProtocol, b.size - ip.headerLen, false, false⟩

/-- Where what follows the IP header ends, as far as it was found to go. -/
def segmentEnd (l : Layout) : Nat := l.ipHeaderLen + l.segmentLen

/-- The longest segment that both fits into a buffer and can be stated in the length field of
the IP header. The field counts the header for IPv4 and does not for IPv6. -/
def maxSegmentLen (l : Layout) : Nat :=
  min (bufferSize - l.ipHeaderLen)
    (match l.version with
      | .v4 => 65535 - l.ipHeaderLen
      | .v6 => 65535)

/-- Where the space ends that the segment may be changed in. A TCP segment has all the space that
its packet could grow into. -/
def spaceEnd (l : Layout) (t : Transport) : Nat :=
  if t = .tcp then l.ipHeaderLen + l.maxSegmentLen else l.segmentEnd

/-- A change to either header has been asked for. -/
def isModified (l : Layout) : Bool := l.ipModified || l.segmentModified

end Layout

/-! ## Packets -/

/-- The bytes of a packet, the address recorded with it, and its layout once it is known. -/
structure Packet where
  buffer : Buffer
  address : Address
  layout : Option Layout

namespace Packet

/-- A packet whose headers have not been looked for. -/
def ofBuffer (b : Buffer) (a : Address) : Packet := ⟨b, a, none⟩

/-- The bytes of the packet. -/
def contents (p : Packet) : Bytes := p.buffer.contents

/-- How many bytes the packet has. -/
def len (p : Packet) : Nat := p.buffer.len

/-- The layout is known. -/
def isParsed (p : Packet) : Bool := p.layout.isSome

/-- A change to a header has been asked for, so the checksums may be wrong. -/
def needsChecksum (p : Packet) : Bool := p.layout.any Layout.isModified

/-- The layout, looked for if it is not known. -/
def locate (p : Packet) : Except Fault Layout :=
  match p.layout with
  | some l => .ok l
  | none => (Layout.parse p.contents).mapError .malformed

/-- The packet with its layout remembered, if there is one to be found. -/
def located (p : Packet) : Packet :=
  match p.locate with
  | .ok l => { p with layout := some l }
  | .error _ => p

/-! ## Reading -/

/-- The IP header, read from the bytes as they are now. -/
def ipHeader (p : Packet) : Except Fault IpHeader := do
  let _ ← p.locate
  (IpHeader.ofBytes p.contents).mapError .malformed

/-- A part of the storage of the packet. -/
def storageSlice (p : Packet) (lo hi : Nat) : Except Fault Bytes :=
  match p.buffer.storage.bytes.slice? lo hi with
  | some b => .ok b
  | none => .error .outOfRange

/-- The header behind the IP header, read as the protocol it had when it was found. -/
def nextHeader (p : Packet) : Except Fault NextHeader := do
  let l ← p.locate
  let segment ← p.storageSlice l.ipHeaderLen l.segmentEnd
  (NextHeader.ofBytes l.protocol segment).mapError .malformed

/-- The TCP segment, of a packet that carries one. -/
def tcpSegment (p : Packet) : Except Fault Bytes := do
  match ← p.nextHeader with
  | .tcp segment => return segment
  | h => throw (.refused (.protocolNotSupported h.protocol))

/-- The port of a side. -/
def port (e : Side) (p : Packet) : Except Fault UInt16 := do
  let h ← p.nextHeader
  match h.port? e with
  | some n => return n
  | none => throw (.refused (.protocolNotSupported h.protocol))

/-- The source port. -/
def srcPort (p : Packet) : Except Fault UInt16 := p.port .src

/-- The destination port. -/
def dstPort (p : Packet) : Except Fault UInt16 := p.port .dst

/-- The address of a side. -/
def addr (e : Side) (p : Packet) : Except Fault IpAddr := return (← p.ipHeader).addr e

/-- The source address. -/
def srcIp (p : Packet) : Except Fault IpAddr := p.addr .src

/-- The destination address. -/
def dstIp (p : Packet) : Except Fault IpAddr := p.addr .dst

/-- What follows all headers: the payload of a TCP segment as it stands, or the rest of the
packet behind another header. -/
def payload (p : Packet) : Except Fault Bytes := do
  let l ← p.locate
  match ← p.nextHeader with
  | .tcp segment => return Tcp.payload segment
  | h =>
    match p.contents.slice? (l.ipHeaderLen + h.headerLen) p.len with
    | some b => return b
    | none => throw .outOfRange

/-! ## Opening headers for changes -/

/-- Open the IP header for changes, as the version it was found to have. -/
def openIp (p : Packet) : Except Fault IpDraft := do
  let l ← p.locate
  (IpDraft.ofBytes l.version l.ipModified p.contents).mapError .malformed

/-- Open the header behind the IP header for changes. -/
def openNext (p : Packet) : Except Fault NextDraft := do
  let l ← p.locate
  match Transport.ofNumber? l.protocol with
  | none => return .unsupported l.protocol
  | some t =>
    let space ← p.storageSlice l.ipHeaderLen (l.spaceEnd t)
    (NextDraft.ofBytes t l.segmentLen l.segmentModified space).mapError .malformed

/-- Open the TCP segment for changes, of a packet that carries one. -/
def openTcp (p : Packet) : Except Fault Tcp.Draft := do
  match ← p.openNext with
  | .tcp d => return d
  | d => throw (.refused (.protocolNotSupported d.header.protocol))

/-- Take over what has become of the IP header. -/
def putIp (d : Draft) (p : Packet) : Packet :=
  { p with
    buffer := p.buffer.overwrite 0 d.bytes
    layout := p.layout.map fun l => { l with ipModified := d.modified } }

/-- Take over what has become of the TCP segment. -/
def putTcp (d : Tcp.Draft) (p : Packet) : Packet :=
  match p.layout with
  | none => p
  | some l =>
    { p with
      buffer := p.buffer.overwrite l.ipHeaderLen d.space
      layout := some { l with segmentLen := d.len, segmentModified := d.modified } }

/-- Take over what has become of a header of a fixed length. -/
def putFixed (d : Draft) (p : Packet) : Packet :=
  match p.layout with
  | none => p
  | some l =>
    { p with
      buffer := p.buffer.overwrite l.ipHeaderLen d.bytes
      layout := some { l with segmentModified := d.modified } }

/-- Take over what has become of the header behind the IP header. -/
def putNext : NextDraft → Packet → Packet
  | .tcp d, p => p.putTcp d
  | .udp d, p => p.putFixed d
  | .icmp _ d, p => p.putFixed d
  | .unsupported _, p => p

/-! ## Changing -/

/-- Change the IP header, or refuse the change for a reason. -/
def changeIp (change : IpDraft → Option IpDraft) (reason : Error) (p : Packet) :
    Except Fault Unit × Packet :=
  match p.openIp with
  | .error e => (.error e, p.located)
  | .ok d =>
    match change d with
    | none => (.error (.refused reason), p.located)
    | some d' => (.ok (), p.located.putIp d'.draft)

/-- Set the address of a side. It has to be of the family of the packet. -/
def setAddr (e : Side) (a : IpAddr) (p : Packet) : Except Fault Unit × Packet :=
  p.changeIp (IpDraft.setAddr? e a) .addressFamilyMismatch

/-- Set the source address. -/
def setSrcIp : IpAddr → Packet → Except Fault Unit × Packet := setAddr .src

/-- Set the destination address. -/
def setDstIp : IpAddr → Packet → Except Fault Unit × Packet := setAddr .dst

/-- Change the header behind the IP header, or refuse to if its protocol has no use for it. -/
def changeNext (change : NextDraft → Option NextDraft) (p : Packet) :
    Except Fault Unit × Packet :=
  match p.openNext with
  | .error e => (.error e, p.located)
  | .ok d =>
    match change d with
    | none => (.error (.refused (.protocolNotSupported d.header.protocol)), p.located)
    | some d' => (.ok (), p.located.putNext d')

/-- Set the port of a side. The protocol of the packet has to have ports. -/
def setPort (e : Side) (port : UInt16) (p : Packet) : Except Fault Unit × Packet :=
  p.changeNext (NextDraft.setPort? e port)

/-- Set the source port. -/
def setSrcPort : UInt16 → Packet → Except Fault Unit × Packet := setPort .src

/-- Set the destination port. -/
def setDstPort : UInt16 → Packet → Except Fault Unit × Packet := setPort .dst

/-- Give the packet a new length and store it in the IP header. -/
def commitLength (n : Nat) (openHeader : Bytes → Except Malformed Draft) (store : Bytes → Bytes)
    (p : Packet) : Except Fault Unit × Packet :=
  match p.buffer.setLen? n with
  | none => (.error .outOfRange, p)
  | some b =>
    let p := { p with buffer := b }
    match openHeader p.contents with
    | .error m => (.error (.malformed m), p)
    | .ok d => (.ok (), p.putIp (d.change store))

/-- Bring the length of a TCP packet, and the length field of its IP header, up to date with its
segment. Nothing is to be done for other packets. Refused if the length field cannot state the
length. -/
def updateLength (p : Packet) : Except Fault Unit × Packet :=
  match p.locate with
  | .error e => (.error e, p)
  | .ok l =>
    if Transport.ofNumber? l.protocol ≠ some .tcp then (.ok (), p.located)
    else
      match l.version with
      | .v4 =>
        if 65535 < l.segmentEnd then (.error (.malformed .ipv4TotalLen), p.located)
        else p.located.commitLength l.segmentEnd (Ipv4.openDraft · l.ipModified)
          (Ipv4.Edit.set .totalLen l.segmentEnd).apply
      | .v6 =>
        if 65535 < l.segmentLen then (.error (.malformed .ipv6PayloadLen), p.located)
        else p.located.commitLength l.segmentEnd (Ipv6.openDraft · l.ipModified)
          (Ipv6.Edit.set .payloadLen l.segmentLen).apply

/-- Replace the payload of a TCP packet and bring its length up to date. -/
def setTcpPayload (data : Bytes) (p : Packet) : Except Fault Unit × Packet :=
  match p.openTcp with
  | .error e => (.error e, p.located)
  | .ok d =>
    match Tcp.setPayload data d with
    | .error m => (.error (.malformed m), p.located)
    | .ok d' => (p.located.putTcp d').updateLength

/-! ## Giving up the buffer -/

/-- The buffer of a packet that is given up. A segment that has outgrown the packet is taken in
first, so that all of it counts as used. -/
def retire (p : Packet) : Except Fault Buffer :=
  match p.layout with
  | none => .ok p.buffer
  | some l =>
    if p.len < l.segmentEnd then
      match p.buffer.setLen? l.segmentEnd with
      | some b => .ok b
      | none => .error .outOfRange
    else .ok p.buffer

end Packet

end Intercept
