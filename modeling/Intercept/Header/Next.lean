import Intercept.Header.Icmp
import Intercept.Header.Tcp
import Intercept.Header.Udp
import Intercept.Protocol

set_option autoImplicit false

/-! # Headers that follow the IP header

What follows an IP header is read by its protocol number. A protocol whose header is not known is
not an error: it has a number and nothing else. -/

namespace Intercept

/-- What follows an IP header: a TCP segment, the header of another known protocol, or the number
of an unknown one. -/
inductive NextHeader where
  | tcp (segment : Bytes)
  | udp (bytes : Bytes)
  | icmp (family : Icmp.Family) (bytes : Bytes)
  | unsupported (protocol : Nat)

namespace NextHeader

/-- Read what follows an IP header as the given protocol. -/
def ofBytes (protocol : Nat) (b : Bytes) : Except Malformed NextHeader :=
  match Transport.ofNumber? protocol with
  | some .tcp => (Tcp.validate b).map fun _ => .tcp b
  | some .udp => (Udp.header b).map .udp
  | some .icmpv4 => (Icmp.header .icmpv4 b).map (.icmp .icmpv4)
  | some .icmpv6 => (Icmp.header .icmpv6 b).map (.icmp .icmpv6)
  | none => .ok (.unsupported protocol)

/-- The number of the protocol that a header was read as. -/
def protocol : NextHeader → Nat
  | .tcp _ => Transport.tcp.number
  | .udp _ => Transport.udp.number
  | .icmp .icmpv4 _ => Transport.icmpv4.number
  | .icmp .icmpv6 _ => Transport.icmpv6.number
  | .unsupported p => p

/-- The name of its protocol. -/
def name (h : NextHeader) : String := protocolName h.protocol

/-- The length of the header, nothing for an unknown one. -/
def headerLen : NextHeader → Nat
  | .tcp b => Tcp.headerLen b
  | .udp b => b.size
  | .icmp _ b => b.size
  | .unsupported _ => 0

/-- The port of a side, of the protocols that have ports. -/
def port? (e : Side) : NextHeader → Option UInt16
  | .tcp b => some (UInt16.ofNat (Tcp.get (.port e) b))
  | .udp b => some (UInt16.ofNat (Udp.get (.port e) b))
  | _ => none

/-- A header by its record, for listings: the name of the record and the bytes in it. -/
def record : NextHeader → String
  | .tcp b => "TcpRef \x7b data: " ++ Text.decimalBytes b.toList ++ " \x7d"
  | .udp b => "UdpRef \x7b data: " ++ Text.decimalBytes b.toList ++ " \x7d"
  | .icmp .icmpv4 b => "Icmpv4Ref \x7b data: " ++ Text.decimalBytes b.toList ++ " \x7d"
  | .icmp .icmpv6 b => "Icmpv6Ref \x7b data: " ++ Text.decimalBytes b.toList ++ " \x7d"
  | .unsupported p => toString p

/-- The kind of header, for listings. -/
def kindName : NextHeader → String
  | .tcp _ => "Tcp"
  | .udp _ => "Udp"
  | .icmp .icmpv4 _ => "Icmpv4"
  | .icmp .icmpv6 _ => "Icmpv6"
  | .unsupported _ => "Unsupported"

/-- A header by its kind and record, for listings. -/
def listing (h : NextHeader) : String := h.kindName ++ "(" ++ h.record ++ ")"

end NextHeader

/-! ## Changing -/

/-- Bytes open for changes to what follows an IP header. -/
inductive NextDraft where
  | tcp (draft : Tcp.Draft)
  | udp (draft : Draft)
  | icmp (family : Icmp.Family) (draft : Draft)
  | unsupported (protocol : Nat)

/-- A change, that keeps the length, to what follows an IP header. -/
inductive NextEdit where
  | tcp (edit : Tcp.Edit)
  | udp (edit : Udp.Edit)
  | icmp (edit : Icmp.Edit)

namespace NextDraft

/-- Open bytes for changes to the header of a protocol at their start. A TCP segment has `len` of
the bytes, and the rest is space it may grow into. -/
def ofBytes (t : Transport) (len : Nat) (modified : Bool) (b : Bytes) :
    Except Malformed NextDraft :=
  match t with
  | .tcp => (Tcp.openDraft b len modified).map .tcp
  | .udp => (Udp.openDraft b modified).map .udp
  | .icmpv4 => (Icmp.openDraft .icmpv4 b modified).map (.icmp .icmpv4)
  | .icmpv6 => (Icmp.openDraft .icmpv6 b modified).map (.icmp .icmpv6)

/-- The header of the open bytes, as it stands. A TCP segment is shown whole. -/
def header : NextDraft → NextHeader
  | .tcp d => .tcp d.segment
  | .udp d => .udp (d.bytes.extract 0 Udp.headerLen)
  | .icmp f d => .icmp f (d.bytes.extract 0 Icmp.headerLen)
  | .unsupported p => .unsupported p

/-- A change has been asked for. -/
def isModified : NextDraft → Bool
  | .tcp d => d.modified
  | .udp d => d.modified
  | .icmp _ d => d.modified
  | .unsupported _ => false

/-- Make a change, unless it is meant for another header. -/
def edit? : NextEdit → NextDraft → Option NextDraft
  | .tcp e, .tcp d => some (.tcp (Tcp.edit e d))
  | .udp e, .udp d => some (.udp (Udp.edit e d))
  | .icmp e, .icmp f d => some (.icmp f (Icmp.edit e d))
  | _, _ => none

/-- Set the port of a side, of the protocols that have ports. -/
def setPort? (e : Side) (port : UInt16) : NextDraft → Option NextDraft
  | .tcp d => some (.tcp (Tcp.edit (.set (.port e) port.toNat) d))
  | .udp d => some (.udp (Udp.edit (.set (.port e) port.toNat) d))
  | _ => none

end NextDraft

end Intercept
