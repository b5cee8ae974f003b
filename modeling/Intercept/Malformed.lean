set_option autoImplicit false

/-! # Malformed headers

Why a stretch of bytes cannot be read, or can no longer be written, as the header it stands for.
A cause names the layer that failed, says what kind of fault it is, and gives the reason in
words. -/

namespace Intercept

/-- The layer a fault was found in. -/
inductive HeaderLayer where
  | ip | ipv4 | ipv6 | tcp | udp | icmpv4 | icmpv6
deriving DecidableEq, Repr

/-- How a layer is written. -/
def HeaderLayer.name : HeaderLayer → String
  | .ip => "IP"
  | .ipv4 => "IPv4"
  | .ipv6 => "IPv6"
  | .tcp => "TCP"
  | .udp => "UDP"
  | .icmpv4 => "ICMPv4"
  | .icmpv6 => "ICMPv6"

/-- What kind of fault was found: bytes are missing, a length does not fit, or a field has a
value the header cannot be read with. -/
inductive FaultKind where
  | insufficientBytes | invalidSize | invalidValue
deriving DecidableEq, Repr

/-- How a kind is written. -/
def FaultKind.name : FaultKind → String
  | .insufficientBytes => "InsufficientBytes"
  | .invalidSize => "InvalidSize"
  | .invalidValue => "InvalidValue"

/-- The causes for which a header is refused. -/
inductive Malformed where
  /-- No byte to take the IP version from. -/
  | ipEmpty
  | ipVersion
  /-- No byte to take the IPv4 version and header length from. -/
  | ipv4Empty
  | ipv4Version
  /-- The IPv4 header length is below the least header. -/
  | ipv4HeaderLen
  /-- Fewer bytes than the IPv4 header length states. -/
  | ipv4Truncated
  /-- More bytes behind the IPv4 header than a pseudo-header can state. -/
  | ipv4PseudoLen
  /-- The packet has outgrown the IPv4 total length field. -/
  | ipv4TotalLen
  | ipv6Truncated
  | ipv6Version
  /-- The packet has outgrown the IPv6 payload length field. -/
  | ipv6PayloadLen
  /-- Fewer bytes than the least TCP header. -/
  | tcpTruncated
  /-- The TCP data offset is below the least header. -/
  | tcpDataOffset
  /-- Fewer bytes than the TCP data offset states. -/
  | tcpOptionsTruncated
  /-- The segment is longer than the space it may be edited in. -/
  | tcpSpace
  /-- A new payload needs more than the space the segment may be edited in. -/
  | tcpPayloadSpace
  /-- Fewer than the eight bytes of a UDP or ICMP header. -/
  | shortHeader (layer : HeaderLayer)
  /-- Fewer than eight bytes to hold the checksum of a UDP or ICMP header. -/
  | shortTransport (layer : HeaderLayer)
deriving DecidableEq, Repr

namespace Malformed

/-- The layer a cause belongs to. -/
def layer : Malformed → HeaderLayer
  | ipEmpty | ipVersion => .ip
  | ipv4Empty | ipv4Version | ipv4HeaderLen | ipv4Truncated | ipv4PseudoLen | ipv4TotalLen => .ipv4
  | ipv6Truncated | ipv6Version | ipv6PayloadLen => .ipv6
  | tcpTruncated | tcpDataOffset | tcpOptionsTruncated | tcpSpace | tcpPayloadSpace => .tcp
  | shortHeader l | shortTransport l => l

/-- The kind of fault a cause is. -/
def kind : Malformed → FaultKind
  | ipVersion | ipv4Version | ipv4HeaderLen | ipv6Version | tcpDataOffset => .invalidValue
  | ipv4PseudoLen | ipv4TotalLen | ipv6PayloadLen => .invalidSize
  | _ => .insufficientBytes

/-- A cause in words, without its layer. -/
def reason : Malformed → String
  | ipEmpty => "packet too short for IP header--missing version byte"
  | ipVersion => "IP version number was neither 4 nor 6"
  | ipv4Empty => "packet too short for IPv4 header--missing version/IHL byte"
  | ipv4Version => "version number of IPv4 header was not equal to 0x04"
  | ipv4HeaderLen => "invalid IPv4 header length value (IHL must be a value of 5 or more)"
  | ipv4Truncated => "insufficient bytes for IPv4 header length indicated by IHL"
  | ipv4PseudoLen => "IPv4 packet too long for its payload length to fit the pseudo-header"
  | ipv4TotalLen => "packet length no longer fits the IPv4 total length field"
  | ipv6Truncated => "insufficient bytes for 40-byte IPv6 header"
  | ipv6Version => "version number of IPv6 header was not equal to 0x06"
  | ipv6PayloadLen => "payload length no longer fits the IPv6 payload length field"
  | tcpTruncated => "insufficient bytes for 20-byte TCP header"
  | tcpDataOffset => "invalid TCP data offset (must be a value of 5 or more)"
  | tcpOptionsTruncated => "insufficient bytes for TCP header length indicated by data offset"
  | tcpSpace => "TCP segment length exceeds the available buffer"
  | tcpPayloadSpace => "new TCP payload exceeds the space available to the segment"
  | shortHeader l => "insufficient bytes for 8-byte " ++ l.name ++ " header"
  | shortTransport _ => "insufficient bytes for 8-byte transport header"

/-- A cause in words, with its layer. -/
def message (m : Malformed) : String :=
  "malformed " ++ m.layer.name ++ " header: " ++ m.reason

end Malformed

end Intercept
