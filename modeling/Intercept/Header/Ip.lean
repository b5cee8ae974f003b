import Intercept.Header.Ipv4
import Intercept.Header.Ipv6

set_option autoImplicit false

/-! # IP headers of either version

The version in the first four bits of a packet says which of the two headers follows. -/

namespace Intercept

/-- The versions of IP. -/
inductive IpVersion where
  | v4 | v6
deriving DecidableEq, Repr

/-- The number of a version, as the first four bits of a packet have it. -/
def IpVersion.number : IpVersion → Nat
  | .v4 => 4
  | .v6 => 6

/-- The bytes of an IP header. -/
inductive IpHeader where
  | v4 (bytes : Bytes)
  | v6 (bytes : Bytes)

namespace IpHeader

/-- The header at the start of a packet. -/
def ofBytes (b : Bytes) : Except Malformed IpHeader :=
  if b.size = 0 then .error .ipEmpty
  else if Ipv4.version b = 4 then (Ipv4.header b).map .v4
  else if Ipv4.version b = 6 then (Ipv6.header b).map .v6
  else .error .ipVersion

/-- The bytes of the header, options included. -/
def bytes : IpHeader → Bytes
  | .v4 b => b
  | .v6 b => b

/-- The version a header was read as. -/
def version : IpHeader → IpVersion
  | .v4 _ => .v4
  | .v6 _ => .v6

/-- The length of the header. An IPv4 header states it. -/
def headerLen : IpHeader → Nat
  | .v4 b => Ipv4.headerLen b
  | .v6 b => b.size

/-- The number of the protocol that follows. -/
def nextProtocol : IpHeader → Nat
  | .v4 b => Ipv4.get .protocol b
  | .v6 b => Ipv6.get .nextHeader b

/-- The address of a side. -/
def addr (e : Side) : IpHeader → IpAddr
  | .v4 b => .v4 (Ipv4.addr e b)
  | .v6 b => .v6 (Ipv6.addr e b)

end IpHeader

/-! ## Changing -/

/-- Bytes open for changes to the IP header at their start. -/
inductive IpDraft where
  | v4 (draft : Draft)
  | v6 (draft : Draft)

/-- A change to an IP header, of the version it is meant for. -/
inductive IpEdit where
  | v4 (edit : Ipv4.Edit)
  | v6 (edit : Ipv6.Edit)

namespace IpDraft

/-- Open bytes for changes to the header of a version at their start. -/
def ofBytes (v : IpVersion) (modified : Bool) (b : Bytes) : Except Malformed IpDraft :=
  match v with
  | .v4 => (Ipv4.openDraft b modified).map .v4
  | .v6 => (Ipv6.openDraft b modified).map .v6

/-- The bytes and the mark, whatever the version. -/
def draft : IpDraft → Draft
  | .v4 d => d
  | .v6 d => d

/-- The header at the start of the open bytes, as it stands. -/
def header : IpDraft → IpHeader
  | .v4 d => .v4 (d.bytes.extract 0 (Ipv4.headerLen d.bytes))
  | .v6 d => .v6 (d.bytes.extract 0 Ipv6.headerLen)

/-- Make a change, unless it is meant for the other version. -/
def edit? : IpEdit → IpDraft → Option IpDraft
  | .v4 e, .v4 d => some (.v4 (Ipv4.edit e d))
  | .v6 e, .v6 d => some (.v6 (Ipv6.edit e d))
  | _, _ => none

/-- Set the address of a side, unless it is of the other family. -/
def setAddr? (e : Side) : IpAddr → IpDraft → Option IpDraft
  | .v4 a => edit? (.v4 (.set (.addr e) a.toNat))
  | .v6 a => edit? (.v6 (.set (.addr e) a.toNat))

end IpDraft

end Intercept
