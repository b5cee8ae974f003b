import Intercept.Malformed

set_option autoImplicit false

/-! # Transport protocols

An IP header names the protocol of what follows it by a number. Four protocols have a header
this library reads and writes; the names of a few more are known. -/

namespace Intercept

/-- The protocols whose header is known. -/
inductive Transport where
  | tcp | udp | icmpv4 | icmpv6
deriving DecidableEq, Repr

namespace Transport

/-- The number of a protocol in an IP header. -/
def number : Transport → Nat
  | .tcp => 6
  | .udp => 17
  | .icmpv4 => 1
  | .icmpv6 => 58

/-- The protocol with a number, if its header is known. -/
def ofNumber? (n : Nat) : Option Transport :=
  if n = 6 then some .tcp
  else if n = 17 then some .udp
  else if n = 1 then some .icmpv4
  else if n = 58 then some .icmpv6
  else none

/-- The layer that faults of a protocol's header belong to. -/
def layer : Transport → HeaderLayer
  | .tcp => .tcp
  | .udp => .udp
  | .icmpv4 => .icmpv4
  | .icmpv6 => .icmpv6

theorem ofNumber?_eq_some_iff {n : Nat} {t : Transport} :
    ofNumber? n = some t ↔ n = t.number := by
  cases t <;> grind [ofNumber?, number]

@[simp] theorem ofNumber?_number (t : Transport) : ofNumber? t.number = some t :=
  ofNumber?_eq_some_iff.2 rfl

end Transport

/-- The name of the protocol with a number. -/
def protocolName : Nat → String
  | 0 => "HOPOPT"
  | 1 => "ICMPv4"
  | 2 => "IGMP"
  | 4 => "IPv4"
  | 6 => "TCP"
  | 17 => "UDP"
  | 41 => "IPv6"
  | 43 => "IPv6-Route"
  | 44 => "IPv6-Frag"
  | 47 => "GRE"
  | 50 => "ESP"
  | 51 => "AH"
  | 58 => "ICMPv6"
  | 59 => "IPv6-NoNxt"
  | 60 => "IPv6-Opts"
  | 132 => "SCTP"
  | _ => "Unknown"

end Intercept
