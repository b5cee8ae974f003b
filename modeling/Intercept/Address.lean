set_option autoImplicit false

/-! # Packet addresses

What a driver records about a packet beside its bytes: when and on which interface it was seen,
and in which direction it was going. The record travels with the packet, because it is needed to
put the packet back where it came from. -/

namespace Intercept

/-- The direction a packet was going in. -/
inductive Direction where
  | outbound | inbound
deriving DecidableEq, Repr

/-- How a direction is written. -/
def Direction.name : Direction → String
  | .outbound => "Outbound"
  | .inbound => "Inbound"

/-- Where and when a packet was seen. The lowest bit of `data` is the direction; the other bits
belong to the driver. -/
structure Address where
  timestamp : Int
  interface : Nat
  subInterface : Nat
  data : UInt8
deriving DecidableEq, Repr

namespace Address

/-- The address of a packet that was never seen. -/
def blank : Address := ⟨0, 0, 0, 0⟩

/-- The direction recorded in an address. -/
def direction (a : Address) : Direction :=
  if a.data &&& 1 = 0 then .outbound else .inbound

/-- Record a direction, leaving the other bits alone. -/
def setDirection (d : Direction) (a : Address) : Address :=
  match d with
  | .inbound => { a with data := a.data ||| 1 }
  | .outbound => { a with data := a.data &&& 0xfe }

/-- An address on an interface, with a direction and nothing else recorded. -/
def onInterface (interface subInterface : Nat) (d : Direction) : Address :=
  { blank with interface, subInterface }.setDirection d

/-- The address in words, for people. -/
def text (a : Address) : String :=
  "\x7b Timestamp: " ++ toString a.timestamp ++ ", Interface: " ++ toString a.interface ++
    ", SubInterface: " ++ toString a.subInterface ++ ", Direction: " ++ a.direction.name ++ " \x7d"

/-- The address by its record, for listings. -/
def listing (a : Address) : String :=
  "Address \x7b timestamp: " ++ toString a.timestamp ++ ", if_idx: " ++ toString a.interface ++
    ", sub_if_idx: " ++ toString a.subInterface ++ ", data: " ++ toString a.data.toNat ++ " \x7d"

end Address

end Intercept
