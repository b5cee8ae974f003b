import Intercept.Text.Quoted

set_option autoImplicit false

/-! # Configuration of a session

Which packets a session intercepts, where in the network stack, what becomes of them, and how
many a receive loop may queue ahead of its consumer. -/

namespace Intercept

/-- Where in the network stack packets are intercepted: those of this machine, or those that pass
through it. -/
inductive StackLayer where
  | network | forward
deriving DecidableEq, Repr

namespace StackLayer

/-- The number drivers know a layer by. -/
def number : StackLayer → Nat
  | .network => 0
  | .forward => 1

/-- How a layer is written. -/
def name : StackLayer → String
  | .network => "Network"
  | .forward => "NetworkForward"

end StackLayer

/-! ## Session flags -/

/-- A set of session flags, one bit each. Bits without a meaning are kept. -/
structure SessionFlags where
  bits : Nat
deriving DecidableEq, Repr

namespace SessionFlags

/-- The flags with a meaning: packets are copied rather than taken, or dropped unseen, or the
driver reports on itself. -/
def known : List (Nat × String) := [(0, "SNIFF"), (1, "DROP"), (2, "DEBUG")]

/-- The names of the flags in a set, lowest bit first. -/
def names (f : SessionFlags) : List String :=
  known.filterMap fun k => if f.bits.testBit k.1 then some k.2 else none

/-- The bits of a set that have no meaning, in their places. -/
def unknown (f : SessionFlags) : Nat := f.bits >>> known.length <<< known.length

/-- Only the bits with a meaning. -/
def truncate (f : SessionFlags) : SessionFlags := ⟨f.bits % (1 <<< known.length)⟩

/-- A set of flags for listings: the names, then the other bits as one number. -/
def listing (f : SessionFlags) : String :=
  let rest := if f.unknown = 0 then [] else [Text.hexMarked 0 f.unknown]
  let items := f.names ++ rest
  "DivertFlags(" ++ (if items.isEmpty then "0x0" else " | ".intercalate items) ++ ")"

end SessionFlags

/-! ## Configurations -/

/-- What a session is opened with. The priority ranks it among the sessions of its layer, and the
capacity is that of the queue of a receive loop. -/
structure Config where
  filter : String
  layer : StackLayer
  priority : Int
  flags : SessionFlags
  queueCapacity : Nat
deriving DecidableEq, Repr

namespace Config

/-- Everything on the network layer, and 256 packets ahead of the consumer. -/
def standard : Config := ⟨"true", .network, 0, ⟨0⟩, 256⟩

/-- Set the capacity of the queue, at least one. -/
def withQueueCapacity (n : Nat) (c : Config) : Config := { c with queueCapacity := max n 1 }

/-- The capacity a receive loop works with: at least one packet has to fit. -/
def loopCapacity (c : Config) : Nat := max c.queueCapacity 1

/-- The configuration by its record, for listings. -/
def listing (c : Config) : String :=
  "DivertConfig \x7b filter: " ++ Text.quoted c.filter ++ ", layer: " ++ c.layer.name ++
    ", priority: " ++ toString c.priority ++ ", flags: " ++ c.flags.listing ++
    ", queue_capacity: " ++ toString c.queueCapacity ++ " \x7d"

end Config

end Intercept
