import Intercept.Text.Hex

set_option autoImplicit false

/-! # IP addresses

An IPv4 address is written as four decimal numbers. An IPv6 address is written as eight
hexadecimal groups, the longest run of at least two zero groups, the first of equals, left out
between two colons; an IPv4 address mapped into IPv6 ends in its dotted form. -/

namespace Intercept

/-- One of the two ends of a packet's way. Each has an address, and with some protocols a port. -/
inductive Side where
  | src | dst
deriving DecidableEq, Repr

/-- An address of either family. -/
inductive IpAddr where
  | v4 (addr : BitVec 32)
  | v6 (addr : BitVec 128)
deriving DecidableEq, Repr

namespace IpAddr

/-- The dotted form of an IPv4 address, of the low 32 bits of a longer number. -/
def dotted (n : Nat) : String :=
  ".".intercalate ([24, 16, 8, 0].map fun shift => toString (n >>> shift % 256))

/-- The eight groups of an IPv6 address. -/
def groups (n : Nat) : List Nat :=
  [112, 96, 80, 64, 48, 32, 16, 0].map fun shift => n >>> shift % 65536

/-- A run of groups: where it starts and how many it has. -/
structure Run where
  start : Nat
  len : Nat
deriving DecidableEq, Repr

/-- The longest run of zero groups, the first of equals. -/
def longestZeroRun (gs : List Nat) : Run :=
  let step (acc : Run × Run) (g : Nat × Nat) : Run × Run :=
    if g.1 = 0 then
      let here : Run := if acc.2.len = 0 then ⟨g.2, 1⟩ else ⟨acc.2.start, acc.2.len + 1⟩
      (if acc.1.len < here.len then here else acc.1, here)
    else (acc.1, ⟨0, 0⟩)
  (gs.zipIdx.foldl step (⟨0, 0⟩, ⟨0, 0⟩)).1

/-- Groups in hexadecimal, separated by colons. -/
def colons (gs : List Nat) : String := ":".intercalate (gs.map Text.hex)

/-- The usual form of an IPv6 address. One that maps an IPv4 address ends in the dotted form; in any
other the longest run of two zero groups or more is left out. -/
def sixText (n : Nat) : String :=
  if n >>> 32 = 0xffff then "::ffff:" ++ dotted n
  else
    let gs := groups n
    let run := longestZeroRun gs
    if run.len < 2 then colons gs
    else colons (gs.take run.start) ++ "::" ++ colons (gs.drop (run.start + run.len))

/-- The usual form of an address. -/
def text : IpAddr → String
  | .v4 a => dotted a.toNat
  | .v6 a => sixText a.toNat

end IpAddr

end Intercept
