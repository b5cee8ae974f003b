import Intercept.Header.Draft
import Intercept.IpAddr
import Intercept.Malformed

set_option autoImplicit false

/-! # IPv6 headers

The layout of the fixed forty-byte IPv6 header, the test that a header is there, its fields, and
changes to them. Extension headers are not looked into: they count as the next protocol. -/

namespace Intercept.Ipv6

/-! ## Layout -/

/-- The fields that may be set. -/
inductive Cell where
  | trafficClass | flowLabel | payloadLen | nextHeader | hopLimit | src | dst
deriving DecidableEq, Repr

/-- Where a field lies in a header. -/
def Cell.field : Cell → Field
  | .trafficClass => ⟨4, 8⟩
  | .flowLabel => ⟨12, 20⟩
  | .payloadLen => ⟨32, 16⟩
  | .nextHeader => ⟨48, 8⟩
  | .hopLimit => ⟨56, 8⟩
  | .src => ⟨64, 128⟩
  | .dst => ⟨192, 128⟩

/-- The address of a side, as a field. -/
def Cell.addr : Side → Cell
  | .src => .src
  | .dst => .dst

/-- The version, 6 in every header. -/
def versionField : Field := ⟨0, 4⟩

/-- The length of every header. -/
def headerLen : Nat := 40

/-! ## Reading -/

/-- The number in a field. -/
def get (c : Cell) (b : Bytes) : Nat := c.field.read b

/-- The version that the first byte states. -/
def version (b : Bytes) : Nat := versionField.read b

/-- The address of a side. -/
def addr (e : Side) (b : Bytes) : BitVec 128 := BitVec.ofNat 128 (get (.addr e) b)

/-- Find a header at the start of the bytes and return its length. -/
def validate (b : Bytes) : Except Malformed Nat :=
  if b.size < headerLen then .error .ipv6Truncated
  else if version b ≠ 6 then .error .ipv6Version
  else .ok headerLen

/-- The header at the start of the bytes, cut to its length. -/
def header (b : Bytes) : Except Malformed Bytes :=
  (validate b).map fun n => b.extract 0 n

/-! ## Changing -/

/-- A change to a header: set a field, cut to its width. -/
inductive Edit where
  | set (cell : Cell) (value : Nat)

/-- The bytes after a change. -/
def Edit.apply : Edit → Bytes → Bytes
  | .set c v, b => c.field.write v b

/-- Open the bytes for changes to the header at their start. -/
def openDraft (b : Bytes) (modified : Bool) : Except Malformed Draft :=
  (validate b).map fun _ => ⟨b, modified⟩

/-- Make a change to an open header. -/
def edit (e : Edit) (d : Draft) : Draft := d.change e.apply

/-! ## Showing -/

/-- The header in words, field by field. -/
def text (b : Bytes) : String :=
  "IPv6 " ++ (IpAddr.v6 (addr .src b)).text ++ " -> " ++ (IpAddr.v6 (addr .dst b)).text ++
    " class=" ++ Text.hexMarked 2 (get .trafficClass b) ++
    " flow=" ++ Text.hexMarked 5 (get .flowLabel b) ++
    " len=" ++ toString (get .payloadLen b) ++ " next=" ++ toString (get .nextHeader b) ++
    " hops=" ++ toString (get .hopLimit b)

end Intercept.Ipv6
