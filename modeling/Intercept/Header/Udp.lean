import Intercept.Header.Draft
import Intercept.IpAddr
import Intercept.Malformed

set_option autoImplicit false

/-! # UDP headers

The layout of the eight-byte UDP header, the test that a header is there, its fields, and changes
to them. -/

namespace Intercept.Udp

/-- The fields of a header. -/
inductive Cell where
  | srcPort | dstPort | length | checksum
deriving DecidableEq, Repr

/-- Where a field lies in a header. -/
def Cell.field : Cell → Field
  | .srcPort => ⟨0, 16⟩
  | .dstPort => ⟨16, 16⟩
  | .length => ⟨32, 16⟩
  | .checksum => ⟨48, 16⟩

/-- The port of a side, as a field. -/
def Cell.port : Side → Cell
  | .src => .srcPort
  | .dst => .dstPort

/-- The length of every header. -/
def headerLen : Nat := 8

/-- The number in a field. -/
def get (c : Cell) (b : Bytes) : Nat := c.field.read b

/-- Find a header at the start of the bytes and return its length. -/
def validate (b : Bytes) : Except Malformed Nat :=
  if b.size < headerLen then .error (.shortHeader .udp) else .ok headerLen

/-- The header at the start of the bytes, cut to its length. -/
def header (b : Bytes) : Except Malformed Bytes :=
  (validate b).map fun n => b.extract 0 n

/-- A change to a header: set a field, cut to its width. -/
inductive Edit where
  | set (cell : Cell) (value : Nat)

/-- The bytes after a change. -/
def Edit.apply : Edit → Bytes → Bytes
  | .set c v, b => c.field.write v b

/-- Open the bytes for changes to the header at their start. -/
def openDraft (b : Bytes) (modified : Bool) : Except Malformed Draft :=
  (validate b).map fun _ => ⟨b, modified⟩

/-- Make a change to an open header. -/
def edit (e : Edit) (d : Draft) : Draft := d.change e.apply

end Intercept.Udp
