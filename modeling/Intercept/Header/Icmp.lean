import Intercept.Header.Draft
import Intercept.Malformed

set_option autoImplicit false

/-! # ICMP headers

The eight-byte header that ICMP for IPv4 and ICMP for IPv6 have in common: its layout, the test
that a header is there, its fields, and changes to them. The rest of the header is one number
for most purposes, and an identifier and a sequence number for echo messages. -/

namespace Intercept.Icmp

/-- The two protocols that share the header. -/
inductive Family where
  | icmpv4 | icmpv6
deriving DecidableEq, Repr

/-- The layer that faults of a family's header belong to. -/
def Family.layer : Family → HeaderLayer
  | .icmpv4 => .icmpv4
  | .icmpv6 => .icmpv6

/-- The fields that may be set. -/
inductive Cell where
  | type | code | checksum | rest
deriving DecidableEq, Repr

/-- Where a field lies in a header. -/
def Cell.field : Cell → Field
  | .type => ⟨0, 8⟩
  | .code => ⟨8, 8⟩
  | .checksum => ⟨16, 16⟩
  | .rest => ⟨32, 32⟩

/-- The identifier, the first half of the rest of the header. -/
def identifierField : Field := ⟨32, 16⟩

/-- The sequence number, the second half of the rest of the header. -/
def sequenceField : Field := ⟨48, 16⟩

/-- The length of every header. -/
def headerLen : Nat := 8

/-- The number in a field. -/
def get (c : Cell) (b : Bytes) : Nat := c.field.read b

/-- The identifier of an echo message. -/
def identifier (b : Bytes) : Nat := identifierField.read b

/-- The sequence number of an echo message. -/
def sequence (b : Bytes) : Nat := sequenceField.read b

/-- Find a header at the start of the bytes and return its length. -/
def validate (f : Family) (b : Bytes) : Except Malformed Nat :=
  if b.size < headerLen then .error (.shortHeader f.layer) else .ok headerLen

/-- The header at the start of the bytes, cut to its length. -/
def header (f : Family) (b : Bytes) : Except Malformed Bytes :=
  (validate f b).map fun n => b.extract 0 n

/-- A change to a header: set a field, cut to its width. -/
inductive Edit where
  | set (cell : Cell) (value : Nat)

/-- The bytes after a change. -/
def Edit.apply : Edit → Bytes → Bytes
  | .set c v, b => c.field.write v b

/-- Open the bytes for changes to the header at their start. -/
def openDraft (f : Family) (b : Bytes) (modified : Bool) : Except Malformed Draft :=
  (validate f b).map fun _ => ⟨b, modified⟩

/-- Make a change to an open header. -/
def edit (e : Edit) (d : Draft) : Draft := d.change e.apply

end Intercept.Icmp
