import Intercept.Bytes.Bits
import Intercept.IpAddr
import Intercept.Malformed
import Intercept.Text.Hex

set_option autoImplicit false

/-! # TCP segments

The layout of a TCP header, the test that a segment is there, its fields, and changes to them.
The header length is four times the data offset; the options lie between the first twenty bytes
and that length, and the payload is the rest of the segment.

A segment is changed in a space that may be larger than the segment, so that its payload can be
replaced by a longer one. A payload that grows is written into the space, and one that shrinks
leaves zeros where the old one ended. -/

namespace Intercept.Tcp

/-! ## Layout -/

/-- The fields that may be set. -/
inductive Cell where
  | srcPort | dstPort | seq | ack | reserved | flags | window | checksum | urgent
deriving DecidableEq, Repr

/-- Where a field lies in a header. -/
def Cell.field : Cell → Field
  | .srcPort => ⟨0, 16⟩
  | .dstPort => ⟨16, 16⟩
  | .seq => ⟨32, 32⟩
  | .ack => ⟨64, 32⟩
  | .reserved => ⟨100, 3⟩
  | .flags => ⟨103, 9⟩
  | .window => ⟨112, 16⟩
  | .checksum => ⟨128, 16⟩
  | .urgent => ⟨144, 16⟩

/-- The port of a side, as a field. -/
def Cell.port : Side → Cell
  | .src => .srcPort
  | .dst => .dstPort

/-- The header length in units of four bytes. -/
def dataOffsetField : Field := ⟨96, 4⟩

/-- The length of a header without options. -/
def minHeaderLen : Nat := 20

/-! ## Reading -/

/-- The number in a field. -/
def get (c : Cell) (b : Bytes) : Nat := c.field.read b

/-- The header length in units of four bytes. -/
def dataOffset (b : Bytes) : Nat := dataOffsetField.read b

/-- The length that the header states for itself, options included. -/
def headerLen (b : Bytes) : Nat := 4 * dataOffset b

/-- What lies between the fixed part of the header and its end. -/
def options (b : Bytes) : Bytes := b.extract minHeaderLen (headerLen b)

/-- What follows the header in its segment. -/
def payload (b : Bytes) : Bytes := b.extract (headerLen b) b.size

/-- Find a header at the start of a segment and return its length. -/
def validate (b : Bytes) : Except Malformed Nat :=
  if b.size < minHeaderLen then .error .tcpTruncated
  else if headerLen b < minHeaderLen then .error .tcpDataOffset
  else if b.size < headerLen b then .error .tcpOptionsTruncated
  else .ok (headerLen b)

/-! ## Changing -/

/-- A segment open for changes: the space it lies at the start of, its length, and whether a
change has been asked for. -/
structure Draft where
  space : Bytes
  len : Nat
  modified : Bool

namespace Draft

/-- The segment as it stands. -/
def segment (d : Draft) : Bytes := d.space.extract 0 d.len

end Draft

/-- Open a space for changes to the segment in its first `len` bytes. -/
def openDraft (space : Bytes) (len : Nat) (modified : Bool) : Except Malformed Draft :=
  if space.size < len then .error .tcpSpace
  else (validate (space.extract 0 len)).map fun _ => ⟨space, len, modified⟩

/-- A change to a segment that keeps its length. -/
inductive Edit where
  /-- Set a field, cut to its width. -/
  | set (cell : Cell) (value : Nat)
  /-- Raise or lower the flags of a mask. -/
  | flag (mask : Nat) (on : Bool)
  /-- Overwrite options from an offset on; what does not fit into the options is not written. -/
  | options (offset : Nat) (data : Bytes)
  /-- Overwrite payload from an offset on; what does not fit into the payload is not written. -/
  | payload (offset : Nat) (data : Bytes)

/-- The flags with those of a mask raised or lowered. -/
def maskFlags (flags mask : Nat) (on : Bool) : Nat :=
  if on then flags ||| mask else flags &&& (511 ^^^ (mask % 512))

/-- The effect of a change on a space that holds a segment of `len` bytes. -/
def Edit.apply (len : Nat) : Edit → Bytes → Bytes
  | .set c v, b => c.field.write v b
  | .flag mask on, b => Cell.flags.field.write (maskFlags (get .flags b) mask on) b
  | .options offset data, b =>
    if offset + data.size ≤ headerLen b - minHeaderLen then
      b.overwrite (minHeaderLen + offset) data
    else b
  | .payload offset data, b =>
    if offset + data.size ≤ len - headerLen b then b.overwrite (headerLen b + offset) data else b

/-- Make a change that keeps the length. -/
def edit (e : Edit) (d : Draft) : Draft :=
  { d with space := e.apply d.len d.space, modified := true }

/-- Replace the payload. Refused, with nothing changed, if the space is too small. -/
def setPayload (p : Bytes) (d : Draft) : Except Malformed Draft :=
  let h := headerLen d.space
  let len := h + p.size
  if d.space.size < len then .error .tcpPayloadSpace
  else .ok ⟨(d.space.overwrite h p).clear len d.len, len, true⟩

/-! ## Showing -/

/-- The names of the flags that are set, highest first. -/
def flagNames (bits : Nat) : List String :=
  [(8, "NS"), (7, "CWR"), (6, "ECE"), (5, "URG"), (4, "ACK"), (3, "PSH"), (2, "RST"), (1, "SYN"),
    (0, "FIN")].filterMap fun f => if bits.testBit f.1 then some f.2 else none

/-- The header of the segment in words, field by field. -/
def text (b : Bytes) : String :=
  "TCP " ++ toString (get .srcPort b) ++ " -> " ++ toString (get .dstPort b) ++
    " seq=" ++ Text.hexMarked 0 (get .seq b) ++ " ack=" ++ toString (get .ack b) ++
    " hlen=" ++ toString (headerLen b) ++ " reserved=" ++ toString (get .reserved b) ++
    " flags=[" ++ " ".intercalate (flagNames (get .flags b)) ++ "] window=" ++
    toString (get .window b) ++ " checksum=" ++ Text.hexMarked 4 (get .checksum b) ++
    " urgent=" ++ toString (get .urgent b) ++
    " options=" ++ Text.hexBytes (options b).data.toList ++
    " payload=" ++ toString (payload b).size ++ " bytes"

end Intercept.Tcp
