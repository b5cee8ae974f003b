import Intercept.Header.Draft
import Intercept.IpAddr
import Intercept.Malformed

set_option autoImplicit false

/-! # IPv4 headers

The layout of an IPv4 header, the test that a header is there, its fields, and changes to them.
The header length is four times the low half of the first byte, and what lies between the first
twenty bytes and that length are the options. -/

namespace Intercept.Ipv4

/-! ## Layout -/

/-- The fields that may be set on their own. -/
inductive Cell where
  | tos | totalLen | id | fragOffset | ttl | protocol | checksum | src | dst
deriving DecidableEq, Repr

/-- Where a field lies in a header. -/
def Cell.field : Cell → Field
  | .tos => ⟨8, 8⟩
  | .totalLen => ⟨16, 16⟩
  | .id => ⟨32, 16⟩
  | .fragOffset => ⟨51, 13⟩
  | .ttl => ⟨64, 8⟩
  | .protocol => ⟨72, 8⟩
  | .checksum => ⟨80, 16⟩
  | .src => ⟨96, 32⟩
  | .dst => ⟨128, 32⟩

/-- The address of a side, as a field. -/
def Cell.addr : Side → Cell
  | .src => .src
  | .dst => .dst

/-- The version, 4 in every header. -/
def versionField : Field := ⟨0, 4⟩

/-- The header length in units of four bytes. -/
def ihlField : Field := ⟨4, 4⟩

/-- The three flags, which share a byte with the top of the fragment offset. -/
def flagsField : Field := ⟨48, 3⟩

/-- The length of a header without options. -/
def minHeaderLen : Nat := 20

/-! ## Reading -/

/-- The number in a field. -/
def get (c : Cell) (b : Bytes) : Nat := c.field.read b

/-- The version that the first byte states. -/
def version (b : Bytes) : Nat := versionField.read b

/-- The header length in units of four bytes. -/
def ihl (b : Bytes) : Nat := ihlField.read b

/-- The length that the header states for itself, options included. -/
def headerLen (b : Bytes) : Nat := 4 * ihl b

/-- The flags, in the place they have in their byte. -/
def flags (b : Bytes) : Nat := 32 * flagsField.read b

/-- The address of a side. -/
def addr (e : Side) (b : Bytes) : BitVec 32 := BitVec.ofNat 32 (get (.addr e) b)

/-- What lies between the fixed part of the header and its end. -/
def options (b : Bytes) : Bytes := b.extract minHeaderLen (headerLen b)

/-- Find a header at the start of the bytes and return its length. -/
def validate (b : Bytes) : Except Malformed Nat :=
  if b.size = 0 then .error .ipv4Empty
  else if version b ≠ 4 then .error .ipv4Version
  else if headerLen b < minHeaderLen then .error .ipv4HeaderLen
  else if b.size < headerLen b then .error .ipv4Truncated
  else .ok (headerLen b)

/-- The header at the start of the bytes, cut to its length. -/
def header (b : Bytes) : Except Malformed Bytes :=
  (validate b).map fun n => b.extract 0 n

/-! ## Changing -/

/-- A change to a header. A number is cut to the width of its field. -/
inductive Edit where
  /-- Set a field, cut to its width. -/
  | set (cell : Cell) (value : Nat)
  /-- Put flags beside the fragment offset. The bits are joined as they come, so bits that are
  no flags are added to those of the offset. -/
  | flags (bits : UInt8)
  /-- Overwrite options from an offset on; what does not fit into the options is not written. -/
  | options (offset : Nat) (data : Bytes)

/-- The bytes after a change. -/
def Edit.apply : Edit → Bytes → Bytes
  | .set c v, b => c.field.write v b
  | .flags bits, b => b.put 6 ((b.byte 6 &&& 0x1f) ||| bits)
  | .options offset data, b =>
    if offset + data.size ≤ headerLen b - minHeaderLen then
      b.overwrite (minHeaderLen + offset) data
    else b

/-- Open the bytes for changes to the header at their start. -/
def openDraft (b : Bytes) (modified : Bool) : Except Malformed Draft :=
  (validate b).map fun _ => ⟨b, modified⟩

/-- Make a change to an open header. -/
def edit (e : Edit) (d : Draft) : Draft := d.change e.apply

/-! ## Showing -/

/-- The names of the flags that are set, highest first. -/
def flagNames (bits : Nat) : List String :=
  [(7, "RESERVED"), (6, "DONT_FRAGMENT"), (5, "MORE_FRAGMENTS")].filterMap fun f =>
    if bits.testBit f.1 then some f.2 else none

/-- The header in words, field by field. -/
def text (b : Bytes) : String :=
  "IPv4 " ++ (IpAddr.v4 (addr .src b)).text ++ " -> " ++ (IpAddr.v4 (addr .dst b)).text ++
    " hlen=" ++ toString (headerLen b) ++ " tos=" ++ Text.hexMarked 2 (get .tos b) ++
    " len=" ++ toString (get .totalLen b) ++ " id=" ++ Text.hexMarked 4 (get .id b) ++
    " flags=[" ++ " ".intercalate (flagNames (flags b)) ++ "] frag=" ++
    toString (get .fragOffset b) ++ " ttl=" ++ toString (get .ttl b) ++
    " protocol=" ++ toString (get .protocol b) ++
    " checksum=" ++ Text.hexMarked 4 (get .checksum b)

end Intercept.Ipv4
