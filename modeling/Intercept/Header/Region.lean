import Intercept.Header.Request

set_option autoImplicit false

/-! # Regions

A region is a stretch of bytes that headers are opened over again and again. It keeps what has
to outlive an open header: the bytes, whether a change has been asked for, and the length of a
TCP segment that may be shorter than the region. Each request opens the header anew and is
answered with the reason if there is none. -/

namespace Intercept

/-- Bytes, whether a change has been asked for, and the length of a TCP segment in them. -/
structure Region where
  bytes : Bytes
  modified : Bool
  len : Nat

namespace Region

/-- The header that is opened over a region. -/
inductive Kind where
  | ip (version : IpVersion)
  | transport (protocol : Transport)
  /-- A protocol whose header is not known, by its number. -/
  | unsupported (protocol : Nat)

/-- What can be done to a region. -/
inductive Step where
  /-- State another length of the segment. -/
  | setLen (n : Nat)
  /-- Forget that a change has been asked for. -/
  | clearMark
  /-- Overwrite bytes without opening a header. -/
  | overwrite (offset : Nat) (data : Bytes)
  /-- Make a request to the IP header. -/
  | ip (request : IpRequest)
  /-- Make a request to the header of another layer. -/
  | next (request : NextRequest)

/-- The region once an open IP header is done with. -/
def putIp (d : IpDraft) (r : Region) : Region :=
  { r with bytes := d.draft.bytes, modified := d.draft.modified }

/-- The region once an open header of another layer is done with. -/
def putNext (d : NextDraft) (r : Region) : Region :=
  match d with
  | .tcp d => ⟨d.space, d.modified, d.len⟩
  | .udp d | .icmp _ d => { r with bytes := d.bytes, modified := d.modified }
  | .unsupported _ => r

/-- Open the header of another layer than IP. -/
def openNext (k : Kind) (r : Region) : Option (Except Malformed NextDraft) :=
  match k with
  | .ip _ => none
  | .transport t => some (NextDraft.ofBytes t r.len r.modified r.bytes)
  | .unsupported p => some (.ok (.unsupported p))

/-- Make a request to the IP header. -/
def askIp (v : IpVersion) (q : IpRequest) (r : Region) : HeaderReply × Region :=
  match IpDraft.ofBytes v r.modified r.bytes with
  | .error m => (.malformed m, r)
  | .ok d =>
    let (a, d) := d.answer q
    (a, r.putIp d)

/-- Make a request to a header of another layer. -/
def askNext (k : Kind) (q : NextRequest) (r : Region) : HeaderReply × Region :=
  match r.openNext k with
  | none => (.unavailable, r)
  | some (.error m) => (.malformed m, r)
  | some (.ok d) =>
    let (a, d) := d.answer q
    (a, r.putNext d)

/-- Do a step, given the header that the region holds. -/
def step (k : Kind) (st : Step) (r : Region) : HeaderReply × Region :=
  match st with
  | .setLen n => (.done, { r with len := n })
  | .clearMark => (.done, { r with modified := false })
  | .overwrite offset data =>
    (.ofWrite r.bytes.size offset data.size, { r with bytes := r.bytes.overwrite offset data })
  | .ip q =>
    match k with
    | .ip v => r.askIp v q
    | _ => (.unavailable, r)
  | .next q => r.askNext k q

end Region

end Intercept
