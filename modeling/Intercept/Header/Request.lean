import Intercept.Header.Ip
import Intercept.Header.Next

set_option autoImplicit false

/-! # Requests to an open header

While a header is open for changes it can be asked for changes, for a look at it as it stands,
and whether a change has been asked for. Each request has one reply. A request that the header
has no use for is answered as such and changes nothing; a change that reaches outside the part
it was meant for marks the header as changed without writing anything. -/

namespace Intercept

/-- A request to an open IP header. -/
inductive IpRequest where
  | edit (edit : IpEdit)
  /-- Show the header of its version. -/
  | look
  /-- Show the header as one of either version. -/
  | lookWhole
  | isModified

/-- A request to an open header behind the IP header. -/
inductive NextRequest where
  | edit (edit : NextEdit)
  /-- Replace the payload of a TCP segment. -/
  | payload (data : Bytes)
  /-- Set the port of a side. -/
  | port (side : Side) (port : UInt16)
  /-- Show the header of its protocol. -/
  | look
  /-- Show the header as one of any protocol. -/
  | lookWhole
  /-- Whether a change has been asked for, of a known protocol. -/
  | isModified
  /-- Whether a change has been asked for, of any protocol. -/
  | isModifiedWhole
  /-- The lengths of a TCP segment and of its header. -/
  | lengths

/-- The reply to a request, of all headers together. -/
inductive HeaderReply where
  | done
  /-- The length of the part that was written into. -/
  | room (n : Nat)
  /-- The change reaches outside the part it was meant for. -/
  | outside
  /-- The new length of a segment. -/
  | segmentLen (n : Nat)
  | lengths (segment header : Nat)
  | yesNo (b : Bool)
  | ip (header : IpHeader)
  | ipWhole (header : IpHeader)
  | next (header : NextHeader)
  | nextWhole (header : NextHeader)
  | malformed (cause : Malformed)
  /-- The header has no use for the request. -/
  | unavailable

namespace HeaderReply

/-- The reply to overwriting `size` bytes from `offset` on in a part of `room` bytes. -/
def ofWrite (room offset size : Nat) : HeaderReply :=
  if offset + size ≤ room then .room room else .outside

/-- The reply to a change of an IPv4 header. Only the options can be written outside of. -/
def ofIpv4Edit (e : Ipv4.Edit) (b : Bytes) : HeaderReply :=
  match e with
  | .options offset data => ofWrite (Ipv4.headerLen b - Ipv4.minHeaderLen) offset data.size
  | _ => .done

/-- The reply to a change of a TCP header. The options and the payload can be written outside
of. -/
def ofTcpEdit (e : Tcp.Edit) (d : Tcp.Draft) : HeaderReply :=
  match e with
  | .options offset data => ofWrite (Tcp.headerLen d.space - Tcp.minHeaderLen) offset data.size
  | .payload offset data => ofWrite (d.len - Tcp.headerLen d.space) offset data.size
  | _ => .done

end HeaderReply

/-- Answer a request to an IP header. -/
def IpDraft.answer (r : IpRequest) (d : IpDraft) : HeaderReply × IpDraft :=
  match r with
  | .edit e =>
    match d.edit? e with
    | none => (.unavailable, d)
    | some d' =>
      match e with
      | .v4 e => (.ofIpv4Edit e d.draft.bytes, d')
      | .v6 _ => (.done, d')
  | .look => (.ip d.header, d)
  | .lookWhole => (.ipWhole d.header, d)
  | .isModified => (.yesNo d.draft.modified, d)

namespace NextDraft

/-- Make a change that some protocols have no use for, and say whether this one had. -/
def attempt (change : NextDraft → Option NextDraft) (d : NextDraft) : HeaderReply × NextDraft :=
  match change d with
  | none => (.yesNo false, d)
  | some d' => (.yesNo true, d')

/-- Answer a request to a header behind the IP header. -/
def answer (r : NextRequest) (d : NextDraft) : HeaderReply × NextDraft :=
  match r, d with
  | .edit e, d =>
    match d.edit? e with
    | none => (.unavailable, d)
    | some d' =>
      match e, d with
      | .tcp e, .tcp t => (.ofTcpEdit e t, d')
      | _, _ => (.done, d')
  | .payload p, .tcp t =>
    match Tcp.setPayload p t with
    | .error m => (.malformed m, .tcp t)
    | .ok t' => (.segmentLen t'.len, .tcp t')
  | .lengths, .tcp t => (.lengths t.len (Tcp.headerLen t.space), .tcp t)
  | .port e p, d => d.attempt (setPort? e p)
  | .lookWhole, d => (.nextWhole d.header, d)
  | .isModifiedWhole, d => (.yesNo d.isModified, d)
  | .look, .unsupported p => (.unavailable, .unsupported p)
  | .look, d => (.next d.header, d)
  | .isModified, .unsupported p => (.unavailable, .unsupported p)
  | .isModified, d => (.yesNo d.isModified, d)
  | _, d => (.unavailable, d)

end NextDraft

/-- Answer requests in turn. -/
def answerAll {ρ δ : Type} (answer : ρ → δ → HeaderReply × δ) :
    List ρ → δ → List HeaderReply × δ
  | [], d => ([], d)
  | r :: rs, d =>
    let (a, d) := answer r d
    let (as, d) := answerAll answer rs d
    (a :: as, d)

end Intercept
