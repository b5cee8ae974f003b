import Intercept.Header.Request
import Intercept.Packet.Text

set_option autoImplicit false

/-! # Operations on a packet

All that can be done to a packet without a driver, as one type, so that a sequence of operations
is a list. A question leaves the packet as it is, except that a layout it finds is remembered. -/

namespace Intercept.Packet

/-- What a packet can be asked. -/
inductive Question where
  | parse
  | ipVersion | ipHeaderLen | protocol | protocolName
  | srcPort | dstPort | srcIp | dstIp
  | ip | next | tcp | payload
  | direction | address | contents
  | summary | listing

/-- What can be done to a packet. -/
inductive Op where
  | ask (question : Question)
  | setAddress (address : Address)
  | setSrcIp (addr : IpAddr)
  | setDstIp (addr : IpAddr)
  | setSrcPort (port : UInt16)
  | setDstPort (port : UInt16)
  | updateLength
  | setTcpPayload (data : Bytes)
  /-- Open the IP header and make requests to it. -/
  | withIp (requests : List IpRequest)
  /-- Open the header behind the IP header and make requests to it. -/
  | withNext (requests : List NextRequest)
  /-- Open the TCP segment and make requests to it. -/
  | withTcp (requests : List NextRequest)

/-- What an operation that is not refused comes to. -/
inductive Reply where
  | done
  | number (n : Nat)
  | text (s : String)
  | addr (a : IpAddr)
  | ip (header : IpHeader)
  | next (header : NextHeader)
  | tcp (segment : Bytes)
  | bytes (b : Bytes)
  | contents (b : Bytes)
  | address (a : Address)
  | headers (replies : List HeaderReply)

/-- The question cannot be answered without the layout. -/
def Question.needsLayout : Question → Bool
  | .direction | .address | .contents | .listing => false
  | _ => true

/-- The answer to a question. -/
def read (q : Question) (p : Packet) : Except Fault Reply :=
  match q with
  | .parse => p.locate.map fun _ => .done
  | .ipVersion => p.locate.map fun l => .number l.version.number
  | .ipHeaderLen => p.locate.map fun l => .number l.ipHeaderLen
  | .protocol => p.locate.map fun l => .number l.protocol
  | .protocolName => p.locate.map fun l => .text (Intercept.protocolName l.protocol)
  | .srcPort => p.srcPort.map fun n => .number n.toNat
  | .dstPort => p.dstPort.map fun n => .number n.toNat
  | .srcIp => p.srcIp.map .addr
  | .dstIp => p.dstIp.map .addr
  | .ip => p.ipHeader.map .ip
  | .next => p.nextHeader.map .next
  | .tcp => p.tcpSegment.map .tcp
  | .payload => p.payload.map .bytes
  | .direction => .ok (.text p.address.direction.name)
  | .address => .ok (.address p.address)
  | .contents => .ok (.contents p.contents)
  | .summary => .ok (.text p.summary)
  | .listing => .ok (.text p.listing)

/-- Answer a question, remembering a layout that is found on the way. -/
def ask (q : Question) (p : Packet) : Except Fault Reply × Packet :=
  (p.read q, if q.needsLayout then p.located else p)

/-- Open the IP header, make requests to it, and take over what has become of it. -/
def withIp (rs : List IpRequest) (p : Packet) : Except Fault Reply × Packet :=
  match p.openIp with
  | .error e => (.error e, p.located)
  | .ok d =>
    let (as, d') := answerAll IpDraft.answer rs d
    (.ok (.headers as), p.located.putIp d'.draft)

/-- Open the header behind the IP header, make requests to it, and take over what has become
of it. -/
def withNext (rs : List NextRequest) (p : Packet) : Except Fault Reply × Packet :=
  match p.openNext with
  | .error e => (.error e, p.located)
  | .ok d =>
    let (as, d') := answerAll NextDraft.answer rs d
    (.ok (.headers as), p.located.putNext d')

/-- Open the TCP segment, make requests to it, and take over what has become of it. -/
def withTcp (rs : List NextRequest) (p : Packet) : Except Fault Reply × Packet :=
  match p.openTcp with
  | .error e => (.error e, p.located)
  | .ok d =>
    let (as, d') := answerAll NextDraft.answer rs (.tcp d)
    (.ok (.headers as), p.located.putNext d')

/-- Turn a change without an answer of its own into an operation. -/
def answering (r : Except Fault Unit × Packet) : Except Fault Reply × Packet :=
  (r.1.map fun _ => .done, r.2)

/-- Do an operation. A layout that is found on the way is remembered. -/
def run (op : Op) (p : Packet) : Except Fault Reply × Packet :=
  match op with
  | .ask q => p.ask q
  | .setAddress a => (.ok (.address a), { p with address := a })
  | .setSrcIp a => answering (p.setSrcIp a)
  | .setDstIp a => answering (p.setDstIp a)
  | .setSrcPort n => answering (p.setSrcPort n)
  | .setDstPort n => answering (p.setDstPort n)
  | .updateLength => answering p.updateLength
  | .setTcpPayload data => answering (p.setTcpPayload data)
  | .withIp rs => p.withIp rs
  | .withNext rs => p.withNext rs
  | .withTcp rs => p.withTcp rs

end Intercept.Packet
