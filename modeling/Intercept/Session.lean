import Intercept.Config
import Intercept.Driver.Request
import Intercept.Packet
import Intercept.Pool
import Intercept.Record

set_option autoImplicit false

/-! # Sessions

A session is a driver in use. Any number of holders share it: whether it is open, the pool its
packets take their buffers from, and its configuration. It is closed by any holder, once and for
all, and at the latest when the last holder gives it up; the driver is closed with it.

An operation that fails in the driver while the session is closed, or becomes so during the call,
is refused because the session is closed, whatever the driver's reason. A packet that is sent or
given up returns its buffer to the pool whatever comes of it. -/

namespace Intercept

/-- The state that all holders of a session share. -/
structure Session (σ : Type) where
  device : σ
  isOpen : Bool
  holders : Nat
  pool : Pool
  config : Config
  log : List Record

namespace Session

variable {σ α : Type}

/-- A session that is open and has one holder. -/
def ofDevice (device : σ) (config : Config) (pool : Pool) : Session σ :=
  ⟨device, true, 1, pool, config, []⟩

/-- Add an event to the log. -/
def report (r : Record) (s : Session σ) : Session σ := { s with log := s.log ++ [r] }

/-! ## Opening and closing -/

/-- Open a session by opening its driver. -/
def openWith (openFor : Config → Except DeviceError σ) (config : Config) :
    Except Error (Session σ) :=
  match openFor config with
  | .error e => .error (.device e)
  | .ok device => .ok (ofDevice device config (.empty none))

/-- Close the session. The driver is closed the first time only. -/
def close (D : Driver σ) (s : Session σ) : Except DeviceError Unit × Session σ :=
  if s.isOpen then
    let c := D.close s.device
    (c.answer, { s with isOpen := false, device := c.state })
  else (.ok (), s)

/-- One more holder. -/
def share (s : Session σ) : Session σ := { s with holders := s.holders + 1 }

/-- One holder gives the session up. The last one closes it if nobody has; a failure to close
can then only be reported. -/
def leave (D : Driver σ) (s : Session σ) : Session σ :=
  let s := { s with holders := s.holders - 1 }
  if s.holders = 0 then
    match s.close D with
    | (.error e, s) => s.report (.closeFailed e)
    | (.ok (), s) => s
  else s

/-- The session after a call to its driver. -/
def afterCall (D : Driver σ) (c : Call σ α) (s : Session σ) : Session σ :=
  let s := { s with device := c.state }
  if c.closes then (s.close D).2 else s

/-- Make a call to the driver directly. There is no reply while there is nothing to receive. -/
def ask (D : Driver σ) (r : Driver.Request) (s : Session σ) :
    Option (Driver.Reply × Session σ) :=
  (D.ask s.device r).map fun c => (c.answer, s.afterCall D c)

/-- The refusal for an error of the driver: the session is closed, or else a reason of its
own. -/
def refusal (s : Session σ) (other : DeviceError → Error) (e : DeviceError) : Error :=
  if e.kind = .notConnected ∨ ¬ s.isOpen then .sessionClosed else other e

/-! ## Buffers and packets -/

/-- Take a buffer from the pool. -/
def acquire (s : Session σ) : Buffer × Session σ :=
  let (b, pool) := s.pool.acquire
  (b, { s with pool })

/-- Give a buffer back to the pool. -/
def dropBuffer (b : Buffer) (s : Session σ) : Session σ := { s with pool := s.pool.drop b }

/-- Give a packet up. Its buffer goes back to the pool. -/
def dropPacket (p : Packet) (s : Session σ) : Except Fault Unit × Session σ :=
  match p.retire with
  | .ok b => (.ok (), s.dropBuffer b)
  | .error e => (.error e, s.dropBuffer p.buffer)

/-- Give packets up in turn. -/
def dropPackets : List Packet → Session σ → Except Fault Unit × Session σ
  | [], s => (.ok (), s)
  | p :: ps, s =>
    match s.dropPacket p with
    | (.error e, s) => (.error e, s)
    | (.ok (), s) => dropPackets ps s

/-- A packet with a copy of the bytes, if they fit into a buffer. -/
def packetOfBytes (b : Bytes) (a : Address) (s : Session σ) : Except Fault Packet × Session σ :=
  let (buffer, s) := s.acquire
  match buffer.append? b with
  | some buffer => (.ok (.ofBuffer buffer a), s)
  | none => (.error (.refused (.packetTooLarge b.size bufferSize)), s.dropBuffer buffer)

/-- A packet whose storage holds the given bytes at an offset, and which has the given length. -/
def packetOfStorage (offset : Nat) (b : Bytes) (len : Nat) (a : Address) (s : Session σ) :
    Except Fault Packet × Session σ :=
  let (buffer, s) := s.acquire
  match buffer.writeStorage? offset b with
  | none => (.error .outOfRange, s.dropBuffer buffer)
  | some buffer =>
    match buffer.setLen? len with
    | none => (.error .outOfRange, s.dropBuffer buffer)
    | some buffer => (.ok (.ofBuffer buffer a), s)

/-! ## Receiving -/

/-- The first half of receiving: take a buffer, unless the session is closed. -/
def startRecv (s : Session σ) : Except Error Buffer × Session σ :=
  if s.isOpen then
    let (b, s) := s.acquire
    (.ok b, s)
  else (.error .sessionClosed, s)

/-- The error of a driver that reports more than fits into a buffer. -/
def overlongError : DeviceError :=
  ⟨.invalidData, some "driver reported a packet longer than the receive buffer"⟩

/-- What comes of a buffer that the driver was to fill. If it failed, or claims more than fits, the
buffer is wiped before it goes back. -/
def received (D : Driver σ) (b : Buffer) (c : Call σ Reception) (s : Session σ) :
    Except Fault Packet × Session σ :=
  let s := s.afterCall D c
  let b := b.overwrite 0 c.answer.bytes
  let wiped : Buffer := .ofStorage (b.storage.clear 0 bufferSize)
  match c.answer.result with
  | .error e => (.error (.refused (s.refusal .device e)), s.dropBuffer wiped)
  | .ok (n, a) =>
    if bufferSize < n then (.error (.refused (.device overlongError)), s.dropBuffer wiped)
    else
      match b.setLen? n with
      | some b => (.ok (.ofBuffer b a), s)
      | none => (.error .outOfRange, s.dropBuffer b)

/-- The second half of receiving: have the driver fill a buffer. Nothing comes of it while the
driver has nothing to give. -/
def finishRecv (D : Driver σ) (b : Buffer) (s : Session σ) :
    Option (Except Fault Packet × Session σ) :=
  (D.recv b.storage.bytes s.device).map fun c => s.received D b c

/-- Receive a packet. Nothing comes of it while the driver has nothing to give. -/
def recv (D : Driver σ) (s : Session σ) : Option (Except Fault Packet × Session σ) :=
  match s.startRecv with
  | (.error e, s) => some (.error (.refused e), s)
  | (.ok b, s) => s.finishRecv D b

/-! ## Injecting -/

/-- Have the driver inject a packet, which is kept. -/
def send (D : Driver σ) (p : Packet) (s : Session σ) : Except Error Nat × Session σ :=
  if s.isOpen then
    let c := D.send p.contents p.address s.device
    let s := s.afterCall D c
    (c.answer.mapError (s.refusal .injectionFailed), s)
  else (.error .sessionClosed, s)

/-- Have the driver recompute the checksums of a packet. -/
def checksums (D : Driver σ) (p : Packet) (s : Session σ) :
    Except Error Unit × Packet × Session σ :=
  let c := D.checksums p.contents p.address s.device
  let p := { p with buffer := p.buffer.overwrite 0 c.answer.bytes, address := c.answer.address }
  (c.answer.result.mapError .checksumFailed, p, s.afterCall D c)

/-- Have the driver evaluate a filter against a packet. -/
def evalFilter (D : Driver σ) (filter : String) (p : Packet) (s : Session σ) :
    Except Error Bool × Session σ :=
  let c := D.evalFilter filter p.contents p.address s.device
  (c.answer.mapError .filterFailed, s.afterCall D c)

/-- Give up a packet that was to be injected, whatever came of that. -/
def giveUp (r : Except Error Nat) (p : Packet) (s : Session σ) : Except Fault Nat × Session σ :=
  match s.dropPacket p with
  | (.error f, s) => (.error f, s)
  | (.ok (), s) => (r.mapError .refused, s)

/-- Inject a packet as it is and give it up. -/
def injectAsIs (D : Driver σ) (p : Packet) (s : Session σ) : Except Fault Nat × Session σ :=
  let (r, s) := s.send D p
  s.giveUp r p

/-- Inject a packet and give it up. If it has been changed, its checksums are recomputed first,
and it is not injected if that fails. -/
def inject (D : Driver σ) (p : Packet) (s : Session σ) : Except Fault Nat × Session σ :=
  if p.needsChecksum then
    match s.checksums D p with
    | (.error e, p, s) => (s.report (.packetDropped e)).giveUp (.error e) p
    | (.ok (), p, s) => s.injectAsIs D p
  else s.injectAsIs D p

end Session

end Intercept
