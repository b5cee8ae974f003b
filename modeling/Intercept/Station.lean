import Intercept.Loop
import Intercept.Packet.Op

set_option autoImplicit false

/-! # Stations

A station is a session at work, over any driver. It has slots that hold packets, as many as are
asked for, numbered holders of the session, and at most one receive loop with one consumer. All that
can be done with them is a step, so a history of the session is a list of steps. The loop makes its
moves one by one, each a step of its own, so a history also says how the loop and everybody else
took turns.

A step that has nothing to work on, or that would wait for a packet, is skipped: it says why and
changes nothing. -/

namespace Intercept

/-- A slot, by number. -/
abbrev Slot := Nat

/-- A session, its holders, the packets taken from it, and its receive loop. -/
structure Station (σ : Type) where
  session : Session σ
  /-- For each holder that ever was, whether it still holds the session. -/
  holders : List Bool
  /-- For each slot that was ever used, the packet in it. -/
  slots : List (Option Packet)
  loop : Option Loop

namespace Station

/-! ## Steps and answers -/

/-- A step. Holders are given by number. -/
inductive Step where
  | packet (slot : Slot) (op : Packet.Op)
  /-- Have the driver recompute the checksums of a packet. -/
  | checksums (slot : Slot) (holder : Nat)
  /-- Have the driver evaluate a filter against a packet. -/
  | evalFilter (slot : Slot) (holder : Nat) (filter : String)
  /-- Have the driver inject a packet that is kept. -/
  | sendKept (slot : Slot) (holder : Nat)
  | newPacket (slot : Slot) (b : Bytes) (a : Address)
  /-- Make a packet by writing into the storage of a buffer. -/
  | newFromStorage (slot : Slot) (offset : Nat) (b : Bytes) (len : Nat) (a : Address)
  | recv (slot : Slot) (holder : Nat)
  /-- Give a packet up, if there is one. -/
  | dropPacket (slot : Slot)
  /-- Inject a packet and give it up. -/
  | inject (slot : Slot) (holder : Nat)
  | share (holder : Nat)
  | close (holder : Nat)
  /-- A holder gives the session up. -/
  | leave (holder : Nat)
  /-- Start a receive loop on a thread of its own. -/
  | startLoop (holder : Nat) (host : Loop.Host)
  /-- Start a receive loop on a runtime, which may be missing. -/
  | startLoopOnRuntime (holder : Nat) (runtime : Option Loop.Queues)
  /-- The loop makes a move, if one is possible. -/
  | moveLoop
  | consume (slot : Slot)
  | dropQueue

/-- Why a step is not done. -/
inductive Skip where
  | emptySlot | noHolder | loopRunning | noLoop | queueDropped
  /-- The step would wait for a packet. -/
  | wouldWait
  /-- The step is about a script, and the driver has none or is in use by a loop. -/
  | noScriptOrLoopRunning
  /-- The step is not for a scripted driver. -/
  | scripted
deriving DecidableEq, Repr

/-- The reason in words. -/
def Skip.message : Skip → String
  | .emptySlot => "empty slot"
  | .noHolder => "no handle"
  | .loopRunning => "loop running"
  | .noLoop => "no loop"
  | .queueDropped => "queue dropped"
  | .wouldWait => "would block"
  | .noScriptOrLoopRunning => "no script or loop running"
  | .scripted => "script"

/-- What a step comes to. -/
inductive Answer where
  | done
  | number (n : Nat)
  | yesNo (b : Bool)
  | reply (r : Packet.Reply)
  | refused (e : Error)
  | outOfRange
  /-- The loop has ended and all its packets are consumed. -/
  | disconnected
  | skipped (why : Skip)

/-- The answer for a result that may be a fault. -/
def Answer.ofResult {α : Type} (f : α → Answer) : Except Fault α → Answer
  | .ok a => f a
  | .error (.refused e) => .refused e
  | .error .outOfRange => .outOfRange

/-- The answer for a result that may be refused. -/
def Answer.ofRefusable {α : Type} (f : α → Answer) : Except Error α → Answer
  | .ok a => f a
  | .error e => .refused e

/-! ## Slots and holders -/

variable {σ : Type}

/-- A station with a session, which it holds once, and nothing else. -/
def ofSession (s : Session σ) : Station σ := ⟨s, [true], [], none⟩

/-- The packet in a slot. -/
def slot? (st : Station σ) (i : Slot) : Option Packet := st.slots[i]?.join

/-- Put a packet into a slot, or empty it. -/
def setSlot (i : Slot) (p : Option Packet) (st : Station σ) : Station σ :=
  { st with slots := (st.slots ++ .replicate (i + 1 - st.slots.length) none).set i p }

/-- Use another state of the session. -/
def withSession (s : Session σ) (st : Station σ) : Station σ := { st with session := s }

/-- A holder has not given the session up. -/
def holds (st : Station σ) (h : Nat) : Bool := (st.holders[h]?).getD false

/-- Do something that needs a holder. -/
def onHolder (h : Nat) (st : Station σ) (act : Unit → Answer × Station σ) :
    Answer × Station σ :=
  if st.holds h then act () else (.skipped .noHolder, st)

/-- Do something with the packet in a slot. -/
def onPacket (i : Slot) (act : Packet → Answer × Packet × Session σ) (st : Station σ) :
    Answer × Station σ :=
  match st.slot? i with
  | none => (.skipped .emptySlot, st)
  | some p =>
    let (a, p, s) := act p
    (a, (st.withSession s).setSlot i (some p))

/-- Do something with the packet in a slot that needs a holder. -/
def onPacketWith (i : Slot) (h : Nat) (act : Packet → Answer × Packet × Session σ)
    (st : Station σ) : Answer × Station σ :=
  if (st.slot? i).isSome then st.onHolder h fun _ => st.onPacket i act
  else (.skipped .emptySlot, st)

/-- Give up the packet in a slot, if there is one. -/
def clearSlot (i : Slot) (st : Station σ) : Except Fault Unit × Station σ :=
  match st.slot? i with
  | none => (.ok (), st)
  | some p =>
    let (r, s) := st.session.dropPacket p
    (r, (st.withSession s).setSlot i none)

/-- Put a new packet into a slot, giving up the one it held. -/
def place (i : Slot) (r : Except Fault Packet) (st : Station σ) : Answer × Station σ :=
  match r with
  | .error (.refused e) => (.refused e, st)
  | .error .outOfRange => (.outOfRange, st)
  | .ok p =>
    let (r, st) := st.clearSlot i
    (.ofResult (fun _ => .number p.len) r, st.setSlot i (some p))

/-! ## The loop -/

/-- Start a loop in the given way, if there is none. There is none either if that fails. -/
def startWith (start : Session σ → Except Fault Loop × Session σ) (st : Station σ) :
    Answer × Station σ :=
  if st.loop.isSome then (.skipped .loopRunning, st)
  else
    let (r, s) := start st.session
    (.ofResult (fun l => .number l.capacity) r,
      { st.withSession s with loop := r.toOption })

/-- Let the loop make one move, if one is possible. -/
def moveLoop? (D : Driver σ) (st : Station σ) : Option (Station σ) :=
  st.loop.bind fun l =>
    (l.move D st.session).map fun (l, s) => { st with session := s, loop := l.kept? }

/-- Let the loop make moves as long as one is possible, at most `fuel` of them. -/
def settle (D : Driver σ) : Nat → Station σ → Station σ
  | 0, st => st
  | fuel + 1, st =>
    match st.moveLoop? D with
    | none => st
    | some st => settle D fuel st

/-- Consume the next packet of the loop. The slot is emptied before. -/
def consume (i : Slot) (st : Station σ) : Answer × Station σ :=
  match st.loop with
  | none => (.skipped .noLoop, st)
  | some l =>
    if !l.attended then (.skipped .queueDropped, st)
    else
      match l.take? with
      | some (p, l) =>
        let (r, st) := st.clearSlot i
        (.ofResult (fun _ => .number p.len) r, { st with loop := some l }.setSlot i (some p))
      | none =>
        if l.hasEnded then
          let (r, st) := st.clearSlot i
          (.ofResult (fun _ => .disconnected) r, { st with loop := none })
        else (.skipped .wouldWait, st)

/-- Drop the consumer's end of the queue, and the packets in it. -/
def dropQueue (st : Station σ) : Answer × Station σ :=
  match st.loop with
  | none => (.skipped .noLoop, st)
  | some l =>
    if !l.attended then (.skipped .queueDropped, st)
    else
      let (r, s) := st.session.dropPackets l.queue
      (.ofResult (fun _ => .done) r, { st.withSession s with loop := l.abandoned.kept? })

/-! ## Doing steps -/

/-- Do a step. -/
def step (D : Driver σ) (st : Station σ) : Step → Answer × Station σ
  | .packet i op =>
    st.onPacket i fun p =>
      let (r, p) := p.run op
      (.ofResult .reply r, p, st.session)
  | .checksums i h =>
    st.onPacketWith i h fun p =>
      let (r, p, s) := st.session.checksums D p
      (.ofRefusable (fun _ => .done) r, p, s)
  | .evalFilter i h f =>
    st.onPacketWith i h fun p =>
      let (r, s) := st.session.evalFilter D f p
      (.ofRefusable .yesNo r, p, s)
  | .sendKept i h =>
    st.onPacketWith i h fun p =>
      let (r, s) := st.session.send D p
      (.ofRefusable .number r, p, s)
  | .newPacket i b a =>
    let (r, s) := st.session.packetOfBytes b a
    (st.withSession s).place i r
  | .newFromStorage i offset b len a =>
    let (r, s) := st.session.packetOfStorage offset b len a
    (st.withSession s).place i r
  | .recv i h => st.onHolder h fun _ =>
    match st.session.recv D with
    | none => (.skipped .wouldWait, st)
    | some (r, s) => (st.withSession s).place i r
  | .dropPacket i =>
    let (r, st) := st.clearSlot i
    (.ofResult (fun _ => .done) r, st)
  | .inject i h => st.onHolder h fun _ =>
    match st.slot? i with
    | none => (.skipped .emptySlot, st)
    | some p =>
      let (r, s) := st.session.inject D p
      (.ofResult .number r, (st.withSession s).setSlot i none)
  | .share h => st.onHolder h fun _ =>
    (.number st.holders.length,
      { st with session := st.session.share, holders := st.holders ++ [true] })
  | .close h => st.onHolder h fun _ =>
    let (r, s) := st.session.close D
    (.ofRefusable (fun _ => .done) (r.mapError .device), st.withSession s)
  | .leave h => st.onHolder h fun _ =>
    (.done, { st with session := st.session.leave D, holders := st.holders.set h false })
  | .startLoop h host => st.onHolder h fun _ => st.startWith (Loop.start host)
  | .startLoopOnRuntime h runtime => st.onHolder h fun _ =>
    st.startWith (Loop.startOnRuntime runtime)
  | .moveLoop => (.done, (st.moveLoop? D).getD st)
  | .consume i => st.consume i
  | .dropQueue => st.dropQueue

/-- Do steps in turn. -/
def run (D : Driver σ) : List Step → Station σ → Station σ
  | [], st => st
  | x :: xs, st => run D xs (st.step D x).2

end Station

end Intercept
