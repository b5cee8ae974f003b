import Intercept.Session

set_option autoImplicit false

/-! # Receive loops

A receive loop holds the session, receives packets one after the other, and publishes them on a
bounded queue. It is about to receive, or waits for the driver with an empty buffer, or holds one
packet that is to be published, or has stopped. A move takes it from one phase to the next and is
possible unless the driver has nothing to give, or the queue is full, or the loop has stopped. It
stops when the session is closed, when receiving fails, or when nobody is left to take its
packets.

The queue of a loop and the thread it runs on are not made here. Whether they can be had is a
parameter of what starts a loop, a `Loop.Host`. -/

namespace Intercept

/-- What a loop is doing. -/
inductive Loop.Phase where
  | ready
  /-- It waits for the driver to fill a buffer. -/
  | waiting (buffer : Buffer)
  /-- It holds a packet that is to be published. -/
  | publishing (packet : Packet)
  | stopped
  | broken

/-- A loop and the queue it publishes on. -/
structure Loop where
  phase : Loop.Phase
  queue : List Packet
  capacity : Nat
  /-- Somebody is left to take packets from the queue. -/
  attended : Bool

namespace Loop

/-- For each number of places, whether a queue with as many is made when it is asked for. The call
that asks for one that is not made does not come back. -/
abbrev Queues := Nat → Bool

/-- What a loop is started on. Neither queues nor threads are made here: both are asked for, and
whether they are there is up to whoever is asked. -/
structure Host where
  makesQueue : Queues
  /-- The error that a thread is refused with, if it is refused. -/
  noThread? : Option DeviceError

variable {σ : Type}

/-- A loop that is about to receive, with an empty queue of some number of places. -/
def ofCapacity (n : Nat) : Loop := ⟨.ready, [], n, true⟩

/-- Start a loop on a thread of its own, unless the session is closed. Its queue comes first, then
the thread. -/
def start (host : Host) (s : Session σ) : Except Fault Loop × Session σ :=
  if ¬ s.isOpen then (.error (.refused .sessionClosed), s)
  else if ¬ host.makesQueue s.config.loopCapacity then (.error .outOfRange, s)
  else
    match host.noThread? with
    | some e => (.error (.refused (.device e)), s)
    | none =>
      (.ok (.ofCapacity s.config.loopCapacity), s.share.report (.loopStarted s.config.filter))

/-- The error of a loop that needs a runtime and is started outside of one. -/
def noRuntimeError : DeviceError :=
  ⟨.other, some
    "there is no reactor running, must be called from the context of a Tokio 1.x runtime"⟩

/-- Start a loop on a runtime, which has to be there. It is given by the queues that it makes, and
always has a thread for the loop. -/
def startOnRuntime (runtime : Option Queues) (s : Session σ) : Except Fault Loop × Session σ :=
  match runtime with
  | some queues => start ⟨queues, none⟩ s
  | none => (.error (.refused (if s.isOpen then .device noRuntimeError else .sessionClosed)), s)

/-- What an attempt to start a loop may come to: nothing, or, on an open session, a loop that is
about to receive and shares it. -/
def Starts (s : Session σ) (r : Except Fault Loop × Session σ) : Prop :=
  (∃ e, r = (.error e, s)) ∨
    s.isOpen = true ∧
      r = (.ok (.ofCapacity s.config.loopCapacity),
        s.share.report (.loopStarted s.config.filter))

theorem starts_start (host : Host) (s : Session σ) : Starts s (start host s) := by
  unfold start
  split
  · exact Or.inl ⟨_, rfl⟩
  · next hopen =>
      split
      · exact Or.inl ⟨_, rfl⟩
      · split
        · exact Or.inl ⟨_, rfl⟩
        · exact Or.inr ⟨Decidable.not_not.1 hopen, rfl⟩

theorem starts_startOnRuntime (runtime : Option Queues) (s : Session σ) :
    Starts s (startOnRuntime runtime s) := by
  cases runtime with
  | none => exact Or.inl ⟨_, rfl⟩
  | some queues => exact starts_start ⟨queues, none⟩ s

/-- Stop a loop for a reason. It no longer holds the session. -/
def stop (D : Driver σ) (why : Record) (l : Loop) (s : Session σ) : Loop × Session σ :=
  ({ l with phase := .stopped }, ((s.report why).report .loopStopped).leave D)

/-- The event that tells why receiving ended a loop. -/
def endOf : Error → Record
  | .sessionClosed => .sessionClosed
  | e => .receiveFailed e

/-- Give up on an index out of range. -/
def breakOff (D : Driver σ) (l : Loop) (s : Session σ) : Loop × Session σ :=
  ({ l with phase := .broken }, s.leave D)

/-- Go on with what receiving came to. -/
def received (D : Driver σ) (l : Loop) : Except Fault Packet × Session σ → Loop × Session σ
  | (.ok p, s) => ({ l with phase := .publishing p }, s)
  | (.error (.refused e), s) => l.stop D (endOf e) s
  | (.error .outOfRange, s) => l.breakOff D s

/-- Make one move, if one is possible. -/
def move (D : Driver σ) (l : Loop) (s : Session σ) : Option (Loop × Session σ) :=
  match l.phase with
  | .ready =>
    match s.startRecv with
    | (.error e, s) => some (l.stop D (endOf e) s)
    | (.ok b, s) => some ({ l with phase := .waiting b }, s)
  | .waiting b => (s.finishRecv D b).map (l.received D)
  | .publishing p =>
    if l.attended then
      if l.queue.length < l.capacity then
        some ({ l with phase := .ready, queue := l.queue ++ [p] }, s)
      else none
    else
      match s.dropPacket p with
      | (.ok (), s) => some (l.stop D .receiversGone s)
      | (.error _, s) => some (l.breakOff D s)
  | .stopped | .broken => none

/-- Take the first packet of the queue, if there is one. -/
def take? (l : Loop) : Option (Packet × Loop) :=
  match l.queue with
  | [] => none
  | p :: rest => some (p, { l with queue := rest })

theorem take?_eq_some {l l' : Loop} {p : Packet} :
    l.take? = some (p, l') ↔ ∃ rest, l.queue = p :: rest ∧ l' = { l with queue := rest } := by
  unfold take?
  cases l.queue with
  | nil => simp
  | cons q rest =>
      simp only [Option.some.injEq, Prod.mk.injEq, List.cons.injEq]
      constructor
      · rintro ⟨rfl, rfl⟩
        exact ⟨rest, ⟨rfl, rfl⟩, rfl⟩
      · rintro ⟨_, ⟨rfl, rfl⟩, rfl⟩
        exact ⟨rfl, rfl⟩

/-- The loop makes no more moves. -/
def hasEnded (l : Loop) : Bool :=
  match l.phase with
  | .stopped | .broken => true
  | _ => false

/-- The loop when its consumer has gone, and the queue with it. -/
def abandoned (l : Loop) : Loop := { l with queue := [], attended := false }

/-- What is left of a loop: nothing, once it has ended and has no consumer. -/
def kept? (l : Loop) : Option Loop := if l.hasEnded && !l.attended then none else some l

end Loop

end Intercept
