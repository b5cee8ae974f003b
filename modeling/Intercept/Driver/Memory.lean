import Intercept.Checksum
import Intercept.Config
import Intercept.Driver
import Intercept.Text.Blank

set_option autoImplicit false

/-! # The memory driver

A driver without a network: packets fed to it are received in the order they were fed, and what is
injected is kept in a list. Checksums are recomputed in software, and the only filters it
understands are the two constants. -/

namespace Intercept

/-- The state of a memory driver: the packets fed and not yet received, those injected, how often
checksums were recomputed, and whether it is closed. -/
structure Memory where
  pending : List (Bytes × Address)
  sent : List (Bytes × Address)
  checksumCalls : Nat
  closed : Bool

namespace Memory

/-- The state a driver starts in. -/
def fresh : Memory := ⟨[], [], 0, false⟩

/-- The value of a constant filter, blank characters around it aside. -/
def constantFilter? (filter : String) : Option Bool :=
  let f := Text.trim filter
  if f = "true" then some true else if f = "false" then some false else none

/-- The error of a call to a driver that is closed. -/
def closedError : DeviceError := ⟨.notConnected, none⟩

/-- Put a packet behind those that are to be received. -/
def feed (b : Bytes) (a : Address) (m : Memory) : Except DeviceError Unit × Memory :=
  if m.closed then (.error closedError, m)
  else (.ok (), { m with pending := m.pending ++ [(b, a)] })

/-- Take the next packet. A driver that is open and has nothing to give does not answer. -/
def next (m : Memory) : Option (Except DeviceError (Bytes × Address) × Memory) :=
  if m.closed then some (.error closedError, m)
  else
    match m.pending with
    | [] => none
    | p :: rest => some (.ok p, { m with pending := rest })

/-- The error of a packet that does not fit where it is to be received. -/
def tooSmallError : DeviceError :=
  ⟨.invalidInput, some "receive buffer too small for diverted packet"⟩

/-- A packet that was taken, if it has at most `room` bytes. A longer one is lost. -/
def within (room : Nat) (r : Except DeviceError (Bytes × Address)) :
    Except DeviceError (Bytes × Address) :=
  match r with
  | .ok (p, a) => if room < p.size then .error tooSmallError else .ok (p, a)
  | .error e => .error e

/-- The length and address of a packet that was taken, or the error instead. -/
def report (r : Except DeviceError (Bytes × Address)) : Except DeviceError (Nat × Address) :=
  r.map fun p => (p.1.size, p.2)

/-- Receive into bytes what was taken. -/
def receive (b : Bytes) (r : Except DeviceError (Bytes × Address)) (m : Memory) :
    Call Memory Reception :=
  let r := within b.size r
  .plain ⟨b.overwrite 0 ((r.map Prod.fst).toOption.getD ByteArray.empty), report r⟩ m

/-- Receive the next packet into bytes. -/
def recv (b : Bytes) (m : Memory) : Option (Call Memory Reception) :=
  m.next.map fun (r, m) => receive b r m

/-- Keep an injected packet. -/
def send (b : Bytes) (a : Address) (m : Memory) : Call Memory (Except DeviceError Nat) :=
  if m.closed then .plain (.error closedError) m
  else .plain (.ok b.size) { m with sent := m.sent ++ [(b, a)] }

/-- Recompute checksums in software. -/
def checksums (b : Bytes) (a : Address) (m : Memory) : Call Memory Recomputed :=
  let r := Checksum.fill b
  .plain ⟨r.2, a, r.1.mapError fun c => ⟨.invalidData, some c.message⟩⟩
    { m with checksumCalls := m.checksumCalls + 1 }

/-- Evaluate a constant filter, which is the same for every packet. Others are not understood. -/
def evalFilter (filter : String) (_b : Bytes) (_a : Address) (m : Memory) :
    Call Memory (Except DeviceError Bool) :=
  match constantFilter? filter with
  | some v => .plain (.ok v) m
  | none =>
    let text := "filter " ++ Text.quoted filter ++ " cannot be evaluated in memory"
    .plain (.error ⟨.unsupported, some text⟩) m

/-- Close the driver. What was fed and not received stays where it is. -/
def close (m : Memory) : Call Memory (Except DeviceError Unit) :=
  .plain (.ok ()) { m with closed := true }

/-- Any filter but a constant is a mistake from the start. -/
def filterMistake? (filter : String) : Option Nat :=
  if (constantFilter? filter).isSome then none else some 0

/-- Open a driver for a configuration. -/
def openFor (c : Config) : Except DeviceError Memory :=
  match filterMistake? c.filter with
  | none => .ok fresh
  | some n =>
    .error ⟨.invalidInput, some ("unsupported filter (error at position " ++ toString n ++ ")")⟩

theorem size_recv (b : Bytes) (m : Memory) (c : Call Memory Reception) (h : m.recv b = some c) :
    c.answer.bytes.size = b.size := by
  obtain ⟨r, _, rfl⟩ := Option.map_eq_some_iff.1 h
  exact Bytes.size_overwrite ..

theorem size_checksums (b : Bytes) (a : Address) (m : Memory) :
    (m.checksums b a).answer.bytes.size = b.size := Checksum.size_fill b

/-- The memory driver. Nobody closes the session during one of its calls. -/
def driver : Driver Memory where
  recv := recv
  send := send
  checksums := checksums
  evalFilter := evalFilter
  close := close
  filterMistake? _ := filterMistake?
  size_recv := size_recv
  size_checksums := size_checksums

end Memory

end Intercept
