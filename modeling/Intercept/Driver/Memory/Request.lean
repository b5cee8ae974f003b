import Intercept.Driver.Memory

set_option autoImplicit false

/-! # Requests to a memory driver

A memory driver plays the network as well: it is fed the packets that a session is to receive, and
shows those that were injected. The session does not learn of it. -/

namespace Intercept.Memory

/-- What the network asks of a memory driver. -/
inductive Request where
  | feed (b : Bytes) (a : Address)
  /-- Count the packets fed and not yet received. -/
  | pending
  /-- Look at the packets that were injected. -/
  | sent
  /-- Take the packets that were injected. -/
  | takeSent
  /-- Count how often checksums were recomputed. -/
  | checksumCalls

/-- What a memory driver replies to the network. -/
inductive Reply where
  | done
  | number (n : Nat)
  | failed (e : DeviceError)
  | packets (l : List (Bytes × Address))

/-- Answer a request. Only feeding and taking change the driver. -/
def answer (r : Request) (m : Memory) : Reply × Memory :=
  match r with
  | .feed b a =>
    match m.feed b a with
    | (.ok (), m) => (.done, m)
    | (.error e, m) => (.failed e, m)
  | .pending => (.number m.pending.length, m)
  | .sent => (.packets m.sent, m)
  | .takeSent => (.packets m.sent, { m with sent := [] })
  | .checksumCalls => (.number m.checksumCalls, m)

end Intercept.Memory
