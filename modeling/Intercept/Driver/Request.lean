import Intercept.Driver

set_option autoImplicit false

/-! # Requests to a driver

Whoever holds a session can make the calls of its driver directly, without a packet and whether
the session is open or not. The session learns of such a call only if it is closed while the call
is under way: a driver closed this way refuses what a session that is still open asks of it. -/

namespace Intercept.Driver

/-- A call to make. -/
inductive Request where
  /-- Receive into zero bytes of some number. -/
  | recv (size : Nat)
  | send (b : Bytes) (a : Address)
  | checksums (b : Bytes) (a : Address)
  | evalFilter (filter : String) (b : Bytes) (a : Address)
  | close

/-- The reply to a call that was made directly. -/
inductive Reply where
  | done
  | number (n : Nat)
  | yesNo (b : Bool)
  | failed (e : DeviceError)
  | received (r : Reception)
  | recomputed (r : Recomputed)

/-- The reply for a result that may be an error of the driver. -/
def Reply.ofResult {α : Type} (f : α → Reply) : Except DeviceError α → Reply
  | .ok a => f a
  | .error e => .failed e

/-- The call is one that a receive loop at work gets in the way of. -/
def Request.interferes : Request → Bool
  | .recv _ | .close => true
  | _ => false

/-- Make a call. There is no reply to receiving while there is nothing to receive. -/
def ask {σ : Type} (D : Driver σ) (s : σ) : Request → Option (Call σ Reply)
  | .recv size => (D.recv (Bytes.zeros size) s).map (.map .received)
  | .send b a => some ((D.send b a s).map (.ofResult .number))
  | .checksums b a => some ((D.checksums b a s).map .recomputed)
  | .evalFilter f b a => some ((D.evalFilter f b a s).map (.ofResult .yesNo))
  | .close => some ((D.close s).map (.ofResult fun _ => .done))

end Intercept.Driver
