import Intercept.Error
import Intercept.Text.Quoted

set_option autoImplicit false

/-! # Log records

The events that are reported on the side, with their severity. Those of a receive loop tell when
it started, why it ended, and that it stopped. -/

namespace Intercept

/-- How much an event matters, the least first. -/
inductive Severity where
  | trace | debug | warn | error
deriving DecidableEq, Repr

/-- How a severity is written. -/
def Severity.name : Severity → String
  | .trace => "TRACE"
  | .debug => "DEBUG"
  | .warn => "WARN"
  | .error => "ERROR"

/-- The events that are reported. -/
inductive Record where
  /-- Storage of another size came back to a pool. -/
  | foreignBuffer (size : Nat)
  /-- A packet is not injected, because its checksums could not be recomputed. -/
  | packetDropped (error : Error)
  /-- The driver failed to close when nobody held the session any more. -/
  | closeFailed (error : DeviceError)
  | loopStarted (filter : String)
  /-- A receive loop ends because nobody takes its packets. -/
  | receiversGone
  /-- A receive loop ends because the session is closed. -/
  | sessionClosed
  /-- A receive loop ends because receiving failed. -/
  | receiveFailed (error : Error)
  | loopStopped
deriving DecidableEq, Repr

namespace Record

/-- The event belongs to a receive loop. -/
def ofLoop : Record → Bool
  | foreignBuffer _ | packetDropped _ | closeFailed _ => false
  | loopStarted _ | receiversGone | sessionClosed | receiveFailed _ | loopStopped => true

/-- How much an event matters. -/
def severity : Record → Severity
  | foreignBuffer _ => .trace
  | packetDropped _ | closeFailed _ => .warn
  | receiveFailed _ => .error
  | loopStarted _ | receiversGone | sessionClosed | loopStopped => .debug

/-- An event in words. -/
def message : Record → String
  | foreignBuffer n => "dropping foreign " ++ toString n ++ "-byte buffer instead of pooling it"
  | packetDropped e => "dropping packet instead of injecting it: " ++ e.message
  | closeFailed e => "failed to close divert driver: " ++ e.message
  | loopStarted filter => "receive loop started (filter: " ++ Text.quoted filter ++ ")"
  | receiversGone => "all packet receivers dropped"
  | sessionClosed => "divert handle closed"
  | receiveFailed e => "failed to receive diverted packet: " ++ e.message
  | loopStopped => "receive loop stopped"

/-- An event as a line of the log. -/
def line (r : Record) : String := r.severity.name ++ ": " ++ r.message

end Record

end Intercept
