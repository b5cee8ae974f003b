import Intercept.Malformed

set_option autoImplicit false

/-! # Errors

A driver fails with a `DeviceError`, a kind and perhaps a text of its own. An operation on a
packet or a session is refused with an `Error`, which may carry a malformed header or the
driver's error inside. `Fault` adds the one outcome that is not an answer at all: an index or a
capacity out of range, on which the operation stops. -/

namespace Intercept

/-- The kinds of failure of a driver. -/
inductive DeviceErrorKind where
  | notConnected | invalidData | invalidInput | permissionDenied | timedOut | brokenPipe
  | unsupported | other
deriving DecidableEq, Repr

namespace DeviceErrorKind

/-- How a kind is written. -/
def name : DeviceErrorKind → String
  | .notConnected => "NotConnected"
  | .invalidData => "InvalidData"
  | .invalidInput => "InvalidInput"
  | .permissionDenied => "PermissionDenied"
  | .timedOut => "TimedOut"
  | .brokenPipe => "BrokenPipe"
  | .unsupported => "Unsupported"
  | .other => "Other"

/-- A kind in words, for an error with no text of its own. -/
def words : DeviceErrorKind → String
  | .notConnected => "not connected"
  | .invalidData => "invalid data"
  | .invalidInput => "invalid input parameter"
  | .permissionDenied => "permission denied"
  | .timedOut => "timed out"
  | .brokenPipe => "broken pipe"
  | .unsupported => "unsupported"
  | .other => "other error"

end DeviceErrorKind

/-- A failure of a driver: its kind, and a text of its own if it has one. -/
structure DeviceError where
  kind : DeviceErrorKind
  detail : Option String
deriving DecidableEq, Repr

/-- The text of a failure, or its kind in words. -/
def DeviceError.message (e : DeviceError) : String := e.detail.getD e.kind.words

/-- Why an operation on a packet or a session is refused. -/
inductive Error where
  /-- The bytes are not the header that the operation needs. -/
  | malformed (cause : Malformed)
  /-- The protocol of the packet has not got what the operation needs. -/
  | protocolNotSupported (protocol : Nat)
  /-- The address is of the other family than the packet. -/
  | addressFamilyMismatch
  /-- The bytes do not fit into a buffer. -/
  | packetTooLarge (len capacity : Nat)
  | sessionClosed
  | injectionFailed (cause : DeviceError)
  | checksumFailed (cause : DeviceError)
  | filterFailed (cause : DeviceError)
  /-- The filter has a mistake at a position. -/
  | invalidFilter (position : Nat)
  | device (cause : DeviceError)
deriving DecidableEq, Repr

namespace Error

/-- The error in words. An error of the driver is shown with what was being done. -/
def message : Error → String
  | malformed m => m.message
  | protocolNotSupported p => "protocol " ++ toString p ++ " has no ports"
  | addressFamilyMismatch => "address family does not match the IP version of the packet"
  | packetTooLarge len capacity =>
    "packet of " ++ toString len ++ " bytes exceeds buffer capacity of " ++ toString capacity ++
      " bytes"
  | sessionClosed => "divert handle is closed"
  | injectionFailed e => "packet injection failed: " ++ e.message
  | checksumFailed e => "checksum recalculation failed: " ++ e.message
  | filterFailed e => "filter evaluation failed: " ++ e.message
  | invalidFilter p => "invalid filter (syntax error at position " ++ toString p ++ ")"
  | device e => e.message

/-- The operation was refused because the session is closed. -/
def isClosed : Error → Bool
  | sessionClosed => true
  | _ => false

end Error

/-- Why an operation gives no result: it is refused, or an index or a capacity is out of range. -/
inductive Fault where
  | refused (error : Error)
  | outOfRange
deriving DecidableEq, Repr

/-- A malformed header as a refusal. -/
def Fault.malformed (m : Malformed) : Fault := .refused (.malformed m)

end Intercept
