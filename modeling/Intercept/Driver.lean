import Intercept.Address
import Intercept.Bytes
import Intercept.Error

set_option autoImplicit false

/-! # Drivers

A driver takes packets out of the network stack and puts them back. It is a state of any type and
what each call makes of that state. A call may find that the session that made it is closed while
the call is under way; it then says so, and the closing takes effect before the call's answer is
looked at. -/

namespace Intercept

/-- What a call to a driver comes to: its answer, whether the session is closed while the call is
under way, and the driver's state afterwards. -/
structure Call (σ α : Type) where
  answer : α
  closes : Bool
  state : σ

namespace Call

variable {σ τ α β : Type}

/-- A call during which the session is not closed. -/
def plain (answer : α) (state : σ) : Call σ α := ⟨answer, false, state⟩

/-- The same call with its answer put differently. -/
def map (f : α → β) (c : Call σ α) : Call σ β := ⟨f c.answer, c.closes, c.state⟩

/-- The same call seen from a larger state. -/
def lift (f : σ → τ) (c : Call σ α) : Call τ α := ⟨c.answer, c.closes, f c.state⟩

end Call

/-- What a driver makes of bytes it is to receive into: the bytes afterwards, and the length of the
packet with its address, or an error. -/
structure Reception where
  bytes : Bytes
  result : Except DeviceError (Nat × Address)

/-- What a driver makes of a packet whose checksums it is to recompute. -/
structure Recomputed where
  bytes : Bytes
  address : Address
  result : Except DeviceError Unit

/-- A driver with states in `σ`. -/
structure Driver (σ : Type) where
  /-- Receive into bytes. Nothing is answered while there is nothing to receive. -/
  recv : Bytes → σ → Option (Call σ Reception)
  /-- Inject a packet, and say how many bytes were injected. -/
  send : Bytes → Address → σ → Call σ (Except DeviceError Nat)
  /-- Recompute the checksums of a packet. -/
  checksums : Bytes → Address → σ → Call σ Recomputed
  /-- Evaluate a filter against a packet. -/
  evalFilter : String → Bytes → Address → σ → Call σ (Except DeviceError Bool)
  /-- Close the driver. A session that does so is closed already. -/
  close : σ → Call σ (Except DeviceError Unit)
  /-- Find the position of the first mistake in a filter. -/
  filterMistake? : σ → String → Option Nat
  /-- Receiving does not change how many bytes there are. -/
  size_recv : ∀ b s c, recv b s = some c → c.answer.bytes.size = b.size
  /-- Recomputing checksums keeps the length of a packet. -/
  size_checksums : ∀ b a s, (checksums b a s).answer.bytes.size = b.size

namespace Driver

variable {σ τ : Type}

/-- Two drivers as one, whose state is that of either. -/
def either (D : Driver σ) (E : Driver τ) : Driver (σ ⊕ τ) where
  recv b
    | .inl s => (D.recv b s).map (.lift .inl)
    | .inr t => (E.recv b t).map (.lift .inr)
  send b a
    | .inl s => (D.send b a s).lift .inl
    | .inr t => (E.send b a t).lift .inr
  checksums b a
    | .inl s => (D.checksums b a s).lift .inl
    | .inr t => (E.checksums b a t).lift .inr
  evalFilter f b a
    | .inl s => (D.evalFilter f b a s).lift .inl
    | .inr t => (E.evalFilter f b a t).lift .inr
  close
    | .inl s => (D.close s).lift .inl
    | .inr t => (E.close t).lift .inr
  filterMistake?
    | .inl s, f => D.filterMistake? s f
    | .inr t, f => E.filterMistake? t f
  size_recv b s c h := by
    cases s with
    | inl s =>
      obtain ⟨d, hd, rfl⟩ := Option.map_eq_some_iff.1 h
      exact D.size_recv b s d hd
    | inr t =>
      obtain ⟨d, hd, rfl⟩ := Option.map_eq_some_iff.1 h
      exact E.size_recv b t d hd
  size_checksums b a
    | .inl s => D.size_checksums b a s
    | .inr t => E.size_checksums b a t

end Driver

end Intercept
