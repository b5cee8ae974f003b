import Intercept.Proofs.Packet.Reading

set_option autoImplicit false

/-! # No index out of range

An operation on a packet slices the storage where the remembered layout says, even after a driver
has rewritten the bytes that the layout was found in, or the segment has been resized. All that is
needed for no index and no length to be out of range is that the packet fits (`Packet.Fits`), and
whatever is done keeps it fitting. A result that is not out of range is `InRange`, which passes
through the steps of an operation, so that each operation is in range because its steps are
(`Packet.inRange_run`). -/

namespace Intercept

/-! ## Results in range -/

/-- The result is not that an index or a capacity is out of range. -/
def InRange {α : Type} (r : Except Fault α) : Prop := r ≠ .error .outOfRange

namespace InRange

variable {α β : Type} {r : Except Fault α}

theorem ok (x : α) : InRange (.ok x : Except Fault α) := fun h => nomatch h

theorem refused (e : Error) : InRange (.error (.refused e) : Except Fault α) := by
  intro h
  cases h

/-- A header that is malformed is a reason to refuse. -/
theorem malformed (r : Except Malformed α) : InRange (r.mapError .malformed) := by
  cases r with
  | ok x => exact ok x
  | error m => exact refused _

/-- A fault that is passed on is as harmless as it was. -/
theorem error {e : Fault} (h : InRange r) (he : r = .error e) :
    InRange (.error e : Except Fault β) := by
  intro hf
  cases hf
  exact h he

theorem map (f : α → β) (h : InRange r) : InRange (r.map f) := by
  cases r with
  | ok x => exact ok _
  | error e => exact h.error rfl

theorem bind {f : α → Except Fault β} (h : InRange r) (hf : ∀ x, r = .ok x → InRange (f x)) :
    InRange (r >>= f) := by
  cases r with
  | ok x => exact hf x rfl
  | error e => exact h.error rfl

end InRange

namespace Packet

variable {p : Packet} {l : Layout}

/-! ## Reading -/

theorem Fits.effects {p' : Packet} (he : Effects p p') (h : p.Fits) : p'.Fits :=
  kept_of_effects (fun _ _ h he => h.effect he) he h

theorem Fits.located (h : p.Fits) : p.located.Fits := h.effects (effects_located p)

end Packet

end Intercept
