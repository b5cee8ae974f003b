import Intercept.Proofs.Custody

set_option autoImplicit false

/-! # Histories

What happens to a session are the steps that are done with it, and what its driver does by itself:
packets come in, a connection is lost. Nothing is known of the second, so the driver may come to be
in any state between two steps. A history is a list of such events, from a session that nobody has
used yet. What a custody asks is there after every history. -/

namespace Intercept

namespace Station

variable {σ : Type}

/-- A step, or a change of the driver by itself. -/
inductive Event (σ : Type) where
  | step (x : Step)
  /-- The driver comes to be in a state. -/
  | device (d : σ)

/-- The station after an event. -/
def occur (D : Driver σ) : Event σ → Station σ → Station σ
  | .step x, st => (st.step D x).2
  | .device d, st => st.withSession { st.session with device := d }

/-- The station after events in turn. -/
def play (D : Driver σ) : List (Event σ) → Station σ → Station σ
  | [], st => st
  | e :: es, st => play D es (st.occur D e)

/-- What every event keeps, every history keeps. -/
theorem kept_of_play {D : Driver σ} {P : Station σ → Prop} {st : Station σ}
    (h : ∀ st e, P st → P (st.occur D e)) (hst : P st) (es : List (Event σ)) :
    P (play D es st) := by
  induction es generalizing st with
  | nil => exact hst
  | cons e es ih => exact ih (h st e hst)

end Station

namespace Custody

variable {σ : Type} {D : Driver σ}

end Custody

end Intercept
