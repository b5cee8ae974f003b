import Intercept.Bytes.Bits

set_option autoImplicit false

/-! # Drafts

A header is changed through a draft: the bytes it lies in, and whether a change has been asked
for. Asking for a change marks the draft even if the bytes end up as they were, because it is
the owner of the bytes who decides what a mark means. -/

namespace Intercept

/-- Bytes open for change, and whether a change has been asked for. -/
structure Draft where
  bytes : Bytes
  modified : Bool

/-- Ask for a change. -/
def Draft.change (d : Draft) (f : Bytes → Bytes) : Draft := ⟨f d.bytes, true⟩

@[simp] theorem Draft.modified_change (d : Draft) (f : Bytes → Bytes) :
    (d.change f).modified = true := rfl

@[simp] theorem Draft.bytes_change (d : Draft) (f : Bytes → Bytes) :
    (d.change f).bytes = f d.bytes := rfl

end Intercept
