import Intercept.Buffer

set_option autoImplicit false

/-! # Buffer pools

A pool keeps storage that is not in use so that it need not be allocated again. Storage that
comes back is zeroed as far as it is said to have been used, and is handed out again last in,
first out; what comes back when the pool holds as much as it may is discarded, and storage of
another size is never kept. -/

namespace Intercept

/-- Idle storage, the next to be handed out first; how much of it may be kept, without limit if
nothing is said; how often storage had to be allocated; and how often it was discarded. -/
structure Pool where
  idle : List Storage
  maxIdle : Option Nat
  allocated : Nat
  discarded : Nat

/-- What becomes of storage that is given back. -/
inductive Release where
  | kept | discarded
  /-- Storage of another size than the pool's. -/
  | foreign (size : Nat)
deriving DecidableEq, Repr

namespace Pool

/-- A pool that has allocated nothing yet. -/
def empty (maxIdle : Option Nat) : Pool := ⟨[], maxIdle, 0, 0⟩

/-- There is room for one more idle storage. -/
def HasRoom (p : Pool) : Prop := ∀ n ∈ p.maxIdle, p.idle.length < n

instance (p : Pool) : Decidable p.HasRoom :=
  match h : p.maxIdle with
  | none => .isTrue (by simp [HasRoom, h])
  | some n => decidable_of_iff (p.idle.length < n) (by simp [HasRoom, h])

/-- Take a buffer with nothing in use, allocating storage if none is idle. -/
def acquire (p : Pool) : Buffer × Pool :=
  match p.idle with
  | s :: rest => (.ofStorage s, { p with idle := rest })
  | [] => (.ofStorage .blank, { p with allocated := p.allocated + 1 })

/-- Give storage back, zeroing its first `used` bytes. -/
def store (s : Storage) (used : Nat) (p : Pool) : Release × Pool :=
  if p.HasRoom then (.kept, { p with idle := s.clear 0 used :: p.idle })
  else (.discarded, { p with discarded := p.discarded + 1 })

/-- Give bytes of any size back, of which the first `used` were in use. -/
def release (b : Bytes) (used : Nat) (p : Pool) : Release × Pool :=
  if h : b.size = bufferSize then p.store ⟨b, h⟩ used else (.foreign b.size, p)

/-- Give a buffer back. What it has in use is zeroed, and nothing else. -/
def drop (b : Buffer) (p : Pool) : Pool := (p.store b.storage b.len).2

/-- Take out all idle storage and put it back in the order it came, which turns the order of
handing out around. -/
def turn (p : Pool) : Pool :=
  let taken := p.idle
  taken.foldl (fun q s => q.drop (.ofStorage s)) { p with idle := [] }

/-- The pool by its record, for listings. -/
def listing (p : Pool) : String :=
  "BufferPool \x7b idle: " ++ toString p.idle.length ++ ", allocated: " ++ toString p.allocated ++
    " \x7d"

end Pool

end Intercept
