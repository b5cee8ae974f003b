import Intercept.Pool
import Intercept.Record

set_option autoImplicit false

/-! # Working with several pools

Pools and buffers worked with step by step. A pool may be known under several numbers, which then
share all it holds, and a buffer goes back to the pool it came from. There are slots for buffers, as
many as are asked for, so a history of pools and their buffers is a list of steps. -/

namespace Intercept

/-- A buffer, and the pool it came from. -/
structure Loan where
  buffer : Buffer
  pool : Nat

/-- The pools there are, the pool each number stands for, and the slots. -/
structure PoolBench where
  pools : List Pool
  names : List Nat
  /-- For each slot that was ever used, the buffer in it. -/
  slots : List (Option Loan)

namespace PoolBench

/-- A slot, by number. -/
abbrev Slot := Nat

/-- A step on a buffer in a slot. -/
inductive BufferStep where
  | append (data : Bytes)
  | setLen (n : Nat)
  | writeStorage (offset : Nat) (data : Bytes)
  | writeContents (offset : Nat) (data : Bytes)
  | look
  | listing

/-- A step. Pools are given by number. -/
inductive Step where
  /-- Know a pool under one more number. -/
  | share (pool : Nat)
  /-- One more pool, without a limit if nothing is said. -/
  | newPool (maxIdle : Option Nat := none)
  /-- Take a buffer into a slot, giving up the one it held. -/
  | acquire (pool : Nat) (slot : Slot)
  /-- Give up the buffer in a slot, if there is one. -/
  | drop (slot : Slot)
  /-- Give bytes to a pool, of which some are said to have been used. -/
  | release (pool : Nat) (b : Bytes) (used : Nat)
  | listing (pool : Nat)
  | buffer (slot : Slot) (step : BufferStep)

/-- What a step comes to. -/
inductive Answer where
  | done
  | yesNo (b : Bool)
  | text (s : String)
  | buffer (b : Buffer) (pool : Pool)
  | emptySlot
  | outOfRange

/-- What comes of a step: its answer and the events reported during it. -/
structure Outcome where
  answer : Answer
  log : List Record

/-- One pool, known under the number zero. -/
def ofPool (p : Pool) : PoolBench := ⟨[p], [0], []⟩

/-- The place of the pool a number stands for. -/
def place (w : PoolBench) (n : Nat) : Nat := (w.names[n]?).getD 0

/-- The pool at a place. -/
def poolAt (w : PoolBench) (k : Nat) : Pool := (w.pools[k]?).getD (.empty none)

/-- Replace the pool at a place. -/
def setPool (k : Nat) (p : Pool) (w : PoolBench) : PoolBench := { w with pools := w.pools.set k p }

/-- The buffer in a slot, with its pool. -/
def slot? (w : PoolBench) (i : Slot) : Option Loan := w.slots[i]?.join

/-- Put a buffer into a slot, or empty it. -/
def setSlot (i : Slot) (b : Option Loan) (w : PoolBench) : PoolBench :=
  { w with slots := (w.slots ++ .replicate (i + 1 - w.slots.length) none).set i b }

/-- Give a buffer back to its pool. -/
def giveBack (l : Loan) (w : PoolBench) : PoolBench :=
  w.setPool l.pool ((w.poolAt l.pool).drop l.buffer)

/-- Give up the buffer in a slot, if there is one. -/
def clearSlot (i : Slot) (w : PoolBench) : PoolBench :=
  match w.slot? i with
  | none => w
  | some l => (w.giveBack l).setSlot i none

/-- A change to a buffer, out of range or not. -/
def changed (r : Option Buffer) (b : Buffer) : Answer × Buffer :=
  match r with
  | some b => (.done, b)
  | none => (.outOfRange, b)

/-- Do a step on a buffer, given its pool. -/
def bufferStep (st : BufferStep) (p : Pool) (b : Buffer) : Answer × Buffer :=
  match st with
  | .append data =>
    match b.append? data with
    | some b => (.yesNo true, b)
    | none => (.yesNo false, b)
  | .setLen n => changed (b.setLen? n) b
  | .writeStorage offset data => changed (b.writeStorage? offset data) b
  | .writeContents offset data => changed (b.writeContents? offset data) b
  | .look => (.buffer b p, b)
  | .listing => (.text b.listing, b)

/-- The events that go with giving bytes to a pool. -/
def releaseLog : Release → List Record
  | .foreign n => [.foreignBuffer n]
  | .kept | .discarded => []

/-- Do a step. -/
def step (st : Step) (w : PoolBench) : Outcome × PoolBench :=
  match st with
  | .share n => (⟨.done, []⟩, { w with names := w.names ++ [w.place n] })
  | .newPool maxIdle =>
    (⟨.done, []⟩,
      { w with pools := w.pools ++ [.empty maxIdle], names := w.names ++ [w.pools.length] })
  | .acquire n i =>
    let k := w.place n
    let (b, p) := (w.poolAt k).acquire
    (⟨.done, []⟩, ((w.setPool k p).clearSlot i).setSlot i (some ⟨b, k⟩))
  | .drop i => (⟨.done, []⟩, w.clearSlot i)
  | .release n b used =>
    let k := w.place n
    let (r, p) := (w.poolAt k).release b used
    (⟨.done, releaseLog r⟩, w.setPool k p)
  | .listing n => (⟨.text (w.poolAt (w.place n)).listing, []⟩, w)
  | .buffer i st =>
    match w.slot? i with
    | none => (⟨.emptySlot, []⟩, w)
    | some l =>
      let (a, b) := bufferStep st (w.poolAt l.pool) l.buffer
      (⟨a, []⟩, w.setSlot i (some { l with buffer := b }))

/-- Do steps in turn. -/
def run : List Step → PoolBench → PoolBench
  | [], w => w
  | st :: sts, w => run sts (w.step st).2

/-- The pools by their numbers. -/
def named (w : PoolBench) : List Pool := w.names.map w.poolAt

end PoolBench

end Intercept
