import Intercept.Config
import Intercept.Driver

set_option autoImplicit false

/-! # The scripted driver

A driver that does what a script tells it, one entry for each call, and may keep a log of the calls.
An entry may make its call fail, and may close the session in the middle of it. A call for which
the script has no entry left succeeds without an effect, except that receiving fails as it does
on a closed driver. -/

namespace Intercept

namespace Script

/-- What an entry may say whatever the call: the call fails, the session is closed during it. -/
structure Effect where
  failure : Option DeviceError
  closes : Bool

/-- The entry of a call that its script does not mention. -/
def Effect.none : Effect := ⟨Option.none, false⟩

/-- The answer of a call: its failure, or else a value. -/
def Effect.answer {α : Type} (e : Effect) (a : α) : Except DeviceError α :=
  match e.failure with
  | some f => .error f
  | Option.none => .ok a

/-- How to receive: what to write and where, and the length and address to report. -/
structure RecvEntry where
  effect : Effect
  offset : Nat
  data : Bytes
  len : Nat
  address : Address

/-- How to inject: the number of bytes to report, if not the length of the packet. -/
structure SendEntry where
  effect : Effect
  reported : Option Nat

/-- How to recompute checksums: what to overwrite, and a new address. -/
structure SumsEntry where
  effect : Effect
  patches : List (Nat × Bytes)
  address : Option Address

/-- One answer to a filter. -/
structure EvalEntry where
  effect : Effect
  value : Bool

/-- A call as it is logged. -/
inductive Logged where
  | recv
  | send (b : Bytes) (a : Address)
  | sums (len : Nat)
  | eval (filter : String) (len : Nat) (a : Address)
  | close

end Script

/-- The state of a scripted driver: the entries left for each call, whether entries may close the
session, whether calls are logged, and the log. -/
structure Script where
  recvs : List Script.RecvEntry
  sends : List Script.SendEntry
  sums : List Script.SumsEntry
  evals : List Script.EvalEntry
  closes : List Script.Effect
  mayClose : Bool
  keepsLog : Bool
  log : List Script.Logged

namespace Script

/-- A script without entries that logs nothing. -/
def empty : Script := ⟨[], [], [], [], [], false, false, []⟩

/-- Log a call, if calls are logged. -/
def logged (c : Logged) (s : Script) : Script :=
  if s.keepsLog then { s with log := s.log ++ [c] } else s

/-- Receive by the next entry. -/
def recv (b : Bytes) (s : Script) : Option (Call Script Reception) :=
  let s := s.logged .recv
  match s.recvs with
  | [] => some (.plain ⟨b, .error ⟨.notConnected, none⟩⟩ s)
  | e :: rest =>
    some ⟨⟨b.overwrite e.offset e.data, e.effect.answer (e.len, e.address)⟩,
      s.mayClose && e.effect.closes, { s with recvs := rest }⟩

/-- Inject by the next entry. -/
def send (b : Bytes) (a : Address) (s : Script) : Call Script (Except DeviceError Nat) :=
  let s := s.logged (.send b a)
  match s.sends with
  | [] => .plain (.ok b.size) s
  | e :: rest =>
    ⟨e.effect.answer (e.reported.getD b.size), s.mayClose && e.effect.closes,
      { s with sends := rest }⟩

/-- Overwrite bytes in several places; what does not fit is not written. -/
def patch (ps : List (Nat × Bytes)) (b : Bytes) : Bytes :=
  ps.foldl (fun b p => b.overwrite p.1 p.2) b

theorem size_patch (ps : List (Nat × Bytes)) (b : Bytes) : (patch ps b).size = b.size := by
  induction ps generalizing b with
  | nil => rfl
  | cons p ps ih => rw [patch, List.foldl_cons, ← patch, ih, Bytes.size_overwrite]

/-- Treat a packet by the next entry for checksums. -/
def checksums (b : Bytes) (a : Address) (s : Script) : Call Script Recomputed :=
  let s := s.logged (.sums b.size)
  match s.sums with
  | [] => .plain ⟨b, a, .ok ()⟩ s
  | e :: rest =>
    ⟨⟨patch e.patches b, e.address.getD a, e.effect.answer ()⟩, s.mayClose && e.effect.closes,
      { s with sums := rest }⟩

/-- Evaluate a filter by the next entry. -/
def evalFilter (filter : String) (b : Bytes) (a : Address) (s : Script) :
    Call Script (Except DeviceError Bool) :=
  let s := s.logged (.eval filter b.size a)
  match s.evals with
  | [] => .plain (.ok false) s
  | e :: rest =>
    ⟨e.effect.answer e.value, s.mayClose && e.effect.closes, { s with evals := rest }⟩

/-- Close by the next entry. -/
def close (s : Script) : Call Script (Except DeviceError Unit) :=
  let s := s.logged .close
  match s.closes with
  | [] => .plain (.ok ()) s
  | e :: rest => ⟨e.answer (), s.mayClose && e.closes, { s with closes := rest }⟩

/-- The position of the first exclamation mark, in bytes. -/
def filterMistake? (filter : String) : Option Nat :=
  let before := filter.toList.takeWhile (· ≠ '!')
  if before.length = filter.length then none
  else some (String.ofList before).utf8ByteSize

/-- Open a driver for a configuration. It has no script. -/
def openFor (c : Config) : Except DeviceError Script :=
  if (filterMistake? c.filter).isSome then
    .error ⟨.permissionDenied, some "script open failed"⟩
  else .ok empty

theorem size_recv (b : Bytes) (s : Script) (c : Call Script Reception) (h : s.recv b = some c) :
    c.answer.bytes.size = b.size := by
  unfold recv at h
  simp only at h
  split at h
  · cases h
    rfl
  · cases h
    exact Bytes.size_overwrite ..

theorem size_checksums (b : Bytes) (a : Address) (s : Script) :
    (s.checksums b a).answer.bytes.size = b.size := by
  unfold checksums
  simp only
  split
  · rfl
  · exact size_patch ..

/-- The scripted driver. Its calls may close the session. -/
def driver : Driver Script where
  recv := recv
  send := send
  checksums := checksums
  evalFilter := evalFilter
  close := close
  filterMistake? _ := filterMistake?
  size_recv := size_recv
  size_checksums := size_checksums

end Script

end Intercept
