import Intercept.Proofs.Accounting
import Mathlib.Logic.Relation

set_option autoImplicit false

/-! # The calls a session makes of its driver

What a session does to its driver, and to being open, comes down to few things. `Session.Use` lists
them: one of the four calls a holder can make, a close, or nothing at all, which leaves the pool and
the log to be changed. Uses neither open a session again nor change how many hold it.

Everything that a step does to the session is a sequence of uses, but for its holders that come and
go: somebody shares it or leaves, a loop starts or ends. `Station.Goes` says so for all steps, and
`Station.goes_step` is where they are looked through, once.

`Driver.recording` is a driver with a record of the calls that it has answered. It answers as the
driver does (`Driver.recording_erased`). With only the kinds of the calls in the record, they can be
counted (`Driver.watched`). -/

namespace Intercept

open Relation (ReflTransGen)

/-! ## Recording calls -/

namespace Driver

variable {σ ρ : Type}

/-- The driver with a record of the calls it has answered. Of each call there is kept what `note`
says. -/
def recording (note : Request → ρ) (D : Driver σ) : Driver (σ × List ρ) where
  recv b s := (D.recv b s.1).map (.lift (·, s.2 ++ [note (.recv b.size)]))
  send b a s := (D.send b a s.1).lift (·, s.2 ++ [note (.send b a)])
  checksums b a s := (D.checksums b a s.1).lift (·, s.2 ++ [note (.checksums b a)])
  evalFilter f b a s := (D.evalFilter f b a s.1).lift (·, s.2 ++ [note (.evalFilter f b a)])
  close s := (D.close s.1).lift (·, s.2 ++ [note .close])
  filterMistake? s f := D.filterMistake? s.1 f
  size_recv b s c h := by
    obtain ⟨d, hd, rfl⟩ := Option.map_eq_some_iff.1 h
    exact D.size_recv b s.1 d hd
  size_checksums b a s := D.size_checksums b a s.1

/-- But for its record, the driver does and answers what it would have. -/
theorem recording_erased (note : Request → ρ) (D : Driver σ) (s : σ × List ρ) :
    (∀ b, ((D.recording note).recv b s).map (.lift Prod.fst) = D.recv b s.1) ∧
      (∀ b a, ((D.recording note).send b a s).lift Prod.fst = D.send b a s.1) ∧
      (∀ b a, ((D.recording note).checksums b a s).lift Prod.fst = D.checksums b a s.1) ∧
      (∀ f b a, ((D.recording note).evalFilter f b a s).lift Prod.fst = D.evalFilter f b a s.1) ∧
      ((D.recording note).close s).lift Prod.fst = D.close s.1 := by
  refine ⟨fun b => ?_, fun _ _ => rfl, fun _ _ => rfl, fun _ _ _ => rfl, rfl⟩
  simp only [recording, Option.map_map]
  exact congrFun Option.map_id _

end Driver

/-- The kind of a call to a driver. -/
inductive Called where
  | recv | send | checksums | evalFilter | close
deriving DecidableEq

namespace Driver

variable {σ : Type}

/-- What kind of call a request makes. -/
def Request.called : Request → Called
  | .recv _ => .recv
  | .send _ _ => .send
  | .checksums _ _ => .checksums
  | .evalFilter _ _ _ => .evalFilter
  | .close => .close

/-- The driver with a record of the kinds of the calls it has answered. -/
abbrev watched (D : Driver σ) : Driver (σ × List Called) := D.recording Request.called

end Driver

/-! ## What a session does to its driver -/

namespace Session

variable {σ α : Type} {D : Driver σ} {s s' : Session σ}

/-- One use of a session by somebody who holds it. -/
inductive Use (D : Driver σ) : Session σ → Session σ → Prop where
  | aside (s : Session σ) (pool : Pool) (log : List Record) :
      Use D s { s with pool := pool, log := log }
  | recv {s : Session σ} {b : Bytes} {c : Call σ Reception} (h : D.recv b s.device = some c) :
      Use D s (s.afterCall D c)
  | send (s : Session σ) (b : Bytes) (a : Address) :
      Use D s (s.afterCall D (D.send b a s.device))
  | checksums (s : Session σ) (b : Bytes) (a : Address) :
      Use D s (s.afterCall D (D.checksums b a s.device))
  | evalFilter (s : Session σ) (f : String) (b : Bytes) (a : Address) :
      Use D s (s.afterCall D (D.evalFilter f b a s.device))
  | close (s : Session σ) : Use D s (s.close D).2

/-- A sequence of uses. -/
abbrev Uses (D : Driver σ) : Session σ → Session σ → Prop := ReflTransGen (Use D)

theorem uses_dropPacket (p : Packet) (s : Session σ) : Uses D s (s.dropPacket p).2 := by
  unfold dropPacket
  split <;> exact .single (.aside s _ _)

theorem uses_dropPackets (ps : List Packet) (s : Session σ) : Uses D s (dropPackets ps s).2 := by
  induction ps generalizing s with
  | nil => exact .refl
  | cons p ps ih =>
      have hp := uses_dropPacket (D := D) p s
      unfold dropPackets
      split
      · next he => rwa [he] at hp
      · next s' he =>
          rw [he] at hp
          exact hp.trans (ih s')

theorem uses_packetOfBytes (b : Bytes) (a : Address) (s : Session σ) :
    Uses D s (s.packetOfBytes b a).2 := by
  unfold packetOfBytes
  simp only
  split <;> exact .single (.aside s _ _)

theorem uses_packetOfStorage (offset : Nat) (b : Bytes) (len : Nat) (a : Address)
    (s : Session σ) : Uses D s (s.packetOfStorage offset b len a).2 := by
  unfold packetOfStorage
  simp only
  split
  · exact .single (.aside s _ _)
  · split <;> exact .single (.aside s _ _)

theorem uses_startRecv (s : Session σ) : Uses D s s.startRecv.2 := by
  unfold startRecv
  split
  · exact .single (.aside s _ _)
  · exact .refl

theorem uses_received {b : Bytes} {c : Call σ Reception} (h : D.recv b s.device = some c)
    (buffer : Buffer) : Uses D s (s.received D buffer c).2 := by
  have hcall : Uses D s (s.afterCall D c) := .single (.recv h)
  unfold received
  simp only
  split
  · exact hcall.tail (.aside ..)
  · split
    · exact hcall.tail (.aside ..)
    · split
      · exact hcall
      · exact hcall.tail (.aside ..)

theorem uses_finishRecv {b : Buffer} {r : Except Fault Packet × Session σ}
    (h : s.finishRecv D b = some r) : Uses D s r.2 := by
  obtain ⟨c, hc, rfl⟩ := Option.map_eq_some_iff.1 h
  exact uses_received hc b

theorem uses_recv {r : Except Fault Packet × Session σ} (h : s.recv D = some r) :
    Uses D s r.2 := by
  have hstart := uses_startRecv (D := D) s
  unfold recv at h
  split at h
  · next he =>
      cases h
      rwa [he] at hstart
  · next he =>
      rw [he] at hstart
      exact hstart.trans (uses_finishRecv h)

theorem uses_send (p : Packet) (s : Session σ) : Uses D s (s.send D p).2 := by
  unfold send
  split
  · exact .single (.send ..)
  · exact .refl

theorem uses_checksums (p : Packet) (s : Session σ) : Uses D s (s.checksums D p).2.2 :=
  .single (.checksums ..)

theorem uses_evalFilter (f : String) (p : Packet) (s : Session σ) :
    Uses D s (s.evalFilter D f p).2 := .single (.evalFilter ..)

theorem uses_giveUp (r : Except Error Nat) (p : Packet) (s : Session σ) :
    Uses D s (s.giveUp r p).2 := by
  have h := uses_dropPacket (D := D) p s
  unfold giveUp
  split
  · next he => rwa [he] at h
  · next he => rwa [he] at h

theorem uses_injectAsIs (p : Packet) (s : Session σ) : Uses D s (s.injectAsIs D p).2 :=
  (uses_send p s).trans (uses_giveUp ..)

theorem uses_inject (p : Packet) (s : Session σ) : Uses D s (s.inject D p).2 := by
  have h := uses_checksums (D := D) p s
  unfold inject
  split
  · split
    · next e p' s' he =>
        rw [he] at h
        exact (h.tail (.aside ..)).trans (uses_giveUp ..)
    · next p' s' he =>
        rw [he] at h
        exact h.trans (uses_injectAsIs ..)
  · exact uses_injectAsIs p s

/-! ### What uses keep -/

theorem isOpen_close (s : Session σ) : (s.close D).2.isOpen = false := by
  unfold close
  split
  · rfl
  · next h => exact Bool.eq_false_iff.2 h

theorem isOpen_afterCall (c : Call σ α) (s : Session σ) :
    (s.afterCall D c).isOpen = (s.isOpen && !c.closes) := by
  unfold afterCall
  cases hc : c.closes with
  | true => simp [isOpen_close]
  | false => simp

/-- No use opens a session again. -/
theorem Use.closed (h : Use D s s') (hs : s.isOpen = false) : s'.isOpen = false := by
  cases h with
  | aside => exact hs
  | close => exact isOpen_close s
  | recv => rw [isOpen_afterCall, hs, Bool.false_and]
  | send => rw [isOpen_afterCall, hs, Bool.false_and]
  | checksums => rw [isOpen_afterCall, hs, Bool.false_and]
  | evalFilter => rw [isOpen_afterCall, hs, Bool.false_and]

theorem Uses.closed (h : Uses D s s') (hs : s.isOpen = false) : s'.isOpen = false := by
  induction h with
  | refl => exact hs
  | tail _ hu ih => exact hu.closed ih

theorem holders_close (s : Session σ) : (s.close D).2.holders = s.holders := by
  unfold close
  split <;> rfl

theorem holders_afterCall (c : Call σ α) (s : Session σ) :
    (s.afterCall D c).holders = s.holders := by
  unfold afterCall
  cases c.closes with
  | true => exact holders_close _
  | false => rfl

theorem Use.holders (h : Use D s s') : s'.holders = s.holders := by
  cases h with
  | aside => rfl
  | close => exact holders_close s
  | recv => exact holders_afterCall _ s
  | send => exact holders_afterCall _ s
  | checksums => exact holders_afterCall _ s
  | evalFilter => exact holders_afterCall _ s

theorem Uses.holders (h : Uses D s s') : s'.holders = s.holders := by
  induction h with
  | refl => rfl
  | tail _ hu ih => exact hu.holders.trans ih

/-- Leaving is using the session once more, with a holder less. -/
theorem uses_leave (s : Session σ) : Uses D { s with holders := s.holders - 1 } (s.leave D) := by
  have hclose := Use.close (D := D) { s with holders := s.holders - 1 }
  unfold leave
  simp only
  split
  · split
    · next he =>
        rw [he] at hclose
        exact (ReflTransGen.single hclose).tail (.aside ..)
    · next he =>
        rw [he] at hclose
        exact .single hclose
  · exact .refl

theorem holders_leave (s : Session σ) : (s.leave D).holders = s.holders - 1 :=
  Uses.holders (uses_leave s)

/-- The last one who leaves closes the session. -/
theorem isOpen_leave (h : (s.leave D).holders = 0) : (s.leave D).isOpen = false := by
  have hholders : s.holders - 1 = 0 := (holders_leave s).symm.trans h
  have hclose := isOpen_close (D := D) { s with holders := s.holders - 1 }
  unfold leave
  simp only [if_pos hholders]
  split
  · next he => rwa [he] at hclose
  · next he => rwa [he] at hclose

end Session

/-! ## What a move of a loop does -/

namespace Loop

variable {σ : Type} {D : Driver σ} {s : Session σ} {l : Loop}

/-- A loop holds the session until it ends. -/
def holds (l : Loop) : Bool := !l.hasEnded

/-- What a move of a loop may come to: uses of the session, and at the end of the loop one hold of
it less. -/
def Moved (D : Driver σ) (s : Session σ) (r : Loop × Session σ) : Prop :=
  (r.1.holds = true ∧ Session.Uses D s r.2) ∨
    (r.1.holds = false ∧ ∃ s', Session.Uses D s s' ∧ r.2 = s'.leave D)

theorem moved_stop (why : Record) (l : Loop) {s' : Session σ} (h : Session.Uses D s s') :
    Moved D s (l.stop D why s') :=
  Or.inr ⟨rfl, _, (h.tail (.aside s' _ _)).tail (.aside ..), rfl⟩

theorem moved_breakOff (l : Loop) {s' : Session σ} (h : Session.Uses D s s') :
    Moved D s (l.breakOff D s') :=
  Or.inr ⟨rfl, _, h, rfl⟩

theorem moved_received (l : Loop) {x : Except Fault Packet × Session σ}
    (h : Session.Uses D s x.2) : Moved D s (l.received D x) := by
  obtain ⟨x, s'⟩ := x
  cases x with
  | ok p => exact Or.inl ⟨rfl, h⟩
  | error e =>
      cases e with
      | refused e => exact moved_stop _ l h
      | outOfRange => exact moved_breakOff l h

/-- Only a loop that holds the session can move. -/
theorem move_uses {r : Loop × Session σ} (hm : l.move D s = some r) :
    l.holds = true ∧ Moved D s r := by
  unfold move at hm
  unfold holds hasEnded
  split at hm
  · next hp =>
      have hstart := Session.uses_startRecv (D := D) s
      refine ⟨by rw [hp]; rfl, ?_⟩
      split at hm
      · next he =>
          cases hm
          rw [he] at hstart
          exact moved_stop _ l hstart
      · next he =>
          cases hm
          rw [he] at hstart
          exact Or.inl ⟨rfl, hstart⟩
  · next hp =>
      obtain ⟨x, hx, rfl⟩ := Option.map_eq_some_iff.1 hm
      exact ⟨by rw [hp]; rfl, moved_received l (Session.uses_finishRecv hx)⟩
  · next p hp =>
      have hdrop := Session.uses_dropPacket (D := D) p s
      refine ⟨by rw [hp]; rfl, ?_⟩
      split at hm
      · split at hm
        · cases hm
          exact Or.inl ⟨rfl, .refl⟩
        · cases hm
      · split at hm
        · next he =>
            cases hm
            rw [he] at hdrop
            exact moved_stop _ l hdrop
        · next he =>
            cases hm
            rw [he] at hdrop
            exact moved_breakOff l hdrop
  · cases hm
  · cases hm

/-- A loop that is forgotten does not hold the session. -/
theorem countP_kept? (l : Loop) : l.kept?.toList.countP holds = [l].countP holds := by
  unfold kept?
  split
  · next h =>
      rw [Bool.and_eq_true] at h
      simp [holds, h.1]
  · rfl

end Loop

/-! ## What a step does -/

namespace Station

variable {σ : Type} {D : Driver σ} {st st' st'' : Station σ} {i : Slot}

/-- How many times the loop of a station holds the session: once, until it ends. -/
def loopHolds (st : Station σ) : Nat := st.loop.toList.countP Loop.holds

/-- Nothing is done to the session but to use it, and whoever holds it still does. -/
structure Stays (D : Driver σ) (st st' : Station σ) : Prop where
  session : Session.Uses D st.session st'.session
  holders : st'.holders = st.holders
  loop : st'.loopHolds = st.loopHolds

namespace Stays

theorem refl (D : Driver σ) (st : Station σ) : Stays D st st := ⟨.refl, rfl, rfl⟩

theorem trans (h : Stays D st st') (h' : Stays D st' st'') : Stays D st st'' :=
  ⟨h.session.trans h'.session, h'.holders.trans h.holders, h'.loop.trans h.loop⟩

theorem withSession {s : Session σ} (h : Session.Uses D st.session s) :
    Stays D st (st.withSession s) :=
  ⟨h, rfl, rfl⟩

theorem setSlot (p : Option Packet) (h : Stays D st st') : Stays D st (st'.setSlot i p) :=
  ⟨h.session, h.holders, h.loop⟩

theorem clearSlot (i : Slot) (h : Stays D st st') : Stays D st (st'.clearSlot i).2 := by
  unfold Station.clearSlot
  split
  · exact h
  · next p _ => exact h.trans ((withSession (Session.uses_dropPacket p _)).setSlot none)

theorem place (i : Slot) (r : Except Fault Packet) (h : Stays D st st') :
    Stays D st (st'.place i r).2 := by
  unfold Station.place
  split
  · exact h
  · exact h
  · exact (h.clearSlot i).setSlot _

theorem onHolder {h : Nat} {act : Unit → Answer × Station σ} (ha : Stays D st (act ()).2) :
    Stays D st (st.onHolder h act).2 :=
  kept_onHolder (refl D st) ha

theorem onPacket {act : Packet → Answer × Packet × Session σ}
    (ha : ∀ p, Session.Uses D st.session (act p).2.2) : Stays D st (st.onPacket i act).2 := by
  unfold Station.onPacket
  split
  · exact refl D st
  · next p _ => exact (withSession (ha p)).setSlot _

theorem onPacketWith {h : Nat} {act : Packet → Answer × Packet × Session σ}
    (ha : ∀ p, Session.Uses D st.session (act p).2.2) :
    Stays D st (st.onPacketWith i h act).2 := by
  unfold Station.onPacketWith
  split
  · exact onHolder (onPacket ha)
  · exact refl D st

theorem consume (i : Slot) (st : Station σ) : Stays D st (st.consume i).2 := by
  have hclear := (refl D st).clearSlot i
  rcases st.consume_cases i with he | ⟨l, hl, -, ⟨p, rest, -, he⟩ | ⟨-, hend, he⟩⟩
  · rw [he]
    exact refl D st
  · rw [he]
    refine ⟨hclear.session, hclear.holders, ?_⟩
    unfold loopHolds
    rw [hl]
    rfl
  · rw [he]
    refine ⟨hclear.session, hclear.holders, ?_⟩
    unfold loopHolds
    simp [hl, Loop.holds, hend]

theorem dropQueue (st : Station σ) : Stays D st st.dropQueue.2 := by
  rcases st.dropQueue_cases with ⟨-, he⟩ | ⟨l, hl, -, he⟩
  · rw [he]
    exact refl D st
  · rw [he]
    refine ⟨Session.uses_dropPackets _ _, rfl, ?_⟩
    unfold loopHolds
    rw [hl]
    exact l.abandoned.countP_kept?

end Stays

/-- All that a step can do. -/
inductive Goes (D : Driver σ) (st : Station σ) (x : Step) : Station σ → Prop where
  | stays {st' : Station σ} (h : Stays D st st') : Goes D st x st'
  | shares :
      Goes D st x { st with session := st.session.share, holders := st.holders ++ [true] }
  | leaves {h : Nat} (hx : x = .leave h) (hh : st.holds h = true) :
      Goes D st x { st with session := st.session.leave D, holders := st.holders.set h false }
  | loopStarts {l : Loop} (why : Record) (hnone : st.loop = none) (hl : l.holds = true) :
      Goes D st x { st with session := st.session.share.report why, loop := some l }
  | loopEnds {s : Session σ} {loop : Option Loop} (hs : Session.Uses D st.session s)
      (hone : st.loopHolds = 1) (hnone : loop.toList.countP Loop.holds = 0) :
      Goes D st x { st with session := s.leave D, loop := loop }

theorem goes_moveLoop {x : Step} (hm : st.moveLoop? D = some st') : Goes D st x st' := by
  obtain ⟨l, hl, hm⟩ := Option.bind_eq_some_iff.1 hm
  obtain ⟨⟨l', s⟩, hr, rfl⟩ := Option.map_eq_some_iff.1 hm
  obtain ⟨hhold, ⟨hhold', hs⟩ | ⟨hend, s', hs, rfl⟩⟩ := Loop.move_uses hr
  · refine .stays ⟨hs, rfl, ?_⟩
    unfold loopHolds
    rw [Loop.countP_kept?, hl]
    simp [hhold, hhold']
  · refine .loopEnds hs ?_ ?_
    · simp [loopHolds, hl, hhold]
    · rw [Loop.countP_kept?]
      simp [hend]

/-- Starting a loop starts one, or changes nothing. -/
theorem goes_startWith {x : Step} {start : Session σ → Except Fault Loop × Session σ}
    (hs : Loop.Starts st.session (start st.session)) : Goes D st x (st.startWith start).2 := by
  rcases startWith_cases hs with he | ⟨hl, -, he⟩
  · rw [he]
    exact .stays (.refl D st)
  · rw [he]
    exact .loopStarts _ hl rfl

/-- **Whatever a step does**, it does one of these things. -/
theorem goes_step (x : Step) (st : Station σ) : Goes D st x (st.step D x).2 := by
  cases x with
  | packet i op => exact .stays (.onPacket fun p => .refl)
  | checksums i h => exact .stays (.onPacketWith fun p => Session.uses_checksums p _)
  | evalFilter i h f => exact .stays (.onPacketWith fun p => Session.uses_evalFilter f p _)
  | sendKept i h => exact .stays (.onPacketWith fun p => Session.uses_send p _)
  | newPacket i b a =>
      exact .stays ((Stays.withSession (Session.uses_packetOfBytes b a _)).place ..)
  | newFromStorage i offset b len a =>
      exact .stays ((Stays.withSession (Session.uses_packetOfStorage offset b len a _)).place ..)
  | recv i h =>
      refine .stays (.onHolder ?_)
      split
      · exact .refl D st
      · next r s hr => exact (Stays.withSession (Session.uses_recv hr)).place ..
  | dropPacket i => exact .stays ((Stays.refl D st).clearSlot i)
  | inject i h =>
      refine .stays (.onHolder ?_)
      split
      · exact .refl D st
      · next p _ => exact (Stays.withSession (Session.uses_inject p _)).setSlot none
  | share h => exact kept_onHolder (.stays (.refl D st)) .shares
  | close h => exact .stays (.onHolder (.withSession (.single (.close _))))
  | leave h =>
      simp only [step, onHolder]
      split
      · next hh => exact .leaves rfl hh
      · exact .stays (.refl D st)
  | startLoop h host =>
      exact kept_onHolder (.stays (.refl D st)) (goes_startWith (Loop.starts_start ..))
  | startLoopOnRuntime h runtime =>
      exact kept_onHolder (.stays (.refl D st)) (goes_startWith (Loop.starts_startOnRuntime ..))
  | moveLoop =>
      simp only [step]
      cases hm : st.moveLoop? D with
      | none => exact .stays (.refl D st)
      | some st' => exact goes_moveLoop hm
  | consume i => exact .stays (.consume i st)
  | dropQueue => exact .stays (.dropQueue st)

end Station

end Intercept
