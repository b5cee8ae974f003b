import Intercept.Proofs.Calls

set_option autoImplicit false

/-! # Calls that are under way at the same time

A step of a station is done at once. Those who share a session do not wait for one another, though:
one may be inside the driver to receive, another to send, while a third closes the session. So a
call that goes to the driver has two halves. First its holder looks whether the session is open, and
with that it is under way; anything may happen before the driver answers it. Receiving comes in
halves already (`Session.startRecv`, `Session.finishRecv`), and closing and sending are put together
from theirs (`Session.close_eq`, `Session.send_eq`).

There may be any number of receive loops. The station attends to one of them and the others are
parked, to be turned to at any time, so the loops take turns with everybody else. -/

namespace Intercept

open Station (Answer)

/-! ## Halves of a call -/

namespace Session

variable {σ : Type}

/-- The first half of closing: from now on the session is closed. It says whether it was open. -/
def startClose (s : Session σ) : Bool × Session σ := (s.isOpen, { s with isOpen := false })

theorem startClose_of_closed {s : Session σ} (h : s.isOpen = false) :
    s.startClose = (false, s) := by
  obtain ⟨_, _, _, _, _, _⟩ := s
  cases h
  rfl

/-- The second half of closing: close the driver. -/
def finishClose (D : Driver σ) (s : Session σ) : Except DeviceError Unit × Session σ :=
  let c := D.close s.device
  (c.answer, { s with device := c.state })

/-- Only who finds the session open goes on to close the driver. -/
theorem close_eq (D : Driver σ) (s : Session σ) :
    s.close D = if s.startClose.1 then s.startClose.2.finishClose D else (.ok (), s) := rfl

/-- The second half of sending: have the driver inject the packet. -/
def finishSend (D : Driver σ) (p : Packet) (s : Session σ) : Except Error Nat × Session σ :=
  let c := D.send p.contents p.address s.device
  let s := s.afterCall D c
  (c.answer.mapError (s.refusal .injectionFailed), s)

/-- Only who finds the session open goes on to send. -/
theorem send_eq (D : Driver σ) (p : Packet) (s : Session σ) :
    s.send D p = if s.isOpen then s.finishSend D p else (.error .sessionClosed, s) := rfl

theorem uses_finishSend {D : Driver σ} (p : Packet) (s : Session σ) :
    Uses D s (s.finishSend D p).2 :=
  .single (.send ..)

end Session

/-! ## Stations with calls under way -/

/-- A call of a holder that the driver has yet to answer. -/
inductive Underway where
  /-- Receive into a buffer, for a slot. -/
  | recv (holder : Nat) (slot : Slot) (buffer : Buffer)
  | send (holder : Nat) (packet : Packet)
  | close (holder : Nat)

namespace Underway

variable {σ : Type} {D : Driver σ} {st : Station σ} {r : Answer × Station σ}

/-- The holder who made the call. -/
def holder : Underway → Nat
  | .recv h _ _ | .send h _ | .close h => h

/-- The call is one to close the session. -/
def isClose : Underway → Bool
  | .close _ => true
  | _ => false

/-- Have the driver answer a call, if it has something to give. -/
def finish? (D : Driver σ) (st : Station σ) : Underway → Option (Answer × Station σ)
  | .recv _ i b =>
    (st.session.finishRecv D b).map fun (r, s) => (st.withSession s).place i r
  | .send _ p =>
    let (r, s) := st.session.finishSend D p
    some (.ofRefusable .number r, st.withSession s)
  | .close _ =>
    let (r, s) := st.session.finishClose D
    some (.ofRefusable (fun _ => .done) (r.mapError .device), st.withSession s)

/-- The end of a call that is no close is a use of the session. -/
theorem stays_finish? (u : Underway) (hclose : u.isClose = false)
    (hr : u.finish? D st = some r) : Station.Stays D st r.2 := by
  cases u with
  | recv m i b =>
      obtain ⟨x, hx, rfl⟩ := Option.map_eq_some_iff.1 hr
      exact (Station.Stays.withSession (Session.uses_finishRecv hx)).place i x.1
  | send m p =>
      cases hr
      exact .withSession (Session.uses_finishSend p _)
  | close m => cases hclose

theorem finish?_close (u : Underway) (hclose : u.isClose = true)
    (hr : u.finish? D st = some r) : r.2 = st.withSession (st.session.finishClose D).2 := by
  cases u with
  | recv m i b => cases hclose
  | send m p => cases hclose
  | close m =>
      cases hr
      rfl

end Underway

/-- A station, the loops that it does not attend to, and the calls that are under way. A record is
kept of the calls that the driver has answered. -/
structure Concurrent (σ : Type) where
  station : Station (σ × List Called)
  parked : List Loop
  underway : List Underway

/-- What somebody, or the driver, does next. -/
inductive Turn (σ : Type) where
  /-- Do a step at once. -/
  | step (x : Station.Step)
  /-- The driver comes to be in a state by itself. -/
  | device (d : σ)
  /-- Park the loop that is attended to, and turn to a parked one, by number, or to none. -/
  | turnTo (k : Nat)
  | enterRecv (slot : Slot) (holder : Nat)
  | enterSend (slot : Slot) (holder : Nat)
  | enterClose (holder : Nat)
  /-- The driver answers a call that is under way, by number. -/
  | answer (k : Nat)

namespace Concurrent

variable {σ : Type}

/-- The session that everybody shares. -/
abbrev session (w : Concurrent σ) : Session (σ × List Called) := w.station.session

/-- The loops there are, those set aside included. -/
def loops (w : Concurrent σ) : List Loop := w.station.loop.toList ++ w.parked

/-- Use another state of the session. -/
def withSession (s : Session (σ × List Called)) (w : Concurrent σ) : Concurrent σ :=
  { w with station := w.station.withSession s }

/-- A session that is new, with one holder. -/
def ofDevice (device : σ) (config : Config) (pool : Pool) : Concurrent σ :=
  ⟨.ofSession (.ofDevice (device, []) config pool), [], []⟩

/-- Whoever has a call under way cannot leave. -/
def detains (w : Concurrent σ) : Station.Step → Bool
  | .leave h => w.underway.any (·.holder == h)
  | _ => false

/-- A call gets under way, and has no answer yet. -/
def enter (u : Underway) (w : Concurrent σ) : Option Answer × Concurrent σ :=
  (none, { w with underway := w.underway ++ [u] })

/-- Take a turn. There is no answer to a call that only gets under way, or that the driver has
nothing to give for yet. -/
def turn (D : Driver σ) (w : Concurrent σ) : Turn σ → Option Answer × Concurrent σ
  | .step x =>
    if w.detains x then (none, w)
    else
      let (a, st) := w.station.step D.watched x
      (some a, { w with station := st })
  | .device d => (none, w.withSession { w.session with device := (d, w.session.device.2) })
  | .turnTo k =>
    (none, { w with
      station := { w.station with loop := w.parked[k]? }
      parked := w.station.loop.toList ++ w.parked.eraseIdx k })
  | .enterRecv i h =>
    if w.station.holds h then
      match w.session.startRecv with
      | (.error e, s) => (some (.refused e), w.withSession s)
      | (.ok b, s) => (w.withSession s).enter (.recv h i b)
    else (some (.skipped .noHolder), w)
  | .enterSend i h =>
    match w.station.slot? i with
    | none => (some (.skipped .emptySlot), w)
    | some p =>
      if w.station.holds h then
        if w.session.isOpen then w.enter (.send h p) else (some (.refused .sessionClosed), w)
      else (some (.skipped .noHolder), w)
  | .enterClose h =>
    if w.station.holds h then
      match w.session.startClose with
      | (true, s) => (w.withSession s).enter (.close h)
      | (false, s) => (some .done, w.withSession s)
    else (some (.skipped .noHolder), w)
  | .answer k =>
    match w.underway[k]?.bind (·.finish? D.watched w.station) with
    | none => (none, w)
    | some (a, st) => (some a, { w with station := st, underway := w.underway.eraseIdx k })

/-- Take turns one after the other. -/
def play (D : Driver σ) : List (Turn σ) → Concurrent σ → Concurrent σ
  | [], w => w
  | t :: ts, w => play D ts (w.turn D t).2

theorem play_append (D : Driver σ) (ts us : List (Turn σ)) (w : Concurrent σ) :
    play D (ts ++ us) w = play D us (play D ts w) := by
  induction ts generalizing w with
  | nil => rfl
  | cons t ts ih => exact ih _

/-! ## What a turn does -/

variable {D : Driver σ} {w : Concurrent σ}

/-- All that a turn can do. -/
inductive Goes (D : Driver σ) (w : Concurrent σ) : Concurrent σ → Prop where
  | stays {st : Station (σ × List Called)} (h : Station.Stays D.watched w.station st) :
      Goes D w { w with station := st }
  | steps {x : Station.Step} {st : Station (σ × List Called)} (hx : w.detains x = false)
      (h : Station.Goes D.watched w.station x st) : Goes D w { w with station := st }
  | device (d : σ) :
      Goes D w (w.withSession { w.session with device := (d, w.session.device.2) })
  | turnsTo (k : Nat) :
      Goes D w { w with
        station := { w.station with loop := w.parked[k]? }
        parked := w.station.loop.toList ++ w.parked.eraseIdx k }
  | enters {u : Underway} {s : Session (σ × List Called)} (hu : w.station.holds u.holder = true)
      (hclose : u.isClose = false) (hs : Session.Uses D.watched w.session s) :
      Goes D w ((w.withSession s).enter u).2
  | entersClose {u : Underway} (hu : w.station.holds u.holder = true) (hclose : u.isClose = true)
      (hopen : w.session.isOpen = true) :
      Goes D w ((w.withSession w.session.startClose.2).enter u).2
  | ends {k : Nat} {u : Underway} {st : Station (σ × List Called)} (hk : w.underway[k]? = some u)
      (hclose : u.isClose = false) (h : Station.Stays D.watched w.station st) :
      Goes D w { w with station := st, underway := w.underway.eraseIdx k }
  | endsClose {k : Nat} {u : Underway} (hk : w.underway[k]? = some u) (hclose : u.isClose = true) :
      Goes D w { w.withSession (w.session.finishClose D.watched).2 with
        underway := w.underway.eraseIdx k }

theorem Goes.same (D : Driver σ) (w : Concurrent σ) : Goes D w w :=
  .stays (.refl D.watched w.station)

/-- **Whatever a turn does**, it does one of these things. -/
theorem goes_turn (t : Turn σ) (w : Concurrent σ) : Goes D w (w.turn D t).2 := by
  cases t with
  | step x =>
      simp only [turn]
      split
      · exact .same D w
      · next hx => exact .steps (Bool.eq_false_iff.2 hx) (Station.goes_step x _)
  | device d => exact .device d
  | turnTo k => exact .turnsTo k
  | enterRecv i m =>
      have hstart := Session.uses_startRecv (D := D.watched) w.session
      simp only [turn]
      split
      · next hm =>
          split
          · next e s he =>
              rw [he] at hstart
              exact .stays (.withSession hstart)
          · next b s he =>
              rw [he] at hstart
              exact .enters hm rfl hstart
      · exact .same D w
  | enterSend i m =>
      simp only [turn]
      split
      · exact .same D w
      · split
        · next hm =>
            split
            · exact .enters hm rfl .refl
            · exact .same D w
        · exact .same D w
  | enterClose m =>
      simp only [turn]
      split
      · next hm =>
          split
          · next s he =>
              have hs : w.session.startClose.2 = s := congrArg Prod.snd he
              rw [← hs]
              exact .entersClose hm rfl (congrArg Prod.fst he)
          · next s he =>
              rw [Session.startClose_of_closed (congrArg Prod.fst he)] at he
              cases he
              exact .same D w
      · exact .same D w
  | answer k =>
      simp only [turn]
      split
      · exact .same D w
      · next a st he =>
          obtain ⟨u, hk, hr⟩ := Option.bind_eq_some_iff.1 he
          cases hclose : u.isClose with
          | false => exact .ends hk hclose (u.stays_finish? hclose hr)
          | true =>
              have hst : st = _ := u.finish?_close hclose hr
              rw [hst]
              exact .endsClose hk hclose

end Concurrent

end Intercept
