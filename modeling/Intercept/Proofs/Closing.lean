import Intercept.Proofs.Concurrent
import Intercept.Proofs.Injection
import Mathlib.Data.List.Perm.Basic

set_option autoImplicit false

/-! # A session is closed once and for all

The driver is closed in two halves, by whoever finds the session open, or by the last one who
leaves. So count the closes it has answered, the one it is still to be asked for while the session
is open, and those under way: there is one in all. This is `Session.Due`, which every use keeps, and
every holder that comes or goes. A session that nobody holds is closed, nobody who has a call under
way can leave, and so at the end the one close was made (`Concurrent.Sound`).

A session is closed before its driver is, and nothing opens it again, so it makes no difference
whether the driver fails. What everybody finds from then on is `Concurrent.Shut`, and what becomes
of calls that were under way is `Concurrent.ReportsClosed`. The main theorem
`Concurrent.closed_once` has all of it, for any driver and any turns. -/

namespace Intercept

/-! ## Closes that were made and that are still to come -/

namespace Session

variable {σ α : Type} {D : Driver σ}

theorem send_of_closed {s : Session σ} (p : Packet) (h : s.isOpen = false) :
    s.send D p = (.error .sessionClosed, s) := by
  rw [send_eq, h]
  rfl

theorem startRecv_of_closed {s : Session σ} (h : s.isOpen = false) :
    s.startRecv = (.error .sessionClosed, s) := by
  unfold startRecv
  rw [h]
  rfl

theorem close_of_closed {s : Session σ} (h : s.isOpen = false) : s.close D = (.ok (), s) := by
  rw [close_eq]
  simp only [startClose, h, Bool.false_eq_true, if_false]

theorem device_afterCall {s : Session σ} (c : Call σ α) (h : s.isOpen = false) :
    (s.afterCall D c).device = c.state := by
  unfold afterCall
  simp only
  split
  · rw [close_of_closed (s := { s with device := c.state }) h]
  · rfl

theorem device_injectAsIs {s : Session σ} (p : Packet) (h : s.isOpen = false) :
    (s.injectAsIs D p).2.device = s.device := by
  unfold injectAsIs
  rw [send_of_closed p h]
  exact device_giveUp ..

/-! ### Calls that fail because the session is closed -/

theorem refusal_of_closed {s : Session σ} (h : s.isOpen = false) (other : DeviceError → Error)
    (e : DeviceError) : s.refusal other e = .sessionClosed := by
  unfold refusal
  rw [if_pos (Or.inr (Bool.not_eq_true _ ▸ h))]

theorem afterCall_closed {s : Session σ} {c : Call σ α} (h : s.isOpen = false ∨ c.closes = true) :
    (s.afterCall D c).isOpen = false := by
  rw [isOpen_afterCall]
  rcases h with h | h
  · rw [h, Bool.false_and]
  · rw [h, Bool.not_true, Bool.and_false]

theorem finishRecv_of_closed {s : Session σ} {b : Buffer} {c : Call σ Reception} {e : DeviceError}
    (hc : D.recv b.storage.bytes s.device = some c) (he : c.answer.result = .error e)
    (h : s.isOpen = false ∨ c.closes = true) :
    ∃ s', s.finishRecv D b = some (.error (.refused .sessionClosed), s') := by
  unfold finishRecv received
  simp only [hc, Option.map_some, he, refusal_of_closed (afterCall_closed h)]
  exact ⟨_, rfl⟩

theorem finishSend_of_closed {s : Session σ} {p : Packet} {e : DeviceError}
    (h : s.isOpen = false ∨ (D.send p.contents p.address s.device).closes = true)
    (he : (D.send p.contents p.address s.device).answer = .error e) :
    (s.finishSend D p).1 = .error .sessionClosed := by
  unfold finishSend
  simp only [he, Except.mapError, refusal_of_closed (afterCall_closed h)]

/-! ### Counting closes -/

variable {s s' : Session (σ × List Called)}

/-- How many calls of a kind the driver has answered. -/
def calls (k : Called) (s : Session (σ × List Called)) : Nat := s.device.2.count k

/-- In a closed session no packet is injected, though its checksums may be recomputed. -/
theorem calls_inject (p : Packet) (h : s.isOpen = false) :
    (s.inject D.watched p).2.calls .send = s.calls .send := by
  have hcalls : (s.checksums D.watched p).2.2.calls .send = s.calls .send := by
    simp only [calls, checksums, device_afterCall _ h, Driver.recording, Driver.Request.called,
      Call.lift, List.count_append, List.count_singleton, beq_iff_eq, reduceCtorEq, if_false,
      Nat.add_zero]
  have hclosed : (s.checksums D.watched p).2.2.isOpen = false := (uses_checksums p s).closed h
  unfold inject
  split
  · split
    · next e q s' he =>
        rw [he] at hcalls
        rw [← hcalls]
        exact congrArg (·.2.count .send) (device_giveUp _ q (s'.report _))
    · next q s' he =>
        rw [he] at hcalls hclosed
        rw [← hcalls]
        exact congrArg (·.2.count .send) (device_injectAsIs q hclosed)
  · exact congrArg (·.2.count .send) (device_injectAsIs p h)

/-- The closes that the driver has answered, and the one it is to be asked for while the session is
open. -/
def closes (s : Session (σ × List Called)) : Nat := s.calls .close + s.isOpen.toNat

theorem closes_finishClose (s : Session (σ × List Called)) :
    (s.finishClose D.watched).2.closes = s.closes + 1 := by
  simp only [closes, calls, finishClose, Driver.recording, Driver.Request.called,
    Call.lift, List.count_append, List.count_singleton_self]
  omega

theorem closes_startClose (s : Session (σ × List Called)) :
    s.startClose.2.closes + s.startClose.1.toNat = s.closes := rfl

theorem closes_close (s : Session (σ × List Called)) : (s.close D.watched).2.closes = s.closes := by
  have hstart := s.closes_startClose
  rw [close_eq]
  split
  · next h =>
      rw [h] at hstart
      exact (closes_finishClose _).trans hstart
  · rfl

theorem closes_afterCall {c : Call (σ × List Called) α} {k : Called} (hk : k ≠ .close)
    (hc : c.state.2 = s.device.2 ++ [k]) : (s.afterCall D.watched c).closes = s.closes := by
  have hsame : closes { s with device := c.state } = s.closes := by
    simp only [closes, calls, hc, List.count_append, List.count_singleton, beq_iff_eq, hk,
      if_false, Nat.add_zero]
  unfold afterCall
  split
  · exact (closes_close _).trans hsame
  · exact hsame

theorem Use.closes (h : Use D.watched s s') : s'.closes = s.closes := by
  cases h with
  | aside => rfl
  | recv h =>
      obtain ⟨c, -, rfl⟩ := Option.map_eq_some_iff.1 h
      exact closes_afterCall (k := .recv) (by decide) rfl
  | send => exact closes_afterCall (k := .send) (by decide) rfl
  | checksums => exact closes_afterCall (k := .checksums) (by decide) rfl
  | evalFilter => exact closes_afterCall (k := .evalFilter) (by decide) rfl
  | close => exact closes_close s

theorem Uses.closes (h : Uses D.watched s s') : s'.closes = s.closes := by
  induction h with
  | refl => rfl
  | tail _ hu ih => exact hu.closes.trans ih

/-- While `n` closes are under way, there is one close in all, and a session that nobody holds is
closed. -/
structure Due (n : Nat) (s : Session (σ × List Called)) : Prop where
  once : s.closes + n = 1
  last : s.holders = 0 → s.isOpen = false

namespace Due

variable {n : Nat}

theorem uses (h : s.Due n) (hu : Uses D.watched s s') : s'.Due n :=
  ⟨by rw [hu.closes, h.once], fun hlast => hu.closed (h.last (hu.holders ▸ hlast))⟩

theorem share (h : s.Due n) (why : Record) : (s.share.report why).Due n :=
  ⟨h.once, fun hlast => absurd hlast (Nat.succ_ne_zero _)⟩

theorem leave (h : s.Due n) : (s.leave D.watched).Due n :=
  ⟨by rw [Uses.closes (uses_leave s)]; exact h.once, isOpen_leave⟩

theorem startClose (h : s.Due n) (ho : s.startClose.1 = true) : s.startClose.2.Due (n + 1) := by
  have hstart := s.closes_startClose
  have honce := h.once
  rw [ho, Bool.toNat_true] at hstart
  exact ⟨by omega, fun _ => rfl⟩

theorem finishClose (h : s.Due (n + 1)) : (s.finishClose D.watched).2.Due n := by
  have hfinish := closes_finishClose (D := D) s
  have honce := h.once
  exact ⟨by omega, h.last⟩

end Due

end Session

namespace Loop

variable {σ : Type} {s : Session σ}

theorem start_of_closed (host : Host) (h : s.isOpen = false) :
    start host s = (.error (.refused .sessionClosed), s) := by
  unfold start
  rw [if_pos (Bool.eq_false_iff.1 h)]

theorem startOnRuntime_of_closed (runtime : Option Queues) (h : s.isOpen = false) :
    startOnRuntime runtime s = (.error (.refused .sessionClosed), s) := by
  cases runtime with
  | none => simp only [startOnRuntime, h, Bool.false_eq_true, if_false]
  | some queues => exact start_of_closed _ h

end Loop

/-! ## What every turn keeps -/

namespace Station

variable {σ : Type} {st : Station σ} {m n : Nat}

/-- No step opens a session again. -/
theorem Goes.closed {D : Driver σ} {x : Step} {st' : Station σ} (h : Goes D st x st')
    (hst : st.session.isOpen = false) : st'.session.isOpen = false := by
  cases h with
  | stays h => exact h.session.closed hst
  | shares => exact hst
  | leaves _ _ => exact Session.Uses.closed (Session.uses_leave _) hst
  | loopStarts _ _ _ => exact hst
  | loopEnds hs _ _ => exact Session.Uses.closed (Session.uses_leave _) (hs.closed hst)

theorem holds_iff : st.holds n = true ↔ st.holders[n]? = some true := by
  unfold holds
  cases st.holders[n]? <;> simp

theorem setSlot_same {i : Slot} {p : Packet} (h : st.slot? i = some p) :
    st.setSlot i (some p) = st := by
  unfold setSlot
  rw [List.fill_of_join_getElem? h]

theorem startWith_of_refused {start : Session σ → Except Fault Loop × Session σ} {e : Error}
    (hl : st.loop = none) (hs : start st.session = (.error (.refused e), st.session)) :
    st.startWith start = (.refused e, st) := by
  obtain ⟨_, _, _, _⟩ := st
  cases hl
  simp only [startWith, hs]
  rfl

theorem holds_share {s : Session σ} (h : st.holds n = true) :
    holds { st with session := s, holders := st.holders ++ [true] } n = true := by
  rw [holds_iff] at h ⊢
  rw [List.getElem?_append_left (List.getElem?_eq_some_iff.1 h).1, h]

theorem holds_leave {s : Session σ} (hne : n ≠ m) (h : st.holds n = true) :
    holds { st with session := s, holders := st.holders.set m false } n = true := by
  rw [holds_iff] at h ⊢
  rw [List.getElem?_set_ne hne.symm, h]

theorem count_leave (h : st.holds n = true) :
    (st.holders.set n false).count true + 1 = st.holders.count true := by
  obtain ⟨hn, htrue⟩ := List.getElem?_eq_some_iff.1 (holds_iff.1 h)
  have hpos : 0 < st.holders.count true := List.count_pos_iff.2 (htrue ▸ List.getElem_mem hn)
  rw [List.count_set hn, htrue]
  simp only [beq_self_eq_true, if_true, Bool.false_eq_true, beq_iff_eq, if_false]
  omega

end Station

namespace Concurrent

variable {σ : Type} {D : Driver σ} {w : Concurrent σ}

/-- There is one close in all. The session has as many holders as there are holders and loops that
hold it, and whoever has a call under way holds it. -/
structure Sound (w : Concurrent σ) : Prop where
  due : w.session.Due (w.underway.countP Underway.isClose)
  holders : w.session.holders =
    w.station.holders.count true + (w.station.loopHolds + w.parked.countP Loop.holds)
  held : ∀ u ∈ w.underway, w.station.holds u.holder = true

theorem sound_ofDevice (device : σ) (config : Config) (pool : Pool) :
    (ofDevice device config pool).Sound :=
  ⟨⟨rfl, fun h => nomatch h⟩, rfl, fun _ hu => nomatch hu⟩

/-- A list without one of its members has as many others. -/
theorem countP_eraseIdx {α : Type} {xs : List α} {k : Nat} {x : α} (p : α → Bool)
    (hk : xs[k]? = some x) : (xs.eraseIdx k).countP p + (p x).toNat = xs.countP p := by
  obtain ⟨hlt, rfl⟩ := List.getElem?_eq_some_iff.1 hk
  rw [← (List.getElem_cons_eraseIdx_perm hlt).countP_eq p, List.countP_cons]
  cases p xs[k] <;> rfl

namespace Sound

open Station (Answer)

variable {st : Station (σ × List Called)}

theorem stays (h : w.Sound) (hst : Station.Stays D.watched w.station st) :
    Sound { w with station := st } := by
  refine ⟨h.due.uses hst.session, ?_, fun u hu => ?_⟩
  · calc st.session.holders
        = w.station.session.holders := hst.session.holders
      _ = w.station.holders.count true + (w.station.loopHolds + w.parked.countP Loop.holds) :=
        h.holders
      _ = st.holders.count true + (st.loopHolds + w.parked.countP Loop.holds) := by
        rw [hst.holders, hst.loop]
  · have hheld := h.held u hu
    unfold Station.holds at hheld ⊢
    rwa [hst.holders]

/-- What can be done by a step keeps the count, and only who leaves is no holder any more. -/
theorem steps {x : Station.Step} (h : w.Sound) (hx : w.detains x = false)
    (hst : Station.Goes D.watched w.station x st) : Sound { w with station := st } := by
  have hholders := h.holders
  cases hst with
  | stays hst => exact h.stays hst
  | shares =>
      refine ⟨⟨h.due.once, fun hlast => absurd hlast (Nat.succ_ne_zero _)⟩, ?_, fun u hu => ?_⟩
      · change w.session.holders + 1 = (w.station.holders ++ [true]).count true +
          (w.station.loopHolds + w.parked.countP Loop.holds)
        rw [List.count_append, List.count_singleton_self]
        omega
      · exact Station.holds_share (h.held u hu)
  | @leaves m hx' hm =>
      subst hx'
      refine ⟨h.due.leave, ?_, fun u hu => ?_⟩
      · have hcount := Station.count_leave hm
        change (w.session.leave D.watched).holders = (w.station.holders.set m false).count true +
          (w.station.loopHolds + w.parked.countP Loop.holds)
        rw [Session.holders_leave]
        omega
      · have hne : u.holder ≠ m := fun he => by
          simp only [detains, List.any_eq_false, beq_iff_eq] at hx
          exact hx u hu he
        exact Station.holds_leave hne (h.held u hu)
  | @loopStarts l why hnone hl =>
      refine ⟨h.due.share why, ?_, h.held⟩
      have hzero : w.station.loopHolds = 0 := by rw [Station.loopHolds, hnone]; rfl
      have hone : [l].countP Loop.holds = 1 := List.countP_singleton.trans (if_pos hl)
      change w.session.holders + 1 = w.station.holders.count true +
        ([l].countP Loop.holds + w.parked.countP Loop.holds)
      omega
  | @loopEnds s loop hs hone hnone =>
      refine ⟨(h.due.uses hs).leave, ?_, h.held⟩
      have hsame : s.holders = w.session.holders := hs.holders
      change (s.leave D.watched).holders = w.station.holders.count true +
        (loop.toList.countP Loop.holds + w.parked.countP Loop.holds)
      rw [Session.holders_leave]
      omega

/-- A call that gets under way is that of a holder. -/
theorem enter {u : Underway} {s : Session (σ × List Called)} (h : w.Sound)
    (hu : w.station.holds u.holder = true) (hs : s.holders = w.session.holders)
    (hdue : s.Due (w.underway.countP Underway.isClose + u.isClose.toNat)) :
    ((w.withSession s).enter u).2.Sound := by
  refine ⟨?_, hs.trans h.holders, fun v hv => ?_⟩
  · have hcount : (w.underway ++ [u]).countP Underway.isClose =
        w.underway.countP Underway.isClose + u.isClose.toNat := by
      rw [List.countP_append, List.countP_singleton]
      cases u.isClose <;> rfl
    change s.Due ((w.underway ++ [u]).countP Underway.isClose)
    rwa [hcount]
  · rcases List.mem_append.1 hv with hv | hv
    · exact h.held v hv
    · rwa [List.mem_singleton.1 hv]

/-- A call is over. -/
theorem leaves {k : Nat} {u : Underway} {s : Session (σ × List Called)} (h : w.Sound)
    (hk : w.underway[k]? = some u) (hs : s.holders = w.session.holders)
    (hdue : ∀ n, w.session.Due (n + u.isClose.toNat) → s.Due n) :
    Sound { w.withSession s with underway := w.underway.eraseIdx k } := by
  refine ⟨hdue _ ?_, hs.trans h.holders, fun v hv => h.held v (List.mem_of_mem_eraseIdx hv)⟩
  have hdue := h.due
  rwa [← countP_eraseIdx Underway.isClose hk] at hdue

/-- Turning to another loop, the loops are the same. -/
theorem turnsTo (k : Nat) (h : w.Sound) :
    Sound { w with
      station := { w.station with loop := w.parked[k]? }
      parked := w.station.loop.toList ++ w.parked.eraseIdx k } := by
  refine ⟨h.due, ?_, h.held⟩
  have hholders := h.holders
  have hsame : (w.parked[k]?.toList ++ w.parked.eraseIdx k).countP Loop.holds =
      w.parked.countP Loop.holds := by
    rw [List.countP_append]
    cases hk : w.parked[k]? with
    | none => rw [List.eraseIdx_of_length_le (List.getElem?_eq_none_iff.1 hk)]; exact Nat.zero_add _
    | some l =>
        have hcount := countP_eraseIdx Loop.holds hk
        rw [Option.toList_some, List.countP_singleton, ← hcount]
        cases l.holds <;> simp [Nat.add_comm]
  change w.session.holders = w.station.holders.count true + (w.parked[k]?.toList.countP Loop.holds +
    (w.station.loop.toList ++ w.parked.eraseIdx k).countP Loop.holds)
  rw [List.countP_append] at hsame ⊢
  unfold Station.loopHolds at hholders
  omega

/-- What a turn can do keeps the count. -/
theorem goes {w' : Concurrent σ} (h : w.Sound) (hw : Goes D w w') : w'.Sound := by
  cases hw with
  | stays hst => exact h.stays hst
  | steps hx hst => exact h.steps hx hst
  | device d => exact ⟨⟨h.due.once, h.due.last⟩, h.holders, h.held⟩
  | turnsTo k => exact h.turnsTo k
  | enters hu hclose hs =>
      refine h.enter hu hs.holders ?_
      rw [hclose]
      exact h.due.uses hs
  | entersClose hu hclose hopen =>
      refine h.enter hu rfl ?_
      rw [hclose]
      exact h.due.startClose hopen
  | ends hk hclose hst =>
      refine (h.stays hst).leaves hk rfl fun n hn => ?_
      rwa [hclose] at hn
  | endsClose hk hclose =>
      refine h.leaves hk rfl fun n hn => ?_
      rw [hclose] at hn
      exact hn.finishClose

theorem play (ts : List (Turn σ)) (h : w.Sound) : (Concurrent.play D ts w).Sound := by
  induction ts generalizing w with
  | nil => exact h
  | cons t ts ih => exact ih (h.goes (goes_turn t w))

end Sound

/-! ## Closed for good -/

/-- No turn opens a session again. -/
theorem Goes.closed {w' : Concurrent σ} (hw : Goes D w w') (h : w.session.isOpen = false) :
    w'.session.isOpen = false := by
  cases hw with
  | stays hst => exact hst.session.closed h
  | steps _ hst => exact hst.closed h
  | device d => exact h
  | turnsTo k => exact h
  | enters _ _ hs => exact hs.closed h
  | entersClose _ _ _ => rfl
  | ends _ _ hst => exact hst.session.closed h
  | endsClose _ _ => exact h

theorem play_closed (ts : List (Turn σ)) (h : w.session.isOpen = false) :
    (play D ts w).session.isOpen = false := by
  induction ts generalizing w with
  | nil => exact h
  | cons t ts ih => exact ih ((goes_turn t w).closed h)

/-- For everybody who holds it the session is closed. To close it again is to do nothing, and
nothing can be received, sent or started: the driver is not asked and all stays as it is. A loop
that is about to receive stops, and the driver injects no packet. -/
structure Shut (D : Driver σ) (w : Concurrent σ) : Prop where
  closed : w.session.isOpen = false
  close : ∀ h, w.station.holds h = true → w.turn D (.step (.close h)) = (some .done, w)
  enterClose : ∀ h, w.station.holds h = true → w.turn D (.enterClose h) = (some .done, w)
  recv : ∀ i h, w.station.holds h = true →
    w.turn D (.step (.recv i h)) = (some (.refused .sessionClosed), w)
  enterRecv : ∀ i h, w.station.holds h = true →
    w.turn D (.enterRecv i h) = (some (.refused .sessionClosed), w)
  send : ∀ i h, (w.station.slot? i).isSome = true → w.station.holds h = true →
    w.turn D (.step (.sendKept i h)) = (some (.refused .sessionClosed), w)
  enterSend : ∀ i h, (w.station.slot? i).isSome = true → w.station.holds h = true →
    w.turn D (.enterSend i h) = (some (.refused .sessionClosed), w)
  startLoop : ∀ h host, w.station.loop = none → w.station.holds h = true →
    w.turn D (.step (.startLoop h host)) = (some (.refused .sessionClosed), w)
  startLoopOnRuntime : ∀ h runtime, w.station.loop = none → w.station.holds h = true →
    w.turn D (.step (.startLoopOnRuntime h runtime)) = (some (.refused .sessionClosed), w)
  loop : ∀ l ∈ w.loops, l.phase = .ready →
    l.move D.watched w.session = some (l.stop D.watched .sessionClosed w.session)
  inject : ∀ i h,
    (w.turn D (.step (.inject i h))).2.session.calls .send = w.session.calls .send

theorem turn_step_of_same {x : Station.Step} {a : Station.Answer} (hx : w.detains x = false)
    (h : w.station.step D.watched x = (a, w.station)) : w.turn D (.step x) = (some a, w) := by
  simp only [turn, hx, Bool.false_eq_true, if_false, h]

/-- **A closed session is closed to everybody.** -/
theorem shut_of_closed (h : w.session.isOpen = false) : Shut D w where
  closed := h
  close m hm := by
    refine turn_step_of_same rfl ?_
    simp only [Station.step, Station.onHolder, hm, if_true]
    rw [Session.close_of_closed h]
    rfl
  enterClose m hm := by
    simp only [turn, hm, if_true]
    rw [Session.startClose_of_closed h]
    rfl
  recv i m hm := by
    refine turn_step_of_same rfl ?_
    simp only [Station.step, Station.onHolder, hm, if_true]
    rw [Session.recv_of_closed h]
    rfl
  enterRecv i m hm := by
    simp only [turn, hm, if_true]
    rw [Session.startRecv_of_closed h]
    rfl
  send i m hi hm := by
    refine turn_step_of_same rfl ?_
    obtain ⟨p, hp⟩ := Option.isSome_iff_exists.1 hi
    simp only [Station.step, Station.onPacketWith, Station.onHolder, Station.onPacket, hp, hm,
      Option.isSome_some, if_true]
    rw [Session.send_of_closed p h]
    exact congrArg _ (Station.setSlot_same hp)
  enterSend i m hi hm := by
    obtain ⟨p, hp⟩ := Option.isSome_iff_exists.1 hi
    simp only [turn, hp, hm, h, if_true, Bool.false_eq_true, if_false]
  startLoop m host hl hm := by
    refine turn_step_of_same rfl ?_
    simp only [Station.step, Station.onHolder, hm, if_true]
    exact Station.startWith_of_refused hl (Loop.start_of_closed host h)
  startLoopOnRuntime m runtime hl hm := by
    refine turn_step_of_same rfl ?_
    simp only [Station.step, Station.onHolder, hm, if_true]
    exact Station.startWith_of_refused hl (Loop.startOnRuntime_of_closed runtime h)
  loop l _ hp := by
    unfold Loop.move
    rw [hp]
    simp only [Session.startRecv_of_closed h]
    rfl
  inject i m := by
    simp only [turn, detains, Bool.false_eq_true, if_false, Station.step]
    refine Station.kept_onHolder (P := fun st => st.session.calls .send = w.session.calls .send)
      rfl ?_
    split
    · rfl
    · exact Session.calls_inject _ h

/-- A call that fails in the driver reports that the session is closed, whatever the driver's error,
if the session is closed by then or becomes so during the call. -/
structure ReportsClosed (D : Driver σ) (w : Concurrent σ) : Prop where
  recv : ∀ k h i b c e, w.underway[k]? = some (.recv h i b) →
    D.watched.recv b.storage.bytes w.session.device = some c → c.answer.result = .error e →
    w.session.isOpen = false ∨ c.closes = true →
    (w.turn D (.answer k)).1 = some (.refused .sessionClosed)
  send : ∀ k h p c e, w.underway[k]? = some (.send h p) →
    D.watched.send p.contents p.address w.session.device = c → c.answer = .error e →
    w.session.isOpen = false ∨ c.closes = true →
    (w.turn D (.answer k)).1 = some (.refused .sessionClosed)
  stepRecv : ∀ i h b s c e, w.station.holds h = true → w.session.startRecv = (.ok b, s) →
    D.watched.recv b.storage.bytes s.device = some c → c.answer.result = .error e →
    c.closes = true → (w.turn D (.step (.recv i h))).1 = some (.refused .sessionClosed)
  stepSend : ∀ i h p c e, w.station.holds h = true → w.station.slot? i = some p →
    D.watched.send p.contents p.address w.session.device = c → c.answer = .error e →
    c.closes = true → (w.turn D (.step (.sendKept i h))).1 = some (.refused .sessionClosed)
  loop : ∀ l ∈ w.loops, ∀ b c e, l.phase = .waiting b →
    D.watched.recv b.storage.bytes w.session.device = some c → c.answer.result = .error e →
    w.session.isOpen = false ∨ c.closes = true →
    ∃ s, l.move D.watched w.session = some (l.stop D.watched .sessionClosed s)

theorem reportsClosed (D : Driver σ) (w : Concurrent σ) : ReportsClosed D w where
  recv k m i b c e hk hc he hclosed := by
    obtain ⟨s, hs⟩ := Session.finishRecv_of_closed hc he hclosed
    simp only [turn, hk, Option.bind_some, Underway.finish?, hs, Option.map_some]
    rfl
  send k m p c e hk hc he hclosed := by
    subst hc
    have hrefused := Session.finishSend_of_closed (D := D.watched) hclosed he
    simp only [turn, hk, Option.bind_some, Underway.finish?, hrefused]
    rfl
  stepRecv i m b s c e hm hstart hc he hclosed := by
    obtain ⟨s', hs⟩ := Session.finishRecv_of_closed hc he (Or.inr hclosed)
    have hrecv : w.session.recv D.watched = some (.error (.refused .sessionClosed), s') := by
      unfold Session.recv
      rw [hstart]
      exact hs
    simp only [turn, detains, Bool.false_eq_true, if_false, Station.step, Station.onHolder, hm,
      if_true, hrecv]
    rfl
  stepSend i m p c e hm hp hc he hclosed := by
    subst hc
    have hsend : (w.session.send D.watched p).1 = .error .sessionClosed := by
      rw [Session.send_eq]
      split
      · exact Session.finishSend_of_closed (Or.inr hclosed) he
      · rfl
    simp only [turn, detains, Bool.false_eq_true, if_false, Station.step, Station.onPacketWith,
      Station.onHolder, Station.onPacket, hp, Option.isSome_some, hm, if_true, hsend]
    rfl
  loop l _ b c e hp hc he hclosed := by
    obtain ⟨s, hs⟩ := Session.finishRecv_of_closed hc he hclosed
    refine ⟨s, ?_⟩
    unfold Loop.move
    rw [hp]
    simp only [hs, Option.map_some]
    rfl

/-! ## Once and for all -/

/-- Nobody holds the session any more: no holder does, and every loop has ended. -/
def Abandoned (w : Concurrent σ) : Prop :=
  (∀ h, w.station.holds h = false) ∧ ∀ l ∈ w.loops, l.hasEnded = true

namespace Sound

theorem calls_le (h : w.Sound) :
    w.session.calls .close + w.underway.countP Underway.isClose ≤ 1 := by
  have honce := h.due.once
  unfold Session.closes at honce
  omega

theorem holders_of_abandoned (h : w.Sound) (hw : w.Abandoned) : w.session.holders = 0 := by
  have hcount : w.station.holders.count true = 0 := by
    refine List.count_eq_zero.2 fun hmem => ?_
    obtain ⟨m, hm⟩ := List.mem_iff_getElem?.1 hmem
    have hnot := hw.1 m
    rw [Station.holds_iff.2 hm] at hnot
    cases hnot
  have hloops : w.loops.countP Loop.holds = 0 := by
    refine List.countP_eq_zero.2 fun l hl => ?_
    rw [Loop.holds, hw.2 l hl]
    decide
  have hsplit : w.loops.countP Loop.holds =
      w.station.loopHolds + w.parked.countP Loop.holds := List.countP_append
  rw [h.holders, hcount, ← hsplit, hloops]

/-- Whoever has a call under way holds the session, so when nobody does the one close was made. -/
theorem calls_of_abandoned (h : w.Sound) (hw : w.Abandoned) : w.session.calls .close = 1 := by
  have honce := h.due.once
  have hclosed := h.due.last (h.holders_of_abandoned hw)
  have hnone : w.underway = [] := by
    refine List.eq_nil_iff_forall_not_mem.2 fun u hu => ?_
    have hheld := h.held u hu
    rw [hw.1] at hheld
    cases hheld
  rw [hnone] at honce
  rw [Session.closes, hclosed] at honce
  exact honce

end Sound

/-- After a close has begun, the session is closed. -/
theorem closed_of_close {h : Nat} (hh : w.station.holds h = true) {t : Turn σ}
    (ht : t ∈ [Turn.step (.close h), Turn.enterClose h]) :
    (w.turn D t).2.session.isOpen = false := by
  rcases List.mem_pair.1 ht with rfl | rfl
  · simp only [turn, detains, Bool.false_eq_true, if_false, Station.step, Station.onHolder, hh,
      if_true]
    exact Session.isOpen_close _
  · simp only [turn, hh, if_true]
    split
    · next s he => exact congrArg (·.2.isOpen) he.symm
    · next s he => exact congrArg (·.2.isOpen) he.symm

/-- **A session is closed once and for all.** However those who share it, its loops and its driver
take turns, the driver is asked to close at most once, and exactly once by the time that nobody
holds the session any more. A session that is closed, be it that the driver failed to close, stays
so for everybody, and calls that were under way report it if they fail. -/
theorem closed_once (D : Driver σ) (device : σ) (config : Config) (pool : Pool)
    (ts : List (Turn σ)) :
    let w := play D ts (ofDevice device config pool)
    w.session.calls .close + w.underway.countP Underway.isClose ≤ 1 ∧
      (w.Abandoned → w.session.calls .close = 1) ∧
      (w.session.isOpen = false → ∀ us, Shut D (play D us w)) ∧
      (∀ h, w.station.holds h = true → ∀ t ∈ [Turn.step (.close h), Turn.enterClose h],
        ∀ us, Shut D (play D us (w.turn D t).2)) ∧
      ReportsClosed D w := by
  intro w
  have hsound : w.Sound := (sound_ofDevice device config pool).play ts
  exact ⟨hsound.calls_le, hsound.calls_of_abandoned,
    fun hclosed us => shut_of_closed (play_closed us hclosed),
    fun h hh t ht us => shut_of_closed (play_closed us (closed_of_close hh ht)),
    reportsClosed D w⟩

/-! ### A driver that refuses everything -/

/-- The error of a driver that refuses to be closed. -/
def denied : DeviceError := ⟨.permissionDenied, none⟩

/-- A driver that fails in every call. -/
def refusing : Driver Unit where
  recv b _ := some (.plain ⟨b, .error denied⟩ ())
  send _ _ _ := .plain (.error denied) ()
  checksums b a _ := .plain ⟨b, a, .error denied⟩ ()
  evalFilter _ _ _ _ := .plain (.error denied) ()
  close _ := .plain (.error denied) ()
  filterMistake? _ _ := none
  size_recv _ _ _ h := by
    cases h
    rfl
  size_checksums _ _ _ := rfl

/-- Two hold a session, and one of them receives. -/
def sharing : List (Turn Unit) := [.step (.share 0), .enterRecv 0 1]

/-- The other one closes it, and then both leave. -/
def parting : List (Turn Unit) := [.answer 0, .step (.leave 1), .step (.leave 0)]

/-- The driver fails to close. Still the session is closed, as the call that was under way reports,
and when both have left, that one close is all. -/
theorem closed_once_refusing :
    let begun := play refusing sharing (ofDevice () .standard (.empty none))
    let closed := play refusing [.step (.close 0)] begun
    let left := play refusing parting closed
    (begun.station.holds 0 = true ∧ Shut refusing closed) ∧
      (closed.session.isOpen = false ∧
        (closed.turn refusing (.answer 0)).1 = some (.refused .sessionClosed)) ∧
      left.Abandoned ∧ left.session.calls .close = 1 := by
  intro begun closed left
  have hheld : begun.station.holds 0 = true := rfl
  have hshut : Shut refusing closed :=
    (closed_once refusing () .standard (.empty none) sharing).2.2.2.1 0 hheld
      (.step (.close 0)) (List.mem_cons_self ..) []
  have hreports := closed_once refusing () .standard (.empty none) (sharing ++ [.step (.close 0)])
  have hcount := closed_once refusing () .standard (.empty none)
    (sharing ++ [.step (.close 0)] ++ parting)
  simp only [play_append] at hreports hcount
  have hrefused : (closed.turn refusing (.answer 0)).1 = some (.refused .sessionClosed) :=
    hreports.2.2.2.2.recv 0 1 0 _ _ denied rfl rfl rfl (Or.inl hshut.closed)
  have hholders : left.station.holders = [false, false] := rfl
  have hloops : left.loops = [] := rfl
  have hleft : left.Abandoned := by
    refine ⟨fun h => ?_, fun l hl => ?_⟩
    · rw [Station.holds, hholders]
      cases h with
      | zero => rfl
      | succ h => cases h <;> rfl
    · rw [hloops] at hl
      cases hl
  exact ⟨⟨hheld, hshut⟩, ⟨hshut.closed, hrefused⟩, hleft, hcount.2.1 hleft⟩

end Concurrent

end Intercept
