import Intercept.Proofs.Accounting
import Intercept.Proofs.Delivery
import Intercept.Proofs.Injection
import Intercept.Proofs.Packet.ReadOnly

set_option autoImplicit false

/-! # Packets that pass through untouched

A session with a memory driver is fed packets, receives them one by one, looks at them and injects
them again. `Traffic` is such a session with what was fed to it and what it has received. All steps
of a station may be done meanwhile but those of a receive loop, which would take packets for itself;
in particular packets are given up, so that buffers come back with other contents and lengths.

What was received and what the driver has yet to give that fits into a buffer is what was fed that
fits, in this order (`Traffic.Orderly`). A packet in a slot that is only looked at keeps its bytes,
its address and its mark (`Station.slot?_of_spares`), so it is injected as it was fed.
`Traffic.passes_through` says all this of every such session. -/

namespace Intercept

/-! ## What takes no packet from the driver -/

namespace Session

/-- The driver is open while the session is. -/
def Live (s : Session Memory) : Prop := s.isOpen = true → s.device.closed = false

/-- The driver has the packets it had, and if the session was live it still is. -/
structure Undrained (s s' : Session Memory) : Prop where
  pending : s'.device.pending = s.device.pending
  live : s.Live → s'.Live

namespace Undrained

variable {s s' s'' : Session Memory}

theorem of_eq (hp : s'.device.pending = s.device.pending) (hc : s'.device.closed = s.device.closed)
    (ho : s'.isOpen = s.isOpen) : s.Undrained s' :=
  ⟨hp, fun hs h => hc.trans (hs (ho.symm.trans h))⟩

theorem refl (s : Session Memory) : s.Undrained s := of_eq rfl rfl rfl

theorem trans (h : s.Undrained s') (h' : s'.Undrained s'') : s.Undrained s'' :=
  ⟨h'.pending.trans h.pending, fun hs => h'.live (h.live hs)⟩

theorem close (s : Session Memory) : s.Undrained (s.close Memory.driver).2 := by
  unfold Session.close
  split
  · exact ⟨rfl, fun _ h => nomatch h⟩
  · exact refl s

theorem leave (s : Session Memory) : s.Undrained (s.leave Memory.driver) := by
  have hfewer : s.Undrained { s with holders := s.holders - 1 } := of_eq rfl rfl rfl
  have hclose := close { s with holders := s.holders - 1 }
  simp only [Session.leave]
  split
  · split
    · next e s' he =>
        rw [he] at hclose
        exact (hfewer.trans hclose).trans (of_eq rfl rfl rfl)
    · next s' he =>
        rw [he] at hclose
        exact hfewer.trans hclose
  · exact hfewer

theorem dropPacket (p : Packet) (s : Session Memory) : s.Undrained (s.dropPacket p).2 := by
  unfold Session.dropPacket
  split <;> exact of_eq rfl rfl rfl

theorem giveUp (r : Except Error Nat) (p : Packet) (s : Session Memory) :
    s.Undrained (s.giveUp r p).2 := by
  have h := dropPacket p s
  unfold Session.giveUp
  split
  · next he => rwa [he] at h
  · next he => rwa [he] at h

theorem packetOfBytes (b : Bytes) (a : Address) (s : Session Memory) :
    s.Undrained (s.packetOfBytes b a).2 := by
  unfold Session.packetOfBytes
  simp only
  split <;> exact of_eq rfl rfl rfl

theorem packetOfStorage (offset : Nat) (b : Bytes) (len : Nat) (a : Address)
    (s : Session Memory) : s.Undrained (s.packetOfStorage offset b len a).2 := by
  unfold Session.packetOfStorage
  simp only
  split
  · exact of_eq rfl rfl rfl
  · split <;> exact of_eq rfl rfl rfl

theorem send (p : Packet) (s : Session Memory) : s.Undrained (s.send Memory.driver p).2 := by
  rcases Memory.send_cases p s with h | ⟨e, h⟩
  · rw [h]
    exact of_eq rfl rfl rfl
  · rw [h]
    exact refl s

theorem checksums (p : Packet) (s : Session Memory) :
    s.Undrained (s.checksums Memory.driver p).2.2 := by
  rw [Memory.checksums_driver]
  exact of_eq rfl rfl rfl

theorem evalFilter (f : String) (p : Packet) (s : Session Memory) :
    s.Undrained (s.evalFilter Memory.driver f p).2 := by
  simp only [Session.evalFilter, Memory.driver, Memory.evalFilter]
  split <;> exact of_eq rfl rfl rfl

theorem injectAsIs (p : Packet) (s : Session Memory) :
    s.Undrained (s.injectAsIs Memory.driver p).2 := (send p s).trans (giveUp ..)

theorem inject (p : Packet) (s : Session Memory) : s.Undrained (s.inject Memory.driver p).2 := by
  have h := checksums p s
  unfold Session.inject
  split
  · split
    · next e p' s' he =>
        rw [he] at h
        have hreport : s'.Undrained (s'.report (.packetDropped e)) := of_eq rfl rfl rfl
        exact (h.trans hreport).trans (giveUp ..)
    · next p' s' he =>
        rw [he] at h
        exact h.trans (injectAsIs ..)
  · exact injectAsIs p s

end Undrained

end Session

namespace Station

variable {st : Station Memory}

theorem undrained_clearSlot (i : Slot) (st : Station Memory) :
    st.session.Undrained (st.clearSlot i).2.session := by
  unfold clearSlot
  split
  · exact .refl _
  · exact .dropPacket ..

theorem undrained_place (i : Slot) (r : Except Fault Packet) (st : Station Memory) :
    st.session.Undrained (st.place i r).2.session := by
  unfold place
  split
  · exact .refl _
  · exact .refl _
  · exact st.undrained_clearSlot i

theorem undrained_onHolder {h : Nat} {act : Unit → Answer × Station Memory}
    (ha : st.session.Undrained (act ()).2.session) :
    st.session.Undrained (st.onHolder h act).2.session :=
  kept_onHolder (P := fun st' => st.session.Undrained st'.session) (.refl _) ha

theorem undrained_onPacket {i : Slot} {act : Packet → Answer × Packet × Session Memory}
    (ha : ∀ p, st.session.Undrained (act p).2.2) :
    st.session.Undrained (st.onPacket i act).2.session := by
  unfold onPacket
  split
  · exact .refl _
  · exact ha _

theorem undrained_onPacketWith {i : Slot} {h : Nat}
    {act : Packet → Answer × Packet × Session Memory}
    (ha : ∀ p, st.session.Undrained (act p).2.2) :
    st.session.Undrained (st.onPacketWith i h act).2.session := by
  unfold onPacketWith
  split
  · exact undrained_onHolder (undrained_onPacket ha)
  · exact .refl _

/-- The step receives a packet. -/
def Step.isRecv : Step → Bool
  | .recv _ _ => true
  | _ => false

/-- Only receiving takes packets from the driver. -/
theorem undrained_step {x : Step} (hl : x.isOfLoop = false) (hr : x.isRecv = false) :
    st.session.Undrained (st.step Memory.driver x).2.session := by
  cases x with
  | packet i op => exact undrained_onPacket fun _ => .refl _
  | checksums i h => exact undrained_onPacketWith fun p => .checksums p _
  | evalFilter i h f => exact undrained_onPacketWith fun p => .evalFilter f p _
  | sendKept i h => exact undrained_onPacketWith fun p => .send p _
  | newPacket i b a =>
      exact (Session.Undrained.packetOfBytes b a _).trans (undrained_place i _ (st.withSession _))
  | newFromStorage i offset b len a =>
      exact (Session.Undrained.packetOfStorage offset b len a _).trans
        (undrained_place i _ (st.withSession _))
  | recv _ _ => cases hr
  | dropPacket i => exact st.undrained_clearSlot i
  | inject i h =>
      refine undrained_onHolder ?_
      split
      · exact .refl _
      · exact .inject ..
  | share h => exact undrained_onHolder (.of_eq rfl rfl rfl)
  | close h => exact undrained_onHolder (.close _)
  | leave h => exact undrained_onHolder (.leave _)
  | startLoop _ _ => cases hl
  | startLoopOnRuntime _ _ => cases hl
  | moveLoop => cases hl
  | consume _ => cases hl
  | dropQueue => cases hl

end Station

/-! ## Receiving -/

/-- Of packets, those that fit into a buffer. -/
def receivable (xs : List (Bytes × Address)) : List (Bytes × Address) :=
  xs.filter fun x => x.1.size ≤ bufferSize

theorem receivable_append (xs ys : List (Bytes × Address)) :
    receivable (xs ++ ys) = receivable xs ++ receivable ys := List.filter_append ..

theorem receivable_cons_of_le {x : Bytes × Address} (xs : List (Bytes × Address))
    (h : x.1.size ≤ bufferSize) : receivable (x :: xs) = x :: receivable xs :=
  List.filter_cons_of_pos (decide_eq_true h)

theorem receivable_cons_of_lt {x : Bytes × Address} (xs : List (Bytes × Address))
    (h : bufferSize < x.1.size) : receivable (x :: xs) = receivable xs :=
  List.filter_cons_of_neg (by simpa using h)

namespace Session

variable {s : Session Memory}

/-- The next packet has been received, as it was fed and with its headers not looked for. -/
structure Took (s s' : Session Memory) (p : Packet) : Prop where
  layout : p.layout = none
  pending : s.device.pending = p.view :: s'.device.pending
  live : s.Live → s'.Live

/-- Nothing has been received, though a packet that does not fit may be lost. -/
structure Lost (s s' : Session Memory) : Prop where
  pending : receivable s'.device.pending = receivable s.device.pending
  live : s.Live → s'.Live

theorem Lost.refl (s : Session Memory) : s.Lost s := ⟨rfl, fun hs => hs⟩

theorem Took.undrained {s' s'' : Session Memory} {p : Packet} (h : s.Took s' p)
    (h' : s'.Undrained s'') : s.Took s'' p :=
  ⟨h.layout, by rw [h.pending, h'.pending], fun hs => h'.live (h.live hs)⟩

/-- A driver that is open gives the packet that was fed first, if there is one. -/
theorem recv_of_open (ho : s.isOpen = true) (hc : s.device.closed = false) :
    s.recv Memory.driver =
      match s.device.pending with
      | [] => none
      | x :: rest => some (s.acquire.2.received Memory.driver s.acquire.1
          (Memory.receive s.acquire.1.storage.bytes (.ok x) (s.device.withPending rest))) := by
  have hdevice : s.acquire.2.device = s.device := rfl
  unfold recv startRecv
  rw [if_pos ho]
  simp only [finishRecv, Memory.driver, Memory.recv, Memory.next, hdevice]
  rw [if_neg (by rw [hc]; decide)]
  cases s.device.pending <;> rfl

/-- In an open session the next packet is received if it fits. -/
theorem recv_of_le {x : Bytes × Address} {rest : List (Bytes × Address)} (ho : s.isOpen = true)
    (hc : s.device.closed = false) (hp : s.device.pending = x :: rest)
    (hx : x.1.size ≤ bufferSize) :
    ∃ p, p.view = x ∧ p.layout = none ∧ s.recv Memory.driver =
      some (.ok p, { s.acquire.2 with device := s.device.withPending rest }) := by
  obtain ⟨p, hview, hlayout, hrecv⟩ :=
    s.acquire.2.received_of_le s.acquire.1 (s.device.withPending rest) hx
  refine ⟨p, hview, hlayout, ?_⟩
  rw [recv_of_open ho hc, hp]
  exact congrArg some hrecv

/-- Receiving in a live session waits, takes the next packet, or loses one that does not fit. -/
theorem recv_cases (s : Session Memory) (hs : s.Live) :
    s.recv Memory.driver = none ∨
    (∃ f s', s.recv Memory.driver = some (.error (.refused f), s') ∧ s.Lost s') ∨
    ∃ p s', s.recv Memory.driver = some (.ok p, s') ∧ s.Took s' p := by
  by_cases ho : s.isOpen = true
  · have hc : s.device.closed = false := hs ho
    cases hp : s.device.pending with
    | nil => exact Or.inl (by rw [recv_of_open ho hc, hp])
    | cons x rest =>
        rcases Nat.lt_or_ge bufferSize x.1.size with hx | hx
        · obtain ⟨f, b, hlost⟩ :=
            s.acquire.2.received_of_lt s.acquire.1 (s.device.withPending rest) hx
          let s' : Session Memory := { s.acquire.2 with device := s.device.withPending rest }
          have hrecv : s.recv Memory.driver = some (.error (.refused f), s'.dropBuffer b) := by
            rw [recv_of_open ho hc, hp]
            exact congrArg some hlost
          refine Or.inr (Or.inl ⟨f, _, hrecv, ?_, fun _ _ => hc⟩)
          rw [hp, receivable_cons_of_lt rest hx]
          rfl
        · obtain ⟨p, hview, hlayout, hrecv⟩ := recv_of_le ho hc hp hx
          refine Or.inr (Or.inr ⟨p, _, hrecv, hlayout, ?_, fun _ _ => hc⟩)
          rw [hp, hview]
          rfl
  · exact Or.inr (Or.inl ⟨_, s, recv_of_closed (Bool.eq_false_of_not_eq_true ho), .refl s⟩)

end Session

namespace Station

variable {st : Station Memory}

/-- Everything in a station with a memory driver is in order: packets fit, and the session is
live. -/
structure Sane (st : Station Memory) : Prop where
  guards : (Custody.fitting Memory.driver).GuardsStation st
  live : st.session.Live

/-- The packet that a step has received. -/
def receipt (x : Step) (r : Answer × Station Memory) : Option Packet :=
  match x, r.1 with
  | .recv i _, .number _ => r.2.slot? i
  | _, _ => none

theorem receipt_of_ne {x : Step} {r : Answer × Station Memory} (h : ∀ n, r.1 ≠ .number n) :
    receipt x r = none := by
  unfold receipt
  split
  · next hn => exact absurd hn (h _)
  · rfl

theorem receipt_of_number {i : Slot} {h n : Nat} {r : Answer × Station Memory}
    (hn : r.1 = .number n) : receipt (.recv i h) r = r.2.slot? i := by
  simp only [receipt, hn]

/-- A packet that was received is in its slot, and the answer is its length. -/
theorem place_ok (i : Slot) (p : Packet)
    (h : (Custody.fitting Memory.driver).GuardsStation st) :
    (st.place i (.ok p)).1 = .number p.len ∧ (st.place i (.ok p)).2.slot? i = some p := by
  have hclear := (h.clearSlot i).1
  constructor
  · simp only [place, hclear]
    rfl
  · simp only [place]
    rw [slot?_setSlot, if_pos rfl]

/-- What is received for a holder is in the slot then, and the answer is its length. -/
theorem step_recv_of_ok {i : Slot} {h : Nat} {p : Packet} {s : Session Memory} (hst : st.Sane)
    (hh : st.holds h = true) (hq : st.session.recv Memory.driver = some (.ok p, s)) :
    st.step Memory.driver (.recv i h) = (st.withSession s).place i (.ok p) ∧
      (st.step Memory.driver (.recv i h)).1 = .number p.len ∧
      (st.step Memory.driver (.recv i h)).2.slot? i = some p := by
  have hstep : st.step Memory.driver (.recv i h) = (st.withSession s).place i (.ok p) := by
    simp only [step, onHolder]
    rw [if_pos hh, hq]
  rw [hstep]
  exact ⟨rfl, place_ok i p (hst.guards.withSession fun _ _ => trivial)⟩

/-- Receiving into a slot is answered with a length if the next packet is in the slot then, and with
something else if none was received. -/
theorem step_recv_cases (i : Slot) (h : Nat) (hst : st.Sane) :
    let r := st.step Memory.driver (.recv i h)
    ((∀ n, r.1 ≠ .number n) ∧ st.session.Lost r.2.session) ∨
      ∃ p, r.1 = .number p.len ∧ r.2.slot? i = some p ∧ st.session.Took r.2.session p := by
  intro r
  by_cases hh : st.holds h = true
  · rcases st.session.recv_cases hst.live with hq | ⟨f, s, hq, hlost⟩ | ⟨p, s, hq, htook⟩
    · have hr : r = (.skipped .wouldWait, st) := by
        simp only [r, step, onHolder]
        rw [if_pos hh, hq]
      rw [hr]
      exact Or.inl ⟨by simp, .refl _⟩
    · have hr : r = (.refused f, st.withSession s) := by
        simp only [r, step, onHolder]
        rw [if_pos hh, hq]
        rfl
      rw [hr]
      exact Or.inl ⟨by simp, hlost⟩
    · obtain ⟨hstep, hanswer, hslot⟩ := step_recv_of_ok (i := i) hst hh hq
      have hplace := undrained_place i (.ok p) (st.withSession s)
      rw [← hstep] at hplace
      exact Or.inr ⟨p, hanswer, hslot, htook.undrained hplace⟩
  · have hr : r = (.skipped .noHolder, st) := if_neg hh
    rw [hr]
    exact Or.inl ⟨by simp, .refl _⟩

end Station

/-! ## What was fed and what was received -/

/-- A station with a memory driver, with what was fed to the driver and what was received so far. -/
structure Traffic where
  station : Station Memory
  fed : List (Bytes × Address)
  received : List Packet

namespace Traffic

/-- What is done in a session: a step, or a packet is fed to the driver. -/
inductive Visit where
  | step (x : Station.Step)
  | feed (b : Bytes) (a : Address)

/-- The visit is none of a receive loop. -/
def Visit.isLoopless : Visit → Bool
  | .step x => !x.isOfLoop
  | .feed _ _ => true

variable {t : Traffic}

/-- An open session with a fresh memory driver, and any pool. -/
def begin (config : Config) (pool : Pool) : Traffic :=
  ⟨.ofSession (.ofDevice .fresh config pool), [], []⟩

/-- The session that the traffic passes through. -/
def session (t : Traffic) : Session Memory := t.station.session

/-- Feed a packet. -/
def feed (b : Bytes) (a : Address) (t : Traffic) : Traffic :=
  match t.session.device.feed b a with
  | (.ok (), m) =>
    { t with
      station := t.station.withSession { t.session with device := m }, fed := t.fed ++ [(b, a)] }
  | (.error _, _) => t

/-- Do a step, and keep note of what it receives. -/
def step (x : Station.Step) (t : Traffic) : Traffic :=
  let r := t.station.step Memory.driver x
  { t with station := r.2, received := t.received ++ (Station.receipt x r).toList }

/-- Do what a visit asks for. -/
def visit (t : Traffic) : Visit → Traffic
  | .step x => t.step x
  | .feed b a => t.feed b a

/-- Visits in turn. -/
def visits (vs : List Visit) (t : Traffic) : Traffic := vs.foldl visit t

/-- What was received, and what the driver has yet to give that fits, is what was fed that fits. -/
structure Orderly (t : Traffic) : Prop where
  sane : t.station.Sane
  order : t.received.map Packet.view ++ receivable t.session.device.pending = receivable t.fed

namespace Orderly

theorem begin (config : Config) (pool : Pool) : (Traffic.begin config pool).Orderly :=
  ⟨⟨Custody.guardsStation_ofSession fun _ _ => trivial, fun _ => rfl⟩, rfl⟩

theorem feed (b : Bytes) (a : Address) (h : t.Orderly) : (t.feed b a).Orderly := by
  unfold Traffic.feed Memory.feed
  split
  · next m hm =>
      split at hm
      · cases hm
      · cases hm
        refine ⟨⟨h.sane.guards.withSession fun _ _ => trivial, h.sane.live⟩, ?_⟩
        change _ ++ receivable (t.session.device.pending ++ [(b, a)]) =
          receivable (t.fed ++ [(b, a)])
        rw [receivable_append, receivable_append, ← h.order, List.append_assoc]
  · exact h

/-- A packet that is received is the next of those fed that fit. -/
theorem recv (i : Slot) (n : Nat) (h : t.Orderly) : (t.step (.recv i n)).Orderly := by
  have hguards := h.sane.guards.step (x := .recv i n) trivial
  have horder := h.order
  rcases Station.step_recv_cases i n h.sane with ⟨hanswer, hlost⟩ | ⟨p, hanswer, hslot, htook⟩
  · have hnone := Station.receipt_of_ne (x := .recv i n) hanswer
    refine ⟨⟨hguards, hlost.live h.sane.live⟩, ?_⟩
    simp only [Traffic.step, hnone, Option.toList_none, List.append_nil]
    rw [← horder]
    exact congrArg (_ ++ ·) hlost.pending
  · have hsome := (Station.receipt_of_number (i := i) (h := n) hanswer).trans hslot
    have hfits : p.view.1.size ≤ bufferSize := by
      rw [Packet.view, Packet.size_contents]
      exact p.buffer.len_le
    refine ⟨⟨hguards, htook.live h.sane.live⟩, ?_⟩
    have hpending : t.session.device.pending = _ := htook.pending
    rw [hpending, receivable_cons_of_le _ hfits] at horder
    simp only [Traffic.step, hsome, Option.toList_some]
    rw [← horder, List.map_append, List.append_assoc]
    rfl

/-- Every step but those of a receive loop leaves the traffic orderly. -/
theorem step {x : Station.Step} (hx : x.isOfLoop = false) (h : t.Orderly) :
    (t.step x).Orderly := by
  have hguards : (Custody.fitting Memory.driver).GuardsStation
      (t.station.step Memory.driver x).2 := h.sane.guards.step (by cases x <;> trivial)
  by_cases hrecv : x.isRecv = true
  · cases x with
    | recv i n => exact h.recv i n
    | _ => cases hrecv
  · have hundrained : t.session.Undrained (t.station.step Memory.driver x).2.session :=
      Station.undrained_step hx (Bool.eq_false_of_not_eq_true hrecv)
    have hnone : Station.receipt x (t.station.step Memory.driver x) = none := by
      cases x with
      | recv _ _ => exact absurd rfl hrecv
      | _ => rfl
    refine ⟨⟨hguards, hundrained.live h.sane.live⟩, ?_⟩
    simp only [Traffic.step, hnone, Option.toList_none, List.append_nil]
    rw [← h.order]
    exact congrArg (_ ++ receivable ·) hundrained.pending

theorem visit {v : Visit} (hv : v.isLoopless = true) (h : t.Orderly) : (t.visit v).Orderly := by
  cases v with
  | step x => exact h.step (by simpa [Visit.isLoopless] using hv)
  | feed b a => exact h.feed b a

theorem visits {vs : List Visit} (hvs : ∀ v ∈ vs, v.isLoopless = true) (h : t.Orderly) :
    (t.visits vs).Orderly := by
  induction vs generalizing t with
  | nil => exact h
  | cons v vs ih =>
      exact ih (fun v hv => hvs v (List.mem_cons_of_mem _ hv))
        (h.visit (hvs v List.mem_cons_self))

end Orderly

end Traffic

/-! ## Steps that at most read a packet -/

namespace Station

variable {σ : Type} {D : Driver σ} {st : Station σ} {i : Slot} {p : Packet}

/-- The step is none of a receive loop, and at most reads the packet in a slot. -/
def Step.spares (i : Slot) : Step → Bool
  | .packet j op => j != i || op.isReadOnly
  | .checksums j _ | .newPacket j _ _ | .newFromStorage j _ _ _ _ | .recv j _ | .dropPacket j
  | .inject j _ => j != i
  | .evalFilter _ _ _ | .sendKept _ _ | .share _ | .close _ | .leave _ => true
  | .startLoop _ _ | .startLoopOnRuntime _ _ | .moveLoop | .consume _ | .dropQueue => false

theorem slot?_onPacket (i j : Slot) (act : Packet → Answer × Packet × Session σ)
    (st : Station σ) :
    (st.onPacket j act).2.slot? i =
      if j = i then (st.slot? i).map fun p => (act p).2.1 else st.slot? i := by
  unfold onPacket
  split
  · next h =>
      split
      · next hji => rw [← hji, h]; rfl
      · rfl
  · next q h =>
      rw [slot?_setSlot]
      split
      · next hji => rw [← hji, h]; rfl
      · rfl

theorem slot?_onHolder {h : Nat} {act : Unit → Answer × Station σ}
    (ha : (act ()).2.slot? i = st.slot? i) : (st.onHolder h act).2.slot? i = st.slot? i :=
  kept_onHolder (P := fun st' => st'.slot? i = st.slot? i) rfl ha

/-- What is done with the packet in another slot, or leaves the packet as it is, is nothing to a
slot. -/
theorem slot?_onPacketWith {j : Slot} {h : Nat} {act : Packet → Answer × Packet × Session σ}
    (ha : j = i → ∀ p, (act p).2.1 = p) : (st.onPacketWith j h act).2.slot? i = st.slot? i := by
  unfold onPacketWith
  split
  · refine slot?_onHolder ?_
    rw [slot?_onPacket]
    split
    · next hji =>
        cases st.slot? i with
        | none => rfl
        | some p => exact congrArg some (ha hji p)
    · rfl
  · rfl

theorem slot?_clearSlot_of_ne {j : Slot} (h : j ≠ i) (st : Station σ) :
    (st.clearSlot j).2.slot? i = st.slot? i := by
  unfold clearSlot
  split
  · rfl
  · rw [slot?_setSlot, if_neg h]
    rfl

theorem slot?_place_of_ne {j : Slot} (h : j ≠ i) (r : Except Fault Packet) (st : Station σ) :
    (st.place j r).2.slot? i = st.slot? i := by
  unfold place
  split
  · rfl
  · rfl
  · simp only
    rw [slot?_setSlot, if_neg h, slot?_clearSlot_of_ne h]

/-- **A step that spares a slot** at most reads the packet in it. -/
theorem slot?_of_spares {x : Step} (hx : x.spares i = true) (hp : st.slot? i = some p) :
    ∃ p', (st.step D x).2.slot? i = some p' ∧ p.Reads p' := by
  have hsame : ∀ {st' : Station σ}, st'.slot? i = st.slot? i →
      ∃ p', st'.slot? i = some p' ∧ p.Reads p' :=
    fun h => ⟨p, h.trans hp, Or.inl rfl⟩
  cases x with
  | packet j op =>
      simp only [step]
      rw [slot?_onPacket]
      split
      · next hji =>
          subst hji
          have hop : op.isReadOnly = true := by simpa [Step.spares] using hx
          exact ⟨(p.run op).2, by rw [hp]; rfl, Packet.run_of_readOnly hop p⟩
      · exact hsame rfl
  | checksums j h =>
      exact hsame (slot?_onPacketWith fun hji => absurd hji (bne_iff_ne.1 hx))
  | evalFilter j h f => exact hsame (slot?_onPacketWith fun _ _ => rfl)
  | sendKept j h => exact hsame (slot?_onPacketWith fun _ _ => rfl)
  | newPacket j b a => exact hsame (slot?_place_of_ne (bne_iff_ne.1 hx) _ _)
  | newFromStorage j offset b len a =>
      exact hsame (slot?_place_of_ne (bne_iff_ne.1 hx) _ _)
  | recv j h =>
      refine hsame (slot?_onHolder ?_)
      split
      · rfl
      · exact slot?_place_of_ne (bne_iff_ne.1 hx) _ _
  | dropPacket j => exact hsame (slot?_clearSlot_of_ne (bne_iff_ne.1 hx) st)
  | inject j h =>
      refine hsame (slot?_onHolder ?_)
      split
      · rfl
      · rw [slot?_setSlot, if_neg (bne_iff_ne.1 hx)]
        rfl
  | share h => exact hsame (slot?_onHolder rfl)
  | close h => exact hsame (slot?_onHolder rfl)
  | leave h => exact hsame (slot?_onHolder rfl)
  | startLoop _ _ => cases hx
  | startLoopOnRuntime _ _ => cases hx
  | moveLoop => cases hx
  | consume _ => cases hx
  | dropQueue => cases hx

end Station

/-! ## Injecting what was only read -/

namespace Traffic

variable {t : Traffic} {i : Slot} {x : Bytes × Address}

/-- The visit is none of a receive loop, and at most reads the packet in a slot. -/
def Visit.spares (i : Slot) : Visit → Bool
  | .step x => x.spares i
  | .feed _ _ => true

theorem Visit.isLoopless_of_spares {v : Visit} (h : v.spares i = true) : v.isLoopless = true := by
  cases v with
  | step x => cases x <;> first | rfl | cases h
  | feed b a => rfl

/-- The packet in a slot is the one that was fed, and no change to it has been asked for. -/
def Untouched (i : Slot) (x : Bytes × Address) (t : Traffic) : Prop :=
  ∃ p, t.station.slot? i = some p ∧ p.view = x ∧ p.needsChecksum = false

theorem Untouched.visit {v : Visit} (hv : v.spares i = true) (h : t.Untouched i x) :
    (t.visit v).Untouched i x := by
  obtain ⟨p, hp, rfl, hm⟩ := h
  cases v with
  | step y =>
      obtain ⟨p', hp', hreads⟩ := Station.slot?_of_spares (D := Memory.driver) hv hp
      refine ⟨p', hp', ?_, hreads.needsChecksum.trans hm⟩
      rw [Packet.view, hreads.contents, hreads.address, Packet.view]
  | feed b a =>
      refine ⟨p, ?_, rfl, hm⟩
      simp only [Traffic.visit, Traffic.feed]
      split <;> exact hp

theorem Untouched.visits {vs : List Visit} (hvs : ∀ v ∈ vs, v.spares i = true)
    (h : t.Untouched i x) : (t.visits vs).Untouched i x := by
  induction vs generalizing t with
  | nil => exact h
  | cons v vs ih =>
      exact ih (fun v hv => hvs v (List.mem_cons_of_mem _ hv))
        (h.visit (hvs v List.mem_cons_self))

/-- An untouched packet is injected as it was fed, and the driver does nothing else. -/
theorem Untouched.inject {h : Nat} (hu : t.Untouched i x) (ht : t.Orderly)
    (hh : t.station.holds h = true) (ho : t.session.isOpen = true) :
    let r := t.station.step Memory.driver (.inject i h)
    r.1 = .number x.1.size ∧
      r.2.session.device = { t.session.device with sent := t.session.device.sent ++ [x] } := by
  obtain ⟨p, hp, rfl, hm⟩ := hu
  obtain ⟨hanswer, hdevice⟩ :=
    Memory.injects_unchanged (ht.sane.guards.slots i p hp) hm ho (ht.sane.live ho)
  intro r
  have hr : r = (.ofResult .number (t.session.inject Memory.driver p).1,
      (t.station.withSession (t.session.inject Memory.driver p).2).setSlot i none) :=
    (Station.step_inject Memory.driver h hp).trans (if_pos hh)
  rw [hr, hanswer, Packet.view, Packet.size_contents]
  exact ⟨rfl, hdevice⟩

/-- The packets received are, one by one, those fed that fit. -/
theorem Orderly.received (h : t.Orderly) {k : Nat} {p : Packet} (hk : t.received[k]? = some p) :
    (receivable t.fed)[k]? = some p.view := by
  have hmap : (t.received.map Packet.view)[k]? = some p.view := by
    rw [List.getElem?_map, hk]
    rfl
  rw [← h.order, List.getElem?_append_left (List.getElem?_eq_some_iff.1 hmap).1]
  exact hmap

/-- A packet that has just been received is noted, and untouched in its slot. -/
theorem Orderly.untouched_recv {h n : Nat} (ht : t.Orderly)
    (hn : (t.station.step Memory.driver (.recv i h)).1 = .number n) :
    ∃ p, (t.step (.recv i h)).received = t.received ++ [p] ∧ n = p.len ∧
      (t.step (.recv i h)).station.slot? i = some p ∧
      (t.step (.recv i h)).Untouched i p.view := by
  rcases Station.step_recv_cases i h ht.sane with ⟨hanswer, -⟩ | ⟨p, hanswer, hslot, htook⟩
  · exact absurd hn (hanswer n)
  · have hsome := (Station.receipt_of_number (i := i) (h := h) hanswer).trans hslot
    have hlen : n = p.len := by
      rw [hanswer] at hn
      cases hn
      rfl
    have hm : p.needsChecksum = false := by rw [Packet.needsChecksum, htook.layout]; rfl
    refine ⟨p, ?_, hlen, hslot, p, hslot, rfl, hm⟩
    simp only [Traffic.step, hsome, Option.toList_some]

/-- A packet that fits and is fed first to a session with an empty pool is received into a slot. -/
theorem step_recv_fed {x : Bytes × Address} (hx : x.1.size ≤ bufferSize) (i : Slot) :
    ∃ p : Packet, p.len = x.1.size ∧
      ((begin .standard (.empty none)).visits [.feed x.1 x.2]).station.step Memory.driver
          (.recv i 0) =
        (.number p.len, (Station.ofSession { Session.ofDevice .fresh .standard (.empty none) with
          pool := (Pool.empty none).acquire.2 }).setSlot i (some p)) := by
  let t := (begin .standard (.empty none)).feed x.1 x.2
  have hsane : t.station.Sane := ((Orderly.begin ..).feed x.1 x.2).sane
  obtain ⟨p, hview, -, hrecv⟩ := Session.recv_of_le (s := t.session) rfl rfl rfl hx
  obtain ⟨hstep, -, -⟩ := Station.step_recv_of_ok (i := i) (h := 0) hsane rfl hrecv
  refine ⟨p, ?_, ?_⟩
  · rw [← Packet.size_contents, show p.contents = x.1 from congrArg Prod.fst hview]
  · exact hstep

/-- As long as the packet in a slot is only read, injecting it for a holder of an open session adds
it to what was injected, as it was fed, and does nothing else to the driver: no checksums are
recomputed. -/
def Reinjects (i : Slot) (x : Bytes × Address) (t : Traffic) : Prop :=
  ∀ reads : List Visit, (∀ v ∈ reads, v.spares i = true) → ∀ h,
    let st := (t.visits reads).station
    let r := st.step Memory.driver (.inject i h)
    st.holds h = true → st.session.isOpen = true →
      r.1 = .number x.1.size ∧
        r.2.session.device = { st.session.device with sent := st.session.device.sent ++ [x] }

/-- What it means that packets pass through untouched. -/
structure Transparent (t : Traffic) : Prop where
  /-- What was received, and what the driver has yet to give that fits, is what was fed that fits,
  in its order. -/
  inOrder : t.received.map Packet.view ++ receivable t.session.device.pending = receivable t.fed
  /-- A packet received has the bytes and the address it was fed with, and their length. -/
  received : ∀ (k : Nat) (p : Packet), t.received[k]? = some p →
    ∃ x, (receivable t.fed)[k]? = some x ∧
      p.contents = x.1 ∧ p.address = x.2 ∧ p.len = x.1.size
  /-- A packet that fits and is next is received. -/
  arrives : ∀ i h x rest, t.station.holds h = true → t.session.isOpen = true →
    t.session.device.pending = x :: rest → x.1.size ≤ bufferSize →
      (t.station.step Memory.driver (.recv i h)).1 = .number x.1.size
  /-- Receiving that is answered with a length puts the packet into the slot, from where it is
  injected untouched. -/
  reinjected : ∀ i h n, (t.station.step Memory.driver (.recv i h)).1 = .number n →
    ∃ x p, (receivable t.fed)[t.received.length]? = some x ∧
      (t.step (.recv i h)).received = t.received ++ [p] ∧
      (t.step (.recv i h)).station.slot? i = some p ∧ p.contents = x.1 ∧ p.address = x.2 ∧
      n = x.1.size ∧ (t.step (.recv i h)).Reinjects i x

/-- A packet that fits and is next is received into a slot, and the answer is its length. -/
theorem Orderly.arrives {h : Nat} {rest : List (Bytes × Address)} (ht : t.Orderly) (i : Slot)
    (hh : t.station.holds h = true) (ho : t.session.isOpen = true)
    (hp : t.session.device.pending = x :: rest) (hx : x.1.size ≤ bufferSize) :
    (t.station.step Memory.driver (.recv i h)).1 = .number x.1.size := by
  obtain ⟨p, hview, -, hrecv⟩ := Session.recv_of_le ho (ht.sane.live ho) hp hx
  rw [(Station.step_recv_of_ok ht.sane hh hrecv).2.1, ← hview, Packet.view, Packet.size_contents]

theorem Orderly.reinjected {h n : Nat} (ht : t.Orderly)
    (hn : (t.station.step Memory.driver (.recv i h)).1 = .number n) :
    ∃ x p, (receivable t.fed)[t.received.length]? = some x ∧
      (t.step (.recv i h)).received = t.received ++ [p] ∧
      (t.step (.recv i h)).station.slot? i = some p ∧ p.contents = x.1 ∧ p.address = x.2 ∧
      n = x.1.size ∧ (t.step (.recv i h)).Reinjects i x := by
  obtain ⟨p, hreceived, hlen, hslot, huntouched⟩ := ht.untouched_recv hn
  have ht' : (t.step (.recv i h)).Orderly := ht.step rfl
  have hnext : (t.step (.recv i h)).received[t.received.length]? = some p := by
    rw [hreceived]
    exact List.getElem?_concat_length
  refine ⟨p.view, p, ht'.received hnext, hreceived, hslot, rfl, rfl,
    hlen.trans (Packet.size_contents p).symm, fun reads hreads h' => ?_⟩
  intro st r hh ho
  exact (huntouched.visits hreads).inject
    (ht'.visits fun v hv => Visit.isLoopless_of_spares (hreads v hv)) hh ho

/-- **An untouched packet passes through a session as it was fed**, malformed or not, whatever was
done in the session, receive loops apart, and whatever buffers its pool holds. -/
theorem passes_through (config : Config) (pool : Pool) (visits : List Visit)
    (hvisits : ∀ v ∈ visits, v.isLoopless = true) :
    ((begin config pool).visits visits).Transparent := by
  have ht := (Orderly.begin config pool).visits hvisits
  exact
    { inOrder := ht.order
      received := fun k p hk =>
        ⟨p.view, ht.received hk, rfl, rfl, (Packet.size_contents p).symm⟩
      arrives := fun i h x rest hh ho hp hx => ht.arrives i hh ho hp hx
      reinjected := fun i h n hn => ht.reinjected hn }

/-- Three bytes that are no packet are received, looked into in vain, and injected as they are. -/
theorem passes_through_malformed :
    let x : Bytes × Address := (.ofList [1, 2, 3], .blank)
    let fed : List Visit := [.feed x.1 x.2]
    let look : Visit := .step (.packet 0 (.ask .parse))
    ∃ t u, t = (begin .standard (.empty none)).visits fed ∧ u = (t.step (.recv 0 0)).visits [look] ∧
      (∀ v ∈ fed, v.isLoopless = true) ∧
      (t.station.step Memory.driver (.recv 0 0)).1 = .number 3 ∧ look.spares 0 = true ∧
      u.station.holds 0 = true ∧ u.station.session.isOpen = true ∧
      let r := u.station.step Memory.driver (.inject 0 0)
      r.1 = .number 3 ∧ r.2.session.device.sent = [x] ∧ r.2.session.device.checksumCalls = 0 := by
  intro x fed look
  have hfed : ∀ v ∈ fed, v.isLoopless = true := by
    intro v hv
    rw [List.mem_singleton.1 hv]
    rfl
  have hlook : ∀ v ∈ [look], v.spares 0 = true := by
    intro v hv
    rw [List.mem_singleton.1 hv]
    rfl
  have hpass := (passes_through .standard (.empty none) fed hfed).reinjected 0 0 3
  obtain ⟨p, hlen, hrecv⟩ := step_recv_fed (x := x) (show 3 ≤ bufferSize by decide) 0
  -- from here on the states are names, as there is nothing to be gained by computing them
  obtain ⟨t, ht⟩ : ∃ t, t = (begin .standard (.empty none)).visits fed := ⟨_, rfl⟩
  rw [← ht] at hpass hrecv
  obtain ⟨u, hu⟩ : ∃ u, u = (t.step (.recv 0 0)).visits [look] := ⟨_, rfl⟩
  have hempty : t.received.length = 0 := by rw [ht]; rfl
  have hone : t.fed = [x] := by rw [ht]; rfl
  have hstation : u.station =
      ((t.station.step Memory.driver (.recv 0 0)).2.step Memory.driver
        (.packet 0 (.ask .parse))).2 := by
    rw [hu]
    rfl
  have hnumber : (t.station.step Memory.driver (.recv 0 0)).1 = .number 3 := by
    rw [hrecv, hlen]
    rfl
  rw [hrecv] at hstation
  have hholds : u.station.holds 0 = true := by rw [hstation]; rfl
  have hopen : u.station.session.isOpen = true := by rw [hstation]; rfl
  have hdevice : u.station.session.device = Memory.fresh := by rw [hstation]; rfl
  obtain ⟨y, q, hy, -, -, -, -, -, hinject⟩ := hpass hnumber
  rw [hempty, hone] at hy
  obtain rfl : x = y := Option.some.inj hy
  have hinject := hinject [look] hlook 0
  rw [← hu] at hinject
  obtain ⟨hanswer, hsent⟩ := hinject hholds hopen
  rw [hdevice] at hsent
  refine ⟨t, u, ht, hu, hfed, hnumber, rfl, hholds, hopen, hanswer, ?_, ?_⟩
  · rw [hsent]
    rfl
  · rw [hsent]
    rfl

end Traffic

end Intercept
