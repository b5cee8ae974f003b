import Intercept.Driver.Memory
import Intercept.Proofs.Custody
import Intercept.Proofs.Packet.Sound

set_option autoImplicit false

/-! # What the memory driver injects

A packet that was changed has its checksums recomputed on the way out, and is not injected if that
fails. `Station.inject_changed` says what this comes to with the memory driver, whatever was done to
the packet and whatever else happened in the session before: if the injection is answered with a
length, the list of injected packets has grown by one, whose checksums are right and which is the
packet otherwise; if not, the list is as it was. -/

namespace Intercept

namespace Session

variable {σ : Type} {D : Driver σ}

@[simp] theorem device_dropPacket (p : Packet) (s : Session σ) :
    (s.dropPacket p).2.device = s.device := by
  unfold dropPacket
  split <;> rfl

@[simp] theorem device_giveUp (r : Except Error Nat) (p : Packet) (s : Session σ) :
    (s.giveUp r p).2.device = s.device := by
  unfold giveUp
  have h := device_dropPacket p s
  split
  · next he => rwa [he] at h
  · next he => rwa [he] at h

/-- A packet that fits is given up with the result it came with. -/
theorem answer_giveUp {p : Packet} (hp : p.Fits) (r : Except Error Nat) (s : Session σ) :
    (s.giveUp r p).1 = r.mapError .refused := by
  obtain ⟨b, hb⟩ := hp.retire_eq_ok
  unfold giveUp dropPacket
  rw [hb]

/-- A packet that is not marked as changed is sent as it is. -/
theorem inject_of_unmarked {p : Packet} (hm : p.needsChecksum = false)
    (s : Session σ) :
    s.inject D p = s.injectAsIs D p := by
  unfold inject
  exact if_neg (Bool.eq_false_iff.1 hm)

/-- A packet that is marked as changed is sent as the driver left it. -/
theorem inject_of_ok {p : Packet} {s : Session σ} (hm : p.needsChecksum = true)
    (hr : (D.checksums p.contents p.address s.device).answer.result = .ok ()) :
    s.inject D p = (s.checksums D p).2.2.injectAsIs D (s.checksums D p).2.1 := by
  unfold inject
  rw [if_pos hm]
  simp only [checksums, hr, Except.mapError]

/-- A packet whose checksums cannot be recomputed is given up with the reason. -/
theorem inject_of_error {p : Packet} {s : Session σ} {e : DeviceError}
    (hm : p.needsChecksum = true)
    (hr : (D.checksums p.contents p.address s.device).answer.result = .error e) :
    s.inject D p = ((s.checksums D p).2.2.report (.packetDropped (.checksumFailed e))).giveUp
      (.error (.checksumFailed e)) (s.checksums D p).2.1 := by
  unfold inject
  rw [if_pos hm]
  simp only [checksums, hr, Except.mapError]

end Session

theorem Packet.Fits.refill {p : Packet} (h : p.Fits) : p.refill.Fits := h.rewrite _ _

namespace Memory

/-- What an attempt to inject a packet may come to: it is in the list of injected packets as it
goes on the wire, or the list is as it was. -/
def Injects (wire : Bytes → Prop) (p : Packet) (m : Memory)
    (r : Except Fault Nat × Session Memory) : Prop :=
  match r.1 with
  | .ok n => n = p.len ∧ ∃ b, wire b ∧ r.2.device.sent = m.sent ++ [(b, p.address)]
  | .error (.refused _) => r.2.device.sent = m.sent
  | .error .outOfRange => False

/-- An injection is kept by an open driver, and refused, with nothing changed, by a closed one. -/
theorem send_cases (p : Packet) (s : Session Memory) :
    s.send driver p = (.ok p.len,
      { s with device := { s.device with sent := s.device.sent ++ [(p.contents, p.address)] } }) ∨
    ∃ e, s.send driver p = (.error e, s) := by
  unfold Session.send
  by_cases ho : s.isOpen = true
  · rw [if_pos ho]
    simp only [driver, send]
    by_cases hc : s.device.closed = true
    · rw [if_pos hc]
      exact Or.inr ⟨s.refusal .injectionFailed closedError, rfl⟩
    · rw [if_neg hc, Packet.size_contents]
      exact Or.inl rfl
  · rw [if_neg ho]
    exact Or.inr ⟨_, rfl⟩

/-- An open driver of an open session keeps what is injected. -/
theorem send_of_open {p : Packet} {s : Session Memory} (ho : s.isOpen = true)
    (hc : s.device.closed = false) :
    s.send driver p = (.ok p.len,
      { s with
        device := { s.device with sent := s.device.sent ++ [(p.contents, p.address)] } }) := by
  unfold Session.send
  rw [if_pos ho]
  simp only [driver, send]
  rw [if_neg (by rw [hc]; decide), Packet.size_contents]
  rfl

theorem injects_asIs {p : Packet} {s : Session Memory} (hp : p.Fits) :
    Injects (· = p.contents) p s.device (s.injectAsIs driver p) := by
  have hdevice : (s.injectAsIs driver p).2.device = (s.send driver p).2.device :=
    Session.device_giveUp ..
  have hanswer : (s.injectAsIs driver p).1 = (s.send driver p).1.mapError .refused :=
    Session.answer_giveUp hp ..
  unfold Injects
  rw [hdevice, hanswer]
  rcases send_cases p s with h | ⟨e, h⟩ <;> rw [h]
  · exact ⟨rfl, _, rfl, rfl⟩
  · rfl

/-- The memory driver recomputes checksums in software, and counts how often. -/
theorem checksums_driver (p : Packet) (s : Session Memory) :
    s.checksums driver p =
      (((Checksum.fill p.contents).1.mapError fun m =>
          (⟨.invalidData, some m.message⟩ : DeviceError)).mapError .checksumFailed,
        p.refill,
        { s with device := { s.device with checksumCalls := s.device.checksumCalls + 1 } }) := rfl

/-- **A changed packet is injected with its checksums renewed, or not at all.** -/
theorem injects_changed {p : Packet} {s : Session Memory} (hp : p.Fits)
    (hm : p.needsChecksum = true) :
    Injects (Checksum.Renews p.contents) p s.device (s.inject driver p) := by
  have hlen : p.contents.size < 4294967296 := by
    have : p.len ≤ bufferSize := p.buffer.len_le
    rw [Packet.size_contents]
    simp only [bufferSize] at this
    omega
  cases hf : (Checksum.fill p.contents).1 with
  | error m =>
      have hr : (checksums p.contents p.address s.device).answer.result =
          .error ⟨.invalidData, some m.message⟩ := congrArg (Except.mapError _) hf
      -- the packet is given up without having reached the driver
      rw [Session.inject_of_error (D := driver) hm hr, checksums_driver]
      unfold Injects
      rw [Session.answer_giveUp hp.refill, Session.device_giveUp]
      rfl
  | ok u =>
      have hr : (checksums p.contents p.address s.device).answer.result = .ok () :=
        congrArg (Except.mapError _) hf
      have hrenews : Checksum.Renews p.contents (Checksum.fill p.contents).2 :=
        Checksum.renews_fill (Prod.ext hf rfl) hlen
      have h := injects_asIs (s := { s with device :=
        { s.device with checksumCalls := s.device.checksumCalls + 1 } }) hp.refill
      rw [Packet.contents_refill] at h
      -- the bytes on the wire are those that were filled in, and nothing else has changed
      rw [Session.inject_of_ok (D := driver) hm hr, checksums_driver]
      unfold Injects at h ⊢
      simp only at h ⊢
      split at h
      · obtain ⟨hn, w, rfl, hsent⟩ := h
        rw [Packet.len_refill] at hn
        rw [Packet.address_refill] at hsent
        exact ⟨hn, _, hrenews, hsent⟩
      · exact h
      · exact h

/-- A changed packet whose checksums can be recomputed is injected by an open driver. -/
theorem answer_inject_of_fill {p : Packet} {s : Session Memory} (hp : p.Fits)
    (hm : p.needsChecksum = true) (hf : (Checksum.fill p.contents).1 = .ok ())
    (ho : s.isOpen = true) (hc : s.device.closed = false) :
    (s.inject driver p).1 = .ok p.len := by
  have hr : (checksums p.contents p.address s.device).answer.result = .ok () :=
    congrArg (Except.mapError _) hf
  have hsend := send_of_open (p := p.refill) (s := { s with device :=
    { s.device with checksumCalls := s.device.checksumCalls + 1 } }) ho hc
  rw [Session.inject_of_ok (D := driver) hm hr, checksums_driver, Session.injectAsIs, hsend,
    Packet.len_refill]
  exact Session.answer_giveUp hp.refill ..

/-- **An unchanged packet is injected as it is.** An open driver keeps it, and does nothing else. -/
theorem injects_unchanged {p : Packet} {s : Session Memory} (hp : p.Fits)
    (hm : p.needsChecksum = false) (ho : s.isOpen = true) (hc : s.device.closed = false) :
    (s.inject driver p).1 = .ok p.len ∧
      (s.inject driver p).2.device =
        { s.device with sent := s.device.sent ++ [(p.contents, p.address)] } := by
  rw [Session.inject_of_unmarked hm, Session.injectAsIs, send_of_open ho hc]
  exact ⟨Session.answer_giveUp hp .., Session.device_giveUp ..⟩

end Memory

namespace Station

/-- Injecting the packet in a slot needs a holder, and empties the slot. -/
theorem step_inject {σ : Type} (D : Driver σ) {st : Station σ} {i : Slot} (h : Nat) {p : Packet}
    (hp : st.slot? i = some p) :
    st.step D (.inject i h) = st.onHolder h fun _ =>
      (.ofResult .number (st.session.inject D p).1,
        (st.withSession (st.session.inject D p).2).setSlot i none) := by
  simp only [step]
  congr 1
  funext _
  rw [hp]

/-- A changed packet whose checksums can be recomputed is injected, if all is open. -/
theorem answer_inject_of_fill {st : Station Memory} {i : Slot} {h : Nat} {p : Packet}
    (hp : st.slot? i = some p) (hh : st.holds h = true) (hfits : p.Fits)
    (hm : p.needsChecksum = true) (hf : (Checksum.fill p.contents).1 = .ok ())
    (ho : st.session.isOpen = true) (hc : st.session.device.closed = false) :
    (st.step Memory.driver (.inject i h)).1 = .number p.len := by
  rw [step_inject Memory.driver h hp, onHolder, if_pos hh,
    Memory.answer_inject_of_fill hfits hm hf ho hc]
  rfl

/-- **What the memory driver injects of a changed packet verifies.** In every history of a session
with a memory driver, injecting a changed packet is answered with a length, the length of the
packet, exactly if one more packet was injected: that packet, at its address, with its checksums
renewed. Otherwise nothing was injected. -/
theorem inject_changed (s : Session Memory) (steps : List Step) (i : Slot) (h : Nat) {p : Packet}
    (hp : (run Memory.driver steps (.ofSession s)).slot? i = some p)
    (hm : p.needsChecksum = true) :
    let st := run Memory.driver steps (.ofSession s)
    let r := st.step Memory.driver (.inject i h)
    (∀ n, r.1 = .number n → n = p.len ∧ ∃ b, Checksum.Renews p.contents b ∧
      r.2.session.device.sent = st.session.device.sent ++ [(b, p.address)]) ∧
    ((∀ n, r.1 ≠ .number n) → r.2.session.device.sent = st.session.device.sent) := by
  intro st r
  have hfits : p.Fits := (Custody.fits_run Memory.driver steps s).slots i p hp
  have hinject := Memory.injects_changed (s := st.session) hfits hm
  have hr : r = _ := step_inject Memory.driver h hp
  have hrefused : ∀ e m, Answer.refused e ≠ .number m := by
    intro e m he
    cases he
  unfold onHolder at hr
  split at hr
  · rw [hr]
    unfold Memory.Injects at hinject
    split at hinject
    · next n he =>
        rw [he]
        refine ⟨fun m hm => ?_, fun hne => absurd rfl (hne n)⟩
        cases hm
        exact hinject
    · next e he =>
        rw [he]
        exact ⟨fun m hm => absurd hm (hrefused e m), fun _ => hinject⟩
    · exact hinject.elim
  · rw [hr]
    refine ⟨fun m hm => ?_, fun _ => rfl⟩
    cases hm

/-- A UDP datagram over IPv4, with no payload and no checksums. -/
def datagram : Bytes :=
  .ofList [69, 0, 0, 28, 0, 0, 0, 0, 64, 17, 0, 0, 10, 0, 0, 1, 10, 0, 0, 2,
    0, 53, 0, 53, 0, 8, 0, 0]

/-- The datagram with another time to live. -/
def agedDatagram : Bytes := (Ipv4.Edit.set .ttl 9).apply datagram

/-- Setting its time to live changes a packet that holds the datagram. -/
theorem datagram_changed {p : Packet} (hb : p.contents = datagram) (hl : p.layout = none) :
    let q := (p.run (.withIp [.edit (.v4 (.set .ttl 9))])).2
    q.needsChecksum = true ∧ q.contents = agedDatagram := by
  have hparse : Layout.parse datagram = .ok ⟨.v4, 20, 17, 8, false, false⟩ := rfl
  have hdraft : IpDraft.ofBytes .v4 false datagram = .ok (.v4 ⟨datagram, false⟩) := rfl
  have hlocate : p.locate = .ok ⟨.v4, 20, 17, 8, false, false⟩ := by
    unfold Packet.locate
    rw [hl, hb]
    simp only [hparse]
    rfl
  have hopen : p.openIp = .ok (.v4 ⟨datagram, false⟩) := by
    rw [← Packet.openIp_located,
      Packet.openIp_eq_ok (Packet.layout_located hlocate), Packet.contents_located, hb]
    exact hdraft
  have hsize : agedDatagram.size = p.len := by
    rw [← Packet.size_contents, hb]
    rfl
  unfold Packet.run Packet.withIp
  rw [hopen, Packet.located_of_locate hlocate]
  exact ⟨rfl, Buffer.contents_overwrite_zero hsize⟩

/-- A new packet in a new station, after one operation. Only a buffer was taken from the session. -/
theorem run_newPacket {σ : Type} (D : Driver σ) (s : Session σ) {b : Bytes} (a : Address)
    (op : Packet.Op) (hb : b.size ≤ bufferSize) :
    let st := run D [.newPacket 0 b a, .packet 0 op] (ofSession s)
    st.session = s.acquire.2 ∧ st.holders = [true] ∧
      ∃ p : Packet, p.contents = b ∧ p.layout = none ∧ st.slot? 0 = some (p.run op).2 := by
  obtain ⟨p, hp, hcontents, -, hl⟩ := slot?_newPacket D 0 a (ofSession s) hb
  obtain ⟨hsession, hholders⟩ :=
    session_newPacket D a hb (show (ofSession s).slot? 0 = none from rfl)
  obtain ⟨hsession', hholders'⟩ :=
    session_packet D 0 op ((ofSession s).step D (.newPacket 0 b a)).2
  refine ⟨hsession'.trans hsession, hholders'.trans hholders, p, hcontents, hl, ?_⟩
  rw [run, run, run, slot?_packet, hp]
  rfl

/-- A datagram whose time to live was set is injected, with its checksums renewed. -/
theorem inject_changed_ttl :
    let steps : List Step :=
      [.newPacket 0 datagram .blank, .packet 0 (.withIp [.edit (.v4 (.set .ttl 9))])]
    let s : Session Memory := .ofDevice .fresh .standard (.empty none)
    let st := run Memory.driver steps (.ofSession s)
    ∃ p, st.slot? 0 = some p ∧ p.needsChecksum = true ∧
      (st.step Memory.driver (.inject 0 0)).1 = .number 28 ∧
        ∃ b, Checksum.Renews p.contents b ∧
          (st.step Memory.driver (.inject 0 0)).2.session.device.sent =
            st.session.device.sent ++ [(b, p.address)] := by
  obtain ⟨hsession, hholders, p, hb, hl, hp⟩ := run_newPacket Memory.driver
    (.ofDevice .fresh .standard (.empty none)) .blank (.withIp [.edit (.v4 (.set .ttl 9))])
    (show datagram.size ≤ bufferSize by decide)
  obtain ⟨hm, haged⟩ := datagram_changed hb hl
  generalize (p.run (.withIp [.edit (.v4 (.set .ttl 9))])).2 = q at hm haged hp
  have hfill : (Checksum.fill q.contents).1 = .ok () := by
    rw [haged]
    rfl
  have hlen : q.len = 28 := by
    rw [← Packet.size_contents, haged]
    rfl
  have hanswer := answer_inject_of_fill (h := 0) hp (by rw [holds, hholders]; rfl)
    ((Custody.fits_run Memory.driver _ _).slots 0 _ hp) hm hfill (by rw [hsession]; rfl)
    (by rw [hsession]; rfl)
  rw [hlen] at hanswer
  have h := inject_changed (.ofDevice .fresh .standard (.empty none)) _ 0 0 hp hm
  exact ⟨q, hp, hm, hanswer, (h.1 28 hanswer).2⟩

end Station

end Intercept
