import Intercept.Proofs.Packet.Extent
import Intercept.Station

set_option autoImplicit false

/-! # Custody of buffers

Storage passes from the pool to a buffer, to a packet, into a slot or through the receive loop and
its queue, and back to the pool. `Custody` names what is asked of a buffer and of a packet on the
way, together with what has to be shown for it: that a driver hands over what is asked, that every
effect on a packet keeps it, and that a packet that is given up leaves a buffer that has it. From
this `Custody.guards_run` concludes that it holds everywhere in a station, after any steps.

The steps are gone through once, here. Which property is kept is left to the instance. -/

namespace Intercept

/-- A packet as a driver leaves it that was to recompute its checksums. -/
def Packet.recomputed (r : Recomputed) (p : Packet) : Packet := p.rewrite r.bytes r.address

/-! ## What becomes of the pool and of packets -/

namespace Session

variable {σ α : Type} {D : Driver σ}

@[simp] theorem pool_report (r : Record) (s : Session σ) : (s.report r).pool = s.pool := rfl

@[simp] theorem pool_close (s : Session σ) : (s.close D).2.pool = s.pool := by
  unfold close
  split <;> rfl

@[simp] theorem pool_leave (s : Session σ) : (s.leave D).pool = s.pool := by
  simp only [leave]
  split
  · split
    · next h => rw [pool_report, ← pool_close (D := D) { s with holders := s.holders - 1 }, h]
    · next h => rw [← pool_close (D := D) { s with holders := s.holders - 1 }, h]
  · rfl

@[simp] theorem pool_afterCall (c : Call σ α) (s : Session σ) :
    (s.afterCall D c).pool = s.pool := by
  simp only [afterCall]
  split
  · exact pool_close _
  · rfl

@[simp] theorem pool_send (p : Packet) (s : Session σ) : (s.send D p).2.pool = s.pool := by
  unfold send
  split
  · exact pool_afterCall ..
  · rfl

@[simp] theorem pool_evalFilter (f : String) (p : Packet) (s : Session σ) :
    (s.evalFilter D f p).2.pool = s.pool := pool_afterCall ..

@[simp] theorem pool_checksums (p : Packet) (s : Session σ) :
    (s.checksums D p).2.2.pool = s.pool := pool_afterCall ..

/-- Having checksums recomputed rewrites the bytes of a packet. -/
theorem packet_checksums (p : Packet) (s : Session σ) :
    (s.checksums D p).2.1 = p.recomputed (D.checksums p.contents p.address s.device).answer := rfl

/-- A buffer that was just acquired takes bytes that are not too many. -/
theorem packetOfBytes_eq_ok {b : Bytes} (a : Address) (s : Session σ) (hb : b.size ≤ bufferSize) :
    ∃ p, s.packetOfBytes b a = (.ok p, s.acquire.2) ∧ p.contents = b ∧ p.address = a ∧
      p.layout = none := by
  obtain ⟨t, ht⟩ : ∃ t, s.acquire.1 = .ofStorage t := by
    simp only [acquire, Pool.acquire]
    split
    · exact ⟨_, rfl⟩
    · exact ⟨_, rfl⟩
  have happend : ((Buffer.ofStorage t).append? b).isSome := by
    simp only [Buffer.append?, Buffer.ofStorage, Nat.zero_add, hb, dif_pos, Option.isSome_some]
  obtain ⟨b', hb'⟩ := Option.isSome_iff_exists.1 happend
  refine ⟨.ofBuffer b' a, ?_, Buffer.contents_append? hb', rfl, rfl⟩
  simp only [packetOfBytes, ht, hb']

end Session

/-! ## Slots -/

namespace Station

variable {σ : Type} {st : Station σ}

theorem slot?_setSlot (i j : Slot) (p : Option Packet) (st : Station σ) :
    (st.setSlot i p).slot? j = if i = j then p else st.slot? j :=
  List.join_getElem?_fill ..

theorem slot?_packet (D : Driver σ) (i : Slot) (op : Packet.Op) (st : Station σ) :
    (st.step D (.packet i op)).2.slot? i = (st.slot? i).map fun p => (p.run op).2 := by
  simp only [step, onPacket]
  split
  · next h => rw [h]; rfl
  · next p h => rw [slot?_setSlot, if_pos rfl, h]; rfl

/-- An operation on a packet does not reach the session. -/
theorem session_packet (D : Driver σ) (i : Slot) (op : Packet.Op) (st : Station σ) :
    (st.step D (.packet i op)).2.session = st.session ∧
      (st.step D (.packet i op)).2.holders = st.holders := by
  simp only [step, onPacket]
  split <;> exact ⟨rfl, rfl⟩

/-- A new packet has the bytes it is made of, and its headers have not been looked for. -/
theorem slot?_newPacket (D : Driver σ) (i : Slot) {b : Bytes} (a : Address) (st : Station σ)
    (hb : b.size ≤ bufferSize) :
    ∃ p, (st.step D (.newPacket i b a)).2.slot? i = some p ∧ p.contents = b ∧ p.address = a ∧
      p.layout = none := by
  obtain ⟨p, hp, hshown⟩ := Session.packetOfBytes_eq_ok a st.session hb
  refine ⟨p, ?_, hshown⟩
  simp only [step, hp, place]
  rw [slot?_setSlot, if_pos rfl]

/-- A new packet in an empty slot takes a buffer from the session, and nothing else. -/
theorem session_newPacket (D : Driver σ) {i : Slot} {b : Bytes} (a : Address) {st : Station σ}
    (hb : b.size ≤ bufferSize) (hi : st.slot? i = none) :
    (st.step D (.newPacket i b a)).2.session = st.session.acquire.2 ∧
      (st.step D (.newPacket i b a)).2.holders = st.holders := by
  obtain ⟨p, hp, -⟩ := Session.packetOfBytes_eq_ok a st.session hb
  have hempty : (st.withSession st.session.acquire.2).slot? i = none := hi
  simp only [step, hp, place, clearSlot, hempty]
  exact ⟨rfl, rfl⟩

/-! ## What becomes of the loop -/

/-- A loop is started where there is none, if it can be. -/
theorem startWith_cases {start : Session σ → Except Fault Loop × Session σ} {st : Station σ}
    (hs : Loop.Starts st.session (start st.session)) :
    (st.startWith start).2 = st ∨
      st.loop = none ∧ st.session.isOpen = true ∧
        (st.startWith start).2 =
          { st with
            session := st.session.share.report (.loopStarted st.session.config.filter)
            loop := some (.ofCapacity st.session.config.loopCapacity) } := by
  obtain ⟨s, holders, slots, loop⟩ := st
  cases loop with
  | some l => exact Or.inl rfl
  | none =>
      rcases hs with ⟨e, he⟩ | ⟨hopen, he⟩
      · refine Or.inl ?_
        simp only [startWith, he]
        rfl
      · refine Or.inr ⟨rfl, hopen, ?_⟩
        simp only [startWith, he]
        rfl

/-- Consuming takes the next packet into a slot, or sees off a loop that has ended with an empty
queue, or there is nothing to be done. -/
theorem consume_cases (i : Slot) (st : Station σ) :
    (st.consume i).2 = st ∨
    ∃ l, st.loop = some l ∧ l.attended = true ∧
      ((∃ p rest, l.queue = p :: rest ∧ (st.consume i).2 =
        { (st.clearSlot i).2 with loop := some { l with queue := rest } }.setSlot i (some p)) ∨
      (l.queue = [] ∧ l.hasEnded = true ∧
        (st.consume i).2 = { (st.clearSlot i).2 with loop := none })) := by
  unfold consume
  cases hl : st.loop with
  | none => exact Or.inl rfl
  | some l =>
      cases ha : l.attended with
      | false => exact Or.inl (by simp only [ha, Bool.not_false, if_true])
      | true =>
          simp only [ha, Bool.not_true, Bool.false_eq_true, if_false]
          cases hq : l.queue with
          | cons p rest =>
              rw [Loop.take?_eq_some.2 ⟨rest, hq, rfl⟩]
              exact Or.inr ⟨l, rfl, ha, Or.inl ⟨p, rest, hq, rfl⟩⟩
          | nil =>
              have ht : l.take? = none := by rw [Loop.take?, hq]
              simp only [ht]
              split
              · next he => exact Or.inr ⟨l, rfl, ha, Or.inr ⟨hq, he, rfl⟩⟩
              · exact Or.inl rfl

/-- The queue is dropped where there is one that somebody attends to. -/
theorem dropQueue_cases (st : Station σ) :
    ((∀ l ∈ st.loop, l.attended = false) ∧ st.dropQueue.2 = st) ∨
    ∃ l, st.loop = some l ∧ l.attended = true ∧ st.dropQueue.2 =
      { st.withSession (Session.dropPackets l.queue st.session).2 with
        loop := l.abandoned.kept? } := by
  unfold dropQueue
  cases hl : st.loop with
  | none => exact Or.inl ⟨fun _ hn => (nomatch hn), rfl⟩
  | some l =>
      cases ha : l.attended with
      | false =>
          refine Or.inl ⟨fun l' h' => ?_, by simp only [ha, Bool.not_false, if_true]⟩
          cases h'
          exact ha
      | true =>
          refine Or.inr ⟨l, rfl, ha, ?_⟩
          simp only [ha, Bool.not_true, Bool.false_eq_true, if_false]

end Station

/-! ## What is asked on the way -/

/-- What is asked of buffers and packets of sessions with a driver, and why it can be asked. -/
structure Custody {σ : Type} (D : Driver σ) where
  /-- Asked of a buffer that no packet holds. -/
  buffer : Buffer → Prop
  /-- Asked of a packet. -/
  packet : Packet → Prop
  /-- Asked of bytes written into storage at an offset, for a packet of a length. -/
  admits : Nat → Bytes → Nat → Prop
  blank : buffer (.ofStorage .blank)
  release : ∀ b, buffer b → buffer (.ofStorage (b.storage.clear 0 b.len))
  ofBuffer : ∀ b a, buffer b → packet (.ofBuffer b a)
  append : ∀ b data b', buffer b → b.append? data = some b' → buffer b'
  write : ∀ s offset data len b, buffer (.ofStorage s) → admits offset data len →
    (Buffer.ofStorage s).writeStorage? offset data = some b →
      (b.setLen? len = none → buffer b) ∧ ∀ b', b.setLen? len = some b' → buffer b'
  receive : ∀ s t c n a b, buffer (.ofStorage s) → D.recv s.bytes t = some c →
    c.answer.result = .ok (n, a) →
      ((Buffer.ofStorage s).overwrite 0 c.answer.bytes).setLen? n = some b → buffer b
  run : ∀ p op, packet p → packet (p.run op).2
  checksums : ∀ p s, packet p → packet (p.recomputed (D.checksums p.contents p.address s).answer)
  retire : ∀ p, packet p → ∃ b, p.retire = .ok b ∧ buffer b

namespace Custody

variable {σ : Type} {D : Driver σ} (C : Custody D)

/-! ## Sessions -/

/-- All idle storage of a session is as asked. -/
def Guards (s : Session σ) : Prop := ∀ t ∈ s.pool.idle, C.buffer (.ofStorage t)

variable {C} {s : Session σ}

theorem Guards.of_pool {s' : Session σ} (h : C.Guards s) (hp : s'.pool = s.pool) :
    C.Guards s' := by
  unfold Guards
  rw [hp]
  exact h

theorem Guards.acquire (h : C.Guards s) :
    (∃ t, s.acquire.1 = .ofStorage t ∧ C.buffer s.acquire.1) ∧ C.Guards s.acquire.2 := by
  simp only [Session.acquire, Pool.acquire]
  unfold Guards at h
  split
  · next t rest hidle =>
      rw [hidle] at h
      exact ⟨⟨t, rfl, h t (List.mem_cons_self ..)⟩, fun u hu => h u (List.mem_cons_of_mem _ hu)⟩
  · next hidle =>
      exact ⟨⟨.blank, rfl, C.blank⟩, h⟩

theorem Guards.dropBuffer {b : Buffer} (h : C.Guards s) (hb : C.buffer b) :
    C.Guards (s.dropBuffer b) := by
  unfold Guards Session.dropBuffer Pool.drop Pool.store
  split
  · intro t ht
    rcases List.mem_cons.1 ht with rfl | ht
    · exact C.release b hb
    · exact h t ht
  · exact h

theorem Guards.dropPacket {p : Packet} (h : C.Guards s) (hp : C.packet p) :
    (s.dropPacket p).1 = .ok () ∧ C.Guards (s.dropPacket p).2 := by
  obtain ⟨b, hr, hb⟩ := C.retire p hp
  unfold Session.dropPacket
  rw [hr]
  exact ⟨rfl, h.dropBuffer hb⟩

theorem Guards.dropPackets {ps : List Packet} (h : C.Guards s) (hp : ∀ p ∈ ps, C.packet p) :
    (Session.dropPackets ps s).1 = .ok () ∧ C.Guards (Session.dropPackets ps s).2 := by
  induction ps generalizing s with
  | nil => exact ⟨rfl, h⟩
  | cons p ps ih =>
      have hd := h.dropPacket (hp p (List.mem_cons_self ..))
      unfold Session.dropPackets
      split
      · next e s' he =>
          rw [he] at hd
          cases hd.1
      · next s' he =>
          rw [he] at hd
          exact ih hd.2 fun q hq => hp q (List.mem_cons_of_mem _ hq)

/-- What comes of an attempt to get a packet: the session is still as asked, and so is the packet
if there is one. -/
def Yields (C : Custody D) (r : Except Fault Packet × Session σ) : Prop :=
  (∀ p, r.1 = .ok p → C.packet p) ∧ C.Guards r.2

theorem Guards.yields_ok {p : Packet} (h : C.Guards s) (hp : C.packet p) :
    C.Yields (.ok p, s) := by
  refine ⟨fun q hq => ?_, h⟩
  cases hq
  exact hp

theorem Guards.yields_error (e : Fault) (h : C.Guards s) : C.Yields (.error e, s) :=
  ⟨fun _ hq => (nomatch hq), h⟩

theorem Guards.packetOfBytes (b : Bytes) (a : Address) (h : C.Guards s) :
    C.Yields (s.packetOfBytes b a) := by
  obtain ⟨⟨t, -, hb⟩, hs⟩ := h.acquire
  simp only [Session.packetOfBytes]
  split
  · next b' hb' =>
      exact hs.yields_ok (C.ofBuffer _ _ (C.append _ _ _ hb hb'))
  · exact (hs.dropBuffer hb).yields_error _

theorem Guards.packetOfStorage {offset len : Nat} {b : Bytes} (a : Address) (h : C.Guards s)
    (hallow : C.admits offset b len) : C.Yields (s.packetOfStorage offset b len a) := by
  obtain ⟨⟨t, ht, hb⟩, hs⟩ := h.acquire
  simp only [Session.packetOfStorage]
  split
  · exact (hs.dropBuffer hb).yields_error _
  · next b1 hb1 =>
      rw [ht] at hb hb1
      have hw := C.write t offset b len b1 hb hallow hb1
      split
      · next hnone => exact (hs.dropBuffer (hw.1 hnone)).yields_error _
      · next b2 hb2 =>
          exact hs.yields_ok (C.ofBuffer _ _ (hw.2 _ hb2))

/-- Storage that is wiped is blank, whatever was in it. -/
theorem buffer_wiped (C : Custody D) (t : Storage) :
    C.buffer (.ofStorage (t.clear 0 bufferSize)) := by
  have hz : (t.clear 0 bufferSize).ZeroFrom 0 := by
    intro i _
    rw [Storage.byte_clear]
    split
    · rfl
    · exact Bytes.byte_of_size_le (by rw [t.size_eq]; omega)
  rw [Storage.eq_blank_of_zeroFrom_zero hz]
  exact C.blank

theorem Guards.received {t : Storage} {u : σ} {c : Call σ Reception} (h : C.Guards s)
    (ht : C.buffer (.ofStorage t)) (hc : D.recv t.bytes u = some c) :
    C.Yields (s.received D (.ofStorage t) c) := by
  have hs : C.Guards (s.afterCall D c) := h.of_pool (Session.pool_afterCall c s)
  simp only [Session.received]
  split
  -- whatever a driver wrote before it failed is wiped with the whole buffer
  · exact (hs.dropBuffer (buffer_wiped C _)).yields_error _
  · next n a hr =>
      split
      · exact (hs.dropBuffer (buffer_wiped C _)).yields_error _
      · next hle =>
          split
          · next b hb =>
              exact hs.yields_ok (C.ofBuffer _ _ (C.receive t u c n a b ht hc hr hb))
          · next hnone =>
              rw [Buffer.setLen?, dif_pos (by omega)] at hnone
              cases hnone

theorem Guards.finishRecv {t : Storage} {r : Except Fault Packet × Session σ} (h : C.Guards s)
    (ht : C.buffer (.ofStorage t)) (hr : s.finishRecv D (.ofStorage t) = some r) :
    C.Yields r := by
  obtain ⟨c, hc, rfl⟩ := Option.map_eq_some_iff.1 hr
  exact h.received ht hc

theorem Guards.startRecv (h : C.Guards s) :
    (∀ b, s.startRecv.1 = .ok b → ∃ t, b = .ofStorage t ∧ C.buffer b) ∧
      C.Guards s.startRecv.2 := by
  obtain ⟨⟨t, ht, hb⟩, hs⟩ := h.acquire
  simp only [Session.startRecv]
  split
  · refine ⟨fun b he => ?_, hs⟩
    cases he
    exact ⟨t, ht, hb⟩
  · exact ⟨fun b he => (nomatch he), h⟩

theorem Guards.recv {r : Except Fault Packet × Session σ} (h : C.Guards s)
    (hr : s.recv D = some r) : C.Yields r := by
  obtain ⟨hb, hs⟩ := h.startRecv
  unfold Session.recv at hr
  split at hr
  · next e s' he =>
      cases hr
      rw [he] at hs
      exact hs.yields_error _
  · next b s' he =>
      rw [he] at hs hb
      obtain ⟨t, rfl, ht⟩ := hb b rfl
      exact Guards.finishRecv hs ht hr

theorem packet_checksums {p : Packet} (hp : C.packet p) (s : Session σ) :
    C.packet (s.checksums D p).2.1 := by
  rw [s.packet_checksums p]
  exact C.checksums p s.device hp

theorem Guards.checksums {p : Packet} (h : C.Guards s) : C.Guards (s.checksums D p).2.2 :=
  h.of_pool (Session.pool_checksums p s)

/-- A packet that was to be injected is given up without a fault. -/
theorem Guards.giveUp {p : Packet} (r : Except Error Nat) (h : C.Guards s) (hp : C.packet p) :
    (s.giveUp r p).1 = r.mapError .refused ∧ C.Guards (s.giveUp r p).2 := by
  have hd := h.dropPacket hp
  unfold Session.giveUp
  split
  · next f s' he =>
      rw [he] at hd
      cases hd.1
  · next s' he =>
      rw [he] at hd
      exact ⟨rfl, hd.2⟩

theorem Guards.injectAsIs {p : Packet} (h : C.Guards s) (hp : C.packet p) :
    (∃ r : Except Error Nat, (s.injectAsIs D p).1 = r.mapError .refused) ∧
      C.Guards (s.injectAsIs D p).2 := by
  have hg := (h.of_pool (Session.pool_send (D := D) p s)).giveUp (s.send D p).1 hp
  exact ⟨⟨_, hg.1⟩, hg.2⟩

/-- Injecting a packet gives it up, with whatever came of it. -/
theorem Guards.inject {p : Packet} (h : C.Guards s) (hp : C.packet p) :
    (∃ r : Except Error Nat, (s.inject D p).1 = r.mapError .refused) ∧
      C.Guards (s.inject D p).2 := by
  have hp' := packet_checksums hp s
  have hs' : C.Guards (s.checksums D p).2.2 := h.checksums
  unfold Session.inject
  split
  · split
    · next e q s' he =>
        rw [he] at hp' hs'
        have hreport : C.Guards (s'.report (.packetDropped e)) := hs'.of_pool rfl
        have hg := hreport.giveUp (.error e) hp'
        exact ⟨⟨_, hg.1⟩, hg.2⟩
    · next q s' he =>
        rw [he] at hp' hs'
        exact hs'.injectAsIs hp'
  · exact h.injectAsIs hp

/-! ## Receive loops -/

/-- What a loop holds is as asked. -/
structure GuardsLoop (C : Custody D) (l : Loop) : Prop where
  waiting : ∀ b, l.phase = .waiting b → ∃ t, b = .ofStorage t ∧ C.buffer b
  publishing : ∀ p, l.phase = .publishing p → C.packet p
  queue : ∀ p ∈ l.queue, C.packet p

/-- A loop and its session are as asked. -/
def GuardsBoth (C : Custody D) (r : Loop × Session σ) : Prop := C.GuardsLoop r.1 ∧ C.Guards r.2

variable {l : Loop}

theorem Guards.stop (why : Record) (hl : C.GuardsLoop l) (h : C.Guards s) :
    C.GuardsBoth (l.stop D why s) :=
  ⟨⟨fun _ hp => (nomatch hp), fun _ hp => (nomatch hp), hl.queue⟩,
    h.of_pool (Session.pool_leave _)⟩

theorem Guards.breakOff (hl : C.GuardsLoop l) (h : C.Guards s) :
    C.GuardsBoth (l.breakOff D s) :=
  ⟨⟨fun _ hp => (nomatch hp), fun _ hp => (nomatch hp), hl.queue⟩,
    h.of_pool (Session.pool_leave _)⟩

theorem GuardsLoop.received {r : Except Fault Packet × Session σ} (hl : C.GuardsLoop l)
    (h : C.Yields r) : C.GuardsBoth (l.received D r) := by
  obtain ⟨hp, hs⟩ := h
  unfold Loop.received
  split
  · next p s' =>
      refine ⟨⟨fun _ he => (nomatch he), fun q he => ?_, hl.queue⟩, hs⟩
      cases he
      exact hp p rfl
  · exact hs.stop _ hl
  · exact hs.breakOff hl

/-- One move of the loop. -/
theorem GuardsLoop.move {r : Loop × Session σ} (hl : C.GuardsLoop l) (h : C.Guards s)
    (hm : l.move D s = some r) : C.GuardsBoth r := by
  unfold Loop.move at hm
  split at hm
  -- about to receive
  · obtain ⟨hb, hs⟩ := h.startRecv
    split at hm
    · next e s' he =>
        cases hm
        rw [he] at hs
        exact Guards.stop _ hl hs
    · next b s' he =>
        cases hm
        rw [he] at hb hs
        refine ⟨⟨fun b' hw => ?_, fun _ hw => (nomatch hw), hl.queue⟩, hs⟩
        cases hw
        exact hb b rfl
  -- waiting for the driver
  · next b hw =>
      obtain ⟨t, rfl, ht⟩ := hl.waiting b hw
      obtain ⟨r', hr', rfl⟩ := Option.map_eq_some_iff.1 hm
      exact hl.received (h.finishRecv ht hr')
  -- with a packet to publish
  · next p hw =>
      have hp := hl.publishing p hw
      split at hm
      · split at hm
        · cases hm
          refine ⟨⟨fun _ he => (nomatch he), fun _ he => (nomatch he), fun q hq => ?_⟩, h⟩
          rcases List.mem_append.1 hq with hq | hq
          · exact hl.queue q hq
          · rw [List.mem_singleton.1 hq]
            exact hp
        · cases hm
      · have hd := h.dropPacket hp
        split at hm
        · next s' he =>
            cases hm
            rw [he] at hd
            exact hd.2.stop _ hl
        · next e s' he =>
            rw [he] at hd
            cases hd.1
  -- at its end, one way or the other
  · cases hm
  · cases hm

theorem Guards.ofCapacity (n : Nat) : C.GuardsLoop (.ofCapacity n) :=
  ⟨fun _ hw => (nomatch hw), fun _ hw => (nomatch hw), fun _ hq => (nomatch hq)⟩

/-! ## Stations -/

/-- Everything a station holds is as asked. -/
structure GuardsStation (C : Custody D) (st : Station σ) : Prop where
  session : C.Guards st.session
  slots : ∀ i p, st.slot? i = some p → C.packet p
  loop : ∀ l ∈ st.loop, C.GuardsLoop l

/-- What a step writes into storage is admitted. All other steps are. -/
def Admits (C : Custody D) : Station.Step → Prop
  | .newFromStorage _ offset b len _ => C.admits offset b len
  | _ => True

variable {st : Station σ}

theorem guardsStation_ofSession (h : C.Guards s) : C.GuardsStation (.ofSession s) :=
  ⟨h, fun _ _ hp => (nomatch hp), fun _ hl => (nomatch hl)⟩

namespace GuardsStation

theorem withSession (h : C.GuardsStation st) (hs : C.Guards s) :
    C.GuardsStation (st.withSession s) := ⟨hs, h.slots, h.loop⟩

theorem setSlot {p : Option Packet} (i : Slot) (h : C.GuardsStation st)
    (hp : ∀ q, p = some q → C.packet q) : C.GuardsStation (st.setSlot i p) := by
  refine ⟨h.session, fun j q hq => ?_, h.loop⟩
  rw [Station.slot?_setSlot] at hq
  split at hq
  · exact hp q hq
  · exact h.slots j q hq

theorem setLoop {l : Option Loop} (h : C.GuardsStation st) (hl : ∀ l' ∈ l, C.GuardsLoop l') :
    C.GuardsStation { st with loop := l } := ⟨h.session, h.slots, hl⟩

theorem clearSlot (i : Slot) (h : C.GuardsStation st) :
    (st.clearSlot i).1 = .ok () ∧ C.GuardsStation (st.clearSlot i).2 := by
  unfold Station.clearSlot
  split
  · exact ⟨rfl, h⟩
  · next p hp =>
      obtain ⟨hr, hs⟩ := h.session.dropPacket (h.slots i p hp)
      exact ⟨hr, (h.withSession hs).setSlot i fun _ hq => (nomatch hq)⟩

theorem place {r : Except Fault Packet} (i : Slot) (h : C.GuardsStation st)
    (hr : ∀ p, r = .ok p → C.packet p) : C.GuardsStation (st.place i r).2 := by
  unfold Station.place
  split
  · exact h
  · exact h
  · next p =>
      refine (h.clearSlot i).2.setSlot i fun q hq => ?_
      cases hq
      exact hr p rfl

/-- A new packet goes into a slot, with the session it was made in. -/
theorem placeWith {r : Except Fault Packet × Session σ} (i : Slot) (h : C.GuardsStation st)
    (hr : C.Yields r) : C.GuardsStation ((st.withSession r.2).place i r.1).2 :=
  (h.withSession hr.2).place i hr.1

theorem onHolder {n : Nat} {act : Unit → Station.Answer × Station σ} (h : C.GuardsStation st)
    (ha : C.GuardsStation (act ()).2) : C.GuardsStation (st.onHolder n act).2 := by
  unfold Station.onHolder
  split
  · exact ha
  · exact h

theorem onPacket {i : Slot} {act : Packet → Station.Answer × Packet × Session σ}
    (h : C.GuardsStation st)
    (ha : ∀ p, C.packet p → C.packet (act p).2.1 ∧ C.Guards (act p).2.2) :
    C.GuardsStation (st.onPacket i act).2 := by
  unfold Station.onPacket
  split
  · exact h
  · next p hp =>
      obtain ⟨hq, hs⟩ := ha p (h.slots i p hp)
      refine (h.withSession hs).setSlot i fun q he => ?_
      cases he
      exact hq

theorem onPacketWith {i : Slot} {n : Nat} {act : Packet → Station.Answer × Packet × Session σ}
    (h : C.GuardsStation st)
    (ha : ∀ p, C.packet p → C.packet (act p).2.1 ∧ C.Guards (act p).2.2) :
    C.GuardsStation (st.onPacketWith i n act).2 := by
  unfold Station.onPacketWith
  split
  · exact h.onHolder (h.onPacket ha)
  · exact h

theorem startWith {start : Session σ → Except Fault Loop × Session σ} (h : C.GuardsStation st)
    (hs : Loop.Starts st.session (start st.session)) :
    C.GuardsStation (st.startWith start).2 := by
  rcases Station.startWith_cases hs with he | ⟨-, -, he⟩ <;> rw [he]
  · exact h
  · refine ⟨h.session, h.slots, fun l hl => ?_⟩
    cases hl
    exact Guards.ofCapacity _

theorem kept? {l : Loop} (hl : C.GuardsLoop l) : ∀ l' ∈ l.kept?, C.GuardsLoop l' := by
  intro l' h'
  unfold Loop.kept? at h'
  split at h'
  · cases h'
  · cases h'
    exact hl

theorem moveLoop? {st' : Station σ} (h : C.GuardsStation st) (hm : st.moveLoop? D = some st') :
    C.GuardsStation st' := by
  obtain ⟨l, hl, hm⟩ := Option.bind_eq_some_iff.1 hm
  obtain ⟨r, hr, rfl⟩ := Option.map_eq_some_iff.1 hm
  obtain ⟨hl', hs'⟩ := (h.loop l hl).move h.session hr
  exact (h.withSession hs').setLoop (kept? hl')

theorem consume (i : Slot) (h : C.GuardsStation st) : C.GuardsStation (st.consume i).2 := by
  rcases st.consume_cases i with he | ⟨l, hl, -, ⟨p, rest, hq, he⟩ | ⟨-, -, he⟩⟩ <;> rw [he]
  · exact h
  · have hg := h.loop l hl
    have hqueue := hg.queue
    rw [hq] at hqueue
    have hl' : C.GuardsLoop { l with queue := rest } :=
      ⟨hg.waiting, hg.publishing, fun x hx => hqueue x (List.mem_cons_of_mem _ hx)⟩
    refine ((h.clearSlot i).2.setLoop fun l'' h'' => ?_).setSlot i fun x hx => ?_
    · cases h''
      exact hl'
    · cases hx
      exact hqueue _ (List.mem_cons_self ..)
  · exact (h.clearSlot i).2.setLoop fun _ hn => (nomatch hn)

theorem dropQueue (h : C.GuardsStation st) : C.GuardsStation st.dropQueue.2 := by
  rcases st.dropQueue_cases with ⟨-, he⟩ | ⟨l, hl, -, he⟩ <;> rw [he]
  · exact h
  · have hg := h.loop l hl
    refine (h.withSession (h.session.dropPackets hg.queue).2).setLoop (kept? ?_)
    exact ⟨hg.waiting, hg.publishing, fun _ hq => (nomatch hq)⟩

/-- **One step** keeps everything a station holds as asked. -/
theorem step {x : Station.Step} (h : C.GuardsStation st) (hx : C.Admits x) :
    C.GuardsStation (st.step D x).2 := by
  cases x with
  | packet i op => exact h.onPacket fun p hp => ⟨C.run p op hp, h.session⟩
  | checksums i n =>
      exact h.onPacketWith fun p hp => ⟨packet_checksums hp _, h.session.checksums⟩
  | evalFilter i n f =>
      exact h.onPacketWith fun p hp => ⟨hp, h.session.of_pool (Session.pool_evalFilter ..)⟩
  | sendKept i n =>
      exact h.onPacketWith fun p hp => ⟨hp, h.session.of_pool (Session.pool_send ..)⟩
  | newPacket i b a => exact h.placeWith i (h.session.packetOfBytes b a)
  | newFromStorage i offset b len a =>
      exact h.placeWith i (h.session.packetOfStorage a hx)
  | recv i n =>
      refine h.onHolder ?_
      split
      · exact h
      · next r s hr => exact h.placeWith i (h.session.recv hr)
  | dropPacket i => exact (h.clearSlot i).2
  | inject i n =>
      refine h.onHolder ?_
      split
      · exact h
      · next p hp =>
          exact (h.withSession (h.session.inject (h.slots i p hp)).2).setSlot i
            fun _ hq => (nomatch hq)
  | share n => exact h.onHolder ⟨h.session, h.slots, h.loop⟩
  | close n => exact h.onHolder (h.withSession (h.session.of_pool (Session.pool_close _)))
  | leave n =>
      exact h.onHolder ⟨h.session.of_pool (Session.pool_leave _), h.slots, h.loop⟩
  | startLoop n host => exact h.onHolder (h.startWith (Loop.starts_start ..))
  | startLoopOnRuntime n runtime =>
      exact h.onHolder (h.startWith (Loop.starts_startOnRuntime ..))
  | moveLoop =>
      simp only [Station.step]
      cases hm : st.moveLoop? D with
      | none => exact h
      | some st' => exact h.moveLoop? hm
  | consume i => exact h.consume i
  | dropQueue => exact h.dropQueue

/-- Any steps keep everything a station holds as asked. -/
theorem run {xs : List Station.Step} (h : C.GuardsStation st) (hx : ∀ x ∈ xs, C.Admits x) :
    C.GuardsStation (Station.run D xs st) := by
  induction xs generalizing st with
  | nil => exact h
  | cons x xs ih =>
      exact ih (h.step (hx x (List.mem_cons_self ..))) fun y hy =>
        hx y (List.mem_cons_of_mem _ hy)

end GuardsStation

/-- **From a session whose pool is as asked, any steps lead to a station that is so in all its
parts.** -/
theorem guards_run {xs : List Station.Step} (h : C.Guards s) (hx : ∀ x ∈ xs, C.Admits x) :
    C.GuardsStation (Station.run D xs (.ofSession s)) :=
  (guardsStation_ofSession h).run hx

/-! ## Packets that fit -/

/-- Of packets it is asked that they fit, and of buffers nothing. Every driver lives up to that. -/
def fitting (D : Driver σ) : Custody D where
  buffer _ := True
  packet := Packet.Fits
  admits _ _ _ := True
  blank := trivial
  release _ _ := trivial
  ofBuffer b a _ := Packet.fits_ofBuffer b a
  append _ _ _ _ _ := trivial
  write _ _ _ _ _ _ _ _ := ⟨fun _ => trivial, fun _ _ => trivial⟩
  receive _ _ _ _ _ _ _ _ _ _ := trivial
  run p op := Packet.kept_of_effects (fun _ _ h he => h.effect he) (p.effects_run op)
  checksums _ _ hp := hp.rewrite _ _
  retire _ hp :=
    have ⟨b, hb⟩ := hp.retire_eq_ok
    ⟨b, hb, trivial⟩

/-- Whatever the driver does and whatever the steps, every packet of a station fits. -/
theorem fits_run (D : Driver σ) (xs : List Station.Step) (s : Session σ) :
    (fitting D).GuardsStation (Station.run D xs (.ofSession s)) :=
  guards_run (C := fitting D) (fun _ _ => trivial) fun x _ => by cases x <;> trivial

end Custody

end Intercept
