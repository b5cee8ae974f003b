import Intercept.Driver.Memory
import Intercept.Loop
import Intercept.Proofs.Packet.Extent

set_option autoImplicit false

/-! # What a receive loop delivers

A receive loop with the memory driver, its consumer, and whoever feeds the driver or closes the
session take their steps in any order. `Delivery.Step` is one of these steps. The driver waits for a
packet and for the session to be closed at the same time, and when both have come it may answer
either way, so a loop that waits may still take a packet after the close.

Along any steps the packets that were fed are, in their order and with their bytes, those consumed,
those in the queue, the one the loop holds and those the driver still has
(`Delivery.delivers`). The one exception is a packet too long for a buffer: it is lost, and the loop
has stopped. After a close at most one more packet is taken and at most one more is published, which
is carried by what the phase of the loop still allows (`Delivery.AfterClose`). -/

namespace Intercept

/-! ## What changes neither the packets in the driver nor a close -/

/-- The driver has the packets it had, and a closed session is still closed, with its driver. -/
structure Session.Quiet (s s' : Session Memory) : Prop where
  pending : s'.device.pending = s.device.pending
  stays : s.isOpen = false → s'.isOpen = false
  shut : (s.isOpen = false → s.device.closed = true) →
    s'.isOpen = false → s'.device.closed = true

namespace Session.Quiet

variable {s s' s'' : Session Memory}

theorem of_eq (hd : s'.device = s.device) (ho : s'.isOpen = s.isOpen) : s.Quiet s' := by
  refine ⟨by rw [hd], fun h => ho.trans h, fun hs h => ?_⟩
  rw [hd]
  exact hs (ho.symm.trans h)

theorem refl (s : Session Memory) : s.Quiet s := of_eq rfl rfl

theorem trans (h : s.Quiet s') (h' : s'.Quiet s'') : s.Quiet s'' :=
  ⟨h'.pending.trans h.pending, fun ho => h'.stays (h.stays ho), fun hs => h'.shut (h.shut hs)⟩

theorem close (s : Session Memory) : s.Quiet (s.close Memory.driver).2 := by
  unfold Session.close
  split
  · exact ⟨rfl, fun _ => rfl, fun _ _ => rfl⟩
  · exact refl s

theorem leave (s : Session Memory) : s.Quiet (s.leave Memory.driver) := by
  have hfewer : s.Quiet { s with holders := s.holders - 1 } := of_eq rfl rfl
  have hclose := close { s with holders := s.holders - 1 }
  simp only [Session.leave]
  split
  · split
    · next e s' he =>
        rw [he] at hclose
        exact (hfewer.trans hclose).trans (of_eq rfl rfl)
    · next s' he =>
        rw [he] at hclose
        exact hfewer.trans hclose
  · exact hfewer

theorem dropPacket (p : Packet) (s : Session Memory) : s.Quiet (s.dropPacket p).2 := by
  unfold Session.dropPacket
  split <;> exact of_eq rfl rfl

theorem dropPackets (ps : List Packet) (s : Session Memory) :
    s.Quiet (Session.dropPackets ps s).2 := by
  induction ps generalizing s with
  | nil => exact refl s
  | cons p ps ih =>
      have hp := dropPacket p s
      unfold Session.dropPackets
      split
      · next e s' he => rwa [he] at hp
      · next s' he =>
          rw [he] at hp
          exact hp.trans (ih s')

end Session.Quiet

/-! ## What one move of the loop comes to -/

/-- The driver with other packets to give. -/
def Memory.withPending (ps : List (Bytes × Address)) (m : Memory) : Memory :=
  { m with pending := ps }

/-- The bytes of a packet, and its address. -/
def Packet.view (p : Packet) : Bytes × Address := (p.contents, p.address)

/-- Bytes that were written to the front of a buffer are its contents, cut to their number. -/
theorem Buffer.contents_setLen? {b b' : Buffer} {data : Bytes}
    (h : (b.overwrite 0 (b.storage.bytes.overwrite 0 data)).setLen? data.size = some b') :
    b'.contents = data := by
  obtain ⟨hn, hs, hl⟩ := Buffer.setLen?_eq_some.1 h
  refine Bytes.ext_byte (by rw [size_contents, hl]) fun i hi => ?_
  rw [byte_contents, if_pos (by omega), hs, Storage.byte_clear, if_neg (by omega), overwrite,
    Storage.byte_overwrite, Bytes.size_overwrite, b.storage.size_eq, if_pos (by omega),
    Bytes.byte_overwrite, b.storage.size_eq, if_pos (by omega)]
  rfl

namespace Session

variable {x : Bytes × Address} (b : Buffer) (m : Memory) (s : Session Memory)

/-- A packet that fits into a buffer is received as it was fed, its headers not looked for. -/
theorem received_of_le (hx : x.1.size ≤ bufferSize) :
    ∃ p, p.view = x ∧ p.layout = none ∧
      s.received Memory.driver b (Memory.receive b.storage.bytes (.ok x) m) =
        (.ok p, { s with device := m }) := by
  obtain ⟨data, a⟩ := x
  have hx : data.size ≤ bufferSize := hx
  have hcall : Memory.receive b.storage.bytes (.ok (data, a)) m =
      .plain ⟨b.storage.bytes.overwrite 0 data, .ok (data.size, a)⟩ m := by
    simp only [Memory.receive, Memory.within, b.storage.size_eq]
    rw [if_neg (by omega)]
    rfl
  obtain ⟨b', hb⟩ : ∃ b', (b.overwrite 0 (b.storage.bytes.overwrite 0 data)).setLen? data.size =
      some b' := ⟨_, dif_pos hx⟩
  refine ⟨.ofBuffer b' a, congrArg (·, a) (Buffer.contents_setLen? hb), rfl, ?_⟩
  rw [hcall]
  simp only [received, Call.plain, if_neg (show ¬bufferSize < data.size by omega), hb]
  rfl

/-- A driver that reports an error leaves the session with nothing but an error and the buffer. -/
theorem received_error {e : DeviceError} {bytes : Bytes} :
    ∃ f b', s.received Memory.driver b (.plain ⟨bytes, .error e⟩ m) =
      (.error (.refused f), dropBuffer b' { s with device := m }) :=
  ⟨_, _, rfl⟩

/-- A packet that does not fit into a buffer is refused. -/
theorem received_of_lt (hx : bufferSize < x.1.size) :
    ∃ f b', s.received Memory.driver b (Memory.receive b.storage.bytes (.ok x) m) =
      (.error (.refused f), dropBuffer b' { s with device := m }) := by
  have hcall : Memory.receive b.storage.bytes (.ok x) m =
      .plain ⟨b.storage.bytes.overwrite 0 .empty, .error Memory.tooSmallError⟩ m := by
    simp only [Memory.receive, Memory.within, b.storage.size_eq]
    rw [if_pos hx]
    rfl
  rw [hcall]
  exact received_error b m s

/-- A driver that is closed while it waits has nothing to give. -/
theorem received_closed :
    ∃ f b', s.received Memory.driver b
        (Memory.receive b.storage.bytes (.error Memory.closedError) s.device) =
      (.error (.refused f), s.dropBuffer b') :=
  received_error b s.device s

end Session

namespace Loop

variable {l : Loop} {s : Session Memory} {r : Loop × Session Memory}

/-- The packet that the loop holds, if it holds one. -/
def held (l : Loop) : List Packet :=
  match l.phase with
  | .publishing p => [p]
  | _ => []

/-- The loop waits for the driver. -/
def isWaiting (l : Loop) : Bool :=
  match l.phase with
  | .waiting _ => true
  | _ => false

/-- The loop has come to an end in a session where nothing else has happened. -/
def Ends (l : Loop) (s : Session Memory) (r : Loop × Session Memory) : Prop :=
  (r.1 = { l with phase := .stopped } ∨ r.1 = { l with phase := .broken }) ∧ s.Quiet r.2

theorem quiet_stop (why : Record) (l : Loop) (s : Session Memory) :
    s.Quiet (l.stop Memory.driver why s).2 := by
  have hreport : s.Quiet ((s.report why).report .loopStopped) := .of_eq rfl rfl
  exact hreport.trans (.leave _)

/-- A loop that is about to receive takes an empty buffer, or stops if the session is closed. -/
theorem move_ready (hp : l.phase = .ready) (hm : l.move Memory.driver s = some r) :
    (s.isOpen = true ∧ (∃ b, r.1 = { l with phase := .waiting b }) ∧ s.Quiet r.2) ∨
      (r.1 = { l with phase := .stopped } ∧ s.Quiet r.2) := by
  simp only [move, hp, Session.startRecv] at hm
  by_cases ho : s.isOpen = true
  · rw [if_pos ho] at hm
    cases hm
    exact Or.inl ⟨ho, ⟨_, rfl⟩, .of_eq rfl rfl⟩
  · rw [if_neg ho] at hm
    cases hm
    exact Or.inr ⟨rfl, quiet_stop ..⟩

/-- A loop that takes a packet holds it as it was fed, or loses it and stops if it is too long. -/
theorem take_cases (l : Loop) (s : Session Memory) (b : Buffer) (m : Memory)
    (x : Bytes × Address) :
    let r := l.received Memory.driver
      (s.received Memory.driver b (Memory.receive b.storage.bytes (.ok x) m))
    (∃ p, p.view = x ∧ r = ({ l with phase := .publishing p }, { s with device := m })) ∨
      (bufferSize < x.1.size ∧ r.1 = { l with phase := .stopped } ∧
        Session.Quiet { s with device := m } r.2) := by
  intro r
  rcases Nat.lt_or_ge bufferSize x.1.size with hx | hx
  · obtain ⟨f, b', hs⟩ := s.received_of_lt b m hx
    have hq : Session.Quiet { s with device := m } (Session.dropBuffer b' { s with device := m }) :=
      .of_eq rfl rfl
    simp only [r, hs]
    exact Or.inr ⟨hx, rfl, hq.trans (quiet_stop ..)⟩
  · obtain ⟨p, hp, -, hs⟩ := s.received_of_le b m hx
    simp only [r, hs]
    exact Or.inl ⟨p, hp, rfl⟩

/-- A loop that is told of the close stops. -/
theorem shutdown_cases (l : Loop) (s : Session Memory) (b : Buffer) :
    let r := l.received Memory.driver (s.received Memory.driver b
      (Memory.receive b.storage.bytes (.error Memory.closedError) s.device))
    r.1 = { l with phase := .stopped } ∧ s.Quiet r.2 := by
  intro r
  obtain ⟨f, b', hs⟩ := s.received_closed b
  have hq : s.Quiet (s.dropBuffer b') := .of_eq rfl rfl
  simp only [r, hs]
  exact ⟨rfl, hq.trans (quiet_stop ..)⟩

/-- A loop that holds a packet puts it into the queue if there is room, and comes to an end if
nobody is left to take it. -/
theorem move_publishing {p : Packet} (hp : l.phase = .publishing p)
    (hm : l.move Memory.driver s = some r) :
    (l.attended = true ∧ l.queue.length < l.capacity ∧
      r = ({ l with phase := .ready, queue := l.queue ++ [p] }, s)) ∨
    (l.attended = false ∧ l.Ends s r) := by
  simp only [move, hp] at hm
  by_cases ha : l.attended = true
  · rw [if_pos ha] at hm
    split at hm
    · next hroom =>
        cases hm
        exact Or.inl ⟨ha, hroom, rfl⟩
    · cases hm
  · rw [if_neg ha] at hm
    have hdrop := Session.Quiet.dropPacket p s
    refine Or.inr ⟨Bool.eq_false_of_not_eq_true ha, ?_⟩
    split at hm
    · next s' he =>
        cases hm
        rw [he] at hdrop
        exact ⟨Or.inl rfl, hdrop.trans (quiet_stop ..)⟩
    · next e s' he =>
        cases hm
        rw [he] at hdrop
        exact ⟨Or.inr rfl, hdrop.trans (.leave _)⟩

end Loop

/-! ## Steps -/

/-- A session with a memory driver and a receive loop, with what was fed to the driver and what the
consumer of the loop has taken so far. -/
structure Delivery where
  session : Session Memory
  loop : Loop
  fed : List (Bytes × Address)
  consumed : List Packet

namespace Delivery

/-- What a loop starts from: what the driver has was fed to it, and nothing is consumed yet. -/
def begin (l : Loop) (s : Session Memory) : Delivery := ⟨s, l, s.device.pending, []⟩

/-- The packets fed and not taken by the loop. -/
def pending (st : Delivery) : List (Bytes × Address) := st.session.device.pending

/-- The packets published so far. -/
def published (st : Delivery) : List Packet := st.consumed ++ st.loop.queue

/-- Go on with what a move of the loop came to. -/
def after (r : Loop × Session Memory) (st : Delivery) : Delivery :=
  { st with loop := r.1, session := r.2 }

/-- Go on with another state of the session. -/
def withSession (s : Session Memory) (st : Delivery) : Delivery := { st with session := s }

/-- One step of the feeder, the loop, the consumer, or whoever else has the session. -/
inductive Step : Delivery → Delivery → Prop where
  /-- A packet is fed to the driver. -/
  | feed {st : Delivery} {b : Bytes} {a : Address} {m : Memory} :
      st.session.device.feed b a = (.ok (), m) →
      Step st { st with session := { st.session with device := m }, fed := st.fed ++ [(b, a)] }
  /-- The loop turns to the driver. -/
  | turn {st : Delivery} {r : Loop × Session Memory} : st.loop.phase = .ready →
      st.loop.move Memory.driver st.session = some r → Step st (st.after r)
  /-- The driver answers with a packet, whether the session was closed meanwhile or not. -/
  | take {st : Delivery} {b : Buffer} {x : Bytes × Address} {rest : List (Bytes × Address)} :
      st.loop.phase = .waiting b → st.pending = x :: rest →
      Step st (st.after (st.loop.received Memory.driver (st.session.received Memory.driver b
        (Memory.receive b.storage.bytes (.ok x) (st.session.device.withPending rest)))))
  /-- The driver answers that it was closed. -/
  | shutdown {st : Delivery} {b : Buffer} : st.loop.phase = .waiting b →
      st.session.device.closed = true →
      Step st (st.after (st.loop.received Memory.driver (st.session.received Memory.driver b
        (Memory.receive b.storage.bytes (.error Memory.closedError) st.session.device))))
  /-- The loop publishes the packet it holds, or finds that nobody is left to take it. -/
  | publish {st : Delivery} {p : Packet} {r : Loop × Session Memory} :
      st.loop.phase = .publishing p → st.loop.move Memory.driver st.session = some r →
      Step st (st.after r)
  /-- The consumer takes the next packet from the queue. -/
  | consume {st : Delivery} {p : Packet} {l : Loop} : st.loop.attended = true →
      st.loop.take? = some (p, l) → Step st { st with loop := l, consumed := st.consumed ++ [p] }
  | close {st : Delivery} : Step st (st.withSession (st.session.close Memory.driver).2)
  /-- The consumer drops its end of the queue, and the packets in it. -/
  | abandon {st : Delivery} : st.loop.attended = true →
      Step st { st with
        session := (Session.dropPackets st.loop.queue st.session).2, loop := st.loop.abandoned }
  /-- Buffers are taken from the pool and given back. -/
  | pool {st : Delivery} (pool : Pool) : Step st (st.withSession { st.session with pool })

/-- Any number of steps. -/
abbrev Steps : Delivery → Delivery → Prop := Relation.ReflTransGen Step

/-- A move of the loop, in which the driver prefers the close, is a step. -/
theorem step_of_move {st : Delivery} {r : Loop × Session Memory}
    (h : st.loop.move Memory.driver st.session = some r) : Step st (st.after r) := by
  cases hp : st.loop.phase with
  | ready => exact .turn hp h
  | waiting b =>
      simp only [Loop.move, hp, Session.finishRecv] at h
      obtain ⟨q, hq, rfl⟩ := Option.map_eq_some_iff.1 h
      obtain ⟨c, hc, rfl⟩ := Option.map_eq_some_iff.1 hq
      obtain ⟨⟨y, m⟩, hy, rfl⟩ := Option.map_eq_some_iff.1 hc
      unfold Memory.next at hy
      -- here the driver looks for the close first, whatever it has
      split at hy
      · next hclosed =>
          cases hy
          exact .shutdown hp hclosed
      · split at hy
        · cases hy
        · next x rest hx =>
            cases hy
            exact .take hp hx
  | publishing p => exact .publish hp h
  | stopped =>
      simp only [Loop.move, hp] at h
      cases h
  | broken =>
      simp only [Loop.move, hp] at h
      cases h

/-! ## Every packet in its place -/

/-- The packets fed are those published, the one the loop holds and those the driver still has, but
for one that was too long and on which the loop has stopped. -/
def InOrder (st : Delivery) : Prop :=
  ∃ lost, st.fed = (st.published ++ st.loop.held).map Packet.view ++ lost ++ st.pending ∧
    (lost = [] ∨ ∃ x, lost = [x] ∧ bufferSize < x.1.size ∧ st.loop.phase = .stopped)

/-- What every step keeps. -/
structure Invariant (n : Nat) (st : Delivery) : Prop where
  capacity : st.loop.capacity = n
  room : st.loop.queue.length ≤ n
  shut : st.session.isOpen = false → st.session.device.closed = true
  order : st.loop.attended = true → st.InOrder

variable {st st' : Delivery} {n : Nat}

/-- A loop that has not stopped has lost nothing. -/
theorem InOrder.fed_eq (h : st.InOrder) (hp : st.loop.phase ≠ .stopped) :
    st.fed = (st.published ++ st.loop.held).map Packet.view ++ st.pending := by
  obtain ⟨lost, hfed, rfl | ⟨x, -, -, hs⟩⟩ := h
  · rw [hfed, List.append_nil]
  · exact absurd hs hp

theorem inOrder_of_eq
    (h : st.fed = (st.published ++ st.loop.held).map Packet.view ++ st.pending) : st.InOrder :=
  ⟨[], by rw [List.append_nil, h], Or.inl rfl⟩

/-- A step that moves no packet and starts no stopped loop again keeps the order. -/
theorem InOrder.keep (h : st.InOrder) (hfed : st'.fed = st.fed)
    (hpub : st'.published = st.published) (hheld : st'.loop.held = st.loop.held)
    (hpending : st'.pending = st.pending)
    (hstopped : st.loop.phase = .stopped → st'.loop.phase = .stopped) : st'.InOrder := by
  obtain ⟨lost, hall, hlost⟩ := h
  refine ⟨lost, by rw [hfed, hpub, hheld, hpending, hall], ?_⟩
  rcases hlost with rfl | ⟨x, rfl, hx, hs⟩
  · exact Or.inl rfl
  · exact Or.inr ⟨x, rfl, hx, hstopped hs⟩

/-- A driver that is fed is open, and has one packet more. -/
theorem feed_eq_ok {b : Bytes} {a : Address} {m m' : Memory} (h : m.feed b a = (.ok (), m')) :
    m.closed = false ∧ m' = { m with pending := m.pending ++ [(b, a)] } := by
  unfold Memory.feed at h
  split at h
  · cases h
  · next hc =>
      cases h
      exact ⟨Bool.eq_false_of_not_eq_true hc, rfl⟩

theorem held_of_ready {l : Loop} (h : l.phase = .ready) : l.held = [] := by
  simp only [Loop.held, h]

theorem held_of_waiting {l : Loop} {b : Buffer} (h : l.phase = .waiting b) : l.held = [] := by
  simp only [Loop.held, h]

/-- A loop that comes to hold nothing, and has held nothing, keeps what it has to. -/
theorem Invariant.of_phase {r : Loop × Session Memory} {ph : Loop.Phase}
    (h : st.Invariant n) (hr : r.1 = { st.loop with phase := ph })
    (hq : st.session.Quiet r.2) (hheld : r.1.held = st.loop.held)
    (hs : st.loop.phase = .stopped → ph = .stopped) : (st.after r).Invariant n := by
  obtain ⟨l, s⟩ := r
  cases hr
  refine ⟨h.capacity, h.room, hq.shut h.shut, fun ha => ?_⟩
  exact (h.order ha).keep rfl rfl hheld hq.pending hs

theorem Invariant.take {b : Buffer} {x : Bytes × Address} {rest : List (Bytes × Address)}
    (h : st.Invariant n) (hp : st.loop.phase = .waiting b) (hx : st.pending = x :: rest) :
    (st.after (st.loop.received Memory.driver (st.session.received Memory.driver b
      (Memory.receive b.storage.bytes (.ok x)
        (st.session.device.withPending rest))))).Invariant n := by
  have hfed : st.loop.attended = true → st.fed = st.published.map Packet.view ++ x :: rest :=
    fun ha => by
      have := (h.order ha).fed_eq (by rw [hp]; nofun)
      rwa [held_of_waiting hp, List.append_nil, hx] at this
  rcases Loop.take_cases st.loop st.session b (st.session.device.withPending rest) x with
    ⟨p, hview, hr⟩ | ⟨hlong, hr, hq⟩
  · rw [hr]
    refine ⟨h.capacity, h.room, h.shut, fun ha => inOrder_of_eq ?_⟩
    refine (hfed ha).trans ?_
    rw [List.map_append, List.append_assoc, ← hview]
    rfl
  · generalize st.loop.received _ _ = r at hr hq ⊢
    obtain ⟨l, s⟩ := r
    cases hr
    refine ⟨h.capacity, h.room, hq.shut h.shut, fun ha => ⟨[x], ?_, Or.inr ⟨x, rfl, hlong, rfl⟩⟩⟩
    have hpending : s.device.pending = rest := hq.pending
    -- the packet is lost, and the loop has stopped on it
    refine (hfed ha).trans ?_
    rw [List.map_append, List.append_assoc, List.append_assoc, ← hpending]
    rfl

/-- **One step** keeps every packet in its place. -/
theorem Invariant.step (h : st.Invariant n) (hs : Step st st') : st'.Invariant n := by
  cases hs with
  | feed hm =>
      obtain ⟨hopen, rfl⟩ := feed_eq_ok hm
      refine ⟨h.capacity, h.room, h.shut, fun ha => ?_⟩
      obtain ⟨lost, hfed, hlost⟩ := h.order ha
      refine ⟨lost, ?_, hlost⟩
      simp only [hfed, List.append_assoc]
      rfl
  | turn hp hm =>
      have hheld := held_of_ready hp
      rcases Loop.move_ready hp hm with ⟨-, ⟨b, hr⟩, hq⟩ | ⟨hr, hq⟩
      · exact h.of_phase hr hq (by rw [hheld, hr]; rfl) (by rw [hp]; nofun)
      · exact h.of_phase hr hq (by rw [hheld, hr]; rfl) fun _ => rfl
  | take hp hx => exact h.take hp hx
  | shutdown hp hc =>
      obtain ⟨hr, hq⟩ := Loop.shutdown_cases st.loop st.session _
      exact h.of_phase hr hq (by rw [held_of_waiting hp, hr]; rfl) fun _ => rfl
  | publish hp hm =>
      rcases Loop.move_publishing hp hm with ⟨ha, hroom, rfl⟩ | ⟨ha, hr, hq⟩
      · refine ⟨h.capacity, ?_, h.shut, fun _ => inOrder_of_eq ?_⟩
        · have := h.capacity
          simp only [after, List.length_append, List.length_singleton]
          omega
        · have hfed := (h.order ha).fed_eq (by rw [hp]; nofun)
          simp only [published, Loop.held, hp] at hfed
          simp only [published, Loop.held, after, List.append_nil, ← List.append_assoc]
          exact hfed
      · -- nobody is left to whom anything was promised
        rcases hr with hr | hr <;> rw [after, hr] <;>
          exact ⟨h.capacity, h.room, hq.shut h.shut, fun hn => absurd (ha.symm.trans hn) (by simp)⟩
  | consume ha ht =>
      obtain ⟨rest, hqueue, rfl⟩ := Loop.take?_eq_some.1 ht
      refine ⟨h.capacity, ?_, h.shut, fun _ => (h.order ha).keep rfl ?_ rfl rfl fun hs => hs⟩
      · have := h.room
        rw [hqueue] at this
        exact Nat.le_of_succ_le this
      · simp only [published, hqueue, List.append_assoc, List.singleton_append]
  | close =>
      have hq := Session.Quiet.close st.session
      exact ⟨h.capacity, h.room, hq.shut h.shut, fun ha =>
        (h.order ha).keep rfl rfl rfl hq.pending fun hs => hs⟩
  | abandon ha =>
      have hq := Session.Quiet.dropPackets st.loop.queue st.session
      exact ⟨h.capacity, Nat.zero_le _, hq.shut h.shut, fun hn => nomatch hn⟩
  | pool pool => exact ⟨h.capacity, h.room, h.shut, h.order⟩

theorem Invariant.steps (h : st.Invariant n) (hs : Steps st st') : st'.Invariant n := by
  induction hs with
  | refl => exact h
  | tail _ hs ih => exact ih.step hs

/-! ## After a close -/

/-- What the loop may still do after a close: it takes no packet unless it waits for one, and it
publishes none unless it waits or holds one. -/
structure AfterClose (st st' : Delivery) : Prop where
  isOpen : st'.session.isOpen = false
  fed : st'.fed = st.fed
  taken : st'.pending = st.pending ∨
    (∃ x, st.pending = x :: st'.pending) ∧ st'.loop.isWaiting = false
  published : st'.loop.attended = true → st'.published = st.published ∨
    (∃ p, st'.published = st.published ++ [p]) ∧ st'.loop.isWaiting = false ∧ st'.loop.held = []

namespace AfterClose

variable {st'' : Delivery}

theorem refl (h : st.session.isOpen = false) : AfterClose st st :=
  ⟨h, rfl, Or.inl rfl, fun _ => Or.inl rfl⟩

/-- A step that moves no packet and lets the loop do no more than before. -/
theorem keep (h : AfterClose st st') (hopen : st''.session.isOpen = false)
    (hfed : st''.fed = st'.fed) (hpending : st''.pending = st'.pending)
    (hpub : st''.loop.attended = true → st'.loop.attended = true ∧ st''.published = st'.published)
    (hwait : st'.loop.isWaiting = false → st''.loop.isWaiting = false)
    (hheld : st'.loop.isWaiting = false → st'.loop.held = [] → st''.loop.held = []) :
    AfterClose st st'' := by
  refine ⟨hopen, hfed.trans h.fed, ?_, fun ha => ?_⟩
  · rw [hpending]
    exact h.taken.imp_right fun hx => ⟨hx.1, hwait hx.2⟩
  · obtain ⟨ha, hsame⟩ := hpub ha
    rw [hsame]
    exact (h.published ha).imp_right fun hx => ⟨hx.1, hwait hx.2.1, hheld hx.2.1 hx.2.2⟩

/-- The loop has come to a phase in which it neither waits nor holds a packet. -/
theorem of_phase {r : Loop × Session Memory} {ph : Loop.Phase} (h : AfterClose st st')
    (hr : r.1 = { st'.loop with phase := ph }) (hq : st'.session.Quiet r.2)
    (hwait : r.1.isWaiting = false) (hheld : r.1.held = []) : AfterClose st (st'.after r) := by
  obtain ⟨l, s⟩ := r
  cases hr
  exact h.keep (hq.stays h.isOpen) rfl hq.pending (fun ha => ⟨ha, rfl⟩) (fun _ => hwait)
    fun _ _ => hheld

/-- The one packet that may still be taken. -/
theorem take {b : Buffer} {x : Bytes × Address} {rest : List (Bytes × Address)}
    (h : AfterClose st st') (hp : st'.loop.phase = .waiting b) (hx : st'.pending = x :: rest) :
    AfterClose st (st'.after (st'.loop.received Memory.driver
      (st'.session.received Memory.driver b
        (Memory.receive b.storage.bytes (.ok x) (st'.session.device.withPending rest))))) := by
  -- a loop that still waits has taken and published nothing since
  have hwaiting : st'.loop.isWaiting = true := by simp only [Loop.isWaiting, hp]
  have htaken : st.pending = x :: rest := by
    rcases h.taken with heq | ⟨-, hw⟩
    · rw [← heq, hx]
    · rw [hw] at hwaiting
      cases hwaiting
  have hpub : st'.loop.attended = true → st'.published = st.published := fun ha => by
    rcases h.published ha with heq | ⟨-, hw, -⟩
    · exact heq
    · rw [hw] at hwaiting
      cases hwaiting
  rcases Loop.take_cases st'.loop st'.session b (st'.session.device.withPending rest) x with
    ⟨p, -, hr⟩ | ⟨-, hr, hq⟩
  · rw [hr]
    exact ⟨h.isOpen, h.fed, Or.inr ⟨⟨x, htaken⟩, rfl⟩, fun ha => Or.inl (hpub ha)⟩
  · generalize st'.loop.received _ _ = r at hr hq ⊢
    obtain ⟨l, s⟩ := r
    cases hr
    have hpending : s.device.pending = rest := hq.pending
    refine ⟨hq.stays h.isOpen, h.fed, Or.inr ⟨⟨x, ?_⟩, rfl⟩, fun ha => Or.inl (hpub ha)⟩
    rw [htaken, ← hpending]
    rfl

/-- **One step** after a close. -/
theorem step (h : AfterClose st st') (hi : st'.Invariant n) (hs : Step st' st'') :
    AfterClose st st'' := by
  cases hs with
  | feed hm =>
      -- a closed driver cannot be fed
      have hclosed := (feed_eq_ok hm).1
      rw [hi.shut h.isOpen] at hclosed
      cases hclosed
  | turn hp hm =>
      rcases Loop.move_ready hp hm with ⟨ho, -⟩ | ⟨hr, hq⟩
      · rw [h.isOpen] at ho
        cases ho
      · exact h.of_phase hr hq (by rw [hr]; rfl) (by rw [hr]; rfl)
  | take hp hx => exact h.take hp hx
  | shutdown hp hc =>
      obtain ⟨hr, hq⟩ := Loop.shutdown_cases st'.loop st'.session _
      exact h.of_phase hr hq (by rw [hr]; rfl) (by rw [hr]; rfl)
  | publish hp hm =>
      rename_i p r
      rcases Loop.move_publishing hp hm with ⟨ha, hroom, rfl⟩ | ⟨ha, hr, hq⟩
      · have hheld : st'.loop.held = [p] := by simp only [Loop.held, hp]
        refine ⟨h.isOpen, h.fed, h.taken.imp_right fun hx => ⟨hx.1, rfl⟩, fun _ => Or.inr ?_⟩
        rcases h.published ha with heq | ⟨-, -, hnone⟩
        · refine ⟨⟨p, ?_⟩, rfl, rfl⟩
          rw [← heq]
          simp only [Delivery.published, after, List.append_assoc]
        · rw [hheld] at hnone
          cases hnone
      · rcases hr with hr | hr <;>
          exact h.of_phase hr hq (by rw [hr]; rfl) (by rw [hr]; rfl)
  | consume ha ht =>
      obtain ⟨rest, hqueue, rfl⟩ := Loop.take?_eq_some.1 ht
      refine h.keep h.isOpen rfl rfl (fun _ => ⟨ha, ?_⟩) (fun hw => hw) fun _ hn => hn
      simp only [Delivery.published, hqueue, List.append_assoc, List.singleton_append]
  | close =>
      have hq := Session.Quiet.close st'.session
      exact h.keep (hq.stays h.isOpen) rfl hq.pending (fun ha => ⟨ha, rfl⟩) (fun hw => hw)
        fun _ hn => hn
  | abandon ha =>
      have hq := Session.Quiet.dropPackets st'.loop.queue st'.session
      exact h.keep (hq.stays h.isOpen) rfl hq.pending (fun hn => nomatch hn) (fun hw => hw)
        fun _ hn => hn
  | pool pool =>
      exact h.keep h.isOpen rfl rfl (fun ha => ⟨ha, rfl⟩) (fun hw => hw) fun _ hn => hn

end AfterClose

/-- Any steps after a close. -/
theorem Invariant.afterClose (h : st.Invariant n) (hc : st.session.isOpen = false)
    (hs : Steps st st') : AfterClose st st' := by
  induction hs with
  | refl => exact .refl hc
  | tail hs hstep ih => exact ih.step (h.steps hs) hstep

/-- After a close nothing but a full queue keeps the loop from coming to its end. -/
theorem Invariant.exists_move (h : st.Invariant n) (hc : st.session.isOpen = false) :
    st.loop.hasEnded = true ∨ (∃ r, st.loop.move Memory.driver st.session = some r) ∨
      st.loop.queue.length = n := by
  have hclosed := h.shut hc
  unfold Loop.move Loop.hasEnded
  cases st.loop.phase with
  | ready =>
      simp only [Session.startRecv, hc]
      exact Or.inr (Or.inl ⟨_, rfl⟩)
  | waiting b =>
      simp only [Session.finishRecv, Memory.driver, Memory.recv, Memory.next, hclosed, if_true,
        Option.map_some]
      exact Or.inr (Or.inl ⟨_, rfl⟩)
  | publishing p =>
      refine Or.inr ?_
      have hroom := h.room
      have hcapacity := h.capacity
      simp only
      split
      · split
        · exact Or.inl ⟨_, rfl⟩
        · exact Or.inr (by omega)
      · split <;> exact Or.inl ⟨_, rfl⟩
  | stopped => exact Or.inl rfl
  | broken => exact Or.inl rfl

/-! ## From the start of a loop -/

/-- A session starts a loop, on a thread of its own or on a runtime. -/
def Starts (s : Session Memory) (l : Loop) (s' : Session Memory) : Prop :=
  (∃ host, Loop.start host s = (.ok l, s')) ∨
    ∃ runtime, Loop.startOnRuntime runtime s = (.ok l, s')

theorem invariant_begin {s s' : Session Memory} {l : Loop} (h : Starts s l s') :
    (begin l s').Invariant (max s.config.queueCapacity 1) := by
  have hstarts : Loop.Starts s (.ok l, s') := by
    rcases h with ⟨host, h⟩ | ⟨runtime, h⟩
    · exact h ▸ Loop.starts_start host s
    · exact h ▸ Loop.starts_startOnRuntime runtime s
  rcases hstarts with ⟨e, he⟩ | ⟨hopen, he⟩
  · cases he
  · cases he
    refine ⟨rfl, Nat.zero_le _, fun hc => ?_, fun _ => inOrder_of_eq rfl⟩
    have hc : s.isOpen = false := hc
    rw [hopen] at hc
    cases hc

/-- **A receive loop neither loses, duplicates, reorders nor alters packets.** -/
theorem delivers {s s' : Session Memory} {l : Loop} {st : Delivery} (hstart : Starts s l s')
    (h : Steps (begin l s') st) :
    (st.loop.attended = true → ∃ lost,
      st.fed = (st.consumed ++ st.loop.queue ++ st.loop.held).map Packet.view ++ lost ++
        st.session.device.pending ∧
      (lost = [] ∨ ∃ x, lost = [x] ∧ 65575 < x.1.size ∧ st.loop.phase = .stopped)) ∧
    st.loop.queue.length ≤ max s.config.queueCapacity 1 ∧ st.loop.held.length ≤ 1 ∧
    (st.session.isOpen = false → ∀ st', Steps st st' → st'.fed = st.fed ∧
      (st'.pending = st.pending ∨ ∃ x, st.pending = x :: st'.pending) ∧
      (st'.loop.attended = true → st'.published = st.published ∨
        ∃ p, st'.published = st.published ++ [p])) := by
  have hi := (invariant_begin hstart).steps h
  refine ⟨hi.order, hi.room, ?_, fun hc st' hs => ?_⟩
  · unfold Loop.held
    split <;> simp
  · have hafter := hi.afterClose hc hs
    exact ⟨hafter.fed, hafter.taken.imp_right And.left,
      fun ha => (hafter.published ha).imp_right And.left⟩

/-- A packet that fits gets through: a loop in an open session can take it, publish it and be ready
for the next one, with the packet consumed. -/
theorem exists_steps_consume {x : Bytes × Address} {rest : List (Bytes × Address)}
    (hp : st.loop.phase = .ready) (ho : st.session.isOpen = true) (ha : st.loop.attended = true)
    (hq : st.loop.queue = []) (hc : 0 < st.loop.capacity) (hx : st.pending = x :: rest)
    (hfit : x.1.size ≤ bufferSize) :
    ∃ p st', p.view = x ∧ Steps st st' ∧ st'.loop = st.loop ∧ st'.session.isOpen = true ∧
      st'.fed = st.fed ∧ st'.consumed = st.consumed ++ [p] ∧ st'.pending = rest := by
  let b := st.session.acquire.1
  let s := st.session.acquire.2
  have hturn : st.loop.move Memory.driver st.session =
      some ({ st.loop with phase := .waiting b }, s) := by
    simp only [Loop.move, hp, Session.startRecv, ho, if_true]
    rfl
  have h1 : Step st (st.after ({ st.loop with phase := .waiting b }, s)) := .turn hp hturn
  have h2 : Step (st.after ({ st.loop with phase := .waiting b }, s)) _ := .take rfl hx
  rcases Loop.take_cases { st.loop with phase := .waiting b } s b (s.device.withPending rest) x with
    ⟨p, hview, hr⟩ | ⟨hlong, -⟩
  · let t : Session Memory := { s with device := s.device.withPending rest }
    have hpublish : Loop.move Memory.driver { st.loop with phase := .publishing p } t =
        some ({ st.loop with phase := .ready, queue := [p] }, t) := by
      simp only [Loop.move, ha, hq, if_true, List.length_nil, hc, List.nil_append]
    have h3 : Step (st.after ({ st.loop with phase := .publishing p }, t))
        (st.after ({ st.loop with phase := .ready, queue := [p] }, t)) := .publish rfl hpublish
    have h4 : Step (st.after ({ st.loop with phase := .ready, queue := [p] }, t))
        { st.after (st.loop, t) with consumed := st.consumed ++ [p] } := by
      refine .consume ha (Loop.take?_eq_some.2 ⟨[], rfl, ?_⟩)
      simp only [after, ← hp, ← hq]
    refine ⟨p, _, hview, ((Relation.ReflTransGen.single h1).tail (hr ▸ h2)).tail h3 |>.tail h4, rfl,
      ho, rfl, rfl, rfl⟩
  · omega

/-- Of two packets one is consumed and the other is left when the session is closed. -/
theorem delivers_two :
    let x : Bytes × Address := (.ofList [1, 2, 3], .blank)
    let y : Bytes × Address := (.ofList [4], .blank)
    let s : Session Memory := .ofDevice (Memory.fresh.withPending [x, y]) .standard (.empty none)
    ∃ l s' st, Starts s l s' ∧ Steps (begin l s') st ∧ st.session.isOpen = false ∧
      st.consumed.map Packet.view = [x] ∧ st.pending = [y] ∧ st.fed = [x, y] ∧
      ∀ st', Steps st st' → st'.fed = [x, y] := by
  intro x y s
  let s' : Session Memory := s.share.report (.loopStarted "true")
  let l : Loop := .ofCapacity 256
  have hstart : Starts s l s' := Or.inl ⟨⟨fun _ => true, none⟩, rfl⟩
  have hpending : (begin l s').pending = x :: [y] := rfl
  obtain ⟨p, st, hview, hsteps, -, -, hfed, hconsumed, hrest⟩ :=
    exists_steps_consume (show (begin l s').loop.phase = .ready from rfl) rfl rfl rfl
      (show 0 < 256 by decide) hpending (show 3 ≤ bufferSize by decide)
  have hclosed : Steps (begin l s') (st.withSession (st.session.close Memory.driver).2) :=
    hsteps.tail .close
  have hquiet := Session.Quiet.close st.session
  have hopen : (st.session.close Memory.driver).2.isOpen = false := by
    unfold Session.close
    split
    · rfl
    · next ho => simpa using ho
  have hafter := (delivers hstart hclosed).2.2.2 hopen
  refine ⟨l, s', _, hstart, hclosed, hopen, ?_, ?_, hfed, fun st' hs => ?_⟩
  · rw [← hview]
    exact congrArg (List.map Packet.view) hconsumed
  · exact hquiet.pending.trans hrest
  · exact (hafter st' hs).1.trans hfed

end Delivery

end Intercept
