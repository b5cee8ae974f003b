import Intercept.Proofs.History

set_option autoImplicit false

/-! # Every buffer is accounted for

Storage that was allocated is idle in the pool, or was discarded because the pool had as much as it
may keep, or is out: with a packet in a slot, with a packet in the queue of the receive loop, or in
the loop's hand. `Pool.Out` counts what is out. Taking a buffer puts one more out, giving it back
one less, and so each step is a matter of how many packets it makes and gives up, on every way it
may end (`Station.Accounted.step`).

A loop that nobody attends has no queue (`Loop.Alone`), so when it is gone nothing of it is left
over. `Station.Accounted.play` carries the account through every history. -/

namespace Intercept

/-! ## Pools -/

namespace Pool

variable {limit : Option Nat} {n : Nat} {p : Pool}

/-- Of what a pool with a limit has allocated, `n` pieces of storage are out. Without a limit
nothing is discarded, and with one no more is idle than it allows. -/
structure Out (limit : Option Nat) (n : Nat) (p : Pool) : Prop where
  limit_eq : p.maxIdle = limit
  count : p.allocated = p.idle.length + p.discarded + n
  unlimited : limit = none → p.discarded = 0
  limited : ∀ m ∈ limit, p.idle.length ≤ m

theorem out_empty (limit : Option Nat) : (empty limit).Out limit 0 :=
  ⟨rfl, rfl, fun _ => rfl, fun m _ => Nat.zero_le m⟩

theorem Out.acquire (h : p.Out limit n) : p.acquire.2.Out limit (n + 1) := by
  have hcount := h.count
  unfold Pool.acquire
  split
  · next s rest hidle =>
      rw [hidle, List.length_cons] at hcount
      refine ⟨h.limit_eq, ?_, h.unlimited, fun m hm => ?_⟩
      · simp only
        omega
      · have hlimited := h.limited m hm
        rw [hidle, List.length_cons] at hlimited
        exact Nat.le_of_succ_le hlimited
  · next hidle =>
      refine ⟨h.limit_eq, ?_, h.unlimited, h.limited⟩
      simp only
      omega

/-- What comes back is idle again, or discarded if there is no room for it. -/
theorem Out.drop (b : Buffer) (h : p.Out limit (n + 1)) : (p.drop b).Out limit n := by
  have hcount := h.count
  unfold Pool.drop Pool.store
  split
  · next hroom =>
      refine ⟨h.limit_eq, ?_, h.unlimited, fun m hm => ?_⟩
      · simp only [List.length_cons]
        omega
      · exact hroom m (h.limit_eq ▸ hm)
  · next hfull =>
      refine ⟨h.limit_eq, ?_, fun hnone => ?_, h.limited⟩
      · simp only
        omega
      · refine absurd (fun m hm => ?_) hfull
        rw [h.limit_eq, hnone] at hm
        cases hm

/-- Storage is discarded only if as much is idle as may be. -/
theorem Out.full (b : Buffer) (h : p.Out limit n)
    (hb : (p.drop b).discarded ≠ p.discarded) : limit = some p.idle.length := by
  unfold Pool.drop Pool.store at hb
  split at hb
  · exact absurd rfl hb
  · next hfull =>
      unfold HasRoom at hfull
      rw [h.limit_eq] at hfull
      push Not at hfull
      obtain ⟨m, hm, hle⟩ := hfull
      rw [Option.mem_def.1 hm, Nat.le_antisymm (h.limited m hm) hle]

end Pool

/-! ## Sessions -/

namespace Session

variable {σ : Type} {D : Driver σ} {limit : Option Nat} {n : Nat} {s : Session σ}

/-- Giving a packet up gives one buffer back. -/
theorem pool_dropPacket (p : Packet) (s : Session σ) :
    ∃ b, (s.dropPacket p).2.pool = s.pool.drop b := by
  unfold dropPacket
  split
  · exact ⟨_, rfl⟩
  · exact ⟨_, rfl⟩

theorem out_dropPacket (p : Packet) (h : s.pool.Out limit (n + 1)) :
    (s.dropPacket p).2.pool.Out limit n := by
  obtain ⟨b, hb⟩ := s.pool_dropPacket p
  rw [hb]
  exact h.drop b

/-- Packets that fit are all given up. -/
theorem out_dropPackets {ps : List Packet} (hp : ∀ p ∈ ps, p.Fits)
    (h : s.pool.Out limit (n + ps.length)) : (dropPackets ps s).2.pool.Out limit n := by
  induction ps generalizing s with
  | nil => exact h
  | cons p ps ih =>
      obtain ⟨b, hb⟩ := (hp p (List.mem_cons_self ..)).retire_eq_ok
      have hd : (s.dropPacket p).2.pool.Out limit (n + ps.length) := out_dropPacket p h
      simp only [dropPackets, dropPacket, hb] at hd ⊢
      exact ih (fun q hq => hp q (List.mem_cons_of_mem _ hq)) hd

theorem pool_giveUp (r : Except Error Nat) (p : Packet) (s : Session σ) :
    ∃ b, (s.giveUp r p).2.pool = s.pool.drop b := by
  obtain ⟨b, hb⟩ := s.pool_dropPacket p
  refine ⟨b, ?_⟩
  unfold giveUp
  split
  · next he => rwa [he] at hb
  · next he => rwa [he] at hb

theorem pool_injectAsIs (p : Packet) (s : Session σ) :
    ∃ b, (s.injectAsIs D p).2.pool = s.pool.drop b := by
  obtain ⟨b, hb⟩ := (s.send D p).2.pool_giveUp (s.send D p).1 p
  exact ⟨b, hb.trans (congrArg _ (pool_send p s))⟩

/-- Injecting a packet gives one buffer back, whatever comes of it. -/
theorem pool_inject (p : Packet) (s : Session σ) :
    ∃ b, (s.inject D p).2.pool = s.pool.drop b := by
  have hsame := pool_checksums (D := D) p s
  unfold inject
  split
  · split
    · next e q s' he =>
        rw [he] at hsame
        obtain ⟨b, hb⟩ := (s'.report (.packetDropped e)).pool_giveUp (.error e) q
        exact ⟨b, hb.trans (congrArg _ hsame)⟩
    · next q s' he =>
        rw [he] at hsame
        obtain ⟨b, hb⟩ := pool_injectAsIs (D := D) q s'
        exact ⟨b, hb.trans (congrArg _ hsame)⟩
  · exact pool_injectAsIs p s

/-- A packet made of bytes has the buffer that was taken for it. If there is none, the buffer has
been given back. -/
theorem pool_packetOfBytes (b : Bytes) (a : Address) (s : Session σ) :
    (∃ p, (s.packetOfBytes b a).1 = .ok p ∧ (s.packetOfBytes b a).2.pool = s.pool.acquire.2) ∨
      ∃ e b', (s.packetOfBytes b a).1 = .error e ∧
        (s.packetOfBytes b a).2.pool = s.pool.acquire.2.drop b' := by
  simp only [packetOfBytes]
  split
  · exact Or.inl ⟨_, rfl, rfl⟩
  · exact Or.inr ⟨_, _, rfl, rfl⟩

/-- Receiving in a closed session changes nothing. -/
theorem recv_of_closed (h : s.isOpen = false) :
    s.recv D = some (.error (.refused .sessionClosed), s) := by
  simp only [recv, startRecv, h, Bool.false_eq_true, if_false]

/-- What comes of an attempt to get a packet: one more buffer is out exactly if there is one. -/
def Gets (limit : Option Nat) (n : Nat) (r : Except Fault Packet × Session σ) : Prop :=
  match r.1 with
  | .ok _ => r.2.pool.Out limit (n + 1)
  | .error _ => r.2.pool.Out limit n

theorem gets_packetOfBytes (b : Bytes) (a : Address) (h : s.pool.Out limit n) :
    Gets limit n (s.packetOfBytes b a) := by
  unfold Gets
  rcases s.pool_packetOfBytes b a with ⟨p, hp, hpool⟩ | ⟨e, b', he, hpool⟩
  · rw [hp, hpool]
    exact h.acquire
  · rw [he, hpool]
    exact h.acquire.drop b'

theorem gets_packetOfStorage (offset : Nat) (b : Bytes) (len : Nat) (a : Address)
    (h : s.pool.Out limit n) : Gets limit n (s.packetOfStorage offset b len a) := by
  simp only [packetOfStorage]
  split
  · exact h.acquire.drop _
  · split
    · exact h.acquire.drop _
    · exact h.acquire

theorem gets_received (b : Buffer) (c : Call σ Reception) (h : s.pool.Out limit (n + 1)) :
    Gets limit n (s.received D b c) := by
  have hs : (s.afterCall D c).pool.Out limit (n + 1) := by rwa [pool_afterCall]
  simp only [received]
  split
  · exact hs.drop _
  · split
    · exact hs.drop _
    · split
      · exact hs
      · exact hs.drop _

theorem gets_finishRecv {b : Buffer} {r : Except Fault Packet × Session σ}
    (hr : s.finishRecv D b = some r) (h : s.pool.Out limit (n + 1)) : Gets limit n r := by
  obtain ⟨c, -, rfl⟩ := Option.map_eq_some_iff.1 hr
  exact gets_received b c h

theorem gets_recv {r : Except Fault Packet × Session σ} (hr : s.recv D = some r)
    (h : s.pool.Out limit n) : Gets limit n r := by
  simp only [recv, startRecv] at hr
  split at hr
  · next e s' he =>
      split at he
      · cases he
      · cases he
        cases hr
        exact h
  · next b s' he =>
      split at he
      · cases he
        exact gets_finishRecv hr h.acquire
      · cases he

end Session

/-! ## Receive loops -/

namespace Loop

variable {σ : Type} {D : Driver σ} {limit : Option Nat} {n : Nat} {s : Session σ} {l : Loop}
  {r : Loop × Session σ}

/-- How many buffers the loop has in hand: the one it is receiving into, or that of the packet it is
to publish. -/
def inHand (l : Loop) : Nat :=
  match l.phase with
  | .waiting _ | .publishing _ => 1
  | _ => 0

/-- How many buffers the loop has, in its queue and in hand. -/
def buffers (l : Loop) : Nat := l.queue.length + l.inHand

theorem out_stop (why : Record) (l : Loop) (h : s.pool.Out limit (n + l.queue.length)) :
    (l.stop D why s).2.pool.Out limit (n + (l.stop D why s).1.buffers) := by
  simp only [stop, Session.pool_leave, Session.pool_report, buffers, inHand, Nat.add_zero]
  exact h

theorem out_breakOff (l : Loop) (h : s.pool.Out limit (n + l.queue.length)) :
    (l.breakOff D s).2.pool.Out limit (n + (l.breakOff D s).1.buffers) := by
  simp only [breakOff, Session.pool_leave, buffers, inHand, Nat.add_zero]
  exact h

theorem out_received {x : Except Fault Packet × Session σ}
    (h : Session.Gets limit (n + l.queue.length) x) :
    (l.received D x).2.pool.Out limit (n + (l.received D x).1.buffers) := by
  obtain ⟨x, s⟩ := x
  cases x with
  | ok p => exact h
  | error e =>
      cases e with
      | refused e => exact out_stop _ l h
      | outOfRange => exact out_breakOff l h

/-- A move of the loop takes a buffer, gives one back, or passes it on. -/
theorem out_move (hm : l.move D s = some r) (h : s.pool.Out limit (n + l.buffers)) :
    r.2.pool.Out limit (n + r.1.buffers) := by
  unfold move at hm
  unfold buffers inHand at h
  split at hm
  -- about to receive
  · next hp =>
      rw [hp] at h
      simp only [Session.startRecv] at hm
      split at hm
      · next e s' he =>
          split at he
          · cases he
          · cases he
            cases hm
            exact out_stop _ l h
      · next b s' he =>
          split at he
          · cases he
            cases hm
            exact h.acquire
          · cases he
  -- waiting for the driver
  · next b hp =>
      rw [hp] at h
      obtain ⟨x, hx, rfl⟩ := Option.map_eq_some_iff.1 hm
      exact out_received (Session.gets_finishRecv hx h)
  -- with a packet to publish
  · next p hp =>
      rw [hp] at h
      split at hm
      · split at hm
        · cases hm
          simp only [buffers, inHand, List.length_append, List.length_singleton, Nat.add_zero]
          exact h
        · cases hm
      · have hd : (s.dropPacket p).2.pool.Out limit (n + l.queue.length) :=
          Session.out_dropPacket p h
        split at hm
        · next s' he =>
            cases hm
            rw [he] at hd
            exact out_stop _ l hd
        · next e s' he =>
            cases hm
            rw [he] at hd
            exact out_breakOff l hd
  -- at its end, one way or the other
  · cases hm
  · cases hm

theorem received_attended (l : Loop) (x : Except Fault Packet × Session σ) :
    (l.received D x).1.attended = l.attended ∧ (l.received D x).1.queue = l.queue := by
  obtain ⟨x, s⟩ := x
  cases x with
  | ok p => exact ⟨rfl, rfl⟩
  | error e => cases e <;> exact ⟨rfl, rfl⟩

/-- A loop with nobody left to take its packets has no queue. -/
def Alone (l : Loop) : Prop := l.attended = false → l.queue = []

/-- No move makes a loop attended or unattended, and an unattended one publishes nothing. -/
theorem move_attended (hm : l.move D s = some r) :
    r.1.attended = l.attended ∧ (l.Alone → r.1.Alone) := by
  unfold Alone
  unfold move at hm
  split at hm
  · split at hm
    · cases hm
      exact ⟨rfl, id⟩
    · cases hm
      exact ⟨rfl, id⟩
  · obtain ⟨x, -, rfl⟩ := Option.map_eq_some_iff.1 hm
    obtain ⟨ha, hq⟩ := received_attended (D := D) l x
    rw [ha, hq]
    exact ⟨rfl, id⟩
  · split at hm
    · next ha =>
        split at hm
        · cases hm
          simp [ha]
        · cases hm
    · split at hm
      · cases hm
        exact ⟨rfl, id⟩
      · cases hm
        exact ⟨rfl, id⟩
  · cases hm
  · cases hm

/-- A loop that has ended has nothing in hand. -/
theorem inHand_of_hasEnded (h : l.hasEnded = true) : l.inHand = 0 := by
  unfold hasEnded at h
  unfold inHand
  split at h
  · next hp => rw [hp]
  · next hp => rw [hp]
  · cases h

/-- What is left of a loop has the buffers that the loop had. -/
theorem buffers_kept? (h : l.Alone) : l.kept?.elim 0 buffers = l.buffers := by
  unfold kept?
  split
  · next he =>
      rw [Bool.and_eq_true, Bool.not_eq_true'] at he
      rw [Option.elim_none, buffers, h he.2, inHand_of_hasEnded he.1]
      rfl
  · rfl

theorem alone_kept? (h : l.Alone) : ∀ l' ∈ l.kept?, l'.Alone := by
  intro l' h'
  unfold kept? at h'
  split at h'
  · cases h'
  · cases h'
    exact h

/-- A loop that can go no further has one buffer in hand, unless it has ended. -/
theorem inHand_of_move (h : l.move D s = none) : l.inHand = if l.hasEnded then 0 else 1 := by
  unfold move at h
  unfold inHand hasEnded
  split at h
  · split at h <;> cases h
  · next hp => rw [hp]; rfl
  · next hp => rw [hp]; rfl
  · next hp => rw [hp]; rfl
  · next hp => rw [hp]; rfl

end Loop

/-! ## Stations -/

namespace Station

variable {σ : Type} {D : Driver σ} {limit : Option Nat} {n : Nat} {st : Station σ}

/-- How many packets are in slots. -/
def held (st : Station σ) : Nat := st.slots.countP Option.isSome

/-- How many buffers the receive loop has. -/
def loopBuffers (st : Station σ) : Nat := st.loop.elim 0 Loop.buffers

/-- Filling a slot or emptying it changes how many packets there are by that slot. -/
theorem held_setSlot (i : Nat) (p : Option Packet) (st : Station σ) :
    (st.setSlot i p).held + (st.slot? i).toList.length = st.held + p.toList.length := by
  have hone : ∀ q : Option Packet, q.toList.length = q.isSome.toNat := by
    intro q
    cases q <;> rfl
  rw [hone, hone]
  exact List.countP_fill Option.isSome rfl st.slots i p

theorem held_empty {i : Slot} {p : Packet} (h : st.slot? i = some p) :
    (st.setSlot i none).held + 1 = st.held := by
  have := held_setSlot i none st
  rw [h] at this
  exact this

theorem held_fill {i : Slot} (p : Packet) (h : st.slot? i = none) :
    (st.setSlot i (some p)).held = st.held + 1 := by
  have := held_setSlot i (some p) st
  rw [h] at this
  exact this

theorem held_replace {i : Slot} {p : Packet} (q : Packet) (h : st.slot? i = some p) :
    (st.setSlot i (some q)).held = st.held := by
  have := held_setSlot i (some q) st
  rw [h] at this
  exact Nat.add_right_cancel this

/-! ## Steps that leave the loop alone -/

/-- The step is one of the receive loop, or of its consumer. -/
def Step.isOfLoop : Step → Bool
  | .startLoop _ _ | .startLoopOnRuntime _ _ | .moveLoop | .consume _ | .dropQueue => true
  | _ => false

theorem loop_clearSlot (i : Slot) (st : Station σ) : (st.clearSlot i).2.loop = st.loop := by
  unfold clearSlot
  split <;> rfl

theorem loop_place (i : Slot) (r : Except Fault Packet) (st : Station σ) :
    (st.place i r).2.loop = st.loop := by
  unfold place
  split
  · rfl
  · rfl
  · exact st.loop_clearSlot i

/-- A step that needs a holder is done, or changes nothing. -/
theorem kept_onHolder {P : Station σ → Prop} {h : Nat} {act : Unit → Answer × Station σ}
    (hst : P st) (ha : P (act ()).2) : P (st.onHolder h act).2 := by
  unfold onHolder
  split
  · exact ha
  · exact hst

theorem loop_onHolder {h : Nat} {act : Unit → Answer × Station σ}
    (ha : (act ()).2.loop = st.loop) : (st.onHolder h act).2.loop = st.loop :=
  kept_onHolder (P := fun st' => st'.loop = st.loop) rfl ha

theorem loop_onPacket (i : Slot) (act : Packet → Answer × Packet × Session σ) (st : Station σ) :
    (st.onPacket i act).2.loop = st.loop := by
  unfold onPacket
  split <;> rfl

theorem loop_onPacketWith (i : Slot) (h : Nat) (act : Packet → Answer × Packet × Session σ)
    (st : Station σ) : (st.onPacketWith i h act).2.loop = st.loop := by
  unfold onPacketWith
  split
  · exact loop_onHolder (st.loop_onPacket i act)
  · rfl

theorem loop_step {x : Step} (hx : x.isOfLoop = false) : (st.step D x).2.loop = st.loop := by
  cases x with
  | packet i op => exact st.loop_onPacket i _
  | checksums i h => exact st.loop_onPacketWith i h _
  | evalFilter i h f => exact st.loop_onPacketWith i h _
  | sendKept i h => exact st.loop_onPacketWith i h _
  | newPacket i b a => exact loop_place i _ _
  | newFromStorage i offset b len a => exact loop_place i _ _
  | recv i h =>
      refine loop_onHolder ?_
      split
      · rfl
      · exact loop_place i _ _
  | dropPacket i => exact st.loop_clearSlot i
  | inject i h =>
      refine loop_onHolder ?_
      split <;> rfl
  | share h => exact loop_onHolder rfl
  | close h => exact loop_onHolder rfl
  | leave h => exact loop_onHolder rfl
  | startLoop _ _ => cases hx
  | startLoopOnRuntime _ _ => cases hx
  | moveLoop => cases hx
  | consume _ => cases hx
  | dropQueue => cases hx

/-- Besides those of the packets in slots, `n` buffers are out. -/
def Counts (limit : Option Nat) (n : Nat) (st : Station σ) : Prop :=
  st.session.pool.Out limit (st.held + n)

theorem slot?_clearSlot (i : Slot) (st : Station σ) : (st.clearSlot i).2.slot? i = none := by
  unfold clearSlot
  split
  · next h => exact h
  · exact (slot?_setSlot i i none _).trans (if_pos rfl)

theorem Counts.of_eq {st' : Station σ} (h : st.Counts limit n)
    (hp : st'.session.pool = st.session.pool) (hs : st'.slots = st.slots) :
    st'.Counts limit n := by
  unfold Counts held at h ⊢
  rwa [hp, hs]

/-- A packet that leaves its slot gives its buffer back. -/
theorem Counts.emptySlot {i : Slot} {p : Packet} {s : Session σ} (hp : st.slot? i = some p)
    (hs : ∃ b, s.pool = st.session.pool.drop b) (h : st.Counts limit n) :
    ((st.withSession s).setSlot i none).Counts limit n := by
  obtain ⟨b, hb⟩ := hs
  have hheld : ((st.withSession s).setSlot i none).held + 1 = st.held := held_empty hp
  have hout : st.session.pool.Out limit (((st.withSession s).setSlot i none).held + n + 1) := by
    unfold Counts at h
    rwa [← hheld, Nat.add_right_comm] at h
  have hdrop := hout.drop b
  rw [← hb] at hdrop
  exact hdrop

theorem Counts.clearSlot (i : Slot) (h : st.Counts limit n) :
    (st.clearSlot i).2.Counts limit n := by
  unfold Station.clearSlot
  split
  · exact h
  · next p hp => exact h.emptySlot hp (st.session.pool_dropPacket p)

/-- A packet in an empty slot is one of the packets in slots. -/
theorem Counts.fillSlot {i : Slot} (p : Packet) (hi : st.slot? i = none)
    (h : st.Counts limit (n + 1)) : (st.setSlot i (some p)).Counts limit n := by
  unfold Counts at h ⊢
  rwa [held_fill p hi, Nat.add_right_comm]

theorem Counts.place {r : Except Fault Packet × Session σ} (i : Slot)
    (h : Session.Gets limit (st.held + n) r) :
    ((st.withSession r.2).place i r.1).2.Counts limit n := by
  obtain ⟨r, s⟩ := r
  cases r with
  | ok p =>
      have hout : (st.withSession s).Counts limit (n + 1) := h
      exact (hout.clearSlot i).fillSlot p ((st.withSession s).slot?_clearSlot i)
  | error e => cases e <;> exact h

/-- What is done to the packet in a slot leaves it there, and the pool alone. -/
theorem Counts.onPacket {i : Slot} {act : Packet → Answer × Packet × Session σ}
    (ha : ∀ p, (act p).2.2.pool = st.session.pool) (h : st.Counts limit n) :
    (st.onPacket i act).2.Counts limit n := by
  unfold Station.onPacket
  split
  · exact h
  · next p hp =>
      have hheld : ((st.withSession (act p).2.2).setSlot i (some (act p).2.1)).held = st.held :=
        held_replace _ hp
      unfold Counts at h ⊢
      rw [hheld]
      exact (ha p).symm ▸ h

theorem Counts.onPacketWith {i : Slot} {m : Nat} {act : Packet → Answer × Packet × Session σ}
    (ha : ∀ p, (act p).2.2.pool = st.session.pool) (h : st.Counts limit n) :
    (st.onPacketWith i m act).2.Counts limit n := by
  unfold Station.onPacketWith
  split
  · exact kept_onHolder h (h.onPacket ha)
  · exact h

theorem Counts.step {x : Step} (hx : x.isOfLoop = false) (h : st.Counts limit n) :
    (st.step D x).2.Counts limit n := by
  cases x with
  | packet i op => exact h.onPacket fun p => rfl
  | checksums i m => exact h.onPacketWith fun p => Session.pool_checksums p _
  | evalFilter i m f => exact h.onPacketWith fun p => Session.pool_evalFilter f p _
  | sendKept i m => exact h.onPacketWith fun p => Session.pool_send p _
  | newPacket i b a => exact .place i (Session.gets_packetOfBytes b a h)
  | newFromStorage i offset b len a =>
      exact .place i (Session.gets_packetOfStorage offset b len a h)
  | recv i m =>
      refine kept_onHolder h ?_
      split
      · exact h
      · next r s hr => exact .place i (Session.gets_recv hr h)
  | dropPacket i => exact h.clearSlot i
  | inject i m =>
      refine kept_onHolder h ?_
      split
      · exact h
      · next p hp => exact h.emptySlot hp (st.session.pool_inject p)
  | share m => exact kept_onHolder h h
  | close m => exact kept_onHolder h (h.of_eq (Session.pool_close _) rfl)
  | leave m => exact kept_onHolder h (h.of_eq (Session.pool_leave _) rfl)
  | startLoop _ _ => cases hx
  | startLoopOnRuntime _ _ => cases hx
  | moveLoop => cases hx
  | consume _ => cases hx
  | dropQueue => cases hx

/-! ## Steps of the loop and its consumer -/

/-- All buffers of a station are accounted for: those of the packets in slots and those of the
receive loop are out. A loop that is unattended has no queue, as nobody would empty it. -/
structure Accounted (D : Driver σ) (limit : Option Nat) (st : Station σ) : Prop where
  guards : (Custody.fitting D).GuardsStation st
  counts : st.Counts limit st.loopBuffers
  alone : ∀ l ∈ st.loop, l.Alone

namespace Accounted

variable {l : Loop} {s : Session σ}

theorem counts_of_loop (h : st.Accounted D limit) (hl : st.loop = some l) :
    st.Counts limit l.buffers := by
  have hc := h.counts
  rwa [loopBuffers, hl] at hc

theorem moveLoop? {st' : Station σ} (h : st.Accounted D limit)
    (hm : st.moveLoop? D = some st') : st'.Accounted D limit := by
  have hguards := h.guards.moveLoop? hm
  obtain ⟨l, hl, hm⟩ := Option.bind_eq_some_iff.1 hm
  obtain ⟨r, hr, rfl⟩ := Option.map_eq_some_iff.1 hm
  have halone := (Loop.move_attended hr).2 (h.alone l hl)
  refine ⟨hguards, ?_, Loop.alone_kept? halone⟩
  have hout := Loop.out_move hr (h.counts_of_loop hl)
  rwa [← Loop.buffers_kept? halone] at hout

/-- There was no loop, and the new one has no buffer yet. -/
theorem startWith {start : Session σ → Except Fault Loop × Session σ}
    (h : st.Accounted D limit) (hs : Loop.Starts st.session (start st.session)) :
    (st.startWith start).2.Accounted D limit := by
  have hguards := h.guards.startWith hs
  have hcounts := h.counts
  rcases st.startWith_cases hs with he | ⟨hl, -, he⟩
  · rwa [he]
  · rw [he] at hguards ⊢
    rw [loopBuffers, hl] at hcounts
    refine ⟨hguards, hcounts.of_eq rfl rfl, fun l' h' => ?_⟩
    cases h'
    exact fun _ => rfl

theorem consume (i : Slot) (h : st.Accounted D limit) : (st.consume i).2.Accounted D limit := by
  have hguards := h.guards.consume i
  rcases st.consume_cases i with he | ⟨l, hl, ha, ⟨p, rest, hq, he⟩ | ⟨hq, hend, he⟩⟩
  · rwa [he]
  -- a packet moves from the queue to the slot
  · have hone : l.buffers = ({ l with queue := rest } : Loop).buffers + 1 := by
      simp only [Loop.buffers, hq, List.length_cons]
      exact Nat.add_right_comm ..
    have hcounts := h.counts_of_loop hl
    rw [hone] at hcounts
    let taken : Station σ := { (st.clearSlot i).2 with loop := some { l with queue := rest } }
    have htaken : taken.Counts limit _ := (hcounts.clearSlot i).of_eq rfl rfl
    rw [he] at hguards ⊢
    refine ⟨hguards, htaken.fillSlot p (st.slot?_clearSlot i), fun l' h' hf => ?_⟩
    cases h'
    rw [show l.attended = false from hf] at ha
    cases ha
  -- the loop has ended and its queue is empty
  · have hzero : l.buffers = 0 := by
      rw [Loop.buffers, hq, Loop.inHand_of_hasEnded hend]
      rfl
    have hcounts := h.counts_of_loop hl
    rw [hzero] at hcounts
    rw [he] at hguards ⊢
    exact ⟨hguards, (hcounts.clearSlot i).of_eq rfl rfl, fun _ hn => nomatch hn⟩

theorem dropQueue (h : st.Accounted D limit) : st.dropQueue.2.Accounted D limit := by
  have hguards := h.guards.dropQueue
  rcases st.dropQueue_cases with ⟨-, he⟩ | ⟨l, hl, -, he⟩
  · rwa [he]
  · have hcounts := h.counts_of_loop hl
    have hout : st.session.pool.Out limit (st.held + l.inHand + l.queue.length) := by
      unfold Counts Loop.buffers at hcounts
      rwa [Nat.add_assoc, Nat.add_comm l.inHand]
    have hdrop := Session.out_dropPackets (h.guards.loop l hl).queue hout
    have hkept : l.abandoned.kept?.elim 0 Loop.buffers = l.inHand :=
      (Loop.buffers_kept? fun _ => rfl).trans (Nat.zero_add _)
    rw [he] at hguards ⊢
    refine ⟨hguards, ?_, Loop.alone_kept? fun _ => rfl⟩
    unfold Counts
    simp only [loopBuffers, hkept]
    exact hdrop

/-- **One step** keeps all buffers accounted for. -/
theorem step (x : Step) (h : st.Accounted D limit) : (st.step D x).2.Accounted D limit := by
  have hguards : (Custody.fitting D).GuardsStation (st.step D x).2 :=
    h.guards.step (by cases x <;> trivial)
  have hother : x.isOfLoop = false → (st.step D x).2.Accounted D limit := by
    intro hx
    have hloop : (st.step D x).2.loop = st.loop := loop_step hx
    refine ⟨hguards, ?_, ?_⟩
    · rw [loopBuffers, hloop]
      exact h.counts.step hx
    · rw [hloop]
      exact h.alone
  cases x with
  | startLoop m host => exact kept_onHolder h (h.startWith (Loop.starts_start ..))
  | startLoopOnRuntime m runtime =>
      exact kept_onHolder h (h.startWith (Loop.starts_startOnRuntime ..))
  | moveLoop =>
      simp only [Station.step]
      cases hm : st.moveLoop? D with
      | none => exact h
      | some st' => exact h.moveLoop? hm
  | consume i => exact h.consume i
  | dropQueue => exact h.dropQueue
  | _ => exact hother rfl

/-- A history keeps all buffers accounted for. -/
theorem play (es : List (Event σ)) (h : st.Accounted D limit) :
    (Station.play D es st).Accounted D limit := by
  refine kept_of_play (fun st e h => ?_) h es
  cases e with
  | step x => exact h.step x
  | device d => exact ⟨h.guards.withSession (h.guards.session.of_pool rfl), h.counts, h.alone⟩

end Accounted

theorem accounted_ofSession (D : Driver σ) (device : σ) (config : Config) (limit : Option Nat) :
    (ofSession (.ofDevice device config (.empty limit))).Accounted D limit :=
  ⟨Custody.guardsStation_ofSession fun _ _ => trivial, Pool.out_empty limit,
    fun _ hl => nomatch hl⟩

end Station

end Intercept
