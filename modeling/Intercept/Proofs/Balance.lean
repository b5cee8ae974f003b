import Intercept.Proofs.Accounting

set_option autoImplicit false

/-! # The balance of a session

While the receive loop can go no further, what is out is counted by what can be seen of a station:
the packets in slots, those in the queue, and one for a loop that has not ended. Once neither a loop
nor a packet is left, all storage is idle.

An unattended loop has nobody to hand packets to. The driver answers it once more at most
(`Station.answered_le`), and a packet that it gets in this way is given up with its next move, which
is its last. `Station.balanced_play` puts everything together for every driver and every history. -/

namespace Intercept

/-! ## After the consumer has gone -/

namespace Loop

variable {σ : Type} {D : Driver σ} {s : Session σ} {l : Loop} {r : Loop × Session σ}

/-- The loop waits for the driver, and the driver answers. -/
def isAnswered (D : Driver σ) (l : Loop) (s : Session σ) : Bool :=
  match l.phase with
  | .waiting b => (D.recv b.storage.bytes s.device).isSome
  | _ => false

/-- How often an unattended loop may still be answered: once, unless it has been. -/
def mayBeAnswered (l : Loop) : Nat :=
  match l.phase with
  | .ready | .waiting _ => 1
  | _ => 0

theorem isAnswered_of_move (h : l.move D s = none) : l.isAnswered D s = false := by
  unfold move at h
  unfold isAnswered
  split at h
  · next hp => rw [hp]
  · next b hp =>
      rw [hp]
      simp only [Session.finishRecv, Option.map_eq_none_iff] at h
      simp only [h, Option.isSome_none]
  · next hp => rw [hp]
  · next hp => rw [hp]
  · next hp => rw [hp]

/-- A loop that has received does not receive again before it has published. -/
theorem mayBeAnswered_received (l : Loop) (x : Except Fault Packet × Session σ) :
    (l.received D x).1.mayBeAnswered = 0 := by
  obtain ⟨x, s⟩ := x
  cases x with
  | ok p => rfl
  | error e => cases e <;> rfl

theorem mayBeAnswered_move (ha : l.attended = false) (hm : l.move D s = some r) :
    r.1.mayBeAnswered + (if l.isAnswered D s then 1 else 0) ≤ l.mayBeAnswered := by
  unfold move at hm
  unfold isAnswered
  split at hm
  · next hp =>
      have hone : l.mayBeAnswered = 1 := by rw [mayBeAnswered, hp]
      rw [hp, hone]
      split at hm
      · cases hm
        exact Nat.zero_le _
      · cases hm
        exact Nat.le_refl _
  · next b hp =>
      have hone : l.mayBeAnswered = 1 := by rw [mayBeAnswered, hp]
      obtain ⟨x, -, rfl⟩ := Option.map_eq_some_iff.1 hm
      rw [mayBeAnswered_received, hone, Nat.zero_add, hp]
      simp only
      split
      · exact Nat.le_refl _
      · exact Nat.zero_le _
  · next p hp =>
      rw [hp]
      simp only [ha, Bool.false_eq_true, if_false] at hm
      -- nobody is left to publish to, so the loop ends
      split at hm
      · cases hm
        exact Nat.zero_le _
      · cases hm
        exact Nat.zero_le _
  · cases hm
  · cases hm

end Loop

namespace Station

variable {σ : Type} {D : Driver σ} {limit : Option Nat} {st : Station σ} {l : Loop}

/-- The receive loop is answered by the driver in an event. -/
def answersLoop (D : Driver σ) (st : Station σ) : Event σ → Bool
  | .step .moveLoop => st.loop.any fun l => l.isAnswered D st.session
  | _ => false

/-- How often the receive loop is answered by the driver, in the history before the loop is gone. -/
def answered (D : Driver σ) : List (Event σ) → Station σ → Nat
  | [], _ => 0
  | e :: es, st =>
    if st.loop.isNone then 0
    else (if st.answersLoop D e then 1 else 0) + answered D es (st.occur D e)

/-- An unattended loop stays as it is or makes a move. -/
theorem loop_occur (hl : st.loop = some l) (ha : l.attended = false) (e : Event σ) :
    ((st.occur D e).loop = some l ∧ st.answersLoop D e = false) ∨
      ∃ r, l.move D st.session = some r ∧ (st.occur D e).loop = r.1.kept? ∧
        st.answersLoop D e = l.isAnswered D st.session := by
  have hstart : ∀ start, (st.startWith start).2 = st := by
    intro start
    unfold startWith
    rw [if_pos (by rw [hl]; rfl)]
  cases e with
  | device d => exact Or.inl ⟨hl, rfl⟩
  | step x =>
      cases x with
      | startLoop m host => exact Or.inl ⟨(loop_onHolder (by rw [hstart])).trans hl, rfl⟩
      | startLoopOnRuntime m runtime =>
          exact Or.inl ⟨(loop_onHolder (by rw [hstart])).trans hl, rfl⟩
      | moveLoop =>
          simp only [occur, step, answersLoop, hl, Option.any_some, moveLoop?, Option.bind_some]
          cases hm : l.move D st.session with
          | none => exact Or.inl ⟨hl, Loop.isAnswered_of_move hm⟩
          | some r => exact Or.inr ⟨r, rfl, rfl, trivial⟩
      | consume i =>
          refine Or.inl ⟨?_, rfl⟩
          simp only [occur, step, Station.consume, hl, ha, Bool.not_false, if_true]
      | dropQueue =>
          refine Or.inl ⟨?_, rfl⟩
          simp only [occur, step, Station.dropQueue, hl, ha, Bool.not_false, if_true]
      | _ => exact Or.inl ⟨(loop_step rfl).trans hl, rfl⟩

/-- **The driver answers an unattended loop once more at most.** -/
theorem answered_le (hl : st.loop = some l) (ha : l.attended = false) (es : List (Event σ)) :
    answered D es st ≤ l.mayBeAnswered := by
  induction es generalizing st l with
  | nil => exact Nat.zero_le _
  | cons e es ih =>
      rw [answered, if_neg (by rw [hl]; simp)]
      rcases loop_occur (D := D) hl ha e with ⟨hloop, hflag⟩ | ⟨r, hr, hloop, hflag⟩
      · rw [hflag, if_neg (by simp), Nat.zero_add]
        exact ih hloop ha
      · rw [hflag]
        have hmove := Loop.mayBeAnswered_move ha hr
        have hattended := (Loop.move_attended hr).1.trans ha
        have hrest : answered D es (st.occur D e) ≤ r.1.mayBeAnswered := by
          unfold Loop.kept? at hloop
          split at hloop
          · cases es with
            | nil => exact Nat.zero_le _
            | cons e' es =>
                rw [answered, if_pos (by rw [hloop]; rfl)]
                exact Nat.zero_le _
          · exact ih hloop hattended
        omega

/-- A loop whose consumer has dropped the queue is unattended, if it is not gone. -/
theorem attended_dropQueue : ∀ l ∈ (st.step D .dropQueue).2.loop, l.attended = false := by
  intro l hl
  simp only [step] at hl
  rcases st.dropQueue_cases with ⟨hnone, he⟩ | ⟨k, -, -, he⟩
  · rw [he] at hl
    exact hnone l hl
  · rw [he] at hl
    simp only [Loop.kept?] at hl
    split at hl
    · cases hl
    · cases hl
      rfl

theorem answered_dropQueue (es : List (Event σ)) :
    answered D es (st.step D .dropQueue).2 ≤ 1 := by
  have hone : ∀ l : Loop, l.mayBeAnswered ≤ 1 := by
    intro l
    unfold Loop.mayBeAnswered
    split <;> decide
  cases hl : (st.step D .dropQueue).2.loop with
  | none =>
      cases es with
      | nil => exact Nat.zero_le _
      | cons e es =>
          rw [answered, if_pos (by rw [hl]; rfl)]
          exact Nat.zero_le _
  | some l => exact Nat.le_trans (answered_le hl (attended_dropQueue l hl) es) (hone l)

/-! ## The balance -/

/-- How many packets are in the queue of the receive loop. -/
def queued (st : Station σ) : Nat := st.loop.elim 0 fun l => l.queue.length

/-- There is a receive loop that has not ended. -/
def isLooping (st : Station σ) : Bool := st.loop.any fun l => !l.hasEnded

theorem loopBuffers_of_settled (h : st.moveLoop? D = none) :
    st.loopBuffers = st.queued + if st.isLooping then 1 else 0 := by
  unfold loopBuffers queued isLooping
  cases hl : st.loop with
  | none => rfl
  | some l =>
      have hm : l.move D st.session = none := by
        rw [moveLoop?, hl, Option.bind_some, Option.map_eq_none_iff] at h
        exact h
      rw [Option.elim_some, Option.any_some, Option.elim_some, Loop.buffers, Loop.inHand_of_move hm]
      by_cases he : l.hasEnded = true
      · rw [if_pos he, if_neg (by simp [he])]
      · rw [if_neg he, if_pos (by simp [he])]

theorem loopBuffers_of_ended (hq : st.queued = 0) (hl : st.isLooping = false) :
    st.loopBuffers = 0 := by
  unfold queued at hq
  unfold isLooping at hl
  unfold loopBuffers
  cases hloop : st.loop with
  | none => rfl
  | some l =>
      rw [hloop, Option.elim_some] at hq
      rw [hloop, Option.any_some, Bool.not_eq_false'] at hl
      rw [Option.elim_some, Loop.buffers, hq, Loop.inHand_of_hasEnded hl]

/-- An unattended loop that holds a packet gives it up with its next move, which is its last. -/
theorem Accounted.unpublished {p : Packet} (h : st.Accounted D limit) (hl : st.loop = some l)
    (ha : l.attended = false) (hp : l.phase = .publishing p) :
    ∃ st' b, st.moveLoop? D = some st' ∧ st'.loop = none ∧
      st'.session.pool = st.session.pool.drop b := by
  obtain ⟨b, hb⟩ := ((h.guards.loop l hl).publishing p hp).retire_eq_ok
  have hmove : l.move D st.session = some (l.stop D .receiversGone (st.session.dropBuffer b)) := by
    simp only [Loop.move, hp, ha, Bool.false_eq_true, if_false, Session.dropPacket, hb]
  have hgone : (l.stop D .receiversGone (st.session.dropBuffer b)).1.kept? = none := by
    simp only [Loop.kept?, Loop.stop, Loop.hasEnded, ha, Bool.not_false, Bool.and_self, if_true]
  have hstation : st.moveLoop? D = some
      { st with
        session := (l.stop D .receiversGone (st.session.dropBuffer b)).2, loop := none } := by
    rw [Station.moveLoop?, hl, Option.bind_some, hmove, Option.map_some, ← hgone]
  refine ⟨_, b, hstation, rfl, ?_⟩
  simp only [Loop.stop, Session.pool_leave, Session.pool_report]
  rfl

/-- What the books of a session with a pool of a limit say. -/
structure Balanced (D : Driver σ) (limit : Option Nat) (st : Station σ) : Prop where
  /-- While the receive loop can go no further, what was allocated is idle, with a packet in a slot
  or in the queue, with a loop that has not ended, or discarded. -/
  settled : st.moveLoop? D = none →
    st.session.pool.allocated =
      st.session.pool.idle.length + st.held + st.queued + (if st.isLooping then 1 else 0) +
        st.session.pool.discarded
  /-- Storage is discarded only if as much is idle as may be. -/
  discards : ∀ b, (st.session.pool.drop b).discarded ≠ st.session.pool.discarded →
    limit = some st.session.pool.idle.length
  /-- Once no packet and no loop is left, everything is idle, unless something was discarded. -/
  finished : limit = none → st.held = 0 → st.queued = 0 → st.isLooping = false →
    st.session.pool.allocated = st.session.pool.idle.length
  /-- Injecting a packet gives its buffer back, whatever comes of it. -/
  inject : ∀ p, ∃ b, (st.session.inject D p).2.pool = st.session.pool.drop b
  /-- Bytes that make no packet leave no buffer out. -/
  packetOfBytes : ∀ b a, let r := st.session.packetOfBytes b a
    (∃ p, r.1 = .ok p ∧ r.2.pool = st.session.pool.acquire.2) ∨
      ∃ e b', r.1 = .error e ∧ r.2.pool = st.session.pool.acquire.2.drop b'
  /-- Receiving in a closed session takes no buffer. -/
  recv : st.session.isOpen = false →
    st.session.recv D = some (.error (.refused .sessionClosed), st.session)
  /-- After the queue is dropped the driver answers the loop once more at most. -/
  abandoned : ∀ es, answered D es (st.step D .dropQueue).2 ≤ 1
  /-- A packet that can no longer be published is given up at once, and the loop ends. -/
  unpublished : ∀ l p, st.loop = some l → l.attended = false → l.phase = .publishing p →
    ∃ st' b, st.moveLoop? D = some st' ∧ st'.loop = none ∧
      st'.session.pool = st.session.pool.drop b

/-- **No buffer is lost or out twice.** Whatever a driver does, and whatever happens to a session
from its start on, the books balance. -/
theorem balanced_play (D : Driver σ) (device : σ) (config : Config) (limit : Option Nat)
    (events : List (Event σ)) :
    (play D events (.ofSession (.ofDevice device config (.empty limit)))).Balanced D limit := by
  have h := (accounted_ofSession D device config limit).play events
  generalize play D events _ = st at h
  have hcount := h.counts.count
  exact
    { settled := fun hm => by
        rw [loopBuffers_of_settled hm] at hcount
        omega
      discards := fun b hb => h.counts.full b hb
      finished := fun hlimit hheld hq hl => by
        have hnone := h.counts.unlimited hlimit
        rw [loopBuffers_of_ended hq hl] at hcount
        omega
      inject := fun p => st.session.pool_inject p
      packetOfBytes := fun b a => st.session.pool_packetOfBytes b a
      recv := fun ho => Session.recv_of_closed ho
      abandoned := answered_dropQueue
      unpublished := fun l p hl ha hp => h.unpublished hl ha hp }

end Station

end Intercept
