import Intercept.Proofs.Injection
import Intercept.Proofs.Packet.Lazy

set_option autoImplicit false

/-! # Finding headers early cannot be observed

A history over the memory driver may look for the headers of a packet at any time, without needing
them. Such deeds are inserted into a history of steps (`Deed`), and this module compares the history
with and without them: the steps are answered alike, but for listings, which show what is
remembered, and in the end the session is the same in all it holds, and so are the packets, but for
what is remembered (`parse_unobserved`).

The two histories run side by side. `Station.Alike` says how far they may drift apart: the packets
in the slots are the same but for headers found in the one and not in the other, and nothing else
differs. A step of both keeps that (`Alike.step`), and so does an inserted deed, which only the one
makes (`Alike.parse`). For a driver that rewrites bytes at will, rather than only checksums, none of
this would hold. -/

namespace Intercept

namespace Session

variable {σ : Type} {p q : Packet}

/-! ## The session does not see what is remembered -/

theorem dropPacket_of_reads (h : p.Reads q) (s : Session σ) :
    s.dropPacket q = s.dropPacket p := by
  simp only [dropPacket, h.retire, h.buffer]

theorem giveUp_of_reads (h : p.Reads q) (r : Except Error Nat) (s : Session σ) :
    s.giveUp r q = s.giveUp r p := by
  simp only [giveUp, dropPacket_of_reads h]

theorem send_of_reads (D : Driver σ) (h : p.Reads q) (s : Session σ) :
    s.send D q = s.send D p := by
  simp only [send, h.contents, h.address]

theorem evalFilter_of_reads (D : Driver σ) (f : String) (h : p.Reads q) (s : Session σ) :
    s.evalFilter D f q = s.evalFilter D f p := by
  simp only [evalFilter, h.contents, h.address]

theorem injectAsIs_of_reads (D : Driver σ) (h : p.Reads q) (s : Session σ) :
    s.injectAsIs D q = s.injectAsIs D p := by
  simp only [injectAsIs, send_of_reads D h, giveUp_of_reads h]

/-- The memory driver recomputes checksums, which lie beside all that is looked at when headers
are found. -/
theorem checksums_of_reads (h : p.Reads q) (s : Session Memory) :
    (s.checksums Memory.driver q).1 = (s.checksums Memory.driver p).1 ∧
      (s.checksums Memory.driver p).2.1.Reads (s.checksums Memory.driver q).2.1 ∧
      (s.checksums Memory.driver q).2.2 = (s.checksums Memory.driver p).2.2 := by
  rw [Memory.checksums_driver, Memory.checksums_driver, h.contents]
  exact ⟨rfl, h.refill, rfl⟩

theorem inject_of_reads (h : p.Reads q) (s : Session Memory) :
    s.inject Memory.driver q = s.inject Memory.driver p := by
  obtain ⟨hresult, hpacket, hsession⟩ := checksums_of_reads h s
  unfold inject
  rw [h.needsChecksum, injectAsIs_of_reads _ h]
  split
  · generalize s.checksums Memory.driver p = x at hresult hpacket hsession ⊢
    generalize s.checksums Memory.driver q = y at hresult hpacket hsession ⊢
    obtain ⟨r, p', s'⟩ := x
    obtain ⟨r', q', s''⟩ := y
    simp only at hresult hpacket hsession
    subst hresult hsession
    cases r' with
    | error e => exact giveUp_of_reads hpacket _ _
    | ok u => exact injectAsIs_of_reads _ hpacket _
  · rfl

end Session

namespace Station

/-! ## Stations that differ in what is remembered -/

/-- Two stations differ at most in that headers of packets in the slots of the second have been
found. -/
structure Alike (st st' : Station Memory) : Prop where
  session : st'.session = st.session
  holders : st'.holders = st.holders
  loop : st'.loop = st.loop
  slots : ∀ i, Option.Rel Packet.Reads (st.slot? i) (st'.slot? i)

/-- Two answered steps leave stations that are alike, and are answered alike unless the answer
shows what is remembered. -/
structure Agree (shown : Bool) (x y : Answer × Station Memory) : Prop where
  answer : shown = false → y.1 = x.1
  alike : Alike x.2 y.2

namespace Alike

variable {st st' : Station Memory} {c : Bool}

theorem refl (st : Station Memory) : Alike st st := by
  refine ⟨rfl, rfl, rfl, fun i => ?_⟩
  cases st.slot? i with
  | none => exact .none
  | some p => exact .some (.refl p)

/-- The same is said of both stations. -/
theorem agree (h : Alike st st') (a : Answer) : Agree c (a, st) (a, st') := ⟨fun _ => rfl, h⟩

theorem withSession (h : Alike st st') (s : Session Memory) :
    Alike (st.withSession s) (st'.withSession s) := ⟨rfl, h.holders, h.loop, h.slots⟩

theorem withLoop (h : Alike st st') (l : Option Loop) :
    Alike { st with loop := l } { st' with loop := l } := ⟨h.session, h.holders, rfl, h.slots⟩

theorem setSlot {p q : Option Packet} (h : Alike st st') (i : Slot)
    (hpq : Option.Rel Packet.Reads p q) : Alike (st.setSlot i p) (st'.setSlot i q) := by
  refine ⟨h.session, h.holders, h.loop, fun j => ?_⟩
  rw [slot?_setSlot, slot?_setSlot]
  split
  · exact hpq
  · exact h.slots j

theorem onHolder {act act' : Unit → Answer × Station Memory} (h : Alike st st') (n : Nat)
    (hact : Agree c (act ()) (act' ())) : Agree c (st.onHolder n act) (st'.onHolder n act') := by
  unfold Station.onHolder holds
  rw [h.holders]
  split
  · exact hact
  · exact h.agree _

/-- A slot is empty in both stations or in neither. -/
theorem slot_cases (h : Alike st st') (i : Slot) :
    (st.slot? i = none ∧ st'.slot? i = none) ∨
      ∃ p q, st.slot? i = some p ∧ st'.slot? i = some q ∧ p.Reads q := by
  have hslot := h.slots i
  cases hp : st.slot? i <;> cases hq : st'.slot? i <;> rw [hp, hq] at hslot <;> cases hslot
  · exact .inl ⟨rfl, rfl⟩
  · next hreads => exact .inr ⟨_, _, rfl, rfl, hreads⟩

theorem onPacket {act act' : Packet → Answer × Packet × Session Memory} (h : Alike st st')
    (i : Slot) (hact : ∀ p q, p.Reads q → (c = false → (act' q).1 = (act p).1) ∧
      (act p).2.1.Reads (act' q).2.1 ∧ (act' q).2.2 = (act p).2.2) :
    Agree c (st.onPacket i act) (st'.onPacket i act') := by
  unfold Station.onPacket
  rcases h.slot_cases i with ⟨hp, hq⟩ | ⟨p, q, hp, hq, hreads⟩
  · rw [hp, hq]
    exact h.agree _
  · rw [hp, hq]
    obtain ⟨hanswer, hpacket, hsession⟩ := hact p q hreads
    refine ⟨hanswer, ?_⟩
    change Alike ((st.withSession (act p).2.2).setSlot i _)
      ((st'.withSession (act' q).2.2).setSlot i _)
    rw [hsession]
    exact (h.withSession _).setSlot i (.some hpacket)

theorem onPacketWith {act act' : Packet → Answer × Packet × Session Memory} (h : Alike st st')
    (i : Slot) (n : Nat) (hact : ∀ p q, p.Reads q → (c = false → (act' q).1 = (act p).1) ∧
      (act p).2.1.Reads (act' q).2.1 ∧ (act' q).2.2 = (act p).2.2) :
    Agree c (st.onPacketWith i n act) (st'.onPacketWith i n act') := by
  have hsome : (st'.slot? i).isSome = (st.slot? i).isSome := by
    rcases h.slot_cases i with ⟨hp, hq⟩ | ⟨p, q, hp, hq, -⟩ <;> rw [hp, hq]
    rfl
  unfold Station.onPacketWith
  rw [hsome]
  split
  · exact h.onHolder n (h.onPacket i hact)
  · exact h.agree _

/-- Giving up a packet gives the same buffer back. -/
theorem clearSlot (h : Alike st st') (i : Slot) :
    (st'.clearSlot i).1 = (st.clearSlot i).1 ∧ Alike (st.clearSlot i).2 (st'.clearSlot i).2 := by
  unfold Station.clearSlot
  rcases h.slot_cases i with ⟨hp, hq⟩ | ⟨p, q, hp, hq, hreads⟩
  · rw [hp, hq]
    exact ⟨rfl, h⟩
  · rw [hp, hq]
    simp only
    rw [h.session, Session.dropPacket_of_reads hreads]
    exact ⟨rfl, (h.withSession _).setSlot i .none⟩

theorem place (h : Alike st st') (i : Slot) (r : Except Fault Packet) :
    Agree c (st.place i r) (st'.place i r) := by
  cases r with
  | error e => cases e <;> exact h.agree _
  | ok p =>
      obtain ⟨hanswer, halike⟩ := h.clearSlot i
      refine ⟨fun _ => ?_, halike.setSlot i (.some (.refl p))⟩
      change Answer.ofResult _ (st'.clearSlot i).1 = Answer.ofResult _ (st.clearSlot i).1
      rw [hanswer]

/-! ## The loop, which never finds headers -/

theorem startWith (h : Alike st st')
    (start : Session Memory → Except Fault Loop × Session Memory) :
    Agree c (st.startWith start) (st'.startWith start) := by
  unfold Station.startWith
  rw [h.loop, h.session]
  split
  · exact h.agree _
  · exact ⟨fun _ => rfl, (h.withSession _).withLoop _⟩

theorem moveLoop (D : Driver Memory) (h : Alike st st') :
    Alike ((st.moveLoop? D).getD st) ((st'.moveLoop? D).getD st') := by
  unfold moveLoop?
  rw [h.loop, h.session]
  cases st.loop with
  | none => exact h
  | some l =>
      simp only [Option.bind_some]
      cases l.move D st.session with
      | none => exact h
      | some r => exact (h.withSession _).withLoop _

theorem consume (h : Alike st st') (i : Slot) : Agree c (st.consume i) (st'.consume i) := by
  obtain ⟨hanswer, halike⟩ := h.clearSlot i
  unfold Station.consume
  rw [h.loop]
  cases st.loop with
  | none => exact h.agree _
  | some l =>
      simp only
      split
      · exact h.agree _
      · cases l.take? with
        | none =>
            simp only
            split
            · exact ⟨fun _ => congrArg (Answer.ofResult fun _ => .disconnected) hanswer,
                halike.withLoop _⟩
            · exact h.agree _
        | some r =>
            obtain ⟨p, l'⟩ := r
            exact ⟨fun _ => congrArg (Answer.ofResult fun _ => .number p.len) hanswer,
              (halike.withLoop _).setSlot i (.some (.refl p))⟩

theorem dropQueue (h : Alike st st') : Agree c st.dropQueue st'.dropQueue := by
  unfold Station.dropQueue
  rw [h.loop, h.session]
  cases st.loop with
  | none => exact h.agree _
  | some l =>
      simp only
      split
      · exact h.agree _
      · exact ⟨fun _ => rfl, (h.withSession _).withLoop _⟩

end Alike

/-! ## Steps -/

/-- The answer to the step shows what is remembered of the headers. -/
def Step.showsLayout : Step → Bool
  | .packet _ op => op.showsLayout
  | _ => false

variable {st st' : Station Memory}

/-- **Stations that are alike stay so**, and answer alike. -/
theorem Alike.step (h : Alike st st') (x : Step) :
    Agree x.showsLayout (st.step Memory.driver x) (st'.step Memory.driver x) := by
  cases x with
  | packet i op =>
      simp only [Station.step]
      refine h.onPacket i fun p q hreads => ?_
      obtain ⟨hanswer, hpacket⟩ := hreads.run op
      exact ⟨fun hop => congrArg (Answer.ofResult .reply) (hanswer hop), hpacket, h.session⟩
  | checksums i n =>
      simp only [Station.step]
      refine h.onPacketWith i n fun p q hreads => ?_
      rw [h.session]
      obtain ⟨hresult, hpacket, hsession⟩ := Session.checksums_of_reads hreads st.session
      exact ⟨fun _ => congrArg (Answer.ofRefusable fun _ => .done) hresult, hpacket, hsession⟩
  | evalFilter i n f =>
      simp only [Station.step]
      refine h.onPacketWith i n fun p q hreads => ?_
      rw [h.session, Session.evalFilter_of_reads _ f hreads]
      exact ⟨fun _ => rfl, hreads, rfl⟩
  | sendKept i n =>
      simp only [Station.step]
      refine h.onPacketWith i n fun p q hreads => ?_
      rw [h.session, Session.send_of_reads _ hreads]
      exact ⟨fun _ => rfl, hreads, rfl⟩
  | newPacket i b a =>
      simp only [Station.step, h.session]
      exact (h.withSession _).place i _
  | newFromStorage i offset b len a =>
      simp only [Station.step, h.session]
      exact (h.withSession _).place i _
  | recv i n =>
      simp only [Station.step]
      refine h.onHolder n ?_
      rw [h.session]
      cases st.session.recv Memory.driver with
      | none => exact h.agree _
      | some r => exact (h.withSession _).place i _
  | dropPacket i =>
      simp only [Station.step]
      obtain ⟨hanswer, halike⟩ := h.clearSlot i
      exact ⟨fun _ => congrArg (Answer.ofResult fun _ => .done) hanswer, halike⟩
  | inject i n =>
      simp only [Station.step]
      refine h.onHolder n ?_
      rcases h.slot_cases i with ⟨hp, hq⟩ | ⟨p, q, hp, hq, hreads⟩
      · rw [hp, hq]
        exact h.agree _
      · rw [hp, hq]
        simp only
        rw [h.session, Session.inject_of_reads hreads]
        exact ⟨fun _ => rfl, (h.withSession _).setSlot i .none⟩
  | share n =>
      simp only [Station.step]
      refine h.onHolder n ?_
      rw [h.session, h.holders]
      exact ⟨fun _ => rfl, rfl, rfl, h.loop, h.slots⟩
  | close n =>
      simp only [Station.step]
      refine h.onHolder n ?_
      rw [h.session]
      exact ⟨fun _ => rfl, h.withSession _⟩
  | leave n =>
      simp only [Station.step]
      refine h.onHolder n ?_
      rw [h.session, h.holders]
      exact ⟨fun _ => rfl, rfl, rfl, h.loop, h.slots⟩
  | startLoop n host =>
      simp only [Station.step]
      exact h.onHolder n (h.startWith _)
  | startLoopOnRuntime n runtime =>
      simp only [Station.step]
      exact h.onHolder n (h.startWith _)
  | moveLoop => exact ⟨fun _ => rfl, h.moveLoop _⟩
  | consume i =>
      simp only [Station.step]
      exact h.consume i
  | dropQueue =>
      simp only [Station.step]
      exact h.dropQueue

/-- Looking for the headers of a packet. -/
def Step.parse (i : Slot) : Step := .packet i (.ask .parse)

/-- Looking for headers in the second station only. -/
theorem Alike.parse (h : Alike st st') (i : Slot) :
    Alike st (st'.step Memory.driver (.parse i)).2 := by
  simp only [Station.step, Step.parse, Station.onPacket]
  rcases h.slot_cases i with ⟨hp, hq⟩ | ⟨p, q, hp, hq, hreads⟩
  · rw [hq]
    exact h
  · rw [hq]
    refine ⟨h.session, h.holders, h.loop, fun j => ?_⟩
    change Option.Rel _ _ ((Station.setSlot i (some q.located) _).slot? j)
    rw [slot?_setSlot]
    split
    · next hij =>
        rw [← hij, hp]
        exact .some hreads.locate
    · exact h.slots j

/-! ## Histories with inserted deeds -/

/-- A step of the history itself, or an inserted look for the headers of a packet. -/
inductive Deed where
  | own (x : Step)
  | parse (i : Slot)

namespace Deed

/-- The deed is not an inserted look at the headers. -/
def isOwn : Deed → Bool
  | own _ => true
  | parse _ => false

/-- The step that a deed comes to. -/
def step : Deed → Step
  | own x => x
  | parse i => .parse i

end Deed

/-- A station over the memory driver after deeds in turn. -/
def perform (ds : List Deed) (st : Station Memory) : Station Memory :=
  st.run Memory.driver (ds.map Deed.step)

/-- The answers to the steps of the history itself, but for listings. -/
def answers : List Deed → Station Memory → List Answer
  | [], _ => []
  | .parse i :: ds, st => answers ds (st.step Memory.driver (.parse i)).2
  | .own x :: ds, st =>
    if x.showsLayout then answers ds (st.step Memory.driver x).2
    else (st.step Memory.driver x).1 :: answers ds (st.step Memory.driver x).2

/-- What can be seen of a packet besides what is remembered of its headers: its bytes with the
storage behind them, its length, its address, and whether a change was asked for. -/
def visible (p : Packet) : Buffer × Address × Bool := (p.buffer, p.address, p.needsChecksum)

/-- The two histories side by side. -/
theorem Alike.perform (h : Alike st st') (ds : List Deed) :
    answers ds st' = answers (ds.filter Deed.isOwn) st ∧
      Alike (perform (ds.filter Deed.isOwn) st) (perform ds st') := by
  induction ds generalizing st st' with
  | nil => exact ⟨rfl, h⟩
  | cons d ds ih =>
      cases d with
      | parse i => exact ih (h.parse i)
      | own x =>
          obtain ⟨hanswer, halike⟩ := h.step x
          obtain ⟨hanswers, hperform⟩ := ih halike
          refine ⟨?_, hperform⟩
          rw [List.filter_cons_of_pos (by rfl), answers, answers, hanswers]
          cases hx : x.showsLayout with
          | true => rfl
          | false => rw [hanswer hx]

/-- **Finding headers early cannot be observed.** Wherever looks for the headers of packets are
inserted into a history over the memory driver, and however many: the steps of the history are
answered as without them, but for listings; and in the end the session, with what was sent, how
often checksums were recomputed and the buffers that came back, the holders, the loop and the
packets are as without them, but for what is remembered of the headers. -/
theorem parse_unobserved (ds : List Deed) (st : Station Memory) :
    answers ds st = answers (ds.filter Deed.isOwn) st ∧
      (perform ds st).session = (perform (ds.filter Deed.isOwn) st).session ∧
      (perform ds st).holders = (perform (ds.filter Deed.isOwn) st).holders ∧
      (perform ds st).loop = (perform (ds.filter Deed.isOwn) st).loop ∧
      ∀ i, ((perform ds st).slot? i).map visible =
        ((perform (ds.filter Deed.isOwn) st).slot? i).map visible := by
  obtain ⟨hanswers, halike⟩ := (Alike.refl st).perform ds
  refine ⟨hanswers, halike.session, halike.holders, halike.loop, fun i => ?_⟩
  rcases halike.slot_cases i with ⟨hp, hq⟩ | ⟨p, q, hp, hq, hreads⟩
  · rw [hp, hq]
  · rw [hp, hq, Option.map_some, Option.map_some, visible, visible, hreads.buffer,
      hreads.address, hreads.needsChecksum]

end Station

end Intercept
