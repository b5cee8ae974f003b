import Intercept.Proofs.Packet.Payload

set_option autoImplicit false

/-! # Resizing a TCP payload in steps

The payload of a TCP packet can be replaced without bringing the length of the packet up to date,
and the length can be brought up to date on its own. `resizeAll_updateLength` says that only the
last payload matters: however often the payload grew and shrank on the way, and wherever the length
was brought up to date in between, the packet ends as if that payload had been put in place of the
first one at once, down to the last byte of its storage.

Of a step nothing is left that a later payload does not wipe out (`Absorbed`). A payload that was
put in place is overwritten, and a length that was stated is stated anew: `Alike` says of two
packets that they differ in nothing else, and `Alike.eq_of_settled` that they become equal. The run
is then an induction on the steps, from the last payload backwards. -/

namespace Intercept

namespace Packet

/-! ## The steps -/

/-- A step of resizing the payload of a TCP packet. -/
inductive Resize where
  /-- Replace the payload in the open segment. -/
  | replace (data : Bytes)
  /-- Replace the payload and bring the length up to date. -/
  | replaceAndSettle (data : Bytes)
  /-- Bring the length up to date. -/
  | settle

/-- The operation that makes a step. -/
def Resize.op : Resize → Op
  | .replace data => .withTcp [.payload data]
  | .replaceAndSettle data => .setTcpPayload data
  | .settle => .updateLength

/-- The payload that a step put in place, if it was to and was not refused. -/
def Resize.granted (x : Resize) (p : Packet) : Option Bytes :=
  match x, (p.run x.op).1 with
  | .replace data, .ok (.headers [.segmentLen _]) => some data
  | .replaceAndSettle data, .ok .done => some data
  | _, _ => none

/-- The packet after the steps. -/
def resizeAll (xs : List Resize) (p : Packet) : Packet :=
  xs.foldl (fun p x => (p.run x.op).2) p

/-- The last payload that one of the steps put in place. -/
def lastPayload : List Resize → Packet → Option Bytes
  | [], _ => none
  | x :: xs, p => (lastPayload xs (p.run x.op).2).or (x.granted p)

variable {p q r : Packet} {l m : Layout} {data : Bytes}

/-! ## Packets that are the same but for the stated length -/

/-- Two packets that differ in nothing but what bringing the length up to date writes: the length
field of the IP header, the length of the packet, and the mark that the header was changed. -/
structure Alike (l m : Layout) (p q : Packet) : Prop where
  layout : l.stated = m.stated
  address : p.address = q.address
  byte : ∀ i, 8 * i + 8 ≤ l.lengthField.first ∨
    l.lengthField.first + l.lengthField.width ≤ 8 * i →
      p.buffer.storage.bytes.byte i = q.buffer.storage.bytes.byte i

namespace Alike

/-- What does not depend on the mark is the same in both layouts. -/
theorem same {α : Type} (h : Alike l m p q) (f : Layout → α) (hf : ∀ x, f x.stated = f x) :
    f l = f m := by
  rw [← hf l, ← hf m, h.layout]

theorem ipHeaderLen (h : Alike l m p q) : l.ipHeaderLen = m.ipHeaderLen :=
  h.same Layout.ipHeaderLen fun _ => rfl

theorem lengthField (h : Alike l m p q) : l.lengthField = m.lengthField :=
  h.same Layout.lengthField fun _ => rfl

/-- A packet and itself with its length brought up to date are alike. -/
theorem of_settled (h : p.Settled l q) : Alike l l.stated p q := by
  refine ⟨rfl, h.address.symm, fun i hi => ?_⟩
  rw [h.bytes, Field.byte_write_of_outside hi]

/-- The length field lies before the TCP header, so alike packets have TCP headers of one length. -/
theorem tcpHeaderLen (h : Alike l m p q) (hp : p.Resizable l) (hq : q.Resizable m) :
    p.tcpHeaderLen l = q.tcpHeaderLen m := by
  have hb := hp.bounds
  have hfield := l.lengthField_bounds
  exact (hp.tcpHeaderLen_congr hq h.ipHeaderLen.symm (h.byte _ (Or.inr (by omega))).symm).symm

/-- Alike packets are still so with the same payload. -/
theorem replaced {p' q' : Packet} (h : Alike l m p q)
    (hlen : p.tcpHeaderLen l = q.tcpHeaderLen m)
    (hp' : p.Replaced data l p') (hq' : q.Replaced data m q') :
    Alike (l.withPayload (p.tcpHeaderLen l) data.size) (m.withPayload (q.tcpHeaderLen m) data.size)
      p' q' := by
  refine ⟨?_, ?_, fun i hi => ?_⟩
  · rw [hlen]
    exact congrArg (Layout.withPayload (q.tcpHeaderLen m) data.size) h.layout
  · rw [hp'.address, hq'.address, h.address]
  · rw [hp'.byte, hq'.byte, hlen, ← h.ipHeaderLen]
    split
    · exact h.byte i hi
    · rfl

/-- **Bringing the length up to date makes alike packets equal.** -/
theorem eq_of_settled {p' q' : Packet} (h : Alike l m p q) (hp : p.Settled l p')
    (hq : q.Settled m q') : p' = q' := by
  have hfield := l.lengthField_bounds
  have hstated : l.statedLen = m.statedLen := h.same Layout.statedLen fun _ => rfl
  have hend : l.segmentEnd = m.segmentEnd := h.same Layout.segmentEnd fun _ => rfl
  refine ext_of_bytes ?_ ?_ ?_ ?_
  · rw [hp.bytes, hq.bytes, ← h.lengthField, ← hstated]
    -- the field is written over, so only what is around it has to be the same
    refine Field.write_congr ?_ fun i hi => ?_
    · exact p.buffer.storage.size_eq.trans q.buffer.storage.size_eq.symm
    · unfold Bytes.bit
      rw [h.byte (i / 8) (by omega)]
  · rw [hp.len, hq.len, hend]
  · rw [hp.address, hq.address, h.address]
  · rw [hp.layout, hq.layout, h.layout]

/-- Alike packets end as one when their length is brought up to date. -/
theorem updateLength (h : Alike l m p q) (hp : p.Resizable l) (hq : q.Resizable m) :
    p.updateLength = q.updateLength := by
  obtain ⟨p', hp', hsp, -⟩ := hp.settled
  obtain ⟨q', hq', hsq, -⟩ := hq.settled
  rw [hp', hq', h.eq_of_settled hsp hsq]

end Alike

/-- Alike packets end as one when the same payload is put in place. -/
theorem Alike.setTcpPayload (h : Alike l m p q) (hp : p.Resizable l) (hq : q.Resizable m)
    (hfit : p.tcpHeaderLen l + data.size ≤ l.maxSegmentLen) :
    p.setTcpPayload data = q.setTcpPayload data := by
  have hlen := h.tcpHeaderLen hp hq
  have hmax : l.maxSegmentLen = m.maxSegmentLen := h.same Layout.maxSegmentLen fun _ => rfl
  obtain ⟨d, hd⟩ := hp.exists_setPayload hfit
  obtain ⟨e, he⟩ := hq.exists_setPayload (hlen ▸ hmax ▸ hfit)
  obtain ⟨hrp, hp'⟩ := hp.replaced hd
  obtain ⟨hrq, hq'⟩ := hq.replaced he
  rw [hp.setTcpPayload hd, hq.setTcpPayload he, (h.replaced hlen hrp hrq).updateLength hp' hq']

/-! ## What a step leaves -/

/-- What is left of the packet `p` when it has become `q`: it can be resized just as well, and a
payload that is put in place now ends as if it had been put in place then. -/
structure Absorbed (l m : Layout) (p q : Packet) : Prop where
  resizable : q.Resizable m
  room : m.maxSegmentLen = l.maxSegmentLen
  header : q.tcpHeaderLen m = p.tcpHeaderLen l
  setTcpPayload : ∀ data : Bytes, p.tcpHeaderLen l + data.size ≤ l.maxSegmentLen →
    q.setTcpPayload data = p.setTcpPayload data

theorem Absorbed.refl (h : p.Resizable l) : Absorbed l l p p := ⟨h, rfl, rfl, fun _ _ => rfl⟩

theorem Absorbed.trans {k : Layout} (h : Absorbed l m p q) (h' : Absorbed m k q r) :
    Absorbed l k p r := by
  refine ⟨h'.resizable, h'.room.trans h.room, h'.header.trans h.header, fun data hfit => ?_⟩
  rw [h'.setTcpPayload data (by rw [h.header, h.room]; exact hfit), h.setTcpPayload data hfit]

theorem Resizable.absorbed_of_settled (h : p.Resizable l) (hs : p.Settled l q)
    (hq : q.Resizable l.stated) : Absorbed l l.stated p q := by
  have hsame := Alike.of_settled hs
  exact ⟨hq, rfl, (hsame.tcpHeaderLen h hq).symm, fun _ hfit =>
    (hsame.setTcpPayload h hq hfit).symm⟩

/-- A payload that was put in place leaves no trace once another is. -/
theorem Resizable.absorbed_of_setPayload {d : Tcp.Draft} (h : p.Resizable l)
    (hd : Tcp.setPayload data (p.space l) = .ok d) :
    Absorbed l (l.withPayload (p.tcpHeaderLen l) data.size) p (p.putTcp d) := by
  obtain ⟨hr, hq⟩ := h.replaced hd
  have hhead := h.header
  have hlen : (p.putTcp d).tcpHeaderLen (l.withPayload (p.tcpHeaderLen l) data.size) =
      p.tcpHeaderLen l := by
    refine h.tcpHeaderLen_congr hq rfl ?_
    rw [hr.byte, if_pos (by omega)]
  refine ⟨hq, rfl, hlen, fun other hfit => ?_⟩
  obtain ⟨e, he⟩ := h.exists_setPayload hfit
  obtain ⟨e', he'⟩ := hq.exists_setPayload (hlen.symm ▸ hfit)
  obtain ⟨hre, -⟩ := h.replaced he
  obtain ⟨hre', -⟩ := hq.replaced he'
  have hbyte : ∀ i, ((p.putTcp d).putTcp e').buffer.storage.bytes.byte i =
      if i < l.ipHeaderLen + p.tcpHeaderLen l then (p.putTcp d).buffer.storage.bytes.byte i
      else other.byte (i - (l.ipHeaderLen + p.tcpHeaderLen l)) := fun i => by
    rw [hre'.byte, hlen]
    rfl
  -- the packets are the same before the length is brought up to date
  have hsame : (p.putTcp d).putTcp e' = p.putTcp e := by
    refine ext_of_bytes ?_ ?_ ?_ ?_
    · refine Bytes.ext_byte ?_ fun i _ => ?_
      · rw [Storage.size_eq, Storage.size_eq]
      · rw [hbyte, hre.byte]
        split
        · next hi => rw [hr.byte, if_pos hi]
        · rfl
    · rw [hre'.len, hr.len, hre.len]
    · rw [hre'.address, hr.address, hre.address]
    · rw [hre'.layout, hre.layout, hlen]
      rfl
  rw [hq.setTcpPayload he', h.setTcpPayload he, hsame]

/-- With its length brought up to date `q` is `p` with the payload that was put in place, or `p` as
it was if there was none. -/
def EndsAs (granted : Option Bytes) (l : Layout) (p q : Packet) : Prop :=
  match granted with
  | none => q.updateLength = p.updateLength
  | some data => p.tcpHeaderLen l + data.size ≤ l.maxSegmentLen ∧
      q.updateLength = p.setTcpPayload data

/-- A payload that fits is put in place in the open segment, and one that does not is refused with
nothing changed. -/
theorem Resizable.run_replace (h : p.Resizable l) (data : Bytes) :
    (p.tcpHeaderLen l + data.size ≤ l.maxSegmentLen ∧
      ∃ d, Tcp.setPayload data (p.space l) = .ok d ∧
        p.run (Resize.replace data).op = (.ok (.headers [.segmentLen d.len]), p.putTcp d)) ∨
    (l.maxSegmentLen < p.tcpHeaderLen l + data.size ∧
      ∃ c, p.run (Resize.replace data).op = (.ok (.headers [.malformed c]), p)) := by
  have hloc := located_of_layout h.layout
  simp only [Resize.op, run, withTcp, h.openTcp_eq, answerAll, NextDraft.answer, hloc, putNext]
  cases hd : Tcp.setPayload data (p.space l) with
  | error c =>
      simp only [putTcp_space h.layout]
      exact Or.inr ⟨h.lt_of_setPayload hd, c, rfl⟩
  | ok d =>
      have hfit := (Tcp.setPayload_eq_ok.1 hd).1
      rw [h.size_space] at hfit
      exact Or.inl ⟨hfit, d, rfl, rfl⟩

theorem Resizable.step_replace (h : p.Resizable l) (data : Bytes) :
    ∃ m, Absorbed l m p (p.run (Resize.replace data).op).2 ∧
      EndsAs ((Resize.replace data).granted p) l p (p.run (Resize.replace data).op).2 := by
  rcases h.run_replace data with ⟨hfit, d, hd, hrun⟩ | ⟨-, c, hrun⟩
  · simp only [Resize.granted, hrun]
    exact ⟨_, h.absorbed_of_setPayload hd, hfit, (h.setTcpPayload hd).symm⟩
  · simp only [Resize.granted, hrun]
    exact ⟨l, .refl h, rfl⟩

/-- A payload that fits is put in place and the length brought up to date, and one that does not is
refused with nothing changed. -/
theorem Resizable.run_replaceAndSettle (h : p.Resizable l) (data : Bytes) :
    (p.tcpHeaderLen l + data.size ≤ l.maxSegmentLen ∧
      ∃ d q, Tcp.setPayload data (p.space l) = .ok d ∧
        (p.putTcp d).updateLength = (.ok (), q) ∧
        p.run (Resize.replaceAndSettle data).op = (.ok .done, q)) ∨
    (l.maxSegmentLen < p.tcpHeaderLen l + data.size ∧
      ∃ c, p.run (Resize.replaceAndSettle data).op = (.error (.malformed c), p)) := by
  cases hd : Tcp.setPayload data (p.space l) with
  | error c =>
      refine Or.inr ⟨h.lt_of_setPayload hd, c, ?_⟩
      simp only [Resize.op, run, Packet.setTcpPayload, h.openTcp_eq, hd,
        located_of_layout h.layout, answering, Except.map]
  | ok d =>
      have hfit := (Tcp.setPayload_eq_ok.1 hd).1
      rw [h.size_space] at hfit
      obtain ⟨q, hup, -, -⟩ := (h.replaced hd).2.settled
      refine Or.inl ⟨hfit, d, q, rfl, hup, ?_⟩
      simp only [Resize.op, run, h.setTcpPayload hd, hup, answering, Except.map]

theorem Resizable.step_replaceAndSettle (h : p.Resizable l) (data : Bytes) :
    ∃ m, Absorbed l m p (p.run (Resize.replaceAndSettle data).op).2 ∧
      EndsAs ((Resize.replaceAndSettle data).granted p) l p
        (p.run (Resize.replaceAndSettle data).op).2 := by
  rcases h.run_replaceAndSettle data with ⟨hfit, d, q, hd, hup, hrun⟩ | ⟨-, c, hrun⟩
  · obtain ⟨-, hput⟩ := h.replaced hd
    obtain ⟨q', hup', hs, hq⟩ := hput.settled
    rw [hup] at hup'
    cases hup'
    have hsame := (Alike.of_settled hs).updateLength hput hq
    simp only [Resize.granted, hrun]
    exact ⟨_, (h.absorbed_of_setPayload hd).trans (hput.absorbed_of_settled hs hq), hfit,
      hsame.symm.trans (h.setTcpPayload hd).symm⟩
  · simp only [Resize.granted, hrun]
    exact ⟨l, .refl h, rfl⟩

theorem Resizable.step_settle (h : p.Resizable l) :
    ∃ m, Absorbed l m p (p.run Resize.settle.op).2 ∧
      EndsAs (Resize.settle.granted p) l p (p.run Resize.settle.op).2 := by
  obtain ⟨q, hup, hs, hq⟩ := h.settled
  have hrun : p.run Resize.settle.op = (.ok .done, q) := by
    simp only [Resize.op, run, hup, answering, Except.map]
  simp only [Resize.granted, hrun]
  exact ⟨_, h.absorbed_of_settled hs hq, ((Alike.of_settled hs).updateLength h hq).symm⟩

/-- **What one step leaves**: a packet that can be resized just as well, and that ends with the
payload that the step put in place, or as it would have without the step. -/
theorem Resizable.step (h : p.Resizable l) (x : Resize) :
    ∃ m, Absorbed l m p (p.run x.op).2 ∧ EndsAs (x.granted p) l p (p.run x.op).2 := by
  cases x with
  | replace data => exact h.step_replace data
  | replaceAndSettle data => exact h.step_replaceAndSettle data
  | settle => exact h.step_settle

/-- What any number of steps leave. -/
theorem Resizable.endsAs_resizeAll (h : p.Resizable l) (xs : List Resize) :
    EndsAs (lastPayload xs p) l p (resizeAll xs p) := by
  induction xs generalizing p l with
  | nil => rfl
  | cons x xs ih =>
      obtain ⟨m, habs, hx⟩ := h.step x
      have hall : resizeAll (x :: xs) p = resizeAll xs (p.run x.op).2 := rfl
      have hrest := ih habs.resizable
      rw [hall, lastPayload]
      cases hlast : lastPayload xs (p.run x.op).2 with
      | none =>
          rw [hlast] at hrest
          rw [Option.none_or]
          unfold EndsAs at hrest hx ⊢
          rwa [hrest]
      | some data =>
          -- a later payload wipes out whatever the step did
          rw [hlast] at hrest
          obtain ⟨hfit, hrest⟩ := hrest
          rw [habs.header, habs.room] at hfit
          exact ⟨hfit, hrest.trans (habs.setTcpPayload data hfit)⟩

/-! ## Packets that cannot be resized -/

/-- A step does nothing to a packet whose segment cannot be opened. -/
theorem step_of_openTcp {e : Fault} (hs : p.Sound) (h : p.openTcp = .error e) (x : Resize) :
    x.granted p = none ∧ (p.run x.op).2 = p.located := by
  cases x with
  | replace data =>
      have hrun : p.run (Resize.replace data).op = (.error e, p.located) := by
        simp only [Resize.op, run, withTcp, h]
      simp only [Resize.granted, hrun, and_self]
  | replaceAndSettle data =>
      have hrun : p.run (Resize.replaceAndSettle data).op = (.error e, p.located) := by
        simp only [Resize.op, run, setTcpPayload, h, answering, Except.map]
      simp only [Resize.granted, hrun, and_self]
  | settle => exact ⟨rfl, updateLength_of_openTcp hs h⟩

theorem lastPayload_of_openTcp {e : Fault} (hs : p.Sound) (h : p.openTcp = .error e)
    (xs : List Resize) : lastPayload xs p = none := by
  induction xs generalizing p with
  | nil => rfl
  | cons x xs ih =>
      obtain ⟨hx, hrun⟩ := step_of_openTcp hs h x
      rw [lastPayload, hx, hrun, Option.or_none]
      exact ih (hs.effects (effects_located p)) ((openTcp_located p).trans h)

/-! ## Resizing in steps -/

/-- The steps look for the headers themselves. -/
theorem run_located (x : Resize) (p : Packet) : p.located.run x.op = p.run x.op := by
  cases x with
  | replace data => simp only [Resize.op, run, withTcp, openTcp_located, located_located]
  | replaceAndSettle data =>
      simp only [Resize.op, run, setTcpPayload, openTcp_located, located_located]
  | settle => simp only [Resize.op, run, updateLength_located]

/-- **Resizing a payload in steps is resizing it once.** However often the payload of a packet was
replaced and its length brought up to date, and whichever steps were refused, bringing the length up
to date in the end leaves the packet that putting the last payload in place at once would have left,
with all of its storage. -/
theorem resizeAll_updateLength {xs : List Resize} (hp : p.Reachable)
    (h : lastPayload xs p = some data) :
    (resizeAll xs p).updateLength = p.setTcpPayload data ∧ (p.setTcpPayload data).1 = .ok () := by
  cases hopen : p.openTcp with
  | error e =>
      rw [lastPayload_of_openTcp hp.sound hopen] at h
      cases h
  | ok d =>
      obtain ⟨l, hl⟩ := resizable_of_openTcp hp.sound hopen
      -- the first step looks for the headers if nobody has before
      cases xs with
      | nil => cases h
      | cons x xs =>
          have hlast : lastPayload (x :: xs) p.located = lastPayload (x :: xs) p := by
            simp only [lastPayload, Resize.granted, run_located]
          have hall : resizeAll (x :: xs) p.located = resizeAll (x :: xs) p := by
            simp only [resizeAll, List.foldl_cons, run_located]
          have hset : p.located.setTcpPayload data = p.setTcpPayload data := by
            simp only [setTcpPayload, openTcp_located, located_located]
          have hend := hl.endsAs_resizeAll (x :: xs)
          rw [hlast, h, hall] at hend
          obtain ⟨hfit, hend⟩ := hend
          rw [hset] at hend
          refine ⟨hend, ?_⟩
          obtain ⟨e, he⟩ := hl.exists_setPayload hfit
          obtain ⟨-, hq⟩ := hl.replaced he
          obtain ⟨q, hup, -, -⟩ := hq.settled
          rw [← hset, hl.setTcpPayload he, hup]

/-- A TCP segment over IPv4, with no options and no payload. -/
def synchronize : Bytes :=
  .ofList [69, 0, 0, 40, 0, 0, 0, 0, 64, 6, 0, 0, 10, 0, 0, 1, 10, 0, 0, 2,
    0, 80, 1, 187, 0, 0, 0, 1, 0, 0, 0, 0, 80, 2, 255, 255, 0, 0, 0, 0]

/-- The headers of a new packet with the segment. -/
theorem locate_synchronize (hb : p.contents = synchronize) (hl : p.layout = none) :
    p.locate = .ok ⟨.v4, 20, 6, 20, false, false⟩ := by
  have hparse : Layout.parse synchronize = .ok ⟨.v4, 20, 6, 20, false, false⟩ := rfl
  unfold locate
  rw [hl, hb]
  simp only [hparse]
  rfl

/-- A buffer can hold the segment. -/
theorem exists_synchronize :
    ∃ b : Buffer, b.ZeroTail ∧ (ofBuffer b .blank).contents = synchronize := by
  obtain ⟨b, hb⟩ : ∃ b, (Buffer.ofStorage .blank).append? synchronize = some b :=
    ⟨_, dif_pos (by decide)⟩
  exact ⟨b, Buffer.zeroTail_append? hb (Storage.zeroFrom_blank 0), Buffer.contents_append? hb⟩

/-- A new packet with the segment can be resized, and its TCP header has twenty bytes. -/
theorem resizable_synchronize (hp : p.Reachable) (hb : p.contents = synchronize)
    (hl : p.layout = none) :
    p.located.Resizable ⟨.v4, 20, 6, 20, false, false⟩ ∧
      p.located.tcpHeaderLen ⟨.v4, 20, 6, 20, false, false⟩ = 20 := by
  have hlocate := locate_synchronize hb hl
  have hr : p.located.Resizable ⟨.v4, 20, 6, 20, false, false⟩ :=
    .of_sound (layout_located hlocate) (hp.sound.effects (effects_located p)) rfl (by decide)
  exact ⟨hr, Nat.le_antisymm hr.header.2 hr.header.1⟩

/-- A segment whose payload grows, is brought up to date and shrinks. -/
theorem resizeAll_updateLength_synchronize :
    ∃ p : Packet, p.Reachable ∧ p.contents = synchronize ∧
      let xs : List Resize :=
        [.replace (.ofList [1, 2, 3]), .settle, .replaceAndSettle (.ofList [4]), .settle]
      lastPayload xs p = some (.ofList [4]) ∧
        (resizeAll xs p).updateLength = p.setTcpPayload (.ofList [4]) ∧
        (p.setTcpPayload (.ofList [4])).1 = .ok () := by
  obtain ⟨b, hzero, hcontents⟩ := exists_synchronize
  have hp : (ofBuffer b .blank).Reachable := .fresh _ _ hzero
  obtain ⟨h, hlen⟩ := resizable_synchronize hp hcontents rfl
  generalize ofBuffer b .blank = p at hp hcontents h hlen ⊢
  obtain ⟨m, hm, -⟩ := h.step (.replace (.ofList [1, 2, 3]))
  obtain ⟨k, hk, -⟩ := hm.resizable.step .settle
  have hrun : ∀ x : Resize, p.located.run x.op = p.run x.op := fun x => run_located x p
  have hlast : lastPayload
      [.replace (.ofList [1, 2, 3]), .settle, .replaceAndSettle (.ofList [4]), .settle] p =
        some (.ofList [4]) := by
    have hfits : k.maxSegmentLen = 65515 := by
      rw [hk.room, hm.room]
      rfl
    have hheader := hk.header.trans (hm.header.trans hlen)
    rw [hrun] at hk hheader
    rcases hk.resizable.run_replaceAndSettle (.ofList [4]) with ⟨-, d, q, -, -, he⟩ | ⟨hlt, -⟩
    · simp only [lastPayload, Resize.granted, he, Option.none_or, Option.some_or]
    · rw [hfits, hheader, Bytes.size_ofList] at hlt
      exact absurd hlt (by decide)
  exact ⟨p, hp, hcontents, hlast, resizeAll_updateLength hp hlast⟩

end Packet

end Intercept
