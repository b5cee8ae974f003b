import Intercept.Proofs.Calls
import Intercept.Proofs.Injection
import Intercept.Proofs.Packet.Marking
import Intercept.Proofs.StableChecksum

set_option autoImplicit false

/-! # Sending what was changed

A packet that is sent has its checksums recomputed first if it is marked as changed.
`Packet.tracks_changes` says what the mark and the sending come to, for every packet and whatever is
done to it: the mark tells whether one of the operations before was a change, and the driver is
asked for checksums once if it does and never if it does not, before it is asked to send what it
then left of the packet, and not to send anything if it failed.

The driver may do anything to the packet when it recomputes checksums, as long as the IP header can
be found afterwards where it was (`Driver.KeepsIpHeader`). Without that, a payload could be put into
the packet and its length be refused, which would mark the packet in an operation that failed. The
marks themselves are part of the layout, which no driver sees.

Calls are counted by a driver that keeps a record of them, with all that they were made with
(`Driver.recorded`). A driver whose session is closed while a call is under way is closed after it,
so closing is left out of the count (`Session.requests`). -/

namespace Intercept

/-! ## Recording calls with what they are made with -/

namespace Driver

variable {σ : Type}

/-- The driver with a record of the calls it has answered, and of what they were made with. -/
abbrev recorded (D : Driver σ) : Driver (σ × List Request) := D.recording id

/-- The call is to close the driver. -/
def Request.isClose : Request → Bool
  | .close => true
  | _ => false

/-- Recomputing checksums leaves the version alone and, for IPv4, the length of the IP header. It
may change everything else of a packet, its address too, and may fail. -/
def KeepsIpHeader (D : Driver σ) : Prop :=
  ∀ b a s, Ipv4.version (D.checksums b a s).answer.bytes = Ipv4.version b ∧
    (Ipv4.version b = 4 → Ipv4.ihl (D.checksums b a s).answer.bytes = Ipv4.ihl b)

end Driver

/-! ## The calls of an injection -/

namespace Session

variable {σ α : Type} {D : Driver σ}

/-- The calls that a recorded driver was asked for, but for closing it. -/
def requests (s : Session (σ × List Driver.Request)) : List Driver.Request :=
  s.device.2.filter fun r => !r.isClose

theorem requests_close (s : Session (σ × List Driver.Request)) :
    (s.close D.recorded).2.requests = s.requests := by
  unfold close
  split
  · unfold requests
    simp only [Driver.recording, Call.lift, List.filter_append]
    exact List.append_nil _
  · rfl

/-- The session makes no call of its own after one, but to close the driver. -/
theorem requests_afterCall (c : Call (σ × List Driver.Request) α)
    (s : Session (σ × List Driver.Request)) :
    (s.afterCall D.recorded c).requests = c.state.2.filter fun r => !r.isClose := by
  unfold afterCall
  simp only
  split
  · exact requests_close _
  · rfl

theorem requests_send (p : Packet) (s : Session (σ × List Driver.Request)) :
    (s.send D.recorded p).2.requests =
      s.requests ++ if s.isOpen then [.send p.contents p.address] else [] := by
  unfold send
  split
  · exact (requests_afterCall _ s).trans (List.filter_append ..)
  · exact (List.append_nil _).symm

theorem requests_giveUp (r : Except Error Nat) (p : Packet)
    (s : Session (σ × List Driver.Request)) : (s.giveUp r p).2.requests = s.requests := by
  unfold requests
  rw [device_giveUp]

theorem requests_checksums (p : Packet) (s : Session (σ × List Driver.Request)) :
    (s.checksums D.recorded p).2.2.requests = s.requests ++ [.checksums p.contents p.address] :=
  (requests_afterCall _ s).trans (List.filter_append ..)

/-- The packet that is left by the driver has the bytes and the address that it answered with. -/
theorem contents_checksums (D : Driver σ) (p : Packet) (s : Session σ) :
    (s.checksums D p).2.1.contents = (D.checksums p.contents p.address s.device).answer.bytes :=
  Buffer.contents_overwrite_zero
    ((D.size_checksums p.contents p.address s.device).trans p.size_contents)

/-- **What injecting a packet asks of the driver**: to send it as it is, or, if it is marked as
changed, to recompute its checksums and then to send what that leaves, unless it fails or the
session is closed. -/
theorem requests_inject (p : Packet) (s : Session (σ × List Driver.Request)) :
    let c := D.checksums p.contents p.address s.device.1
    (s.inject D.recorded p).2.requests = s.requests ++
      if p.needsChecksum then
        .checksums p.contents p.address ::
          if c.answer.result.isOk && (s.isOpen && !c.closes) then
            [.send c.answer.bytes c.answer.address] else []
      else if s.isOpen then [.send p.contents p.address] else [] := by
  intro c
  cases hm : p.needsChecksum with
  | false =>
      rw [inject_of_unmarked hm]
      exact (requests_giveUp ..).trans (requests_send p s)
  | true =>
      cases hr : c.answer.result with
      | error e =>
          rw [inject_of_error (D := D.recorded) hm hr, requests_giveUp]
          exact requests_checksums p s
      | ok u =>
          have hopen : (s.checksums D.recorded p).2.2.isOpen = (s.isOpen && !c.closes) :=
            isOpen_afterCall ..
          have hcontents : (s.checksums D.recorded p).2.1.contents = c.answer.bytes :=
            contents_checksums D.recorded p s
          rw [inject_of_ok (D := D.recorded) hm hr, injectAsIs, requests_giveUp, requests_send,
            requests_checksums, hopen, hcontents, List.append_assoc]
          rfl

/-- The answer is the reason why the checksums could not be recomputed. -/
theorem answer_inject_of_error {p : Packet} {s : Session σ} {e : DeviceError} (hp : p.Fits)
    (hm : p.needsChecksum = true)
    (hr : (D.checksums p.contents p.address s.device).answer.result = .error e) :
    (s.inject D p).1 = .error (.refused (.checksumFailed e)) := by
  rw [inject_of_error hm hr]
  exact answer_giveUp (hp.rewrite _ _) ..

end Session

namespace Packet

variable {σ : Type} {D : Driver σ} {p : Packet}

/-! ## Whatever is done to a packet -/

/-- What may be done to a packet: an operation, or having the driver of a session, in whatever state
that is, recompute its checksums. -/
inductive Handling (σ : Type) where
  | op (op : Op)
  | checksums (session : Session σ)

/-- A packet after something was done to it. -/
def handle (D : Driver σ) (x : Handling σ) (p : Packet) : Packet :=
  match x with
  | .op op => (p.run op).2
  | .checksums s => (s.checksums D p).2.1

/-- A packet after things were done to it in turn. -/
def handleAll (D : Driver σ) : List (Handling σ) → Packet → Packet
  | [], p => p
  | x :: xs, p => handleAll D xs (p.handle D x)

/-- What is done to the packet is a change to a header of it. Recomputing checksums is none,
whatever the driver writes. -/
def Handling.modifies : Handling σ → Packet → Bool
  | .op x, p => x.modifies p
  | .checksums _, _ => false

/-- What the effects of operations keep, and recomputed checksums do, is kept by a run. -/
theorem kept_handleAll {P : Packet → Prop} (he : ∀ p p', P p → Effect p p' → P p')
    (hs : ∀ p (s : Session σ), P p → P (s.checksums D p).2.1) (hp : P p)
    (xs : List (Handling σ)) : P (p.handleAll D xs) := by
  induction xs generalizing p with
  | nil => exact hp
  | cons x xs ih =>
      refine ih ?_
      cases x with
      | op x => exact kept_of_effects he (effects_run x p) hp
      | checksums s => exact hs p s hp

/-- The IP header is found again after checksums were recomputed. -/
theorem Headed.checksums (hD : D.KeepsIpHeader) (h : p.Headed) (s : Session σ) :
    (s.checksums D p).2.1.Headed := by
  intro l hl
  have hsize := D.size_checksums p.contents p.address s.device
  obtain ⟨hversion, hihl⟩ := hD p.contents p.address s.device
  have hle := IpVersion.validate_le (h l hl)
  rw [Session.contents_checksums]
  exact IpVersion.validate_of_start (h l hl) (by rwa [hsize]) hversion hihl

theorem Headed.handleAll (hD : D.KeepsIpHeader) (h : p.Headed) (xs : List (Handling σ)) :
    (p.handleAll D xs).Headed :=
  kept_handleAll (fun _ _ h he => h.effect he) (fun _ s h => h.checksums hD s) h xs

theorem Fits.handleAll (h : p.Fits) (xs : List (Handling σ)) : (p.handleAll D xs).Fits :=
  kept_handleAll (fun _ _ h he => h.effect he) (fun _ _ h => h.rewrite _ _) h xs

/-- What one thing does to the mark: it is raised by a change, and otherwise left as it is. -/
theorem Headed.needsChecksum_handle (h : p.Headed) (x : Handling σ) :
    (p.handle D x).needsChecksum = (p.needsChecksum || x.modifies p) := by
  cases x with
  | op x => exact h.needsChecksum_run x
  | checksums s => exact (Bool.or_false _).symm

/-- **What a run does to the mark**: it is raised by the changes, wherever they are. -/
theorem Headed.needsChecksum_handleAll (hD : D.KeepsIpHeader) (h : p.Headed)
    (xs : List (Handling σ)) :
    (p.handleAll D xs).needsChecksum = true ↔
      p.needsChecksum = true ∨
        ∃ ys x zs, xs = ys ++ x :: zs ∧ x.modifies (p.handleAll D ys) = true := by
  induction xs generalizing p with
  | nil =>
      refine ⟨.inl, ?_⟩
      rintro (hm | ⟨ys, x, zs, hxs, -⟩)
      · exact hm
      · exact absurd hxs.symm (List.append_ne_nil_of_right_ne_nil ys (List.cons_ne_nil x zs))
  | cons x xs ih =>
      have hstep : (p.handle D x).needsChecksum = true ↔
          p.needsChecksum = true ∨ x.modifies p = true := by
        rw [h.needsChecksum_handle x, Bool.or_eq_true]
      have hrest : (p.handle D x).Headed := h.handleAll hD [x]
      rw [show p.handleAll D (x :: xs) = (p.handle D x).handleAll D xs from rfl, ih hrest, hstep]
      constructor
      · rintro ((hm | hx) | ⟨ys, y, zs, rfl, hy⟩)
        · exact .inl hm
        · exact .inr ⟨[], x, xs, rfl, hx⟩
        · exact .inr ⟨x :: ys, y, zs, rfl, hy⟩
      · rintro (hm | ⟨ys, y, zs, hxs, hy⟩)
        · exact .inl (.inl hm)
        · -- the change is the first thing that was done, or one of the others
          rcases List.cons_eq_append_iff.1 hxs with ⟨rfl, hcons⟩ | ⟨ys', rfl, rfl⟩
          · cases hcons
            exact .inl (.inr hy)
          · exact .inr ⟨ys', y, zs, rfl, hy⟩

/-- **The mark tells whether a packet was changed, and sending obeys it.** Whatever was done to a
packet, by operations and by a driver that recomputed its checksums in between: it is marked exactly
if one of them was a change. Operations that are refused or only read, and recomputed checksums,
leave the mark as it is, and nothing ever takes it away. Sending the packet asks the driver to
recompute its checksums once, before anything else, if it is marked, and not at all if it is not.
The driver is then asked once to send what there is now, its bytes and its address, unless the
session is closed. If the checksums could not be recomputed, nothing is sent and the reason is the
answer. -/
theorem tracks_changes (hD : D.KeepsIpHeader) (b : Buffer) (a : Address)
    (xs : List (Handling σ)) :
    let p := (ofBuffer b a).handleAll D xs
    (p.needsChecksum = true ↔ ∃ ys x zs, xs = ys ++ x :: zs ∧
      x.modifies ((ofBuffer b a).handleAll D ys) = true) ∧
    (∀ op e, (p.run op).1 = .error e → (p.run op).2.needsChecksum = p.needsChecksum) ∧
    (∀ op, op.isReadOnly = true → (p.run op).2.needsChecksum = p.needsChecksum) ∧
    (∀ s : Session σ, (s.checksums D p).2.1.needsChecksum = p.needsChecksum) ∧
    (∀ ys, p.needsChecksum = true → (p.handleAll D ys).needsChecksum = true) ∧
    ∀ s : Session (σ × List Driver.Request),
      let c := D.checksums p.contents p.address s.device.1
      ((s.inject D.recorded p).2.requests = s.requests ++
        if p.needsChecksum then
          .checksums p.contents p.address ::
            if c.answer.result.isOk && (s.isOpen && !c.closes) then
              [.send c.answer.bytes c.answer.address] else []
        else if s.isOpen then [.send p.contents p.address] else []) ∧
      ∀ e, p.needsChecksum = true → c.answer.result = .error e →
        (s.inject D.recorded p).1 = .error (.refused (.checksumFailed e)) := by
  intro p
  have hstart := headed_ofBuffer b a
  have hp : p.Headed := hstart.handleAll hD xs
  have hfits : p.Fits := (fits_ofBuffer b a).handleAll xs
  refine ⟨?_, fun op e he => ?_, fun op hop => ?_, fun s => rfl, fun ys hm => ?_,
    fun s => ⟨Session.requests_inject p s, fun e hm he => ?_⟩⟩
  · rw [hstart.needsChecksum_handleAll hD xs]
    exact or_iff_right Bool.false_ne_true
  · rw [hp.needsChecksum_run op, Op.modifies_of_error he, Bool.or_false]
  · exact (run_of_readOnly hop p).needsChecksum
  · exact (hp.needsChecksum_handleAll hD ys).2 (.inl hm)
  · exact Session.answer_inject_of_error hfits hm he

/-- A checksum never takes the first byte. -/
theorem keepsIpHeader_memory : Memory.driver.KeepsIpHeader := by
  intro b a m
  have hzero : (Checksum.fill b).2.byte 0 = b.byte 0 := (Checksum.upToChecksums_fill b).byte_zero
  exact ⟨Ipv4.version_congr hzero, fun _ => Ipv4.ihl_congr hzero⟩

/-- A datagram is sent as it is, and has its checksums recomputed before that once its time to live
was set. -/
theorem tracks_changes_ttl :
    ∃ b : Buffer, b.contents = Station.datagram ∧ Memory.driver.KeepsIpHeader ∧
      (∀ s : Session (Memory × List Driver.Request), s.isOpen = true →
        (s.inject Memory.driver.recorded (ofBuffer b .blank)).2.requests =
          s.requests ++ [.send Station.datagram .blank]) ∧
      let p := (ofBuffer b .blank).handleAll Memory.driver
        [.op (.withIp [.edit (.v4 (.set .ttl 9))])]
      p.needsChecksum = true ∧
        ∀ s : Session (Memory × List Driver.Request), ∃ rest,
          (s.inject Memory.driver.recorded p).2.requests =
            s.requests ++ .checksums p.contents p.address :: rest := by
  obtain ⟨b, hb⟩ : ∃ b, (Buffer.ofStorage .blank).append? Station.datagram = some b :=
    ⟨_, dif_pos (by decide)⟩
  have hcontents : (ofBuffer b .blank).contents = Station.datagram := Buffer.contents_append? hb
  obtain ⟨-, -, -, -, -, hfresh⟩ := tracks_changes keepsIpHeader_memory b .blank []
  obtain ⟨-, -, -, -, -, hsent⟩ := tracks_changes keepsIpHeader_memory b .blank
    [.op (.withIp [.edit (.v4 (.set .ttl 9))])]
  have hchanged : ((ofBuffer b .blank).handleAll Memory.driver
      [.op (.withIp [.edit (.v4 (.set .ttl 9))])]).needsChecksum = true :=
    (Station.datagram_changed hcontents rfl).1
  refine ⟨b, hcontents, keepsIpHeader_memory, fun s hs => ?_, hchanged, fun s => ?_⟩
  · have hunchanged : ¬((ofBuffer b .blank).handleAll Memory.driver []).needsChecksum = true :=
      Bool.false_ne_true
    have hcalls := (hfresh s).1
    rw [if_neg hunchanged, if_pos hs] at hcalls
    rw [← hcontents]
    exact hcalls
  · have hcalls := (hsent s).1
    rw [if_pos hchanged] at hcalls
    exact ⟨_, hcalls⟩

end Packet

end Intercept
