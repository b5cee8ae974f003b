import Intercept.Proofs.Packet.Resize

set_option autoImplicit false

/-! # Setting the payload of a TCP packet, all or nothing

Setting a payload takes two halves. The first writes the payload into the space behind the header,
and is refused if that is too small; the second brings the length up to date, and is refused if the
IP header cannot state it. A refusal by the second half would come too late: the first has
written by then. But the space never goes farther than the length that can be stated, for any
length of either header and for both versions (`Resizable.le_maxSegmentLen_iff`), so what passes
the first half passes the second.

This needs segments that are within that space to begin with. Those of a new packet are, unless it
holds an IPv4 packet that is longer than its header can state, and no operation lets a segment
outgrow its space (`Roomy`). So for all that becomes of a packet by operations and recomputed
checksums, setting a payload succeeds exactly if its length can be stated, does then all that it is
to do, and otherwise nothing (`setTcpPayload_allOrNothing`). -/

namespace Intercept

namespace Layout

/-- The IP header can state the length of a packet with a payload of `n` bytes behind a TCP header
of `h` bytes. -/
def CanState (h n : Nat) (l : Layout) : Prop :=
  match l.version with
  | .v4 => l.ipHeaderLen + h + n ≤ 65535
  | .v6 => h + n ≤ 65535

/-- Where the IP header states the length, in two bytes. -/
def lengthOffset (l : Layout) : Nat :=
  match l.version with
  | .v4 => 2
  | .v6 => 4

theorem lengthField_eq (l : Layout) : l.lengthField = ⟨8 * l.lengthOffset, 16⟩ := by
  unfold lengthField lengthOffset
  cases l.version <;> rfl

theorem lengthOffset_le (l : Layout) : l.lengthOffset ≤ 4 := by
  unfold lengthOffset
  cases l.version <;> decide

end Layout

namespace Packet

variable {p p' q : Packet} {l : Layout} {data : Bytes} {n : Nat}

/-! ## Segments keep to their space -/

/-- The segment of a packet that started with `n` bytes is within the space that the IP header
leaves it, unless the packet could not be stated to begin with. -/
structure Roomy (n : Nat) (p : Packet) : Prop where
  fresh : p.layout = none → p.len = n
  room : ∀ l ∈ p.layout, (l.version = .v4 → n ≤ 65535) → l.segmentLen ≤ l.maxSegmentLen

theorem roomy_of_layout (hl : p.layout = some l)
    (h : (l.version = .v4 → n ≤ 65535) → l.segmentLen ≤ l.maxSegmentLen) : p.Roomy n := by
  refine ⟨fun hnone => ?_, fun l' hl' => ?_⟩
  · rw [hl] at hnone
    cases hnone
  · rw [hl] at hl'
    cases hl'
    exact h

theorem Roomy.of_layout (h : p.Roomy n) (hl : p.layout = some l)
    (hn : l.version = .v4 → n ≤ 65535) : l.segmentLen ≤ l.maxSegmentLen := h.room l hl hn

/-- An IPv6 header is followed by at most as much as it can state, because the storage ends
there. -/
theorem Roomy.locate (h : p.Roomy n) (hp : p.layout = none)
    (hl : Layout.parse p.contents = .ok l) : { p with layout := some l }.Roomy n := by
  have hfound := Layout.found_of_parse hl
  have hsegment := hfound.segment
  have hlen : p.len ≤ bufferSize := p.buffer.len_le
  have hend : l.segmentEnd = l.ipHeaderLen + l.segmentLen := rfl
  have hstart := h.fresh hp
  rw [size_contents] at hsegment
  refine roomy_of_layout rfl fun hn => ?_
  unfold Layout.maxSegmentLen
  cases hv : l.version with
  | v4 =>
      have := hn hv
      simp only
      omega
  | v6 =>
      have hvalid := hfound.validate
      rw [hv] at hvalid
      obtain ⟨-, hheader, -⟩ := Ipv6.validate_eq_ok.1 hvalid
      simp only [Ipv6.headerLen, bufferSize] at hheader hlen ⊢
      omega

theorem Roomy.effect (he : Effect p p') (h : p.Roomy n) : p'.Roomy n := by
  cases he with
  | readdress a => exact ⟨h.fresh, h.room⟩
  | locate hp hl => exact h.locate hp hl
  | ip hl hd hk =>
      have hroom := h.of_layout hl
      exact roomy_of_layout (layout_putIp hl _) hroom
  | next hl hd hk =>
      rcases putNext_cases hl hd hk with
        he | ⟨x, -, -, -, -, he⟩ | ⟨x, -, -, -, -, hk, he⟩
      · rwa [he]
      · rw [he, putFixed_of_layout hl]
        have hroom := h.of_layout hl
        exact roomy_of_layout rfl hroom
      -- a TCP segment is written back within the space it was opened in
      · rw [he]
        have hspace := hk.sound.space
        rw [hk.size] at hspace
        exact roomy_of_layout (layout_putTcp hl x) fun _ =>
          Nat.le_trans hspace (size_space_le _ _)
  | resize hl ht hb => exact roomy_of_layout hl (h.of_layout hl)

theorem Roomy.effects (he : Effects p p') (h : p.Roomy n) : p'.Roomy n :=
  kept_of_effects (fun _ _ h he => h.effect he) he h

theorem Roomy.act (h : p.Roomy n) (x : Action) : (p.act x).Roomy n := by
  cases x with
  | op op => exact h.effects (effects_run op p)
  | refill =>
      change p.refill.Roomy n
      refine ⟨fun hp => ?_, fun l hl => ?_⟩
      · rw [layout_refill] at hp
        rw [len_refill]
        exact h.fresh hp
      · rw [layout_refill] at hl
        exact h.room l hl

theorem Roomy.actAll (h : p.Roomy n) (xs : List Action) : (p.actAll xs).Roomy n := by
  induction xs generalizing p with
  | nil => exact h
  | cons x xs ih => exact ih (h.act x)

theorem roomy_ofBuffer (b : Buffer) (a : Address) : (ofBuffer b a).Roomy b.len :=
  ⟨fun _ => rfl, fun _ hl => nomatch hl⟩

theorem Reachable.actAll (h : p.Reachable) (xs : List Action) : (p.actAll xs).Reachable := by
  induction xs generalizing p with
  | nil => exact h
  | cons x xs ih =>
      cases x with
      | op op => exact ih (.run op h)
      | refill => exact ih (.refill h)

/-- **All that becomes of a new packet can be resized**, if it is found to be a TCP packet and did
not start as an IPv4 packet that is too long to be one. -/
theorem resizable_actAll {b : Buffer} {a : Address} {xs : List Action} (hb : b.ZeroTail)
    (hl : ((ofBuffer b a).actAll xs).locate = .ok l)
    (ht : Transport.ofNumber? l.protocol = some .tcp) (hv : l.version = .v4 → b.len ≤ 65535) :
    ((ofBuffer b a).actAll xs).located.Resizable l := by
  have hsound := ((Reachable.fresh b a hb).actAll xs).sound
  have hroomy := (roomy_ofBuffer b a).actAll xs
  have hlocated := effects_located ((ofBuffer b a).actAll xs)
  exact .of_sound (layout_located hl) (hsound.effects hlocated) ht
    ((hroomy.effects hlocated).of_layout (layout_located hl) hv)

/-! ## Reading a packet that can be resized -/

namespace Resizable

theorem ofBytes_segment (h : p.Resizable l) :
    NextHeader.ofBytes l.protocol (p.buffer.storage.bytes.extract l.ipHeaderLen l.segmentEnd) =
      .ok (.tcp (p.buffer.storage.bytes.extract l.ipHeaderLen l.segmentEnd)) := by
  obtain ⟨hmin, hle, -⟩ := h.segment_header
  have hb := h.bounds
  have hend : l.segmentEnd = l.ipHeaderLen + l.segmentLen := rfl
  have hsize :
      (p.buffer.storage.bytes.extract l.ipHeaderLen l.segmentEnd).size = l.segmentLen := by
    rw [ByteArray.size_extract, p.buffer.storage.size_eq]
    omega
  unfold NextHeader.ofBytes
  rw [h.tcp]
  exact Except.map_eq_ok.2 ⟨_, Tcp.validate_eq_ok.2 ⟨rfl, hmin, by rwa [hsize]⟩, rfl⟩

theorem nextHeader_eq (h : p.Resizable l) :
    p.nextHeader =
      .ok (.tcp (p.buffer.storage.bytes.extract l.ipHeaderLen l.segmentEnd)) := by
  rw [nextHeader_of_layout h.layout h.sound.fits, h.ofBytes_segment]
  rfl

theorem tcpSegment_eq (h : p.Resizable l) :
    p.tcpSegment = .ok (p.buffer.storage.bytes.extract l.ipHeaderLen l.segmentEnd) := by
  unfold tcpSegment
  rw [h.nextHeader_eq]
  rfl

/-- The payload is what is between the TCP header and the end of the segment. -/
theorem payload_eq (h : p.Resizable l) :
    p.payload = .ok (p.buffer.storage.bytes.extract (l.ipHeaderLen + p.tcpHeaderLen l)
      l.segmentEnd) := by
  obtain ⟨-, hpayload⟩ := payload_of_layout h.layout h.sound.fits h.nextHeader_eq
  rw [hpayload, h.segment_header.2.2]
  rfl

/-! ## The two limits are one -/

/-- An IPv6 header has forty bytes. -/
theorem ipHeaderLen_eq (h : p.Resizable l) (hv : l.version = .v6) :
    l.ipHeaderLen = 40 := by
  have hvalid := h.sound.validate
  rw [hv] at hvalid
  exact (Ipv6.validate_eq_ok.1 hvalid).2.1

/-- **A payload fits the space exactly if its length can be stated.** For IPv6 the storage ends
with the longest packet that can be stated, to the byte. -/
theorem le_maxSegmentLen_iff (h : p.Resizable l) (n : Nat) :
    p.tcpHeaderLen l + n ≤ l.maxSegmentLen ↔ l.CanState (p.tcpHeaderLen l) n := by
  have hb := h.bounds
  have hmin := h.header.1
  unfold Layout.maxSegmentLen Layout.CanState
  cases hv : l.version with
  | v4 =>
      simp only [bufferSize]
      omega
  | v6 =>
      simp only [bufferSize, h.ipHeaderLen_eq hv]
      omega

end Resizable

/-! ## What a payload that is set leaves -/

/-- The packet `q` is the packet `p`, with a TCP header of `h` bytes, once its payload is set. -/
structure PayloadSet (h : Nat) (data : Bytes) (l : Layout) (p q : Packet) : Prop where
  layout : q.layout = some ⟨l.version, l.ipHeaderLen, l.protocol, h + data.size, true, true⟩
  len : q.len = l.ipHeaderLen + h + data.size
  size : q.contents.size = q.len
  address : q.address = p.address
  payload : q.payload = .ok data
  totalLen : l.version = .v4 → Ipv4.get .totalLen q.contents = q.len
  payloadLen : l.version = .v6 → Ipv6.get .payloadLen q.contents = q.len - 40
  same : ∀ i < l.ipHeaderLen + h, i ≠ l.lengthOffset → i ≠ l.lengthOffset + 1 →
    q.buffer.storage.bytes.byte i = p.buffer.storage.bytes.byte i
  zero : q.buffer.storage.ZeroFrom q.len

/-- Wherever the length is not stated, the packet is the header, the payload and zeros. -/
theorem byte_of_settled {h : Nat} {r : Packet} (hr : Replaced data l p r)
    (hq : Settled (l.withPayload h data.size) r q) {i : Nat} (h0 : i ≠ l.lengthOffset)
    (h1 : i ≠ l.lengthOffset + 1) :
    q.buffer.storage.bytes.byte i =
      if i < l.ipHeaderLen + p.tcpHeaderLen l then p.buffer.storage.bytes.byte i
      else data.byte (i - (l.ipHeaderLen + p.tcpHeaderLen l)) := by
  have hfield : (l.withPayload h data.size).lengthField = ⟨8 * l.lengthOffset, 16⟩ :=
    l.lengthField_eq
  rw [hq.bytes, hfield, Field.byte_write_of_outside (by simp only; omega)]
  exact hr.byte i

/-- The length of a packet that is up to date is found in its IP header. -/
theorem Settled.read_lengthField {r : Packet} (hq : Settled l r q) (hlen : 6 ≤ q.buffer.len) :
    l.lengthField.read q.contents = l.statedLen % 65536 := by
  obtain ⟨-, hend, -, hwidth⟩ := l.lengthField_bounds
  have hwithin : l.lengthField.Within q.buffer.len := by
    unfold Field.Within
    omega
  have hsize : (r.buffer.storage.bytes.extract 0 q.buffer.len).size = q.buffer.len := by
    rw [ByteArray.size_extract, r.buffer.storage.size_eq, Nat.min_eq_left q.buffer.len_le]
    rfl
  rw [contents, Buffer.contents, hq.bytes, Field.extract_zero_write _ hwithin,
    Field.read_write_self _ (hsize.symm ▸ hwithin), hwidth]
  rfl

theorem Settled.totalLen {r : Packet} (hq : Settled l r q) (hlen : 6 ≤ q.buffer.len)
    (hv : l.version = .v4) : Ipv4.get .totalLen q.contents = l.segmentEnd % 65536 := by
  have hread := hq.read_lengthField hlen
  simp only [Layout.lengthField, Layout.statedLen, hv] at hread
  exact hread

theorem Settled.payloadLen {r : Packet} (hq : Settled l r q) (hlen : 6 ≤ q.buffer.len)
    (hv : l.version = .v6) : Ipv6.get .payloadLen q.contents = l.segmentLen % 65536 := by
  have hread := hq.read_lengthField hlen
  simp only [Layout.lengthField, Layout.statedLen, hv] at hread
  exact hread

/-- The payload that was set is the one that is read. -/
theorem Resizable.payload_of_settled {r : Packet} (hp : p.Resizable l)
    (hr : Replaced data l p r)
    (hs : Settled (l.withPayload (p.tcpHeaderLen l) data.size) r q)
    (hq : q.Resizable (l.withPayload (p.tcpHeaderLen l) data.size).stated) :
    q.payload = .ok data := by
  have hbyte := fun i => byte_of_settled hr hs (i := i)
  have hoffset := l.lengthOffset_le
  have hmin := hp.header.1
  have hip := hp.bounds.1
  have hend : l.ipHeaderLen + (p.tcpHeaderLen l + data.size) ≤ bufferSize := hq.bounds.2.2.1
  have hheader : q.tcpHeaderLen (l.withPayload (p.tcpHeaderLen l) data.size).stated =
      p.tcpHeaderLen l :=
    hp.tcpHeaderLen_congr hq rfl (by rw [hbyte _ (by omega) (by omega), if_pos (by omega)])
  rw [hq.payload_eq, hheader]
  change Except.ok (q.buffer.storage.bytes.extract (l.ipHeaderLen + p.tcpHeaderLen l)
    (l.ipHeaderLen + (p.tcpHeaderLen l + data.size))) = _
  refine congrArg Except.ok (Bytes.ext_byte ?_ fun i hi => ?_)
  · rw [ByteArray.size_extract, q.buffer.storage.size_eq]
    omega
  · rw [Bytes.byte_extract, if_pos (by omega), hbyte _ (by omega) (by omega),
      if_neg (by omega), Nat.add_sub_cancel_left]

/-- **The second half does not fail once the first has written**, and the two together set the
payload. -/
theorem Resizable.payloadSet {d : Tcp.Draft} (h : p.Resizable l)
    (hd : Tcp.setPayload data (p.space l) = .ok d) :
    ∃ q, (p.putTcp d).updateLength = (.ok (), q) ∧
      PayloadSet (p.tcpHeaderLen l) data l p q := by
  obtain ⟨hr, hput⟩ := h.replaced hd
  obtain ⟨q, hup, hs, hq⟩ := hput.settled
  have hmin := h.header.1
  have hip := h.bounds.1
  have hoffset := l.lengthOffset_le
  have hstate := (h.le_maxSegmentLen_iff data.size).1 hput.room
  have hlen : q.len = l.ipHeaderLen + p.tcpHeaderLen l + data.size := by
    rw [hs.len, Nat.add_assoc]
    rfl
  have hsix : 6 ≤ q.len := by omega
  unfold Layout.CanState at hstate
  refine ⟨q, hup, hs.layout, hlen, size_contents q, hs.address.trans hr.address,
    h.payload_of_settled hr hs hq, fun hv => ?_, fun hv => ?_, fun i hi h0 h1 => ?_,
    fun i hi => ?_⟩
  · simp only [hv] at hstate
    rw [hs.totalLen hsix hv, ← hs.len]
    exact Nat.mod_eq_of_lt (by omega)
  · have hforty := h.ipHeaderLen_eq hv
    simp only [hv] at hstate
    rw [hs.payloadLen hsix hv, hlen]
    simp only [Layout.withPayload]
    omega
  · rw [byte_of_settled hr hs h0 h1, if_pos hi]
  · rw [byte_of_settled hr hs (by omega) (by omega), if_neg (by omega)]
    exact Bytes.byte_of_size_le (by omega)

/-! ## All or nothing -/

/-- A payload that does not fit is refused, and nothing is touched. -/
theorem Resizable.setTcpPayload_of_lt (h : p.Resizable l)
    (hlt : l.maxSegmentLen < p.tcpHeaderLen l + data.size) :
    p.setTcpPayload data = (.error (.malformed .tcpPayloadSpace), p) := by
  have hrefused : Tcp.setPayload data (p.space l) = .error .tcpPayloadSpace := by
    unfold Tcp.setPayload
    exact if_pos (by rw [h.size_space]; exact hlt)
  unfold Packet.setTcpPayload
  rw [h.openTcp_eq]
  simp only [hrefused, located_of_layout h.layout]

/-- **Setting the payload of a TCP packet is complete, and all or nothing.** For all that becomes
of a new packet by operations and recomputed checksums: it succeeds exactly if the IP header can
state the length with the new payload behind the header of the segment. If it does, the payload is
in place and the length is stated, and nothing else is touched; if it does not, nothing at all is,
apart from the headers having been found. The second half never fails after the first. -/
theorem setTcpPayload_allOrNothing {b : Buffer} (a : Address) (xs : List Action) (data : Bytes)
    (hb : b.ZeroTail) (hl : ((ofBuffer b a).actAll xs).locate = .ok l)
    (ht : Transport.ofNumber? l.protocol = some .tcp) (hv : l.version = .v4 → b.len ≤ 65535) :
    let p := (ofBuffer b a).actAll xs
    ∃ segment, p.tcpSegment = .ok segment ∧
      ((p.setTcpPayload data).1 = .ok () ↔ l.CanState (Tcp.headerLen segment) data.size) ∧
      ((p.setTcpPayload data).1 = .ok () →
        PayloadSet (Tcp.headerLen segment) data l p (p.setTcpPayload data).2) ∧
      ((p.setTcpPayload data).1 ≠ .ok () →
        (p.setTcpPayload data).2 = { p with layout := some l }) ∧
      ∀ d d', p.openTcp = .ok d → Tcp.setPayload data d = .ok d' →
        (p.located.putTcp d').updateLength.1 = .ok () := by
  intro p
  have h : p.located.Resizable l := resizable_actAll hb hl ht hv
  have hsame : p.setTcpPayload data = p.located.setTcpPayload data := by
    simp only [setTcpPayload, openTcp_located, located_located]
  have hsegment := h.tcpSegment_eq
  rw [tcpSegment, nextHeader_located, ← tcpSegment] at hsegment
  refine ⟨_, hsegment, ?_⟩
  rw [hsame, ← h.segment_header.2.2, ← h.le_maxSegmentLen_iff]
  refine and_assoc.1 (and_assoc.1 ⟨?_, fun d d' hopen hd => ?_⟩)
  · rcases Nat.lt_or_ge l.maxSegmentLen (p.located.tcpHeaderLen l + data.size) with hlt | hle
    · rw [h.setTcpPayload_of_lt hlt]
      refine ⟨⟨⟨fun hok => ?_, fun hle => by omega⟩, fun hok => ?_⟩,
        fun _ => located_of_locate hl⟩
      · cases hok
      · cases hok
    · obtain ⟨d, hd⟩ := h.exists_setPayload hle
      obtain ⟨q, hup, hset⟩ := h.payloadSet hd
      rw [h.setTcpPayload hd, hup]
      refine ⟨⟨⟨fun _ => hle, fun _ => rfl⟩, fun _ => ?_⟩, fun hne => absurd rfl hne⟩
      rw [located_of_locate hl] at hset ⊢
      exact ⟨hset.layout, hset.len, hset.size, hset.address, hset.payload, hset.totalLen,
        hset.payloadLen, hset.same, hset.zero⟩
  · rw [← openTcp_located, h.openTcp_eq] at hopen
    cases hopen
    obtain ⟨q, hup, -⟩ := h.payloadSet hd
    rw [hup]

/-- Three bytes are put into a segment, and the least number of bytes that is too much is not. -/
theorem setTcpPayload_allOrNothing_synchronize :
    ∃ (b : Buffer) (l : Layout), let p := ofBuffer b .blank
      (b.ZeroTail ∧ p.contents = synchronize ∧ p.locate = .ok l ∧
        Transport.ofNumber? l.protocol = some .tcp ∧ (l.version = .v4 → b.len ≤ 65535)) ∧
      PayloadSet 20 (.ofList [1, 2, 3]) l p (p.setTcpPayload (.ofList [1, 2, 3])).2 ∧
        (p.setTcpPayload (Bytes.zeros 65496)).2 = { p with layout := some l } := by
  obtain ⟨b, hb⟩ : ∃ b, (Buffer.ofStorage .blank).append? synchronize = some b :=
    ⟨_, dif_pos (by decide)⟩
  have hzero := Buffer.zeroTail_append? hb (Storage.zeroFrom_blank 0)
  have hcontents : (ofBuffer b .blank).contents = synchronize := Buffer.contents_append? hb
  obtain ⟨hr, hheader⟩ := resizable_synchronize (.fresh b .blank hzero) hcontents rfl
  have hlocate : (ofBuffer b .blank).locate = .ok ⟨.v4, 20, 6, 20, false, false⟩ := by
    rw [← locate_located, locate_of_layout hr.layout]
  have hlen : b.len ≤ 65535 := by
    rw [← Buffer.size_contents, show b.contents = synchronize from hcontents]
    decide
  have hshort := setTcpPayload_allOrNothing .blank [] (.ofList [1, 2, 3]) hzero hlocate rfl
    fun _ => hlen
  have hlong := setTcpPayload_allOrNothing .blank [] (Bytes.zeros 65496) hzero hlocate rfl
    fun _ => hlen
  have htwenty : ∀ segment, (ofBuffer b .blank).tcpSegment = .ok segment →
      Tcp.headerLen segment = 20 := by
    intro segment hsegment
    have hfound := hr.tcpSegment_eq
    rw [tcpSegment, nextHeader_located, ← tcpSegment, hsegment] at hfound
    rw [Except.ok.inj hfound, ← hr.segment_header.2.2]
    exact hheader
  refine ⟨b, _, ⟨hzero, hcontents, hlocate, rfl, fun _ => hlen⟩, ?_, ?_⟩
  · obtain ⟨segment, hsegment, hiff, hset, -⟩ := hshort
    rw [htwenty segment hsegment] at hiff hset
    exact hset (hiff.2 (show 20 + 20 + 3 ≤ 65535 by decide))
  · obtain ⟨segment, hsegment, hiff, -, hkept, -⟩ := hlong
    rw [htwenty segment hsegment, Bytes.size_zeros] at hiff
    refine hkept fun hok => ?_
    have hfits : 20 + 20 + 65496 ≤ 65535 := hiff.1 hok
    exact absurd hfits (by decide)

end Packet

end Intercept
