import Intercept.Proofs.Injection
import Intercept.Proofs.Packet.ProtocolField
import Intercept.Proofs.Packet.Resize

set_option autoImplicit false

/-! # The packets that are accepted

Finding the headers of a packet and recomputing its checksums test the bytes separately, one by
opening headers and the other by looking at fields and lengths, but they accept the same packets.
The only exception are IPv4 packets with more behind the header than the length in a pseudo-header
can state (`fill_eq_ok`).

A packet that was accepted once stays so whatever is done to it, unless the protocol field is set:
`Packet.Ready` says of the bytes as they are now that they have the headers that were found, and
that the protocol field still names what was found. That holds also while the length of the packet
is out of step with a TCP segment, because the packet never ends within the header of the segment,
and is kept by every operation and by recomputed checksums (`Ready.act`). So such a packet is
always injected by a memory driver that is open (`actAll_injected`). -/

namespace Intercept

/-! ## Finding headers and recomputing checksums -/

/-- A segment is held to have its header by the same test, whichever way it is put. -/
theorem Checksum.checkSegment_eq_ok {t : Transport} {s : Bytes} :
    checkSegment t s = .ok () ↔ NextHeader.Holds t s := by
  unfold checkSegment NextHeader.Holds
  cases t with
  | tcp =>
      simp only [Except.map_eq_ok, Tcp.validate_eq_ok, if_true, and_true]
      exact ⟨fun ⟨_, _, h⟩ => h, fun h => ⟨_, rfl, h⟩⟩
  | udp | icmpv4 | icmpv6 =>
      simp only [reduceCtorEq, if_false]
      split
      · next h => simp only [reduceCtorEq, false_iff]; omega
      · next h => simp only [true_iff]; omega

namespace Checksum

variable {b : Bytes}

/-- An IPv4 packet has more behind its header than the length in a pseudo-header can state. -/
def Overlong (b : Bytes) : Prop := Ipv4.version b = 4 ∧ 65535 < b.size - Ipv4.headerLen b

theorem validHeader_iff :
    ValidHeader b ↔ (∃ n, (version b).validate b = .ok n) ∧ ¬ Overlong b := by
  constructor
  · intro h
    refine ⟨h.header, fun ⟨hv, hlong⟩ => ?_⟩
    have hversion : version b = .v4 := by
      unfold version
      rw [hv, if_neg (by decide)]
    have hfits := h.fits hversion
    rw [size_segment, segmentStart, hversion] at hfits
    exact Nat.not_lt.2 hfits hlong
  · rintro ⟨⟨n, hn⟩, hshort⟩
    refine ⟨⟨n, hn⟩, fun hv => ?_⟩
    rw [hv] at hn
    rw [size_segment, segmentStart, hv]
    exact Nat.not_lt.1 fun hlong => hshort ⟨(Ipv4.validate_eq_ok.1 hn).1, hlong⟩

theorem not_misshapen_iff :
    ¬ Misshapen b ↔ ∃ h, NextHeader.ofBytes (protocol b) (segment b) = .ok h := by
  rw [NextHeader.exists_ofBytes]
  constructor
  · intro h t ht
    cases hc : checkSegment t (segment b) with
    | ok u => exact checkSegment_eq_ok.1 hc
    | error m => exact absurd ⟨t, m, ht, hc⟩ h
  · rintro h ⟨t, m, ht, hc⟩
    rw [checkSegment_eq_ok.2 (h t ht)] at hc
    cases hc

/-- **The checksums of a packet can be recomputed exactly if its headers are found**, except for an
IPv4 packet that is too long for them. -/
theorem fill_eq_ok (b : Bytes) :
    (fill b).1 = .ok () ↔ (∃ l, Layout.parse b = .ok l) ∧ ¬ Overlong b := by
  have hfill : (fill b).1 = .ok () ↔ ValidHeader b ∧ ¬ Misshapen b := by
    rcases fill_cases b with ⟨h, hshape, hok⟩ | ⟨h, hshape, m, hm⟩ | ⟨h, m, hm⟩
    · exact ⟨fun _ => ⟨h, hshape⟩, fun _ => hok⟩
    · rw [hm]
      exact ⟨nofun, fun hc => absurd hshape hc.2⟩
    · rw [hm]
      exact ⟨nofun, fun hc => absurd hc.1 h⟩
  rw [hfill, validHeader_iff, not_misshapen_iff]
  constructor
  · rintro ⟨⟨⟨n, hn⟩, hshort⟩, x, hx⟩
    have hparse := Layout.parse_of_validate hn
    rw [hx] at hparse
    exact ⟨⟨_, hparse⟩, hshort⟩
  · rintro ⟨⟨l, hl⟩, hshort⟩
    have hvalid := (Layout.found_of_parse hl).validate
    rw [← version_of_validate hvalid] at hvalid
    rw [Layout.parse_of_validate hvalid] at hl
    obtain ⟨x, hx, -⟩ := Except.map_eq_ok.1 hl
    exact ⟨⟨⟨_, hvalid⟩, hshort⟩, x, hx⟩

end Checksum

/-! ## What keeps a packet acceptable -/

/-- The bytes of a buffer have the headers of a layout, as the packet ends and as the segment
ends, and neither is too long for IPv4. -/
structure Layout.Acceptable (b : Buffer) (l : Layout) : Prop where
  current : l.Current b
  next : ∀ t, Transport.ofNumber? l.protocol = some t →
    NextHeader.Holds t (b.storage.bytes.extract l.ipHeaderLen b.len)
  segment : l.version = .v4 → l.segmentLen ≤ 65535
  whole : l.version = .v4 → b.len ≤ l.ipHeaderLen + 65535

namespace Packet

variable {p p' : Packet} {l m : Layout}

/-- A layout stays acceptable as long as the length of the packet does, and the header length of a
TCP segment. -/
theorem acceptable_of_len {b b' : Buffer} (h : l.Acceptable b) (hm : m.Current b')
    (hagree : l.Agrees m) (hlen : b'.len = b.len)
    (hsegment : m.version = .v4 → m.segmentLen ≤ 65535)
    (htcp : Transport.ofNumber? l.protocol = some .tcp →
      Tcp.headerLen (b'.storage.bytes.extract l.ipHeaderLen b.len) =
        Tcp.headerLen (b.storage.bytes.extract l.ipHeaderLen b.len)) : m.Acceptable b' := by
  refine ⟨hm, fun t ht => ?_, hsegment, fun hv => ?_⟩
  · rw [hagree.protocol] at ht
    have hholds := h.next t ht
    have hsize : (b'.storage.bytes.extract l.ipHeaderLen b.len).size =
        (b.storage.bytes.extract l.ipHeaderLen b.len).size := by
      rw [ByteArray.size_extract, ByteArray.size_extract, b'.storage.size_eq, b.storage.size_eq]
    rw [hagree.ipHeaderLen, hlen]
    unfold NextHeader.Holds at hholds ⊢
    split
    · next htt =>
        rw [if_pos htt] at hholds
        rwa [htcp (htt ▸ ht), hsize]
    · next htt =>
        rw [if_neg htt] at hholds
        rwa [hsize]
  · rw [hagree.version] at hv
    rw [hlen, hagree.ipHeaderLen]
    exact h.whole hv

theorem headerLen_extract_congr {b b' : Buffer} {lo hi : Nat}
    (h : b'.storage.bytes.byte (lo + 12) = b.storage.bytes.byte (lo + 12)) :
    Tcp.headerLen (b'.storage.bytes.extract lo hi) =
      Tcp.headerLen (b.storage.bytes.extract lo hi) := by
  refine Tcp.headerLen_congr ?_
  rw [Bytes.byte_extract, Bytes.byte_extract, h]

/-! ## Every effect, and recomputed checksums -/

/-- A packet whose headers were found is acceptable by them. -/
def Acceptable (p : Packet) : Prop := ∃ l, p.layout = some l ∧ l.Acceptable p.buffer

theorem current_of_acceptable (hl : p.layout = some l) (h : l.Acceptable p.buffer) : p.Current :=
  current_of_layout hl h.current

/-- A change to the IP header keeps its length and leaves what is behind it alone. -/
theorem acceptable_putIp {d d' : IpDraft} (hl : p.layout = some l) (h : l.Acceptable p.buffer)
    (hd : p.openIp = .ok d) (hk : d.Keeps d') : (p.putIp d'.draft).Acceptable := by
  have hlayout := layout_putIp hl d'.draft
  have hcurrent := (current_of_acceptable hl h).putIp hl hd hk _ hlayout
  refine ⟨_, hlayout, acceptable_of_len h hcurrent ⟨rfl, rfl, rfl⟩ rfl h.segment fun _ => ?_⟩
  exact headerLen_extract_congr (byte_putIp hl h.current hd hk (Nat.le_add_right ..))

/-- However far it is read, a TCP segment has the header length that it had before a change. -/
theorem headerLen_putTcp {x : Tcp.Draft} {hi : Nat} (hl : p.layout = some l)
    (hx : (p.space l).Keeps x) (hhi : l.ipHeaderLen + 12 < hi) :
    Tcp.headerLen ((p.putTcp x).buffer.storage.bytes.extract l.ipHeaderLen hi) =
      Tcp.headerLen (p.buffer.storage.bytes.extract l.ipHeaderLen hi) := by
  have hmin : 20 ≤ Tcp.headerLen x.space := hx.sound.header
  have hsegment := hx.sound.segment
  have hroom := hx.sound.space
  have hspace := size_space l p
  rw [← hx.size] at hspace
  calc Tcp.headerLen ((p.putTcp x).buffer.storage.bytes.extract l.ipHeaderLen hi)
      = Tcp.headerLen x.space := Tcp.headerLen_congr (by
        rw [Bytes.byte_extract, if_pos hhi, byte_putTcp hl hx.size, if_pos (by omega),
          Nat.add_sub_cancel_left])
    _ = Tcp.headerLen (p.space l).space := hx.headerLen
    _ = Tcp.headerLen (p.buffer.storage.bytes.extract l.ipHeaderLen hi) :=
      Tcp.headerLen_congr (by
        rw [space, Bytes.byte_extract, Bytes.byte_extract, if_pos hhi, if_pos (by omega)])

/-- A change to the header behind the IP header keeps the header length of a TCP segment, and leaves
the segment no longer than IPv4 can state. -/
theorem acceptable_putNext {d d' : NextDraft} (hl : p.layout = some l)
    (h : l.Acceptable p.buffer) (hd : p.openNext = .ok d) (hk : d.Keeps d') :
    (p.putNext d').Acceptable := by
  have hp := current_of_acceptable hl h
  rcases putNext_cases hl hd hk with
    he | ⟨x, ht, -, -, -, he⟩ | ⟨x, ht, hlo, hhi, -, hx, he⟩
  · rw [he]
    exact ⟨l, hl, h⟩
  · rw [he]
    have hlayout : (p.putFixed x).layout = some { l with segmentModified := x.modified } := by
      rw [putFixed_of_layout hl]
    have hlen : (p.putFixed x).buffer.len = p.buffer.len := by
      rw [putFixed_of_layout hl]
      rfl
    exact ⟨_, hlayout, acceptable_of_len h (hp.putFixed hl ht x _ hlayout) ⟨rfl, rfl, rfl⟩ hlen
      h.segment fun hc => absurd hc ht⟩
  · rw [he]
    have hlayout := layout_putTcp hl x
    have hlen : (p.putTcp x).buffer.len = p.buffer.len := by
      rw [putTcp_of_layout hl]
      rfl
    have hspace := size_space l p
    have hroom := hx.sound.space
    rw [hx.size] at hroom
    refine ⟨_, hlayout, acceptable_of_len h (hp.putTcp hl ht hx _ hlayout) ⟨rfl, rfl, rfl⟩ hlen
      (fun hv => ?_) fun _ => ?_⟩
    · simp only at hv ⊢
      simp only [Layout.spaceEnd, if_true, Layout.maxSegmentLen, hv] at hspace
      omega
    · -- the packet holds the header as well, so it reaches over the data offset
      have hholds := h.next .tcp ht
      unfold NextHeader.Holds at hholds
      rw [if_pos rfl, ByteArray.size_extract] at hholds
      simp only [Tcp.minHeaderLen] at hholds
      exact headerLen_putTcp hl hx (by omega)

theorem acceptable_effect (he : Effect p p') (h : p.Acceptable) : p'.Acceptable := by
  obtain ⟨l, hl, h⟩ := h
  cases he with
  | readdress a => exact ⟨l, hl, h⟩
  | locate hp hfound =>
      rw [hp] at hl
      cases hl
  | ip hl' hd hk => exact acceptable_putIp hl h hd hk
  | next hl' hd hk => exact acceptable_putNext hl h hd hk
  | @resize l' b hl' ht hb =>
      cases hl.symm.trans hl'
      have hcurrent := (current_of_acceptable hl h).resize hl hb l hl
      obtain ⟨-, -, hlen⟩ := Buffer.setLen?_eq_some.1 hb
      -- the packet ends where its segment does now
      refine ⟨l, hl, hcurrent, ?_, h.segment, fun hv => ?_⟩
      · rw [hlen]
        exact hcurrent.next
      · have := h.segment hv
        rw [hlen, Layout.segmentEnd]
        omega

theorem acceptable_refill (h : p.Acceptable) : p.refill.Acceptable := by
  obtain ⟨l, hl, h⟩ := h
  have hlayout := p.layout_refill.trans hl
  have hcurrent := (current_of_acceptable hl h).refill l hlayout
  refine ⟨l, hlayout, acceptable_of_len h hcurrent (.refl l) p.len_refill h.segment fun _ => ?_⟩
  exact headerLen_extract_congr
    (byte_refill fun hc => (bounds_of_covers h.current hc).2.1 rfl)

/-! ## Packets that are ready to be injected -/

/-- The headers of the packet are found, or were found and are there still, and the protocol field
names the protocol that was found. -/
def Ready (p : Packet) : Prop :=
  ∃ l, p.locate = .ok l ∧ l.Acceptable p.buffer ∧ (p.protocolByte l).toNat = l.protocol

/-- The protocol that checksums are computed for is read in the byte that says so. -/
theorem protocol_contents (h : l.Current p.buffer) :
    Checksum.protocol p.contents = (p.protocolByte l).toNat := by
  have hvalid : l.version.validate p.contents = .ok l.ipHeaderLen := h.validate
  have hlt := protocolByte_lt h
  rw [Checksum.protocol_eq_byte, Checksum.version_of_validate hvalid, contents,
    Buffer.byte_contents, if_pos (Nat.lt_of_lt_of_le hlt h.fits.header)]
  rfl

/-- Checksums lie beside the protocol field. -/
theorem protocolByte_refill (h : l.Current p.buffer) :
    p.refill.protocolByte l = p.protocolByte l := by
  refine byte_refill fun hc => ?_
  have hlt := protocolByte_lt h
  rcases hc with ⟨-, hi⟩ | ⟨t, -, hi⟩
  · unfold IpVersion.protocolByte at hi
    cases hv : l.version <;> simp only [hv] at hi <;> omega
  · have hstart := segmentStart_of_validate h.validate
    simp only [contents] at hi
    omega

theorem ready_located : p.located.Ready ↔ p.Ready := by
  unfold Ready protocolByte
  rw [locate_located, buffer_located]

theorem Ready.of_reads (h : p.Reads p') : p'.Ready ↔ p.Ready := by
  rcases h with rfl | rfl
  · rfl
  · exact ready_located

theorem Ready.fits (h : p.Ready) : p.Fits := by
  obtain ⟨l, hl, h, -⟩ := h
  intro l' hl'
  cases (locate_of_layout hl').symm.trans hl
  exact h.current.fits

/-- The checksums of such a packet can be recomputed. -/
theorem Ready.fill (h : p.Ready) : (Checksum.fill p.contents).1 = .ok () := by
  obtain ⟨l, -, h, hprotocol⟩ := h
  have hvalid : l.version.validate p.contents = .ok l.ipHeaderLen := h.current.validate
  have hversion := Checksum.version_of_validate hvalid
  rw [← protocol_contents h.current] at hprotocol
  rw [← hversion] at hvalid
  refine (Checksum.fill_eq_ok _).2 ⟨?_, fun ⟨hv, hlong⟩ => ?_⟩
  · rw [Layout.parse_of_validate hvalid, hprotocol, Checksum.segment,
      segmentStart_of_validate hvalid, size_contents, extract_contents]
    obtain ⟨x, hx⟩ := NextHeader.exists_ofBytes.2 h.next
    exact ⟨_, congrArg (Except.map _) hx⟩
  · have hstart := segmentStart_of_validate hvalid
    have hv4 : Checksum.version p.contents = .v4 := by
      unfold Checksum.version
      rw [hv, if_neg (by decide)]
    have hwhole := h.whole (hversion.symm.trans hv4)
    simp only [Checksum.segmentStart, hv4] at hstart
    rw [size_contents, hstart] at hlong
    exact absurd hwhole (by simp only [len] at hlong; omega)

/-- A packet whose headers are found is ready, if it is not too long for IPv4. -/
theorem Ready.of_parse (hp : p.layout = none) (hl : Layout.parse p.contents = .ok l)
    (hshort : ¬ Checksum.Overlong p.contents) : p.Ready := by
  have hcurrent : l.Current p.buffer := Current.locate hl l rfl
  have hfound := Layout.found_of_parse hl
  have hversion := Checksum.version_of_validate hfound.validate
  have hend : l.segmentEnd = p.buffer.len := by
    rw [hfound.segment, size_contents]
    rfl
  have hlong : l.version = .v4 → p.buffer.len ≤ l.ipHeaderLen + 65535 := fun hv => by
    have hvalid := hfound.validate
    rw [hv] at hvalid
    obtain ⟨h4, hn, -⟩ := Ipv4.validate_eq_ok.1 hvalid
    refine Nat.not_lt.1 fun hc => hshort ⟨h4, ?_⟩
    rw [← hn, size_contents]
    simp only [len]
    omega
  have hprotocol : (p.protocolByte l).toNat = l.protocol := by
    have hvalid := hfound.validate
    rw [← hversion] at hvalid
    rw [Layout.parse_of_validate hvalid] at hl
    obtain ⟨x, -, hx⟩ := Except.map_eq_ok.1 hl
    rw [← protocol_contents hcurrent, ← hx]
  refine ⟨l, ?_, ⟨hcurrent, hend ▸ hcurrent.next, fun hv => ?_, hlong⟩, hprotocol⟩
  · unfold locate
    rw [hp, hl]
    rfl
  · have := hlong hv
    simp only [Layout.segmentEnd] at hend
    omega

/-! ## Every action -/

/-- An action sets the protocol field of the IP header. -/
def Action.setsProtocol : Action → Bool
  | .op x => x.setsProtocol
  | .refill => false

/-- An operation on a packet whose headers were found. -/
theorem Ready.run_of_layout {op : Op} (hop : op.setsProtocol = false) (hl : p.layout = some l)
    (h : p.Ready) : (p.run op).2.Ready := by
  obtain ⟨l', hl', h, hprotocol⟩ := h
  cases (locate_of_layout hl).symm.trans hl'
  obtain ⟨m, hm, hacceptable⟩ : (p.run op).2.Acceptable :=
    kept_of_effects (fun _ _ h he => acceptable_effect he h) (effects_run op p) ⟨l, hl, h⟩
  obtain ⟨m', hm', hagree⟩ := Layout.Agrees.effects (effects_run op p) hl
  cases hm.symm.trans hm'
  refine ⟨m, locate_of_layout hm, hacceptable, ?_⟩
  have hbyte := protocolByte_run hop hl (protocolByte_lt h.current)
  unfold protocolByte at hbyte hprotocol ⊢
  rw [hagree.version, hagree.protocol, hbyte, hprotocol]

/-- **No action but one that sets the protocol field keeps a packet from being injected.** -/
theorem Ready.act {x : Action} (hx : x.setsProtocol = false) (h : p.Ready) : (p.act x).Ready := by
  cases x with
  | op op =>
      -- the headers may as well be found before the operation
      obtain ⟨l, hl, -⟩ := id h
      have hlocated := Ready.run_of_layout hx (layout_located hl) (ready_located.2 h)
      exact (Ready.of_reads ((Reads.locate (Reads.refl p)).run op).2).1 hlocated
  | refill =>
      obtain ⟨l, hl, hacceptable, hprotocol⟩ := h
      have hfound : p.located.Acceptable := ⟨l, layout_located hl, by rwa [buffer_located]⟩
      obtain ⟨m, hm, hrefill⟩ := acceptable_refill hfound
      have hlocate : p.refill.locate = .ok l := (locate_refill p).trans hl
      rw [← located_refill] at hm hrefill
      cases hm.symm.trans (layout_located hlocate)
      rw [buffer_located] at hrefill
      have hbyte : p.refill.protocolByte l = p.protocolByte l :=
        protocolByte_refill hacceptable.current
      exact ⟨l, hlocate, hrefill, (congrArg UInt8.toNat hbyte).trans hprotocol⟩

theorem Ready.actAll {xs : List Action} (hxs : ∀ x ∈ xs, x.setsProtocol = false) (h : p.Ready) :
    (p.actAll xs).Ready := by
  induction xs generalizing p with
  | nil => exact h
  | cons x xs ih =>
      exact ih (fun y hy => hxs y (.tail _ hy)) (h.act (hxs x (.head _)))

/-! ## Injecting -/

/-- A packet that is ready is injected by a memory driver that is open, changed or not. -/
theorem Ready.injected {s : Session Memory} (h : p.Ready) (ho : s.isOpen = true)
    (hc : s.device.closed = false) : (s.inject Memory.driver p).1 = .ok p.len := by
  cases hm : p.needsChecksum with
  | false => exact (Memory.injects_unchanged h.fits hm ho hc).1
  | true => exact Memory.answer_inject_of_fill h.fits hm h.fill ho hc

/-- **What parses is accepted, and stays so.** The checksums of a packet can be recomputed exactly
if its headers are found, except for an IPv4 packet with more behind its header than the length in
a pseudo-header can state. So a packet whose headers are found is injected by a memory driver that
is open, whatever is done to it first, as long as the protocol field is not set; a change of length
need not have been committed. -/
theorem actAll_injected :
    (∀ b : Bytes, (Checksum.fill b).1 = .ok () ↔
      (∃ l, Layout.parse b = .ok l) ∧ ¬ Checksum.Overlong b) ∧
    ∀ (p : Packet) (xs : List Action) (s : Session Memory), p.layout = none →
      (∃ l, Layout.parse p.contents = .ok l) → ¬ Checksum.Overlong p.contents →
      (∀ x ∈ xs, x.setsProtocol = false) → s.isOpen = true → s.device.closed = false →
        (s.inject Memory.driver (p.actAll xs)).1 = .ok (p.actAll xs).len := by
  refine ⟨Checksum.fill_eq_ok, fun p xs s hp ⟨l, hl⟩ hshort hxs ho hc => ?_⟩
  exact ((Ready.of_parse hp hl hshort).actAll hxs).injected ho hc

/-- A segment whose payload was replaced by a longer one, without its length being committed, is
injected with the length that it had. -/
theorem actAll_injected_synchronize :
    ∃ p : Packet, p.layout = none ∧ p.contents = synchronize ∧
      let xs : List Action := [.op (.withTcp [.payload (.ofList [1, 2, 3])]), .refill,
        .op (.withIp [.edit (.v4 (.set .ttl 9))])]
      let s : Session Memory := .ofDevice .fresh .standard (.empty none)
      (∃ l, Layout.parse p.contents = .ok l) ∧ ¬ Checksum.Overlong p.contents ∧
        (∀ x ∈ xs, x.setsProtocol = false) ∧
        (s.inject Memory.driver (p.actAll xs)).1 = .ok (p.actAll xs).len := by
  obtain ⟨b, hb⟩ : ∃ b, (Buffer.ofStorage .blank).append? synchronize = some b :=
    ⟨_, dif_pos (by decide)⟩
  have hcontents : (ofBuffer b .blank).contents = synchronize := Buffer.contents_append? hb
  have hparse : ∃ l, Layout.parse synchronize = .ok l := ⟨⟨.v4, 20, 6, 20, false, false⟩, rfl⟩
  have hshort : ¬ Checksum.Overlong synchronize := by
    unfold Checksum.Overlong
    decide
  have hxs : ∀ x ∈ [Action.op (.withTcp [.payload (.ofList [1, 2, 3])]), .refill,
      .op (.withIp [.edit (.v4 (.set .ttl 9))])], x.setsProtocol = false := by
    simp [Action.setsProtocol, Op.setsProtocol, IpRequest.setsProtocol]
  rw [← hcontents] at hparse hshort
  exact ⟨_, rfl, hcontents, hparse, hshort, hxs,
    actAll_injected.2 _ _ (.ofDevice .fresh .standard (.empty none)) rfl hparse hshort hxs rfl rfl⟩

end Packet

end Intercept
