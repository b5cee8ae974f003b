import Intercept.Proofs.Packet.Parsing
import Intercept.Proofs.Packet.Resize

set_option autoImplicit false

/-! # Opening the header behind the IP header

The header behind the IP header is read in the segment as it stands, but it is opened, for TCP, in
the space that the segment may grow into, and that space ends where the IP header can state no
longer packet. Both show the same header as long as the segment lies in its space. Only one kind of
packet has a segment that does not (`Layout.Oversized`): a TCP packet over IPv4 that was longer than
an IPv4 header can state when it was found, because the storage has room for a few more bytes than
that. An IPv6 packet that fits the storage can be stated.

Of such a packet the header can be read but not opened, so everything that would change it is
refused, also a payload that would make the packet short enough (`Refuses`). No packet becomes
oversized, and none ceases to be (`oversized_actAll_iff`). -/

namespace Intercept

namespace NextDraft

/-- An open header shows what is read: for TCP in the segment, which is at the start of the
space. -/
theorem header_of_ofBytes {n len : Nat} {t : Transport} {m : Bool} {b : Bytes} {d : NextDraft}
    (ht : Transport.ofNumber? n = some t) (hd : ofBytes t len m b = .ok d) :
    NextHeader.ofBytes n (if t = .tcp then b.extract 0 len else b) = .ok d.header := by
  unfold NextHeader.ofBytes
  rw [ht]
  cases t with
  | tcp =>
      obtain ⟨x, hx, rfl⟩ := Except.map_eq_ok.1 hd
      obtain ⟨rfl, -⟩ := Tcp.openDraft_eq_ok.1 hx
      unfold Tcp.openDraft at hx
      split_ifs at hx with hlen
      obtain ⟨k, hk, -⟩ := Except.map_eq_ok.1 hx
      exact Except.map_eq_ok.2 ⟨k, hk, rfl⟩
  | udp =>
      obtain ⟨x, hx, rfl⟩ := Except.map_eq_ok.1 hd
      obtain ⟨hs, rfl⟩ := Udp.openDraft_eq_ok.1 hx
      exact Except.map_eq_ok.2 ⟨_, Udp.header_eq_ok.2 ⟨hs, rfl⟩, rfl⟩
  | icmpv4 | icmpv6 =>
      obtain ⟨x, hx, rfl⟩ := Except.map_eq_ok.1 hd
      obtain ⟨hs, rfl⟩ := Icmp.openDraft_eq_ok.1 hx
      exact Except.map_eq_ok.2 ⟨_, Icmp.header_eq_ok.2 ⟨hs, rfl⟩, rfl⟩

/-- A header of a fixed length is opened as soon as its eight bytes are there. -/
theorem exists_ofBytes {t : Transport} (len : Nat) (m : Bool) {b : Bytes} (ht : t ≠ .tcp)
    (hb : NextHeader.Holds t b) : ∃ d, ofBytes t len m b = .ok d := by
  unfold NextHeader.Holds at hb
  rw [if_neg ht] at hb
  cases t with
  | tcp => exact absurd rfl ht
  | udp => exact ⟨_, Except.map_eq_ok.2 ⟨_, Udp.openDraft_eq_ok.2 ⟨hb, rfl⟩, rfl⟩⟩
  | icmpv4 | icmpv6 =>
      exact ⟨_, Except.map_eq_ok.2 ⟨_, Icmp.openDraft_eq_ok.2 ⟨hb, rfl⟩, rfl⟩⟩

end NextDraft

/-- A segment that holds its header has a length. -/
theorem Tcp.Draft.Sound.len_pos {d : Tcp.Draft} (h : d.Sound) : 0 < d.len :=
  Nat.lt_of_lt_of_le (by decide) (h.header.trans h.segment)

/-- A TCP packet over IPv4 that is longer than its header can state. -/
def Layout.Oversized (l : Layout) : Prop :=
  Transport.ofNumber? l.protocol = some .tcp ∧ l.version = .v4 ∧ 65535 < l.segmentEnd

/-- A segment that is within its space is not that of an oversized packet. -/
theorem Layout.not_oversized {l : Layout} (hpos : 0 < l.segmentLen)
    (hroom : l.segmentLen ≤ l.maxSegmentLen) : ¬l.Oversized := by
  rintro ⟨-, hv, hlong⟩
  have hend : l.segmentEnd = l.ipHeaderLen + l.segmentLen := rfl
  have hmax : l.maxSegmentLen ≤ 65535 - l.ipHeaderLen := by
    unfold maxSegmentLen
    rw [hv]
    exact Nat.min_le_right ..
  omega

namespace Packet

variable {p p' : Packet} {l : Layout}

/-- A segment is longer than its space in an oversized packet and in no other. -/
theorem Current.oversized_iff (h : p.Current) (hl : p.layout = some l)
    (ht : Transport.ofNumber? l.protocol = some .tcp) :
    l.Oversized ↔ l.maxSegmentLen < l.segmentLen := by
  have hc := h l hl
  have hseg := hc.fits.segment
  have hvalid := hc.validate
  have hheld := h.segment_holds hl ht
  have hend : l.segmentEnd = l.ipHeaderLen + l.segmentLen := rfl
  constructor
  · intro ho
    exact Nat.lt_of_not_le fun hroom => Layout.not_oversized (by omega) hroom ho
  · intro hlt
    unfold Layout.maxSegmentLen at hlt
    cases hv : l.version with
    | v4 =>
        simp only [hv] at hlt
        exact ⟨ht, hv, by omega⟩
    | v6 =>
        -- what the storage holds behind an IPv6 header can be stated
        rw [hv] at hvalid
        have hforty : l.ipHeaderLen = 40 := (Ipv6.validate_eq_ok.1 hvalid).2.1
        simp only [hv, bufferSize] at hlt hseg
        omega

/-! ## Packets that are not oversized -/

/-- **The header that is opened is the one that is read.** -/
theorem Current.exists_openNext (h : p.Current) (hl : p.layout = some l) (hno : ¬l.Oversized) :
    ∃ d, p.openNext = .ok d ∧ p.nextHeader = .ok d.header := by
  have hc := h l hl
  have hlo : l.ipHeaderLen ≤ l.segmentEnd := Nat.le_add_right ..
  have hread := nextHeader_of_layout hl hc.fits
  cases ht : Transport.ofNumber? l.protocol with
  | none =>
      refine ⟨.unsupported l.protocol, (openNext_eq_ok hl).2 (Or.inl ⟨ht, rfl⟩), ?_⟩
      rw [hread, NextHeader.ofBytes, ht]
      rfl
  | some t =>
      by_cases htcp : t = .tcp
      · cases htcp
        have hroom : l.segmentLen ≤ l.maxSegmentLen :=
          Nat.le_of_not_lt fun hlt => hno ((h.oversized_iff hl ht).2 hlt)
        obtain ⟨hd, hsegment⟩ := h.ofBytes_space hl ht hroom
        have hsame := NextDraft.header_of_ofBytes ht hd
        rw [if_pos rfl] at hsame
        refine ⟨_, h.openNext_eq hl ht hroom, ?_⟩
        rw [hread, ← hsegment]
        exact congrArg (Except.mapError Fault.malformed) hsame
      · obtain ⟨d, hd⟩ :=
          NextDraft.exists_ofBytes l.segmentLen l.segmentModified htcp (hc.next t ht)
        rw [← Layout.spaceEnd_of_ne_tcp htcp] at hd hlo
        have hhi : l.spaceEnd t ≤ bufferSize := by
          rw [Layout.spaceEnd_of_ne_tcp htcp]
          exact hc.fits.segment
        refine ⟨d, (openNext_eq_ok hl).2 (Or.inr ⟨t, ht, hlo, hhi, hd⟩), ?_⟩
        have hsame := NextDraft.header_of_ofBytes ht hd
        rw [if_neg htcp, Layout.spaceEnd_of_ne_tcp htcp] at hsame
        rw [hread, hsame]
        rfl

/-! ## Oversized packets -/

/-- All that would open the header behind the IP header is refused for one reason, and the packet
stays as it is. -/
structure Refuses (e : Fault) (p : Packet) : Prop where
  openNext : p.openNext = .error e
  openTcp : p.openTcp = .error e
  setSrcPort : ∀ port, p.setSrcPort port = (.error e, p)
  setDstPort : ∀ port, p.setDstPort port = (.error e, p)
  setTcpPayload : ∀ data, p.setTcpPayload data = (.error e, p)
  withNext : ∀ rs, p.withNext rs = (.error e, p)
  withTcp : ∀ rs, p.withTcp rs = (.error e, p)

/-- A TCP segment is read in every way there is. -/
structure Shows (segment : Bytes) (p : Packet) : Prop where
  nextHeader : p.nextHeader = .ok (.tcp segment)
  tcpSegment : p.tcpSegment = .ok segment
  srcPort : p.srcPort = .ok (UInt16.ofNat (Tcp.get .srcPort segment))
  dstPort : p.dstPort = .ok (UInt16.ofNat (Tcp.get .dstPort segment))
  payload : p.payload = .ok (Tcp.payload segment)

theorem refuses_of_openNext {e : Fault} (hl : p.layout = some l) (he : p.openNext = .error e) :
    p.Refuses e := by
  have hlocated := located_of_layout hl
  have htcp : p.openTcp = .error e := by
    unfold openTcp
    rw [he]
    rfl
  have hchange : ∀ change, p.changeNext change = (.error e, p) := by
    intro change
    unfold changeNext
    simp only [he, hlocated]
  refine ⟨he, htcp, fun _ => hchange _, fun _ => hchange _, fun data => ?_, fun rs => ?_,
    fun rs => ?_⟩
  · unfold setTcpPayload
    simp only [htcp, hlocated]
  · unfold withNext
    simp only [he, hlocated]
  · unfold withTcp
    simp only [htcp, hlocated]

theorem shows_of_nextHeader {segment : Bytes} (hl : p.layout = some l)
    (h : p.nextHeader = .ok (.tcp segment)) : p.Shows segment := by
  refine ⟨h, ?_, ?_, ?_, ?_⟩
  · unfold tcpSegment
    rw [h]
    rfl
  · unfold srcPort port
    rw [h]
    rfl
  · unfold dstPort port
    rw [h]
    rfl
  · unfold payload
    rw [locate_of_layout hl, h]
    rfl

/-- The space of an oversized packet is too small for its segment, so it is not opened. -/
theorem Current.openNext_of_oversized (h : p.Current) (hl : p.layout = some l)
    (ho : l.Oversized) : p.openNext = .error (.malformed .tcpSpace) := by
  have ht := ho.1
  have hlt := (h.oversized_iff hl ht).1 ho
  have hspace := size_space_of_fits (h l hl).fits
  have hhead : l.ipHeaderLen ≤ p.len := (h l hl).fits.header
  have hlen : p.len ≤ bufferSize := p.buffer.len_le
  have hmax : l.maxSegmentLen ≤ bufferSize - l.ipHeaderLen := Nat.min_le_left ..
  have hslice : p.storageSlice l.ipHeaderLen (l.spaceEnd .tcp) = .ok (p.space l).space := by
    refine storageSlice_of_le ?_ ?_
    · rw [Layout.spaceEnd, if_pos rfl]
      omega
    · rw [Layout.spaceEnd, if_pos rfl]
      omega
  have hopen : Tcp.openDraft (p.space l).space l.segmentLen l.segmentModified =
      .error .tcpSpace := by
    unfold Tcp.openDraft
    rw [if_pos (by omega)]
  unfold openNext
  rw [locate_of_layout hl]
  simp only [bind, Except.bind, ht, hslice, NextDraft.ofBytes, hopen]
  rfl

/-- The segment of an oversized packet is read nevertheless. -/
theorem Current.exists_shows (h : p.Current) (hl : p.layout = some l)
    (ht : Transport.ofNumber? l.protocol = some .tcp) : ∃ segment, p.Shows segment := by
  obtain ⟨x, hbytes, hx⟩ := h.exists_nextHeader hl
  rcases NextHeader.ofBytes_cases hbytes with ⟨-, rfl, -⟩ | ⟨hne, -⟩ | ⟨hne, -⟩
  · exact ⟨_, shows_of_nextHeader hl hx⟩
  · exact absurd ht hne
  · rw [ht] at hne
    cases hne

/-! ## No packet becomes oversized -/

/-- An effect makes no packet oversized, nor any packet cease to be. The segment changes its length
only when it is written back, and then it has been opened. -/
theorem oversized_effect_iff (he : Effect p p') (hl : p.layout = some l) :
    ∃ m, p'.layout = some m ∧ (m.Oversized ↔ l.Oversized) := by
  cases he with
  | readdress a => exact ⟨l, hl, Iff.rfl⟩
  | locate hp hfound =>
      rw [hp] at hl
      cases hl
  | ip _ hd hk => exact ⟨_, layout_putIp hl _, Iff.rfl⟩
  | next _ hd hk =>
      rcases putNext_cases hl hd hk with
        he | ⟨x, -, -, -, -, he⟩ | ⟨x, -, -, -, hs, hk, he⟩
      · rw [he]
        exact ⟨l, hl, Iff.rfl⟩
      · rw [he]
        exact ⟨_, layout_putFixed hl x, Iff.rfl⟩
      · rw [he]
        have hspace := size_space_le l p
        have hwithin := hk.sound.space
        rw [hk.size] at hwithin
        exact ⟨_, layout_putTcp hl x, iff_of_false
          (Layout.not_oversized hk.sound.len_pos (hwithin.trans hspace))
          (Layout.not_oversized hs.len_pos (hs.space.trans hspace))⟩
  | resize _ ht hb => exact ⟨l, hl, Iff.rfl⟩

theorem oversized_effects_iff (he : Effects p p') (hl : p.layout = some l) :
    ∃ m, p'.layout = some m ∧ (m.Oversized ↔ l.Oversized) := by
  induction he with
  | refl => exact ⟨l, hl, Iff.rfl⟩
  | tail _ he ih =>
      obtain ⟨m, hm, hiff⟩ := ih
      obtain ⟨k, hk, hiff'⟩ := oversized_effect_iff he hm
      exact ⟨k, hk, hiff'.trans hiff⟩

theorem oversized_act_iff (hl : p.layout = some l) (x : Action) :
    ∃ m, (p.act x).layout = some m ∧ (m.Oversized ↔ l.Oversized) := by
  cases x with
  | op op => exact oversized_effects_iff (effects_run op p) hl
  | refill => exact ⟨l, p.layout_refill.trans hl, Iff.rfl⟩

/-- **Whatever is done to a packet, it is oversized if it was and not if it was not.** -/
theorem oversized_actAll_iff (hl : p.layout = some l) (xs : List Action) :
    ∃ m, (p.actAll xs).layout = some m ∧ (m.Oversized ↔ l.Oversized) := by
  induction xs generalizing p l with
  | nil => exact ⟨l, hl, Iff.rfl⟩
  | cons x xs ih =>
      obtain ⟨m, hm, hiff⟩ := oversized_act_iff hl x
      obtain ⟨k, hk, hiff'⟩ := ih hm
      exact ⟨k, hk, hiff'.trans hiff⟩

/-! ## After any number of actions -/

/-- **The header behind the IP header can be opened as it can be read, with one exception.** For all
that becomes of a new packet by operations and recomputed checksums, once its headers are found: if
it is not oversized, the header is opened, and the open header shows what is read. If it is, opening
it is refused for want of space, and so are the ports, the payload, whatever it is, and all requests
to an open header; nothing is touched; and the header, its ports and the payload are still read. No
packet gets from one to the other. -/
theorem openNext_agrees (b : Buffer) (a : Address) (xs : List Action)
    (hl : ((ofBuffer b a).actAll xs).layout = some l) :
    let p := (ofBuffer b a).actAll xs
    (¬l.Oversized → ∃ d, p.openNext = .ok d ∧ p.nextHeader = .ok d.header) ∧
    (l.Oversized →
      Malformed.tcpSpace.kind = .insufficientBytes ∧ p.Refuses (.malformed .tcpSpace) ∧
        ∃ segment, p.Shows segment) ∧
    ∀ ys, ∃ m, (p.actAll ys).layout = some m ∧ (m.Oversized ↔ l.Oversized) := by
  intro p
  have hnew : (ofBuffer b a).Current := fun l hl => nomatch hl
  have hc : p.Current := hnew.actAll xs
  refine ⟨fun hno => hc.exists_openNext hl hno, fun ho => ⟨rfl, ?_, ?_⟩,
    fun ys => oversized_actAll_iff hl ys⟩
  · exact refuses_of_openNext hl (hc.openNext_of_oversized hl ho)
  · exact hc.exists_shows hl ho.1

/-- Asking for the headers of a packet makes it remember them. -/
theorem layout_actAll_parse (hl : p.locate = .ok l) :
    (p.actAll [.op (.ask .parse)]).layout = some l :=
  layout_located hl

/-- Storage in use to its end, that starts with a TCP segment over IPv4. -/
def overfull : Buffer := ⟨Storage.blank.overwrite 0 synchronize, bufferSize, Nat.le_refl _⟩

theorem byte_overfull {i : Nat} (hi : i < 40) :
    overfull.contents.byte i = synchronize.byte i := by
  have hsize : synchronize.size = 40 := rfl
  rw [Buffer.byte_contents, overfull]
  simp only
  rw [if_pos (by unfold bufferSize; omega), Storage.byte_overwrite,
    if_pos (by unfold bufferSize; omega), Nat.sub_zero]

theorem parse_overfull :
    Layout.parse overfull.contents = .ok ⟨.v4, 20, 6, 65555, false, false⟩ := by
  have hsize : overfull.contents.size = 65575 := overfull.size_contents
  have h0 : overfull.contents.byte 0 = 69 := byte_overfull (by decide)
  have h9 : overfull.contents.byte 9 = 6 := byte_overfull (by decide)
  have h32 : overfull.contents.byte 32 = 80 := byte_overfull (by decide)
  have hip : StartsWithIp overfull.contents .v4 20 6 := by
    have hstart : StartsWithIp overfull.contents .v4
        (4 * ((overfull.contents.byte 0).toNat % 16)) (overfull.contents.byte 9).toNat :=
      .v4 (by rw [h0]; rfl) (by rw [h0]; decide) (by rw [h0, hsize]; decide)
    rwa [h0, h9] at hstart
  have hrest : (overfull.contents.extract 20 overfull.contents.size).size = 65555 := by
    rw [ByteArray.size_extract, hsize]
    rfl
  have h12 : Bytes.byte (overfull.contents.extract 20 overfull.contents.size) 12 = 80 := by
    rw [Bytes.byte_extract, if_pos (by omega), h32]
  have hnext : StartsWithNext 6 (overfull.contents.extract 20 overfull.contents.size) := by
    refine ⟨fun _ => ?_, fun h => by omega⟩
    rw [hrest, h12]
    decide
  refine Layout.parse_eq_ok.2 ⟨.v4, 20, 6, ⟨by omega, hip, hnext⟩, ?_⟩
  rw [hsize]

/-- The exception occurs: a packet that fills its storage can be read but not opened, while a short
one can be both. -/
theorem openNext_agrees_overfull :
    (∃ (b : Buffer) (l : Layout), (ofBuffer b .blank).contents = synchronize ∧
      let p := (ofBuffer b .blank).actAll [.op (.ask .parse)]
      p.layout = some l ∧ ∃ d, p.openNext = .ok d ∧ p.nextHeader = .ok d.header) ∧
    let p := (ofBuffer overfull .blank).actAll [.op (.ask .parse)]
    p.layout = some ⟨.v4, 20, 6, 65555, false, false⟩ ∧ p.Refuses (.malformed .tcpSpace) ∧
      ∃ segment, p.Shows segment := by
  constructor
  · obtain ⟨b, -, hcontents⟩ := exists_synchronize
    have hl := layout_actAll_parse (locate_synchronize hcontents rfl)
    obtain ⟨hopen, -, -⟩ := openNext_agrees b .blank [.op (.ask .parse)] hl
    exact ⟨b, _, hcontents, hl, hopen fun ho => absurd ho.2.2 (show ¬65535 < 20 + 20 by omega)⟩
  · have hfound : (ofBuffer overfull .blank).locate =
        .ok ⟨.v4, 20, 6, 65555, false, false⟩ := by
      unfold locate
      rw [show (ofBuffer overfull .blank).contents = overfull.contents from rfl, parse_overfull]
      rfl
    have hl := layout_actAll_parse hfound
    obtain ⟨-, hrefused, -⟩ := openNext_agrees overfull .blank [.op (.ask .parse)] hl
    exact ⟨hl, (hrefused ⟨rfl, rfl, show 65535 < 20 + 65555 by omega⟩).2⟩

end Packet

end Intercept
