import Intercept.Proofs.Fields
import Intercept.Proofs.Packet.Sound

set_option autoImplicit false

/-! # Payloads and lengths of TCP packets

Two operations change how long a TCP packet is. Replacing the payload keeps the packet up to the
payload and leaves nothing but zeros behind the new one (`Resizable.replaced`); the length of the
packet itself stays behind. Bringing the length up to date takes the segment in and writes one field
of the IP header (`Resizable.settled`); nothing else of the storage is written, because what is
given up is zero already.

Both are possible as long as the segment is no longer than the IP header can state, and keep it so
(`Resizable`). A packet that is past that refuses either, and is left as it was
but for its headers having been found (`updateLength_of_openTcp`). -/

namespace Intercept

/-- Writing a field of the contents of a buffer is writing it in the storage. -/
theorem Buffer.bytes_overwrite_write {f : Field} {b : Buffer} (v : Nat) (h : f.Within b.len) :
    (b.overwrite 0 (f.write v b.contents)).storage.bytes = f.write v b.storage.bytes := by
  have hwithin : f.Within (b.len - 0) := h
  have hwrite := overwrite_write v b hwithin (Nat.zero_le _) b.len_le
  rw [Field.shift_zero] at hwrite
  rw [contents, hwrite]
  rfl

namespace Layout

/-- The field of the IP header that states the length. -/
def lengthField (l : Layout) : Field :=
  match l.version with
  | .v4 => (Ipv4.Cell.totalLen).field
  | .v6 => (Ipv6.Cell.payloadLen).field

/-- The length that the IP header is to state. -/
def statedLen (l : Layout) : Nat :=
  match l.version with
  | .v4 => l.segmentEnd
  | .v6 => l.segmentLen

/-- The layout once the length is stated in the IP header. -/
def stated (l : Layout) : Layout := { l with ipModified := true }

/-- The layout once a payload of `n` bytes is in place behind a TCP header of `h` bytes. -/
def withPayload (h n : Nat) (l : Layout) : Layout :=
  { l with segmentLen := h + n, segmentModified := true }

theorem lengthField_bounds (l : Layout) :
    8 ≤ l.lengthField.first ∧ l.lengthField.first + l.lengthField.width ≤ 48 ∧
      l.lengthField.first % 8 = 0 ∧ l.lengthField.width = 16 := by
  unfold lengthField
  cases l.version <;> decide

end Layout

namespace Packet

/-! ## Packets that can be resized -/

/-- The length of the TCP header. -/
def tcpHeaderLen (l : Layout) (p : Packet) : Nat := Tcp.headerLen (p.space l).space

/-- A TCP packet with no more in its segment than the IP header can state. -/
structure Resizable (l : Layout) (p : Packet) : Prop where
  layout : p.layout = some l
  sound : l.Sound p.buffer
  tcp : Transport.ofNumber? l.protocol = some .tcp
  room : l.segmentLen ≤ l.maxSegmentLen

/-- The packet `q` is the packet `p` with another payload. -/
structure Replaced (data : Bytes) (l : Layout) (p q : Packet) : Prop where
  layout : q.layout = some (l.withPayload (p.tcpHeaderLen l) data.size)
  len : q.len = p.len
  address : q.address = p.address
  byte : ∀ i, q.buffer.storage.bytes.byte i =
    if i < l.ipHeaderLen + p.tcpHeaderLen l then p.buffer.storage.bytes.byte i
    else data.byte (i - (l.ipHeaderLen + p.tcpHeaderLen l))

/-- The packet `q` is the packet `p` with its length brought up to date. -/
structure Settled (l : Layout) (p q : Packet) : Prop where
  layout : q.layout = some l.stated
  len : q.len = l.segmentEnd
  address : q.address = p.address
  bytes : q.buffer.storage.bytes = l.lengthField.write l.statedLen p.buffer.storage.bytes

variable {p q r : Packet} {l m : Layout} {data : Bytes}

theorem ext_of_bytes (hb : p.buffer.storage.bytes = q.buffer.storage.bytes) (hl : p.len = q.len)
    (ha : p.address = q.address) (hm : p.layout = q.layout) : p = q := by
  obtain ⟨b, a, x⟩ := p
  obtain ⟨c, a', y⟩ := q
  have hbuffer : b = c := Buffer.ext (Storage.ext hb) hl
  cases hbuffer
  cases ha
  cases hm
  rfl

/-! ## Opening a segment -/

/-- The space of a segment goes as far as the IP header can state. -/
theorem size_space_of_fits (hf : l.Fits p.len) : (p.space l).space.size = l.maxSegmentLen := by
  have hhead := hf.header
  have hlen : p.len ≤ bufferSize := p.buffer.len_le
  have hmax : l.maxSegmentLen ≤ bufferSize - l.ipHeaderLen := Nat.min_le_left ..
  rw [size_space, Layout.spaceEnd, if_pos rfl]
  omega

namespace Current

/-- The segment starts with its header. -/
theorem segment_holds (h : p.Current) (hl : p.layout = some l)
    (ht : Transport.ofNumber? l.protocol = some .tcp) :
    20 ≤ Tcp.headerLen (p.buffer.storage.bytes.extract l.ipHeaderLen l.segmentEnd) ∧
      Tcp.headerLen (p.buffer.storage.bytes.extract l.ipHeaderLen l.segmentEnd) ≤
        l.segmentLen := by
  have hc := h l hl
  have hseg := hc.fits.segment
  have hend : l.segmentEnd = l.ipHeaderLen + l.segmentLen := rfl
  have hnext := hc.next .tcp ht
  unfold NextHeader.Holds at hnext
  rw [if_pos rfl, ByteArray.size_extract, p.buffer.storage.size_eq] at hnext
  obtain ⟨hmin, hle⟩ := hnext
  exact ⟨hmin, by omega⟩

/-- The header that the segment starts with is read in the space of the segment as well. -/
theorem segment_header (h : p.Current) (hl : p.layout = some l)
    (ht : Transport.ofNumber? l.protocol = some .tcp) (hroom : l.segmentLen ≤ l.maxSegmentLen) :
    20 ≤ Tcp.headerLen (p.buffer.storage.bytes.extract l.ipHeaderLen l.segmentEnd) ∧
      Tcp.headerLen (p.buffer.storage.bytes.extract l.ipHeaderLen l.segmentEnd) ≤ l.segmentLen ∧
        p.tcpHeaderLen l =
          Tcp.headerLen (p.buffer.storage.bytes.extract l.ipHeaderLen l.segmentEnd) := by
  have hsize := size_space_of_fits (h l hl).fits
  have hend : l.segmentEnd = l.ipHeaderLen + l.segmentLen := rfl
  obtain ⟨hmin, hle⟩ := h.segment_holds hl ht
  refine ⟨hmin, hle, Tcp.headerLen_congr ?_⟩
  rw [size_space, Layout.spaceEnd, if_pos rfl] at hsize
  simp only [space, Layout.spaceEnd, if_true]
  rw [Bytes.byte_extract, Bytes.byte_extract, if_pos (by omega), if_pos (by omega)]

theorem sound_space (h : p.Current) (hl : p.layout = some l)
    (ht : Transport.ofNumber? l.protocol = some .tcp) (hroom : l.segmentLen ≤ l.maxSegmentLen) :
    (p.space l).Sound := by
  obtain ⟨hmin, hle, hsame⟩ := h.segment_header hl ht hroom
  rw [← hsame] at hmin hle
  refine ⟨hmin, hle, ?_⟩
  rw [size_space_of_fits (h l hl).fits]
  exact hroom

/-- A segment can be opened in the space that it lies at the start of. -/
theorem ofBytes_space (h : p.Current) (hl : p.layout = some l)
    (ht : Transport.ofNumber? l.protocol = some .tcp) (hroom : l.segmentLen ≤ l.maxSegmentLen) :
    NextDraft.ofBytes .tcp l.segmentLen l.segmentModified (p.space l).space =
        .ok (.tcp (p.space l)) ∧
      (p.space l).segment = p.buffer.storage.bytes.extract l.ipHeaderLen l.segmentEnd := by
  have hsize := size_space_of_fits (h l hl).fits
  rw [size_space] at hsize
  refine ⟨Except.map_eq_ok.2
    ⟨_, Tcp.openDraft_eq_ok.2 ⟨rfl, h.sound_space hl ht hroom⟩, rfl⟩, ?_⟩
  rw [Tcp.Draft.segment, space, ByteArray.extract_extract, Nat.add_zero, Nat.min_eq_left]
  · rfl
  · simp only [Layout.spaceEnd, if_true]
    omega

/-- A segment that has room is opened in its space. -/
theorem openNext_eq (h : p.Current) (hl : p.layout = some l)
    (ht : Transport.ofNumber? l.protocol = some .tcp) (hroom : l.segmentLen ≤ l.maxSegmentLen) :
    p.openNext = .ok (.tcp (p.space l)) := by
  have hhead : l.ipHeaderLen ≤ p.len := (h l hl).fits.header
  have hlen : p.len ≤ bufferSize := p.buffer.len_le
  have hmax : l.maxSegmentLen ≤ bufferSize - l.ipHeaderLen := Nat.min_le_left ..
  refine (openNext_eq_ok hl).2 (Or.inr ⟨.tcp, ht, ?_, ?_, ?_⟩)
  · rw [Layout.spaceEnd, if_pos rfl]
    omega
  · rw [Layout.spaceEnd, if_pos rfl]
    omega
  · exact (h.ofBytes_space hl ht hroom).1

end Current

namespace Resizable

theorem of_sound (hl : p.layout = some l) (hs : p.Sound)
    (ht : Transport.ofNumber? l.protocol = some .tcp) (hr : l.segmentLen ≤ l.maxSegmentLen) :
    p.Resizable l :=
  ⟨hl, hs.layout hl, ht, hr⟩

theorem whole (h : p.Resizable l) : p.Sound := sound_of_layout h.layout h.sound

theorem maxSegmentLen_le (l : Layout) : l.maxSegmentLen ≤ bufferSize - l.ipHeaderLen :=
  Nat.min_le_left ..

theorem bounds (h : p.Resizable l) :
    20 ≤ l.ipHeaderLen ∧ l.ipHeaderLen ≤ p.len ∧ l.segmentEnd ≤ bufferSize ∧
      l.ipHeaderLen + l.maxSegmentLen ≤ bufferSize := by
  have hmin := IpVersion.validate_pos h.sound.validate
  have hhead : l.ipHeaderLen ≤ p.len := h.sound.fits.header
  have hlen : p.len ≤ bufferSize := p.buffer.len_le
  have hmax := maxSegmentLen_le l
  exact ⟨hmin, hhead, h.sound.fits.segment, by omega⟩

/-- The space of the segment goes as far as the IP header can state. -/
theorem size_space (h : p.Resizable l) : (p.space l).space.size = l.maxSegmentLen :=
  size_space_of_fits h.sound.fits

/-- The segment starts with its header, and the same header is read in the space of the segment. -/
theorem segment_header (h : p.Resizable l) :
    20 ≤ Tcp.headerLen (p.buffer.storage.bytes.extract l.ipHeaderLen l.segmentEnd) ∧
      Tcp.headerLen (p.buffer.storage.bytes.extract l.ipHeaderLen l.segmentEnd) ≤ l.segmentLen ∧
        p.tcpHeaderLen l =
          Tcp.headerLen (p.buffer.storage.bytes.extract l.ipHeaderLen l.segmentEnd) :=
  h.whole.current.segment_header h.layout h.tcp h.room

/-- The header that is read in the space of the segment is the one that was found. -/
theorem header (h : p.Resizable l) :
    20 ≤ p.tcpHeaderLen l ∧ p.tcpHeaderLen l ≤ l.segmentLen := by
  obtain ⟨hmin, hle, hsame⟩ := h.segment_header
  rw [hsame]
  exact ⟨hmin, hle⟩

theorem soundSpace (h : p.Resizable l) : (p.space l).Sound :=
  h.whole.current.sound_space h.layout h.tcp h.room

theorem openNext_eq (h : p.Resizable l) : p.openNext = .ok (.tcp (p.space l)) :=
  h.whole.current.openNext_eq h.layout h.tcp h.room

theorem openTcp_eq (h : p.Resizable l) : p.openTcp = .ok (p.space l) :=
  openTcp_eq_ok.2 h.openNext_eq

/-- The length of the TCP header is in a byte that lies before the payload. -/
theorem tcpHeaderLen_congr (h : p.Resizable l) (h' : q.Resizable m)
    (hm : m.ipHeaderLen = l.ipHeaderLen)
    (hbyte : q.buffer.storage.bytes.byte (l.ipHeaderLen + 12) =
      p.buffer.storage.bytes.byte (l.ipHeaderLen + 12)) :
    q.tcpHeaderLen m = p.tcpHeaderLen l := by
  have hp := h.header
  have hq := h'.header
  have hproom := h.room
  have hqroom := h'.room
  refine Tcp.headerLen_congr ?_
  simp only [space, Layout.spaceEnd, if_true]
  rw [Bytes.byte_extract, Bytes.byte_extract, if_pos (by omega), if_pos (by omega), hm, hbyte]

end Resizable

/-! ## Replacing a payload -/

/-- With nothing but zeros behind the old segment there are none but zeros behind the new one. -/
theorem byte_setPayload_of_zero {d d' : Tcp.Draft} (hd : d.Sound)
    (h : Tcp.setPayload data d = .ok d') (hz : ∀ i, d.len ≤ i → d.space.byte i = 0) (i : Nat) :
    d'.space.byte i =
      if i < Tcp.headerLen d.space then d.space.byte i
      else data.byte (i - Tcp.headerLen d.space) := by
  have hsegment := hd.segment
  obtain ⟨-, hd'⟩ := Tcp.setPayload_eq_ok.1 h
  have hlen : d'.len = Tcp.headerLen d.space + data.size := by rw [hd']
  rw [Tcp.byte_setPayload h]
  by_cases h1 : i < Tcp.headerLen d.space
  · rw [if_pos h1, if_neg (by omega), if_neg (by omega)]
  · rw [if_neg h1]
    by_cases h2 : i < d'.len
    · rw [if_pos ⟨by omega, h2⟩]
    · have hout : data.byte (i - Tcp.headerLen d.space) = 0 := Bytes.byte_of_size_le (by omega)
      rw [if_neg (fun hh => h2 hh.2), hout]
      split
      · rfl
      · exact hz i (by omega)

/-- The space of the segment is a part of the storage. -/
theorem byte_space (l : Layout) (p : Packet) (i : Nat) :
    (p.space l).space.byte i =
      if i < l.maxSegmentLen then p.buffer.storage.bytes.byte (l.ipHeaderLen + i) else 0 := by
  simp only [space, Layout.spaceEnd, if_true]
  simp only [Bytes.byte_extract, Nat.add_lt_add_iff_left]

theorem Resizable.byte_setPayload {d : Tcp.Draft} (h : p.Resizable l)
    (hd : Tcp.setPayload data (p.space l) = .ok d) (i : Nat) :
    d.space.byte i = if i < p.tcpHeaderLen l then (p.space l).space.byte i
      else data.byte (i - p.tcpHeaderLen l) := by
  refine byte_setPayload_of_zero h.soundSpace hd (fun i hi => ?_) i
  have hi : l.segmentLen ≤ i := hi
  have hend : l.segmentEnd = l.ipHeaderLen + l.segmentLen := rfl
  rw [byte_space, h.sound.zero (l.ipHeaderLen + i) (by omega), ite_self]

/-- **What replacing the payload leaves**: the packet up to the payload, the payload, and zeros. -/
theorem Resizable.replaced {d : Tcp.Draft} (h : p.Resizable l)
    (hd : Tcp.setPayload data (p.space l) = .ok d) :
    p.Replaced data l (p.putTcp d) ∧
      (p.putTcp d).Resizable (l.withPayload (p.tcpHeaderLen l) data.size) := by
  have hb := h.bounds
  have hend : l.segmentEnd = l.ipHeaderLen + l.segmentLen := rfl
  have hroom := h.room
  have hhead := h.header
  have hk := Tcp.keeps_setPayload h.soundSpace hd
  obtain ⟨hfit, hd'⟩ := Tcp.setPayload_eq_ok.1 hd
  have hlen : d.len = p.tcpHeaderLen l + data.size := by rw [hd']; rfl
  have hfit : p.tcpHeaderLen l + data.size ≤ l.maxSegmentLen := h.size_space ▸ hfit
  have hlayout : (p.putTcp d).layout = some (l.withPayload (p.tcpHeaderLen l) data.size) := by
    rw [putTcp_of_layout h.layout, hlen, hd']
    rfl
  have hput := byte_putTcp h.layout hk.size
  rw [hk.size, h.size_space] at hput
  refine ⟨⟨hlayout, ?_, ?_, fun i => ?_⟩, ?_⟩
  · rw [putTcp_of_layout h.layout]
    rfl
  · rw [putTcp_of_layout h.layout]
  · rw [hput]
    -- in the space of the segment it is the segment that counts, elsewhere nothing is written
    by_cases hin : l.ipHeaderLen ≤ i ∧ i < l.ipHeaderLen + l.maxSegmentLen
    · rw [if_pos hin, h.byte_setPayload hd]
      by_cases h1 : i < l.ipHeaderLen + p.tcpHeaderLen l
      · rw [if_pos h1, if_pos (by omega), byte_space, if_pos (by omega),
          Nat.add_sub_cancel' hin.1]
      · rw [if_neg h1, if_neg (by omega), Nat.sub_sub]
    · rw [if_neg hin]
      by_cases h1 : i < l.ipHeaderLen + p.tcpHeaderLen l
      · rw [if_pos h1]
      · have hout : data.byte (i - (l.ipHeaderLen + p.tcpHeaderLen l)) = 0 :=
          Bytes.byte_of_size_le (by omega)
        rw [if_neg h1, hout, h.sound.zero i (by omega)]
  · have hs := h.whole.effects (effects_putNext h.openNext_eq (.tcp hk))
    rw [located_of_layout h.layout] at hs
    exact .of_sound hlayout hs h.tcp hfit

/-- A payload that fits the space can be put in place. -/
theorem Resizable.exists_setPayload (h : p.Resizable l)
    (hfit : p.tcpHeaderLen l + data.size ≤ l.maxSegmentLen) :
    ∃ d, Tcp.setPayload data (p.space l) = .ok d :=
  ⟨_, Tcp.setPayload_eq_ok.2 ⟨by rw [h.size_space]; exact hfit, rfl⟩⟩

/-- The outcome of putting a payload in place and bringing the length up to date. -/
theorem Resizable.setTcpPayload {d : Tcp.Draft} (h : p.Resizable l)
    (hd : Tcp.setPayload data (p.space l) = .ok d) :
    p.setTcpPayload data = (p.putTcp d).updateLength := by
  unfold Packet.setTcpPayload
  rw [h.openTcp_eq]
  simp only [hd, located_of_layout h.layout]

/-- A payload that does not fit is refused. -/
theorem Resizable.lt_of_setPayload {c : Malformed} (h : p.Resizable l)
    (hd : Tcp.setPayload data (p.space l) = .error c) :
    l.maxSegmentLen < p.tcpHeaderLen l + data.size := by
  refine Nat.lt_of_not_le fun hfit => ?_
  obtain ⟨d, hd'⟩ := h.exists_setPayload hfit
  rw [hd] at hd'
  cases hd'

/-! ## Bringing the length up to date -/

/-- The buffer can take the length of the segment, and only its length changes: what it gives up was
zero before. -/
theorem Resizable.exists_setLen? (h : p.Resizable l) :
    ∃ b, p.buffer.setLen? l.segmentEnd = some b ∧ b.len = l.segmentEnd ∧
      b.storage.bytes = p.buffer.storage.bytes ∧
      l.version.validate b.contents = .ok l.ipHeaderLen := by
  obtain ⟨b, hset⟩ : ∃ b, p.buffer.setLen? l.segmentEnd = some b := ⟨_, dif_pos h.bounds.2.2.1⟩
  obtain ⟨-, -, hlen⟩ := Buffer.setLen?_eq_some.1 hset
  have hsound : Packet.Sound { p with buffer := b } := h.whole.resize h.layout hset
  refine ⟨b, hset, hlen, ?_, (hsound.layout h.layout).validate⟩
  refine Bytes.ext_byte (b.storage.size_eq.trans p.buffer.storage.size_eq.symm) fun i _ => ?_
  exact byte_setLen? hset h.sound.zero i

/-- A length that can be stated is written over the old one. -/
theorem updateLength_of_room {b : Buffer} (hl : p.layout = some l)
    (ht : Transport.ofNumber? l.protocol = some .tcp) (hpos : 0 < l.segmentLen)
    (hroom : l.segmentLen ≤ l.maxSegmentLen) (hset : p.buffer.setLen? l.segmentEnd = some b)
    (hvalid : l.version.validate b.contents = .ok l.ipHeaderLen) :
    p.updateLength = (.ok (), ({ p with buffer := b } : Packet).putIp
      ⟨l.lengthField.write l.statedLen b.contents, true⟩) := by
  have hend : l.segmentEnd = l.ipHeaderLen + l.segmentLen := rfl
  have hmax : l.maxSegmentLen ≤ match l.version with
      | .v4 => 65535 - l.ipHeaderLen
      | .v6 => 65535 := Nat.min_le_right ..
  have hlocated := located_of_layout hl
  unfold updateLength
  rw [locate_of_layout hl]
  simp only [ht, ne_eq, not_true_eq_false, if_false, hlocated]
  unfold commitLength
  simp only [hset, contents]
  -- the two versions differ in the field, and in whether it counts the header
  cases hv : l.version with
  | v4 =>
      simp only [hv] at hmax hvalid
      have hopen : Ipv4.openDraft b.contents l.ipModified = .ok ⟨b.contents, l.ipModified⟩ :=
        Except.map_eq_ok.2 ⟨_, hvalid, rfl⟩
      rw [if_neg (show ¬65535 < l.segmentEnd by omega)]
      simp only [hopen, Layout.lengthField, Layout.statedLen, hv]
      rfl
  | v6 =>
      simp only [hv] at hmax hvalid
      have hopen : Ipv6.openDraft b.contents l.ipModified = .ok ⟨b.contents, l.ipModified⟩ :=
        Except.map_eq_ok.2 ⟨_, hvalid, rfl⟩
      rw [if_neg (show ¬65535 < l.segmentLen by omega)]
      simp only [hopen, Layout.lengthField, Layout.statedLen, hv]
      rfl

/-- **What bringing the length up to date leaves**: the packet with its length stated in the IP
header. -/
theorem Resizable.settled (h : p.Resizable l) :
    ∃ q, p.updateLength = (.ok (), q) ∧ p.Settled l q ∧ q.Resizable l.stated := by
  obtain ⟨b, hset, hlen, hbytes, hvalid⟩ := h.exists_setLen?
  have hpos : 0 < l.segmentLen := by
    have := h.header
    omega
  have hq := updateLength_of_room h.layout h.tcp hpos h.room hset hvalid
  have hwithin : l.lengthField.Within b.len := by
    have := l.lengthField_bounds
    have := h.bounds
    have hend : l.segmentEnd = l.ipHeaderLen + l.segmentLen := rfl
    have := h.header
    unfold Field.Within
    omega
  have hlayout : (({ p with buffer := b } : Packet).putIp
      ⟨l.lengthField.write l.statedLen b.contents, true⟩).layout = some l.stated := by
    simp only [putIp, h.layout, Option.map_some]
    rfl
  refine ⟨_, hq, ⟨hlayout, hlen, rfl, ?_⟩, ?_⟩
  · rw [← hbytes]
    exact Buffer.bytes_overwrite_write _ hwithin
  · have hsound := h.whole.effects (effects_updateLength p)
    rw [hq] at hsound
    exact .of_sound hlayout hsound h.tcp h.room

/-! ## Packets that cannot be resized -/

/-- A TCP segment can be opened only if its packet can be resized. -/
theorem resizable_of_openTcp {d : Tcp.Draft} (hs : p.Sound) (h : p.openTcp = .ok d) :
    ∃ l, p.located.Resizable l := by
  have hnext := openTcp_eq_ok.1 h
  obtain ⟨l, hl⟩ := locate_of_openNext hnext
  have hlayout := layout_located hl
  rw [← openNext_located] at hnext
  refine ⟨l, ?_⟩
  rcases (openNext_eq_ok hlayout).1 hnext with ⟨-, hd⟩ | ⟨t, ht, hlo, hhi, hd⟩
  · cases hd
  · rcases NextDraft.ofBytes_cases hd with ⟨rfl, hspace, -⟩ | ⟨-, -, hd | ⟨f, hd⟩⟩
    · have hle : l.segmentLen ≤ (p.located.space l).space.size := hspace.space
      exact .of_sound hlayout (hs.effects (effects_located p)) ht
        (Nat.le_trans hle (size_space_le l _))
    · cases hd
    · cases hd

/-- A length that cannot be stated is left as it is. -/
theorem Current.updateLength_of_not_room (h : p.Current) (hl : p.layout = some l)
    (ht : Transport.ofNumber? l.protocol = some .tcp) (hroom : ¬l.segmentLen ≤ l.maxSegmentLen) :
    p.updateLength.2 = p := by
  have hseg := (h l hl).fits.segment
  have hend : l.segmentEnd = l.ipHeaderLen + l.segmentLen := rfl
  have hlocated := located_of_layout hl
  unfold Layout.maxSegmentLen at hroom
  unfold updateLength
  rw [locate_of_layout hl]
  simp only [ht, ne_eq, not_true_eq_false, if_false, hlocated]
  cases hv : l.version with
  | v4 =>
      simp only [hv] at hroom ⊢
      rw [if_pos (by omega)]
  | v6 =>
      simp only [hv] at hroom ⊢
      rw [if_pos (by omega)]

/-- The length is left alone as well if the segment cannot be opened. -/
theorem updateLength_of_openTcp {e : Fault} (hs : p.Sound) (h : p.openTcp = .error e) :
    p.updateLength.2 = p.located := by
  cases hl : p.locate with
  | error e => simp only [updateLength, hl, located_of_error hl]
  | ok l =>
      have hlayout := layout_located hl
      have hs := hs.effects (effects_located p)
      rw [← updateLength_located]
      by_cases ht : Transport.ofNumber? l.protocol = some .tcp
      · -- nothing but a length that cannot be stated keeps the segment from being opened
        refine hs.current.updateLength_of_not_room hlayout ht fun hroom => ?_
        have hr : p.located.Resizable l := .of_sound hlayout hs ht hroom
        have hopen := hr.openTcp_eq
        rw [openTcp_located, h] at hopen
        cases hopen
      · simp only [updateLength, locate_of_layout hlayout, ht, ne_eq, not_false_eq_true, if_true,
          located_located]

end Packet

end Intercept
