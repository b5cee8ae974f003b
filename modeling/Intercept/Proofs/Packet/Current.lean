import Intercept.Proofs.Checksum
import Intercept.Proofs.Packet.Reading

set_option autoImplicit false

/-! # The remembered layout is current

The headers of a packet are looked for once and their layout is remembered, while their bytes go on
being changed. `Packet.Current` says that what is remembered is nevertheless what the bytes say: the
IP header is found with the version and length it had, and the segment still holds the header of the
protocol it was found with, whatever the protocol field of the IP header says by now.

The effects keep this, and so does recomputing the checksums in software, because none of them
reaches the version, the length of the IP header or the data offset. What lies behind the packet in
its storage does not matter. So all reading, and opening the IP header, goes on succeeding
(`layout_current`). A driver that rewrites the bytes at will would break it. -/

namespace Intercept

/-- What is remembered of the headers is what the buffer that holds them says. -/
structure Layout.Current (b : Buffer) (l : Layout) : Prop where
  validate : l.version.validate b.contents = .ok l.ipHeaderLen
  fits : l.Fits b.len
  next : ∀ t, Transport.ofNumber? l.protocol = some t →
    NextHeader.Holds t (b.storage.bytes.extract l.ipHeaderLen l.segmentEnd)

namespace Packet

/-- What is remembered of a packet is what its bytes say. -/
def Current (p : Packet) : Prop := ∀ l ∈ p.layout, l.Current p.buffer

/-- The packet with its checksums recomputed in software, as far as they can be. -/
def refill (p : Packet) : Packet := p.rewrite (Checksum.fill p.contents).2 p.address

variable {p p' : Packet} {l : Layout}

theorem current_of_layout (hl : p.layout = some l) (h : l.Current p.buffer) : p.Current := by
  intro l' hl'
  cases hl.symm.trans hl'
  exact h

theorem Current.fits (h : p.Current) : p.Fits := fun l hl => (h l hl).fits

/-! ## What the bytes have to keep -/

theorem byte_zero_contents (b : Buffer) (h : 0 < b.len) :
    b.contents.byte 0 = b.storage.bytes.byte 0 := by
  rw [Buffer.byte_contents, if_pos h]

/-- The IP header is found again in a buffer that is long enough and starts with the same byte. -/
theorem validate_of_storage {b b' : Buffer}
    (h : l.version.validate b.contents = .ok l.ipHeaderLen) (hlen : l.ipHeaderLen ≤ b'.len)
    (h0 : b'.storage.bytes.byte 0 = b.storage.bytes.byte 0) :
    l.version.validate b'.contents = .ok l.ipHeaderLen := by
  have hpos := IpVersion.validate_pos h
  have hle := IpVersion.validate_le h
  rw [Buffer.size_contents] at hle
  refine IpVersion.validate_of_byte_zero h (by rwa [Buffer.size_contents]) ?_
  rw [byte_zero_contents _ (by omega), byte_zero_contents _ (by omega), h0]

/-- A segment holds its header as long as it has as many bytes and, for TCP, the same data
offset. -/
theorem holds_congr {t : Transport} {a b : Bytes} (hs : a.size = b.size)
    (h : t = .tcp → a.byte 12 = b.byte 12) (hb : NextHeader.Holds t b) :
    NextHeader.Holds t a := by
  unfold NextHeader.Holds at hb ⊢
  split
  · next ht =>
      rw [if_pos ht] at hb
      rwa [Tcp.headerLen_congr (h ht), hs]
  · next ht =>
      rw [if_neg ht] at hb
      rwa [hs]

/-- A layout stays current as long as the length does and the IP header and the data offset are what
they were. -/
theorem current_of_bytes {b b' : Buffer} (h : l.Current b) (hlen : b'.len = b.len)
    (hv : l.version.validate b'.contents = .ok l.ipHeaderLen)
    (hoffset : Transport.ofNumber? l.protocol = some .tcp →
      b'.storage.bytes.byte (l.ipHeaderLen + 12) = b.storage.bytes.byte (l.ipHeaderLen + 12)) :
    l.Current b' := by
  refine ⟨hv, by rw [hlen]; exact h.fits, fun t ht => ?_⟩
  refine holds_congr ?_ (fun htcp => ?_) (h.next t ht)
  · rw [ByteArray.size_extract, ByteArray.size_extract, b'.storage.size_eq, b.storage.size_eq]
  · rw [Bytes.byte_extract, Bytes.byte_extract, hoffset (htcp ▸ ht)]

/-! ## Finding the headers -/

theorem Current.locate (hl : Layout.parse p.contents = .ok l) :
    { p with layout := some l }.Current := by
  have hfound := Layout.found_of_parse hl
  have hend : l.segmentEnd = p.buffer.len := by
    rw [hfound.segment, size_contents]
    rfl
  refine current_of_layout rfl ⟨hfound.validate, Fits.locate hl l rfl, ?_⟩
  have hnext := NextHeader.exists_ofBytes.1 hfound.next
  rw [size_contents] at hnext
  rw [extract_contents] at hnext
  rw [hend]
  exact hnext

/-! ## The IP header -/

/-- A change to the IP header leaves the storage behind it alone. -/
theorem byte_putIp {d d' : IpDraft} {i : Nat} (hl : p.layout = some l)
    (hs : l.Current p.buffer) (hd : p.openIp = .ok d) (hk : d.Keeps d') (hi : l.ipHeaderLen ≤ i) :
    (p.putIp d'.draft).buffer.storage.bytes.byte i = p.buffer.storage.bytes.byte i := by
  have hsize := size_of_openIp hl hd hk
  obtain ⟨-, hversion, hdraft⟩ := IpDraft.ofBytes_eq_ok.1 ((openIp_eq_ok hl).1 hd)
  have hbehind := hk.behind l.ipHeaderLen (by rw [hversion, hdraft]; exact hs.validate) i hi
  simp only [putIp, Buffer.overwrite]
  rw [Storage.byte_overwrite]
  split
  · next hin =>
      rw [Nat.sub_zero, hbehind, hdraft, contents, Buffer.byte_contents, if_pos]
      simp only [len] at hsize
      omega
  · rfl

theorem layout_putIp (hl : p.layout = some l) (d : Draft) :
    (p.putIp d).layout = some { l with ipModified := d.modified } := by
  simp only [putIp, hl, Option.map_some]

/-- The IP header is found again after a change to it. -/
theorem validate_putIp {d d' : IpDraft} (hl : p.layout = some l)
    (h : l.version.validate p.contents = .ok l.ipHeaderLen) (hd : p.openIp = .ok d)
    (hk : d.Keeps d') : l.version.validate (p.putIp d'.draft).contents = .ok l.ipHeaderLen := by
  obtain ⟨-, hversion, hdraft⟩ := IpDraft.ofBytes_eq_ok.1 ((openIp_eq_ok hl).1 hd)
  have hv := hk.validate
  rw [hversion, hdraft] at hv
  have hc : (p.putIp d'.draft).contents = d'.draft.bytes :=
    Buffer.contents_overwrite_zero (size_of_openIp hl hd hk)
  rw [hc, hv]
  exact h

theorem Current.putIp {d d' : IpDraft} (hl : p.layout = some l) (h : p.Current)
    (hd : p.openIp = .ok d) (hk : d.Keeps d') : (p.putIp d'.draft).Current := by
  have hs := h l hl
  have hvalid := validate_putIp hl hs.validate hd hk
  have hs' : l.Current (p.putIp d'.draft).buffer :=
    current_of_bytes hs rfl hvalid fun _ => byte_putIp hl hs hd hk (Nat.le_add_right ..)
  exact current_of_layout (layout_putIp hl _)
    ⟨hs'.validate, ⟨hs'.fits.header, hs'.fits.segment, hs'.fits.whole⟩, hs'.next⟩

/-! ## The header behind the IP header -/

/-- What is written behind the IP header leaves the header itself alone. -/
theorem byte_overwrite_of_lt {b : Buffer} {offset : Nat} {data : Bytes} {i : Nat}
    (h : i < offset) : (b.overwrite offset data).storage.bytes.byte i = b.storage.bytes.byte i := by
  rw [Buffer.overwrite, Storage.byte_overwrite, if_neg (by omega)]

/-- What is written back of the header behind the IP header does not reach into it. -/
theorem byte_putNext_of_lt (hl : p.layout = some l) (d : NextDraft) {i : Nat}
    (hi : i < l.ipHeaderLen) :
    (p.putNext d).buffer.storage.bytes.byte i = p.buffer.storage.bytes.byte i := by
  cases d with
  | tcp d =>
      simp only [putNext, putTcp_of_layout hl]
      exact byte_overwrite_of_lt hi
  | udp d | icmp f d =>
      simp only [putNext, putFixed_of_layout hl]
      exact byte_overwrite_of_lt hi
  | unsupported n => rfl

/-- Writing back the header behind the IP header changes no length. -/
theorem len_putNext (hl : p.layout = some l) (d : NextDraft) : (p.putNext d).len = p.len := by
  cases d with
  | tcp d => simp only [putNext, putTcp_of_layout hl, len, Buffer.len_overwrite]
  | udp d | icmp f d => simp only [putNext, putFixed_of_layout hl, len, Buffer.len_overwrite]
  | unsupported n => rfl

/-- The IP header is found again after a change to the header behind it. -/
theorem validate_putNext (hl : p.layout = some l)
    (h : l.version.validate p.contents = .ok l.ipHeaderLen) (d : NextDraft) :
    l.version.validate (p.putNext d).contents = .ok l.ipHeaderLen := by
  have hpos := IpVersion.validate_pos h
  have hle := IpVersion.validate_le h
  rw [size_contents, ← len_putNext hl d] at hle
  exact validate_of_storage h hle (byte_putNext_of_lt hl d (by omega))

theorem Current.putFixed (hl : p.layout = some l) (h : p.Current)
    (ht : Transport.ofNumber? l.protocol ≠ some .tcp) (x : Draft) : (p.putFixed x).Current := by
  have hs := h l hl
  have hvalid : l.version.validate (p.putFixed x).contents = .ok l.ipHeaderLen :=
    validate_putNext hl hs.validate (.udp x)
  rw [putFixed_of_layout hl] at hvalid ⊢
  have hs' : l.Current (p.buffer.overwrite l.ipHeaderLen x.bytes) :=
    current_of_bytes hs rfl hvalid fun hc => absurd hc ht
  exact current_of_layout rfl
    ⟨hs'.validate, ⟨hs'.fits.header, hs'.fits.segment, hs'.fits.whole⟩, hs'.next⟩

theorem layout_putFixed (hl : p.layout = some l) (x : Draft) :
    (p.putFixed x).layout = some { l with segmentModified := x.modified } := by
  rw [putFixed_of_layout hl]

theorem layout_putTcp (hl : p.layout = some l) (x : Tcp.Draft) :
    (p.putTcp x).layout =
      some { l with segmentLen := x.len, segmentModified := x.modified } := by
  rw [putTcp_of_layout hl]

/-- The segment that is found after a change is the one that was written back. -/
theorem holds_putTcp {x : Tcp.Draft} (hl : p.layout = some l) (hk : (p.space l).Keeps x)
    (hend : l.ipHeaderLen + x.len ≤ bufferSize) :
    NextHeader.Holds .tcp ((p.putTcp x).buffer.storage.bytes.extract l.ipHeaderLen
      (l.ipHeaderLen + x.len)) := by
  have hmin : 20 ≤ Tcp.headerLen x.space := hk.sound.header
  have hheader := hk.sound.segment
  have hspace := hk.sound.space
  have hsame : Tcp.headerLen ((p.putTcp x).buffer.storage.bytes.extract l.ipHeaderLen
      (l.ipHeaderLen + x.len)) = Tcp.headerLen x.space := by
    refine Tcp.headerLen_congr ?_
    rw [Bytes.byte_extract, if_pos (by omega), byte_putTcp hl hk.size, if_pos (by omega),
      Nat.add_sub_cancel_left]
  unfold NextHeader.Holds
  rw [if_pos rfl, hsame, ByteArray.size_extract, (p.putTcp x).buffer.storage.size_eq]
  exact ⟨hmin, by omega⟩

/-- A TCP segment ends within the storage after a change as well. -/
theorem Current.segmentEnd_putTcp {x : Tcp.Draft} (hl : p.layout = some l) (h : p.Current)
    (hk : (p.space l).Keeps x) : l.ipHeaderLen + x.len ≤ bufferSize := by
  have hspace := size_space l p
  have hlen : x.len ≤ (p.space l).space.size := by
    rw [← hk.size]
    exact hk.sound.space
  have := (h l hl).fits.header
  have := p.buffer.len_le
  omega

theorem Current.putTcp {x : Tcp.Draft} (hl : p.layout = some l) (h : p.Current)
    (ht : Transport.ofNumber? l.protocol = some .tcp) (hk : (p.space l).Keeps x) :
    (p.putTcp x).Current := by
  have hs := h l hl
  have hend := h.segmentEnd_putTcp hl hk
  have hvalid : l.version.validate (p.putTcp x).contents = .ok l.ipHeaderLen :=
    validate_putNext hl hs.validate (.tcp x)
  have hnext := holds_putTcp hl hk hend
  refine current_of_layout (layout_putTcp hl x)
    ⟨hvalid, Fits.putTcp hl ht hend h.fits _ (layout_putTcp hl x), fun t ht' => ?_⟩
  cases ht.symm.trans ht'
  exact hnext

/-! ## The length -/

/-- Cutting a buffer to some length, or stretching it, leaves what is in front of that alone. -/
theorem byte_setLen?_of_lt {b b' : Buffer} {n i : Nat} (h : b.setLen? n = some b') (hi : i < n) :
    b'.storage.bytes.byte i = b.storage.bytes.byte i := by
  obtain ⟨-, hs, -⟩ := Buffer.setLen?_eq_some.1 h
  rw [hs, Storage.byte_clear, if_neg (by omega)]

/-- The IP header is found again when the length is brought up to date. -/
theorem validate_resize {b : Buffer} (h : l.version.validate p.contents = .ok l.ipHeaderLen)
    (hb : p.buffer.setLen? l.segmentEnd = some b) :
    l.version.validate b.contents = .ok l.ipHeaderLen := by
  have hpos := IpVersion.validate_pos h
  have hend : l.segmentEnd = l.ipHeaderLen + l.segmentLen := rfl
  obtain ⟨-, -, hlen⟩ := Buffer.setLen?_eq_some.1 hb
  exact validate_of_storage h (by omega) (byte_setLen?_of_lt hb (by omega))

theorem Current.resize {b : Buffer} (hl : p.layout = some l) (h : p.Current)
    (hb : p.buffer.setLen? l.segmentEnd = some b) : { p with buffer := b }.Current := by
  have hs := h l hl
  have hfits := Fits.resize hl hb l hl
  refine current_of_layout hl ⟨validate_resize hs.validate hb, hfits, fun t ht => ?_⟩
  have hsame : b.storage.bytes.extract l.ipHeaderLen l.segmentEnd =
      p.buffer.storage.bytes.extract l.ipHeaderLen l.segmentEnd :=
    Bytes.extract_congr (b.storage.size_eq.trans p.buffer.storage.size_eq.symm)
      fun i _ hi => byte_setLen?_of_lt hb hi
  rw [hsame]
  exact hs.next t ht

/-! ## Recomputed checksums -/

/-- Where the header ends for a checksum is where it was found to end. -/
theorem segmentStart_of_validate {v : IpVersion} {b : Bytes} {n : Nat}
    (h : v.validate b = .ok n) : Checksum.segmentStart b = n := by
  unfold Checksum.segmentStart Checksum.version
  cases v with
  | v4 =>
      obtain ⟨hv, rfl, -, -⟩ := Ipv4.validate_eq_ok.1 h
      rw [if_neg (by rw [hv]; decide)]
  | v6 =>
      obtain ⟨hv, rfl, -⟩ := Ipv6.validate_eq_ok.1 h
      rw [if_pos (show Ipv4.version b = 6 from hv)]

/-- Bytes that take the place of the contents are written where the contents were. -/
theorem byte_rewrite {b : Bytes} (a : Address) (hs : b.size = p.len) (i : Nat) :
    (p.rewrite b a).buffer.storage.bytes.byte i =
      if i < p.len then b.byte i else p.buffer.storage.bytes.byte i := by
  have hlen : b.size ≤ bufferSize := hs ▸ p.buffer.len_le
  rw [rewrite, Buffer.overwrite, Storage.byte_overwrite]
  by_cases hi : i < p.len
  · rw [if_pos hi, if_pos (by omega), Nat.sub_zero]
  · rw [if_neg hi, if_neg (by omega)]

theorem size_fill_contents (p : Packet) : (Checksum.fill p.contents).2.size = p.len := by
  rw [Checksum.size_fill, size_contents]

/-- Recomputed checksums are in the contents of a packet. -/
theorem contents_refill (p : Packet) : p.refill.contents = (Checksum.fill p.contents).2 :=
  Buffer.contents_overwrite_zero p.size_fill_contents

@[simp] theorem layout_refill (p : Packet) : p.refill.layout = p.layout := layout_rewrite ..

@[simp] theorem len_refill (p : Packet) : p.refill.len = p.len := len_rewrite ..

@[simp] theorem address_refill (p : Packet) : p.refill.address = p.address := address_rewrite ..

theorem byte_refill {i : Nat} (h : ¬ Checksum.Covers p.contents i) :
    p.refill.buffer.storage.bytes.byte i = p.buffer.storage.bytes.byte i := by
  rw [refill, byte_rewrite _ (size_fill_contents p)]
  split
  · next hi =>
      have hi : i < p.buffer.len := hi
      rw [Checksum.byte_fill h, contents, Buffer.byte_contents, if_pos hi]
  · rfl

/-- A checksum lies behind the first byte of the IP header, and in the first eighteen bytes of the
segment but not at the data offset. -/
theorem bounds_of_covers {b : Buffer} {i : Nat} (h : l.Current b)
    (hc : Checksum.Covers b.contents i) :
    0 < i ∧ i ≠ l.ipHeaderLen + 12 ∧ i < l.ipHeaderLen + 18 := by
  have hpos := IpVersion.validate_pos h.validate
  rcases hc with ⟨-, hi⟩ | ⟨t, -, hi⟩
  · omega
  · rw [segmentStart_of_validate h.validate] at hi
    cases t <;> simp only [Checksum.offset] at hi <;> omega

theorem Current.refill (h : p.Current) : p.refill.Current := by
  intro l hl
  rw [layout_refill] at hl
  have hs := h l hl
  have hlen : p.refill.buffer.len = p.buffer.len := p.len_refill
  refine current_of_bytes hs hlen ?_ fun _ => ?_
  · exact validate_of_storage hs.validate (by rw [hlen]; exact hs.fits.header)
      (byte_refill fun hc => absurd (bounds_of_covers hs hc).1 (Nat.lt_irrefl 0))
  · exact byte_refill fun hc => (bounds_of_covers hs hc).2.1 rfl

/-! ## Every effect -/

theorem Current.effect (he : Effect p p') (h : p.Current) : p'.Current := by
  cases he with
  | readdress a => exact h
  | locate hp hl => exact .locate hl
  | ip hl hd hk => exact h.putIp hl hd hk
  | next hl hd hk =>
      rcases putNext_cases hl hd hk with
        he | ⟨x, ht, -, -, -, he⟩ | ⟨x, ht, -, -, -, hk, he⟩
      · rwa [he]
      · rw [he]
        exact h.putFixed hl ht x
      · rw [he]
        exact h.putTcp hl ht hk
  | resize hl ht hb => exact h.resize hl hb

theorem Current.effects (he : Effects p p') (h : p.Current) : p'.Current :=
  kept_of_effects (fun _ _ h he => h.effect he) he h

end Packet

/-! ## What is remembered for good -/

/-- Two layouts agree on where the IP header lies, and on the protocol behind it. -/
structure Layout.Agrees (l m : Layout) : Prop where
  version : m.version = l.version
  ipHeaderLen : m.ipHeaderLen = l.ipHeaderLen
  protocol : m.protocol = l.protocol

namespace Layout.Agrees

variable {l m k : Layout} {p p' : Packet}

theorem refl (l : Layout) : l.Agrees l := ⟨rfl, rfl, rfl⟩

theorem trans (h : l.Agrees m) (h' : m.Agrees k) : l.Agrees k :=
  ⟨h'.version.trans h.version, h'.ipHeaderLen.trans h.ipHeaderLen,
    h'.protocol.trans h.protocol⟩

/-- Writing a header back changes the length of the segment and the marks at most. -/
theorem putNext (hl : p.layout = some l) (d : NextDraft) :
    ∃ m, (p.putNext d).layout = some m ∧ l.Agrees m := by
  cases d with
  | tcp d => exact ⟨_, Packet.layout_putTcp hl d, rfl, rfl, rfl⟩
  | udp d =>
      simp only [Packet.putNext, Packet.putFixed_of_layout hl]
      exact ⟨_, rfl, rfl, rfl, rfl⟩
  | icmp f d =>
      simp only [Packet.putNext, Packet.putFixed_of_layout hl]
      exact ⟨_, rfl, rfl, rfl, rfl⟩
  | unsupported n => exact ⟨l, hl, refl l⟩

theorem effect (he : Packet.Effect p p') (hl : p.layout = some l) :
    ∃ m, p'.layout = some m ∧ l.Agrees m := by
  cases he with
  | readdress a => exact ⟨l, hl, refl l⟩
  | locate hp hfound =>
      rw [hp] at hl
      cases hl
  | ip _ hd hk => exact ⟨_, Packet.layout_putIp hl _, rfl, rfl, rfl⟩
  | next _ hd hk => exact putNext hl _
  | resize _ ht hb => exact ⟨l, hl, refl l⟩

/-- A layout that is known is never looked for again. -/
theorem effects (he : Packet.Effects p p') (hl : p.layout = some l) :
    ∃ m, p'.layout = some m ∧ l.Agrees m := by
  induction he with
  | refl => exact ⟨l, hl, refl l⟩
  | tail _ he ih =>
      obtain ⟨m, hm, h⟩ := ih
      obtain ⟨k, hk, h'⟩ := effect he hm
      exact ⟨k, hk, h.trans h'⟩

end Layout.Agrees

namespace Packet

/-! ## Any sequence of operations -/

/-- What can be done to a packet where checksums are recomputed in software. -/
inductive Action where
  | op (op : Op)
  | refill

/-- A packet after an action. -/
def act : Action → Packet → Packet
  | .op op, p => (p.run op).2
  | .refill, p => p.refill

/-- A packet after actions in turn. -/
def actAll : List Action → Packet → Packet
  | [], p => p
  | x :: xs, p => actAll xs (p.act x)

variable {p : Packet} {l : Layout}

theorem Current.act (h : p.Current) (x : Action) : (p.act x).Current := by
  cases x with
  | op op => exact h.effects (effects_run op p)
  | refill => exact h.refill

theorem agrees_act (hl : p.layout = some l) (x : Action) :
    ∃ m, (p.act x).layout = some m ∧ l.Agrees m := by
  cases x with
  | op op => exact Layout.Agrees.effects (effects_run op p) hl
  | refill => exact ⟨l, p.layout_refill.trans hl, .refl l⟩

theorem Current.actAll (h : p.Current) (xs : List Action) : (p.actAll xs).Current := by
  induction xs generalizing p with
  | nil => exact h
  | cons x xs ih => exact ih (h.act x)

theorem agrees_actAll (hl : p.layout = some l) (xs : List Action) :
    ∃ m, (p.actAll xs).layout = some m ∧ l.Agrees m := by
  induction xs generalizing p l with
  | nil => exact ⟨l, hl, .refl l⟩
  | cons x xs ih =>
      obtain ⟨m, hm, h⟩ := agrees_act hl x
      obtain ⟨k, hk, h'⟩ := ih hm
      exact ⟨k, hk, h.trans h'⟩

/-! ## What a current layout is good for -/

/-- The IP header is read in the bytes as they are now, and is what is remembered. -/
theorem Current.exists_ipHeader (h : p.Current) (hl : p.layout = some l) :
    ∃ ip, p.ipHeader = .ok ip ∧ ip.version = l.version ∧ ip.headerLen = l.ipHeaderLen := by
  obtain ⟨ip, hip, hv, hn⟩ := IpHeader.exists_ofBytes (h l hl).validate
  refine ⟨ip, ?_, hv, hn⟩
  rw [ipHeader_of_layout hl]
  exact Except.mapError_eq_ok.2 hip

theorem Current.exists_openIp (h : p.Current) (hl : p.layout = some l) :
    ∃ d, p.openIp = .ok d := by
  have hvalid : ∃ n, l.version.validate p.contents = .ok n := ⟨_, (h l hl).validate⟩
  obtain ⟨d, hd⟩ : ∃ d, IpDraft.ofBytes l.version l.ipModified p.contents = .ok d := by
    cases hv : l.version with
    | v4 => exact ⟨.v4 _, IpDraft.ofBytes_eq_ok.2 ⟨hv ▸ hvalid, rfl, rfl⟩⟩
    | v6 => exact ⟨.v6 _, IpDraft.ofBytes_eq_ok.2 ⟨hv ▸ hvalid, rfl, rfl⟩⟩
  exact ⟨d, (openIp_eq_ok hl).2 hd⟩

/-- The header behind the IP header is read in the segment as it is now. -/
theorem Current.exists_nextHeader (h : p.Current) (hl : p.layout = some l) :
    ∃ x, NextHeader.ofBytes l.protocol
        (p.buffer.storage.bytes.extract l.ipHeaderLen l.segmentEnd) = .ok x ∧
      p.nextHeader = .ok x := by
  obtain ⟨x, hx⟩ := NextHeader.exists_ofBytes.2 (h l hl).next
  refine ⟨x, hx, ?_⟩
  rw [nextHeader_of_layout hl (h l hl).fits]
  exact Except.mapError_eq_ok.2 hx

/-- **A layout that was found once stays true.** Whatever is then done to the packet, the IP header
is found in its bytes with the version and the length it had, and ends within the packet; the
segment ends within the storage and holds the header of the protocol that was found. So both headers
and the payload can be read, the IP header can be opened, and the protocol is still reported. -/
theorem layout_current (hp : p.layout = none) (hl : Layout.parse p.contents = .ok l)
    (xs : List Action) :
    let q := p.located.actAll xs
    ∃ m, q.layout = some m ∧ l.Agrees m ∧
      Ipv4.version q.contents = l.version.number ∧
      (∃ ip, q.ipHeader = .ok ip ∧ ip.version = l.version ∧ ip.headerLen = l.ipHeaderLen) ∧
      (∃ d, q.openIp = .ok d) ∧
      l.ipHeaderLen ≤ q.len ∧ q.len ≤ bufferSize ∧ m.segmentEnd ≤ bufferSize ∧
      (∃ h, NextHeader.ofBytes l.protocol
          (q.buffer.storage.bytes.extract l.ipHeaderLen m.segmentEnd) = .ok h ∧
        q.nextHeader = .ok h) ∧
      (∃ b, q.payload = .ok b) ∧
      q.read .protocol = .ok (.number l.protocol) := by
  intro q
  have hfound : p.locate = .ok l := by
    unfold locate
    rw [hp, hl]
    rfl
  have hstart : p.located.layout = some l := layout_located hfound
  have hq : q.Current := by
    refine Current.actAll ?_ xs
    rw [located_of_locate hfound]
    exact .locate hl
  obtain ⟨m, hm, hagree⟩ := agrees_actAll hstart xs
  have hcurrent := hq m hm
  obtain ⟨ip, hip, hversion, hlen⟩ := hq.exists_ipHeader hm
  obtain ⟨h, hbytes, hnext⟩ := hq.exists_nextHeader hm
  rw [hagree.protocol, hagree.ipHeaderLen] at hbytes
  refine ⟨m, hm, hagree, ?_, ⟨ip, hip, hversion.trans hagree.version,
    hlen.trans hagree.ipHeaderLen⟩, hq.exists_openIp hm, ?_, q.buffer.len_le,
    hcurrent.fits.segment, ⟨h, hbytes, hnext⟩, exists_payload hm hcurrent.fits hnext, ?_⟩
  · rw [← hagree.version]
    exact IpVersion.version_of_validate hcurrent.validate
  · rw [← hagree.ipHeaderLen]
    exact hcurrent.fits.header
  · rw [← hagree.protocol]
    exact congrArg (Except.map fun k => Reply.number k.protocol) (locate_of_layout hm)

/-- A UDP datagram over IPv6, with no payload. -/
def query : Bytes :=
  .ofList [96, 0, 0, 0, 0, 8, 17, 64, 0, 0, 0, 0, 0, 0, 0, 0, 0, 0, 0, 0, 0, 0, 0, 1,
    0, 0, 0, 0, 0, 0, 0, 0, 0, 0, 0, 0, 0, 0, 0, 2, 0, 53, 0, 53, 0, 8, 0, 0]

/-- A datagram whose protocol field is set to that of TCP is still read as a datagram. -/
theorem layout_current_query :
    ∃ p : Packet, p.contents = query ∧
      let q := p.located.actAll [.op (.withIp [.edit (.v6 (.set .nextHeader 6))]), .refill]
      (∃ b, q.payload = .ok b) ∧ q.read .protocol = .ok (.number 17) := by
  obtain ⟨b, hb⟩ : ∃ b, (Buffer.ofStorage .blank).append? query = some b :=
    ⟨_, dif_pos (by decide)⟩
  have hcontents : (ofBuffer b .blank).contents = query := Buffer.contents_append? hb
  have hparse : Layout.parse query = .ok ⟨.v6, 40, 17, 8, false, false⟩ := rfl
  obtain ⟨m, -, -, -, -, -, -, -, -, -, hpayload, hprotocol⟩ :=
    layout_current (p := ofBuffer b .blank) rfl (by rw [hcontents, hparse])
      [.op (.withIp [.edit (.v6 (.set .nextHeader 6))]), .refill]
  exact ⟨_, hcontents, hpayload, hprotocol⟩

end Packet

end Intercept
