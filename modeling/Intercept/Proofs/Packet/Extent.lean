import Intercept.Proofs.Packet.Effect

set_option autoImplicit false

/-! # How much of its storage a packet uses

The segment of a TCP packet may end before or behind the packet itself, because a payload is
replaced before the length is brought up to date. What a packet uses is therefore its extent: up to
the end of the packet or of the segment, whichever is farther. `Packet.Fits` says that the extent
lies in the storage, so that no index is out of range, and `Packet.Confined` that all storage behind
the extent is zero besides.

Both are kept by every effect, and both survive a driver that rewrites the bytes of the packet at
will. A packet that fits can be given up, and if it is confined its buffer comes back with nothing
but zeros behind what is in use (`Packet.Confined.zeroTail_of_retire`). -/

namespace Intercept

/-! ## Buffers -/

namespace Buffer

variable {b b' : Buffer}

@[simp] theorem len_overwrite (offset : Nat) (data : Bytes) (b : Buffer) :
    (b.overwrite offset data).len = b.len := rfl

theorem overwrite_extract (b : Buffer) (lo hi : Nat) :
    b.overwrite lo (b.storage.bytes.extract lo hi) = b :=
  Buffer.ext (Storage.ext (Bytes.overwrite_extract ..)) rfl

/-- Bytes that are put into an empty buffer are all it holds. -/
theorem contents_append? {s : Storage} {data : Bytes} (h : (ofStorage s).append? data = some b) :
    b.contents = data := by
  unfold append? at h
  split at h
  · next hle =>
      cases h
      simp only [ofStorage, Nat.zero_add] at hle ⊢
      refine Bytes.ext_byte (size_contents _) fun i hi => ?_
      rw [byte_contents]
      simp only
      rw [if_pos hi, Storage.byte_overwrite, if_pos (by omega), Nat.sub_zero]
  · cases h

/-- Contents that are overwritten from end to end are what they are overwritten by. -/
theorem contents_overwrite_zero {data : Bytes} (h : data.size = b.len) :
    (b.overwrite 0 data).contents = data := by
  have hle := b.len_le
  refine Bytes.ext_byte ((size_contents _).trans h.symm) fun i hi => ?_
  rw [byte_contents, len_overwrite, if_pos (by omega), overwrite, Storage.byte_overwrite,
    if_pos (by omega), Nat.sub_zero]

theorem setLen?_eq_some {n : Nat} :
    b.setLen? n = some b' ↔ n ≤ bufferSize ∧ b'.storage = b.storage.clear n b.len ∧ b'.len = n := by
  unfold setLen?
  split
  · next h =>
      simp only [Option.some.injEq, h, true_and]
      constructor
      · rintro rfl
        exact ⟨rfl, rfl⟩
      · rintro ⟨hs, hl⟩
        exact Buffer.ext hs.symm hl.symm
  · next h => simp [h]

theorem zeroTail_append? {data : Bytes} (h : b.append? data = some b') (hb : b.ZeroTail) :
    b'.ZeroTail := by
  unfold append? at h
  split at h
  · cases h
    intro i hi
    simp only at hi
    rw [Storage.byte_overwrite, if_neg (by omega)]
    exact hb i (by omega)
  · cases h

end Buffer

/-! ## Layouts -/

namespace Layout

variable {l : Layout} {b : Bytes}

/-- What is found in a packet: a header of the version found, as long as the packet at most, and
behind it a segment that takes the rest of the packet and holds the header of its protocol. -/
structure Found (b : Bytes) (l : Layout) : Prop where
  validate : l.version.validate b = .ok l.ipHeaderLen
  header : l.ipHeaderLen ≤ b.size
  segment : l.segmentEnd = b.size
  next : ∃ h, NextHeader.ofBytes l.protocol (b.extract l.ipHeaderLen b.size) = .ok h
  unmodified : l.isModified = false

theorem found_of_parse (h : parse b = .ok l) : Found b l := by
  obtain ⟨ip, hip, h⟩ := Except.bind_eq_ok.1 h
  obtain ⟨n, hn, h⟩ := Except.bind_eq_ok.1 h
  obtain ⟨hv, -⟩ := IpHeader.ofBytes_eq_ok hip
  have hle := IpVersion.validate_le hv
  cases h
  exact ⟨hv, hle, by simp only [segmentEnd]; omega, ⟨n, hn⟩, rfl⟩

theorem spaceEnd_of_ne_tcp {t : Transport} (h : t ≠ .tcp) : l.spaceEnd t = l.segmentEnd :=
  if_neg h

/-- The headers lie in a packet of `len` bytes and the segment in the storage. Only a TCP segment
may end elsewhere than the packet. -/
structure Fits (len : Nat) (l : Layout) : Prop where
  header : l.ipHeaderLen ≤ len
  segment : l.segmentEnd ≤ bufferSize
  whole : Transport.ofNumber? l.protocol ≠ some .tcp → l.segmentEnd = len

theorem Found.fits (h : l.Found b) (hb : b.size ≤ bufferSize) : l.Fits b.size :=
  ⟨h.header, h.segment ▸ hb, fun _ => h.segment⟩

end Layout

/-! ## Extents -/

namespace Packet

variable {p p' : Packet} {l : Layout}

/-- Where that part of the storage ends that a packet uses: its own bytes and its segment. -/
def extent (p : Packet) : Nat :=
  match p.layout with
  | none => p.len
  | some l => max p.len l.segmentEnd

/-- The layout, if it is known, fits the packet. -/
def Fits (p : Packet) : Prop := ∀ l ∈ p.layout, l.Fits p.len

/-- The packet fits and has nothing but zeros behind its extent. -/
structure Confined (p : Packet) : Prop where
  fits : p.Fits
  zero : p.buffer.storage.ZeroFrom p.extent

theorem extent_of_layout (h : p.layout = some l) : p.extent = max p.len l.segmentEnd := by
  unfold extent
  rw [h]

theorem len_le_extent (p : Packet) : p.len ≤ p.extent := by
  unfold extent
  split
  · exact Nat.le_refl _
  · exact Nat.le_max_left ..

@[simp] theorem size_contents (p : Packet) : p.contents.size = p.len := Buffer.size_contents _

theorem fits_ofBuffer (b : Buffer) (a : Address) : (ofBuffer b a).Fits :=
  fun _ h => nomatch h

theorem confined_ofBuffer {b : Buffer} (a : Address) (h : b.ZeroTail) :
    (ofBuffer b a).Confined :=
  ⟨fits_ofBuffer b a, h⟩

/-! ## Rewriting the bytes of a packet -/

/-- A packet whose bytes are rewritten, in any way that keeps their number, and whose address is
replaced. -/
def rewrite (b : Bytes) (a : Address) (p : Packet) : Packet :=
  { p with buffer := p.buffer.overwrite 0 b, address := a }

@[simp] theorem layout_rewrite (b : Bytes) (a : Address) (p : Packet) :
    (p.rewrite b a).layout = p.layout := rfl

@[simp] theorem address_rewrite (b : Bytes) (a : Address) (p : Packet) :
    (p.rewrite b a).address = a := rfl

@[simp] theorem len_rewrite (b : Bytes) (a : Address) (p : Packet) :
    (p.rewrite b a).len = p.len := rfl

/-- Rewriting the bytes of a packet reaches nothing behind its extent. -/
theorem zeroFrom_overwrite {b : Bytes} (hs : b.size = p.len)
    (h : p.buffer.storage.ZeroFrom p.extent) :
    (p.buffer.overwrite 0 b).storage.ZeroFrom p.extent := by
  intro i hi
  have := p.len_le_extent
  rw [Buffer.overwrite, Storage.byte_overwrite, if_neg (by omega)]
  exact h i hi

theorem Fits.rewrite (b : Bytes) (a : Address) (h : p.Fits) : (p.rewrite b a).Fits := h

theorem Confined.rewrite {b : Bytes} (a : Address) (hs : b.size = p.len) (h : p.Confined) :
    (p.rewrite b a).Confined :=
  ⟨h.fits.rewrite b a, zeroFrom_overwrite hs h.zero⟩

/-! ## Finding the headers -/

theorem Fits.locate (hl : Layout.parse p.contents = .ok l) :
    { p with layout := some l }.Fits := by
  intro l' h'
  cases h'
  have h := (Layout.found_of_parse hl).fits (by rw [size_contents]; exact p.buffer.len_le)
  rwa [size_contents] at h

/-- The segment that is found takes the rest of the packet, so the extent stays. -/
theorem extent_locate (hp : p.layout = none) (hl : Layout.parse p.contents = .ok l) :
    { p with layout := some l }.extent = p.extent := by
  have h := (Layout.found_of_parse hl).segment
  rw [size_contents] at h
  have hlen : { p with layout := some l }.len = p.len := rfl
  rw [extent_of_layout rfl, hlen, h, Nat.max_self, extent, hp]

/-! ## The IP header -/

/-- Writing the IP header back changes no length. -/
theorem Fits.putIp (d : Draft) (h : p.Fits) : (p.putIp d).Fits := by
  intro l' h'
  obtain ⟨l, hl, rfl⟩ := Option.map_eq_some_iff.1 h'
  have := h l hl
  exact ⟨this.header, this.segment, this.whole⟩

theorem extent_putIp (d : Draft) (p : Packet) : (p.putIp d).extent = p.extent := by
  cases hl : p.layout <;> simp only [extent, Packet.putIp, hl, Option.map] <;> rfl

theorem Confined.putIp {d : Draft} (hs : d.bytes.size = p.len) (h : p.Confined) :
    (p.putIp d).Confined := by
  refine ⟨h.fits.putIp d, ?_⟩
  rw [extent_putIp]
  exact zeroFrom_overwrite hs h.zero

/-! ## The header behind the IP header -/

/-- The bytes behind the IP header that a header of a fixed length is opened in. -/
def segment (l : Layout) (p : Packet) : Draft :=
  ⟨p.buffer.storage.bytes.extract l.ipHeaderLen l.segmentEnd, l.segmentModified⟩

/-- The space behind the IP header that a TCP segment is opened in. -/
def space (l : Layout) (p : Packet) : Tcp.Draft :=
  ⟨p.buffer.storage.bytes.extract l.ipHeaderLen (l.spaceEnd .tcp), l.segmentLen,
    l.segmentModified⟩

/-- What is written back of the header behind the IP header: nothing, a header of a fixed length, or
a TCP segment in its space. -/
theorem putNext_cases {d d' : NextDraft} (hl : p.layout = some l) (hd : p.openNext = .ok d)
    (hk : d.Keeps d') :
    p.putNext d' = p ∨
    (∃ x, Transport.ofNumber? l.protocol ≠ some .tcp ∧ l.segmentEnd ≤ bufferSize ∧
      8 ≤ l.segmentLen ∧ (p.segment l).Keeps 8 x ∧ p.putNext d' = p.putFixed x) ∨
    ∃ x, Transport.ofNumber? l.protocol = some .tcp ∧ l.ipHeaderLen ≤ l.spaceEnd .tcp ∧
      l.spaceEnd .tcp ≤ bufferSize ∧ (p.space l).Sound ∧ (p.space l).Keeps x ∧
      p.putNext d' = p.putTcp x := by
  rcases (openNext_eq_ok hl).1 hd with ⟨-, rfl⟩ | ⟨t, ht, hlo, hhi, hd⟩
  · cases hk
    exact Or.inl rfl
  · rcases NextDraft.ofBytes_cases hd with ⟨rfl, hs, rfl⟩ | ⟨hne, h8, hd⟩
    · cases hk with
      | tcp hk => exact Or.inr (Or.inr ⟨_, ht, hlo, hhi, hs, hk, rfl⟩)
    · rw [Layout.spaceEnd_of_ne_tcp hne] at h8 hlo hhi hd
      rw [ByteArray.size_extract, p.buffer.storage.size_eq] at h8
      have h8 : 8 ≤ l.segmentLen := by
        have : l.segmentEnd = l.ipHeaderLen + l.segmentLen := rfl
        omega
      have ht : Transport.ofNumber? l.protocol ≠ some .tcp := by
        rw [ht]
        exact fun h => hne (Option.some.inj h)
      rcases hd with rfl | ⟨f, rfl⟩
      · cases hk with
        | udp hk => exact Or.inr (Or.inl ⟨_, ht, hhi, h8, hk, rfl⟩)
      · cases hk with
        | icmp hk => exact Or.inr (Or.inl ⟨_, ht, hhi, h8, hk, rfl⟩)

theorem size_segment (l : Layout) (p : Packet) :
    (p.segment l).bytes.size = min l.segmentEnd bufferSize - l.ipHeaderLen := by
  rw [segment, ByteArray.size_extract, p.buffer.storage.size_eq]

theorem size_space (l : Layout) (p : Packet) :
    (p.space l).space.size = min (l.spaceEnd .tcp) bufferSize - l.ipHeaderLen := by
  rw [space, ByteArray.size_extract, p.buffer.storage.size_eq]

theorem putFixed_of_layout (hl : p.layout = some l) (x : Draft) :
    p.putFixed x =
      { p with
        buffer := p.buffer.overwrite l.ipHeaderLen x.bytes
        layout := some { l with segmentModified := x.modified } } := by
  unfold putFixed
  rw [hl]

theorem putTcp_of_layout (hl : p.layout = some l) (x : Tcp.Draft) :
    p.putTcp x =
      { p with
        buffer := p.buffer.overwrite l.ipHeaderLen x.space
        layout := some { l with segmentLen := x.len, segmentModified := x.modified } } := by
  unfold putTcp
  rw [hl]

/-- Writing a header of a fixed length back as it was found changes nothing. -/
theorem putFixed_segment (hl : p.layout = some l) : p.putFixed (p.segment l) = p := by
  rw [putFixed_of_layout hl, segment, Buffer.overwrite_extract, ← hl]

/-- Writing a TCP segment back as it was found changes nothing. -/
theorem putTcp_space (hl : p.layout = some l) : p.putTcp (p.space l) = p := by
  rw [putTcp_of_layout hl, space, Buffer.overwrite_extract, ← hl]

theorem Fits.putFixed (hl : p.layout = some l) (x : Draft) (h : p.Fits) :
    (p.putFixed x).Fits := by
  have h := h l hl
  rw [putFixed_of_layout hl]
  intro l' h'
  cases h'
  exact ⟨h.header, h.segment, h.whole⟩

theorem extent_putFixed (hl : p.layout = some l) (x : Draft) :
    (p.putFixed x).extent = p.extent := by
  rw [putFixed_of_layout hl, extent_of_layout hl, extent_of_layout rfl]
  rfl

/-- A header of a fixed length is written back within the segment. -/
theorem Confined.putFixed {x : Draft} (hl : p.layout = some l)
    (hs : l.ipHeaderLen + x.bytes.size ≤ l.segmentEnd) (h : p.Confined) :
    (p.putFixed x).Confined := by
  refine ⟨h.fits.putFixed hl x, ?_⟩
  rw [extent_putFixed hl, putFixed_of_layout hl]
  intro i hi
  have hext := extent_of_layout hl
  rw [Buffer.overwrite, Storage.byte_overwrite, if_neg (by omega)]
  exact h.zero i hi

theorem Fits.putTcp {x : Tcp.Draft} (hl : p.layout = some l)
    (ht : Transport.ofNumber? l.protocol = some .tcp)
    (hs : l.ipHeaderLen + x.len ≤ bufferSize) (h : p.Fits) : (p.putTcp x).Fits := by
  have h := h l hl
  rw [putTcp_of_layout hl]
  intro l' h'
  cases h'
  exact ⟨h.header, hs, fun hne => absurd ht hne⟩

/-- The bytes of the storage once a TCP segment is written back. -/
theorem byte_putTcp {x : Tcp.Draft} (hl : p.layout = some l)
    (hsize : x.space.size = (p.space l).space.size) (i : Nat) :
    (p.putTcp x).buffer.storage.bytes.byte i =
      if l.ipHeaderLen ≤ i ∧ i < l.ipHeaderLen + x.space.size
      then x.space.byte (i - l.ipHeaderLen) else p.buffer.storage.bytes.byte i := by
  have hle : l.ipHeaderLen ≤ i → i < l.ipHeaderLen + x.space.size →
      l.ipHeaderLen + x.space.size ≤ bufferSize := fun h1 h2 => by
    rw [hsize, size_space] at h2 ⊢
    omega
  rw [putTcp_of_layout hl]
  simp only [Buffer.overwrite]
  rw [Storage.byte_overwrite]
  by_cases hi : l.ipHeaderLen ≤ i ∧ i < l.ipHeaderLen + x.space.size
  · rw [if_pos ⟨hle hi.1 hi.2, hi⟩, if_pos hi]
  · rw [if_neg (fun hh => hi hh.2), if_neg hi]

/-- What a TCP segment leaves behind its new end is zero, either because it was given up or because
it was so behind the old end. -/
theorem byte_putTcp_behind {x : Tcp.Draft} {i : Nat} (hl : p.layout = some l)
    (hs : (p.space l).Sound) (hk : (p.space l).Keeps x) (hi : l.ipHeaderLen + x.len ≤ i)
    (hz : l.segmentEnd ≤ i → p.buffer.storage.bytes.byte i = 0) :
    (p.putTcp x).buffer.storage.bytes.byte i = 0 := by
  have hold : l.segmentLen ≤ (p.space l).space.size := hs.space
  have hsize := size_space l p
  simp only [Layout.segmentEnd] at hz
  rw [byte_putTcp hl hk.size, hk.size]
  split
  · next hin =>
      rcases hk.behind (i - l.ipHeaderLen) (by omega) with h0 | ⟨hback, hsame⟩
      · exact h0
      -- the byte was behind the old end, so it is what the storage had there
      · rw [hsame]
        simp only [space] at hback hsize hin ⊢
        rw [Bytes.byte_extract, if_pos (by omega), Nat.add_sub_cancel' hin.1]
        exact hz (by omega)
  · next hout => exact hz (by omega)

theorem Confined.putTcp {x : Tcp.Draft} (hl : p.layout = some l)
    (ht : Transport.ofNumber? l.protocol = some .tcp)
    (hlo : l.ipHeaderLen ≤ l.spaceEnd .tcp) (hhi : l.spaceEnd .tcp ≤ bufferSize)
    (hs : (p.space l).Sound) (hk : (p.space l).Keeps x) (h : p.Confined) :
    (p.putTcp x).Confined := by
  have hsize := hk.size
  rw [size_space] at hsize
  have hlen := hk.sound.space
  refine ⟨h.fits.putTcp hl ht (by omega), fun i hi => ?_⟩
  have hext := extent_of_layout hl
  have hlayout : (p.putTcp x).layout =
      some { l with segmentLen := x.len, segmentModified := x.modified } := by
    rw [putTcp_of_layout hl]
  have hkeep : (p.putTcp x).len = p.len := by rw [putTcp_of_layout hl]; rfl
  rw [extent_of_layout hlayout, hkeep] at hi
  simp only [Layout.segmentEnd] at hi hext
  -- behind the new extent is behind the packet, and of the segment only what was given up
  refine byte_putTcp_behind hl hs hk (by omega) fun hend => h.zero i ?_
  simp only [Layout.segmentEnd] at hend
  omega

/-! ## The length -/

theorem Fits.resize {b : Buffer} (hl : p.layout = some l)
    (hb : p.buffer.setLen? l.segmentEnd = some b) : { p with buffer := b }.Fits := by
  obtain ⟨hle, -, hlen⟩ := Buffer.setLen?_eq_some.1 hb
  intro l' h'
  cases hl.symm.trans h'
  have hlen : { p with buffer := b }.len = l.segmentEnd := hlen
  refine ⟨?_, hle, fun _ => hlen.symm⟩
  rw [hlen]
  exact Nat.le_add_right ..

/-- The buffer of a confined packet, cut to or stretched over its segment, has nothing but zeros
behind what is in use. -/
theorem Confined.zeroTail_setLen? {b : Buffer} (hl : p.layout = some l)
    (hb : p.buffer.setLen? l.segmentEnd = some b) (h : p.Confined) : b.ZeroTail := by
  obtain ⟨-, hs, hlen⟩ := Buffer.setLen?_eq_some.1 hb
  intro i hi
  rw [hs, Storage.byte_clear]
  split
  · rfl
  · refine h.zero i ?_
    rw [extent_of_layout hl, len]
    omega

theorem Confined.resize {b : Buffer} (hl : p.layout = some l)
    (hb : p.buffer.setLen? l.segmentEnd = some b) (h : p.Confined) :
    { p with buffer := b }.Confined := by
  refine ⟨.resize hl hb, fun i hi => h.zeroTail_setLen? hl hb i ?_⟩
  exact Nat.le_trans (len_le_extent { p with buffer := b }) hi

/-! ## Every effect, and giving the packet up -/

theorem Fits.effect (he : Effect p p') (h : p.Fits) : p'.Fits := by
  cases he with
  | readdress a => exact h
  | locate hp hl => exact Fits.locate hl
  | ip hl hd hk => exact h.putIp _
  | next hl hd hk =>
      rcases putNext_cases hl hd hk with he | ⟨x, -, -, -, -, he⟩ | ⟨x, ht, hlo, hhi, -, hk, he⟩
      · rwa [he]
      · rw [he]
        exact h.putFixed hl x
      · rw [he]
        have hsize := hk.size
        rw [size_space] at hsize
        have hlen := hk.sound.space
        exact h.putTcp hl ht (by omega)
  | resize hl ht hb => exact .resize hl hb

/-- The IP header is opened over the bytes of the packet, as many as there are. -/
theorem size_of_openIp {d d' : IpDraft} (hl : p.layout = some l) (hd : p.openIp = .ok d)
    (hk : d.Keeps d') : d'.draft.bytes.size = p.len := by
  obtain ⟨-, -, hd⟩ := IpDraft.ofBytes_eq_ok.1 ((openIp_eq_ok hl).1 hd)
  rw [hk.size, hd]
  exact size_contents p

theorem Confined.effect (he : Effect p p') (h : p.Confined) : p'.Confined := by
  cases he with
  | readdress a => exact ⟨h.fits, h.zero⟩
  | locate hp hl =>
      refine ⟨Fits.locate hl, ?_⟩
      rw [extent_locate hp hl]
      exact h.zero
  | ip hl hd hk => exact h.putIp (size_of_openIp hl hd hk)
  | next hl hd hk =>
      rcases putNext_cases hl hd hk with
        he | ⟨x, -, hhi, h8, hk, he⟩ | ⟨x, ht, hlo, hhi, hs, hk, he⟩
      · rwa [he]
      · rw [he]
        have hsize := hk.size
        rw [size_segment] at hsize
        exact h.putFixed hl (by simp only [Layout.segmentEnd] at hhi hsize ⊢; omega)
      · rw [he]
        exact h.putTcp hl ht hlo hhi hs hk
  | resize hl ht hb => exact h.resize hl hb

/-- A packet that fits can always be given up. -/
theorem Fits.retire_eq_ok (h : p.Fits) : ∃ b, p.retire = .ok b := by
  unfold retire
  split
  · exact ⟨_, rfl⟩
  · next l hl =>
      split
      · rw [Buffer.setLen?, dif_pos (h l hl).segment]
        exact ⟨_, rfl⟩
      · exact ⟨_, rfl⟩

/-- **A confined packet that is given up leaves nothing behind what is in use of its buffer.** -/
theorem Confined.zeroTail_of_retire {b : Buffer} (h : p.Confined) (hr : p.retire = .ok b) :
    b.ZeroTail := by
  unfold retire at hr
  split at hr
  · next hl =>
      cases hr
      have hz := h.zero
      unfold extent at hz
      rwa [hl] at hz
  · next l hl =>
      split at hr
      · split at hr
        · next b' hb =>
            cases hr
            exact h.zeroTail_setLen? hl hb
        · cases hr
      · next hle =>
          cases hr
          have hz := h.zero
          rwa [extent_of_layout hl, Nat.max_eq_left (Nat.le_of_not_lt hle)] at hz

theorem Confined.exists_retire (h : p.Confined) : ∃ b, p.retire = .ok b ∧ b.ZeroTail :=
  have ⟨b, hb⟩ := h.fits.retire_eq_ok
  ⟨b, hb, h.zeroTail_of_retire hb⟩

end Packet

end Intercept
