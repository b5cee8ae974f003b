import Intercept.Proofs.Packet.Extent

set_option autoImplicit false

/-! # Reading a packet

Reading looks for the headers if they are not known, so a packet reads alike before and after its
layout is remembered. Of a packet that fits no slice is out of range: its segment lies in the
storage, and what follows its headers lies in the segment (`Packet.payload_of_layout`). What reading
comes to then depends on nothing but whether the headers are still there. -/

namespace Intercept

/-- A header lies within the bytes it is read in. -/
theorem NextHeader.headerLen_le {n : Nat} {b : Bytes} {h : NextHeader}
    (hb : ofBytes n b = .ok h) : h.headerLen ≤ b.size := by
  rcases ofBytes_cases hb with ⟨-, rfl, -, hle⟩ | ⟨-, h8, rfl | ⟨f, rfl⟩⟩ | ⟨-, rfl⟩
  · exact hle
  · simp only [headerLen, ByteArray.size_extract]
    omega
  · simp only [headerLen, ByteArray.size_extract]
    omega
  · exact Nat.zero_le _

namespace Packet

variable {p : Packet} {l : Layout}

/-! ## Before and after the layout is remembered -/

@[simp] theorem ipHeader_located (p : Packet) : p.located.ipHeader = p.ipHeader := by
  simp only [ipHeader, locate_located, contents_located]

@[simp] theorem nextHeader_located (p : Packet) : p.located.nextHeader = p.nextHeader := by
  simp only [nextHeader, locate_located, storageSlice, buffer_located]

@[simp] theorem payload_located (p : Packet) : p.located.payload = p.payload := by
  simp only [payload, locate_located, nextHeader_located, contents_located, len, buffer_located]

/-! ## With a known layout -/

/-- A part of the storage is there. -/
theorem storageSlice_of_le {lo hi : Nat} (h : lo ≤ hi) (hle : hi ≤ bufferSize) :
    p.storageSlice lo hi = .ok (p.buffer.storage.bytes.extract lo hi) :=
  storageSlice_eq_ok.2 ⟨h, hle, rfl⟩

theorem ipHeader_of_layout (hl : p.layout = some l) :
    p.ipHeader = (IpHeader.ofBytes p.contents).mapError .malformed := by
  unfold ipHeader
  rw [locate_of_layout hl]
  rfl

/-- The header behind the IP header is read in the segment. -/
theorem nextHeader_of_layout (hl : p.layout = some l) (hf : l.Fits p.len) :
    p.nextHeader = (NextHeader.ofBytes l.protocol
      (p.buffer.storage.bytes.extract l.ipHeaderLen l.segmentEnd)).mapError .malformed := by
  have hle : l.ipHeaderLen ≤ l.segmentEnd := Nat.le_add_right ..
  have hslice := storageSlice_of_le (p := p) hle hf.segment
  unfold nextHeader
  rw [locate_of_layout hl]
  simp only [bind, Except.bind]
  rw [hslice]

/-- What lies behind the header in a packet lies there in its storage. -/
theorem extract_contents (p : Packet) (lo : Nat) :
    p.contents.extract lo p.len = p.buffer.storage.bytes.extract lo p.len := by
  unfold contents Buffer.contents
  rw [ByteArray.extract_extract, Nat.zero_add, Nat.zero_add, len, Nat.min_self]

/-- The payload goes from the end of the header to the end of the segment, on either way of
reading it. -/
theorem payload_of_layout {x : NextHeader} (hl : p.layout = some l) (hf : l.Fits p.len)
    (hx : p.nextHeader = .ok x) :
    l.ipHeaderLen + x.headerLen ≤ l.segmentEnd ∧
      p.payload = .ok (p.buffer.storage.bytes.extract (l.ipHeaderLen + x.headerLen)
        l.segmentEnd) := by
  have hend : l.segmentEnd = l.ipHeaderLen + l.segmentLen := rfl
  have hread := nextHeader_of_layout hl hf
  rw [hx] at hread
  have hbytes := Except.mapError_eq_ok.1 hread.symm
  have hle := NextHeader.headerLen_le hbytes
  have hseg := hf.segment
  rw [ByteArray.size_extract, p.buffer.storage.size_eq] at hle
  refine ⟨by omega, ?_⟩
  -- what follows another header than that of TCP is cut out of the packet, and the segment is all
  -- that is left of it
  have hrest : Transport.ofNumber? l.protocol ≠ some .tcp →
      p.contents.slice? (l.ipHeaderLen + x.headerLen) p.len =
        some (p.buffer.storage.bytes.extract (l.ipHeaderLen + x.headerLen) l.segmentEnd) := by
    intro ht
    have hwhole : l.segmentEnd = p.len := hf.whole ht
    rw [hwhole, ← extract_contents]
    exact Bytes.slice?_eq_some.2 ⟨by omega, (size_contents p).ge, rfl⟩
  unfold payload
  rw [locate_of_layout hl, hx]
  simp only [bind, Except.bind]
  rcases NextHeader.ofBytes_cases hbytes with ⟨-, rfl, -⟩ | ⟨ht, -, rfl | ⟨f, rfl⟩⟩ | ⟨ht, rfl⟩
  · have hsize : (p.buffer.storage.bytes.extract l.ipHeaderLen l.segmentEnd).size =
        l.segmentLen := by
      rw [ByteArray.size_extract, p.buffer.storage.size_eq]
      omega
    refine congrArg Except.ok ?_
    rw [Tcp.payload, hsize, ByteArray.extract_extract, hend, Nat.min_self]
    rfl
  · simp only [hrest ht]
    rfl
  · simp only [hrest ht]
    rfl
  · simp only [hrest (by rw [ht]; decide)]
    rfl

/-- Behind a header that is there, the payload is there. -/
theorem exists_payload {h : NextHeader} (hl : p.layout = some l) (hf : l.Fits p.len)
    (hn : p.nextHeader = .ok h) : ∃ b, p.payload = .ok b :=
  ⟨_, (payload_of_layout hl hf hn).2⟩

end Packet

end Intercept
