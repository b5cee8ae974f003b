import Intercept.Proofs.Packet.Current

set_option autoImplicit false

/-! # Nothing is left behind a current layout

`Packet.Sound` adds to what is current of a packet (`Packet.Current`) that there is nothing but
zeros behind its segment, and that a TCP segment that was resized has stayed within what the IP
header can state. Bringing the length up to date then clears nothing that was not zero.

The effects keep this, and so does recomputing the checksums in software. It therefore holds of all
that can be made of a new packet (`Packet.Reachable.sound`). A driver that rewrites the bytes at
will would break it. -/

namespace Intercept

/-- What is remembered of the headers is true of the buffer that holds them. -/
structure Layout.Sound (b : Buffer) (l : Layout) : Prop where
  validate : l.version.validate b.contents = .ok l.ipHeaderLen
  fits : l.Fits b.len
  next : ∀ t, Transport.ofNumber? l.protocol = some t →
    NextHeader.Holds t (b.storage.bytes.extract l.ipHeaderLen l.segmentEnd)
  room : l.segmentEnd = b.len ∨ l.segmentLen ≤ l.maxSegmentLen
  zero : b.storage.ZeroFrom l.segmentEnd

theorem Layout.Sound.current {b : Buffer} {l : Layout} (h : l.Sound b) : l.Current b :=
  ⟨h.validate, h.fits, h.next⟩

namespace Packet

/-- What is remembered of a packet is true, and nothing is left behind what it uses. -/
def Sound (p : Packet) : Prop :=
  match p.layout with
  | none => p.buffer.ZeroTail
  | some l => l.Sound p.buffer

/-- All that can be made of a new packet without a driver of its own: by operations, and by
recomputing the checksums in software. -/
inductive Reachable : Packet → Prop where
  | fresh (b : Buffer) (a : Address) : b.ZeroTail → Reachable (ofBuffer b a)
  | run {p : Packet} (op : Op) : Reachable p → Reachable (p.run op).2
  | refill {p : Packet} : Reachable p → Reachable p.refill

variable {p p' : Packet} {l : Layout}

theorem Sound.layout (h : p.Sound) (hl : p.layout = some l) : l.Sound p.buffer := by
  unfold Sound at h
  rwa [hl] at h

theorem sound_of_layout (hl : p.layout = some l) (h : l.Sound p.buffer) : p.Sound := by
  unfold Sound
  rwa [hl]

theorem Sound.current (h : p.Sound) : p.Current := fun _ hl => (h.layout hl).current

/-- A current packet is sound if its segment has room and nothing is left behind it. -/
theorem Current.sound (h : p.Current) (hl : p.layout = some l)
    (hroom : l.segmentEnd = p.len ∨ l.segmentLen ≤ l.maxSegmentLen)
    (hz : p.buffer.storage.ZeroFrom l.segmentEnd) : p.Sound :=
  have hc := h l hl
  sound_of_layout hl ⟨hc.validate, hc.fits, hc.next, hroom, hz⟩

/-! ## Finding the headers -/

theorem Sound.locate (h : p.Sound) (hp : p.layout = none)
    (hl : Layout.parse p.contents = .ok l) : { p with layout := some l }.Sound := by
  have hend : l.segmentEnd = p.len := by
    rw [(Layout.found_of_parse hl).segment, size_contents]
  have htail : p.buffer.ZeroTail := by
    unfold Sound at h
    rwa [hp] at h
  refine (Current.locate hl).sound rfl (Or.inl hend) ?_
  rw [hend]
  exact htail

/-! ## The IP header -/

theorem Sound.putIp {d d' : IpDraft} (hl : p.layout = some l) (h : p.Sound)
    (hd : p.openIp = .ok d) (hk : d.Keeps d') : (p.putIp d'.draft).Sound := by
  have hs := h.layout hl
  refine (h.current.putIp hl hd hk).sound (layout_putIp hl _) hs.room fun i hi => ?_
  rw [byte_putIp hl hs.current hd hk (Nat.le_trans (Nat.le_add_right ..) hi)]
  exact hs.zero i hi

/-! ## The header behind the IP header -/

theorem Sound.putFixed {x : Draft} (hl : p.layout = some l) (h : p.Sound)
    (ht : Transport.ofNumber? l.protocol ≠ some .tcp)
    (hend : l.ipHeaderLen + x.bytes.size ≤ l.segmentEnd) : (p.putFixed x).Sound := by
  have hs := h.layout hl
  have hc := h.current.putFixed hl ht x
  rw [putFixed_of_layout hl] at hc ⊢
  refine hc.sound rfl hs.room fun i hi => ?_
  have hi : l.segmentEnd ≤ i := hi
  rw [Buffer.overwrite, Storage.byte_overwrite, if_neg (by omega)]
  exact hs.zero i hi

/-- The space a TCP segment is opened in ends no farther than its header can state. -/
theorem size_space_le (l : Layout) (p : Packet) : (p.space l).space.size ≤ l.maxSegmentLen := by
  rw [size_space, Layout.spaceEnd, if_pos rfl]
  omega

theorem Sound.putTcp {x : Tcp.Draft} (hl : p.layout = some l) (h : p.Sound)
    (ht : Transport.ofNumber? l.protocol = some .tcp)
    (ho : (p.space l).Sound) (hk : (p.space l).Keeps x) : (p.putTcp x).Sound := by
  have hs := h.layout hl
  have hlen : x.len ≤ (p.space l).space.size := by
    rw [← hk.size]
    exact hk.sound.space
  refine (h.current.putTcp hl ht hk).sound (layout_putTcp hl x)
    (Or.inr (Nat.le_trans hlen (size_space_le l p))) fun i hi => ?_
  exact byte_putTcp_behind hl ho hk hi fun hend => hs.zero i hend

/-! ## The length -/

/-- Bringing the length up to date clears nothing that was not zero. -/
theorem byte_setLen? {b b' : Buffer} {n : Nat} (h : b.setLen? n = some b')
    (hz : b.storage.ZeroFrom n) (i : Nat) :
    b'.storage.bytes.byte i = b.storage.bytes.byte i := by
  obtain ⟨-, hs, -⟩ := Buffer.setLen?_eq_some.1 h
  rw [hs, Storage.byte_clear]
  split
  · next hi => exact (hz i hi.1).symm
  · rfl

theorem Sound.resize {b : Buffer} (hl : p.layout = some l) (h : p.Sound)
    (hb : p.buffer.setLen? l.segmentEnd = some b) : { p with buffer := b }.Sound := by
  have hs := h.layout hl
  obtain ⟨-, -, hlen⟩ := Buffer.setLen?_eq_some.1 hb
  refine (h.current.resize hl hb).sound hl (Or.inl hlen.symm) fun i hi => ?_
  rw [byte_setLen? hb hs.zero]
  exact hs.zero i hi

/-! ## Recomputed checksums -/

theorem Sound.refill (h : p.Sound) : p.refill.Sound := by
  have hout : ∀ i, p.len ≤ i →
      p.refill.buffer.storage.bytes.byte i = p.buffer.storage.bytes.byte i := fun i hi => by
    rw [Packet.refill, byte_rewrite _ (size_fill_contents p), if_neg (by omega)]
  have hlayout := p.layout_refill
  have hlen : p.refill.buffer.len = p.buffer.len := p.len_refill
  cases hl : p.layout with
  | none =>
      unfold Sound at h ⊢
      rw [hl] at h
      rw [hlayout, hl]
      intro i hi
      rw [hlen] at hi
      exact (hout i hi).trans (h i hi)
  | some l =>
      have hs := h.layout hl
      have hend : l.segmentEnd = l.ipHeaderLen + l.segmentLen := rfl
      have hroom : l.segmentEnd = p.refill.len ∨ l.segmentLen ≤ l.maxSegmentLen := by
        rw [len_refill]
        exact hs.room
      refine h.current.refill.sound (hlayout.trans hl) hroom fun i hi => ?_
      by_cases ht : Transport.ofNumber? l.protocol = some .tcp
      · -- the segment may go on behind the packet, but its checksum is in its header
        have hnext := hs.next .tcp ht
        unfold NextHeader.Holds at hnext
        rw [if_pos rfl, ByteArray.size_extract] at hnext
        simp only [Tcp.minHeaderLen] at hnext
        rw [byte_refill fun hc => absurd (bounds_of_covers hs.current hc).2.2 (by omega)]
        exact hs.zero i hi
      · have hwhole : l.segmentEnd = p.len := hs.fits.whole ht
        rw [hout i (by omega)]
        exact hs.zero i hi

/-! ## Every effect, and all that can be made of a packet -/

theorem Sound.effect (he : Effect p p') (h : p.Sound) : p'.Sound := by
  cases he with
  | readdress a => exact h
  | locate hp hl => exact h.locate hp hl
  | ip hl hd hk => exact h.putIp hl hd hk
  | next hl hd hk =>
      rcases putNext_cases hl hd hk with
        he | ⟨x, ht, hhi, h8, hk, he⟩ | ⟨x, ht, -, -, ho, hk, he⟩
      · rwa [he]
      · rw [he]
        have hsize := hk.size
        rw [size_segment] at hsize
        exact h.putFixed hl ht (by simp only [Layout.segmentEnd] at hhi hsize ⊢; omega)
      · rw [he]
        exact h.putTcp hl ht ho hk
  | resize hl ht hb => exact h.resize hl hb

theorem Sound.effects (he : Effects p p') (h : p.Sound) : p'.Sound :=
  kept_of_effects (fun _ _ h he => h.effect he) he h

/-- A sound packet has nothing behind its extent. -/
theorem Sound.confined (h : p.Sound) : p.Confined := by
  unfold Sound at h
  cases hl : p.layout with
  | none =>
      rw [hl] at h
      refine ⟨fun l hl' => ?_, fun i hi => h i (Nat.le_trans p.len_le_extent hi)⟩
      rw [hl] at hl'
      cases hl'
  | some l =>
      rw [hl] at h
      refine ⟨fun l' hl' => ?_, fun i hi => h.zero i ?_⟩
      · rw [hl] at hl'
        cases hl'
        exact h.fits
      · rw [extent_of_layout hl] at hi
        exact Nat.le_trans (Nat.le_max_right ..) hi

/-- **What is remembered of a packet is true**, whatever was made of it. -/
theorem Reachable.sound (h : p.Reachable) : p.Sound := by
  induction h with
  | fresh b a hb => exact hb
  | run op _ ih => exact ih.effects (effects_run op _)
  | refill _ ih => exact ih.refill

end Packet

end Intercept
