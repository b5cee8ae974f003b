import Intercept.Proofs.Packet.Commit
import Intercept.Proofs.Packet.Resize

set_option autoImplicit false

/-! # The views of a packet tile it

A packet shows its bytes in three views: the IP header, the header behind it, and the payload. The
IP header is read in the packet as it stands, the other two in the segment, which may end before or
behind the packet while a payload has been replaced and the length has not been brought up to date;
and of a packet without TCP the payload is cut out of the packet, not out of the segment. Taken one
after the other the three are nevertheless the storage from its start to the end of the segment,
each beginning where the one before it ends (`Current.views`). They are the contents of the packet
as soon as the segment ends with it (`views_tile`). -/

namespace Intercept

/-! ## The bytes of a header -/

namespace NextHeader

/-- The bytes that a header is shown in, for TCP those of the whole segment. -/
def view : NextHeader → Bytes
  | .tcp b => b
  | .udp b => b
  | .icmp _ b => b
  | .unsupported _ => .empty

/-- The bytes of the header itself. -/
def headerBytes (h : NextHeader) : Bytes := h.view.extract 0 h.headerLen

/-- A header is shown as the leading part of the bytes it is read in. -/
theorem headerBytes_of_ofBytes {n : Nat} {b : Bytes} {h : NextHeader}
    (hb : ofBytes n b = .ok h) : h.headerBytes = b.extract 0 h.headerLen := by
  have height : (b.extract 0 8).extract 0 (b.extract 0 8).size =
      b.extract 0 (b.extract 0 8).size := by
    rw [ByteArray.extract_extract, ByteArray.size_extract]
    congr 1
    omega
  rcases ofBytes_cases hb with ⟨-, rfl, -⟩ | ⟨-, -, rfl | ⟨f, rfl⟩⟩ | ⟨-, rfl⟩
  · rfl
  · exact height
  · exact height
  · refine Bytes.ext_byte ?_ fun i hi => ?_
    · simp only [headerBytes, headerLen, ByteArray.size_extract]
      omega
    · simp only [headerLen, ByteArray.size_extract] at hi
      omega

end NextHeader

namespace Packet

variable {p : Packet} {l : Layout}

/-! ## The three views -/

/-- Three views of a packet are its storage up to the end of the segment, one behind the other. -/
structure Tiles (l : Layout) (p : Packet) (ip : IpHeader) (next : NextHeader) (payload : Bytes) :
    Prop where
  first : ip.bytes = p.buffer.storage.bytes.extract 0 l.ipHeaderLen
  second : next.headerBytes =
    p.buffer.storage.bytes.extract l.ipHeaderLen (l.ipHeaderLen + next.headerLen)
  third : payload =
    p.buffer.storage.bytes.extract (l.ipHeaderLen + next.headerLen) l.segmentEnd
  inside : l.ipHeaderLen + next.headerLen ≤ l.segmentEnd ∧ l.segmentEnd ≤ bufferSize

/-- **The three views are there and tile the storage** up to the end of the segment. -/
theorem Current.views (h : p.Current) (hl : p.layout = some l) :
    ∃ ip next payload, p.ipHeader = .ok ip ∧ p.nextHeader = .ok next ∧
      p.payload = .ok payload ∧ p.Tiles l ip next payload := by
  have hc := h l hl
  have hfits := hc.fits
  have hheader : l.ipHeaderLen ≤ p.buffer.len := hfits.header
  obtain ⟨ip, hip, -, hlen⟩ := h.exists_ipHeader hl
  obtain ⟨x, hbytes, hx⟩ := h.exists_nextHeader hl
  obtain ⟨hle, hpayload⟩ := payload_of_layout hl hfits hx
  refine ⟨ip, x, _, hip, hx, hpayload, ?_, ?_, rfl, hle, hfits.segment⟩
  · rw [ipHeader_of_layout hl] at hip
    rw [(IpHeader.ofBytes_eq_ok (Except.mapError_eq_ok.1 hip)).2, hlen, contents,
      Buffer.contents, ByteArray.extract_extract, Nat.zero_add, Nat.zero_add,
      Nat.min_eq_left hheader]
  · rw [NextHeader.headerBytes_of_ofBytes hbytes, ByteArray.extract_extract, Nat.add_zero,
      Nat.min_eq_left hle]

namespace Tiles

variable {ip : IpHeader} {next : NextHeader} {payload : Bytes}

/-- Put together, the views are the storage up to the end of the segment. -/
theorem append (h : p.Tiles l ip next payload) :
    ip.bytes ++ next.headerBytes ++ payload = p.buffer.storage.bytes.extract 0 l.segmentEnd := by
  have hle := h.inside.1
  calc
    ip.bytes ++ next.headerBytes ++ payload
      = p.buffer.storage.bytes.extract 0 (l.ipHeaderLen + next.headerLen) ++
          p.buffer.storage.bytes.extract (l.ipHeaderLen + next.headerLen) l.segmentEnd := by
        rw [h.first, h.second, h.third, ← ByteArray.extract_eq_extract_append_extract l.ipHeaderLen
          (Nat.zero_le _) (Nat.le_add_right ..)]
    _ = p.buffer.storage.bytes.extract 0 l.segmentEnd :=
        (ByteArray.extract_eq_extract_append_extract _ (Nat.zero_le _) hle).symm

/-- No byte is missing from the views, and none is in two of them. -/
theorem sizes (h : p.Tiles l ip next payload) :
    ip.bytes.size = l.ipHeaderLen ∧ next.headerBytes.size = next.headerLen ∧
      ip.bytes.size + next.headerBytes.size + payload.size = l.segmentEnd := by
  obtain ⟨hle, hin⟩ := h.inside
  rw [h.first, h.second, h.third]
  simp only [ByteArray.size_extract, p.buffer.storage.size_eq]
  omega

end Tiles

/-! ## After any number of actions -/

/-- **The views of a packet tile it.** Whatever was done to a new packet, once its headers are found
the IP header, the header behind it and the payload can be read, and are together the storage up to
the end of the segment, each byte in one of them. They are the contents of the packet if it does not
carry TCP, or if its payload has been given no other length since the length was last brought up to
date. -/
theorem views_tile (b : Buffer) (a : Address) (xs : List Action)
    (hl : ((ofBuffer b a).actAll xs).locate = .ok l) :
    let p := (ofBuffer b a).actAll xs
    ∃ ip next payload, p.ipHeader = .ok ip ∧ p.nextHeader = .ok next ∧ p.payload = .ok payload ∧
      p.Tiles l ip next payload ∧
      ip.bytes ++ next.headerBytes ++ payload = p.buffer.storage.bytes.extract 0 l.segmentEnd ∧
      ip.bytes.size + next.headerBytes.size + payload.size = l.ipHeaderLen + l.segmentLen ∧
      (Transport.ofNumber? l.protocol ≠ some .tcp ∨
          pendingAfter xs (ofBuffer b a) false = false →
        ip.bytes ++ next.headerBytes ++ payload = p.contents) := by
  intro p
  have hnew : (ofBuffer b a).Current := fun l hl => nomatch hl
  have hc : p.Current := hnew.actAll xs
  have hlocated : p.located.Current := hc.effects (effects_located p)
  have hlayout := layout_located hl
  obtain ⟨ip, next, payload, hip, hnext, hpayload, htiles⟩ := hlocated.views hlayout
  rw [ipHeader_located] at hip
  rw [nextHeader_located] at hnext
  rw [payload_located] at hpayload
  have htiles : p.Tiles l ip next payload := by
    obtain ⟨h1, h2, h3, h4⟩ := htiles
    rw [buffer_located] at h1 h2 h3
    exact ⟨h1, h2, h3, h4⟩
  refine ⟨ip, next, payload, hip, hnext, hpayload, htiles, htiles.append, htiles.sizes.2.2,
    fun hwhole => ?_⟩
  have hend : l.segmentEnd = p.buffer.len := by
    have hlen : p.located.len = p.buffer.len := congrArg Buffer.len (buffer_located p)
    rcases hwhole with ht | hpending
    · exact ((hlocated l hlayout).fits.whole ht).trans hlen
    · have hcommitted := committed_ofBuffer b a
      have hp := committed_actAll hnew hcommitted.limited (fun _ => hcommitted) xs hpending
      exact (hp.located l hlayout).trans hlen
  rw [htiles.append, hend]
  rfl

/-- The payload of a TCP packet is lengthened through its open header, and the length is then
brought up to date. -/
theorem views_tile_synchronize :
    ∃ (b : Buffer) (l : Layout), (ofBuffer b .blank).contents = synchronize ∧
      let xs : List Action := [.op (.ask .parse), .op (.withTcp [.payload (.ofList [1, 2, 3])]),
        .op .updateLength]
      let p := (ofBuffer b .blank).actAll xs
      p.locate = .ok l ∧ pendingAfter xs (ofBuffer b .blank) false = false ∧
        ∃ ip next payload, p.ipHeader = .ok ip ∧ p.nextHeader = .ok next ∧
          p.payload = .ok payload ∧ ip.bytes ++ next.headerBytes ++ payload = p.contents := by
  obtain ⟨b, -, hcontents⟩ := exists_synchronize
  have hfound := locate_synchronize hcontents rfl
  obtain ⟨l, hl, -⟩ := agrees_actAll (layout_located hfound)
    [.op (.withTcp [.payload (.ofList [1, 2, 3])]), .op .updateLength]
  have hlocate := locate_of_layout hl
  obtain ⟨ip, next, payload, hip, hnext, hpayload, -, -, -, hwhole⟩ :=
    views_tile b .blank [.op (.ask .parse), .op (.withTcp [.payload (.ofList [1, 2, 3])]),
      .op .updateLength] hlocate
  exact ⟨b, l, hcontents, hlocate, rfl, ip, next, payload, hip, hnext, hpayload,
    hwhole (Or.inr rfl)⟩

end Packet

end Intercept
