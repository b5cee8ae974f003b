import Intercept.Proofs.Packet.Parsing
import Intercept.Proofs.Packet.Tiling

set_option autoImplicit false

/-! # Addresses and ports

A packet has two addresses and up to two ports, each of which is read and set on its own. Each is a
field of the storage, at a place that follows from the remembered layout (`Endpoint.field`), though
it is reached through a header that is found or opened first. So reading one is reading its field
(`Current.get_eq`). The four fields have no bit in common (`Endpoint.disjoint_field`), and end with
the IP header or in the first bytes behind it (`Endpoint.end_le`). -/

namespace Intercept

/-! ## What can be set -/

/-- What is set on its own: the address or the port of either side. -/
inductive Endpoint where
  | addr (side : Side)
  | port (side : Side)
deriving DecidableEq

/-- An address or a port, with a value. -/
inductive Setting where
  | addr (side : Side) (addr : IpAddr)
  | port (side : Side) (port : UInt16)

namespace IpVersion

/-- The length of the shortest header of a version. -/
def minLen : IpVersion → Nat
  | .v4 => 20
  | .v6 => 40

/-- The length of an address. -/
def addrLen : IpVersion → Nat
  | .v4 => 4
  | .v6 => 16

/-- Where the addresses start in a header, the source first. -/
def addrOffset : IpVersion → Nat
  | .v4 => 12
  | .v6 => 8

theorem minLen_le_of_validate {v : IpVersion} {b : Bytes} {n : Nat} (h : v.validate b = .ok n) :
    v.minLen ≤ n := by
  cases v with
  | v4 =>
      obtain ⟨-, rfl, hmin, -⟩ := Ipv4.validate_eq_ok.1 h
      exact hmin
  | v6 =>
      obtain ⟨-, rfl, -⟩ := Ipv6.validate_eq_ok.1 h
      exact Nat.le_refl _

theorem addresses_le (v : IpVersion) : v.addrOffset + 2 * v.addrLen ≤ v.minLen := by
  cases v <;> decide

end IpVersion

namespace IpAddr

/-- The version of IP that has such addresses. -/
def version : IpAddr → IpVersion
  | .v4 _ => .v4
  | .v6 _ => .v6

/-- The number that an address is. -/
def toNat : IpAddr → Nat
  | .v4 a => a.toNat
  | .v6 a => a.toNat

/-- The address of a version that is a number, cut to its width. -/
def ofNat (n : Nat) : IpVersion → IpAddr
  | .v4 => .v4 (BitVec.ofNat 32 n)
  | .v6 => .v6 (BitVec.ofNat 128 n)

/-- An address is the number in as many bytes as it has. -/
theorem ofNat_toNat (a : IpAddr) :
    ofNat (a.toNat % 2 ^ (8 * a.version.addrLen)) a.version = a := by
  cases a with
  | v4 a => simp [ofNat, toNat, version, IpVersion.addrLen, Nat.mod_eq_of_lt a.isLt]
  | v6 a => simp [ofNat, toNat, version, IpVersion.addrLen, Nat.mod_eq_of_lt a.isLt]

end IpAddr

namespace Layout

/-- The packet was found to carry a protocol with ports: TCP is 6, UDP 17. -/
def HasPorts (l : Layout) : Prop := l.protocol = 6 ∨ l.protocol = 17

instance (l : Layout) : Decidable l.HasPorts := by unfold HasPorts; infer_instance

end Layout

namespace Endpoint

variable {l : Layout}

/-- The first byte of it. -/
def offset (l : Layout) : Endpoint → Nat
  | .addr .src => l.version.addrOffset
  | .addr .dst => l.version.addrOffset + l.version.addrLen
  | .port .src => l.ipHeaderLen
  | .port .dst => l.ipHeaderLen + 2

/-- How many bytes it has. -/
def size (l : Layout) : Endpoint → Nat
  | .addr _ => l.version.addrLen
  | .port _ => 2

/-- The field it is, in the storage of a packet. -/
def field (l : Layout) (e : Endpoint) : Field := ⟨8 * e.offset l, 8 * e.size l⟩

/-- What setting it leaves of the layout: the mark of its header is raised. -/
def mark : Endpoint → Layout → Layout
  | .addr _, l => { l with ipModified := true }
  | .port _, l => { l with segmentModified := true }

/-- The packet has it. -/
def Present (l : Layout) : Endpoint → Prop
  | .addr _ => True
  | .port _ => l.HasPorts

instance (l : Layout) : (e : Endpoint) → Decidable (e.Present l)
  | .addr _ => inferInstanceAs (Decidable True)
  | .port _ => inferInstanceAs (Decidable l.HasPorts)

/-- The setting that a number in the field stands for. -/
def decode (v : IpVersion) (n : Nat) : Endpoint → Setting
  | .addr e => .addr e (.ofNat n v)
  | .port e => .port e (UInt16.ofNat n)

@[simp] theorem field_mark (d e : Endpoint) (l : Layout) : e.field (d.mark l) = e.field l := by
  cases d <;> rfl

@[simp] theorem version_mark (e : Endpoint) (l : Layout) : (e.mark l).version = l.version := by
  cases e <;> rfl

theorem present_mark (d e : Endpoint) (l : Layout) : e.Present (d.mark l) ↔ e.Present l := by
  cases d <;> cases e <;> exact Iff.rfl

theorem same_mark (e : Endpoint) (l : Layout) :
    (e.mark l).protocol = l.protocol ∧ (e.mark l).ipHeaderLen = l.ipHeaderLen ∧
      (e.mark l).segmentEnd = l.segmentEnd := by
  cases e <;> exact ⟨rfl, rfl, rfl⟩

theorem mark_comm (d e : Endpoint) (l : Layout) : d.mark (e.mark l) = e.mark (d.mark l) := by
  cases d <;> cases e <;> rfl

@[simp] theorem mark_mark (e : Endpoint) (l : Layout) : e.mark (e.mark l) = e.mark l := by
  cases e <;> rfl

/-! ### Where the fields lie -/

/-- The addresses lie in the IP header. -/
theorem within_header {b : Bytes} (h : l.version.validate b = .ok l.ipHeaderLen)
    (e : Side) : ((addr e).field l).Within l.ipHeaderLen := by
  have hlen := IpVersion.minLen_le_of_validate h
  have hle := l.version.addresses_le
  cases e <;> simp only [Field.Within, field, offset, size] <;> omega

/-- All that a packet has of them ends with the IP header, or four bytes behind it. -/
theorem end_le {b : Bytes} {e : Endpoint} (h : l.version.validate b = .ok l.ipHeaderLen)
    (he : e.Present l) :
    e.offset l + e.size l ≤ l.ipHeaderLen ∨
      l.HasPorts ∧ l.ipHeaderLen ≤ e.offset l ∧ e.offset l + e.size l ≤ l.ipHeaderLen + 4 := by
  cases e with
  | addr e =>
      have hwithin := within_header h e
      simp only [Field.Within, field] at hwithin
      exact Or.inl (by omega)
  | port e =>
      refine Or.inr ⟨he, ?_⟩
      cases e <;> simp only [offset, size] <;> omega

/-- No two of the fields have a bit in common. -/
theorem disjoint_field {b : Bytes} (h : l.version.validate b = .ok l.ipHeaderLen) {d e : Endpoint}
    (hne : d ≠ e) : (d.field l).Disjoint (e.field l) := by
  have hlen := IpVersion.minLen_le_of_validate h
  have hle := l.version.addresses_le
  unfold Field.Disjoint
  rcases d with d | d <;> rcases e with e | e <;> cases d <;> cases e <;>
    simp only [field, offset, size, ne_eq, not_true_eq_false, reduceCtorEq] at hne ⊢ <;> omega

end Endpoint

namespace Setting

variable {l : Layout} {s t : Setting}

/-- What is set, without the value. -/
def endpoint : Setting → Endpoint
  | .addr e _ => .addr e
  | .port e _ => .port e

/-- The number that the field holds when it is set. -/
def value : Setting → Nat
  | .addr _ a => a.toNat
  | .port _ n => n.toNat

/-- The packet can take it: an address has the family of the packet, and a port needs a protocol
that has ports. -/
def Suits (l : Layout) : Setting → Prop
  | .addr _ a => a.version = l.version
  | .port _ _ => l.HasPorts

instance (l : Layout) : (s : Setting) → Decidable (s.Suits l)
  | .addr _ a => inferInstanceAs (Decidable (a.version = l.version))
  | .port _ _ => inferInstanceAs (Decidable l.HasPorts)

/-- Why a packet that cannot take it refuses it. -/
def refusal (l : Layout) : Setting → Error
  | .addr _ _ => .addressFamilyMismatch
  | .port _ _ => .protocolNotSupported l.protocol

/-- Setting it, as one of the operations on a packet. -/
def op : Setting → Packet.Op
  | .addr .src a => .setSrcIp a
  | .addr .dst a => .setDstIp a
  | .port .src n => .setSrcPort n
  | .port .dst n => .setDstPort n

theorem suits_mark (e : Endpoint) (s : Setting) (l : Layout) :
    s.Suits (e.mark l) ↔ s.Suits l := by
  cases e <;> cases s <;> exact Iff.rfl

theorem refusal_mark (e : Endpoint) (s : Setting) (l : Layout) :
    s.refusal (e.mark l) = s.refusal l := by
  cases e <;> cases s <;> rfl

/-- What a packet can take, it has. -/
theorem Suits.present (h : s.Suits l) : s.endpoint.Present l := by
  cases s with
  | addr e a => trivial
  | port e n => exact h

/-- The number that is stored stands for what was set. -/
theorem decode_value (h : s.Suits l) :
    s.endpoint.decode l.version (s.value % 2 ^ (s.endpoint.field l).width) = s := by
  cases s with
  | addr e a =>
      have hv : a.version = l.version := h
      simp only [endpoint, Endpoint.decode, Endpoint.field, Endpoint.size, value, ← hv]
      rw [IpAddr.ofNat_toNat]
  | port e n =>
      simp only [endpoint, Endpoint.decode, Endpoint.field, Endpoint.size, value]
      rw [Nat.mod_eq_of_lt n.toNat_lt, UInt16.ofNat_toNat]

end Setting

/-- A header says which protocol it was read as. -/
theorem NextHeader.protocol_of_ofBytes {n : Nat} {b : Bytes} {x : NextHeader}
    (h : ofBytes n b = .ok x) : x.protocol = n := by
  unfold ofBytes at h
  cases ht : Transport.ofNumber? n with
  | none =>
      rw [ht] at h
      cases h
      rfl
  | some t =>
      rw [ht] at h
      rw [Transport.ofNumber?_eq_some_iff.1 ht]
      cases t with
      | tcp | udp | icmpv4 | icmpv6 =>
          obtain ⟨y, -, rfl⟩ := Except.map_eq_ok.1 h
          rfl

/-! ## Reading from a header -/

/-- The addresses of a header are those in their fields. -/
theorem IpHeader.addr_eq {ip : IpHeader} {l : Layout} (h : ip.version = l.version) (e : Side) :
    ip.addr e = .ofNat (((Endpoint.addr e).field l).read ip.bytes) l.version := by
  unfold Endpoint.field Endpoint.size
  rw [← h]
  cases e <;> unfold Endpoint.offset <;> rw [← h] <;> cases ip <;> rfl

/-- The field of a port, in a header that has ports. -/
def Side.portField : Side → Field
  | .src => ⟨0, 16⟩
  | .dst => ⟨16, 16⟩

theorem Side.portField_within (e : Side) : e.portField.Within 4 := by
  cases e <;> decide

namespace NextHeader

variable {n : Nat} {b : Bytes} {x : NextHeader}

theorem port?_of_ofBytes (e : Side) (h : ofBytes n b = .ok x) :
    x.port? e =
      if n = 6 ∨ n = 17 then some (UInt16.ofNat (e.portField.read b)) else none := by
  have hprotocol := (protocol_of_ofBytes h).symm
  rcases ofBytes_cases h with ⟨-, rfl, -⟩ | ⟨-, -, rfl | ⟨k, rfl⟩⟩ | ⟨ht, rfl⟩
  · have hn : n = 6 := hprotocol
    rw [if_pos (Or.inl hn)]
    cases e <;> rfl
  · have hn : n = 17 := hprotocol
    have hwithin : e.portField.Within (8 - 0) := by
      have h4 := e.portField_within
      unfold Field.Within at h4 ⊢
      omega
    have hread := Field.read_extract b hwithin
    rw [Field.shift_zero] at hread
    rw [if_pos (Or.inr hn), ← hread]
    cases e <;> rfl
  · have hn : n = 1 ∨ n = 58 := by
      cases k
      · exact Or.inl hprotocol
      · exact Or.inr hprotocol
    rw [if_neg (by omega)]
    rfl
  · rw [if_neg]
    · rfl
    · rintro (rfl | rfl) <;> cases ht

/-- A header that has ports has eight bytes at the least. -/
theorem eight_le_headerLen (hn : n = 6 ∨ n = 17) (h : ofBytes n b = .ok x) :
    8 ≤ x.headerLen := by
  rcases ofBytes_cases h with ⟨-, rfl, hmin, -⟩ | ⟨-, h8, rfl | ⟨k, rfl⟩⟩ | ⟨ht, rfl⟩
  · exact Nat.le_trans (by decide) hmin
  · simp only [headerLen, ByteArray.size_extract]
    omega
  · simp only [headerLen, ByteArray.size_extract]
    omega
  · rcases hn with rfl | rfl <;> cases ht

/-- How long a header is depends on the protocol, and for TCP on the data offset. -/
theorem headerLen_of_ofBytes (h : ofBytes n b = .ok x) :
    x.headerLen = match Transport.ofNumber? n with
      | none => 0
      | some .tcp => Tcp.headerLen b
      | some _ => 8 := by
  have hfixed : 8 ≤ b.size → (b.extract 0 8).size = 8 := fun h8 => by
    rw [ByteArray.size_extract]
    omega
  unfold ofBytes at h
  cases ht : Transport.ofNumber? n with
  | none =>
      rw [ht] at h
      cases h
      rfl
  | some t =>
      rw [ht] at h
      cases t with
      | tcp =>
          obtain ⟨y, -, rfl⟩ := Except.map_eq_ok.1 h
          rfl
      | udp =>
          obtain ⟨y, hy, rfl⟩ := Except.map_eq_ok.1 h
          obtain ⟨h8, rfl⟩ := Udp.header_eq_ok.1 hy
          exact hfixed h8
      | icmpv4 | icmpv6 =>
          obtain ⟨y, hy, rfl⟩ := Except.map_eq_ok.1 h
          obtain ⟨h8, rfl⟩ := Icmp.header_eq_ok.1 hy
          exact hfixed h8

end NextHeader

namespace Packet

variable {p : Packet} {l : Layout} {f : Field} {e : Endpoint}

/-! ## Reading from a packet -/

/-- An address or a port, with the value it has. -/
def get (p : Packet) : Endpoint → Except Fault Setting
  | .addr .src => p.srcIp.map (.addr .src)
  | .addr .dst => p.dstIp.map (.addr .dst)
  | .port .src => p.srcPort.map (.port .src)
  | .port .dst => p.dstPort.map (.port .dst)

theorem get_addr (e : Side) (p : Packet) : p.get (.addr e) = (p.addr e).map (.addr e) := by
  cases e <;> rfl

theorem get_port (e : Side) (p : Packet) : p.get (.port e) = (p.port e).map (.port e) := by
  cases e <;> rfl

theorem get_located (e : Endpoint) (p : Packet) : p.located.get e = p.get e := by
  cases e with
  | addr e => simp only [get_addr, addr, ipHeader_located]
  | port e => simp only [get_port, port, nextHeader_located]

/-- The segment has room for the ports that it has. -/
theorem Current.eight_le_segmentLen (h : p.Current) (hl : p.layout = some l)
    (hports : l.HasPorts) : 8 ≤ l.segmentLen := by
  have hend : l.segmentEnd = l.ipHeaderLen + l.segmentLen := rfl
  obtain ⟨x, hbytes, -⟩ := h.exists_nextHeader hl
  have h8 := NextHeader.eight_le_headerLen hports hbytes
  have hle := NextHeader.headerLen_le hbytes
  rw [ByteArray.size_extract] at hle
  omega

/-- All that a packet has of them lies in its storage. -/
theorem Current.within_storage (h : p.Current) (hl : p.layout = some l) (he : e.Present l) :
    (e.field l).Within p.buffer.storage.bytes.size := by
  have hc := h l hl
  have hend : l.segmentEnd = l.ipHeaderLen + l.segmentLen := rfl
  have hhead : l.ipHeaderLen ≤ p.buffer.len := hc.fits.header
  have hseg := hc.fits.segment
  have hlen := p.buffer.len_le
  rw [p.buffer.storage.size_eq]
  simp only [Field.Within, Endpoint.field]
  rcases Endpoint.end_le hc.validate he with hle | ⟨hports, -, hle⟩
  · omega
  · have h8 := h.eight_le_segmentLen hl hports
    omega

/-- A port is read in the storage. -/
theorem Current.port_eq (h : p.Current) (hl : p.layout = some l) (e : Side) :
    p.port e =
      if l.HasPorts then
        .ok (UInt16.ofNat ((e.portField.shift l.ipHeaderLen).read p.buffer.storage.bytes))
      else .error (.refused (.protocolNotSupported l.protocol)) := by
  obtain ⟨x, hbytes, hx⟩ := h.exists_nextHeader hl
  unfold port
  rw [hx]
  simp only [bind, Except.bind]
  rw [NextHeader.port?_of_ofBytes e hbytes, NextHeader.protocol_of_ofBytes hbytes]
  by_cases hports : l.HasPorts
  · rw [if_pos hports, if_pos (show l.protocol = 6 ∨ l.protocol = 17 from hports)]
    have hlong := h.eight_le_segmentLen hl hports
    have h4 := e.portField_within
    have hwithin : e.portField.Within (l.segmentEnd - l.ipHeaderLen) := by
      unfold Field.Within Layout.segmentEnd at *
      omega
    rw [Field.read_extract _ hwithin]
    rfl
  · rw [if_neg hports, if_neg (show ¬(l.protocol = 6 ∨ l.protocol = 17) from hports)]
    rfl

/-- **What is read is what the field holds**, as far as the packet has the field. -/
theorem Current.get_eq (h : p.Current) (hl : p.layout = some l) (e : Endpoint) :
    p.get e =
      if e.Present l then .ok (e.decode l.version ((e.field l).read p.buffer.storage.bytes))
      else .error (.refused (.protocolNotSupported l.protocol)) := by
  have hc := h l hl
  obtain ⟨ip, x, payload, hip, -, -, htiles⟩ := h.views hl
  obtain ⟨ip', hip', hversion, -⟩ := h.exists_ipHeader hl
  cases hip.symm.trans hip'
  have hread : ∀ f : Field, f.Within l.ipHeaderLen →
      f.read ip.bytes = f.read p.buffer.storage.bytes := fun f hf => by
    have hwithin : f.Within (l.ipHeaderLen - 0) := hf
    rw [htiles.first, Field.read_extract _ hwithin, Field.shift_zero]
  cases e with
  | addr e =>
      have hwithin := Endpoint.within_header hc.validate e
      refine Eq.trans ?_ (if_pos trivial).symm
      rw [get_addr, addr, hip]
      simp only [bind, Except.bind, pure, Except.pure, Except.map, IpHeader.addr_eq hversion,
        hread _ hwithin, Endpoint.decode]
  | port e =>
      rw [get_port, h.port_eq hl]
      by_cases hports : l.HasPorts
      · rw [if_pos hports, if_pos (show (Endpoint.port e).Present l from hports)]
        cases e <;> rfl
      · rw [if_neg hports, if_neg (show ¬(Endpoint.port e).Present l from hports)]
        rfl

end Packet

end Intercept
