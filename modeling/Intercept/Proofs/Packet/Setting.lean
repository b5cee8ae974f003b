import Intercept.Proofs.Packet.Endpoints
import Intercept.Proofs.Packet.Opening

set_option autoImplicit false

/-! # Setting addresses and ports

Setting an address or a port opens a header, changes it and writes it back. Once a packet is
`Settable`, that is, its layout is current and its headers can be opened, this comes to writing one
field of the storage and marking the header (`Settable.set_of_suits`).

The fields have no bit in common and lie before the payload. So setting one of them is seen in it
and nowhere else, changes of two different ones may be swapped, and the last of two changes of one
counts. An address of the other family, or a port of a protocol without ports, is refused, and the
packet stays as it is to the last bit (`set_exact`). -/

namespace Intercept

/-! ## Changes to a header -/

namespace IpDraft

variable {a : IpAddr} {d : IpDraft} {l : Layout}

/-- An address of the right family is stored in its field, and the header marked. -/
theorem exists_setAddr? (e : Side) (ha : a.version = l.version) (hd : d.version = l.version) :
    ∃ d', d.setAddr? e a = some d' ∧
      d'.draft = ⟨((Endpoint.addr e).field l).write a.toNat d.draft.bytes, true⟩ := by
  unfold Endpoint.field Endpoint.size
  rw [← ha] at hd ⊢
  cases e <;> unfold Endpoint.offset <;> rw [← ha] <;> cases a <;> cases d <;> cases hd <;>
    exact ⟨_, rfl, rfl⟩

/-- An address of the other family is refused. -/
theorem setAddr?_eq_none (e : Side) (h : a.version ≠ d.version) : d.setAddr? e a = none := by
  cases a <;> cases d <;> first | rfl | exact absurd rfl h

end IpDraft

namespace NextDraft

/-- Store a number in a field of a header that has ports. -/
def write? (f : Field) (v : Nat) : NextDraft → Option NextDraft
  | .tcp d => some (.tcp ⟨f.write v d.space, d.len, true⟩)
  | .udp d => some (.udp ⟨f.write v d.bytes, true⟩)
  | _ => none

theorem setPort?_eq_write? (e : Side) (n : UInt16) :
    setPort? e n = write? e.portField n.toNat := by
  funext d
  cases e <;> cases d <;> rfl

end NextDraft

namespace Packet

/-- Set an address or a port. -/
def set : Setting → Packet → Except Fault Unit × Packet
  | .addr .src a => setSrcIp a
  | .addr .dst a => setDstIp a
  | .port .src n => setSrcPort n
  | .port .dst n => setDstPort n

theorem set_addr (e : Side) (a : IpAddr) : set (.addr e a) = setAddr e a := by
  cases e <;> rfl

theorem set_port (e : Side) (n : UInt16) : set (.port e n) = setPort e n := by
  cases e <;> rfl

/-- The packet with a number stored in a field of its storage, and its layout marked. -/
def place (f : Field) (v : Nat) (mark : Layout → Layout) (p : Packet) : Packet :=
  { p with
    buffer := { p.buffer with storage := p.buffer.storage.write f v }
    layout := p.layout.map mark }

variable {p : Packet} {l : Layout} {f g : Field} {v w : Nat} {m n : Layout → Layout}

@[simp] theorem bytes_place (f : Field) (v : Nat) (m : Layout → Layout) (p : Packet) :
    (p.place f v m).buffer.storage.bytes = f.write v p.buffer.storage.bytes := rfl

@[simp] theorem len_place (f : Field) (v : Nat) (m : Layout → Layout) (p : Packet) :
    (p.place f v m).len = p.len := rfl

@[simp] theorem address_place (f : Field) (v : Nat) (m : Layout → Layout) (p : Packet) :
    (p.place f v m).address = p.address := rfl

theorem layout_place (hl : p.layout = some l) : (p.place f v m).layout = some (m l) := by
  simp only [place, hl, Option.map_some]

theorem place_comm (hfg : f.Disjoint g) (hmn : ∀ l, m (n l) = n (m l)) :
    (p.place f v m).place g w n = (p.place g w n).place f v m := by
  have hbytes : ((p.place f v m).place g w n).buffer.storage.bytes =
      ((p.place g w n).place f v m).buffer.storage.bytes := by
    simp only [bytes_place]
    exact (Field.write_comm v w _ hfg).symm
  have hlayout : (p.layout.map m).map n = (p.layout.map n).map m := by
    cases p.layout with
    | none => rfl
    | some l => exact congrArg some (hmn l).symm
  exact ext_of_bytes hbytes (by simp only [len_place]) (by simp only [address_place]) hlayout

theorem place_place (hm : ∀ l, m (m l) = m l) :
    (p.place f v m).place f w m = p.place f w m := by
  have hlayout : (p.layout.map m).map m = p.layout.map m := by
    cases p.layout with
    | none => rfl
    | some l => exact congrArg some (hm l)
  have hbytes : ((p.place f v m).place f w m).buffer.storage.bytes =
      (p.place f w m).buffer.storage.bytes := by
    simp only [bytes_place]
    exact Field.write_write f v w _
  exact ext_of_bytes hbytes (by simp only [len_place]) (by simp only [address_place]) hlayout

/-- The contents with a field written, when written back, are the storage with the field written. -/
theorem putIp_write (hf : f.Within p.len) :
    p.putIp ⟨f.write v p.contents, true⟩ = p.place f v fun l => { l with ipModified := true } := by
  have hwithin : f.Within (p.buffer.len - 0) := hf
  have hwrite := Buffer.overwrite_write v p.buffer hwithin (Nat.zero_le _) p.buffer.len_le
  rw [Field.shift_zero] at hwrite
  unfold putIp place contents Buffer.contents
  rw [hwrite]

/-! ## Packets whose headers can be opened -/

/-- The headers of the packet were found, and are those that its bytes have and that can be
opened. -/
structure Settable (l : Layout) (p : Packet) : Prop where
  layout : p.layout = some l
  current : p.Current
  opens : ¬l.Oversized

namespace Settable

/-- A number is stored in the IP header by storing it in the storage. -/
theorem changeIp_eq {change : IpDraft → Option IpDraft} (reason : Error) (h : p.Settable l)
    (hf : f.Within l.ipHeaderLen)
    (hchange : ∀ d : IpDraft, d.version = l.version →
      ∃ d', change d = some d' ∧ d'.draft = ⟨f.write v d.draft.bytes, true⟩) :
    p.changeIp change reason = (.ok (), p.place f v fun l => { l with ipModified := true }) := by
  obtain ⟨d, hopen⟩ := h.current.exists_openIp h.layout
  obtain ⟨-, hversion, hdraft⟩ := IpDraft.ofBytes_eq_ok.1 ((openIp_eq_ok h.layout).1 hopen)
  obtain ⟨d', hd', hstored⟩ := hchange d hversion
  have hheader : l.ipHeaderLen ≤ p.len := (h.current l h.layout).fits.header
  have hwithin : f.Within p.len := by
    unfold Field.Within at hf ⊢
    omega
  unfold changeIp
  rw [hopen]
  simp only [hd', located_of_layout h.layout]
  rw [hstored, hdraft, putIp_write hwithin]

/-- A change that no header of the version takes is refused. -/
theorem changeIp_refused {change : IpDraft → Option IpDraft} (reason : Error) (h : p.Settable l)
    (hchange : ∀ d : IpDraft, d.version = l.version → change d = none) :
    p.changeIp change reason = (.error (.refused reason), p) := by
  obtain ⟨d, hopen⟩ := h.current.exists_openIp h.layout
  obtain ⟨-, hversion, -⟩ := IpDraft.ofBytes_eq_ok.1 ((openIp_eq_ok h.layout).1 hopen)
  unfold changeIp
  rw [hopen]
  simp only [hchange d hversion, located_of_layout h.layout]

/-- The header behind the IP header can be opened, and the open header shows its protocol. -/
theorem exists_openNext (h : p.Settable l) :
    ∃ d, p.openNext = .ok d ∧ d.header.protocol = l.protocol := by
  obtain ⟨d, hopen, hread⟩ := h.current.exists_openNext h.layout h.opens
  rw [nextHeader_of_layout h.layout (h.current l h.layout).fits] at hread
  exact ⟨d, hopen, NextHeader.protocol_of_ofBytes (Except.mapError_eq_ok.1 hread)⟩

/-- A header that has ports is opened in a part of the storage that starts with it, and what is
written to it is written back there. -/
theorem exists_write? (h : p.Settable l) (hports : l.HasPorts) (f : Field) (v : Nat) :
    ∃ (d d' : NextDraft) (hi : Nat), p.openNext = .ok d ∧ NextDraft.write? f v d = some d' ∧
      l.ipHeaderLen + 4 ≤ hi ∧ hi ≤ bufferSize ∧
      p.putNext d' =
        { p with
          buffer := p.buffer.overwrite l.ipHeaderLen
            (f.write v (p.buffer.storage.bytes.extract l.ipHeaderLen hi))
          layout := some { l with segmentModified := true } } := by
  have hfits := (h.current l h.layout).fits
  have hend : l.segmentEnd = l.ipHeaderLen + l.segmentLen := rfl
  rcases hports with hports | hports
  · have ht : Transport.ofNumber? l.protocol = some .tcp :=
      Transport.ofNumber?_eq_some_iff.2 hports
    have hroom : l.segmentLen ≤ l.maxSegmentLen :=
      Nat.le_of_not_lt fun hlt => h.opens ((h.current.oversized_iff h.layout ht).2 hlt)
    have hheld := h.current.segment_holds h.layout ht
    have hmax : l.maxSegmentLen ≤ bufferSize - l.ipHeaderLen := Nat.min_le_left ..
    have hspace : l.spaceEnd .tcp = l.ipHeaderLen + l.maxSegmentLen := if_pos rfl
    exact ⟨_, _, l.spaceEnd .tcp, h.current.openNext_eq h.layout ht hroom, rfl, by omega, by omega,
      putTcp_of_layout h.layout _⟩
  · have ht : Transport.ofNumber? l.protocol = some .udp :=
      Transport.ofNumber?_eq_some_iff.2 hports
    have hseg := hfits.segment
    have hspace : l.spaceEnd .udp = l.segmentEnd := if_neg (by decide)
    have hheld : 8 ≤ (p.buffer.storage.bytes.extract l.ipHeaderLen l.segmentEnd).size :=
      (h.current l h.layout).next .udp ht
    have hopen : p.openNext = .ok (.udp (p.segment l)) := by
      refine (openNext_eq_ok h.layout).2 (Or.inr ⟨.udp, ht, ?_, ?_, ?_⟩)
      · omega
      · omega
      · rw [hspace]
        exact Except.map_eq_ok.2 ⟨_, Udp.openDraft_eq_ok.2 ⟨hheld, rfl⟩, rfl⟩
    rw [ByteArray.size_extract, p.buffer.storage.size_eq] at hheld
    exact ⟨_, _, l.segmentEnd, hopen, rfl, by omega, hseg, putFixed_of_layout h.layout _⟩

/-- A number is stored in the first four bytes of a header that has ports by storing it in the
storage. -/
theorem changeNext_eq (h : p.Settable l) (hf : f.Within 4) (hports : l.HasPorts) :
    p.changeNext (NextDraft.write? f v) =
      (.ok (), p.place (f.shift l.ipHeaderLen) v fun l => { l with segmentModified := true }) := by
  obtain ⟨d, d', hi, hopen, hwritten, hle, hhi, hput⟩ := h.exists_write? hports f v
  have hwithin : f.Within (hi - l.ipHeaderLen) := by
    unfold Field.Within at hf ⊢
    omega
  have hwrite := Buffer.overwrite_write v p.buffer hwithin (by omega) hhi
  unfold changeNext
  rw [hopen]
  simp only [hwritten, located_of_layout h.layout, hput, hwrite]
  simp only [place, h.layout, Option.map_some]

/-- A port of a protocol without ports is refused. -/
theorem changeNext_refused (h : p.Settable l) (hports : ¬l.HasPorts) :
    p.changeNext (NextDraft.write? f v) =
      (.error (.refused (.protocolNotSupported l.protocol)), p) := by
  obtain ⟨d, hopen, hprotocol⟩ := h.exists_openNext
  have hnone : NextDraft.write? f v d = none := by
    cases d with
    | tcp d => exact absurd (Or.inl hprotocol.symm) hports
    | udp d => exact absurd (Or.inr hprotocol.symm) hports
    | icmp k d | unsupported n => rfl
  unfold changeNext
  rw [hopen]
  simp only [hnone, hprotocol, located_of_layout h.layout]

/-! ## Setting -/

variable {s : Setting}

/-- **To set what the packet can take is to store it in its field.** -/
theorem set_of_suits (h : p.Settable l) (hs : s.Suits l) :
    p.set s = (.ok (), p.place (s.endpoint.field l) s.value s.endpoint.mark) := by
  cases s with
  | addr e a =>
      rw [set_addr]
      exact h.changeIp_eq _ (Endpoint.within_header (h.current l h.layout).validate e)
        fun d hd => IpDraft.exists_setAddr? e hs hd
  | port e n =>
      have hfield : e.portField.shift l.ipHeaderLen = (Endpoint.port e).field l := by
        cases e <;> rfl
      rw [set_port, setPort, NextDraft.setPort?_eq_write?,
        h.changeNext_eq e.portField_within hs, hfield]
      rfl

/-- **What it cannot take is refused.** -/
theorem set_of_not_suits (h : p.Settable l) (hs : ¬s.Suits l) :
    p.set s = (.error (.refused (s.refusal l)), p) := by
  cases s with
  | addr e a =>
      rw [set_addr]
      refine h.changeIp_refused _ fun d hd => IpDraft.setAddr?_eq_none e fun ha => hs ?_
      exact ha.trans hd
  | port e n =>
      rw [set_port, setPort, NextDraft.setPort?_eq_write?]
      exact h.changeNext_refused hs

end Settable

/-! ## What setting leaves -/

variable {s t : Setting} {q : Packet} {e : Endpoint}

theorem byte_place (m : Layout → Layout) {i : Nat}
    (hi : i < e.offset l ∨ e.offset l + e.size l ≤ i) :
    (p.place (e.field l) v m).buffer.storage.bytes.byte i = p.buffer.storage.bytes.byte i := by
  refine Field.byte_write_of_outside ?_
  simp only [Endpoint.field]
  omega

/-- Setting is an operation. -/
theorem run_op (s : Setting) (p : Packet) : p.run s.op = answering (p.set s) := by
  rcases s with ⟨_ | _, a⟩ | ⟨_ | _, n⟩ <;> rfl

theorem set_located (s : Setting) (p : Packet) : p.located.set s = p.set s := by
  cases s with
  | addr e a =>
      rw [set_addr]
      exact changeIp_located ..
  | port e n =>
      rw [set_port]
      exact changeNext_located ..

theorem Current.set (h : p.Current) (s : Setting) : (p.set s).2.Current := by
  have heffects := effects_run s.op p
  rw [run_op] at heffects
  exact h.effects heffects

/-- The payload lies behind all that can be set, and where it starts is not touched either. -/
theorem Current.payload_place (h : p.Current) (hl : p.layout = some l) (he : e.Present l)
    (hq : (p.place (e.field l) v e.mark).Current) :
    (p.place (e.field l) v e.mark).payload = p.payload := by
  have hlq : (p.place (e.field l) v e.mark).layout = some (e.mark l) := layout_place hl
  have hsame := e.same_mark l
  have hbyte : ∀ i, e.offset l + e.size l ≤ i →
      (p.place (e.field l) v e.mark).buffer.storage.bytes.byte i =
        p.buffer.storage.bytes.byte i := fun i hi => byte_place _ (Or.inr hi)
  obtain ⟨x, hbytes, hx⟩ := h.exists_nextHeader hl
  obtain ⟨y, hbytes', hy⟩ := hq.exists_nextHeader hlq
  obtain ⟨hle, hpayload⟩ := payload_of_layout hl (h l hl).fits hx
  obtain ⟨-, hpayload'⟩ := payload_of_layout hlq (hq _ hlq).fits hy
  rw [hsame.1, hsame.2.1, hsame.2.2] at hbytes'
  rw [hsame.2.1, hsame.2.2] at hpayload'
  generalize p.place (e.field l) v e.mark = q at *
  have hstart : e.offset l + e.size l ≤ l.ipHeaderLen + x.headerLen ∧
      e.offset l + e.size l ≤ l.ipHeaderLen + 4 := by
    rcases Endpoint.end_le (h l hl).validate he with hend | ⟨hports, -, hend⟩
    · omega
    · have h8 := NextHeader.eight_le_headerLen hports hbytes
      omega
  have hlen : y.headerLen = x.headerLen := by
    rw [NextHeader.headerLen_of_ofBytes hbytes, NextHeader.headerLen_of_ofBytes hbytes']
    split
    · rfl
    · refine Tcp.headerLen_congr ?_
      rw [Bytes.byte_extract, Bytes.byte_extract, hbyte _ (by omega)]
    · rfl
  rw [hpayload', hpayload, hlen]
  refine congrArg Except.ok (Bytes.extract_congr ?_ fun i hi _ => hbyte i (by omega))
  rw [q.buffer.storage.size_eq, p.buffer.storage.size_eq]

/-- The packet `q` is the packet `p` with an address or a port set, and nothing else is different
but that its header is marked. The layout, and with it the length of the segment, is otherwise the
one that was found. -/
structure Placed (s : Setting) (l : Layout) (p q : Packet) : Prop where
  get : q.get s.endpoint = .ok s
  others : ∀ e, e ≠ s.endpoint → q.get e = p.get e
  bytes : ∀ i, i < s.endpoint.offset l ∨ s.endpoint.offset l + s.endpoint.size l ≤ i →
    q.buffer.storage.bytes.byte i = p.buffer.storage.bytes.byte i
  payload : q.payload = p.payload
  len : q.len = p.len
  layout : q.layout = some (s.endpoint.mark l)
  address : q.address = p.address

/-- Finding the headers first makes no difference. -/
theorem Placed.of_located (h : p.located.Placed s l q) : p.Placed s l q where
  get := h.get
  others e he := (h.others e he).trans (get_located e p)
  bytes i hi := (h.bytes i hi).trans (congrArg (fun b => b.storage.bytes.byte i) (buffer_located p))
  payload := h.payload.trans (payload_located p)
  len := h.len.trans (congrArg Buffer.len (buffer_located p))
  layout := h.layout
  address := h.address.trans (address_located p)

namespace Settable

/-- A packet can still be set after it was. -/
theorem place (h : p.Settable l) (hs : s.Suits l) :
    (p.place (s.endpoint.field l) s.value s.endpoint.mark).Settable (s.endpoint.mark l) := by
  have hcurrent := h.current.set s
  rw [h.set_of_suits hs] at hcurrent
  refine ⟨layout_place h.layout, hcurrent, ?_⟩
  have hopens := h.opens
  cases s <;> exact hopens

/-- **What setting leaves.** -/
theorem placed (h : p.Settable l) (hs : s.Suits l) : p.Placed s l (p.set s).2 := by
  have hwithin := h.current.within_storage h.layout hs.present
  have hq := h.place hs
  have hget := hq.current.get_eq hq.layout
  simp only [bytes_place, Endpoint.present_mark, Endpoint.version_mark, Endpoint.field_mark,
    (s.endpoint.same_mark l).1] at hget
  rw [h.set_of_suits hs]
  refine ⟨?_, fun e he => ?_, fun i hi => byte_place _ hi, h.current.payload_place h.layout
    hs.present hq.current, rfl, hq.layout, rfl⟩
  · rw [hget, if_pos hs.present, Field.read_write_self _ hwithin, Setting.decode_value hs]
  · have hdisjoint := Endpoint.disjoint_field (h.current l h.layout).validate he
    rw [hget, h.current.get_eq h.layout, Field.read_write_of_disjoint _ hdisjoint]

/-- **Changes of different fields may be swapped.** The answer to either does not depend on the
other, nor does the outcome of both. -/
theorem set_comm (h : p.Settable l) (hne : t.endpoint ≠ s.endpoint) :
    ((p.set s).2.set t).1 = (p.set t).1 ∧ ((p.set s).2.set t).2 = ((p.set t).2.set s).2 := by
  by_cases hs : s.Suits l
  · have hp := h.place hs
    rw [h.set_of_suits hs]
    by_cases ht : t.Suits l
    · have hq := h.place ht
      rw [h.set_of_suits ht, hp.set_of_suits ((Setting.suits_mark ..).2 ht),
        hq.set_of_suits ((Setting.suits_mark ..).2 hs), Endpoint.field_mark, Endpoint.field_mark]
      refine ⟨rfl, place_comm ?_ (Endpoint.mark_comm _ _)⟩
      exact Endpoint.disjoint_field (h.current l h.layout).validate hne.symm
    · rw [h.set_of_not_suits ht, hp.set_of_not_suits (fun h => ht ((Setting.suits_mark ..).1 h)),
        Setting.refusal_mark, h.set_of_suits hs]
      exact ⟨rfl, rfl⟩
  · rw [h.set_of_not_suits hs]
    by_cases ht : t.Suits l
    · have hq := h.place ht
      rw [h.set_of_suits ht, hq.set_of_not_suits (fun h => hs ((Setting.suits_mark ..).1 h))]
      exact ⟨rfl, rfl⟩
    · rw [h.set_of_not_suits ht, h.set_of_not_suits hs]
      exact ⟨rfl, rfl⟩

/-- **The last of two changes of one field counts.** -/
theorem set_set (h : p.Settable l) (ht : t.Suits l) (heq : t.endpoint = s.endpoint) :
    (p.set s).2.set t = p.set t := by
  by_cases hs : s.Suits l
  · rw [h.set_of_suits hs, (h.place hs).set_of_suits ((Setting.suits_mark ..).2 ht),
      Endpoint.field_mark, h.set_of_suits ht, heq]
    exact congrArg (Prod.mk _) (place_place s.endpoint.mark_mark)
  · rw [h.set_of_not_suits hs]

end Settable

/-! ## Packets whose headers are not found -/

theorem malformed_of_locate {e : Fault} (he : p.locate = .error e) : ∃ m, e = .malformed m := by
  unfold locate at he
  split at he
  · cases he
  · cases hparse : Layout.parse p.contents with
    | ok l =>
        rw [hparse] at he
        cases he
    | error m =>
        rw [hparse] at he
        cases he
        exact ⟨m, rfl⟩

theorem set_of_error {e : Fault} (s : Setting) (he : p.locate = .error e) :
    p.set s = (.error e, p) := by
  have hneeds : s.op.needsHeaders = true := by
    rcases s with ⟨_ | _, a⟩ | ⟨_ | _, n⟩ <;> rfl
  have hrun := run_of_error hneeds he
  rw [run_op] at hrun
  obtain ⟨hanswer, hpacket⟩ := Prod.mk.inj hrun
  exact Prod.ext (Except.map_eq_error.1 hanswer) hpacket

/-! ## After any number of actions -/

/-- A packet can be set that is no longer than its IP header can state. -/
theorem settable_of_len (h : p.Current) (hroom : p.Limited) (hl : p.layout = some l)
    (hlen : l.version = .v4 → p.len ≤ 65535) : p.Settable l := by
  refine ⟨hl, h, fun ho => ?_⟩
  have hheld := h.segment_holds hl ho.1
  rcases hroom l hl with hend | hfits
  · have hshort := hlen ho.2.1
    have hlong := ho.2.2
    omega
  · exact Layout.not_oversized (by omega) hfits ho

/-- **Setting an address or a port is exact, and does all of it or nothing.** For all that becomes
of a new packet by operations and recomputed checksums, also while a resize is pending: if its
headers are found, and an IPv4 packet has at most 65535 bytes, an address is taken exactly if it has
the family of the packet, and a port if the packet was found to carry TCP or UDP. What was taken is
then read back, and nothing else is different but the mark of its header (`Placed`); what was not is
refused and leaves the packet as it is, its layout remembered. Changes of different fields may be
swapped, and the last of two changes of one counts. If the headers are not found, all is refused for
that, and nothing changes. -/
theorem set_exact (b : Buffer) (a : Address) (xs : List Action) (s : Setting) :
    let p := (ofBuffer b a).actAll xs
    (∀ l, p.locate = .ok l → (l.version = .v4 → p.len ≤ 65535) →
      ((p.set s).1 = .ok () ↔ s.Suits l) ∧
      (s.Suits l → p.Placed s l (p.set s).2) ∧
      (¬s.Suits l →
        p.set s = (.error (.refused (s.refusal l)), { p with layout := some l })) ∧
      ∀ t : Setting,
        (t.endpoint ≠ s.endpoint →
          ((p.set s).2.set t).1 = (p.set t).1 ∧
            ((p.set s).2.set t).2 = ((p.set t).2.set s).2) ∧
        (t.endpoint = s.endpoint → t.Suits l → (p.set s).2.set t = p.set t)) ∧
    ∀ e, p.locate = .error e → (∃ m, e = .malformed m) ∧ p.set s = (.error e, p) := by
  intro p
  constructor
  · intro l hl hlen
    have hnew : (ofBuffer b a).Current := fun l hl => nomatch hl
    have hc : p.located.Current := (hnew.actAll xs).effects (effects_located p)
    have hroom : p.located.Limited :=
      ((committed_ofBuffer b a).limited.actAll xs).effects (effects_located p)
    have hsame : p.located.len = p.len := congrArg Buffer.len (buffer_located p)
    have h := settable_of_len hc hroom (layout_located hl) (hsame ▸ hlen)
    simp only [← set_located _ p]
    refine ⟨⟨fun hok => ?_, fun hs => by rw [h.set_of_suits hs]⟩, fun hs => ?_,
      fun hs => ?_, fun t => ⟨fun hne => h.set_comm hne, fun heq ht => h.set_set ht heq⟩⟩
    · refine Decidable.byContradiction fun hs => ?_
      rw [h.set_of_not_suits hs] at hok
      cases hok
    · exact (h.placed hs).of_located
    · rw [h.set_of_not_suits hs, located_of_locate hl]
  · exact fun e he => ⟨malformed_of_locate he, set_of_error s he⟩

/-- An open segment that is written back leaves the packet as long as it was. -/
theorem len_withTcp (rs : List NextRequest) (p : Packet) : (p.withTcp rs).2.len = p.len := by
  have hlocated : p.located.len = p.len := congrArg Buffer.len (buffer_located p)
  unfold withTcp
  split
  · exact hlocated
  · next d hd =>
      obtain ⟨l, hl⟩ := locate_of_openNext (openTcp_eq_ok.1 hd)
      exact (len_putNext (layout_located hl) _).trans hlocated

theorem actAll_parse (p : Packet) (xs : List Action) :
    p.actAll (.op (.ask .parse) :: xs) = p.located.actAll xs := rfl

theorem locate_of_empty (hl : p.layout = none) (hp : p.contents.size = 0) :
    p.locate = .error (.malformed .ipEmpty) := by
  unfold locate Layout.parse IpHeader.ofBytes
  rw [hl, if_pos hp]
  rfl

/-- A port of a TCP segment over IPv4 is set while a longer payload is still to be taken in, an
address of the other family is refused, and so is anything if there is no header. -/
theorem set_exact_synchronize :
    (∃ (b : Buffer) (l : Layout), (ofBuffer b .blank).contents = synchronize ∧
      let p := (ofBuffer b .blank).actAll
        [.op (.ask .parse), .op (.withTcp [.payload (.ofList [1, 2, 3])])]
      p.locate = .ok l ∧ l.version = .v4 ∧
        p.Placed (.port .src 8080) l (p.set (.port .src 8080)).2 ∧
        (p.set (.port .src 8080)).1 = .ok () ∧
        p.set (.addr .dst (.v6 1)) =
          (.error (.refused .addressFamilyMismatch), { p with layout := some l })) ∧
    let p := ofBuffer (.ofStorage .blank) .blank
    ∃ m, p.set (.port .src 8080) = (.error (.malformed m), p) := by
  constructor
  · obtain ⟨b, -, hcontents⟩ := exists_synchronize
    have hfound := locate_synchronize hcontents rfl
    obtain ⟨l, hl, hagree⟩ := agrees_actAll (layout_located hfound)
      [.op (.withTcp [.payload (.ofList [1, 2, 3])])]
    rw [← actAll_parse] at hl
    have hlocate := locate_of_layout hl
    have hlen : ((ofBuffer b .blank).actAll
        [.op (.ask .parse), .op (.withTcp [.payload (.ofList [1, 2, 3])])]).len ≤ 65535 := by
      have hsame := len_withTcp [.payload (.ofList [1, 2, 3])] (ofBuffer b .blank).located
      rw [actAll_parse]
      rw [← size_contents (ofBuffer b .blank).located, contents_located, hcontents] at hsame
      exact hsame.le.trans (by decide)
    obtain ⟨hport, -⟩ := set_exact b .blank
      [.op (.ask .parse), .op (.withTcp [.payload (.ofList [1, 2, 3])])] (.port .src 8080)
    obtain ⟨haddr, -⟩ := set_exact b .blank
      [.op (.ask .parse), .op (.withTcp [.payload (.ofList [1, 2, 3])])] (.addr .dst (.v6 1))
    obtain ⟨htaken, hplaced, -, -⟩ := hport l hlocate fun _ => hlen
    obtain ⟨-, -, hrefused, -⟩ := haddr l hlocate fun _ => hlen
    have hsuits : Setting.Suits l (.port .src 8080) := Or.inl hagree.protocol
    have hfamily : ¬Setting.Suits l (.addr .dst (.v6 1)) := fun h => by
      have hversion : IpVersion.v6 = .v4 := h.trans hagree.version
      cases hversion
    exact ⟨b, l, hcontents, hlocate, hagree.version, hplaced hsuits, htaken.2 hsuits,
      hrefused hfamily⟩
  · obtain ⟨-, hrefused⟩ := set_exact (.ofStorage .blank) .blank [] (.port .src 8080)
    have hsize : (ofBuffer (.ofStorage .blank) .blank).contents.size = 0 := size_contents _
    obtain ⟨⟨m, hm⟩, hset⟩ := hrefused _ (locate_of_empty rfl hsize)
    exact ⟨m, hm ▸ hset⟩

end Packet

end Intercept
