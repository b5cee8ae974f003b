import Intercept.Proofs.Packet.Lazy

set_option autoImplicit false

/-! # Who writes the protocol field

The protocol field of an IP header takes one byte (`IpVersion.protocolByte`), and no other field
that can be set shares it. So it is written by those requests only that set it
(`IpRequest.setsProtocol`), and every other operation, granted or refused, leaves it as it was
(`byte_protocol_run`). The effects of an operation do not tell this, because a change to the IP
header may be any that keeps version and length; the operations are gone through once more. -/

namespace Intercept

/-! ## The byte -/

/-- The byte of an IP header that says which protocol follows. -/
def IpVersion.protocolByte : IpVersion → Nat
  | .v4 => 9
  | .v6 => 6

theorem Ipv4.get_protocol (b : Bytes) : get .protocol b = (b.byte 9).toNat :=
  b.readBits_eight 9

theorem Ipv6.get_nextHeader (b : Bytes) : get .nextHeader b = (b.byte 6).toNat :=
  b.readBits_eight 6

theorem Checksum.protocol_eq_byte (b : Bytes) :
    protocol b = (b.byte (version b).protocolByte).toNat := by
  unfold protocol
  cases version b with
  | v4 => exact Ipv4.get_protocol b
  | v6 => exact Ipv6.get_nextHeader b

/-! ## Requests -/

/-- The request sets the protocol field. -/
def IpRequest.setsProtocol : IpRequest → Bool
  | .edit (.v4 (.set .protocol _)) | .edit (.v6 (.set .nextHeader _)) => true
  | _ => false

theorem Ipv4.Edit.byte_protocol_apply {e : Ipv4.Edit}
    (he : (IpRequest.edit (.v4 e)).setsProtocol = false) (b : Bytes) :
    (e.apply b).byte 9 = b.byte 9 := by
  cases e with
  | set c v =>
      cases c with
      | protocol => cases he
      | _ => exact Field.byte_write_of_outside (by decide)
  | flags bits =>
      simp only [apply]
      rw [Bytes.byte_put, if_neg (by omega)]
  | options offset data =>
      simp only [apply]
      split
      · rw [Bytes.byte_overwrite, if_neg (by simp only [minHeaderLen]; omega)]
      · rfl

theorem Ipv6.Edit.byte_protocol_apply {e : Ipv6.Edit}
    (he : (IpRequest.edit (.v6 e)).setsProtocol = false) (b : Bytes) :
    (e.apply b).byte 6 = b.byte 6 := by
  cases e with
  | set c v =>
      cases c with
      | nextHeader => cases he
      | _ => exact Field.byte_write_of_outside (by decide)

namespace IpDraft

variable {d d' : IpDraft}

/-- The byte of a draft that says which protocol follows. -/
def protocolByte (d : IpDraft) : UInt8 := d.draft.bytes.byte d.version.protocolByte

theorem protocolByte_edit? {e : IpEdit} (he : (IpRequest.edit e).setsProtocol = false)
    (h : d.edit? e = some d') : d'.protocolByte = d.protocolByte := by
  -- an edit meant for the other version is not granted
  cases e <;> cases d <;> cases h
  · exact Ipv4.Edit.byte_protocol_apply he _
  · exact Ipv6.Edit.byte_protocol_apply he _

theorem protocolByte_setAddr? {e : Side} {a : IpAddr} (h : d.setAddr? e a = some d') :
    d'.protocolByte = d.protocolByte := by
  cases a <;> cases e <;> exact protocolByte_edit? rfl h

theorem protocolByte_answer {r : IpRequest} (hr : r.setsProtocol = false) (d : IpDraft) :
    (d.answer r).2.protocolByte = d.protocolByte := by
  cases r with
  | edit e =>
      simp only [answer]
      split
      · rfl
      · next d' h => split <;> exact protocolByte_edit? hr h
  | look | lookWhole | isModified => rfl

theorem protocolByte_answerAll {rs : List IpRequest}
    (hrs : rs.any IpRequest.setsProtocol = false) (d : IpDraft) :
    (answerAll answer rs d).2.protocolByte = d.protocolByte := by
  induction rs generalizing d with
  | nil => rfl
  | cons r rs ih =>
      rw [List.any_cons, Bool.or_eq_false_iff] at hrs
      exact (ih hrs.2 _).trans (protocolByte_answer hrs.1 d)

end IpDraft

namespace Packet

variable {p : Packet} {l : Layout}

/-! ## Operations -/

/-- The operation sets the protocol field of the IP header. -/
def Op.setsProtocol : Op → Bool
  | .withIp rs => rs.any IpRequest.setsProtocol
  | _ => false

/-- The protocol field lies in the IP header. -/
theorem protocolByte_lt {b : Buffer} (h : l.Current b) :
    l.version.protocolByte < l.ipHeaderLen := by
  have hvalid := h.validate
  cases hv : l.version with
  | v4 =>
      rw [hv] at hvalid
      obtain ⟨-, hn, hmin, -⟩ := Ipv4.validate_eq_ok.1 hvalid
      simp only [IpVersion.protocolByte, Ipv4.minHeaderLen] at hmin ⊢
      omega
  | v6 =>
      rw [hv] at hvalid
      obtain ⟨-, hn, -⟩ := Ipv6.validate_eq_ok.1 hvalid
      simp only [IpVersion.protocolByte, Ipv6.headerLen] at hn ⊢
      omega

/-- The byte of the storage that says which protocol follows. -/
def protocolByte (p : Packet) (l : Layout) : UInt8 :=
  p.buffer.storage.bytes.byte l.version.protocolByte

theorem protocolByte_putIp {d d' : IpDraft} (hl : p.layout = some l) (hd : p.openIp = .ok d)
    (hk : d.Keeps d') (hb : d'.protocolByte = d.protocolByte) :
    (p.putIp d'.draft).protocolByte l = p.protocolByte l := by
  have hsize := size_of_openIp hl hd hk
  obtain ⟨-, hversion, hdraft⟩ := IpDraft.ofBytes_eq_ok.1 ((openIp_eq_ok hl).1 hd)
  unfold IpDraft.protocolByte at hb
  rw [hk.version, hversion, hdraft] at hb
  simp only [protocolByte, putIp, Buffer.overwrite]
  rw [Storage.byte_overwrite]
  split
  · next hin =>
      rw [Nat.sub_zero, hb, contents, Buffer.byte_contents, if_pos]
      simp only [len] at hsize
      omega
  · rfl

theorem protocolByte_changeIp {change : IpDraft → Option IpDraft} (reason : Error)
    (hl : p.layout = some l)
    (h : ∀ d d', change d = some d' → d.Keeps d' ∧ d'.protocolByte = d.protocolByte) :
    (p.changeIp change reason).2.protocolByte l = p.protocolByte l := by
  unfold changeIp
  rw [located_of_layout hl]
  split
  · rfl
  · next d hd =>
      split
      · rfl
      · next d' hd' =>
          obtain ⟨hk, hb⟩ := h d d' hd'
          exact protocolByte_putIp hl hd hk hb

theorem protocolByte_changeNext (change : NextDraft → Option NextDraft) (hl : p.layout = some l)
    (hlt : l.version.protocolByte < l.ipHeaderLen) :
    (p.changeNext change).2.protocolByte l = p.protocolByte l := by
  unfold changeNext
  rw [located_of_layout hl]
  split
  · rfl
  · split
    · rfl
    · exact byte_putNext_of_lt hl _ hlt

/-- A length is stored in a field of its own. -/
theorem protocolByte_commitLength {openHeader : Bytes → Except Malformed Draft}
    {store : Bytes → Bytes} (hl : p.layout = some l)
    (hlt : l.version.protocolByte < l.ipHeaderLen)
    (h : ∀ b d, openHeader b = .ok d → ∃ x x' : IpDraft,
      IpDraft.ofBytes l.version l.ipModified b = .ok x ∧ x.Keeps x' ∧
        x'.protocolByte = x.protocolByte ∧ x'.draft = d.change store) :
    (p.commitLength l.segmentEnd openHeader store).2.protocolByte l = p.protocolByte l := by
  have hend : l.segmentEnd = l.ipHeaderLen + l.segmentLen := rfl
  unfold commitLength
  split
  · rfl
  · next b hb =>
      have hresize : { p with buffer := b }.protocolByte l = p.protocolByte l :=
        byte_setLen?_of_lt hb (by omega)
      simp only
      split
      · exact hresize
      · next d hd =>
          obtain ⟨x, x', hx, hk, hbyte, hd'⟩ := h _ d hd
          rw [← hd']
          have hopen : { p with buffer := b }.openIp = .ok x :=
            (openIp_eq_ok (p := { p with buffer := b }) hl).2 hx
          exact (protocolByte_putIp (p := { p with buffer := b }) hl hopen hk hbyte).trans hresize

theorem protocolByte_updateLength (hl : p.layout = some l)
    (hlt : l.version.protocolByte < l.ipHeaderLen) :
    p.updateLength.2.protocolByte l = p.protocolByte l := by
  simp only [updateLength, locate_of_layout hl, located_of_layout hl]
  split
  · rfl
  · split
    · next hv =>
        split
        · rfl
        · refine protocolByte_commitLength hl hlt fun b d hd => ?_
          have hedit : (IpDraft.v4 d).edit? (.v4 (.set .totalLen l.segmentEnd)) =
              some (.v4 (Ipv4.edit (.set .totalLen l.segmentEnd) d)) := rfl
          refine ⟨.v4 d, _, ?_, IpDraft.keeps_edit? hedit,
            IpDraft.protocolByte_edit? rfl hedit, rfl⟩
          rw [hv]
          exact Except.map_eq_ok.2 ⟨d, hd, rfl⟩
    · next hv =>
        split
        · rfl
        · refine protocolByte_commitLength hl hlt fun b d hd => ?_
          have hedit : (IpDraft.v6 d).edit? (.v6 (.set .payloadLen l.segmentLen)) =
              some (.v6 (Ipv6.edit (.set .payloadLen l.segmentLen) d)) := rfl
          refine ⟨.v6 d, _, ?_, IpDraft.keeps_edit? hedit,
            IpDraft.protocolByte_edit? rfl hedit, rfl⟩
          rw [hv]
          exact Except.map_eq_ok.2 ⟨d, hd, rfl⟩

theorem protocolByte_setTcpPayload (data : Bytes) (hl : p.layout = some l)
    (hlt : l.version.protocolByte < l.ipHeaderLen) :
    (p.setTcpPayload data).2.protocolByte l = p.protocolByte l := by
  unfold setTcpPayload
  rw [located_of_layout hl]
  split
  · rfl
  · split
    · rfl
    · next d' hd' =>
        -- the layout has another length of the segment now, but the same version
        have hupdate := protocolByte_updateLength (layout_putTcp hl d') hlt
        exact hupdate.trans (byte_putNext_of_lt hl (.tcp d') hlt)

/-- **Only a request that sets the protocol field writes it.** -/
theorem protocolByte_run {op : Op} (hop : op.setsProtocol = false) (hl : p.layout = some l)
    (hlt : l.version.protocolByte < l.ipHeaderLen) :
    (p.run op).2.protocolByte l = p.protocolByte l := by
  cases op with
  | ask x =>
      simp only [run, ask, located_of_layout hl, ite_self]
  | setAddress a => rfl
  | setSrcIp a | setDstIp a =>
      exact protocolByte_changeIp _ hl fun d d' h =>
        ⟨IpDraft.keeps_setAddr? h, IpDraft.protocolByte_setAddr? h⟩
  | setSrcPort n | setDstPort n => exact protocolByte_changeNext _ hl hlt
  | updateLength => exact protocolByte_updateLength hl hlt
  | setTcpPayload data => exact protocolByte_setTcpPayload data hl hlt
  | withIp rs =>
      simp only [run, withIp, located_of_layout hl]
      split
      · rfl
      · next d hd =>
          exact protocolByte_putIp hl hd (IpDraft.keeps_answerAll rs d)
            (IpDraft.protocolByte_answerAll hop d)
  | withNext rs =>
      simp only [run, withNext, located_of_layout hl]
      split
      · rfl
      · exact byte_putNext_of_lt hl _ hlt
  | withTcp rs =>
      simp only [run, withTcp, located_of_layout hl]
      split
      · rfl
      · exact byte_putNext_of_lt hl _ hlt

end Packet

end Intercept
