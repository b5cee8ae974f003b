import Intercept.Proofs.Packet.Payload
import Intercept.Proofs.Packet.ReadOnly

set_option autoImplicit false

/-! # What marks a packet as changed

A packet is marked as changed in two places of its layout, one for each header, and the marks are
raised by whoever opens a header and asks for a change. `Op.modifies` says which operations are
changes, by what was asked for and what was answered: a granted edit, whether or not it makes a
difference to the bytes, a payload that was put in place, a port or an address that was set, a
length that was stated. `Headed.needsChecksum_run` says that these raise a mark, that nothing else
does, and that nothing takes one away.

Most of this is the same argument for every kind of header: a draft is marked by the requests that
it grants (`IpDraft.modified_answer`, `NextDraft.isModified_answer`), hence by lists of them
(`marked_answerAll`), and the mark it ends with is taken over by the packet (`needsChecksum_putIp`,
`needsChecksum_putNext`). Only setting the payload at once takes more. Its first half raises a mark,
so its second half must not refuse, and it does not as long as the IP header is still found
(`Headed`). -/

namespace Intercept

/-! ## Requests -/

/-- With such a reply the request was a change: it was granted, or it was for a stretch that reaches
outside the part it was meant for. -/
def IpRequest.changes : IpRequest → HeaderReply → Bool
  | .edit _, .unavailable => false
  | .edit _, _ => true
  | _, _ => false

/-- With such a reply the request was a change: it was granted, or it was for a stretch that reaches
outside the part it was meant for. -/
def NextRequest.changes : NextRequest → HeaderReply → Bool
  | .edit _, .unavailable => false
  | .edit _, _ => true
  | .payload _, .segmentLen _ => true
  | .port _ _, .yesNo b => b
  | _, _ => false

theorem IpRequest.changes_ofIpv4Edit (e : IpEdit) (x : Ipv4.Edit) (b : Bytes) :
    (IpRequest.edit e).changes (.ofIpv4Edit x b) = true := by
  cases x with
  | set c v => rfl
  | flags bits => rfl
  | options offset data =>
      simp only [HeaderReply.ofIpv4Edit, HeaderReply.ofWrite]
      split <;> rfl

theorem NextRequest.changes_ofTcpEdit (e : NextEdit) (x : Tcp.Edit) (d : Tcp.Draft) :
    (NextRequest.edit e).changes (.ofTcpEdit x d) = true := by
  cases x with
  | set c v => rfl
  | flag mask on => rfl
  | options offset data | payload offset data =>
      simp only [HeaderReply.ofTcpEdit, HeaderReply.ofWrite]
      split <;> rfl

namespace IpDraft

theorem modified_edit? {e : IpEdit} {d d' : IpDraft} (h : d.edit? e = some d') :
    d'.draft.modified = true := by
  cases e <;> cases d <;> cases h <;> rfl

theorem modified_setAddr? {e : Side} {a : IpAddr} {d d' : IpDraft}
    (h : d.setAddr? e a = some d') : d'.draft.modified = true := by
  cases a <;> exact modified_edit? h

/-- An IP header is marked by the requests for a change that it grants. -/
theorem modified_answer (r : IpRequest) (d : IpDraft) :
    (d.answer r).2.draft.modified = (d.draft.modified || r.changes (d.answer r).1) := by
  cases r with
  | edit e =>
      simp only [answer]
      split
      · exact (Bool.or_false _).symm
      · next d' h =>
          split
          · rw [IpRequest.changes_ofIpv4Edit, Bool.or_true]
            exact modified_edit? h
          · exact (modified_edit? h).trans (Bool.or_true _).symm
  | look | lookWhole | isModified => exact (Bool.or_false _).symm

end IpDraft

namespace NextDraft

theorem isModified_edit? {e : NextEdit} {d d' : NextDraft} (h : d.edit? e = some d') :
    d'.isModified = true := by
  cases e <;> cases d <;> cases h <;> rfl

/-- An attempt marks a header if it succeeds. -/
theorem isModified_attempt {change : NextDraft → Option NextDraft} (d : NextDraft)
    (h : ∀ d', change d = some d' → d'.isModified = true) :
    ∃ b, (d.attempt change).1 = .yesNo b ∧
      (d.attempt change).2.isModified = (d.isModified || b) := by
  unfold attempt
  split
  · exact ⟨false, rfl, (Bool.or_false _).symm⟩
  · next d' hd' => exact ⟨true, rfl, (h d' hd').trans (Bool.or_true _).symm⟩

theorem isModified_setPort? {e : Side} {n : UInt16} {d d' : NextDraft}
    (h : d.setPort? e n = some d') : d'.isModified = true := by
  cases d <;> cases h <;> rfl

/-- A header behind the IP header is marked by the requests for a change that it grants. -/
theorem isModified_answer (r : NextRequest) (d : NextDraft) :
    (d.answer r).2.isModified = (d.isModified || r.changes (d.answer r).1) := by
  cases r with
  | edit e =>
      simp only [answer]
      split
      · exact (Bool.or_false _).symm
      · next d' h =>
          split
          · rw [NextRequest.changes_ofTcpEdit, Bool.or_true]
            exact isModified_edit? h
          · exact (isModified_edit? h).trans (Bool.or_true _).symm
  | payload data =>
      cases d with
      | tcp d =>
          simp only [answer]
          split
          · exact (Bool.or_false _).symm
          · next d' hd' =>
              obtain ⟨-, rfl⟩ := Tcp.setPayload_eq_ok.1 hd'
              exact (Bool.or_true _).symm
      | udp d | icmp f d | unsupported p => exact (Bool.or_false _).symm
  | port e n =>
      obtain ⟨b, hb, hm⟩ := d.isModified_attempt fun _ h => isModified_setPort? (e := e) (n := n) h
      simp only [answer]
      rw [hb, hm]
      rfl
  | lookWhole | isModifiedWhole => exact (Bool.or_false _).symm
  | look | isModified | lengths => cases d <;> exact (Bool.or_false _).symm

end NextDraft

/-- What each request marks, a list of them marks if one of them does. -/
theorem marked_answerAll {ρ δ : Type} {answer : ρ → δ → HeaderReply × δ}
    {changes : ρ → HeaderReply → Bool} (mark : δ → Bool)
    (h : ∀ r d, mark (answer r d).2 = (mark d || changes r (answer r d).1)) (rs : List ρ) (d : δ) :
    mark (answerAll answer rs d).2 =
      (mark d || (rs.zip (answerAll answer rs d).1).any fun x => changes x.1 x.2) := by
  induction rs generalizing d with
  | nil => exact (Bool.or_false _).symm
  | cons r rs ih =>
      simp only [answerAll, List.zip_cons_cons, List.any_cons]
      rw [ih, h, Bool.or_assoc]

namespace Packet

variable {p p' : Packet} {l : Layout} {c : Bool}

/-! ## Operations that are changes -/

/-- The packet is found to carry TCP. -/
def carriesTcp (p : Packet) : Bool :=
  match p.locate with
  | .ok l => Transport.ofNumber? l.protocol = some .tcp
  | .error _ => false

/-- Granted with the reply, the operation is a change to a header of the packet. -/
def Op.changes (p : Packet) : Op → Reply → Bool
  | .setSrcIp _, _ | .setDstIp _, _ | .setSrcPort _, _ | .setDstPort _, _
  | .setTcpPayload _, _ => true
  | .updateLength, _ => p.carriesTcp
  | .withIp rs, .headers as => (rs.zip as).any fun x => x.1.changes x.2
  | .withNext rs, .headers as | .withTcp rs, .headers as =>
    (rs.zip as).any fun x => x.1.changes x.2
  | _, _ => false

/-- The operation, done to the packet, is a change to a header of it. -/
def Op.modifies (op : Op) (p : Packet) : Bool :=
  match (p.run op).1 with
  | .ok reply => op.changes p reply
  | .error _ => false

/-- An operation that is refused is no change. -/
theorem Op.modifies_of_error {op : Op} {e : Fault} (h : (p.run op).1 = .error e) :
    op.modifies p = false := by
  unfold modifies
  rw [h]

/-! ## Taking over a mark -/

theorem needsChecksum_of_layout (hl : p.layout = some l) :
    p.needsChecksum = (l.ipModified || l.segmentModified) := by
  unfold needsChecksum
  rw [hl]
  rfl

/-- An operation that is refused may have found the headers, and has marked nothing. -/
theorem needsChecksum_refused (p : Packet) :
    p.located.needsChecksum = (p.needsChecksum || false) :=
  p.needsChecksum_located.trans (Bool.or_false _).symm

/-- The packet is marked by what its IP header was marked by while it was open. -/
theorem needsChecksum_putIp {d d' : IpDraft} (hd : p.openIp = .ok d)
    (hc : d'.draft.modified = (d.draft.modified || c)) :
    (p.located.putIp d'.draft).needsChecksum = (p.needsChecksum || c) := by
  obtain ⟨l, hl, hopen⟩ := locate_of_openIp hd
  obtain ⟨-, -, hdraft⟩ := IpDraft.ofBytes_eq_ok.1 hopen
  rw [needsChecksum_of_layout (layout_putIp (layout_located hl) _), ← needsChecksum_located,
    needsChecksum_of_layout (layout_located hl), hc, hdraft]
  exact Bool.or_right_comm ..

/-- The packet is marked by what the header behind its IP header was marked by while it was open. -/
theorem needsChecksum_putNext {d d' : NextDraft} (hd : p.openNext = .ok d) (hk : d.Keeps d')
    (hc : d'.isModified = (d.isModified || c)) :
    (p.located.putNext d').needsChecksum = (p.needsChecksum || c) := by
  obtain ⟨l, hl⟩ := locate_of_openNext hd
  have hlayout := layout_located hl
  have hbefore := needsChecksum_of_layout hlayout
  rw [needsChecksum_located] at hbefore
  rw [← openNext_located] at hd
  rw [hbefore, Bool.or_assoc]
  rcases (openNext_eq_ok hlayout).1 hd with ⟨-, rfl⟩ | ⟨t, -, -, -, hd⟩
  -- a protocol whose header is not known has nothing to change
  · cases hk
    have hc : c = false := hc.symm
    rw [hc, Bool.or_false]
    exact needsChecksum_of_layout hlayout
  · rcases NextDraft.ofBytes_cases hd with ⟨-, -, rfl⟩ | ⟨-, -, rfl | ⟨f, rfl⟩⟩
    · cases hk with
      | @tcp _ x hk =>
          have hx : x.modified = (l.segmentModified || c) := hc
          rw [← hx]
          exact needsChecksum_of_layout (layout_putTcp hlayout x)
    · cases hk with
      | @udp _ x hk =>
          have hx : x.modified = (l.segmentModified || c) := hc
          rw [← hx]
          exact needsChecksum_of_layout (layout_putFixed hlayout x)
    · cases hk with
      | @icmp _ _ x hk =>
          have hx : x.modified = (l.segmentModified || c) := hc
          rw [← hx]
          exact needsChecksum_of_layout (layout_putFixed hlayout x)

/-! ## Single changes -/

theorem needsChecksum_changeIp {change : IpDraft → Option IpDraft} (reason : Error) (p : Packet)
    (h : ∀ d d', change d = some d' → d'.draft.modified = true) :
    (p.changeIp change reason).2.needsChecksum =
      (p.needsChecksum || (p.changeIp change reason).1.isOk) := by
  unfold changeIp
  split
  · exact p.needsChecksum_refused
  · next d hd =>
      split
      · exact p.needsChecksum_refused
      · next d' hd' =>
          exact needsChecksum_putIp hd ((h d d' hd').trans (Bool.or_true _).symm)

theorem needsChecksum_changeNext {change : NextDraft → Option NextDraft} (p : Packet)
    (h : ∀ d d', d.Sound → change d = some d' → d.Keeps d' ∧ d'.isModified = true) :
    (p.changeNext change).2.needsChecksum =
      (p.needsChecksum || (p.changeNext change).1.isOk) := by
  unfold changeNext
  split
  · exact p.needsChecksum_refused
  · next d hd =>
      split
      · exact p.needsChecksum_refused
      · next d' hd' =>
          obtain ⟨hk, hm⟩ := h d d' (sound_of_openNext hd) hd'
          exact needsChecksum_putNext hd hk (hm.trans (Bool.or_true _).symm)

/-- A length that is stated marks the IP header. -/
theorem needsChecksum_commitLength {n : Nat} {openHeader : Bytes → Except Malformed Draft}
    {store : Bytes → Bytes} (hl : p.layout = some l) :
    (p.commitLength n openHeader store).2.needsChecksum =
      (p.needsChecksum || (p.commitLength n openHeader store).1.isOk) := by
  unfold commitLength
  split
  · exact (Bool.or_false _).symm
  · next b hb =>
      simp only
      split
      · exact (Bool.or_false _).symm
      · next d hd =>
          have hput := layout_putIp (p := { p with buffer := b }) hl (d.change store)
          rw [needsChecksum_of_layout hput]
          exact (Bool.true_or _).trans (Bool.or_true _).symm

/-- Bringing the length up to date states it if the packet carries TCP, and does nothing if not. -/
theorem needsChecksum_updateLength (p : Packet) :
    p.updateLength.2.needsChecksum =
      (p.needsChecksum || (p.updateLength.1.isOk && p.carriesTcp)) := by
  unfold updateLength carriesTcp
  cases hl : p.locate with
  | error e => exact (Bool.or_false _).symm
  | ok l =>
      have hlayout := layout_located hl
      have hkeep := p.needsChecksum_located
      simp only
      split
      · next ht =>
          rw [decide_eq_false ht, Bool.and_false, Bool.or_false]
          exact hkeep
      · next ht =>
          rw [decide_eq_true (Decidable.not_not.1 ht), Bool.and_true, ← hkeep]
          split
          · split
            · exact (Bool.or_false _).symm
            · exact needsChecksum_commitLength hlayout
          · split
            · exact (Bool.or_false _).symm
            · exact needsChecksum_commitLength hlayout

/-! ## Setting the payload at once -/

/-- The IP header that is remembered of a packet is found in its bytes. -/
def Headed (p : Packet) : Prop :=
  ∀ l ∈ p.layout, l.version.validate p.contents = .ok l.ipHeaderLen

theorem headed_of_layout (hl : p.layout = some l)
    (h : l.version.validate p.contents = .ok l.ipHeaderLen) : p.Headed := by
  intro l' hl'
  cases hl.symm.trans hl'
  exact h

theorem headed_ofBuffer (b : Buffer) (a : Address) : (ofBuffer b a).Headed :=
  fun _ hl => by cases hl

theorem Headed.effect (he : Effect p p') (h : p.Headed) : p'.Headed := by
  cases he with
  | readdress a => exact h
  | locate hp hl => exact headed_of_layout rfl (Layout.found_of_parse hl).validate
  | @ip l d d' hl hd hk =>
      have hvalid := validate_putIp hl (h l hl) hd hk
      exact headed_of_layout (layout_putIp hl d'.draft) hvalid
  | @next l d d' hl hd hk =>
      obtain ⟨m, hm, hagree⟩ := Layout.Agrees.putNext hl d'
      refine headed_of_layout hm ?_
      rw [hagree.version, hagree.ipHeaderLen]
      exact validate_putNext hl (h l hl) d'
  | @resize l b hl ht hb => exact headed_of_layout hl (validate_resize (h l hl) hb)

theorem Headed.effects (he : Effects p p') (h : p.Headed) : p'.Headed :=
  kept_of_effects (fun _ _ h he => h.effect he) he h

/-- **A length that can be stated is stated**, if the IP header is still found. -/
theorem Headed.updateLength_eq_ok (h : p.Headed) (hl : p.layout = some l)
    (ht : Transport.ofNumber? l.protocol = some .tcp) (hpos : 0 < l.segmentLen)
    (hroom : l.segmentLen ≤ l.maxSegmentLen) : p.updateLength.1 = .ok () := by
  have hle := IpVersion.validate_le (h l hl)
  have hlen : p.len ≤ bufferSize := p.buffer.len_le
  have hend : l.segmentEnd = l.ipHeaderLen + l.segmentLen := rfl
  have hmax := Resizable.maxSegmentLen_le l
  rw [size_contents] at hle
  obtain ⟨b, hset⟩ : ∃ b, p.buffer.setLen? l.segmentEnd = some b := ⟨_, dif_pos (by omega)⟩
  rw [updateLength_of_room hl ht hpos hroom hset (validate_resize (h l hl) hset)]

/-- **Once a payload is in place, its length is stated**: the space that it was put into ends where
the lengths end that can be. -/
theorem Headed.updateLength_putTcp {d d' : Tcp.Draft} {data : Bytes} (h : p.Headed)
    (hd : p.openTcp = .ok d) (hset : Tcp.setPayload data d = .ok d') :
    (p.located.putTcp d').updateLength.1 = .ok () := by
  have hopen := openTcp_eq_ok.1 hd
  have hk : d.Keeps d' := Tcp.keeps_setPayload (sound_of_openNext hopen) hset
  have hput : (p.located.putTcp d').Headed := h.effects (effects_putNext hopen (.tcp hk))
  obtain ⟨l, hl⟩ := locate_of_openNext hopen
  have hlayout := layout_located hl
  rw [← openNext_located] at hopen
  rcases (openNext_eq_ok hlayout).1 hopen with ⟨-, hd⟩ | ⟨t, ht, -, -, hd⟩
  · cases hd
  · rcases NextDraft.ofBytes_cases hd with ⟨rfl, -, hspace⟩ | ⟨-, -, hd | ⟨f, hd⟩⟩
    · cases hspace
      have hheader := hk.sound.header
      have hsegment := hk.sound.segment
      have hend := hk.sound.space
      rw [hk.size] at hend
      simp only [Tcp.minHeaderLen] at hheader
      exact hput.updateLength_eq_ok (layout_putTcp hlayout d') ht
        (show 0 < d'.len by omega) (Nat.le_trans hend (size_space_le l _))
    · cases hd
    · cases hd

/-- Setting the payload marks the packet, or refuses and leaves it alone. -/
theorem Headed.needsChecksum_setTcpPayload (h : p.Headed) (data : Bytes) :
    (p.setTcpPayload data).2.needsChecksum =
      (p.needsChecksum || (p.setTcpPayload data).1.isOk) := by
  unfold setTcpPayload
  split
  · exact p.needsChecksum_refused
  · next d hd =>
      split
      · exact p.needsChecksum_refused
      · next d' hd' =>
          have hopen := openTcp_eq_ok.1 hd
          have hk : d.Keeps d' := Tcp.keeps_setPayload (sound_of_openNext hopen) hd'
          have hmarked : d'.modified = true := by rw [(Tcp.setPayload_eq_ok.1 hd').2]
          have hput := needsChecksum_putNext hopen (.tcp hk)
            (show _ = (_ || true) from hmarked.trans (Bool.or_true _).symm)
          rw [Bool.or_true] at hput
          rw [needsChecksum_updateLength, h.updateLength_putTcp hd hd',
            show (p.located.putTcp d').needsChecksum = true from hput]
          exact (Bool.true_or _).trans (Bool.or_true _).symm

/-! ## Every operation -/

/-- A change without an answer of its own is one as soon as it is granted. -/
theorem Op.modifies_of_answering {op : Op} {r : Except Fault Unit × Packet}
    (h : p.run op = answering r) : op.modifies p = (r.1.isOk && op.changes p .done) := by
  unfold modifies
  rw [h]
  obtain ⟨r, q⟩ := r
  cases r <;> rfl

theorem needsChecksum_withIp (rs : List IpRequest) (p : Packet) :
    (p.withIp rs).2.needsChecksum = (p.needsChecksum || (Op.withIp rs).modifies p) := by
  simp only [Op.modifies, run]
  unfold withIp
  split
  · exact p.needsChecksum_refused
  · next d hd =>
      have hmarked := marked_answerAll (fun d => d.draft.modified) IpDraft.modified_answer rs d
      exact needsChecksum_putIp hd hmarked

/-- A header behind the IP header that was open marks the packet by what it granted. -/
theorem needsChecksum_answered {d : NextDraft} (hd : p.openNext = .ok d)
    (rs : List NextRequest) :
    (p.located.putNext (answerAll NextDraft.answer rs d).2).needsChecksum =
      (p.needsChecksum ||
        (rs.zip (answerAll NextDraft.answer rs d).1).any fun x => x.1.changes x.2) := by
  have hkeeps := NextDraft.keeps_answerAll rs (sound_of_openNext hd)
  have hmarked := marked_answerAll NextDraft.isModified NextDraft.isModified_answer rs d
  exact needsChecksum_putNext hd hkeeps hmarked

theorem needsChecksum_withNext (rs : List NextRequest) (p : Packet) :
    (p.withNext rs).2.needsChecksum = (p.needsChecksum || (Op.withNext rs).modifies p) := by
  simp only [Op.modifies, run]
  unfold withNext
  split
  · exact p.needsChecksum_refused
  · next d hd => exact needsChecksum_answered hd rs

theorem needsChecksum_withTcp (rs : List NextRequest) (p : Packet) :
    (p.withTcp rs).2.needsChecksum = (p.needsChecksum || (Op.withTcp rs).modifies p) := by
  simp only [Op.modifies, run]
  unfold withTcp
  split
  · exact p.needsChecksum_refused
  · next d hd => exact needsChecksum_answered (openTcp_eq_ok.1 hd) rs

/-- **An operation marks a packet as changed exactly if it is a change**, and no operation takes a
mark away. -/
theorem Headed.needsChecksum_run (h : p.Headed) (op : Op) :
    (p.run op).2.needsChecksum = (p.needsChecksum || op.modifies p) := by
  cases op with
  | ask q =>
      have hno : (Op.ask q).modifies p = false := by
        unfold Op.modifies
        split <;> rfl
      rw [hno, Bool.or_false]
      exact (run_of_readOnly rfl p).needsChecksum
  | setAddress a => exact (Bool.or_false _).symm
  | setSrcIp a | setDstIp a =>
      rw [Op.modifies_of_answering rfl, Op.changes, Bool.and_true]
      exact needsChecksum_changeIp _ p fun _ _ => IpDraft.modified_setAddr?
  | setSrcPort n | setDstPort n =>
      rw [Op.modifies_of_answering rfl, Op.changes, Bool.and_true]
      exact needsChecksum_changeNext p fun _ _ hs hd =>
        ⟨NextDraft.keeps_setPort? hs hd, NextDraft.isModified_setPort? hd⟩
  | updateLength =>
      rw [Op.modifies_of_answering rfl, Op.changes]
      exact needsChecksum_updateLength p
  | setTcpPayload data =>
      rw [Op.modifies_of_answering rfl, Op.changes, Bool.and_true]
      exact h.needsChecksum_setTcpPayload data
  | withIp rs => exact needsChecksum_withIp rs p
  | withNext rs => exact needsChecksum_withNext rs p
  | withTcp rs => exact needsChecksum_withTcp rs p

end Packet

end Intercept
