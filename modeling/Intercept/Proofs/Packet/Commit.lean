import Intercept.Proofs.Packet.Payload

set_option autoImplicit false

/-! # When the length of a packet is up to date

A TCP segment can be made longer or shorter than what is left of its packet, until the length is
brought up to date. What was done to a packet, and what was answered, tell whether that is still to
come (`pendingAfter`): a reply of an open segment that it has another length now makes a resize
pending, and it stays so until the length is brought up to date, on its own or together with a new
payload. If none is pending, the segment ends where the packet does (`committed_actAll`).

The length must not be refused when it is due. It is not, because a segment that was resized has
stayed within what the IP header can state, and one that was not ends with its packet anyway
(`Limited`). So after any attempt to bring the length up to date, granted or not, the two ends are
one (`Limited.committed_updateLength`). -/

namespace Intercept

/-! ## Replies of a segment -/

/-- The reply to a segment of `n` bytes that its payload has another length now. -/
def HeaderReply.resized (n : Nat) : HeaderReply → Bool
  | .segmentLen m => m != n
  | _ => false

theorem Tcp.len_edit (e : Tcp.Edit) (d : Tcp.Draft) : (Tcp.edit e d).len = d.len := rfl

namespace NextDraft

variable {n : Nat} {d d' : NextDraft}

/-- A TCP segment that is open has a length of `n` bytes. -/
def OfLen (n : Nat) : NextDraft → Prop
  | .tcp d => d.len = n
  | _ => True

theorem ofLen_edit? {e : NextEdit} (h : d.OfLen n) (he : d.edit? e = some d') : d'.OfLen n := by
  cases e <;> cases d <;> cases he
  · exact (Tcp.len_edit _ _).trans h
  · trivial
  · trivial

theorem ofLen_setPort? {e : Side} {port : UInt16} (h : d.OfLen n)
    (hd : d.setPort? e port = some d') : d'.OfLen n := by
  cases d with
  | tcp t =>
      obtain rfl := Option.some.inj hd
      exact (Tcp.len_edit _ t).trans h
  | udp t =>
      obtain rfl := Option.some.inj hd
      trivial
  | icmp f t | unsupported p => cases hd

theorem ofLen_attempt {change : NextDraft → Option NextDraft} (h : d.OfLen n)
    (hc : ∀ d', change d = some d' → d'.OfLen n) : (d.attempt change).2.OfLen n := by
  unfold attempt
  split
  · exact h
  · next d' hd' => exact hc d' hd'

/-- Only a payload of another length changes the length of a segment. -/
theorem ofLen_answer (r : NextRequest) (h : d.OfLen n) (hr : (d.answer r).1.resized n = false) :
    (d.answer r).2.OfLen n := by
  cases r with
  | edit e =>
      simp only [answer]
      split
      · exact h
      · next d' hd' => split <;> exact ofLen_edit? h hd'
  | payload data =>
      cases d with
      | tcp t =>
          simp only [answer] at hr ⊢
          split
          · exact h
          · next t' ht' =>
              simp only [ht', HeaderReply.resized, bne_eq_false_iff_eq] at hr
              exact hr
      | udp d | icmp f d | unsupported p => trivial
  | port e n => exact ofLen_attempt h fun _ => ofLen_setPort? h
  | lookWhole | isModifiedWhole => exact h
  | look | isModified | lengths => cases d <;> exact h

theorem ofLen_answerAll (rs : List NextRequest) (h : d.OfLen n)
    (hr : (answerAll answer rs d).1.any (HeaderReply.resized n) = false) :
    (answerAll answer rs d).2.OfLen n := by
  induction rs generalizing d with
  | nil => exact h
  | cons r rs ih =>
      simp only [answerAll, List.any_cons, Bool.or_eq_false_iff] at hr ⊢
      exact ih (ofLen_answer r h hr.1) hr.2

end NextDraft

namespace Packet

variable {p p' : Packet} {l : Layout}

/-! ## Segments that can be stated -/

/-- The segment ends with the packet, or is no longer than the IP header can state. -/
def Limited (p : Packet) : Prop :=
  ∀ l ∈ p.layout, l.segmentEnd = p.len ∨ l.segmentLen ≤ l.maxSegmentLen

/-- The segment ends with the packet. -/
def Committed (p : Packet) : Prop := ∀ l ∈ p.layout, l.segmentEnd = p.len

theorem limited_of_layout (hl : p.layout = some l)
    (h : l.segmentEnd = p.len ∨ l.segmentLen ≤ l.maxSegmentLen) : p.Limited := by
  intro l' hl'
  cases hl.symm.trans hl'
  exact h

theorem committed_of_layout (hl : p.layout = some l) (h : l.segmentEnd = p.len) :
    p.Committed := by
  intro l' hl'
  cases hl.symm.trans hl'
  exact h

theorem Committed.limited (h : p.Committed) : p.Limited := fun l hl => Or.inl (h l hl)

theorem committed_ofBuffer (b : Buffer) (a : Address) : (ofBuffer b a).Committed :=
  fun _ hl => nomatch hl

theorem committed_of_parse (hl : Layout.parse p.contents = .ok l) :
    { p with layout := some l }.Committed := by
  have hsegment := (Layout.found_of_parse hl).segment
  rw [size_contents] at hsegment
  exact committed_of_layout rfl hsegment

theorem Limited.effect (he : Effect p p') (h : p.Limited) : p'.Limited := by
  cases he with
  | readdress a => exact h
  | locate hp hl => exact (committed_of_parse hl).limited
  | @ip l d d' hl hd hk =>
      have hroom := h l hl
      exact limited_of_layout (layout_putIp hl _) hroom
  | @next l d d' hl hd hk =>
      rcases putNext_cases hl hd hk with
        he | ⟨x, -, -, -, -, he⟩ | ⟨x, -, -, -, -, hk, he⟩
      · rwa [he]
      · have hroom := h l hl
        rw [he, putFixed_of_layout hl]
        exact limited_of_layout rfl hroom
      -- a TCP segment is written back within the space it was opened in
      · rw [he]
        have hspace := hk.sound.space
        rw [hk.size] at hspace
        exact limited_of_layout (layout_putTcp hl x)
          (Or.inr (Nat.le_trans hspace (size_space_le _ _)))
  | resize hl ht hb =>
      obtain ⟨-, -, hlen⟩ := Buffer.setLen?_eq_some.1 hb
      exact limited_of_layout hl (Or.inl hlen.symm)

theorem Limited.effects (he : Effects p p') (h : p.Limited) : p'.Limited :=
  kept_of_effects (fun _ _ h he => h.effect he) he h

theorem Limited.refill (h : p.Limited) : p.refill.Limited := by
  intro l hl
  rw [layout_refill] at hl
  rw [len_refill]
  exact h l hl

theorem Limited.act (h : p.Limited) (x : Action) : (p.act x).Limited := by
  cases x with
  | op op => exact h.effects (effects_run op p)
  | refill => exact h.refill

theorem Limited.actAll (h : p.Limited) (xs : List Action) : (p.actAll xs).Limited := by
  induction xs generalizing p with
  | nil => exact h
  | cons x xs ih => exact ih (h.act x)

/-! ## Bringing the length up to date -/

/-- A length that can be stated becomes that of the packet. -/
theorem Current.committed_of_room (h : p.Current) (hl : p.layout = some l)
    (ht : Transport.ofNumber? l.protocol = some .tcp) (hroom : l.segmentLen ≤ l.maxSegmentLen) :
    p.updateLength.2.Committed := by
  have hpos : 0 < l.segmentLen := by
    have := h.segment_holds hl ht
    omega
  obtain ⟨b, hset⟩ : ∃ b, p.buffer.setLen? l.segmentEnd = some b :=
    ⟨_, dif_pos (h l hl).fits.segment⟩
  obtain ⟨-, -, hlen⟩ := Buffer.setLen?_eq_some.1 hset
  rw [updateLength_of_room hl ht hpos hroom hset (validate_resize (h l hl).validate hset)]
  exact committed_of_layout (layout_putIp (p := { p with buffer := b }) hl _) hlen.symm

/-- **After the length was brought up to date, or could not be, the segment ends with the
packet.** -/
theorem Limited.committed_updateLength (h : p.Limited) (hc : p.Current) :
    p.updateLength.2.Committed := by
  cases hl : p.locate with
  | error e =>
      rw [updateLength, hl]
      intro l hlayout
      rw [locate_of_layout hlayout] at hl
      cases hl
  | ok l =>
      rw [← updateLength_located]
      have hlayout := layout_located hl
      have hc := hc.effects (effects_located p)
      have h := h.effects (effects_located p)
      by_cases ht : Transport.ofNumber? l.protocol = some .tcp
      · by_cases hroom : l.segmentLen ≤ l.maxSegmentLen
        · exact hc.committed_of_room hlayout ht hroom
        · rw [hc.updateLength_of_not_room hlayout ht hroom]
          exact committed_of_layout hlayout ((h l hlayout).resolve_right hroom)
      · have hskip : p.located.updateLength.2 = p.located := by
          rw [updateLength, locate_of_layout hlayout]
          simp only [ht, ne_eq, not_false_eq_true, if_true, located_located]
        rw [hskip]
        exact committed_of_layout hlayout ((hc l hlayout).fits.whole ht)

/-- A payload that is put in place has its length stated at once, and one that is refused leaves
the packet as it was. -/
theorem Limited.setTcpPayload_cases (h : p.Limited) (hc : p.Current) (data : Bytes) :
    (p.setTcpPayload data).2.Committed ∨
      (p.setTcpPayload data).1.isOk = false ∧ (p.setTcpPayload data).2 = p.located := by
  unfold setTcpPayload
  split
  · exact Or.inr ⟨rfl, rfl⟩
  · next d hd =>
      split
      · exact Or.inr ⟨rfl, rfl⟩
      · next d' hd' =>
          have hopen := openTcp_eq_ok.1 hd
          have hk : d.Keeps d' := Tcp.keeps_setPayload (sound_of_openNext hopen) hd'
          have he : Effects p (p.located.putTcp d') := effects_putNext hopen (.tcp hk)
          exact Or.inl ((h.effects he).committed_updateLength (hc.effects he))

/-! ## What keeps the length of a segment -/

/-- A segment is opened with the length that is remembered. -/
theorem ofLen_of_openNext {d : NextDraft} (hl : p.layout = some l) (hd : p.openNext = .ok d) :
    d.OfLen l.segmentLen := by
  rcases (openNext_eq_ok hl).1 hd with ⟨-, rfl⟩ | ⟨t, -, -, -, hd⟩
  · trivial
  · rcases NextDraft.ofBytes_cases hd with ⟨-, -, rfl⟩ | ⟨-, -, rfl | ⟨f, rfl⟩⟩
    · rfl
    · trivial
    · trivial

namespace Committed

theorem located (h : p.Committed) : p.located.Committed := by
  cases hp : p.layout with
  | some l => rwa [located_of_layout hp]
  | none =>
      cases hl : p.locate with
      | error e => rwa [located_of_error hl]
      | ok l =>
          rw [located_of_locate hl]
          unfold locate at hl
          rw [hp] at hl
          exact committed_of_parse (Except.mapError_eq_ok.1 hl)

theorem refill (h : p.Committed) : p.refill.Committed := by
  intro l hl
  rw [layout_refill] at hl
  rw [len_refill]
  exact h l hl

theorem putIp (h : p.Committed) (d : Draft) : (p.putIp d).Committed := by
  intro l' hl'
  obtain ⟨l, hl, rfl⟩ := Option.map_eq_some_iff.1 hl'
  exact h l hl

theorem putNext {d : NextDraft} (h : p.Committed) (hl : p.layout = some l)
    (hd : d.OfLen l.segmentLen) : (p.putNext d).Committed := by
  have hend := h l hl
  cases d with
  | tcp x =>
      have hx : x.len = l.segmentLen := hd
      refine committed_of_layout (layout_putTcp hl x) ?_
      rw [len_putNext hl (.tcp x), ← hend, hx]
      rfl
  | udp x =>
      refine committed_of_layout (layout_putFixed hl x) ?_
      rw [len_putNext hl (.udp x), ← hend]
      rfl
  | icmp f x =>
      refine committed_of_layout (layout_putFixed hl x) ?_
      rw [len_putNext hl (.icmp f x), ← hend]
      rfl
  | unsupported n => exact h

theorem changeIp (h : p.Committed) (change : IpDraft → Option IpDraft) (reason : Error) :
    (p.changeIp change reason).2.Committed := by
  unfold Packet.changeIp
  split
  · exact h.located
  · split
    · exact h.located
    · exact h.located.putIp _

theorem changeNext {change : NextDraft → Option NextDraft} (h : p.Committed)
    (hc : ∀ n d d', d.OfLen n → change d = some d' → d'.OfLen n) :
    (p.changeNext change).2.Committed := by
  unfold Packet.changeNext
  split
  · exact h.located
  · next d hd =>
      split
      · exact h.located
      · next d' hd' =>
          obtain ⟨l, hl⟩ := locate_of_openNext hd
          have hlayout := layout_located hl
          rw [← openNext_located] at hd
          exact h.located.putNext hlayout (hc _ d d' (ofLen_of_openNext hlayout hd) hd')

end Committed

/-! ## What was done and answered -/

/-- The operation, done to the packet, brings its length up to date, or finds that it cannot be
stated. -/
def Op.commits (op : Op) (p : Packet) : Bool :=
  match op with
  | .updateLength => true
  | .setTcpPayload _ => (p.run op).1.isOk
  | _ => false

/-- The operation, done to the packet, gives a segment a payload of another length by way of an
open header. -/
def Op.resizes (op : Op) (p : Packet) : Bool :=
  match (p.run op).1, p.locate with
  | .ok (.headers as), .ok l => as.any (HeaderReply.resized l.segmentLen)
  | _, _ => false

/-- Whether a resize is still to be taken in after an action. -/
def Action.pending (action : Action) (p : Packet) (pending : Bool) : Bool :=
  match action with
  | .op x => !x.commits p && (pending || x.resizes p)
  | .refill => pending

/-- A payload has been given another length since the length was last brought up to date. -/
def pendingAfter : List Action → Packet → Bool → Bool
  | [], _, pending => pending
  | x :: xs, p, pending => pendingAfter xs (p.act x) (x.pending p pending)

/-- A header that was open is written back with its length, unless a reply says otherwise. -/
theorem Committed.answered {d : NextDraft} {rs : List NextRequest} (h : p.Committed)
    (hd : p.openNext = .ok d)
    (hr : ∀ l, p.locate = .ok l →
      (answerAll NextDraft.answer rs d).1.any (HeaderReply.resized l.segmentLen) = false) :
    (p.located.putNext (answerAll NextDraft.answer rs d).2).Committed := by
  obtain ⟨l, hl⟩ := locate_of_openNext hd
  have hlayout := layout_located hl
  rw [← openNext_located] at hd
  exact h.located.putNext hlayout
    (NextDraft.ofLen_answerAll rs (ofLen_of_openNext hlayout hd) (hr l hl))

theorem Committed.run {op : Op} (h : p.Committed) (hc : p.Current)
    (hr : op.resizes p = false) : (p.run op).2.Committed := by
  cases op with
  | ask q =>
      simp only [Packet.run, ask]
      split
      · exact h.located
      · exact h
  | setAddress a => exact h
  | setSrcIp a | setDstIp a => exact h.changeIp _ _
  | setSrcPort n | setDstPort n => exact h.changeNext fun _ _ _ => NextDraft.ofLen_setPort?
  | updateLength => exact h.limited.committed_updateLength hc
  | setTcpPayload data =>
      rcases h.limited.setTcpPayload_cases hc data with hdone | ⟨-, hkept⟩
      · exact hdone
      · have hrun : (p.run (.setTcpPayload data)).2 = p.located := hkept
        rw [hrun]
        exact h.located
  | withIp rs =>
      simp only [Packet.run, withIp]
      split
      · exact h.located
      · exact h.located.putIp _
  | withNext rs =>
      simp only [Op.resizes, Packet.run, withNext] at hr ⊢
      split
      · exact h.located
      · next d hd =>
          refine h.answered hd fun l hl => ?_
          simpa only [hd, hl] using hr
  | withTcp rs =>
      simp only [Op.resizes, Packet.run, withTcp] at hr ⊢
      split
      · exact h.located
      · next d hd =>
          refine h.answered (openTcp_eq_ok.1 hd) fun l hl => ?_
          simpa only [hd, hl] using hr

theorem isOk_answering (r : Except Fault Unit × Packet) : (answering r).1.isOk = r.1.isOk := by
  obtain ⟨r, q⟩ := r
  cases r <;> rfl

/-- An action after which no resize is pending leaves the segment to end with the packet. -/
theorem committed_act {pending : Bool} (hc : p.Current) (hroom : p.Limited)
    (h : pending = false → p.Committed) (x : Action) (hx : x.pending p pending = false) :
    (p.act x).Committed := by
  cases x with
  | refill => exact (h hx).refill
  | op op =>
      simp only [Action.pending, Bool.and_eq_false_iff, Bool.not_eq_false', Bool.or_eq_false_iff]
        at hx
      rcases hx with hcommits | ⟨hpending, hresizes⟩
      · cases op with
        | updateLength => exact hroom.committed_updateLength hc
        | setTcpPayload data =>
            rcases hroom.setTcpPayload_cases hc data with hdone | ⟨hrefused, -⟩
            · exact hdone
            · have hok := (isOk_answering (p.setTcpPayload data)).symm.trans hcommits
              rw [hok] at hrefused
              cases hrefused
        | ask q | setAddress a | setSrcIp a | setDstIp a | setSrcPort n | setDstPort n | withIp rs
        | withNext rs | withTcp rs => cases hcommits
      · exact (h hpending).run hc hresizes

theorem committed_actAll {pending : Bool} (hc : p.Current) (hroom : p.Limited)
    (h : pending = false → p.Committed) (xs : List Action)
    (hxs : pendingAfter xs p pending = false) : (p.actAll xs).Committed := by
  induction xs generalizing p pending with
  | nil => exact h hxs
  | cons x xs ih => exact ih (hc.act x) (hroom.act x) (committed_act hc hroom h x) hxs

end Packet

end Intercept
