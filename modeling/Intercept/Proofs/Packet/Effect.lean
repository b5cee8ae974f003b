import Intercept.Packet.Op
import Intercept.Proofs.Header.Ip
import Intercept.Proofs.Header.Next
import Mathlib.Logic.Relation

set_option autoImplicit false

/-! # What an operation does to a packet

Every operation on a packet comes down to five kinds of effect: a new address is recorded, the
headers are found, the IP header is written back, the header behind it is written back, or the
length is brought up to date with the segment. `Packet.Effect` says what each of them does, and
`Packet.effects_run` that an operation, granted or refused, is a sequence of them. Whatever the five
effects keep is therefore kept by every sequence of operations, and nothing that follows needs to
look into an operation again. -/

namespace Intercept

open Relation (ReflTransGen)

namespace Packet

/-! ## Finding the headers -/

variable {p : Packet} {l : Layout}

theorem locate_of_layout (h : p.layout = some l) : p.locate = .ok l := by
  unfold locate
  rw [h]

theorem located_of_locate (h : p.locate = .ok l) : p.located = { p with layout := some l } := by
  unfold located
  rw [h]

theorem located_of_error {e : Fault} (h : p.locate = .error e) : p.located = p := by
  unfold located
  rw [h]

theorem located_of_layout (h : p.layout = some l) : p.located = p := by
  rw [located_of_locate (locate_of_layout h), ← h]

theorem layout_located (h : p.locate = .ok l) : p.located.layout = some l := by
  rw [located_of_locate h]

@[simp] theorem buffer_located (p : Packet) : p.located.buffer = p.buffer := by
  unfold located
  split <;> rfl

@[simp] theorem contents_located (p : Packet) : p.located.contents = p.contents := by
  unfold contents
  rw [buffer_located]

@[simp] theorem locate_located (p : Packet) : p.located.locate = p.locate := by
  cases h : p.locate with
  | ok l => exact locate_of_layout (layout_located h)
  | error e => rw [located_of_error h, h]

theorem openIp_located (p : Packet) : p.located.openIp = p.openIp := by
  simp only [openIp, locate_located, contents_located]

theorem openNext_located (p : Packet) : p.located.openNext = p.openNext := by
  simp only [openNext, locate_located, storageSlice, buffer_located]

theorem openTcp_located (p : Packet) : p.located.openTcp = p.openTcp := by
  simp only [openTcp, openNext_located]

theorem located_located (p : Packet) : p.located.located = p.located := by
  cases h : p.locate with
  | ok l => rw [located_of_layout (layout_located h)]
  | error e => rw [located_of_error h, located_of_error h]

theorem updateLength_located (p : Packet) : p.located.updateLength = p.updateLength := by
  cases h : p.locate with
  | ok l => simp only [updateLength, locate_located, h, located_of_layout (layout_located h)]
  | error e => rw [located_of_error h]

/-! ## Opening headers -/

theorem locate_of_openIp {d : IpDraft} (h : p.openIp = .ok d) :
    ∃ l, p.locate = .ok l ∧ (IpDraft.ofBytes l.version l.ipModified p.contents) = .ok d := by
  obtain ⟨l, hl, hd⟩ := Except.bind_eq_ok.1 h
  exact ⟨l, hl, Except.mapError_eq_ok.1 hd⟩

theorem openIp_eq_ok {d : IpDraft} (hl : p.layout = some l) :
    p.openIp = .ok d ↔ IpDraft.ofBytes l.version l.ipModified p.contents = .ok d := by
  unfold openIp
  rw [locate_of_layout hl]
  exact Except.mapError_eq_ok

theorem storageSlice_eq_ok {lo hi : Nat} {b : Bytes} :
    p.storageSlice lo hi = .ok b ↔
      lo ≤ hi ∧ hi ≤ bufferSize ∧ b = p.buffer.storage.bytes.extract lo hi := by
  rw [← p.buffer.storage.size_eq, ← Bytes.slice?_eq_some]
  unfold storageSlice
  split
  · next s h => rw [h]; simp
  · next h => rw [h]; simp

/-- The header behind the IP header is opened in the space that its protocol has. -/
theorem openNext_eq_ok {d : NextDraft} (hl : p.layout = some l) :
    p.openNext = .ok d ↔
      (Transport.ofNumber? l.protocol = none ∧ d = .unsupported l.protocol) ∨
      ∃ t, Transport.ofNumber? l.protocol = some t ∧
        l.ipHeaderLen ≤ l.spaceEnd t ∧ l.spaceEnd t ≤ bufferSize ∧
        NextDraft.ofBytes t l.segmentLen l.segmentModified
          (p.buffer.storage.bytes.extract l.ipHeaderLen (l.spaceEnd t)) = .ok d := by
  unfold openNext
  rw [locate_of_layout hl]
  simp only [bind, Except.bind]
  cases ht : Transport.ofNumber? l.protocol with
  | none =>
      simp only [pure, Except.pure, Except.ok.injEq, true_and, reduceCtorEq, false_and,
        exists_false, or_false]
      exact eq_comm
  | some t =>
      simp only [Option.some.injEq, reduceCtorEq, false_and, false_or, exists_eq_left']
      constructor
      · intro h
        obtain ⟨s, hs, hd⟩ := Except.bind_eq_ok.1 h
        obtain ⟨h1, h2, rfl⟩ := storageSlice_eq_ok.1 hs
        exact ⟨h1, h2, Except.mapError_eq_ok.1 hd⟩
      · rintro ⟨h1, h2, hd⟩
        exact Except.bind_eq_ok.2
          ⟨_, storageSlice_eq_ok.2 ⟨h1, h2, rfl⟩, Except.mapError_eq_ok.2 hd⟩

theorem openTcp_eq_ok {d : Tcp.Draft} : p.openTcp = .ok d ↔ p.openNext = .ok (.tcp d) := by
  unfold openTcp
  cases p.openNext with
  | error e => simp [bind, Except.bind]
  | ok d' => cases d' <;> simp [bind, Except.bind, pure, Except.pure, throw, throwThe,
      MonadExceptOf.throw]

theorem locate_of_openNext {d : NextDraft} (h : p.openNext = .ok d) : ∃ l, p.locate = .ok l := by
  obtain ⟨l, hl, -⟩ := Except.bind_eq_ok.1 h
  exact ⟨l, hl⟩

/-! ## Effects -/

/-- One effect on a packet. -/
inductive Effect : Packet → Packet → Prop where
  | readdress (p : Packet) (a : Address) : Effect p { p with address := a }
  | locate {p : Packet} {l : Layout} (hp : p.layout = none)
      (hl : Layout.parse p.contents = .ok l) : Effect p { p with layout := some l }
  | ip {p : Packet} {l : Layout} {d d' : IpDraft} (hl : p.layout = some l)
      (hd : p.openIp = .ok d) (hk : d.Keeps d') : Effect p (p.putIp d'.draft)
  | next {p : Packet} {l : Layout} {d d' : NextDraft} (hl : p.layout = some l)
      (hd : p.openNext = .ok d) (hk : d.Keeps d') : Effect p (p.putNext d')
  | resize {p : Packet} {l : Layout} {b : Buffer} (hl : p.layout = some l)
      (ht : Transport.ofNumber? l.protocol = some .tcp)
      (hb : p.buffer.setLen? l.segmentEnd = some b) : Effect p { p with buffer := b }

/-- A sequence of effects. -/
abbrev Effects : Packet → Packet → Prop := ReflTransGen Effect

theorem effects_located (p : Packet) : Effects p p.located := by
  cases h : p.layout with
  | some l => rw [located_of_layout h]
  | none =>
      cases hl : p.locate with
      | error e => rw [located_of_error hl]
      | ok l =>
          rw [located_of_locate hl]
          refine .single (.locate h ?_)
          unfold Packet.locate at hl
          rw [h] at hl
          exact Except.mapError_eq_ok.1 hl

theorem effects_putIp {d d' : IpDraft} (h : p.openIp = .ok d) (hk : d.Keeps d') :
    Effects p (p.located.putIp d'.draft) := by
  obtain ⟨l, hl, -⟩ := locate_of_openIp h
  exact (effects_located p).tail
    (.ip (layout_located hl) (by rw [openIp_located]; exact h) hk)

theorem effects_putNext {d d' : NextDraft} (h : p.openNext = .ok d) (hk : d.Keeps d') :
    Effects p (p.located.putNext d') := by
  obtain ⟨l, hl⟩ := locate_of_openNext h
  exact (effects_located p).tail
    (.next (layout_located hl) (by rw [openNext_located]; exact h) hk)

/-- A draft of the header behind the IP header is sound when it is opened. -/
theorem sound_of_openNext {d : NextDraft} (h : p.openNext = .ok d) : d.Sound := by
  obtain ⟨l, hl⟩ := locate_of_openNext h
  rw [← openNext_located] at h
  rcases (openNext_eq_ok (layout_located hl)).1 h with ⟨-, rfl⟩ | ⟨t, -, -, -, hd⟩
  · trivial
  · rcases NextDraft.ofBytes_cases hd with ⟨-, hs, rfl⟩ | ⟨-, -, rfl | ⟨f, rfl⟩⟩
    · exact hs
    · trivial
    · trivial

/-! ## Operations -/

theorem effects_changeIp {change : IpDraft → Option IpDraft} (reason : Error) (p : Packet)
    (h : ∀ d d', change d = some d' → d.Keeps d') : Effects p (p.changeIp change reason).2 := by
  unfold changeIp
  split
  · exact effects_located p
  · next d hd =>
      split
      · exact effects_located p
      · next d' hd' => exact effects_putIp hd (h d d' hd')

theorem effects_changeNext {change : NextDraft → Option NextDraft} (p : Packet)
    (h : ∀ d d', d.Sound → change d = some d' → d.Keeps d') :
    Effects p (p.changeNext change).2 := by
  unfold changeNext
  split
  · exact effects_located p
  · next d hd =>
      split
      · exact effects_located p
      · next d' hd' => exact effects_putNext hd (h d d' (sound_of_openNext hd) hd')

/-- Bringing the length up to date is a resize, and then a change to the IP header if the header is
still there. -/
theorem effects_commitLength {openHeader : Bytes → Except Malformed Draft}
    {store : Bytes → Bytes} (hl : p.layout = some l)
    (ht : Transport.ofNumber? l.protocol = some .tcp)
    (h : ∀ b d, openHeader b = .ok d → ∃ x x' : IpDraft,
      IpDraft.ofBytes l.version l.ipModified b = .ok x ∧ x.Keeps x' ∧
        x'.draft = d.change store) :
    Effects p (p.commitLength l.segmentEnd openHeader store).2 := by
  unfold commitLength
  split
  · exact .refl
  · next b hb =>
      have hr : Effects p { p with buffer := b } := .single (.resize hl ht hb)
      simp only
      split
      -- the header is looked for again in the bytes that are left, and may be gone
      · exact hr
      · next d hd =>
          obtain ⟨x, x', hx, hk, hd'⟩ := h _ d hd
          rw [← hd']
          exact hr.tail (.ip hl ((openIp_eq_ok (p := { p with buffer := b }) hl).2 hx) hk)

theorem effects_updateLength (p : Packet) : Effects p p.updateLength.2 := by
  cases hl : p.locate with
  | error e =>
      simp only [updateLength, hl]
      exact .refl
  | ok l =>
      simp only [updateLength, hl]
      split
      · exact effects_located p
      · next ht =>
          have ht : Transport.ofNumber? l.protocol = some .tcp := Decidable.not_not.1 ht
          -- in either version a length that the field cannot hold is refused
          split
          · next hv =>
              split
              · exact effects_located p
              · refine (effects_located p).trans
                  (effects_commitLength (layout_located hl) ht fun b d hd => ?_)
                refine ⟨.v4 d, .v4 (Ipv4.edit (.set .totalLen l.segmentEnd) d), ?_,
                  IpDraft.keeps_edit? (e := .v4 (.set .totalLen l.segmentEnd)) rfl, rfl⟩
                rw [hv]
                exact Except.map_eq_ok.2 ⟨d, hd, rfl⟩
          · next hv =>
              split
              · exact effects_located p
              · refine (effects_located p).trans
                  (effects_commitLength (layout_located hl) ht fun b d hd => ?_)
                refine ⟨.v6 d, .v6 (Ipv6.edit (.set .payloadLen l.segmentLen) d), ?_,
                  IpDraft.keeps_edit? (e := .v6 (.set .payloadLen l.segmentLen)) rfl, rfl⟩
                rw [hv]
                exact Except.map_eq_ok.2 ⟨d, hd, rfl⟩

theorem effects_setTcpPayload (data : Bytes) (p : Packet) :
    Effects p (p.setTcpPayload data).2 := by
  unfold setTcpPayload
  split
  · exact effects_located p
  · next d hd =>
      rw [openTcp_eq_ok] at hd
      split
      · exact effects_located p
      · next d' hd' =>
          have hk : d.Keeps d' := Tcp.keeps_setPayload (sound_of_openNext hd) hd'
          exact (effects_putNext hd (.tcp hk)).trans (effects_updateLength _)

theorem effects_ask (q : Question) (p : Packet) : Effects p (p.ask q).2 := by
  simp only [ask]
  split
  · exact effects_located p
  · exact .refl

theorem effects_withIp (rs : List IpRequest) (p : Packet) : Effects p (p.withIp rs).2 := by
  unfold withIp
  split
  · exact effects_located p
  · next d hd => exact effects_putIp hd (IpDraft.keeps_answerAll rs d)

theorem effects_withNext (rs : List NextRequest) (p : Packet) :
    Effects p (p.withNext rs).2 := by
  unfold withNext
  split
  · exact effects_located p
  · next d hd => exact effects_putNext hd (NextDraft.keeps_answerAll rs (sound_of_openNext hd))

theorem effects_withTcp (rs : List NextRequest) (p : Packet) : Effects p (p.withTcp rs).2 := by
  unfold withTcp
  split
  · exact effects_located p
  · next d hd =>
      rw [openTcp_eq_ok] at hd
      exact effects_putNext hd (NextDraft.keeps_answerAll rs (sound_of_openNext hd))

/-- **An operation is a sequence of effects**, whether it is granted or refused. -/
theorem effects_run (op : Op) (p : Packet) : Effects p (p.run op).2 := by
  cases op with
  | ask q => exact effects_ask q p
  | setAddress a => exact .single (.readdress p a)
  | setSrcIp a | setDstIp a => exact effects_changeIp _ p fun _ _ h => IpDraft.keeps_setAddr? h
  | setSrcPort n | setDstPort n =>
      exact effects_changeNext p fun _ _ hd h => NextDraft.keeps_setPort? hd h
  | updateLength => exact effects_updateLength p
  | setTcpPayload data => exact effects_setTcpPayload data p
  | withIp rs => exact effects_withIp rs p
  | withNext rs => exact effects_withNext rs p
  | withTcp rs => exact effects_withTcp rs p

/-- What one effect keeps, any number of them keep. -/
theorem kept_of_effects {P : Packet → Prop} {p' : Packet} (h : ∀ p p', P p → Effect p p' → P p')
    (he : Effects p p') (hp : P p) : P p' := by
  induction he with
  | refl => exact hp
  | tail _ he ih => exact h _ _ ih he

end Packet

end Intercept
