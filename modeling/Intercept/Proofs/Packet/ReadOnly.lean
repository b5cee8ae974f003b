import Intercept.Proofs.Packet.Extent

set_option autoImplicit false

/-! # Operations that only read

A question, or an open header that is asked for nothing but a look, is read-only. An open header is
written back when it is closed, changed or not, and its mark with it. If it was not changed that
writes what is there already, so the packet is what it was, but for a layout that was found on the
way (`Packet.run_of_readOnly`). Whether the operation could be answered makes no difference. -/

namespace Intercept

/-! ## Requests -/

/-- The request asks for no change. -/
def IpRequest.isReadOnly : IpRequest → Bool
  | .edit _ => false
  | _ => true

/-- The request asks for no change. -/
def NextRequest.isReadOnly : NextRequest → Bool
  | .edit _ | .payload _ | .port _ _ => false
  | _ => true

theorem IpDraft.answer_of_readOnly {r : IpRequest} (h : r.isReadOnly = true) (d : IpDraft) :
    (d.answer r).2 = d := by
  cases r with
  | edit e => cases h
  | look | lookWhole | isModified => rfl

theorem NextDraft.answer_of_readOnly {r : NextRequest} (h : r.isReadOnly = true)
    (d : NextDraft) : (d.answer r).2 = d := by
  cases r with
  | edit e => cases h
  | payload p => cases h
  | port e n => cases h
  | lookWhole | isModifiedWhole => rfl
  | look | isModified | lengths => cases d <;> rfl

/-- Requests that each leave a draft as it is leave it as it is in turn. -/
theorem answerAll_of_fixed {ρ δ : Type} {answer : ρ → δ → HeaderReply × δ} {rs : List ρ} {d : δ}
    (h : ∀ r ∈ rs, (answer r d).2 = d) : (answerAll answer rs d).2 = d := by
  induction rs with
  | nil => rfl
  | cons r rs ih =>
      simp only [answerAll]
      rw [h r List.mem_cons_self]
      exact ih fun r hr => h r (List.mem_cons_of_mem _ hr)

namespace Packet

variable {p : Packet} {l : Layout}

/-! ## Writing back what was opened -/

theorem putIp_of_openIp {d : IpDraft} (hl : p.layout = some l) (hd : p.openIp = .ok d) :
    p.putIp d.draft = p := by
  obtain ⟨-, -, hdraft⟩ := IpDraft.ofBytes_eq_ok.1 ((openIp_eq_ok hl).1 hd)
  have hbuffer : p.buffer.overwrite 0 p.contents = p.buffer := Buffer.overwrite_extract ..
  rw [hdraft, putIp, hbuffer, hl, Option.map_some, ← hl]

theorem putNext_of_openNext {d : NextDraft} (hl : p.layout = some l) (hd : p.openNext = .ok d) :
    p.putNext d = p := by
  rcases (openNext_eq_ok hl).1 hd with ⟨-, rfl⟩ | ⟨t, -, -, -, hd⟩
  · rfl
  · rcases NextDraft.ofBytes_cases hd with ⟨rfl, -, rfl⟩ | ⟨ht, -, hd⟩
    · exact putTcp_space hl
    · rw [Layout.spaceEnd_of_ne_tcp ht] at hd
      rcases hd with rfl | ⟨f, rfl⟩
      · exact putFixed_segment hl
      · exact putFixed_segment hl

/-! ## Operations -/

/-- The operation asks for no change. -/
def Op.isReadOnly : Op → Bool
  | .ask _ => true
  | .withIp rs => rs.all IpRequest.isReadOnly
  | .withNext rs | .withTcp rs => rs.all NextRequest.isReadOnly
  | _ => false

/-- The packet is what it was, but for a layout that may have been found. -/
def Reads (p p' : Packet) : Prop := p' = p ∨ p' = p.located

theorem reads_withIp {rs : List IpRequest} (h : ∀ r ∈ rs, r.isReadOnly = true) (p : Packet) :
    p.Reads (p.withIp rs).2 := by
  unfold withIp
  split
  · exact Or.inr rfl
  · next d hd =>
      have hfixed : (answerAll IpDraft.answer rs d).2 = d :=
        answerAll_of_fixed fun r hr => IpDraft.answer_of_readOnly (h r hr) d
      obtain ⟨l, hl, -⟩ := locate_of_openIp hd
      simp only
      rw [hfixed]
      exact Or.inr (putIp_of_openIp (layout_located hl) ((openIp_located p).trans hd))

/-- Writing back an open header that was asked for no change leaves the packet as it was. -/
theorem reads_putNext {rs : List NextRequest} {d : NextDraft} (h : ∀ r ∈ rs, r.isReadOnly = true)
    (hd : p.openNext = .ok d) :
    p.Reads (p.located.putNext (answerAll NextDraft.answer rs d).2) := by
  have hfixed : (answerAll NextDraft.answer rs d).2 = d :=
    answerAll_of_fixed fun r hr => NextDraft.answer_of_readOnly (h r hr) d
  obtain ⟨l, hl⟩ := locate_of_openNext hd
  rw [hfixed]
  exact Or.inr (putNext_of_openNext (layout_located hl) ((openNext_located p).trans hd))

theorem reads_withNext {rs : List NextRequest} (h : ∀ r ∈ rs, r.isReadOnly = true)
    (p : Packet) : p.Reads (p.withNext rs).2 := by
  unfold withNext
  split
  · exact Or.inr rfl
  · next d hd => exact reads_putNext h hd

theorem reads_withTcp {rs : List NextRequest} (h : ∀ r ∈ rs, r.isReadOnly = true)
    (p : Packet) : p.Reads (p.withTcp rs).2 := by
  unfold withTcp
  split
  · exact Or.inr rfl
  · next d hd => exact reads_putNext h (openTcp_eq_ok.1 hd)

/-- **An operation that only reads leaves a packet as it is**, but for a layout that it finds. -/
theorem run_of_readOnly {op : Op} (h : op.isReadOnly = true) (p : Packet) :
    p.Reads (p.run op).2 := by
  cases op with
  | ask q =>
      simp only [run, ask]
      split
      · exact Or.inr rfl
      · exact Or.inl rfl
  | withIp rs => exact reads_withIp (List.all_eq_true.1 h) p
  | withNext rs => exact reads_withNext (List.all_eq_true.1 h) p
  | withTcp rs => exact reads_withTcp (List.all_eq_true.1 h) p
  | setAddress | setSrcIp | setDstIp | setSrcPort | setDstPort | updateLength | setTcpPayload =>
      cases h

/-! ## What reading keeps -/

@[simp] theorem address_located (p : Packet) : p.located.address = p.address := by
  unfold located
  split <;> rfl

/-- A layout that is found says that nothing has been changed. -/
theorem needsChecksum_located (p : Packet) : p.located.needsChecksum = p.needsChecksum := by
  cases hp : p.layout with
  | some l => rw [located_of_layout hp]
  | none =>
      cases hl : p.locate with
      | error e => rw [located_of_error hl]
      | ok l =>
          have hparse : Layout.parse p.contents = .ok l := by
            unfold locate at hl
            rw [hp] at hl
            exact Except.mapError_eq_ok.1 hl
          rw [located_of_locate hl, needsChecksum, needsChecksum, hp]
          exact (Layout.found_of_parse hparse).unmodified

namespace Reads

variable {p' : Packet}

theorem contents (h : p.Reads p') : p'.contents = p.contents := by
  rcases h with rfl | rfl
  · rfl
  · exact contents_located p

theorem address (h : p.Reads p') : p'.address = p.address := by
  rcases h with rfl | rfl
  · rfl
  · exact address_located p

theorem needsChecksum (h : p.Reads p') : p'.needsChecksum = p.needsChecksum := by
  rcases h with rfl | rfl
  · rfl
  · exact needsChecksum_located p

end Reads

end Packet

end Intercept
