import Intercept.Header.Request
import Intercept.Proofs.Basic

set_option autoImplicit false

/-! # What a change to a header behind the IP header keeps

A header of a fixed length is changed inside its eight bytes. A TCP segment is changed inside the
space it was opened in: no change reaches the data offset, so the header keeps its length, and the
segment always holds its header and fits the space. A payload that is replaced may move the end of
the segment either way. What lies behind the new end is then zero or was behind the old end and is
as it was; said this way (`Tcp.Draft.Keeps.behind`) the fact passes from change to change, however
the payload grows and shrinks on the way. -/

namespace Intercept

/-! ## Headers of a fixed length -/

/-- The size of the bytes and the bytes from position `n` on are the same in both drafts. -/
structure Draft.Keeps (n : Nat) (d d' : Draft) : Prop where
  size : d'.bytes.size = d.bytes.size
  behind : ∀ i, n ≤ i → d'.bytes.byte i = d.bytes.byte i

namespace Draft.Keeps

variable {n : Nat} {d d' d'' : Draft}

theorem refl (n : Nat) (d : Draft) : d.Keeps n d := ⟨rfl, fun _ _ => rfl⟩

theorem trans (h : d.Keeps n d') (h' : d'.Keeps n d'') : d.Keeps n d'' :=
  ⟨h'.size.trans h.size, fun i hi => (h'.behind i hi).trans (h.behind i hi)⟩

end Draft.Keeps

theorem Udp.Cell.within (c : Cell) : c.field.Within headerLen := by
  cases c <;> decide

theorem Icmp.Cell.within (c : Cell) : c.field.Within headerLen := by
  cases c <;> decide

theorem Udp.keeps_edit (e : Udp.Edit) (d : Draft) : d.Keeps Udp.headerLen (Udp.edit e d) := by
  cases e with
  | set c v => exact ⟨Field.size_write .., fun i hi => Field.byte_write_of_within c.within hi⟩

theorem Icmp.keeps_edit (e : Icmp.Edit) (d : Draft) : d.Keeps Icmp.headerLen (Icmp.edit e d) := by
  cases e with
  | set c v => exact ⟨Field.size_write .., fun i hi => Field.byte_write_of_within c.within hi⟩

theorem Udp.openDraft_eq_ok {b : Bytes} {m : Bool} {d : Draft} :
    Udp.openDraft b m = .ok d ↔ Udp.headerLen ≤ b.size ∧ d = ⟨b, m⟩ :=
  Except.map_enough_eq_ok

theorem Icmp.openDraft_eq_ok {f : Icmp.Family} {b : Bytes} {m : Bool} {d : Draft} :
    Icmp.openDraft f b m = .ok d ↔ Icmp.headerLen ≤ b.size ∧ d = ⟨b, m⟩ :=
  Except.map_enough_eq_ok

/-! ## TCP segments -/

namespace Tcp

theorem Cell.within (c : Cell) : c.field.Within minHeaderLen := by
  cases c <;> decide

theorem dataOffsetField_disjoint (c : Cell) : dataOffsetField.Disjoint c.field := by
  cases c <;> decide

theorem headerLen_congr {a b : Bytes} (h : a.byte 12 = b.byte 12) : headerLen a = headerLen b := by
  unfold headerLen dataOffset
  congr 1
  refine Field.read_congr_byte fun i h1 h2 => ?_
  have : i = 12 := by simp only [dataOffsetField] at h1 h2; omega
  rw [this, h]

theorem headerLen_extract_zero {n : Nat} (b : Bytes) (h : minHeaderLen ≤ n) :
    headerLen (b.extract 0 n) = headerLen b := by
  refine headerLen_congr ?_
  rw [Bytes.byte_extract, Nat.zero_add, if_pos (by simp only [minHeaderLen] at h; omega)]

/-- Whether there is a header depends on the data offset and the number of bytes. -/
theorem validate_congr {a b : Bytes} (hs : a.size = b.size) (h : a.byte 12 = b.byte 12) :
    validate a = validate b := by
  unfold validate
  rw [hs, headerLen_congr h]

theorem validate_eq_ok {b : Bytes} {n : Nat} :
    validate b = .ok n ↔ n = headerLen b ∧ minHeaderLen ≤ headerLen b ∧ headerLen b ≤ b.size := by
  unfold validate
  constructor
  · intro h
    split_ifs at h with h1 h2 h3
    cases h
    exact ⟨rfl, by omega, by omega⟩
  · rintro ⟨rfl, h1, h2⟩
    rw [if_neg (by omega), if_neg (by omega), if_neg (by omega)]

theorem Edit.size_apply (e : Edit) (len : Nat) (b : Bytes) : (e.apply len b).size = b.size := by
  cases e with
  | set c v => exact Field.size_write ..
  | flag mask on => exact Field.size_write ..
  | options offset data =>
      simp only [Edit.apply]
      split
      · exact Bytes.size_overwrite ..
      · rfl
  | payload offset data =>
      simp only [Edit.apply]
      split
      · exact Bytes.size_overwrite ..
      · rfl

/-- The data offset, and with it the header length, is never written. -/
theorem Edit.headerLen_apply (e : Edit) (len : Nat) {b : Bytes} (h : minHeaderLen ≤ headerLen b) :
    headerLen (e.apply len b) = headerLen b := by
  have hmin : minHeaderLen = 20 := rfl
  cases e with
  | set c v =>
      exact congrArg (4 * ·) (Field.read_write_of_disjoint v (dataOffsetField_disjoint c))
  | flag mask on =>
      exact congrArg (4 * ·) (Field.read_write_of_disjoint _ (dataOffsetField_disjoint .flags))
  | options offset data =>
      simp only [Edit.apply]
      split
      · exact headerLen_congr (by rw [Bytes.byte_overwrite, if_neg (by omega)])
      · rfl
  | payload offset data =>
      simp only [Edit.apply]
      split
      · exact headerLen_congr (by rw [Bytes.byte_overwrite, if_neg (by omega)])
      · rfl

/-- No byte behind the segment is written. -/
theorem Edit.byte_apply (e : Edit) {len i : Nat} {b : Bytes} (h : minHeaderLen ≤ headerLen b)
    (hlen : headerLen b ≤ len) (hi : len ≤ i) : (e.apply len b).byte i = b.byte i := by
  cases e with
  | set c v =>
      have hc := c.within
      unfold Field.Within at hc
      exact Field.byte_write_of_outside (Or.inr (by omega))
  | flag mask on =>
      have hc := Cell.within .flags
      unfold Field.Within at hc
      exact Field.byte_write_of_outside (Or.inr (by omega))
  | options offset data =>
      simp only [Edit.apply]
      split
      · rw [Bytes.byte_overwrite, if_neg (by omega)]
      · rfl
  | payload offset data =>
      simp only [Edit.apply]
      split
      · rw [Bytes.byte_overwrite, if_neg (by omega)]
      · rfl

namespace Draft

/-- The segment holds its header and lies within the space. -/
structure Sound (d : Draft) : Prop where
  header : minHeaderLen ≤ headerLen d.space
  segment : headerLen d.space ≤ d.len
  space : d.len ≤ d.space.size

/-- What a change leaves of a draft. -/
structure Keeps (d d' : Draft) : Prop where
  sound : d'.Sound
  size : d'.space.size = d.space.size
  headerLen : headerLen d'.space = headerLen d.space
  behind : ∀ i, d'.len ≤ i →
    d'.space.byte i = 0 ∨ d.len ≤ i ∧ d'.space.byte i = d.space.byte i

theorem Keeps.refl {d : Draft} (h : d.Sound) : d.Keeps d :=
  ⟨h, rfl, rfl, fun _ hi => Or.inr ⟨hi, rfl⟩⟩

theorem Keeps.trans {d d' d'' : Draft} (h : d.Keeps d') (h' : d'.Keeps d'') : d.Keeps d'' where
  sound := h'.sound
  size := h'.size.trans h.size
  headerLen := h'.headerLen.trans h.headerLen
  behind i hi := by
    rcases h'.behind i hi with h0 | ⟨hi', he'⟩
    · exact Or.inl h0
    -- behind both ends the byte is what the first change left
    · rcases h.behind i hi' with h0 | ⟨hi'', he⟩
      · exact Or.inl (he'.trans h0)
      · exact Or.inr ⟨hi'', he'.trans he⟩

end Draft

theorem openDraft_eq_ok {space : Bytes} {len : Nat} {m : Bool} {d : Draft} :
    openDraft space len m = .ok d ↔ d = ⟨space, len, m⟩ ∧ d.Sound := by
  unfold openDraft
  constructor
  · intro h
    split_ifs at h with hlen
    obtain ⟨n, hn, rfl⟩ := Except.map_eq_ok.1 h
    obtain ⟨-, h1, h2⟩ := validate_eq_ok.1 hn
    have hs : (space.extract 0 len).size = len := by
      rw [ByteArray.size_extract]
      omega
    have hh : headerLen (space.extract 0 len) = headerLen space :=
      headerLen_extract_zero space (by omega)
    refine ⟨rfl, ?_, ?_, Nat.le_of_not_lt hlen⟩
    · simpa only [hh] using h1
    · simpa only [hh, hs] using h2
  · rintro ⟨rfl, h1, h2, h3⟩
    rw [if_neg (by simpa using h3), Except.map_eq_ok]
    have hs : (space.extract 0 len).size = len := by
      rw [ByteArray.size_extract]
      simp only at h3
      omega
    have hh : headerLen (space.extract 0 len) = headerLen space :=
      headerLen_extract_zero space (Nat.le_trans h1 h2)
    exact ⟨_, validate_eq_ok.2 ⟨rfl, by rw [hh]; exact h1, by rw [hh, hs]; exact h2⟩, rfl⟩

theorem keeps_edit (e : Edit) {d : Draft} (h : d.Sound) : d.Keeps (edit e d) := by
  have hh : headerLen (edit e d).space = headerLen d.space := e.headerLen_apply d.len h.header
  have hs : (edit e d).space.size = d.space.size := e.size_apply d.len d.space
  refine ⟨⟨by rw [hh]; exact h.header, by rw [hh]; exact h.segment, by rw [hs]; exact h.space⟩,
    hs, hh, fun i hi => Or.inr ⟨hi, ?_⟩⟩
  exact e.byte_apply h.header h.segment hi

/-! ## Replacing the payload -/

theorem setPayload_eq_ok {p : Bytes} {d d' : Draft} :
    setPayload p d = .ok d' ↔
      headerLen d.space + p.size ≤ d.space.size ∧
        d' = ⟨(d.space.overwrite (headerLen d.space) p).clear (headerLen d.space + p.size) d.len,
          headerLen d.space + p.size, true⟩ := by
  simp only [setPayload]
  split
  · next h => simp only [reduceCtorEq, false_iff]; omega
  · next h =>
      simp only [Except.ok.injEq]
      exact ⟨fun hd => ⟨by omega, hd.symm⟩, fun hd => hd.2.symm⟩

/-- The bytes of the space after a payload was replaced: the header as it was, the new payload,
zeros as far as the old segment reached, and the rest as it was. -/
theorem byte_setPayload {p : Bytes} {d d' : Draft} (h : setPayload p d = .ok d') (i : Nat) :
    d'.space.byte i =
      if headerLen d.space ≤ i ∧ i < d'.len then p.byte (i - headerLen d.space)
      else if d'.len ≤ i ∧ i < d.len then 0
      else d.space.byte i := by
  obtain ⟨hfit, rfl⟩ := setPayload_eq_ok.1 h
  simp only [Bytes.byte_clear, Bytes.byte_overwrite]
  by_cases h1 : headerLen d.space ≤ i ∧ i < headerLen d.space + p.size
  · rw [if_neg (by omega), if_pos ⟨hfit, h1⟩, if_pos h1]
  · rw [if_neg h1]
    split
    · rfl
    · rw [if_neg (fun hh => h1 hh.2)]

theorem keeps_setPayload {p : Bytes} {d d' : Draft} (hd : d.Sound)
    (h : setPayload p d = .ok d') : d.Keeps d' := by
  have hmin : minHeaderLen = 20 := rfl
  have hbyte := byte_setPayload h
  obtain ⟨hfit, hd'⟩ := setPayload_eq_ok.1 h
  have hlen : d'.len = headerLen d.space + p.size := by rw [hd']
  have hsize : d'.space.size = d.space.size := by
    rw [hd']
    simp only [Bytes.size_clear, Bytes.size_overwrite]
  have hhead : headerLen d'.space = headerLen d.space := by
    refine headerLen_congr ?_
    have := hd.header
    rw [hbyte, if_neg (by omega), if_neg (by omega)]
  refine ⟨⟨by rw [hhead]; exact hd.header, by omega, by omega⟩, hsize, hhead, fun i hi => ?_⟩
  -- a byte behind the new end was given up, or was behind the old end as well
  rw [hbyte, if_neg (by omega)]
  split
  · exact Or.inl rfl
  · exact Or.inr ⟨by omega, rfl⟩

end Tcp

/-! ## Any protocol -/

namespace NextDraft

/-- A TCP segment is sound; of other headers nothing is asked. -/
def Sound : NextDraft → Prop
  | .tcp d => d.Sound
  | _ => True

/-- What is opened over bytes is the segment of a TCP packet, or a header of eight bytes. -/
theorem ofBytes_cases {t : Transport} {len : Nat} {m : Bool} {b : Bytes} {d : NextDraft}
    (h : ofBytes t len m b = .ok d) :
    (t = .tcp ∧ (⟨b, len, m⟩ : Tcp.Draft).Sound ∧ d = .tcp ⟨b, len, m⟩) ∨
      (t ≠ .tcp ∧ 8 ≤ b.size ∧ (d = .udp ⟨b, m⟩ ∨ ∃ f, d = .icmp f ⟨b, m⟩)) := by
  cases t with
  | tcp =>
      obtain ⟨x, hx, rfl⟩ := Except.map_eq_ok.1 h
      obtain ⟨rfl, hs⟩ := Tcp.openDraft_eq_ok.1 hx
      exact Or.inl ⟨rfl, hs, rfl⟩
  | udp =>
      obtain ⟨x, hx, rfl⟩ := Except.map_eq_ok.1 h
      obtain ⟨hs, rfl⟩ := Udp.openDraft_eq_ok.1 hx
      exact Or.inr ⟨by decide, hs, Or.inl rfl⟩
  | icmpv4 =>
      obtain ⟨x, hx, rfl⟩ := Except.map_eq_ok.1 h
      obtain ⟨hs, rfl⟩ := Icmp.openDraft_eq_ok.1 hx
      exact Or.inr ⟨by decide, hs, Or.inr ⟨_, rfl⟩⟩
  | icmpv6 =>
      obtain ⟨x, hx, rfl⟩ := Except.map_eq_ok.1 h
      obtain ⟨hs, rfl⟩ := Icmp.openDraft_eq_ok.1 hx
      exact Or.inr ⟨by decide, hs, Or.inr ⟨_, rfl⟩⟩

/-- What a change leaves of a draft: its protocol, and what its kind of header keeps. -/
inductive Keeps : NextDraft → NextDraft → Prop where
  | tcp {d d' : Tcp.Draft} : d.Keeps d' → Keeps (.tcp d) (.tcp d')
  | udp {d d' : Draft} : d.Keeps Udp.headerLen d' → Keeps (.udp d) (.udp d')
  | icmp {f : Icmp.Family} {d d' : Draft} :
      d.Keeps Icmp.headerLen d' → Keeps (.icmp f d) (.icmp f d')
  | unsupported (p : Nat) : Keeps (.unsupported p) (.unsupported p)

theorem Keeps.refl {d : NextDraft} (h : d.Sound) : d.Keeps d := by
  cases d with
  | tcp d => exact .tcp (.refl h)
  | udp d => exact .udp (.refl _ d)
  | icmp f d => exact .icmp (.refl _ d)
  | unsupported p => exact .unsupported p

theorem Keeps.trans {d d' d'' : NextDraft} (h : d.Keeps d') (h' : d'.Keeps d'') :
    d.Keeps d'' := by
  cases h with
  | tcp h => cases h' with | tcp h' => exact .tcp (h.trans h')
  | udp h => cases h' with | udp h' => exact .udp (h.trans h')
  | icmp h => cases h' with | icmp h' => exact .icmp (h.trans h')
  | unsupported p => exact h'

theorem Keeps.sound {d d' : NextDraft} (h : d.Keeps d') : d'.Sound := by
  cases h with
  | tcp h => exact h.sound
  | udp h => trivial
  | icmp h => trivial
  | unsupported p => trivial

theorem keeps_edit? {e : NextEdit} {d d' : NextDraft} (hd : d.Sound) (h : d.edit? e = some d') :
    d.Keeps d' := by
  -- an edit meant for another protocol is not granted
  cases e <;> cases d <;> cases h
  · exact .tcp (Tcp.keeps_edit _ hd)
  · exact .udp (Udp.keeps_edit _ _)
  · exact .icmp (Icmp.keeps_edit _ _)

theorem keeps_setPort? {e : Side} {n : UInt16} {d d' : NextDraft} (hd : d.Sound)
    (h : d.setPort? e n = some d') : d.Keeps d' := by
  cases d <;> cases h
  · exact .tcp (Tcp.keeps_edit _ hd)
  · exact .udp (Udp.keeps_edit _ _)

theorem keeps_attempt {change : NextDraft → Option NextDraft} {d : NextDraft} (hd : d.Sound)
    (h : ∀ d', change d = some d' → d.Keeps d') : d.Keeps (d.attempt change).2 := by
  unfold attempt
  split
  · exact .refl hd
  · next d' hd' => exact h d' hd'

/-- A request to replace the payload is granted by a TCP segment with room for it, and changes
nothing otherwise. -/
theorem keeps_payload (p : Bytes) {d : NextDraft} (hd : d.Sound) :
    d.Keeps (d.answer (.payload p)).2 := by
  cases d with
  | tcp t =>
      simp only [answer]
      split
      · exact .refl hd
      · next t' ht => exact .tcp (Tcp.keeps_setPayload hd ht)
  | udp d => exact .refl trivial
  | icmp f d => exact .refl trivial
  | unsupported p => exact .refl trivial

theorem keeps_answer (r : NextRequest) {d : NextDraft} (hd : d.Sound) :
    d.Keeps (d.answer r).2 := by
  cases r with
  | edit e =>
      simp only [answer]
      split
      · exact .refl hd
      · next d' h => split <;> exact keeps_edit? hd h
  | payload p => exact keeps_payload p hd
  | port e n => exact keeps_attempt hd fun d' h => keeps_setPort? hd h
  | look => cases d <;> exact .refl hd
  | lookWhole => exact .refl hd
  | isModified => cases d <;> exact .refl hd
  | isModifiedWhole => exact .refl hd
  | lengths => cases d <;> exact .refl hd

/-- Requests made in turn keep what each of them keeps. -/
theorem keeps_answerAll (rs : List NextRequest) {d : NextDraft} (hd : d.Sound) :
    d.Keeps (answerAll answer rs d).2 := by
  induction rs generalizing d with
  | nil => exact .refl hd
  | cons r rs ih =>
      have h := keeps_answer r hd
      exact h.trans (ih h.sound)

end NextDraft

/-! ## Reading -/

theorem Udp.header_eq_ok {b h : Bytes} :
    Udp.header b = .ok h ↔ 8 ≤ b.size ∧ h = b.extract 0 8 :=
  Except.map_enough_eq_ok

theorem Icmp.header_eq_ok {f : Icmp.Family} {b h : Bytes} :
    Icmp.header f b = .ok h ↔ 8 ≤ b.size ∧ h = b.extract 0 8 :=
  Except.map_enough_eq_ok

/-- What is read behind an IP header: a TCP segment, a header of eight bytes, or nothing for a
protocol whose header is not known. -/
theorem NextHeader.ofBytes_cases {n : Nat} {b : Bytes} {h : NextHeader}
    (hb : ofBytes n b = .ok h) :
    (Transport.ofNumber? n = some .tcp ∧ h = .tcp b ∧ Tcp.minHeaderLen ≤ Tcp.headerLen b ∧
      Tcp.headerLen b ≤ b.size) ∨
    (Transport.ofNumber? n ≠ some .tcp ∧ 8 ≤ b.size ∧
      (h = .udp (b.extract 0 8) ∨ ∃ f, h = .icmp f (b.extract 0 8))) ∨
    (Transport.ofNumber? n = none ∧ h = .unsupported n) := by
  unfold ofBytes at hb
  split at hb
  · next ht =>
      obtain ⟨k, hk, rfl⟩ := Except.map_eq_ok.1 hb
      obtain ⟨-, hmin, hle⟩ := Tcp.validate_eq_ok.1 hk
      exact Or.inl ⟨ht, rfl, hmin, hle⟩
  · next ht =>
      obtain ⟨x, hx, rfl⟩ := Except.map_eq_ok.1 hb
      obtain ⟨hs, rfl⟩ := Udp.header_eq_ok.1 hx
      exact Or.inr (Or.inl ⟨by rw [ht]; decide, hs, Or.inl rfl⟩)
  · next ht =>
      obtain ⟨x, hx, rfl⟩ := Except.map_eq_ok.1 hb
      obtain ⟨hs, rfl⟩ := Icmp.header_eq_ok.1 hx
      exact Or.inr (Or.inl ⟨by rw [ht]; decide, hs, Or.inr ⟨_, rfl⟩⟩)
  · next ht =>
      obtain ⟨x, hx, rfl⟩ := Except.map_eq_ok.1 hb
      obtain ⟨hs, rfl⟩ := Icmp.header_eq_ok.1 hx
      exact Or.inr (Or.inl ⟨by rw [ht]; decide, hs, Or.inr ⟨_, rfl⟩⟩)
  · next ht =>
      cases hb
      exact Or.inr (Or.inr ⟨ht, rfl⟩)

/-- The bytes hold the header of a protocol: a TCP segment has all of its header, and another header
has its eight bytes. -/
def NextHeader.Holds (t : Transport) (b : Bytes) : Prop :=
  if t = .tcp then Tcp.minHeaderLen ≤ Tcp.headerLen b ∧ Tcp.headerLen b ≤ b.size
  else 8 ≤ b.size

theorem NextHeader.exists_ofBytes {n : Nat} {b : Bytes} :
    (∃ h, ofBytes n b = .ok h) ↔ ∀ t, Transport.ofNumber? n = some t → Holds t b := by
  unfold ofBytes
  cases ht : Transport.ofNumber? n with
  | none => simp
  | some t =>
      simp only [Option.some.injEq, forall_eq']
      cases t with
      | tcp =>
          simp only [Except.map_eq_ok, Tcp.validate_eq_ok, Holds, if_true]
          exact ⟨fun ⟨_, _, h, _⟩ => h.2, fun h => ⟨_, _, ⟨rfl, h⟩, rfl⟩⟩
      | udp =>
          simp only [Except.map_eq_ok, Udp.header_eq_ok, Holds]
          exact ⟨fun ⟨_, _, h, _⟩ => h.1, fun h => ⟨_, _, ⟨h, rfl⟩, rfl⟩⟩
      | icmpv4 =>
          simp only [Except.map_eq_ok, Icmp.header_eq_ok, Holds]
          exact ⟨fun ⟨_, _, h, _⟩ => h.1, fun h => ⟨_, _, ⟨h, rfl⟩, rfl⟩⟩
      | icmpv6 =>
          simp only [Except.map_eq_ok, Icmp.header_eq_ok, Holds]
          exact ⟨fun ⟨_, _, h, _⟩ => h.1, fun h => ⟨_, _, ⟨h, rfl⟩, rfl⟩⟩

end Intercept
