import Intercept.Header.Request
import Intercept.Proofs.Basic

set_option autoImplicit false

/-! # What a change to an IP header keeps

No change to an IP header reaches the version or the header length, nor any byte behind the header.
So a header that was found once is found again after any number of changes, with the same length,
and what follows it is untouched. `IpDraft.Keeps` says this of two drafts; it holds of a draft and
itself, passes from change to change, and so holds across any list of requests. -/

namespace Intercept

/-! ## IPv4 -/

namespace Ipv4

theorem Cell.within (c : Cell) : c.field.Within minHeaderLen := by
  cases c <;> decide

theorem Edit.size_apply (e : Edit) (b : Bytes) : (e.apply b).size = b.size := by
  cases e with
  | set c v => exact Field.size_write ..
  | flags bits => exact Bytes.size_put ..
  | options offset data =>
      simp only [Edit.apply]
      split
      · exact Bytes.size_overwrite ..
      · rfl

/-- The first byte, which holds the version and the header length, is never written. -/
theorem Edit.byte_zero_apply (e : Edit) (b : Bytes) : (e.apply b).byte 0 = b.byte 0 := by
  cases e with
  | set c v =>
      refine Field.byte_write_of_outside ?_
      left
      cases c <;> decide
  | flags bits =>
      simp only [Edit.apply]
      rw [Bytes.byte_put, if_neg (by omega)]
  | options offset data =>
      simp only [Edit.apply]
      split
      · rw [Bytes.byte_overwrite, if_neg (by unfold minHeaderLen; omega)]
      · rfl

theorem version_congr {a b : Bytes} (h : a.byte 0 = b.byte 0) : version a = version b := by
  refine Field.read_congr_byte fun i _ hi => ?_
  have : i = 0 := by simp only [versionField] at hi; omega
  rw [this, h]

theorem ihl_congr {a b : Bytes} (h : a.byte 0 = b.byte 0) : ihl a = ihl b := by
  refine Field.read_congr_byte fun i _ hi => ?_
  have : i = 0 := by simp only [ihlField] at hi; omega
  rw [this, h]

theorem headerLen_congr {a b : Bytes} (h : a.byte 0 = b.byte 0) : headerLen a = headerLen b :=
  congrArg (4 * ·) (ihl_congr h)

/-- No byte behind the header is written. -/
theorem Edit.byte_apply (e : Edit) {b : Bytes} {i : Nat} (h : minHeaderLen ≤ headerLen b)
    (hi : headerLen b ≤ i) : (e.apply b).byte i = b.byte i := by
  cases e with
  | set c v =>
      have hc := c.within
      unfold Field.Within at hc
      exact Field.byte_write_of_outside (Or.inr (by omega))
  | flags bits =>
      simp only [Edit.apply]
      rw [Bytes.byte_put, if_neg (by simp only [minHeaderLen] at h; omega)]
  | options offset data =>
      simp only [Edit.apply]
      split
      · rw [Bytes.byte_overwrite, if_neg (by omega)]
      · rfl

/-- Whether there is a header depends on the first byte and the number of bytes. -/
theorem validate_congr {a b : Bytes} (hs : a.size = b.size) (h : a.byte 0 = b.byte 0) :
    validate a = validate b := by
  unfold validate
  rw [hs, version_congr h, headerLen_congr h]

theorem validate_eq_ok {b : Bytes} {n : Nat} :
    validate b = .ok n ↔
      version b = 4 ∧ n = headerLen b ∧ minHeaderLen ≤ headerLen b ∧ headerLen b ≤ b.size := by
  unfold validate
  constructor
  · intro h
    split_ifs at h with h1 h2 h3 h4
    cases h
    exact ⟨by simpa using h2, rfl, by omega, by omega⟩
  · rintro ⟨h1, rfl, h2, h3⟩
    have h0 : 0 < minHeaderLen := by decide
    rw [if_neg (by omega), if_neg (by simp [h1]), if_neg (by omega), if_neg (by omega)]

end Ipv4

/-! ## IPv6 -/

namespace Ipv6

theorem versionField_disjoint (c : Cell) : versionField.Disjoint c.field := by
  cases c <;> decide

theorem Cell.within (c : Cell) : c.field.Within headerLen := by
  cases c <;> decide

theorem Edit.size_apply (e : Edit) (b : Bytes) : (e.apply b).size = b.size := by
  cases e with
  | set c v => exact Field.size_write ..

theorem Edit.version_apply (e : Edit) (b : Bytes) : version (e.apply b) = version b := by
  cases e with
  | set c v => exact Field.read_write_of_disjoint v (versionField_disjoint c)

theorem Edit.byte_apply (e : Edit) {b : Bytes} {i : Nat} (hi : headerLen ≤ i) :
    (e.apply b).byte i = b.byte i := by
  cases e with
  | set c v =>
      have hc := c.within
      unfold Field.Within at hc
      exact Field.byte_write_of_outside (Or.inr (by omega))

theorem validate_congr {a b : Bytes} (hs : a.size = b.size) (h : version a = version b) :
    validate a = validate b := by
  unfold validate
  rw [hs, h]

theorem validate_eq_ok {b : Bytes} {n : Nat} :
    validate b = .ok n ↔ version b = 6 ∧ n = headerLen ∧ headerLen ≤ b.size := by
  unfold validate
  constructor
  · intro h
    split_ifs at h with h1 h2
    cases h
    exact ⟨by simpa using h2, rfl, by omega⟩
  · rintro ⟨h1, rfl, h2⟩
    rw [if_neg (by omega), if_neg (by simp [h1])]

end Ipv6

/-! ## Either version -/

/-- Find the header of a version at the start of the bytes and return its length. -/
def IpVersion.validate : IpVersion → Bytes → Except Malformed Nat
  | .v4 => Ipv4.validate
  | .v6 => Ipv6.validate

theorem IpVersion.validate_le {v : IpVersion} {b : Bytes} {n : Nat} (h : v.validate b = .ok n) :
    n ≤ b.size := by
  cases v with
  | v4 => obtain ⟨-, rfl, -, hn⟩ := Ipv4.validate_eq_ok.1 h; exact hn
  | v6 => obtain ⟨-, rfl, hn⟩ := Ipv6.validate_eq_ok.1 h; exact hn

theorem Ipv4.headerLen_extract_zero {n : Nat} (b : Bytes) (h : 0 < n) :
    headerLen (b.extract 0 n) = headerLen b := by
  refine headerLen_congr ?_
  rw [Bytes.byte_extract, if_pos (by omega)]

theorem IpVersion.validate_pos {v : IpVersion} {b : Bytes} {n : Nat} (h : v.validate b = .ok n) :
    20 ≤ n := by
  cases v with
  | v4 => obtain ⟨-, rfl, hn, -⟩ := Ipv4.validate_eq_ok.1 h; exact hn
  | v6 => obtain ⟨-, rfl, -⟩ := Ipv6.validate_eq_ok.1 h; decide

/-- A header that is found has its version in the first four bits. -/
theorem IpVersion.version_of_validate {v : IpVersion} {b : Bytes} {n : Nat}
    (h : v.validate b = .ok n) : Ipv4.version b = v.number := by
  cases v with
  | v4 => exact (Ipv4.validate_eq_ok.1 h).1
  | v6 => exact (Ipv6.validate_eq_ok.1 h).1

/-- A header is found as long as its version, for IPv4 its length, and enough bytes are there. -/
theorem IpVersion.validate_of_start {v : IpVersion} {a b : Bytes} {n : Nat}
    (h : v.validate b = .ok n) (hs : n ≤ a.size) (hv : Ipv4.version a = Ipv4.version b)
    (hi : Ipv4.version b = 4 → Ipv4.ihl a = Ipv4.ihl b) : v.validate a = .ok n := by
  cases v with
  | v4 =>
      obtain ⟨hb, rfl, hmin, -⟩ := Ipv4.validate_eq_ok.1 h
      have hlen : Ipv4.headerLen a = Ipv4.headerLen b := congrArg (4 * ·) (hi hb)
      rw [← hlen] at hmin hs ⊢
      exact Ipv4.validate_eq_ok.2 ⟨hv.trans hb, rfl, hmin, hs⟩
  | v6 =>
      obtain ⟨hb, rfl, -⟩ := Ipv6.validate_eq_ok.1 h
      exact Ipv6.validate_eq_ok.2 ⟨hv.trans hb, rfl, hs⟩

/-- A header is found as long as its first byte is the same and there are enough bytes. -/
theorem IpVersion.validate_of_byte_zero {v : IpVersion} {a b : Bytes} {n : Nat}
    (h : v.validate b = .ok n) (hs : n ≤ a.size) (h0 : a.byte 0 = b.byte 0) :
    v.validate a = .ok n :=
  validate_of_start h hs (Ipv4.version_congr h0) fun _ => Ipv4.ihl_congr h0

/-- The header that is found at the start of a packet is its leading part, as long as its version
says. -/
theorem IpHeader.ofBytes_eq_ok {b : Bytes} {ip : IpHeader} (h : IpHeader.ofBytes b = .ok ip) :
    ip.version.validate b = .ok ip.headerLen ∧ ip.bytes = b.extract 0 ip.headerLen := by
  unfold IpHeader.ofBytes at h
  split_ifs at h
  · obtain ⟨x, hx, rfl⟩ := Except.map_eq_ok.1 h
    obtain ⟨n, hn, rfl⟩ := Except.map_eq_ok.1 hx
    obtain ⟨-, rfl, hmin, -⟩ := Ipv4.validate_eq_ok.1 hn
    have hlen : Ipv4.headerLen (b.extract 0 (Ipv4.headerLen b)) = Ipv4.headerLen b :=
      Ipv4.headerLen_extract_zero b (by simp only [Ipv4.minHeaderLen] at hmin; omega)
    exact ⟨by rw [headerLen, hlen]; exact hn, by rw [headerLen, hlen]; rfl⟩
  · obtain ⟨x, hx, rfl⟩ := Except.map_eq_ok.1 h
    obtain ⟨n, hn, rfl⟩ := Except.map_eq_ok.1 hx
    obtain ⟨-, rfl, hsize⟩ := Ipv6.validate_eq_ok.1 hn
    have hlen : (b.extract 0 Ipv6.headerLen).size = Ipv6.headerLen := by
      rw [ByteArray.size_extract]
      omega
    exact ⟨by rw [headerLen, hlen]; exact hn, by rw [headerLen, hlen]; rfl⟩

/-- Bytes in which a header is found are read as one, with the version and length found. -/
theorem IpHeader.exists_ofBytes {v : IpVersion} {b : Bytes} {n : Nat}
    (h : v.validate b = .ok n) :
    ∃ ip, IpHeader.ofBytes b = .ok ip ∧ ip.version = v ∧ ip.headerLen = n := by
  have hsize := IpVersion.validate_le h
  have hpos := IpVersion.validate_pos h
  unfold IpHeader.ofBytes
  rw [if_neg (by omega)]
  cases v with
  | v4 =>
      obtain ⟨hv, rfl, -, -⟩ := Ipv4.validate_eq_ok.1 h
      have hheader : Ipv4.header b = .ok (b.extract 0 (Ipv4.headerLen b)) :=
        Except.map_eq_ok.2 ⟨_, h, rfl⟩
      rw [if_pos hv, hheader]
      exact ⟨_, rfl, rfl, Ipv4.headerLen_extract_zero b (by omega)⟩
  | v6 =>
      have hv : Ipv4.version b = 6 := IpVersion.version_of_validate h
      obtain ⟨-, rfl, -⟩ := Ipv6.validate_eq_ok.1 h
      have hheader : Ipv6.header b = .ok (b.extract 0 Ipv6.headerLen) :=
        Except.map_eq_ok.2 ⟨_, h, rfl⟩
      rw [if_neg (by omega), if_pos hv, hheader]
      refine ⟨_, rfl, rfl, ?_⟩
      rw [headerLen, ByteArray.size_extract]
      omega

namespace IpDraft

/-- The version of the header that a draft is open for. -/
def version : IpDraft → IpVersion
  | .v4 _ => .v4
  | .v6 _ => .v6

/-- What no request to a draft changes. -/
structure Keeps (d d' : IpDraft) : Prop where
  version : d'.version = d.version
  size : d'.draft.bytes.size = d.draft.bytes.size
  validate : d.version.validate d'.draft.bytes = d.version.validate d.draft.bytes
  behind : ∀ n, d.version.validate d.draft.bytes = .ok n →
    ∀ i, n ≤ i → d'.draft.bytes.byte i = d.draft.bytes.byte i

namespace Keeps

variable {d d' d'' : IpDraft}

theorem refl (d : IpDraft) : d.Keeps d := ⟨rfl, rfl, rfl, fun _ _ _ _ => rfl⟩

theorem trans (h : d.Keeps d') (h' : d'.Keeps d'') : d.Keeps d'' where
  version := h'.version.trans h.version
  size := h'.size.trans h.size
  validate := by
    have := h'.validate
    rw [h.version] at this
    exact this.trans h.validate
  behind n hn i hi := by
    have hb := h'.behind n (by rw [h.version, h.validate, hn]) i hi
    rw [hb, h.behind n hn i hi]

end Keeps

theorem keeps_edit? {e : IpEdit} {d d' : IpDraft} (h : d.edit? e = some d') : d.Keeps d' := by
  cases e with
  | v4 e =>
      cases d with
      | v6 d => cases h
      | v4 d =>
          cases h
          refine ⟨rfl, e.size_apply _,
            Ipv4.validate_congr (e.size_apply _) (e.byte_zero_apply _), ?_⟩
          intro n hn i hi
          obtain ⟨-, rfl, hmin, -⟩ := Ipv4.validate_eq_ok.1 hn
          exact e.byte_apply hmin hi
  | v6 e =>
      cases d with
      | v4 d => cases h
      | v6 d =>
          cases h
          refine ⟨rfl, e.size_apply _,
            Ipv6.validate_congr (e.size_apply _) (e.version_apply _), ?_⟩
          intro n hn i hi
          obtain ⟨-, rfl, -⟩ := Ipv6.validate_eq_ok.1 hn
          exact e.byte_apply hi

theorem keeps_setAddr? {e : Side} {a : IpAddr} {d d' : IpDraft} (h : d.setAddr? e a = some d') :
    d.Keeps d' := by
  cases a <;> exact keeps_edit? h

theorem keeps_answer (r : IpRequest) (d : IpDraft) : d.Keeps (d.answer r).2 := by
  cases r with
  | edit e =>
      simp only [answer]
      split
      · exact .refl d
      · next d' h => split <;> exact keeps_edit? h
  | look => exact .refl d
  | lookWhole => exact .refl d
  | isModified => exact .refl d

/-- Requests made in turn keep what each of them keeps. -/
theorem keeps_answerAll (rs : List IpRequest) (d : IpDraft) :
    d.Keeps (answerAll answer rs d).2 := by
  induction rs generalizing d with
  | nil => exact .refl d
  | cons r rs ih => exact (keeps_answer r d).trans (ih _)

theorem ofBytes_eq_ok {v : IpVersion} {m : Bool} {b : Bytes} {d : IpDraft} :
    ofBytes v m b = .ok d ↔
      (∃ n, v.validate b = .ok n) ∧ d.version = v ∧ d.draft = ⟨b, m⟩ := by
  cases v with
  | v4 =>
      simp only [ofBytes, Ipv4.openDraft, Except.map_eq_ok]
      constructor
      · rintro ⟨x, ⟨n, hn, rfl⟩, rfl⟩
        exact ⟨⟨n, hn⟩, rfl, rfl⟩
      · rintro ⟨⟨n, hn⟩, hv, hd⟩
        cases d with
        | v4 x => exact ⟨x, ⟨n, hn, hd.symm⟩, rfl⟩
        | v6 x => cases hv
  | v6 =>
      simp only [ofBytes, Ipv6.openDraft, Except.map_eq_ok]
      constructor
      · rintro ⟨x, ⟨n, hn, rfl⟩, rfl⟩
        exact ⟨⟨n, hn⟩, rfl, rfl⟩
      · rintro ⟨⟨n, hn⟩, hv, hd⟩
        cases d with
        | v4 x => cases hv
        | v6 x => exact ⟨x, ⟨n, hn, hd.symm⟩, rfl⟩

end IpDraft

end Intercept
