import Intercept.Header.Region
import Intercept.Proofs.Header.NextCells

set_option autoImplicit false

/-! # Replacing a payload, byte by byte

The payload of a TCP segment is replaced in a region that may be longer than the segment, and what
lies behind the segment need not be zero. The new payload is granted exactly if it fits the region
behind the header. Then the bytes of the region fall into four stretches (`Region.Rewritten`): the
header stays, the payload follows it, what the segment has given up is zero, and what lies behind
the segment before and after stays as well.

A region only sees what comes of the request (`Region.step_payload`), so that a refusal leaves its
bytes, the length of the segment and the mark as they were. -/

namespace Intercept

namespace Tcp

variable {p : Bytes} {d : Draft}

theorem exists_setPayload_iff :
    (∃ d', setPayload p d = .ok d') ↔ headerLen d.space + p.size ≤ d.space.size :=
  ⟨fun ⟨_, hd'⟩ => (setPayload_eq_ok.mp hd').1, fun hfit => ⟨_, setPayload_eq_ok.mpr ⟨hfit, rfl⟩⟩⟩

/-- A payload is refused only for want of space. -/
theorem setPayload_of_lt (h : d.space.size < headerLen d.space + p.size) :
    setPayload p d = .error .tcpPayloadSpace := by
  simp only [setPayload]
  exact if_pos h

end Tcp

namespace Region

/-- **A region in which the payload of a segment was replaced**, behind a header of `t` bytes. -/
structure Rewritten (t : Nat) (p : Bytes) (r r' : Region) : Prop where
  len : r'.len = t + p.size
  size : r'.bytes.size = r.bytes.size
  header : ∀ i, i < t → r'.bytes.byte i = r.bytes.byte i
  payload : r'.bytes.extract t (t + p.size) = p
  vacated : ∀ i, t + p.size ≤ i → i < r.len → r'.bytes.byte i = 0
  behind : ∀ i, max r.len (t + p.size) ≤ i → r'.bytes.byte i = r.bytes.byte i
  modified : r'.modified = true

variable {r : Region} {d d' : Tcp.Draft} {p : Bytes}

/-- A region takes over what comes of replacing the payload, and nothing if that is refused. -/
theorem step_payload (h : Tcp.openDraft r.bytes r.len r.modified = .ok d) (p : Bytes) :
    r.step (.transport .tcp) (.next (.payload p)) =
      match Tcp.setPayload p d with
      | .error m => (.malformed m, r)
      | .ok d' => (.segmentLen d'.len, ⟨d'.space, d'.modified, d'.len⟩) := by
  have hopen : r.openNext (.transport .tcp) = some (.ok (.tcp d)) := by
    rw [openNext, NextDraft.ofBytes, h]
    rfl
  obtain ⟨rfl, -⟩ := Tcp.openDraft_eq_ok.mp h
  simp only [step, askNext, hopen, NextDraft.answer]
  cases Tcp.setPayload p ⟨r.bytes, r.len, r.modified⟩ with
  | error m => rfl
  | ok d' => rfl

/-- What replacing the payload leaves of the four stretches of a region. -/
theorem rewritten_of_setPayload (h : Tcp.openDraft r.bytes r.len r.modified = .ok d)
    (hd' : Tcp.setPayload p d = .ok d') :
    Rewritten (Tcp.headerLen d.segment) p r ⟨d'.space, d'.modified, d'.len⟩ := by
  obtain ⟨hd, hsound⟩ := Tcp.openDraft_eq_ok.mp h
  have hspace : d.space = r.bytes := by rw [hd]
  have hold : d.len = r.len := by rw [hd]
  have hbyte := Tcp.byte_setPayload hd'
  have hsize := (Tcp.keeps_setPayload hsound hd').size
  have hsegment := hsound.segment
  obtain ⟨hfit, hnew⟩ := Tcp.setPayload_eq_ok.mp hd'
  have hlen : d'.len = Tcp.headerLen d.space + p.size := by rw [hnew]
  rw [hsound.headerLen_segment]
  simp only [hspace, hold] at hbyte hsize hsegment hfit hlen ⊢
  refine {
    len := hlen
    size := hsize
    header := fun i hi => ?_
    payload := ?_
    vacated := fun i hlo hhi => ?_
    behind := fun i hi => ?_
    modified := by rw [hnew] }
  · rw [hbyte, if_neg (by omega), if_neg (by omega)]
  · have hpayload : (d'.space.extract (Tcp.headerLen r.bytes)
        (Tcp.headerLen r.bytes + p.size)).size = p.size := by
      rw [ByteArray.size_extract, hsize]
      omega
    refine Bytes.ext_byte hpayload fun i hi => ?_
    rw [Bytes.byte_extract, if_pos (by omega), hbyte, if_pos (by omega), Nat.add_sub_cancel_left]
  · rw [hbyte, if_neg (by omega), if_pos (by omega)]
  · rw [hbyte, if_neg (by omega), if_neg (by omega)]

/-- The segment can be opened again, with the same header and the payload behind it. -/
theorem openDraft_of_setPayload (h : Tcp.openDraft r.bytes r.len r.modified = .ok d)
    (hd' : Tcp.setPayload p d = .ok d') :
    Tcp.openDraft d'.space d'.len d'.modified = .ok d' ∧
      Tcp.headerLen d'.segment = Tcp.headerLen d.segment ∧ Tcp.payload d'.segment = p := by
  have hwritten := rewritten_of_setPayload h hd'
  obtain ⟨-, hsound⟩ := Tcp.openDraft_eq_ok.mp h
  have hkeeps := Tcp.keeps_setPayload hsound hd'
  have hhead : Tcp.headerLen d'.space = Tcp.headerLen d.segment :=
    hkeeps.headerLen.trans hsound.headerLen_segment.symm
  refine ⟨Tcp.openDraft_eq_ok.mpr ⟨rfl, hkeeps.sound⟩,
    hkeeps.sound.headerLen_segment.trans hhead, ?_⟩
  have hlen : d'.len = Tcp.headerLen d.segment + p.size := hwritten.len
  rw [hkeeps.sound.payload_segment, hhead, hlen]
  exact hwritten.payload

/-- **Replacing a payload writes exactly the segment.** In a region that holds a segment, whatever
lies behind it, a payload is granted exactly if it fits the region behind the header. Then the
region is rewritten as asked and the segment can be opened again, with the same header length and
with the payload. Otherwise nothing has changed. -/
theorem replacePayload_exact (h : Tcp.openDraft r.bytes r.len r.modified = .ok d) (p : Bytes) :
    let t := Tcp.headerLen d.segment
    let reply := (r.step (.transport .tcp) (.next (.payload p))).1
    let r' := (r.step (.transport .tcp) (.next (.payload p))).2
    ((∃ d', Tcp.setPayload p d = .ok d') ↔ t + p.size ≤ r.bytes.size) ∧
    (t + p.size ≤ r.bytes.size →
      reply = .segmentLen (t + p.size) ∧ Rewritten t p r r' ∧
        ∃ d', Tcp.openDraft r'.bytes r'.len r'.modified = .ok d' ∧
          Tcp.headerLen d'.segment = t ∧ Tcp.payload d'.segment = p) ∧
    (r.bytes.size < t + p.size → reply = .malformed .tcpPayloadSpace ∧ r' = r) := by
  intro t reply r'
  obtain ⟨hd, hsound⟩ := Tcp.openDraft_eq_ok.mp h
  have hspace : d.space = r.bytes := congrArg Tcp.Draft.space hd
  have ht : t = Tcp.headerLen d.space := hsound.headerLen_segment
  have hstep := step_payload h p
  have hiff : (∃ d', Tcp.setPayload p d = .ok d') ↔ t + p.size ≤ r.bytes.size := by
    rw [Tcp.exists_setPayload_iff, ht, hspace]
  refine ⟨hiff, fun hfit => ?_, fun hfull => ?_⟩
  · obtain ⟨d', hd'⟩ := hiff.mpr hfit
    rw [hd'] at hstep
    have hwritten := rewritten_of_setPayload h hd'
    have hlen : d'.len = t + p.size := hwritten.len
    simp only [reply, r', hstep, hlen] at hwritten ⊢
    exact ⟨trivial, hwritten, d', hlen ▸ openDraft_of_setPayload h hd'⟩
  · rw [Tcp.setPayload_of_lt (by rw [← ht, hspace]; exact hfull)] at hstep
    exact ⟨congrArg Prod.fst hstep, congrArg Prod.snd hstep⟩

/-- Behind a header with options, a payload of three bytes is cut to one, which leaves the two bytes
behind the segment as they were, is lengthened over them, and cannot be lengthened any further. -/
theorem replacePayload_exact_spacious :
    let r : Region := ⟨Tcp.spacious, false, 27⟩
    let cut := (r.step (.transport .tcp) (.next (.payload ⟨#[120]⟩))).2
    let grown := (r.step (.transport .tcp) (.next (.payload ⟨#[1, 2, 3, 4, 5]⟩))).2
    (∃ d, Tcp.openDraft r.bytes r.len r.modified = .ok d ∧ Tcp.headerLen d.segment = 24) ∧
      cut.len = 25 ∧ cut.bytes.byte 26 = 0 ∧ cut.bytes.byte 27 = 7 ∧ cut.modified = true ∧
      grown.len = 29 ∧ grown.bytes.extract 24 29 = ⟨#[1, 2, 3, 4, 5]⟩ ∧
      (r.step (.transport .tcp) (.next (.payload ⟨#[1, 2, 3, 4, 5, 6]⟩))).2 = r := by
  intro r cut grown
  have hopen : Tcp.openDraft r.bytes r.len r.modified = .ok ⟨Tcp.spacious, 27, false⟩ :=
    Tcp.openDraft_eq_ok.mpr ⟨rfl, by decide +kernel, by decide +kernel, by decide +kernel⟩
  have ht : Tcp.headerLen (Tcp.Draft.segment ⟨Tcp.spacious, 27, false⟩) = 24 := by decide +kernel
  obtain ⟨-, hcut, -⟩ := replacePayload_exact hopen ⟨#[120]⟩
  obtain ⟨-, hgrown, -⟩ := replacePayload_exact hopen ⟨#[1, 2, 3, 4, 5]⟩
  obtain ⟨-, -, hfull⟩ := replacePayload_exact hopen ⟨#[1, 2, 3, 4, 5, 6]⟩
  rw [ht] at hcut hgrown hfull
  obtain ⟨-, hcut, -⟩ := hcut (by decide +kernel)
  obtain ⟨-, hgrown, -⟩ := hgrown (by decide +kernel)
  obtain ⟨-, hfull⟩ := hfull (by decide +kernel)
  have hspare : r.bytes.byte 27 = 7 := by decide +kernel
  exact ⟨⟨_, hopen, ht⟩, hcut.len, hcut.vacated 26 (by decide) (by decide),
    (hcut.behind 27 (by decide)).trans hspare, hcut.modified, hgrown.len, hgrown.payload, hfull⟩

end Region

end Intercept
