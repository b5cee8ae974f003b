import Intercept.Proofs.Header.IpCells
import Intercept.Proofs.Header.NextCells

set_option autoImplicit false

/-! # Getters and setters cover a header

Every bit of a header is fixed by the kind and the length of the header or lies in a place that can
be read and written: a field, the flags, the options, or the payload of a segment. So two headers of
one kind are equal as soon as all that can be read in them is (`Ipv4.eq_of_readsAs` and the like),
and putting all that is read in one header into another makes the other equal to it. The order does
not matter, because the places are cells: each is put once (`Field.lastPut_copies`), and holds what
was put.

For a TCP segment the payload is put with its length, so that the segment takes the length of the
other wherever its own ended (`Tcp.Draft.Fits.segment_inTurn`). -/

namespace Intercept

/-! ## Fields that cover bytes -/

namespace Field

/-- Bytes are equal if fields that cover them are. -/
theorem byte_eq_of_reads {fs : List Field} {n i : Nat} {a b : Bytes}
    (hcover : ∀ j < 8 * n, ∃ f ∈ fs, f.Has j) (h : ∀ f ∈ fs, f.read a = f.read b) (hi : i < n) :
    a.byte i = b.byte i := by
  refine UInt8.toNat_inj.1 ?_
  rw [← Bytes.readBits_eight, ← Bytes.readBits_eight]
  refine read_congr (f := ⟨8 * i, 8⟩) fun j _ hj => ?_
  simp only at hj
  obtain ⟨f, hf, hin⟩ := hcover j (by omega)
  exact bit_eq_of_read (h f hf) hin

theorem eq_of_reads {fs : List Field} {n : Nat} {a b : Bytes}
    (hcover : ∀ j < 8 * n, ∃ f ∈ fs, f.Has j) (h : ∀ f ∈ fs, f.read a = f.read b)
    (ha : a.size = n) (hb : b.size = n) : a = b :=
  Bytes.ext_byte (ha.trans hb.symm) fun _ hi => byte_eq_of_reads hcover h (hb ▸ hi)

section Copies

variable {κ ε : Type} [DecidableEq κ] {field : κ → Field} {a : Bytes} {c c' : κ}

/-- A field takes whole what was read in it. -/
theorem put?_read_self : put? field c c ((field c).read a) = some ((field c).read a) := by
  rw [put?, if_pos rfl, Nat.mod_eq_of_lt (read_lt ..)]

theorem eq_read_of_put? {v : Nat} (h : put? field c c' ((field c').read a) = some v) :
    v = (field c).read a := by
  by_cases hc : c' = c
  · subst hc
    rw [put?_read_self] at h
    exact (Option.some.inj h).symm
  · rw [put?, if_neg hc] at h
    cases h

/-- When all fields are put once as they are read in a header, in any order and among changes to
other places, each field comes to hold what it holds in that header. -/
theorem lastPut_copies {cell? : κ → ε → Option Nat} {set : κ → ε} {cells : List κ}
    {rest es : List ε} (hset : ∀ c c', cell? c (set c') = put? field c c' ((field c').read a))
    (hrest : ∀ e ∈ rest, ∀ c, cell? c e = none) (hes : es.Perm (cells.map set ++ rest))
    (hc : c ∈ cells) (v : Nat) : lastPut (cell? c) es v = (field c).read a := by
  refine lastPut_eq_of_forall v ⟨set c, ?_, ?_⟩ fun e he w hw => ?_
  · exact hes.mem_iff.mpr (List.mem_append_left _ (List.mem_map_of_mem hc))
  · rw [hset, put?_read_self]
  · rcases List.mem_append.mp (hes.mem_iff.mp he) with hmem | hmem
    · obtain ⟨c', -, rfl⟩ := List.mem_map.mp hmem
      exact eq_read_of_put? ((hset c c').symm.trans hw)
    · rw [hrest e hmem c] at hw
      cases hw

theorem lastPut_copies_only {cell? : κ → ε → Option Nat} {set : κ → ε} {cells : List κ}
    {es : List ε} (hset : ∀ c c', cell? c (set c') = put? field c c' ((field c').read a))
    (hes : es.Perm (cells.map set)) (hc : c ∈ cells) (v : Nat) :
    lastPut (cell? c) es v = (field c).read a := by
  rw [← List.append_nil (cells.map set)] at hes
  exact lastPut_copies hset (fun _ he => absurd he List.not_mem_nil) hes hc v

end Copies

end Field

/-! ## IPv4 -/

namespace Ipv4

/-- All fields that may be set on their own. -/
def cells : List Cell := [.tos, .totalLen, .id, .fragOffset, .ttl, .protocol, .checksum, .src, .dst]

/-- The changes that put all that is read in a header. -/
def copies (h : Bytes) : List Edit :=
  cells.map (fun c => .set c (get c h)) ++
    [.flags (UInt8.ofNat (flags h)), .options 0 (options h)]

/-- All that can be read in two headers is the same. -/
structure ReadsAs (h h' : Bytes) : Prop where
  ihl : ihl h = ihl h'
  cell : ∀ c, get c h = get c h'
  flags : flags h = flags h'
  options : options h = options h'

variable {a b h h' : Bytes} {e : Edit} {es : List Edit}

theorem mem_cells (c : Cell) : c ∈ cells := by cases c <;> decide

theorem mem_copies (he : e ∈ copies h) :
    (∃ c, e = .set c (get c h)) ∨ e = .flags (UInt8.ofNat (flags h)) ∨
      e = .options 0 (options h) := by
  simp only [copies, List.mem_append, List.mem_map, List.mem_cons, List.not_mem_nil,
    or_false] at he
  rcases he with ⟨c, -, rfl⟩ | hflags | hoptions
  · exact Or.inl ⟨c, rfl⟩
  · exact Or.inr (Or.inl hflags)
  · exact Or.inr (Or.inr hoptions)

/-- The fields of the first twenty bytes. -/
theorem covered : ∀ i < 8 * minHeaderLen,
    ∃ f ∈ versionField :: ihlField :: flagsField :: cells.map Cell.field, f.Has i := by
  decide +kernel

theorem toNat_flags (h : Bytes) : (UInt8.ofNat (flags h)).toNat = flags h := by
  have hlt : flagsField.read h < 2 ^ 3 := Field.read_lt ..
  have hflags : flags h = 32 * flagsField.read h := rfl
  rw [UInt8.toNat_ofNat']
  omega

theorem size_options (hh : header b = .ok h) : (options h).size = h.size - minHeaderLen := by
  rw [options, ByteArray.size_extract, headerLen_of_header hh, size_of_header hh, Nat.min_self]

/-- Headers in which the same is read are equal. -/
theorem eq_of_readsAs (hh : header a = .ok h) (hh' : header b = .ok h') (hr : ReadsAs h h') :
    h = h' := by
  have hlen : headerLen h = headerLen h' := congrArg (4 * ·) hr.ihl
  have hsize : h.size = h'.size := by
    rw [size_of_header hh, size_of_header hh', ← headerLen_of_header hh,
      ← headerLen_of_header hh', hlen]
  have hversion : version h = version h' := by
    rw [version_of_header hh, version_of_header hh', (header_eq_ok.mp hh).1,
      (header_eq_ok.mp hh').1]
  have hfields : ∀ f ∈ versionField :: ihlField :: flagsField :: cells.map Cell.field,
      f.read h = f.read h' := by
    intro f hf
    simp only [List.mem_cons, List.mem_map] at hf
    rcases hf with rfl | rfl | rfl | ⟨c, -, rfl⟩
    · exact hversion
    · exact hr.ihl
    · exact Nat.eq_of_mul_eq_mul_left (by decide) hr.flags
    · exact hr.cell c
  refine Bytes.ext_byte hsize fun i hi => ?_
  by_cases hfixed : i < minHeaderLen
  · exact Field.byte_eq_of_reads covered hfields hfixed
  -- behind the first twenty bytes there is nothing but options
  · have hoption := congrArg (Bytes.byte · (i - minHeaderLen)) hr.options
    simp only [options, Bytes.byte_extract] at hoption
    have hin : i < headerLen h' := by rw [headerLen_of_header hh', ← size_of_header hh']; exact hi
    rwa [Nat.add_sub_cancel' (Nat.le_of_not_lt hfixed), hlen, if_pos hin, if_pos hin] at hoption

/-! ### Any order -/

/-- What is read in a header keeps to its place in a header of the same length. -/
theorem contained_of_mem_copies {n : Nat} (hroom : (options h).size = n - minHeaderLen)
    (he : e ∈ copies h) : e.Contained n := by
  rcases mem_copies he with ⟨c, rfl⟩ | rfl | rfl
  · trivial
  · have hflags : flags h = 32 * flagsField.read h := rfl
    rw [Edit.Contained, toNat_flags]
    omega
  · exact ((Nat.zero_add _).trans hroom).le

section Copies

variable (hes : es.Perm (copies h))

include hes

theorem lastPut_cell_copies (c : Cell) (v : Nat) : lastPut (Edit.cell? c) es v = get c h := by
  refine Field.lastPut_copies (fun _ _ => rfl) (fun e he c => ?_) hes (mem_cells c) v
  simp only [List.mem_cons, List.not_mem_nil, or_false] at he
  rcases he with rfl | rfl <;> rfl

theorem lastPut_flags_copies (v : Nat) : lastPut Edit.flags? es v = flags h := by
  have hmem : .flags (UInt8.ofNat (flags h)) ∈ es := hes.mem_iff.mpr (by simp [copies])
  refine lastPut_eq_of_forall v ⟨_, hmem, congrArg some (toNat_flags h)⟩ fun e he w hw => ?_
  rcases mem_copies (hes.mem_iff.mp he) with ⟨c, rfl⟩ | rfl | rfl
  · cases hw
  · exact (Option.some.inj hw).symm.trans (toNat_flags h)
  · cases hw

theorem lastPut_option_copies {i : Nat} (hi : i < (options h).size) (v : UInt8) :
    lastPut (Edit.option? i) es v = (options h).byte i := by
  have hmem : .options 0 (options h) ∈ es := hes.mem_iff.mpr (by simp [copies])
  refine lastPut_eq_of_forall v ⟨_, hmem, Bytes.put?_zero hi⟩ fun e he w hw => ?_
  rcases mem_copies (hes.mem_iff.mp he) with ⟨c, rfl⟩ | rfl | rfl
  · cases hw
  · cases hw
  · exact Option.some.inj (hw.symm.trans (Bytes.put?_zero hi))

/-- Putting all that is read in a header into a header of the same length makes it that header. -/
theorem header_inTurn_copies (m : Bool) (hh : header a = .ok h) (hh' : header b = .ok h')
    (hihl : ihl h = ihl h') : header (inTurn edit es ⟨b, m⟩).bytes = .ok h := by
  have hsize : h.size = h'.size := by
    rw [size_of_header hh, size_of_header hh', ← headerLen_of_header hh,
      ← headerLen_of_header hh']
    exact congrArg (4 * ·) hihl
  have hroom : (options h).size = h'.size - minHeaderLen := by rw [size_options hh, hsize]
  have hcontained : ∀ e ∈ es, e.Contained h'.size :=
    fun e he => contained_of_mem_copies hroom (hes.mem_iff.mp he)
  obtain ⟨d, hd, hcells⟩ := cellwise_inTurn m hh' hcontained
  have hreads : ReadsAs d h := by
    refine ⟨hcells.ihl.trans hihl.symm, fun c => ?_, ?_, ?_⟩
    · rw [hcells.cell c, lastPut_cell_copies hes]
    · rw [hcells.flags, lastPut_flags_copies hes]
    · have hoptions : (options d).size = (options h).size := by
        rw [hcells.optionsSize, size_options hh', hroom]
      refine Bytes.ext_byte hoptions fun i hi => ?_
      rw [hcells.option i, lastPut_option_copies hes hi]
  rw [hd, eq_of_readsAs hd hh hreads]

end Copies

end Ipv4

/-! ## Headers of a fixed length -/

namespace Ipv6

/-- All fields that may be set. -/
def cells : List Cell :=
  [.trafficClass, .flowLabel, .payloadLen, .nextHeader, .hopLimit, .src, .dst]

/-- The changes that put all that is read in a header. -/
def copies (h : Bytes) : List Edit := cells.map fun c => .set c (get c h)

variable {a b h h' : Bytes} {es : List Edit}

theorem mem_cells (c : Cell) : c ∈ cells := by cases c <;> decide

theorem covered : ∀ i < 8 * headerLen, ∃ f ∈ versionField :: cells.map Cell.field, f.Has i := by
  decide +kernel

/-- Headers in which the same is read are equal. -/
theorem eq_of_get (hh : header a = .ok h) (hh' : header b = .ok h')
    (hget : ∀ c, get c h = get c h') : h = h' := by
  have hversion : version h = version h' := by
    rw [version_of_header hh, version_of_header hh', (header_eq_ok.mp hh).1,
      (header_eq_ok.mp hh').1]
  refine Field.eq_of_reads covered (fun f hf => ?_) (size_of_header hh) (size_of_header hh')
  simp only [List.mem_cons, List.mem_map] at hf
  rcases hf with rfl | ⟨c, -, rfl⟩
  · exact hversion
  · exact hget c

theorem header_inTurn_copies (m : Bool) (hh : header a = .ok h) (hh' : header b = .ok h')
    (hes : es.Perm (copies h)) : header (inTurn edit es ⟨b, m⟩).bytes = .ok h := by
  obtain ⟨d, hd, hcells⟩ := cellwise_inTurn m es hh'
  have hget : ∀ c, get c d = get c h := fun c =>
    (hcells.cell c).trans (Field.lastPut_copies_only (fun _ _ => rfl) hes (mem_cells c) _)
  rw [hd, eq_of_get hd hh hget]

end Ipv6

namespace Udp

/-- All fields. -/
def cells : List Cell := [.srcPort, .dstPort, .length, .checksum]

/-- The changes that put all that is read in a header. -/
def copies (h : Bytes) : List Edit := cells.map fun c => .set c (get c h)

variable {a b h h' : Bytes} {es : List Edit}

theorem mem_cells (c : Cell) : c ∈ cells := by cases c <;> decide

theorem covered : ∀ i < 8 * headerLen, ∃ f ∈ cells.map Cell.field, f.Has i := by decide +kernel

theorem size_of_header (hh : header b = .ok h) : h.size = headerLen := by
  obtain ⟨hle, rfl⟩ := header_eq_ok.mp hh
  rw [ByteArray.size_extract, Nat.min_eq_left hle]
  rfl

/-- Headers in which the same is read are equal. -/
theorem eq_of_get (hh : header a = .ok h) (hh' : header b = .ok h')
    (hget : ∀ c, get c h = get c h') : h = h' := by
  refine Field.eq_of_reads covered (fun f hf => ?_) (size_of_header hh) (size_of_header hh')
  obtain ⟨c, -, rfl⟩ := List.mem_map.mp hf
  exact hget c

theorem header_inTurn_copies (m : Bool) (hh : header a = .ok h) (hh' : header b = .ok h')
    (hes : es.Perm (copies h)) : header (inTurn edit es ⟨b, m⟩).bytes = .ok h := by
  obtain ⟨d, hd, hcells⟩ := cellwise_inTurn m es hh'
  have hget : ∀ c, get c d = get c h := fun c =>
    (hcells.cell c).trans (Field.lastPut_copies_only (fun _ _ => rfl) hes (mem_cells c) _)
  rw [hd, eq_of_get hd hh hget]

end Udp

namespace Icmp

/-- All fields that may be set. -/
def cells : List Cell := [.type, .code, .checksum, .rest]

/-- The changes that put all that is read in a header. -/
def copies (h : Bytes) : List Edit := cells.map fun c => .set c (get c h)

variable {f : Family} {a b h h' : Bytes} {es : List Edit}

theorem mem_cells (c : Cell) : c ∈ cells := by cases c <;> decide

theorem covered : ∀ i < 8 * headerLen, ∃ f ∈ cells.map Cell.field, f.Has i := by decide +kernel

theorem size_of_header (hh : header f b = .ok h) : h.size = headerLen := by
  obtain ⟨hle, rfl⟩ := header_eq_ok.mp hh
  rw [ByteArray.size_extract, Nat.min_eq_left hle]
  rfl

/-- Headers in which the same is read are equal. -/
theorem eq_of_get (hh : header f a = .ok h) (hh' : header f b = .ok h')
    (hget : ∀ c, get c h = get c h') : h = h' := by
  refine Field.eq_of_reads covered (fun f hf => ?_) (size_of_header hh) (size_of_header hh')
  obtain ⟨c, -, rfl⟩ := List.mem_map.mp hf
  exact hget c

theorem header_inTurn_copies (m : Bool) (hh : header f a = .ok h) (hh' : header f b = .ok h')
    (hes : es.Perm (copies h)) : header f (inTurn edit es ⟨b, m⟩).bytes = .ok h := by
  obtain ⟨d, hd, hcells⟩ := cellwise_inTurn m es hh'
  have hget : ∀ c, get c d = get c h := fun c =>
    (hcells.cell c).trans (Field.lastPut_copies_only (fun _ _ => rfl) hes (mem_cells c) _)
  rw [hd, eq_of_get hd hh hget]

end Icmp

/-! ## TCP -/

namespace Tcp

/-- All fields that may be set. -/
def cells : List Cell :=
  [.srcPort, .dstPort, .seq, .ack, .reserved, .flags, .window, .checksum, .urgent]

/-- The requests that put all that is read in a segment. -/
def copies (s : Bytes) : List NextRequest :=
  cells.map (fun c => .edit (.tcp (.set c (get c s)))) ++
    [.edit (.tcp (.options 0 (options s))), .payload (payload s)]

/-- All that can be read in two segments is the same. -/
structure ReadsAs (s s' : Bytes) : Prop where
  dataOffset : dataOffset s = dataOffset s'
  cell : ∀ c, get c s = get c s'
  options : options s = options s'
  payload : payload s = payload s'

variable {s s' : Bytes} {r : NextRequest} {rs : List NextRequest}

theorem mem_cells (c : Cell) : c ∈ cells := by cases c <;> decide

theorem mem_copies (hr : r ∈ copies s) :
    (∃ c, r = .edit (.tcp (.set c (get c s)))) ∨ r = .edit (.tcp (.options 0 (options s))) ∨
      r = .payload (payload s) := by
  simp only [copies, List.mem_append, List.mem_map, List.mem_cons, List.not_mem_nil,
    or_false] at hr
  rcases hr with ⟨c, -, rfl⟩ | hoptions | hpayload
  · exact Or.inl ⟨c, rfl⟩
  · exact Or.inr (Or.inl hoptions)
  · exact Or.inr (Or.inr hpayload)

/-- The fields of the first twenty bytes. -/
theorem covered : ∀ i < 8 * minHeaderLen,
    ∃ f ∈ dataOffsetField :: cells.map Cell.field, f.Has i := by
  decide +kernel

theorem size_options (hlen : headerLen s ≤ s.size) :
    (options s).size = headerLen s - minHeaderLen := by
  rw [options, ByteArray.size_extract, Nat.min_eq_left hlen]

theorem size_payload (s : Bytes) : (payload s).size = s.size - headerLen s := by
  rw [payload, ByteArray.size_extract, Nat.min_self]

/-- Segments in which the same is read are equal. -/
theorem eq_of_readsAs (hlen : headerLen s ≤ s.size) (hlen' : headerLen s' ≤ s'.size)
    (hr : ReadsAs s s') : s = s' := by
  have hhead : headerLen s = headerLen s' := congrArg (4 * ·) hr.dataOffset
  have hsize : s.size = s'.size := by
    have hpayload := congrArg ByteArray.size hr.payload
    rw [size_payload, size_payload] at hpayload
    omega
  have hfields : ∀ f ∈ dataOffsetField :: cells.map Cell.field, f.read s = f.read s' := by
    intro f hf
    simp only [List.mem_cons, List.mem_map] at hf
    rcases hf with rfl | ⟨c, -, rfl⟩
    · exact hr.dataOffset
    · exact hr.cell c
  refine Bytes.ext_byte hsize fun i hi => ?_
  by_cases hfixed : i < minHeaderLen
  · exact Field.byte_eq_of_reads covered hfields hfixed
  -- behind the first twenty bytes there are options, and behind them there is payload
  · by_cases hin : i < headerLen s'
    · have hoption := congrArg (Bytes.byte · (i - minHeaderLen)) hr.options
      simp only [options, Bytes.byte_extract] at hoption
      rwa [Nat.add_sub_cancel' (Nat.le_of_not_lt hfixed), hhead, if_pos hin, if_pos hin] at hoption
    · have hpayload := congrArg (Bytes.byte · (i - headerLen s')) hr.payload
      simp only [payload, Bytes.byte_extract] at hpayload
      rwa [hhead, Nat.add_sub_cancel' (Nat.le_of_not_lt hin), if_pos (hsize ▸ hi),
        if_pos hi] at hpayload

/-! ### One request -/

/-- The change to a segment of the same length that a request asks for. -/
def edit? : NextRequest → Option Edit
  | .edit (.tcp e) => some e
  | _ => none

/-- What a request puts into a field. -/
def cell? (c : Cell) (r : NextRequest) : Option Nat := (edit? r).bind (Edit.cell? c)

/-- What a request puts into a byte of the options. -/
def option? (i : Nat) (r : NextRequest) : Option UInt8 := (edit? r).bind (Edit.option? i)

/-- The payload that a request asks for. -/
def payload? : NextRequest → Option Bytes
  | .payload p => some p
  | _ => none

/-- What a segment becomes by a request. -/
def Draft.answered (r : NextRequest) (d : Draft) : Draft :=
  match (NextDraft.answer r (.tcp d)).2 with
  | .tcp d' => d'
  | _ => d

theorem answer_tcp (r : NextRequest) (d : Draft) :
    (NextDraft.answer r (.tcp d)).2 = .tcp (d.answered r) := by
  cases r with
  | edit e => cases e <;> rfl
  | payload p =>
      simp only [Draft.answered, NextDraft.answer]
      cases setPayload p d <;> rfl
  | port e n => rfl
  | look => rfl
  | lookWhole => rfl
  | isModified => rfl
  | isModifiedWhole => rfl
  | lengths => rfl

theorem space_answered_edit (e : Edit) (d : Draft) :
    (d.answered (.edit (.tcp e))).space = e.apply d.len d.space := rfl

theorem len_answered_edit (e : Edit) (d : Draft) :
    (d.answered (.edit (.tcp e))).len = d.len := rfl

theorem answerAll_tcp (rs : List NextRequest) (d : Draft) :
    (answerAll NextDraft.answer rs (.tcp d)).2 = .tcp (inTurn Draft.answered rs d) := by
  induction rs generalizing d with
  | nil => rfl
  | cons r rs ih =>
      simp only [answerAll]
      rw [answer_tcp, ih]
      rfl

/-- A space has room for a segment, behind a header of the same length. -/
structure Draft.Fits (s : Bytes) (d : Draft) : Prop where
  sound : d.Sound
  headerLen : headerLen d.space = Tcp.headerLen s
  room : s.size ≤ d.space.size

namespace Draft.Fits

variable {d : Draft} (h : d.Fits s)

include h

theorem answered (r : NextRequest) : (d.answered r).Fits s := by
  have hkeeps : NextDraft.Keeps (.tcp d) (.tcp (d.answered r)) := by
    rw [← answer_tcp]
    exact NextDraft.keeps_answer r h.sound
  cases hkeeps with
  | tcp hkeeps => exact ⟨hkeeps.sound, hkeeps.headerLen.trans h.headerLen, hkeeps.size ▸ h.room⟩

theorem answeredAll (rs : List NextRequest) : (inTurn Draft.answered rs d).Fits s := by
  induction rs generalizing d with
  | nil => exact h
  | cons r rs ih => exact ih (h.answered r)

/-- A payload is granted if the whole segment has room. -/
theorem setPayload (hlen : Tcp.headerLen s ≤ s.size) :
    setPayload (payload s) d = .ok (d.answered (.payload (payload s))) := by
  have hroom := h.room
  have hfit : Tcp.headerLen d.space + (payload s).size ≤ d.space.size := by
    rw [h.headerLen, size_payload]
    omega
  have hgranted := setPayload_eq_ok.mpr ⟨hfit, rfl⟩
  simp only [Draft.answered, NextDraft.answer]
  rw [hgranted]

/-- A payload is written behind the header. -/
theorem byte_answered_payload (hlen : Tcp.headerLen s ≤ s.size) {i : Nat}
    (hi : i < Tcp.headerLen s) :
    (d.answered (.payload (payload s))).space.byte i = d.space.byte i := by
  have hgranted := h.setPayload hlen
  have hafter := (keeps_setPayload h.sound hgranted).sound.segment
  have hhead := (h.answered (.payload (payload s))).headerLen
  have hsame := h.headerLen
  rw [byte_setPayload hgranted, if_neg (by omega), if_neg (by omega)]

variable (hlen : Tcp.headerLen s ≤ s.size) (hr : r ∈ copies s)

include hlen hr

theorem get_answered (c : Cell) :
    get c (d.answered r).space = (cell? c r).getD (get c d.space) := by
  have hmin := h.sound.header
  have hhead := h.sound.segment
  have hspace := h.sound.space
  rcases mem_copies hr with ⟨c', rfl⟩ | rfl | rfl
  · rw [space_answered_edit, cell?, edit?, Option.bind_some]
    exact get_apply (fun _ _ _ he => nomatch he) hmin (by omega)
  · rw [space_answered_edit, cell?, edit?, Option.bind_some]
    exact get_apply (fun _ _ _ he => nomatch he) hmin (by omega)
  -- the payload lies behind the fields
  · have hc := c.within
    have hsame := h.headerLen
    unfold Field.Within at hc
    simp only [cell?, edit?, Option.bind_none, Option.getD_none]
    exact Field.read_congr_byte fun i _ hi => h.byte_answered_payload hlen (by omega)

theorem options_answered (i : Nat) :
    (options (d.answered r).space).byte i = (option? i r).getD ((options d.space).byte i) := by
  have hmin := h.sound.header
  have hhead := h.sound.segment
  have hspace := h.sound.space
  rcases mem_copies hr with ⟨c', rfl⟩ | rfl | rfl
  · have hfit : (Edit.set c' (get c' s)).Contained (Tcp.headerLen d.space) d.len := trivial
    rw [space_answered_edit, option?, edit?, Option.bind_some]
    exact options_apply hfit hmin (by omega) i
  · have hfit : (Edit.options 0 (options s)).Contained (Tcp.headerLen d.space) d.len := by
      rw [Edit.Contained, h.headerLen, size_options hlen, Nat.zero_add]
    rw [space_answered_edit, option?, edit?, Option.bind_some]
    exact options_apply hfit hmin (by omega) i
  · have hkept := (h.answered (.payload (payload s))).headerLen
    simp only [option?, edit?, Option.bind_none, Option.getD_none, options, hkept, h.headerLen]
    exact Bytes.byte_extract_congr (fun j _ hj => h.byte_answered_payload hlen hj) i

/-- The whole payload is one cell: only a request for another one puts something there. -/
theorem payload_answered :
    (d.answered r).space.extract (Tcp.headerLen s) (d.answered r).len =
      (payload? r).getD (d.space.extract (Tcp.headerLen s) d.len) := by
  have hmin := h.sound.header
  have hhead := h.sound.segment
  have hspace := h.sound.space
  have hsame := h.headerLen
  rcases mem_copies hr with ⟨c', rfl⟩ | rfl | rfl
  · simp only [space_answered_edit, len_answered_edit, payload?, Option.getD_none]
    refine Bytes.extract_congr (Edit.size_apply ..) fun i hi _ => ?_
    exact Field.byte_write_of_within c'.within (by omega)
  · have hfit : (options s).size = Tcp.headerLen s - minHeaderLen := size_options hlen
    simp only [space_answered_edit, len_answered_edit, payload?, Option.getD_none]
    refine Bytes.extract_congr (Edit.size_apply ..) fun i hi _ => ?_
    rw [Edit.apply, if_pos (by omega), Bytes.byte_overwrite, if_neg (by omega)]
  · have hgranted := h.setPayload hlen
    have hafter := (keeps_setPayload h.sound hgranted).sound.space
    have hlen' : (d.answered (.payload (payload s))).len = Tcp.headerLen s + (payload s).size := by
      have hnew := congrArg Draft.len (setPayload_eq_ok.mp hgranted).2
      rwa [hsame] at hnew
    simp only [payload?, Option.getD_some]
    refine Bytes.ext_byte (by rw [ByteArray.size_extract]; omega) fun i hi => ?_
    rw [Bytes.byte_extract, if_pos (by omega), byte_setPayload hgranted, if_pos (by omega), hsame,
      Nat.add_sub_cancel_left]

omit hr

/-! ### Any order -/

variable (hrs : rs.Perm (copies s))

include hrs

theorem get_inTurn (c : Cell) : get c (inTurn Draft.answered rs d).space = get c s := by
  have hstep : ∀ x : Draft, x.Fits s → ∀ r ∈ rs,
      get c (x.answered r).space = (cell? c r).getD (get c x.space) :=
    fun x hx r hr => hx.get_answered hlen (hrs.mem_iff.mp hr) c
  rw [inTurn_cell (fun x : Draft => get c x.space) (fun x hx r _ => Fits.answered hx r) hstep h]
  refine Field.lastPut_copies (fun _ _ => rfl) (fun r hr c => ?_) hrs (mem_cells c) _
  simp only [List.mem_cons, List.not_mem_nil, or_false] at hr
  rcases hr with rfl | rfl <;> rfl

theorem options_inTurn : options (inTurn Draft.answered rs d).space = options s := by
  have hfits := h.answeredAll rs
  have hseg := hfits.sound.segment
  have hspace := hfits.sound.space
  refine Bytes.ext_byte ?_ fun i hi => ?_
  · rw [size_options (hseg.trans hspace), size_options hlen, hfits.headerLen]
  have hstep : ∀ x : Draft, x.Fits s → ∀ r ∈ rs,
      (options (x.answered r).space).byte i = (option? i r).getD ((options x.space).byte i) :=
    fun x hx r hr => hx.options_answered hlen (hrs.mem_iff.mp hr) i
  have hput : option? i (.edit (.tcp (.options 0 (options s)))) = some ((options s).byte i) := by
    rw [option?, edit?, Option.bind_some, Edit.option?, Bytes.put?_zero hi]
  rw [inTurn_cell (fun x : Draft => (options x.space).byte i)
    (fun x hx r _ => Fits.answered hx r) hstep h]
  refine lastPut_eq_of_forall _ ⟨_, hrs.mem_iff.mpr (by simp [copies]), hput⟩ fun r hr v hv => ?_
  rcases mem_copies (hrs.mem_iff.mp hr) with ⟨c, rfl⟩ | rfl | rfl
  · cases hv
  · exact Option.some.inj (hv.symm.trans hput)
  · cases hv

theorem payload_inTurn :
    (inTurn Draft.answered rs d).space.extract (Tcp.headerLen s)
      (inTurn Draft.answered rs d).len = payload s := by
  have hstep : ∀ x : Draft, x.Fits s → ∀ r ∈ rs,
      (x.answered r).space.extract (Tcp.headerLen s) (x.answered r).len =
        (payload? r).getD (x.space.extract (Tcp.headerLen s) x.len) :=
    fun x hx r hr => hx.payload_answered hlen (hrs.mem_iff.mp hr)
  rw [inTurn_cell (fun x : Draft => x.space.extract (Tcp.headerLen s) x.len)
    (fun x hx r _ => Fits.answered hx r) hstep h]
  refine lastPut_eq_of_forall _ ⟨.payload (payload s), hrs.mem_iff.mpr (by simp [copies]), rfl⟩
    fun r hr v hv => ?_
  rcases mem_copies (hrs.mem_iff.mp hr) with ⟨c, rfl⟩ | rfl | rfl
  · cases hv
  · cases hv
  · exact (Option.some.inj hv).symm

/-- Putting all that is read in a segment into a space with room for it, behind a header of the same
length, makes the segment in the space that segment. -/
theorem segment_inTurn : (inTurn Draft.answered rs d).segment = s := by
  have hfits := h.answeredAll rs
  have hhead : Tcp.headerLen (inTurn Draft.answered rs d).segment = Tcp.headerLen s := by
    rw [hfits.sound.headerLen_segment, hfits.headerLen]
  refine eq_of_readsAs ?_ hlen ⟨?_, fun c => ?_, ?_, ?_⟩
  · rw [hfits.sound.headerLen_segment, hfits.sound.size_segment]
    exact hfits.sound.segment
  · unfold Tcp.headerLen at hhead
    omega
  · rw [hfits.sound.get_segment, h.get_inTurn hlen hrs]
  · rw [hfits.sound.options_segment, h.options_inTurn hlen hrs]
  · rw [hfits.sound.payload_segment, hfits.headerLen, h.payload_inTurn hlen hrs]

end Draft.Fits

end Tcp

/-! ## Any kind of header -/

/-- **Getters and setters cover a header**: whatever is read in a header and put into another of its
kind and length, in any order, makes the other the same; and headers in which the same is read are
the same. A TCP segment is copied whole, with its payload, into a space that has room for it. -/
theorem header_copied :
    (∀ (a b h h' : Bytes) (m : Bool) (es : List Ipv4.Edit),
      Ipv4.header a = .ok h → Ipv4.header b = .ok h' → Ipv4.ihl h = Ipv4.ihl h' →
        (es.Perm (Ipv4.copies h) → Ipv4.header (inTurn Ipv4.edit es ⟨b, m⟩).bytes = .ok h) ∧
          (Ipv4.ReadsAs h h' → h = h')) ∧
    (∀ (a b h h' : Bytes) (m : Bool) (es : List Ipv6.Edit),
      Ipv6.header a = .ok h → Ipv6.header b = .ok h' →
        (es.Perm (Ipv6.copies h) → Ipv6.header (inTurn Ipv6.edit es ⟨b, m⟩).bytes = .ok h) ∧
          ((∀ c, Ipv6.get c h = Ipv6.get c h') → h = h')) ∧
    (∀ (s b : Bytes) (n len : Nat) (m : Bool) (d : Tcp.Draft) (rs : List NextRequest),
      Tcp.validate s = .ok n → Tcp.openDraft b len m = .ok d →
      Tcp.dataOffset s = Tcp.dataOffset d.segment →
        (s.size ≤ b.size → rs.Perm (Tcp.copies s) →
          (answerAll NextDraft.answer rs (.tcp d)).2.header = .tcp s) ∧
          (Tcp.ReadsAs s d.segment → s = d.segment)) ∧
    (∀ (a b h h' : Bytes) (m : Bool) (es : List Udp.Edit),
      Udp.header a = .ok h → Udp.header b = .ok h' →
        (es.Perm (Udp.copies h) → Udp.header (inTurn Udp.edit es ⟨b, m⟩).bytes = .ok h) ∧
          ((∀ c, Udp.get c h = Udp.get c h') → h = h')) ∧
    (∀ (f : Icmp.Family) (a b h h' : Bytes) (m : Bool) (es : List Icmp.Edit),
      Icmp.header f a = .ok h → Icmp.header f b = .ok h' →
        (es.Perm (Icmp.copies h) → Icmp.header f (inTurn Icmp.edit es ⟨b, m⟩).bytes = .ok h) ∧
          ((∀ c, Icmp.get c h = Icmp.get c h') → h = h')) := by
  refine ⟨?_, ?_, ?_, ?_, ?_⟩
  · intro a b h h' m es hh hh' hihl
    exact ⟨fun hes => Ipv4.header_inTurn_copies hes m hh hh' hihl, Ipv4.eq_of_readsAs hh hh'⟩
  · intro a b h h' m es hh hh'
    exact ⟨Ipv6.header_inTurn_copies m hh hh', Ipv6.eq_of_get hh hh'⟩
  · intro s b n len m d rs hs hopen hoffset
    obtain ⟨-, -, hlen⟩ := Tcp.validate_eq_ok.mp hs
    obtain ⟨rfl, hd⟩ := Tcp.openDraft_eq_ok.mp hopen
    have hhead : Tcp.headerLen b = Tcp.headerLen s := by
      rw [← hd.headerLen_segment]
      exact congrArg (4 * ·) hoffset.symm
    constructor
    · intro hroom hrs
      rw [Tcp.answerAll_tcp]
      exact congrArg NextHeader.tcp (Tcp.Draft.Fits.segment_inTurn ⟨hd, hhead, hroom⟩ hlen hrs)
    · refine Tcp.eq_of_readsAs hlen ?_
      rw [hd.headerLen_segment, hd.size_segment]
      exact hd.segment
  · intro a b h h' m es hh hh'
    exact ⟨Udp.header_inTurn_copies m hh hh', Udp.eq_of_get hh hh'⟩
  · intro f a b h h' m es hh hh'
    exact ⟨Icmp.header_inTurn_copies m hh hh', Icmp.eq_of_get hh hh'⟩

/-- A space of forty bytes for a segment with four bytes of options. -/
def Tcp.roomy : Bytes := (Bytes.zeros 40).put 12 0x60

/-- An empty IPv4 header with four bytes of options, and two bytes behind it. -/
def Ipv4.unfilled : Bytes := (Bytes.zeros 26).put 0 0x46

/-- An empty IPv6 header. -/
def Ipv6.unfilled : Bytes := (Bytes.zeros 40).put 0 0x60

/-- Headers are filled from the last field to the first, and a segment without payload takes one. -/
theorem header_copied_reversed :
    (∃ h, Ipv4.header Ipv4.optioned = .ok h ∧
      Ipv4.header (inTurn Ipv4.edit (Ipv4.copies h).reverse ⟨Ipv4.unfilled, false⟩).bytes =
        .ok h) ∧
    (∃ h, Ipv6.header Ipv6.plain = .ok h ∧
      Ipv6.header (inTurn Ipv6.edit (Ipv6.copies h).reverse ⟨Ipv6.unfilled, false⟩).bytes =
        .ok h) ∧
    (∃ d, Tcp.openDraft Tcp.roomy 24 false = .ok d ∧
      (answerAll NextDraft.answer (Tcp.copies Tcp.spacious).reverse (.tcp d)).2.header =
        .tcp Tcp.spacious) ∧
    (∃ h h', Udp.header Tcp.spacious = .ok h ∧ Udp.header (Tcp.spacious.extract 0 9) = .ok h' ∧
      h = h') ∧
    (∃ h, Icmp.header .icmpv4 Tcp.spacious = .ok h ∧
      Icmp.header .icmpv4 (inTurn Icmp.edit (Icmp.copies h).reverse ⟨Tcp.roomy, false⟩).bytes =
        .ok h) := by
  refine ⟨?_, ?_, ?_, ?_, ?_⟩
  · have hh : Ipv4.header Ipv4.optioned = .ok (Ipv4.optioned.extract 0 24) :=
      Ipv4.header_eq_ok.mpr ⟨by decide +kernel, by decide +kernel, by decide +kernel, by rfl⟩
    have hh' : Ipv4.header Ipv4.unfilled = .ok (Ipv4.unfilled.extract 0 24) :=
      Ipv4.header_eq_ok.mpr ⟨by decide +kernel, by decide +kernel, by decide +kernel, by rfl⟩
    have hihl : Ipv4.ihl (Ipv4.optioned.extract 0 24) = Ipv4.ihl (Ipv4.unfilled.extract 0 24) := by
      decide +kernel
    exact ⟨_, hh, (header_copied.1 _ _ _ _ false _ hh hh' hihl).1 (List.reverse_perm _)⟩
  · have hh : Ipv6.header Ipv6.plain = .ok (Ipv6.plain.extract 0 40) :=
      Ipv6.header_eq_ok.mpr ⟨by decide +kernel, by decide +kernel, rfl⟩
    have hh' : Ipv6.header Ipv6.unfilled = .ok (Ipv6.unfilled.extract 0 40) :=
      Ipv6.header_eq_ok.mpr ⟨by decide +kernel, by decide +kernel, rfl⟩
    exact ⟨_, hh, (header_copied.2.1 _ _ _ _ false _ hh hh').1 (List.reverse_perm _)⟩
  · have hs : Tcp.validate Tcp.spacious = .ok 24 :=
      Tcp.validate_eq_ok.mpr ⟨by decide +kernel, by decide +kernel, by decide +kernel⟩
    have hopen : Tcp.openDraft Tcp.roomy 24 false = .ok ⟨Tcp.roomy, 24, false⟩ :=
      Tcp.openDraft_eq_ok.mpr ⟨rfl, by decide +kernel, by decide +kernel, by decide +kernel⟩
    have hoffset : Tcp.dataOffset Tcp.spacious =
        Tcp.dataOffset (Tcp.Draft.segment ⟨Tcp.roomy, 24, false⟩) := by decide +kernel
    have hroom : Tcp.spacious.size ≤ Tcp.roomy.size := by decide +kernel
    exact ⟨_, hopen, (header_copied.2.2.1 _ _ _ _ _ _ _ hs hopen hoffset).1 hroom
      (List.reverse_perm _)⟩
  · have hh : Udp.header Tcp.spacious = .ok (Tcp.spacious.extract 0 8) :=
      Udp.header_eq_ok.mpr ⟨by decide +kernel, rfl⟩
    have hh' : Udp.header (Tcp.spacious.extract 0 9) =
        .ok ((Tcp.spacious.extract 0 9).extract 0 8) :=
      Udp.header_eq_ok.mpr ⟨by decide +kernel, rfl⟩
    refine ⟨_, _, hh, hh', (header_copied.2.2.2.1 _ _ _ _ false [] hh hh').2 fun c => ?_⟩
    cases c <;> decide +kernel
  · have hh : Icmp.header .icmpv4 Tcp.spacious = .ok (Tcp.spacious.extract 0 8) :=
      Icmp.header_eq_ok.mpr ⟨by decide +kernel, rfl⟩
    have hh' : Icmp.header .icmpv4 Tcp.roomy = .ok (Tcp.roomy.extract 0 8) :=
      Icmp.header_eq_ok.mpr ⟨by decide +kernel, rfl⟩
    exact ⟨_, hh, (header_copied.2.2.2.2 _ _ _ _ _ false _ hh hh').1 (List.reverse_perm _)⟩

end Intercept
