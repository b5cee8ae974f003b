import Intercept.Proofs.Cells
import Intercept.Proofs.Fields
import Intercept.Proofs.Header.Next

set_option autoImplicit false

/-! # The fields behind an IP header are cells

The fields of a UDP or ICMP header do not share bytes, but those of a TCP header do: the data
offset, three reserved bits and the highest flag are one byte. Raising and lowering flags reads all
nine of them and writes all nine back. So each flag is a cell of its own: it holds what was last put
into it, be it by setting all flags or by raising or lowering those of a mask with it
(`Tcp.flag_apply`). The other fields, and each byte of the options and of the payload, are cells as
well (`Tcp.get_apply`, `Tcp.options_apply`, `Tcp.payload_apply`), and no bit changes that lies
outside the places a change is made to (`Tcp.bit_apply`). -/

namespace Intercept

/-! ## TCP -/

namespace Tcp

/-- What a change puts into a field. -/
def Edit.cell? (c : Cell) : Edit → Option Nat
  | .set c' v => Field.put? Cell.field c c' v
  | _ => none

/-- What a change puts into the flag at bit `k`. -/
def Edit.flag? (k : Nat) : Edit → Option Bool
  | .set c v => if c = .flags then some (v.testBit k) else none
  | .flag mask on => if mask.testBit k then some on else none
  | _ => none

/-- What a change puts into a byte of the options. -/
def Edit.option? (i : Nat) : Edit → Option UInt8
  | .options offset data => Bytes.put? offset data i
  | _ => none

/-- What a change puts into a byte of the payload. -/
def Edit.payload? (i : Nat) : Edit → Option UInt8
  | .payload offset data => Bytes.put? offset data i
  | _ => none

/-- What a change writes to the options or the payload fits into them, for a segment of `len` bytes
with a header of `n`. -/
def Edit.Contained (n len : Nat) : Edit → Prop
  | .set _ _ => True
  | .flag _ _ => True
  | .options offset data => offset + data.size ≤ n - minHeaderLen
  | .payload offset data => offset + data.size ≤ len - n

instance (n len : Nat) : (e : Edit) → Decidable (e.Contained n len)
  | .set _ _ => inferInstanceAs (Decidable True)
  | .flag _ _ => inferInstanceAs (Decidable True)
  | .options offset data => inferInstanceAs (Decidable (offset + data.size ≤ n - minHeaderLen))
  | .payload offset data => inferInstanceAs (Decidable (offset + data.size ≤ len - n))

/-- The place a change is made to, behind a header of `n` bytes for the payload. -/
def Edit.span (n : Nat) : Edit → Field
  | .set c _ => c.field
  | .flag _ _ => Cell.flags.field
  | .options offset data => ⟨8 * (minHeaderLen + offset), 8 * data.size⟩
  | .payload offset data => ⟨8 * (n + offset), 8 * data.size⟩

/-- A segment after changes: each field, each flag and each byte of the options and of the payload
hold what was last put there, and everything else is as it was. -/
structure Cellwise (es : List Edit) (d d' : Draft) : Prop where
  cell : ∀ c, c ≠ .flags → get c d'.segment = lastPut (Edit.cell? c) es (get c d.segment)
  flag : ∀ k < 9, (get .flags d'.segment).testBit k =
    lastPut (Edit.flag? k) es ((get .flags d.segment).testBit k)
  flags_lt : get .flags d'.segment < 2 ^ 9
  option : ∀ i, (options d'.segment).byte i =
    lastPut (Edit.option? i) es ((options d.segment).byte i)
  optionsSize : (options d'.segment).size = (options d.segment).size
  payload : ∀ i, (payload d'.segment).byte i =
    lastPut (Edit.payload? i) es ((payload d.segment).byte i)
  payloadSize : (Tcp.payload d'.segment).size = (Tcp.payload d.segment).size
  dataOffset : dataOffset d'.segment = dataOffset d.segment
  headerLen : headerLen d'.segment = headerLen d.segment
  len : d'.len = d.len
  size : d'.space.size = d.space.size
  untouched : ∀ i, (∀ e ∈ es, ¬(e.span (Tcp.headerLen d.segment)).Has i) →
    d'.space.bit i = d.space.bit i
  spare : ∀ i, d.len ≤ i → d'.space.byte i = d.space.byte i

variable {e : Edit} {es : List Edit} {b : Bytes} {n len : Nat}

theorem Cell.disjoint (c c' : Cell) (h : c ≠ c') : c.field.Disjoint c'.field := by
  cases c <;> cases c' <;> simp [Cell.field, Field.Disjoint] at h ⊢

/-! ### One change -/

/-- A change puts a whole number into a field, unless it raises or lowers some of the flags. -/
theorem get_apply {c : Cell} (hflags : c = .flags → ∀ mask on, e ≠ .flag mask on)
    (hmin : minHeaderLen ≤ headerLen b) (hb : minHeaderLen ≤ b.size) :
    get c (e.apply len b) = (e.cell? c).getD (get c b) := by
  cases e with
  | set c' v => exact Field.read_write_cell Cell.disjoint c c' v (c.within.mono hb)
  | flag mask on =>
      have hc : c ≠ .flags := fun hc => hflags hc mask on rfl
      exact Field.read_write_of_disjoint _ (c.disjoint .flags hc)
  | options offset data =>
      simp only [Edit.apply]
      split
      · exact Field.read_overwrite_of_within c.within (Nat.le_add_right ..)
      · rfl
  | payload offset data =>
      simp only [Edit.apply]
      split
      · exact Field.read_overwrite_of_within c.within (by omega)
      · rfl

/-- Of nine flags those of the mask become what is asked for, and the others stay. -/
theorem testBit_maskFlags (flags mask : Nat) (on : Bool) {k : Nat} (hk : k < 9) :
    (maskFlags flags mask on).testBit k = if mask.testBit k then on else flags.testBit k := by
  have hnine : (511 : Nat).testBit k = true := by
    rw [show 511 = 2 ^ 9 - 1 from rfl, Nat.testBit_two_pow_sub_one, decide_eq_true hk]
  have hcut : (mask % 512).testBit k = mask.testBit k := by
    rw [show 512 = 2 ^ 9 from rfl, Nat.testBit_mod_two_pow, decide_eq_true hk, Bool.true_and]
  unfold maskFlags
  cases on with
  | true =>
      rw [if_pos rfl, Nat.testBit_or]
      cases mask.testBit k <;> simp
  | false =>
      rw [if_neg (by decide), Nat.testBit_and, Nat.testBit_xor, hnine, hcut]
      cases mask.testBit k <;> simp

theorem flag_apply {k : Nat} (hk : k < 9) (e : Edit) (hmin : minHeaderLen ≤ headerLen b)
    (hb : minHeaderLen ≤ b.size) :
    (get .flags (e.apply len b)).testBit k = (e.flag? k).getD ((get .flags b).testBit k) := by
  have hwithin := (Cell.within .flags).mono hb
  -- nine bits of what is written to the flags are kept
  have hwrite : ∀ v, (get .flags (Cell.flags.field.write v b)).testBit k = v.testBit k := by
    intro v
    have hwidth : Cell.flags.field.width = 9 := rfl
    rw [get, Field.read_write_self v hwithin, Nat.testBit_mod_two_pow, hwidth, decide_eq_true hk,
      Bool.true_and]
  cases e with
  | set c v =>
      simp only [Edit.apply, Edit.flag?]
      by_cases hc : c = .flags
      · subst hc
        rw [if_pos rfl, Option.getD_some, hwrite]
      · rw [if_neg hc, Option.getD_none]
        have hother := Field.read_write_of_disjoint (b := b) v (Cell.disjoint .flags c (Ne.symm hc))
        rw [get, hother]
        rfl
  | flag mask on =>
      simp only [Edit.apply, Edit.flag?]
      rw [hwrite, testBit_maskFlags _ _ _ hk]
      split <;> rfl
  | options offset data =>
      simp only [Edit.apply]
      split
      · rw [get, Field.read_overwrite_of_within (Cell.within .flags) (Nat.le_add_right ..)]
        rfl
      · rfl
  | payload offset data =>
      simp only [Edit.apply]
      split
      · rw [get, Field.read_overwrite_of_within (Cell.within .flags) (by omega)]
        rfl
      · rfl

/-- The options of a space are those of the segment in it. -/
theorem options_apply (he : e.Contained (headerLen b) len) (hmin : minHeaderLen ≤ headerLen b)
    (hb : headerLen b ≤ b.size) (i : Nat) :
    (options (e.apply len b)).byte i = (e.option? i).getD ((options b).byte i) := by
  unfold options
  rw [e.headerLen_apply len hmin]
  cases e with
  | set c v =>
      simp only [Edit.option?, Option.getD_none]
      exact Bytes.byte_extract_congr (fun j hj _ => Field.byte_write_of_within c.within hj) i
  | flag mask on =>
      simp only [Edit.option?, Option.getD_none]
      exact Bytes.byte_extract_congr
        (fun j hj _ => Field.byte_write_of_within (Cell.within .flags) hj) i
  | options offset data =>
      have hfit : offset + data.size ≤ headerLen b - minHeaderLen := he
      rw [Edit.apply, if_pos hfit]
      exact Bytes.byte_overwrite_part hmin hb hfit i
  | payload offset data =>
      have hfit : offset + data.size ≤ len - headerLen b := he
      simp only [Edit.option?, Option.getD_none]
      refine Bytes.byte_extract_congr (fun j _ hj => ?_) i
      rw [Edit.apply, if_pos hfit, Bytes.byte_overwrite, if_neg (by omega)]

theorem payload_apply (he : e.Contained (headerLen b) len) (hmin : minHeaderLen ≤ headerLen b)
    (hlen : headerLen b ≤ len) (hb : len ≤ b.size) (i : Nat) :
    Bytes.byte ((e.apply len b).extract (headerLen b) len) i =
      (e.payload? i).getD (Bytes.byte (b.extract (headerLen b) len) i) := by
  cases e with
  | set c v =>
      simp only [Edit.payload?, Option.getD_none]
      exact Bytes.byte_extract_congr
        (fun j hj _ => Field.byte_write_of_within c.within (hmin.trans hj)) i
  | flag mask on =>
      simp only [Edit.payload?, Option.getD_none]
      exact Bytes.byte_extract_congr
        (fun j hj _ => Field.byte_write_of_within (Cell.within .flags) (hmin.trans hj)) i
  | options offset data =>
      have hfit : offset + data.size ≤ headerLen b - minHeaderLen := he
      simp only [Edit.payload?, Option.getD_none]
      refine Bytes.byte_extract_congr (fun j hj _ => ?_) i
      rw [Edit.apply, if_pos hfit, Bytes.byte_overwrite, if_neg (by omega)]
  | payload offset data =>
      have hfit : offset + data.size ≤ len - headerLen b := he
      rw [Edit.apply, if_pos hfit]
      exact Bytes.byte_overwrite_part hlen hb hfit i

/-- A change reaches no bit outside its place. -/
theorem bit_apply {i : Nat} (e : Edit) (h : ¬(e.span (headerLen b)).Has i) :
    (e.apply len b).bit i = b.bit i := by
  cases e with
  | set c v => exact Field.bit_write_of_not_has h
  | flag mask on => exact Field.bit_write_of_not_has h
  | options offset data =>
      simp only [Edit.apply]
      split
      · exact Bytes.bit_overwrite_of_not_has h
      · rfl
  | payload offset data =>
      simp only [Edit.apply]
      split
      · exact Bytes.bit_overwrite_of_not_has h
      · rfl

/-! ### Any number of changes -/

/-- Changes to a draft are changes to its space, and any change marks it. -/
theorem inTurn_edit (es : List Edit) (d : Draft) :
    inTurn edit es d =
      ⟨inTurn (Edit.apply d.len) es d.space, d.len, d.modified || !es.isEmpty⟩ := by
  induction es generalizing d with
  | nil => simp
  | cons e es ih =>
      rw [inTurn_cons, ih]
      simp [edit]

theorem keeps_inTurn (es : List Edit) {d : Draft} (hd : d.Sound) : d.Keeps (inTurn edit es d) := by
  induction es generalizing d with
  | nil => exact .refl hd
  | cons e es ih =>
      have hstep := keeps_edit e hd
      exact hstep.trans (ih hstep.sound)

section Run

variable (hmin : minHeaderLen ≤ headerLen b) (hlen : headerLen b ≤ len) (hb : len ≤ b.size)

/-- A change leaves the number of bytes and the length of the header. -/
theorem Edit.sizes_apply (e : Edit) {N : Nat} (hn : minHeaderLen ≤ n)
    (h : headerLen b = n ∧ b.size = N) :
    headerLen (e.apply len b) = n ∧ (e.apply len b).size = N :=
  ⟨(e.headerLen_apply len (h.1 ▸ hn)).trans h.1, (e.size_apply len b).trans h.2⟩

include hmin

theorem bit_applyAll {i : Nat} (hi : ∀ e ∈ es, ¬(e.span (headerLen b)).Has i) :
    (inTurn (Edit.apply len) es b).bit i = b.bit i := by
  refine inTurn_untouched (fun x => Bytes.bit x i)
    (I := fun x => headerLen x = headerLen b ∧ x.size = b.size)
    (fun x hx e _ => e.sizes_apply hmin hx) (fun x hx e he => ?_) ⟨rfl, rfl⟩
  exact bit_apply e (hx.1 ▸ hi e he)

include hlen hb

theorem get_applyAll {c : Cell} (hc : c ≠ .flags) :
    get c (inTurn (Edit.apply len) es b) = lastPut (Edit.cell? c) es (get c b) := by
  refine inTurn_cell (get c) (I := fun x => headerLen x = headerLen b ∧ x.size = b.size)
    (fun x hx e _ => e.sizes_apply hmin hx) (fun x hx e _ => ?_) ⟨rfl, rfl⟩
  exact get_apply (fun hflags => absurd hflags hc) (by omega) (by omega)

theorem flag_applyAll {k : Nat} (hk : k < 9) :
    (get .flags (inTurn (Edit.apply len) es b)).testBit k =
      lastPut (Edit.flag? k) es ((get .flags b).testBit k) := by
  refine inTurn_cell (fun x => (get .flags x).testBit k)
    (I := fun x => headerLen x = headerLen b ∧ x.size = b.size)
    (fun x hx e _ => e.sizes_apply hmin hx) (fun x hx e _ => ?_) ⟨rfl, rfl⟩
  exact flag_apply hk e (by omega) (by omega)

variable (hes : ∀ e ∈ es, e.Contained (headerLen b) len)

include hes

theorem options_applyAll (i : Nat) :
    (options (inTurn (Edit.apply len) es b)).byte i =
      lastPut (Edit.option? i) es ((options b).byte i) := by
  refine inTurn_cell (fun x => (options x).byte i)
    (I := fun x => headerLen x = headerLen b ∧ x.size = b.size)
    (fun x hx e _ => e.sizes_apply hmin hx) (fun x hx e he => ?_) ⟨rfl, rfl⟩
  exact options_apply (hx.1 ▸ hes e he) (by omega) (by omega) i

theorem payload_applyAll (i : Nat) :
    Bytes.byte ((inTurn (Edit.apply len) es b).extract (headerLen b) len) i =
      lastPut (Edit.payload? i) es (Bytes.byte (b.extract (headerLen b) len) i) := by
  refine inTurn_cell (fun x => Bytes.byte (ByteArray.extract x (headerLen b) len) i)
    (I := fun x => headerLen x = headerLen b ∧ x.size = b.size)
    (fun x hx e _ => e.sizes_apply hmin hx) (fun x hx e he => ?_) ⟨rfl, rfl⟩
  rw [← hx.1]
  exact payload_apply (hx.1 ▸ hes e he) (by omega) (by omega) (by omega) i

end Run

/-! ### The segment -/

namespace Draft.Sound

variable {d : Draft}

/-- What is read in a segment is read in the space it lies in. -/
theorem get_segment (hd : d.Sound) (c : Cell) : get c d.segment = get c d.space := by
  have hw : c.field.Within (d.len - 0) := c.within.mono (hd.header.trans hd.segment)
  rw [get, Draft.segment, Field.read_extract d.space hw, Field.shift_zero]
  rfl

theorem headerLen_segment (hd : d.Sound) : headerLen d.segment = headerLen d.space :=
  headerLen_extract_zero d.space (hd.header.trans hd.segment)

theorem dataOffset_segment (hd : d.Sound) : dataOffset d.segment = dataOffset d.space := by
  have hlen := hd.headerLen_segment
  unfold headerLen at hlen
  omega

theorem size_segment (hd : d.Sound) : d.segment.size = d.len := by
  have hspace := hd.space
  rw [Draft.segment, ByteArray.size_extract]
  omega

theorem options_segment (hd : d.Sound) : options d.segment = options d.space := by
  have hlen := hd.segment
  rw [options, hd.headerLen_segment, Draft.segment, ByteArray.extract_extract, Nat.zero_add,
    Nat.zero_add, Nat.min_eq_left hlen]
  rfl

theorem payload_segment (hd : d.Sound) :
    payload d.segment = d.space.extract (headerLen d.space) d.len := by
  rw [payload, hd.size_segment, hd.headerLen_segment, Draft.segment, ByteArray.extract_extract,
    Nat.zero_add, Nat.zero_add, Nat.min_self]

end Draft.Sound

/-- Each cell of a segment holds what was put there last. -/
theorem cellwise_inTurn {d : Draft} (hd : d.Sound)
    (hes : ∀ e ∈ es, e.Contained (headerLen d.space) d.len) :
    Cellwise es d (inTurn edit es d) := by
  have hkept := keeps_inTurn es hd
  have hd' := hkept.sound
  have hspace : (inTurn edit es d).space = inTurn (Edit.apply d.len) es d.space := by
    rw [inTurn_edit]
  have hlen : (inTurn edit es d).len = d.len := by rw [inTurn_edit]
  have hhead := hd.header
  have hseg := hd.segment
  have hsize := hd.space
  exact {
    cell := fun c hc => by
      rw [hd'.get_segment, hd.get_segment, hspace, get_applyAll hhead hseg hsize hc]
    flag := fun k hk => by
      rw [hd'.get_segment, hd.get_segment, hspace, flag_applyAll hhead hseg hsize hk]
    flags_lt := Field.read_lt Cell.flags.field _
    option := fun i => by
      rw [hd'.options_segment, hd.options_segment, hspace,
        options_applyAll hhead hseg hsize hes]
    optionsSize := by
      rw [hd'.options_segment, hd.options_segment, options, options, ByteArray.size_extract,
        ByteArray.size_extract, hkept.headerLen, hkept.size]
    payload := fun i => by
      rw [hd'.payload_segment, hd.payload_segment, hkept.headerLen, hlen, hspace,
        payload_applyAll hhead hseg hsize hes]
    payloadSize := by
      rw [hd'.payload_segment, hd.payload_segment, ByteArray.size_extract, ByteArray.size_extract,
        hkept.headerLen, hlen, hkept.size]
    dataOffset := by
      have hsame := hkept.headerLen
      unfold headerLen at hsame
      rw [hd'.dataOffset_segment, hd.dataOffset_segment]
      omega
    headerLen := by rw [hd'.headerLen_segment, hd.headerLen_segment, hkept.headerLen]
    len := hlen
    size := hkept.size
    untouched := fun i hi => by
      rw [hd.headerLen_segment] at hi
      rw [hspace, bit_applyAll hhead hi]
    spare := fun i hi => by
      rw [hspace]
      refine inTurn_untouched (fun x => Bytes.byte x i)
        (I := fun x => headerLen x = headerLen d.space ∧ x.size = d.space.size)
        (fun x hx e _ => e.sizes_apply hhead hx) (fun x hx e _ => ?_) ⟨rfl, rfl⟩
      exact e.byte_apply (by omega) (by omega) hi }

end Tcp

/-! ## UDP -/

namespace Udp

/-- What a change puts into a field. -/
def Edit.cell? (c : Cell) : Edit → Option Nat
  | .set c' v => Field.put? Cell.field c c' v

/-- The field that a change writes. -/
def Edit.span : Edit → Field
  | .set c _ => c.field

/-- A header after changes: each field holds what was last put there, and every other bit is as it
was. -/
structure Cellwise (es : List Edit) (h h' : Bytes) : Prop where
  cell : ∀ c, get c h' = lastPut (Edit.cell? c) es (get c h)
  untouched : ∀ i, (∀ e ∈ es, ¬e.span.Has i) → h'.bit i = h.bit i
  size : h'.size = h.size

theorem Cell.disjoint (c c' : Cell) (h : c ≠ c') : c.field.Disjoint c'.field := by
  cases c <;> cases c' <;> simp [Cell.field, Field.Disjoint] at h ⊢

theorem sets : Field.Sets Cell.field headerLen Edit.apply Edit.cell? Edit.span where
  disjoint := Cell.disjoint
  within := Cell.within
  set
    | .set c v => ⟨c, v, fun _ => rfl, rfl, fun _ => rfl⟩

/-- A header is found again after changes, and each of its cells holds what was put there last. -/
theorem cellwise_inTurn {b h : Bytes} (m : Bool) (es : List Edit) (hh : header b = .ok h) :
    ∃ h', header (inTurn edit es ⟨b, m⟩).bytes = .ok h' ∧ Cellwise es h h' := by
  have hbytes : (inTurn edit es ⟨b, m⟩).bytes = inTurn Edit.apply es b :=
    congrArg Draft.bytes (inTurn_change Edit.apply es ⟨b, m⟩)
  obtain ⟨hle, rfl⟩ := header_eq_ok.mp hh
  refine ⟨inTurn Edit.apply es (b.extract 0 headerLen), ?_, ?_⟩
  · rw [header_eq_ok, hbytes, ← sets.extract_applyAll, sets.size_applyAll]
    exact ⟨hle, rfl⟩
  · have hsize : headerLen ≤ (b.extract 0 headerLen).size := by
      rw [ByteArray.size_extract, headerLen]
      omega
    exact ⟨sets.read_applyAll hsize, fun i hi => sets.bit_applyAll hi, sets.size_applyAll⟩

end Udp

/-! ## ICMP -/

namespace Icmp

/-- What a change puts into a field. -/
def Edit.cell? (c : Cell) : Edit → Option Nat
  | .set c' v => Field.put? Cell.field c c' v

/-- The field that a change writes. -/
def Edit.span : Edit → Field
  | .set c _ => c.field

/-- A header after changes: each field holds what was last put there, the identifier and the
sequence number are the halves of what was last put into the rest of the header, and every other bit
is as it was. -/
structure Cellwise (es : List Edit) (h h' : Bytes) : Prop where
  cell : ∀ c, get c h' = lastPut (Edit.cell? c) es (get c h)
  identifier : identifier h' = lastPut (Edit.cell? .rest) es (get .rest h) / 2 ^ 16
  sequence : sequence h' = lastPut (Edit.cell? .rest) es (get .rest h) % 2 ^ 16
  untouched : ∀ i, (∀ e ∈ es, ¬e.span.Has i) → h'.bit i = h.bit i
  size : h'.size = h.size

theorem Cell.disjoint (c c' : Cell) (h : c ≠ c') : c.field.Disjoint c'.field := by
  cases c <;> cases c' <;> simp [Cell.field, Field.Disjoint] at h ⊢

theorem sets : Field.Sets Cell.field headerLen Edit.apply Edit.cell? Edit.span where
  disjoint := Cell.disjoint
  within := Cell.within
  set
    | .set c v => ⟨c, v, fun _ => rfl, rfl, fun _ => rfl⟩

/-- The rest of the header is the identifier followed by the sequence number. -/
theorem identifier_eq (b : Bytes) : identifier b = get .rest b / 2 ^ 16 := by
  have hhalves : get .rest b = identifier b * 2 ^ 16 + sequence b := b.readBits_add 32 16 16
  have hlow : sequence b < 2 ^ 16 := Field.read_lt sequenceField b
  omega

theorem sequence_eq (b : Bytes) : sequence b = get .rest b % 2 ^ 16 := by
  have hhalves : get .rest b = identifier b * 2 ^ 16 + sequence b := b.readBits_add 32 16 16
  have hlow : sequence b < 2 ^ 16 := Field.read_lt sequenceField b
  omega

/-- A header is found again after changes, and each of its cells holds what was put there last. -/
theorem cellwise_inTurn {f : Family} {b h : Bytes} (m : Bool) (es : List Edit)
    (hh : header f b = .ok h) :
    ∃ h', header f (inTurn edit es ⟨b, m⟩).bytes = .ok h' ∧ Cellwise es h h' := by
  have hbytes : (inTurn edit es ⟨b, m⟩).bytes = inTurn Edit.apply es b :=
    congrArg Draft.bytes (inTurn_change Edit.apply es ⟨b, m⟩)
  obtain ⟨hle, rfl⟩ := header_eq_ok.mp hh
  refine ⟨inTurn Edit.apply es (b.extract 0 headerLen), ?_, ?_⟩
  · rw [header_eq_ok, hbytes, ← sets.extract_applyAll, sets.size_applyAll]
    exact ⟨hle, rfl⟩
  · have hsize : headerLen ≤ (b.extract 0 headerLen).size := by
      rw [ByteArray.size_extract, headerLen]
      omega
    have hcell : ∀ c, get c (inTurn Edit.apply es (b.extract 0 headerLen)) =
        lastPut (Edit.cell? c) es (get c (b.extract 0 headerLen)) := sets.read_applyAll hsize
    exact {
      cell := hcell
      identifier := (identifier_eq _).trans (congrArg (· / 2 ^ 16) (hcell .rest))
      sequence := (sequence_eq _).trans (congrArg (· % 2 ^ 16) (hcell .rest))
      untouched := fun i hi => sets.bit_applyAll hi
      size := sets.size_applyAll }

end Icmp

/-! ## Any protocol -/

/-- **The fields behind an IP header are cells**: after any changes to a TCP segment, whose writes
to the options and the payload fit into them, and after any changes at all to a UDP or ICMP header,
every getter gives what was last put into its field, every flag is as it was last put, raised or
lowered, and nothing else has changed, so that the segment or the header can be opened again. -/
theorem transport_cellwise :
    (∀ (space : Bytes) (len : Nat) (m : Bool) (d : Tcp.Draft) (es : List Tcp.Edit),
      Tcp.openDraft space len m = .ok d → (∀ e ∈ es, e.Contained (Tcp.headerLen space) len) →
        let d' := inTurn Tcp.edit es d
        Tcp.Cellwise es d d' ∧ Tcp.openDraft d'.space d'.len d'.modified = .ok d' ∧
          (d'.modified = true ↔ m = true ∨ es ≠ [])) ∧
    (∀ (b h : Bytes) (m : Bool) (es : List Udp.Edit),
      Udp.header b = .ok h →
        let d := inTurn Udp.edit es ⟨b, m⟩
        (∃ h', Udp.header d.bytes = .ok h' ∧ Udp.Cellwise es h h') ∧
          (⟨b, m⟩ : Draft).Keeps Udp.headerLen d ∧ (d.modified = true ↔ m = true ∨ es ≠ [])) ∧
    (∀ (f : Icmp.Family) (b h : Bytes) (m : Bool) (es : List Icmp.Edit),
      Icmp.header f b = .ok h →
        let d := inTurn Icmp.edit es ⟨b, m⟩
        (∃ h', Icmp.header f d.bytes = .ok h' ∧ Icmp.Cellwise es h h') ∧
          (⟨b, m⟩ : Draft).Keeps Icmp.headerLen d ∧
            (d.modified = true ↔ m = true ∨ es ≠ [])) := by
  refine ⟨?_, ?_, ?_⟩
  · intro space len m d es hopen hes d'
    obtain ⟨rfl, hd⟩ := Tcp.openDraft_eq_ok.mp hopen
    have hd' : d'.Sound := (Tcp.keeps_inTurn es hd).sound
    refine ⟨Tcp.cellwise_inTurn hd hes, Tcp.openDraft_eq_ok.mpr ⟨rfl, hd'⟩, ?_⟩
    simp [d', Tcp.inTurn_edit]
  · intro b h m es hh d
    have hd : d = _ := inTurn_change Udp.Edit.apply es ⟨b, m⟩
    have hkeeps : (⟨b, m⟩ : Draft).Keeps Udp.headerLen d := by
      rw [hd]
      exact ⟨Udp.sets.size_applyAll, fun i hi => Udp.sets.byte_applyAll hi⟩
    exact ⟨Udp.cellwise_inTurn m es hh, hkeeps,
      modified_inTurn_change Udp.Edit.apply es ⟨b, m⟩⟩
  · intro f b h m es hh d
    have hd : d = _ := inTurn_change Icmp.Edit.apply es ⟨b, m⟩
    have hkeeps : (⟨b, m⟩ : Draft).Keeps Icmp.headerLen d := by
      rw [hd]
      exact ⟨Icmp.sets.size_applyAll, fun i hi => Icmp.sets.byte_applyAll hi⟩
    exact ⟨Icmp.cellwise_inTurn m es hh, hkeeps,
      modified_inTurn_change Icmp.Edit.apply es ⟨b, m⟩⟩

/-- A space that holds a segment of 27 bytes, with four bytes of options and three of payload, and
two more bytes. -/
def Tcp.spacious : Bytes :=
  ⟨#[0x30, 0x39, 0, 0x50, 0, 0, 0, 1, 0, 0, 0, 0, 0x60, 2, 0xff, 0xff, 0, 0, 0, 0, 1, 1, 1, 1,
    104, 105, 106, 7, 7]⟩

/-- All flags are raised with bits that are none, two are lowered, and the reserved bits between the
data offset and the flags are set. -/
def Tcp.crowded : List Edit :=
  [.set .flags 0xffff, .flag 0xf101 false, .set .reserved 0xff, .options 1 ⟨#[8, 9]⟩,
    .payload 2 ⟨#[10]⟩]

/-- A byte that holds the data offset, the reserved bits and a flag is written without any of them
disturbing the others; the two numbers of an echo message are the halves of one. -/
theorem transport_cellwise_crowded :
    (∃ d, Tcp.openDraft Tcp.spacious 27 false = .ok d ∧
      (∀ e ∈ Tcp.crowded, e.Contained (Tcp.headerLen Tcp.spacious) 27) ∧
      Tcp.get .reserved (inTurn Tcp.edit Tcp.crowded d).segment = 7 ∧
      (Tcp.get .flags (inTurn Tcp.edit Tcp.crowded d).segment).testBit 8 = false ∧
      (Tcp.get .flags (inTurn Tcp.edit Tcp.crowded d).segment).testBit 7 = true ∧
      (Tcp.payload (inTurn Tcp.edit Tcp.crowded d).segment).byte 2 = 10 ∧
      Tcp.dataOffset (inTurn Tcp.edit Tcp.crowded d).segment = 6) ∧
    (∃ h, Udp.header Tcp.spacious = .ok h ∧
      ∃ h', Udp.header (inTurn Udp.edit [.set .length 0x1fffe] ⟨Tcp.spacious, false⟩).bytes =
          .ok h' ∧ Udp.get .length h' = 0xfffe) ∧
    (∃ h, Icmp.header .icmpv4 Tcp.spacious = .ok h ∧
      ∃ h', Icmp.header .icmpv4
            (inTurn Icmp.edit [.set .rest 0x10002] ⟨Tcp.spacious, false⟩).bytes = .ok h' ∧
          Icmp.identifier h' = 1 ∧ Icmp.sequence h' = 2) := by
  refine ⟨?_, ?_, ?_⟩
  · have hopen : Tcp.openDraft Tcp.spacious 27 false = .ok ⟨Tcp.spacious, 27, false⟩ :=
      Tcp.openDraft_eq_ok.mpr ⟨rfl, by decide +kernel, by decide +kernel, by decide +kernel⟩
    have hes : ∀ e ∈ Tcp.crowded, e.Contained (Tcp.headerLen Tcp.spacious) 27 := by
      decide +kernel
    obtain ⟨hc, -⟩ := transport_cellwise.1 _ _ _ _ _ hopen hes
    have hoffset : Tcp.dataOffset (Tcp.Draft.segment ⟨Tcp.spacious, 27, false⟩) = 6 := by
      decide +kernel
    exact ⟨_, hopen, hes, hc.cell .reserved (by decide), hc.flag 8 (by decide),
      hc.flag 7 (by decide), hc.payload 2, hc.dataOffset.trans hoffset⟩
  · have hh : Udp.header Tcp.spacious = .ok (Tcp.spacious.extract 0 8) :=
      Udp.header_eq_ok.mpr ⟨by decide +kernel, rfl⟩
    obtain ⟨⟨h', hh', hc⟩, -⟩ := transport_cellwise.2.1 _ _ false [.set .length 0x1fffe] hh
    exact ⟨_, hh, h', hh', hc.cell .length⟩
  · have hh : Icmp.header .icmpv4 Tcp.spacious = .ok (Tcp.spacious.extract 0 8) :=
      Icmp.header_eq_ok.mpr ⟨by decide +kernel, rfl⟩
    obtain ⟨⟨h', hh', hc⟩, -⟩ := transport_cellwise.2.2 _ _ _ false [.set .rest 0x10002] hh
    exact ⟨_, hh, h', hh', hc.identifier, hc.sequence⟩

end Intercept
