import Intercept.Proofs.Header.Ip
import Mathlib.Data.List.Induction

set_option autoImplicit false

/-! # Flags beside the fragment offset

The three flags of an IPv4 header are the top of a byte whose low five bits are the top of the
fragment offset. Setting the offset keeps the flags. Putting flags clears the old ones and joins the
new bits as they come, so of eight bits the low five, which are no flags, are added to the offset
(`Ipv4.spill`).

After any sequence of the two changes the flags are therefore the last ones put
(`flags_fragmentAll`), and the offset is the last one set with the spill of all flags put since
(`fragOffset_fragmentAll`). It is the last one set exactly if those flags spilled nothing that it
had not already (`independent_iff`), as flags without other bits do (`spill_eq_zero`). -/

namespace Intercept.Ipv4

/-! ## The two changes -/

/-- Make changes to a header in turn. -/
def editAll (es : List Edit) (d : Draft) : Draft := es.foldl (fun d e => edit e d) d

/-- A change to the two bytes that hold the flags and the fragment offset. -/
inductive FragmentEdit where
  /-- Put flags, whether or not all bits are flags. -/
  | flags (bits : UInt8)
  | offset (value : UInt16)

namespace FragmentEdit

/-- The edit as one of the header. -/
def edit : FragmentEdit → Edit
  | .flags bits => .flags bits
  | .offset value => .set .fragOffset value.toNat

/-- The flags that an edit sets. -/
def flags? : FragmentEdit → Option UInt8
  | .flags bits => some bits
  | .offset _ => none

/-- The fragment offset that an edit sets. -/
def offset? : FragmentEdit → Option UInt16
  | .flags _ => none
  | .offset value => some value

end FragmentEdit

/-- The last flags put, without the bits that are no flags, or the flags there were. -/
def lastFlags (es : List FragmentEdit) (initial : Nat) : Nat :=
  (es.filterMap FragmentEdit.flags?).getLast?.elim initial fun bits => bits.toNat &&& 0xe0

/-- The last offset set, cut to its width, or the offset there was. -/
def lastOffset (es : List FragmentEdit) (initial : Nat) : Nat :=
  (es.filterMap FragmentEdit.offset?).getLast?.elim initial fun value => value.toNat % 2 ^ 13

/-- The flags put since the offset was last set, the last ones first. -/
def flagsSince (es : List FragmentEdit) : List UInt8 :=
  (es.reverse.takeWhile fun e => e.offset?.isNone).filterMap FragmentEdit.flags?

/-- What flags add to the offset: their low five bits, as its top. -/
def spill (bits : UInt8) : Nat := (bits.toNat % 2 ^ 5) <<< 8

variable {b : Bytes} {d : Draft} {n : Nat}

/-! ## The two bytes -/

/-- The byte that is shared, as flags and the top of the offset. -/
theorem byte_six (b : Bytes) :
    (b.byte 6).toNat = 32 * flagsField.read b + b.readBits 51 5 ∧ b.readBits 51 5 < 32 := by
  have hparts := b.readBits_add (8 * 6) 3 5
  rw [show 3 + 5 = 8 from rfl, b.readBits_eight] at hparts
  have hlow : b.readBits 51 5 < 32 := Field.read_lt ⟨51, 5⟩ b
  refine ⟨?_, hlow⟩
  rw [hparts, Nat.mul_comm]
  rfl

theorem flags_eq_byte (b : Bytes) : flags b = (b.byte 6).toNat &&& 0xe0 := by
  have hbyte := byte_six b
  have hlt := (b.byte 6).toNat_lt
  have hmask : ∀ x < 256, x &&& 0xe0 = 32 * (x / 32) := by decide +kernel
  rw [hmask _ hlt, flags]
  omega

theorem fragOffset_eq_bytes (b : Bytes) :
    get .fragOffset b = ((b.byte 6).toNat % 2 ^ 5) <<< 8 + (b.byte 7).toNat := by
  have hbyte := byte_six b
  have hparts := b.readBits_add 51 5 8
  have hlow : b.readBits (51 + 5) 8 = (b.byte 7).toNat := b.readBits_eight 7
  have hget : get .fragOffset b = b.readBits 51 (5 + 8) := rfl
  rw [hget, hparts, hlow, Nat.shiftLeft_eq]
  omega

/-! ## One change -/

theorem flags_put (bits : UInt8) (hb : 7 ≤ b.size) :
    flags ((Edit.flags bits).apply b) = bits.toNat &&& 0xe0 := by
  rw [flags_eq_byte, Edit.apply, Bytes.byte_put, if_pos ⟨rfl, by omega⟩, UInt8.toNat_or,
    UInt8.toNat_and, Nat.and_or_distrib_right, Nat.and_assoc]
  -- the bits that are kept of the byte are not those of the flags
  have hkept : (0x1f : UInt8).toNat &&& 0xe0 = 0 := rfl
  rw [hkept, Nat.and_zero, Nat.zero_or]

/-- Flags are joined to the offset by the bits that are no flags. -/
theorem fragOffset_put (bits : UInt8) (hb : 7 ≤ b.size) :
    get .fragOffset ((Edit.flags bits).apply b) = get .fragOffset b ||| spill bits := by
  have hlow : (b.byte 7).toNat < 2 ^ 8 := (b.byte 7).toNat_lt
  have hkept : ((b.byte 6).toNat &&& (0x1f : UInt8).toNat) % 2 ^ 5 = (b.byte 6).toNat % 2 ^ 5 := by
    rw [show (0x1f : UInt8).toNat = 2 ^ 5 - 1 from rfl, Nat.and_two_pow_sub_one_eq_mod,
      Nat.mod_mod]
  rw [fragOffset_eq_bytes, fragOffset_eq_bytes, Edit.apply, Bytes.byte_put, Bytes.byte_put,
    if_pos ⟨rfl, by omega⟩, if_neg (by omega), UInt8.toNat_or, UInt8.toNat_and,
    Nat.or_mod_two_pow, hkept, Nat.shiftLeft_add_eq_or_of_lt hlow,
    Nat.shiftLeft_add_eq_or_of_lt hlow, Nat.shiftLeft_or_distrib, Nat.or_assoc, Nat.or_assoc,
    Nat.or_comm (_ <<< 8) (b.byte 7).toNat, spill]

theorem flags_setOffset (v : Nat) (b : Bytes) :
    flags ((Edit.set .fragOffset v).apply b) = flags b :=
  congrArg (32 * ·) (Field.read_write_of_disjoint v (by decide))

theorem fragOffset_setOffset (v : Nat) (hb : minHeaderLen ≤ b.size) :
    get .fragOffset ((Edit.set .fragOffset v).apply b) = v % 2 ^ 13 := by
  refine Field.read_write_self v ?_
  have hc := Cell.within .fragOffset
  unfold Field.Within at hc ⊢
  omega

/-- Neither change reaches another byte. -/
theorem FragmentEdit.byte_apply (e : FragmentEdit) (b : Bytes) {i : Nat} (h6 : i ≠ 6)
    (h7 : i ≠ 7) : (e.edit.apply b).byte i = b.byte i := by
  cases e with
  | flags bits =>
      simp only [edit, Edit.apply]
      rw [Bytes.byte_put, if_neg fun h => h6 h.1.symm]
  | offset value =>
      refine Field.byte_write_of_outside ?_
      simp only [Cell.field]
      omega

/-! ## Any number of changes -/

@[simp] theorem editAll_append_singleton (es : List Edit) (e : Edit) (d : Draft) :
    editAll (es ++ [e]) d = edit e (editAll es d) := by
  simp only [editAll, List.foldl_append, List.foldl_cons, List.foldl_nil]

theorem size_editAll (es : List Edit) (d : Draft) :
    (editAll es d).bytes.size = d.bytes.size := by
  induction es using List.reverseRecOn with
  | nil => rfl
  | append_singleton es e ih =>
      rw [editAll_append_singleton, edit, Draft.bytes_change, Edit.size_apply, ih]

/-- The draft after changes to the flags and the offset. -/
def fragmentAll (es : List FragmentEdit) (d : Draft) : Draft :=
  editAll (es.map FragmentEdit.edit) d

theorem fragmentAll_append_singleton (es : List FragmentEdit) (e : FragmentEdit) (d : Draft) :
    (fragmentAll (es ++ [e]) d).bytes = e.edit.apply (fragmentAll es d).bytes := by
  rw [fragmentAll, List.map_append, List.map_singleton, editAll_append_singleton]
  rfl

theorem byte_fragmentAll (es : List FragmentEdit) (d : Draft) {i : Nat} (h6 : i ≠ 6)
    (h7 : i ≠ 7) : (fragmentAll es d).bytes.byte i = d.bytes.byte i := by
  induction es using List.reverseRecOn with
  | nil => rfl
  | append_singleton es e ih =>
      rw [fragmentAll_append_singleton, e.byte_apply _ h6 h7, ih]

/-- **The flags are the last ones put**, whatever was put and set before. -/
theorem flags_fragmentAll (hb : minHeaderLen ≤ d.bytes.size) (es : List FragmentEdit) :
    flags (fragmentAll es d).bytes = lastFlags es (flags d.bytes) := by
  have hmin : minHeaderLen = 20 := rfl
  induction es using List.reverseRecOn with
  | nil => rfl
  | append_singleton es e ih =>
      have hsize : (fragmentAll es d).bytes.size = d.bytes.size := size_editAll ..
      rw [fragmentAll_append_singleton]
      cases e with
      | flags bits =>
          rw [FragmentEdit.edit, flags_put bits (by omega)]
          simp [lastFlags, FragmentEdit.flags?]
      | offset value =>
          rw [FragmentEdit.edit, flags_setOffset, ih]
          simp [lastFlags, FragmentEdit.flags?]

/-- **The offset is the last one set, with what flags have spilled into it since.** -/
theorem fragOffset_fragmentAll (hb : minHeaderLen ≤ d.bytes.size) (es : List FragmentEdit) :
    get .fragOffset (fragmentAll es d).bytes =
      (flagsSince es).foldr (fun bits n => n ||| spill bits)
        (lastOffset es (get .fragOffset d.bytes)) := by
  have hmin : minHeaderLen = 20 := rfl
  induction es using List.reverseRecOn with
  | nil => rfl
  | append_singleton es e ih =>
      have hsize : (fragmentAll es d).bytes.size = d.bytes.size := size_editAll ..
      rw [fragmentAll_append_singleton]
      cases e with
      | flags bits =>
          rw [FragmentEdit.edit, fragOffset_put bits (by omega), ih]
          simp [flagsSince, lastOffset, FragmentEdit.flags?, FragmentEdit.offset?]
      | offset value =>
          rw [FragmentEdit.edit, fragOffset_setOffset _ (by omega)]
          simp [flagsSince, lastOffset, FragmentEdit.offset?]

/-! ## When the two are independent -/

/-- What is joined to a number is in the number from then on. -/
theorem or_spills (fs : List UInt8) (n : Nat) :
    n ||| fs.foldr (fun bits n => n ||| spill bits) n =
      fs.foldr (fun bits n => n ||| spill bits) n := by
  induction fs with
  | nil => exact Nat.or_self n
  | cons bits fs ih => rw [List.foldr_cons, ← Nat.or_assoc, ih]

/-- Spills leave a number as it is if each of them does. -/
theorem spills_eq_self_iff (fs : List UInt8) (n : Nat) :
    fs.foldr (fun bits n => n ||| spill bits) n = n ↔ ∀ bits ∈ fs, n ||| spill bits = n := by
  induction fs with
  | nil => simp
  | cons bits fs ih =>
      rw [List.foldr_cons, List.forall_mem_cons, ← ih]
      have hin := or_spills fs n
      generalize fs.foldr (fun bits n => n ||| spill bits) n = joined at hin ⊢
      constructor
      · intro h
        have hfs : joined = n :=
          calc
            joined = n ||| joined := hin.symm
            _ = joined ||| spill bits ||| joined := by rw [h]
            _ = joined ||| spill bits := by rw [Nat.or_comm, ← Nat.or_assoc, Nat.or_self]
            _ = n := h
        exact ⟨by rwa [hfs] at h, hfs⟩
      · rintro ⟨hbits, hfs⟩
        rw [hfs, hbits]

/-- Bits that are all flags spill nothing. -/
theorem spill_eq_zero {bits : UInt8} (h : bits.toNat % 2 ^ 5 = 0) : spill bits = 0 := by
  rw [spill, h, Nat.zero_shiftLeft]

/-- Flags and fragment offset are each as they were last put and set, and no other byte is
touched. -/
structure Independent (es : List FragmentEdit) (d : Draft) : Prop where
  flags : flags (fragmentAll es d).bytes = lastFlags es (flags d.bytes)
  fragOffset : get .fragOffset (fragmentAll es d).bytes = lastOffset es (get .fragOffset d.bytes)
  others : ∀ i, i ≠ 6 → i ≠ 7 → (fragmentAll es d).bytes.byte i = d.bytes.byte i

/-- **Flags and fragment offset are independent exactly while flags spill nothing new**: after any
changes to them, both are as they were last put and set, and no other byte has changed, if and only
if all flags put since the offset was last set had no bits beside the flags but those that the
offset has in the same place. -/
theorem independent_iff (h : validate d.bytes = .ok n) (es : List FragmentEdit) :
    Independent es d ↔
      ∀ bits ∈ flagsSince es,
        lastOffset es (get .fragOffset d.bytes) ||| spill bits =
          lastOffset es (get .fragOffset d.bytes) := by
  obtain ⟨-, -, hlen, hsize⟩ := validate_eq_ok.mp h
  have hmin : minHeaderLen ≤ d.bytes.size := hlen.trans hsize
  have hoffset := fragOffset_fragmentAll hmin es
  rw [← spills_eq_self_iff]
  constructor
  · intro hi
    rw [← hoffset, hi.fragOffset]
  · intro hs
    exact ⟨flags_fragmentAll hmin es, hoffset.trans hs,
      fun i h6 h7 => byte_fragmentAll es d h6 h7⟩

/-- The header of a packet without payload, to be changed. -/
def plain : Draft :=
  ⟨⟨#[0x45, 0, 0, 0x14, 0, 0, 0, 0, 0x40, 6, 0, 0, 10, 0, 0, 1, 10, 0, 0, 2]⟩, false⟩

/-- Setting the offset to 256 and then putting flags with the lowest bit set keeps both apart, since
the offset has that bit. -/
theorem independent_plain :
    validate plain.bytes = .ok 20 ∧ Independent [.offset 0x100, .flags 0x41] plain := by
  have hv : validate plain.bytes = .ok 20 := by decide +kernel
  refine ⟨hv, (independent_iff hv [.offset 0x100, .flags 0x41]).mpr ?_⟩
  decide +kernel

/-- Not all flags keep to themselves: the lowest bit of a byte of flags becomes bit 8 of an offset
that was set to 0. -/
theorem not_independent :
    ¬ ∀ (d : Draft) (n : Nat) (es : List FragmentEdit), validate d.bytes = .ok n →
      Independent es d := by
  intro h
  have hi := h plain 20 [.offset 0, .flags 0x41] (by decide +kernel)
  have hread : get .fragOffset (fragmentAll [.offset 0, .flags 0x41] plain).bytes = 256 := by
    decide +kernel
  have hlast : lastOffset [.offset 0, .flags 0x41] (get .fragOffset plain.bytes) = 0 := by
    decide +kernel
  have := hi.fragOffset
  omega

end Intercept.Ipv4
