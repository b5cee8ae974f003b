import Intercept.Proofs.Cells
import Intercept.Proofs.Fields
import Intercept.Proofs.Header.FragmentOffset
import Intercept.Proofs.Header.Next

set_option autoImplicit false

/-! # The fields of an IP header are cells

The fields of an IP header share bytes, and some straddle them: the flags of IPv4 are the top of the
fragment offset's first byte, and the traffic class of IPv6 lies between the version and the flow
label. Still each of them is a cell of its own. A change puts a value into one field, cut to its
width, or bytes into the options, and leaves all else alone (`Ipv4.get_apply`, `Ipv4.flags_apply`,
`Ipv4.options_apply`, `Ipv6.get_apply`), so that after any number of changes every getter gives what
was put last (`Ipv4.Cellwise`, `Ipv6.Cellwise`).

Of flags it is asked that they are flags: bits that are none would end up in the fragment offset. -/

namespace Intercept

/-! ## IPv4 -/

namespace Ipv4

/-- What a change puts into a field. -/
def Edit.cell? (c : Cell) : Edit → Option Nat
  | .set c' v => Field.put? Cell.field c c' v
  | _ => none

/-- The flags that a change puts. -/
def Edit.flags? : Edit → Option Nat
  | .flags bits => some bits.toNat
  | _ => none

/-- What a change puts into a byte of the options. -/
def Edit.option? (i : Nat) : Edit → Option UInt8
  | .options offset data => Bytes.put? offset data i
  | _ => none

/-- A change keeps to its place in a header of `n` bytes: flags have no bits but those of flags, and
what is written to the options fits into them. -/
def Edit.Contained (n : Nat) : Edit → Prop
  | .set _ _ => True
  | .flags bits => bits.toNat % 2 ^ 5 = 0
  | .options offset data => offset + data.size ≤ n - minHeaderLen

instance (n : Nat) : (e : Edit) → Decidable (e.Contained n)
  | .set _ _ => inferInstanceAs (Decidable True)
  | .flags bits => inferInstanceAs (Decidable (bits.toNat % 2 ^ 5 = 0))
  | .options offset data => inferInstanceAs (Decidable (offset + data.size ≤ n - minHeaderLen))

/-- A header after changes: each field, the flags and each byte of the options hold what was last
put there, and what cannot be set is as it was. -/
structure Cellwise (es : List Edit) (h h' : Bytes) : Prop where
  cell : ∀ c, get c h' = lastPut (Edit.cell? c) es (get c h)
  flags : flags h' = lastPut Edit.flags? es (flags h)
  option : ∀ i, (options h').byte i = lastPut (Edit.option? i) es ((options h).byte i)
  optionsSize : (options h').size = (options h).size
  version : version h' = version h
  ihl : ihl h' = ihl h
  headerLen : headerLen h' = headerLen h
  size : h'.size = h.size

variable {e : Edit} {es : List Edit} {b h : Bytes} {n : Nat}

theorem Cell.disjoint (c c' : Cell) (h : c ≠ c') : c.field.Disjoint c'.field := by
  cases c <;> cases c' <;> simp [Cell.field, Field.Disjoint] at h ⊢

theorem flagsField_disjoint (c : Cell) : flagsField.Disjoint c.field := by
  cases c <;> decide

/-! ### One change -/

theorem get_apply (c : Cell) (he : e.Contained n) (hb : minHeaderLen ≤ b.size) :
    get c (e.apply b) = (e.cell? c).getD (get c b) := by
  have hmin : minHeaderLen = 20 := rfl
  cases e with
  | set c' v => exact Field.read_write_cell Cell.disjoint c c' v (c.within.mono hb)
  | flags bits =>
      by_cases hc : c = .fragOffset
      · subst hc
        rw [fragOffset_put bits (by omega), spill_eq_zero he, Nat.or_zero]
        rfl
      -- the other fields do not touch the byte of the flags
      · refine Field.read_congr_byte fun i h1 h2 => ?_
        have h6 : i ≠ 6 := by
          cases c <;> simp only [Cell.field, not_true_eq_false] at h1 h2 hc <;> omega
        rw [Edit.apply, Bytes.byte_put, if_neg fun h => h6 h.1.symm]
  | options offset data =>
      simp only [Edit.apply]
      split
      · exact Field.read_overwrite_of_within c.within (Nat.le_add_right ..)
      · rfl

theorem flags_apply (he : e.Contained n) (hb : minHeaderLen ≤ b.size) :
    flags (e.apply b) = e.flags?.getD (flags b) := by
  have hmin : minHeaderLen = 20 := rfl
  cases e with
  | set c v => exact congrArg (32 * ·) (Field.read_write_of_disjoint v (flagsField_disjoint c))
  | flags bits =>
      have hlt := bits.toNat_lt
      have hmask : ∀ x < 2 ^ 8, x % 2 ^ 5 = 0 → x &&& 0xe0 = x := by decide +kernel
      rw [flags_put bits (by omega), hmask _ hlt he]
      rfl
  | options offset data =>
      simp only [Edit.apply]
      split
      · have hf : flagsField.Within minHeaderLen := by decide
        exact congrArg (32 * ·) (Field.read_overwrite_of_within hf (Nat.le_add_right ..))
      · rfl

theorem options_apply (he : e.Contained (headerLen b)) (hmin : minHeaderLen ≤ headerLen b)
    (hb : headerLen b ≤ b.size) (i : Nat) :
    (options (e.apply b)).byte i = (e.option? i).getD ((options b).byte i) := by
  have h20 : minHeaderLen = 20 := rfl
  unfold options
  rw [headerLen_congr (e.byte_zero_apply b)]
  cases e with
  | set c v =>
      simp only [Edit.option?, Option.getD_none]
      exact Bytes.byte_extract_congr (fun j hj _ => Field.byte_write_of_within c.within hj) i
  | flags bits =>
      simp only [Edit.option?, Option.getD_none]
      refine Bytes.byte_extract_congr (fun j hj _ => ?_) i
      rw [Edit.apply, Bytes.byte_put, if_neg (by omega)]
  | options offset data =>
      have hfit : offset + data.size ≤ headerLen b - minHeaderLen := he
      rw [Edit.apply, if_pos hfit]
      exact Bytes.byte_overwrite_part hmin hb hfit i

/-! ### Any number of changes -/

theorem keeps_inTurn (es : List Edit) (d : Draft) :
    (IpDraft.v4 d).Keeps (.v4 (inTurn edit es d)) := by
  induction es generalizing d with
  | nil => exact .refl _
  | cons e es ih =>
      have hstep : (IpDraft.v4 d).Keeps (.v4 (edit e d)) := IpDraft.keeps_edit? (e := .v4 e) rfl
      exact hstep.trans (ih (edit e d))

/-- A change leaves the number of bytes and the length of the header. -/
theorem Edit.sizes_apply (e : Edit) {N : Nat} (h : headerLen b = n ∧ b.size = N) :
    headerLen (e.apply b) = n ∧ (e.apply b).size = N :=
  ⟨(headerLen_congr (e.byte_zero_apply b)).trans h.1, (e.size_apply b).trans h.2⟩

section Run

variable (hmin : minHeaderLen ≤ headerLen b) (hb : headerLen b ≤ b.size)
  (hes : ∀ e ∈ es, e.Contained (headerLen b))

include hmin hb hes

theorem get_applyAll (c : Cell) :
    get c (inTurn Edit.apply es b) = lastPut (Edit.cell? c) es (get c b) := by
  refine inTurn_cell (get c) (I := fun x => headerLen x = headerLen b ∧ x.size = b.size)
    (fun x hx e _ => e.sizes_apply hx) (fun x hx e he => ?_) ⟨rfl, rfl⟩
  exact get_apply c (hes e he) (by omega)

theorem flags_applyAll :
    flags (inTurn Edit.apply es b) = lastPut Edit.flags? es (flags b) := by
  refine inTurn_cell flags (I := fun x => headerLen x = headerLen b ∧ x.size = b.size)
    (fun x hx e _ => e.sizes_apply hx) (fun x hx e he => ?_) ⟨rfl, rfl⟩
  exact flags_apply (hes e he) (by omega)

theorem options_applyAll (i : Nat) :
    (options (inTurn Edit.apply es b)).byte i =
      lastPut (Edit.option? i) es ((options b).byte i) := by
  refine inTurn_cell (fun x => (options x).byte i)
    (I := fun x => headerLen x = headerLen b ∧ x.size = b.size)
    (fun x hx e _ => e.sizes_apply hx) (fun x hx e he => ?_) ⟨rfl, rfl⟩
  exact options_apply (hx.1 ▸ hes e he) (by omega) (by omega) i

end Run

/-! ### The header -/

theorem header_eq_ok :
    header b = .ok h ↔
      version b = 4 ∧ minHeaderLen ≤ headerLen b ∧ headerLen b ≤ b.size ∧
        h = b.extract 0 (headerLen b) := by
  simp only [header, Except.map_eq_ok, validate_eq_ok]
  constructor
  · rintro ⟨n, ⟨hv, rfl, hmin, hle⟩, rfl⟩
    exact ⟨hv, hmin, hle, rfl⟩
  · rintro ⟨hv, hmin, hle, rfl⟩
    exact ⟨_, ⟨hv, rfl, hmin, hle⟩, rfl⟩

theorem size_of_header (hh : header b = .ok h) : h.size = headerLen b := by
  obtain ⟨-, -, hle, rfl⟩ := header_eq_ok.mp hh
  rw [ByteArray.size_extract]
  omega

/-- What is read in a header is read in the bytes it is found in. -/
theorem get_of_header (hh : header b = .ok h) (c : Cell) : get c h = get c b := by
  obtain ⟨-, hmin, -, rfl⟩ := header_eq_ok.mp hh
  rw [get, Field.read_extract b (c.within.mono hmin), Field.shift_zero]
  rfl

theorem byte_of_header (hh : header b = .ok h) {i : Nat} (hi : i < headerLen b) :
    h.byte i = b.byte i := by
  obtain ⟨-, -, -, rfl⟩ := header_eq_ok.mp hh
  rw [Bytes.byte_extract, Nat.zero_add, if_pos hi]

theorem flags_of_header (hh : header b = .ok h) : flags h = flags b := by
  obtain ⟨-, hmin, -, -⟩ := header_eq_ok.mp hh
  have h20 : minHeaderLen = 20 := rfl
  rw [flags_eq_byte, flags_eq_byte, byte_of_header hh (by omega)]

theorem version_of_header (hh : header b = .ok h) : version h = version b := by
  obtain ⟨-, hmin, -, -⟩ := header_eq_ok.mp hh
  have h20 : minHeaderLen = 20 := rfl
  exact version_congr (byte_of_header hh (by omega))

theorem ihl_of_header (hh : header b = .ok h) : ihl h = ihl b := by
  obtain ⟨-, hmin, -, -⟩ := header_eq_ok.mp hh
  have h20 : minHeaderLen = 20 := rfl
  exact ihl_congr (byte_of_header hh (by omega))

theorem options_of_header (hh : header b = .ok h) : options h = options b := by
  have hlen : headerLen h = headerLen b := congrArg (4 * ·) (ihl_of_header hh)
  obtain ⟨-, -, -, rfl⟩ := header_eq_ok.mp hh
  rw [options, hlen, ByteArray.extract_extract, Nat.zero_add, Nat.zero_add, Nat.min_self]
  rfl

theorem headerLen_of_header (hh : header b = .ok h) : headerLen h = headerLen b :=
  congrArg (4 * ·) (ihl_of_header hh)

/-- A header is found again after changes, and each of its cells holds what was put there last. -/
theorem cellwise_inTurn (m : Bool) (hh : header b = .ok h) (hes : ∀ e ∈ es, e.Contained h.size) :
    ∃ h', header (inTurn edit es ⟨b, m⟩).bytes = .ok h' ∧ Cellwise es h h' := by
  have hbytes : (inTurn edit es ⟨b, m⟩).bytes = inTurn Edit.apply es b :=
    congrArg Draft.bytes (inTurn_change Edit.apply es ⟨b, m⟩)
  obtain ⟨hv, hmin, hle, -⟩ := header_eq_ok.mp hh
  rw [size_of_header hh] at hes
  have hvalid : validate (inTurn edit es ⟨b, m⟩).bytes = .ok (headerLen b) :=
    (keeps_inTurn es ⟨b, m⟩).validate.trans (validate_eq_ok.mpr ⟨hv, rfl, hmin, hle⟩)
  obtain ⟨hv', hlen', hmin', hle'⟩ := validate_eq_ok.mp hvalid
  have hihl : ihl (inTurn edit es ⟨b, m⟩).bytes = ihl b := by
    unfold headerLen at hlen'
    omega
  have hsize : (inTurn edit es ⟨b, m⟩).bytes.size = b.size := (keeps_inTurn es ⟨b, m⟩).size
  obtain ⟨h', hh'⟩ : ∃ h', header (inTurn edit es ⟨b, m⟩).bytes = .ok h' :=
    ⟨_, header_eq_ok.mpr ⟨hv', by omega, by omega, rfl⟩⟩
  refine ⟨h', hh', ?_⟩
  exact {
    cell := fun c => by
      rw [get_of_header hh', get_of_header hh, hbytes, get_applyAll hmin hle hes]
    flags := by rw [flags_of_header hh', flags_of_header hh, hbytes, flags_applyAll hmin hle hes]
    option := fun i => by
      rw [options_of_header hh', options_of_header hh, hbytes, options_applyAll hmin hle hes]
    optionsSize := by
      rw [options_of_header hh', options_of_header hh, options, options, ByteArray.size_extract,
        ByteArray.size_extract, ← hlen', hsize]
    version := by rw [version_of_header hh', version_of_header hh, hv', hv]
    ihl := by rw [ihl_of_header hh', ihl_of_header hh, hihl]
    headerLen := by rw [headerLen_of_header hh', headerLen_of_header hh, hlen']
    size := by rw [size_of_header hh', size_of_header hh, hlen'] }

end Ipv4

/-! ## IPv6 -/

namespace Ipv6

/-- What a change puts into a field. -/
def Edit.cell? (c : Cell) : Edit → Option Nat
  | .set c' v => Field.put? Cell.field c c' v

/-- The field that a change writes. -/
def Edit.span : Edit → Field
  | .set c _ => c.field

/-- A header after changes: each field holds what was last put there, and what cannot be set is as
it was. -/
structure Cellwise (es : List Edit) (h h' : Bytes) : Prop where
  cell : ∀ c, get c h' = lastPut (Edit.cell? c) es (get c h)
  version : version h' = version h
  size : h'.size = h.size

variable {es : List Edit} {b h : Bytes}

theorem Cell.disjoint (c c' : Cell) (h : c ≠ c') : c.field.Disjoint c'.field := by
  cases c <;> cases c' <;> simp [Cell.field, Field.Disjoint] at h ⊢

theorem sets : Field.Sets Cell.field headerLen Edit.apply Edit.cell? Edit.span where
  disjoint := Cell.disjoint
  within := Cell.within
  set
    | .set c v => ⟨c, v, fun _ => rfl, rfl, fun _ => rfl⟩

theorem keeps_inTurn (es : List Edit) (d : Draft) :
    (IpDraft.v6 d).Keeps (.v6 (inTurn edit es d)) := by
  induction es generalizing d with
  | nil => exact .refl _
  | cons e es ih =>
      have hstep : (IpDraft.v6 d).Keeps (.v6 (edit e d)) := IpDraft.keeps_edit? (e := .v6 e) rfl
      exact hstep.trans (ih (edit e d))

theorem header_eq_ok :
    header b = .ok h ↔ version b = 6 ∧ headerLen ≤ b.size ∧ h = b.extract 0 headerLen := by
  simp only [header, Except.map_eq_ok, validate_eq_ok]
  constructor
  · rintro ⟨n, ⟨hv, rfl, hle⟩, rfl⟩
    exact ⟨hv, hle, rfl⟩
  · rintro ⟨hv, hle, rfl⟩
    exact ⟨_, ⟨hv, rfl, hle⟩, rfl⟩

theorem size_of_header (hh : header b = .ok h) : h.size = headerLen := by
  obtain ⟨-, hle, rfl⟩ := header_eq_ok.mp hh
  rw [ByteArray.size_extract]
  omega

theorem version_of_header (hh : header b = .ok h) : version h = version b := by
  obtain ⟨-, -, rfl⟩ := header_eq_ok.mp hh
  rw [version, Field.read_extract b (by decide), Field.shift_zero]
  rfl

/-- A header is found again after changes, and each of its cells holds what was put there last. -/
theorem cellwise_inTurn (m : Bool) (es : List Edit) (hh : header b = .ok h) :
    ∃ h', header (inTurn edit es ⟨b, m⟩).bytes = .ok h' ∧ Cellwise es h h' := by
  have hbytes : (inTurn edit es ⟨b, m⟩).bytes = inTurn Edit.apply es b :=
    congrArg Draft.bytes (inTurn_change Edit.apply es ⟨b, m⟩)
  obtain ⟨hv, hle, hextract⟩ := header_eq_ok.mp hh
  have hvalid : validate (inTurn edit es ⟨b, m⟩).bytes = .ok headerLen :=
    (keeps_inTurn es ⟨b, m⟩).validate.trans (validate_eq_ok.mpr ⟨hv, rfl, hle⟩)
  obtain ⟨hv', -, hle'⟩ := validate_eq_ok.mp hvalid
  have hh' : header (inTurn edit es ⟨b, m⟩).bytes = .ok (inTurn Edit.apply es h) := by
    rw [header_eq_ok, hextract, ← sets.extract_applyAll, ← hbytes]
    exact ⟨hv', hle', rfl⟩
  refine ⟨_, hh', ?_⟩
  exact {
    cell := sets.read_applyAll (size_of_header hh).ge
    version := by rw [version_of_header hh', version_of_header hh, hv', hv]
    size := sets.size_applyAll }

end Ipv6

/-! ## Either version -/

/-- **The fields of an IP header are cells**: after any changes to an IPv4 header that keep to their
place, and after any changes at all to an IPv6 header, there is a header again, in which every
getter gives what was last put into its field and the version and the length are as they were. No
byte behind the header has changed, and the draft is marked if any change was made. -/
theorem ip_cellwise :
    (∀ (b h : Bytes) (m : Bool) (es : List Ipv4.Edit),
      Ipv4.header b = .ok h → (∀ e ∈ es, e.Contained h.size) →
        let d := inTurn Ipv4.edit es ⟨b, m⟩
        (∃ h', Ipv4.header d.bytes = .ok h' ∧ Ipv4.Cellwise es h h') ∧
          (⟨b, m⟩ : Draft).Keeps h.size d ∧ (d.modified = true ↔ m = true ∨ es ≠ [])) ∧
    (∀ (b h : Bytes) (m : Bool) (es : List Ipv6.Edit),
      Ipv6.header b = .ok h →
        let d := inTurn Ipv6.edit es ⟨b, m⟩
        (∃ h', Ipv6.header d.bytes = .ok h' ∧ Ipv6.Cellwise es h h') ∧
          (⟨b, m⟩ : Draft).Keeps h.size d ∧ (d.modified = true ↔ m = true ∨ es ≠ [])) := by
  constructor
  · intro b h m es hh hes d
    have hkept : (IpDraft.v4 ⟨b, m⟩).Keeps (.v4 d) := Ipv4.keeps_inTurn es ⟨b, m⟩
    obtain ⟨hv, hmin, hle, -⟩ := Ipv4.header_eq_ok.mp hh
    have hvalid : Ipv4.validate b = .ok h.size :=
      Ipv4.validate_eq_ok.mpr ⟨hv, Ipv4.size_of_header hh, hmin, hle⟩
    exact ⟨Ipv4.cellwise_inTurn m hh hes, ⟨hkept.size, hkept.behind _ hvalid⟩,
      modified_inTurn_change Ipv4.Edit.apply es ⟨b, m⟩⟩
  · intro b h m es hh d
    have hkept : (IpDraft.v6 ⟨b, m⟩).Keeps (.v6 d) := Ipv6.keeps_inTurn es ⟨b, m⟩
    obtain ⟨hv, hle, -⟩ := Ipv6.header_eq_ok.mp hh
    have hvalid : Ipv6.validate b = .ok h.size :=
      Ipv6.validate_eq_ok.mpr ⟨hv, Ipv6.size_of_header hh, hle⟩
    exact ⟨Ipv6.cellwise_inTurn m es hh, ⟨hkept.size, hkept.behind _ hvalid⟩,
      modified_inTurn_change Ipv6.Edit.apply es ⟨b, m⟩⟩

/-- An IPv4 header with four bytes of options, and two bytes behind it. -/
def Ipv4.optioned : Bytes :=
  ⟨#[0x46, 0, 0, 0x1a, 0, 0, 0, 0, 0x40, 6, 0, 0, 10, 0, 0, 1, 10, 0, 0, 2, 1, 1, 1, 1, 7, 7]⟩

/-- Flags are put beside an offset that is too wide, and the options are written twice. -/
def Ipv4.crowded : List Edit :=
  [.set .fragOffset 0x2001, .flags 0x40, .options 0 ⟨#[8, 9]⟩, .options 1 ⟨#[10]⟩, .set .ttl 9]

/-- An IPv6 header, and a byte behind it. -/
def Ipv6.plain : Bytes := ⟨#[0x6a, 0xb1, 0x23, 0x45] ++ Array.replicate 37 7⟩

/-- An offset is cut to its width and the flags beside it are their own; a traffic class and a flow
label that meet in one byte are apart. -/
theorem ip_cellwise_crowded :
    (∃ h, Ipv4.header Ipv4.optioned = .ok h ∧ (∀ e ∈ Ipv4.crowded, e.Contained h.size) ∧
      ∃ h', Ipv4.header (inTurn Ipv4.edit Ipv4.crowded ⟨Ipv4.optioned, false⟩).bytes = .ok h' ∧
        Ipv4.get .fragOffset h' = 1 ∧ Ipv4.flags h' = 0x40 ∧
          (Ipv4.options h').byte 0 = 8 ∧ (Ipv4.options h').byte 1 = 10) ∧
    (∃ h, Ipv6.header Ipv6.plain = .ok h ∧
      ∃ h', Ipv6.header (inTurn Ipv6.edit [.set .trafficClass 0xcd, .set .flowLabel 0xf00001]
          ⟨Ipv6.plain, false⟩).bytes = .ok h' ∧
        Ipv6.get .trafficClass h' = 0xcd ∧ Ipv6.get .flowLabel h' = 1) := by
  constructor
  · have hh : Ipv4.header Ipv4.optioned = .ok (Ipv4.optioned.extract 0 24) :=
      Ipv4.header_eq_ok.mpr ⟨by decide +kernel, by decide +kernel, by decide +kernel, by rfl⟩
    have hes : ∀ e ∈ Ipv4.crowded, e.Contained (Ipv4.optioned.extract 0 24).size := by
      decide +kernel
    obtain ⟨⟨h', hh', hc⟩, -⟩ := ip_cellwise.1 _ _ false _ hh hes
    exact ⟨_, hh, hes, h', hh', hc.cell .fragOffset, hc.flags, hc.option 0, hc.option 1⟩
  · have hh : Ipv6.header Ipv6.plain = .ok (Ipv6.plain.extract 0 40) :=
      Ipv6.header_eq_ok.mpr ⟨by decide +kernel, by decide +kernel, rfl⟩
    obtain ⟨⟨h', hh', hc⟩, -⟩ := ip_cellwise.2 _ _ false
      [.set .trafficClass 0xcd, .set .flowLabel 0xf00001] hh
    exact ⟨_, hh, h', hh', hc.cell .trafficClass, hc.cell .flowLabel⟩

end Intercept
