import Intercept.Header.Draft
import Intercept.Proofs.Basic

set_option autoImplicit false

/-! # Cells

A place that changes are made to behaves as a cell if it holds the last value that one of them put
there, and what it held before if none did (`lastPut`). A run of changes treats it so as soon as a
single change does: it puts a value there or leaves it alone (`inTurn_cell`). In a header the places
are fields without a common bit (`Field.read_write_cell`) and the bytes of a part that is
overwritten inside (`Bytes.byte_overwrite_part`). -/

namespace Intercept

/-! ## The last value put -/

section LastPut

variable {ε α : Type}

/-- What a cell holds after changes: the last value that one of them puts there, or the value there
was. -/
def lastPut (put? : ε → Option α) (es : List ε) (initial : α) : α :=
  (es.filterMap put?).getLast?.getD initial

theorem lastPut_cons (put? : ε → Option α) (e : ε) (es : List ε) (initial : α) :
    lastPut put? (e :: es) initial = lastPut put? es ((put? e).getD initial) := by
  unfold lastPut
  cases h : put? e with
  | none => simp [h]
  | some v => simp [h, List.getLast?_cons]

/-- A cell that some change puts a value into, and no change another value, holds that value. -/
theorem lastPut_eq_of_forall {put? : ε → Option α} {es : List ε} {v : α} (initial : α)
    (hsome : ∃ e ∈ es, put? e = some v) (hall : ∀ e ∈ es, ∀ w, put? e = some w → w = v) :
    lastPut put? es initial = v := by
  have hmem : ∀ w ∈ es.filterMap put?, w = v := by
    intro w hw
    obtain ⟨e, he, hput⟩ := List.mem_filterMap.mp hw
    exact hall e he w hput
  unfold lastPut
  cases hlast : (es.filterMap put?).getLast? with
  | none =>
      obtain ⟨e, he, hput⟩ := hsome
      have hnil : es.filterMap put? = [] := List.getLast?_eq_none_iff.mp hlast
      have hin : v ∈ es.filterMap put? := List.mem_filterMap.mpr ⟨e, he, hput⟩
      rw [hnil] at hin
      exact absurd hin List.not_mem_nil
  | some w => exact hmem w (List.mem_of_getLast? hlast)

end LastPut

/-! ## Changes in turn -/

section InTurn

variable {ε σ α : Type} {edit : ε → σ → σ} {es : List ε} {I : σ → Prop} {s : σ}

/-- Make changes in turn. -/
def inTurn (edit : ε → σ → σ) (es : List ε) (s : σ) : σ := es.foldl (fun s e => edit e s) s

@[simp] theorem inTurn_nil (edit : ε → σ → σ) (s : σ) : inTurn edit [] s = s := rfl

@[simp] theorem inTurn_cons (edit : ε → σ → σ) (e : ε) (es : List ε) (s : σ) :
    inTurn edit (e :: es) s = inTurn edit es (edit e s) := rfl

/-- **A cell holds the last value put into it** after any number of changes, if each of them puts a
value into it or leaves it alone. -/
theorem inTurn_cell (read : σ → α) {put? : ε → Option α}
    (hkeep : ∀ s, I s → ∀ e ∈ es, I (edit e s))
    (hread : ∀ s, I s → ∀ e ∈ es, read (edit e s) = (put? e).getD (read s)) (hs : I s) :
    read (inTurn edit es s) = lastPut put? es (read s) := by
  induction es generalizing s with
  | nil => rfl
  | cons e es ih =>
      have hmem : ∀ e' ∈ es, e' ∈ e :: es := fun e' he' => List.mem_cons_of_mem e he'
      have hhead : e ∈ e :: es := List.mem_cons_self
      rw [inTurn_cons, lastPut_cons, ← hread s hs e hhead]
      exact ih (fun s hs e' he' => hkeep s hs e' (hmem e' he'))
        (fun s hs e' he' => hread s hs e' (hmem e' he')) (hkeep s hs e hhead)

/-- What no change touches is as it was. -/
theorem inTurn_untouched (read : σ → α) (hkeep : ∀ s, I s → ∀ e ∈ es, I (edit e s))
    (hread : ∀ s, I s → ∀ e ∈ es, read (edit e s) = read s) (hs : I s) :
    read (inTurn edit es s) = read s := by
  have hnone : es.filterMap (fun _ => (none : Option α)) = [] := by simp
  have hcell : ∀ s, I s → ∀ e ∈ es,
      read (edit e s) = ((fun _ => none : ε → Option α) e).getD (read s) := hread
  rw [inTurn_cell read hkeep hcell hs, lastPut, hnone]
  rfl

end InTurn

/-- Changes to a draft are changes to its bytes, and any change marks it. -/
theorem inTurn_change {ε : Type} (apply : ε → Bytes → Bytes) (es : List ε) (d : Draft) :
    inTurn (fun e d => d.change (apply e)) es d =
      ⟨inTurn apply es d.bytes, d.modified || !es.isEmpty⟩ := by
  induction es generalizing d with
  | nil => simp
  | cons e es ih => simp [ih]

/-- A draft is marked once a change was made, or if it was marked before. -/
theorem modified_inTurn_change {ε : Type} (apply : ε → Bytes → Bytes) (es : List ε) (d : Draft) :
    (inTurn (fun e d => d.change (apply e)) es d).modified = true ↔
      d.modified = true ∨ es ≠ [] := by
  simp [inTurn_change]

/-! ## Fields -/

namespace Field

/-- A bit lies in a field. -/
def Has (f : Field) (i : Nat) : Prop := f.first ≤ i ∧ i < f.first + f.width

instance (f : Field) (i : Nat) : Decidable (f.Has i) := by unfold Has; infer_instance

theorem bit_write_of_not_has {f : Field} {v i : Nat} {b : Bytes} (h : ¬f.Has i) :
    (f.write v b).bit i = b.bit i := by
  rw [bit_write, if_neg fun hi => h ⟨hi.1, hi.2.1⟩]

/-- A field is not touched by what is written behind it. -/
theorem read_overwrite_of_within {f : Field} {n offset : Nat} {b data : Bytes} (hf : f.Within n)
    (hn : n ≤ offset) : f.read (b.overwrite offset data) = f.read b := by
  unfold Within at hf
  refine read_congr_byte fun i _ hi => ?_
  rw [Bytes.byte_overwrite, if_neg (by omega)]

/-- Two byte strings that agree on a field agree on its bits. -/
theorem bit_eq_of_read {f : Field} {i : Nat} {a b : Bytes} (h : f.read a = f.read b)
    (hi : f.Has i) : a.bit i = b.bit i := by
  have hk : f.first + f.width - 1 - i < f.width := by unfold Has at hi; omega
  have hbit := congrArg (·.testBit (f.first + f.width - 1 - i)) h
  simp only [testBit_read, decide_eq_true hk, Bool.true_and] at hbit
  unfold Has at hi
  rwa [show f.first + f.width - 1 - (f.first + f.width - 1 - i) = i by omega] at hbit

section Cells

variable {κ : Type} [DecidableEq κ] {field : κ → Field}

/-- What setting the cell `c'` to a value puts into the cell `c`: the value cut to its width if it
is the same cell, and nothing otherwise. -/
def put? (field : κ → Field) (c c' : κ) (v : Nat) : Option Nat :=
  if c' = c then some (v % 2 ^ (field c).width) else none

/-- Setting one of several fields without a common bit changes that field and no other. -/
theorem read_write_cell (hd : ∀ c c', c ≠ c' → (field c).Disjoint (field c')) (c c' : κ) (v : Nat)
    {b : Bytes} (hw : (field c).Within b.size) :
    (field c).read ((field c').write v b) = (put? field c c' v).getD ((field c).read b) := by
  unfold put?
  by_cases h : c' = c
  · subst h
    rw [if_pos rfl, Option.getD_some, read_write_self v hw]
  · rw [if_neg h, Option.getD_none, read_write_of_disjoint v (hd c c' (Ne.symm h))]

/-- Every change is to one of several fields in the first `n` bytes. Of a change it is known what it
puts into each field, and the field it writes. -/
structure Sets {ε : Type} (field : κ → Field) (n : Nat) (apply : ε → Bytes → Bytes)
    (cell? : κ → ε → Option Nat) (span : ε → Field) : Prop where
  disjoint : ∀ c c', c ≠ c' → (field c).Disjoint (field c')
  within : ∀ c, (field c).Within n
  set : ∀ e, ∃ c v, (∀ b, apply e b = (field c).write v b) ∧ span e = field c ∧
    ∀ c', cell? c' e = put? field c' c v

namespace Sets

variable {ε : Type} {n : Nat} {apply : ε → Bytes → Bytes} {cell? : κ → ε → Option Nat}
  {span : ε → Field} {es : List ε} {b : Bytes}

theorem size_apply (hs : Sets field n apply cell? span) (e : ε) (b : Bytes) :
    (apply e b).size = b.size := by
  obtain ⟨c, v, happly, -, -⟩ := hs.set e
  rw [happly, size_write]

theorem size_applyAll (hs : Sets field n apply cell? span) :
    (inTurn apply es b).size = b.size :=
  inTurn_untouched ByteArray.size (I := fun _ => True) (fun _ _ _ _ => trivial)
    (fun x _ e _ => hs.size_apply e x) trivial

/-- Each field holds what was last put into it. -/
theorem read_applyAll (hs : Sets field n apply cell? span) (hb : n ≤ b.size) (c : κ) :
    (field c).read (inTurn apply es b) =
      lastPut (cell? c) es ((field c).read b) := by
  refine inTurn_cell (field c).read (I := fun x => n ≤ x.size)
    (fun x hx e _ => ?_) (fun x hx e _ => ?_) hb
  · rwa [hs.size_apply e x]
  · obtain ⟨c', v, happly, -, hcell⟩ := hs.set e
    rw [happly, hcell]
    exact read_write_cell hs.disjoint c c' v ((hs.within c).mono hx)

/-- No bit changes that lies in no field written. -/
theorem bit_applyAll (hs : Sets field n apply cell? span) {i : Nat}
    (hi : ∀ e ∈ es, ¬(span e).Has i) : (inTurn apply es b).bit i = b.bit i := by
  refine inTurn_untouched (fun x => Bytes.bit x i) (I := fun _ => True)
    (fun _ _ _ _ => trivial) (fun x _ e he => ?_) trivial
  obtain ⟨c, v, happly, hspan, -⟩ := hs.set e
  rw [happly, bit_write_of_not_has (hspan ▸ hi e he)]

theorem byte_applyAll (hs : Sets field n apply cell? span) {i : Nat} (hi : n ≤ i) :
    (inTurn apply es b).byte i = b.byte i := by
  refine inTurn_untouched (fun x => Bytes.byte x i) (I := fun _ => True)
    (fun _ _ _ _ => trivial) (fun x _ e _ => ?_) trivial
  obtain ⟨c, v, happly, -, -⟩ := hs.set e
  rw [happly, byte_write_of_within (hs.within c) hi]

/-- Changes to bytes are changes to the header in the first `n` of them. -/
theorem extract_applyAll (hs : Sets field n apply cell? span) :
    (inTurn apply es b).extract 0 n =
      inTurn apply es (b.extract 0 n) := by
  induction es generalizing b with
  | nil => rfl
  | cons e es ih =>
      obtain ⟨c, v, happly, -, -⟩ := hs.set e
      rw [inTurn_cons, inTurn_cons, ih, happly, happly, extract_zero_write v (hs.within c)]

end Sets

end Cells

end Field

/-! ## Parts -/

namespace Bytes

/-- The byte that comes to position `i` of a part when data is put into it at an offset. -/
def put? (offset : Nat) (data : Bytes) (i : Nat) : Option UInt8 :=
  if offset ≤ i ∧ i < offset + data.size then some (data.byte (i - offset)) else none

theorem put?_zero {data : Bytes} {i : Nat} (h : i < data.size) :
    put? 0 data i = some (data.byte i) := by
  rw [put?, if_pos ⟨Nat.zero_le i, by omega⟩, Nat.sub_zero]

/-- Overwriting inside a part puts the data there and leaves the rest of the part alone. -/
theorem byte_overwrite_part {b data : Bytes} {lo hi offset : Nat} (hle : lo ≤ hi)
    (hhi : hi ≤ b.size) (hfit : offset + data.size ≤ hi - lo) (i : Nat) :
    Bytes.byte ((b.overwrite (lo + offset) data).extract lo hi) i =
      (put? offset data i).getD (Bytes.byte (b.extract lo hi) i) := by
  unfold put?
  rw [byte_extract, byte_extract, byte_overwrite]
  by_cases h : offset ≤ i ∧ i < offset + data.size
  · rw [if_pos h, if_pos (by omega), if_pos (by omega), Option.getD_some]
    congr 1
    omega
  · rw [if_neg h, Option.getD_none]
    split
    · rw [if_neg (by omega)]
    · rfl

/-- Only the bits of the place where data is written can change. -/
theorem bit_overwrite_of_not_has {b data : Bytes} {offset i : Nat}
    (h : ¬(⟨8 * offset, 8 * data.size⟩ : Field).Has i) :
    (b.overwrite offset data).bit i = b.bit i := by
  simp only [Field.Has] at h
  unfold bit
  rw [byte_overwrite, if_neg (by omega)]

/-- A byte of a part stays as it is if the part is not reached. -/
theorem byte_extract_congr {a b : Bytes} {lo hi : Nat}
    (h : ∀ j, lo ≤ j → j < hi → a.byte j = b.byte j) (i : Nat) :
    Bytes.byte (a.extract lo hi) i = Bytes.byte (b.extract lo hi) i := by
  rw [byte_extract, byte_extract]
  split
  · next hi => exact h _ (Nat.le_add_right ..) hi
  · rfl

end Bytes

end Intercept
