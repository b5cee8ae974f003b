import Intercept.Proofs.Careful

set_option autoImplicit false

/-! # What a pool has allocated, keeps and hands out

Whatever is done to a pool is one of three deals: a buffer is taken, a buffer comes back, or bytes
are given to it. `Pool.Dealt` says once what a deal can make of a pool, and the accounts follow from
that deal by deal, over the ledger of all deals that were done and of the pool as it was before
each.

The deals that a step on a bench does with a pool are `PoolBench.deals`. There the buffers that are
live can be counted, in their slots, and the account closes (`PoolBench.accounts_balance`): what was
allocated or given is idle, live, or was turned away, and a pool without limit that was given
nothing has allocated as much as was ever live at once. -/

namespace Intercept

namespace Pool

/-! ## Deals -/

/-- What may be done to a pool. -/
inductive Deal where
  | acquire
  /-- A buffer comes back. -/
  | drop (b : Buffer)
  /-- Bytes are given to the pool, of which some are said to have been used. -/
  | release (b : Bytes) (used : Nat)

namespace Deal

/-- A buffer was taken. -/
def isAcquire : Deal → Bool
  | acquire => true
  | _ => false

/-- A buffer was given back. -/
def isDrop : Deal → Bool
  | drop _ => true
  | _ => false

/-- Bytes of the size of a buffer are given to the pool. -/
def isGift : Deal → Bool
  | release b _ => b.size == bufferSize
  | _ => false

/-- The storage that comes to the pool, cleared as far as it was used. -/
def returned? : Deal → Option Storage
  | acquire => none
  | drop b => some (b.storage.clear 0 b.len)
  | release b used => if h : b.size = bufferSize then some (Storage.clear ⟨b, h⟩ 0 used) else none

/-- Storage comes either from a buffer or as a gift. -/
theorem of_returned? {d : Deal} {s : Storage} (h : d.returned? = some s) :
    d.isAcquire = false ∧ d.isGift = !d.isDrop := by
  cases d with
  | acquire => cases h
  | drop b => exact ⟨rfl, rfl⟩
  | release b used =>
      obtain ⟨hsize, -⟩ := Option.dite_none_right_eq_some.mp h
      exact ⟨rfl, beq_iff_eq.mpr hsize⟩

end Deal

/-- The pool after a deal. -/
def deal : Deal → Pool → Pool
  | .acquire, p => p.acquire.2
  | .drop b, p => p.drop b
  | .release b used, p => (p.release b used).2

/-- The pool after deals in turn. -/
def dealAll (ds : List Deal) (p : Pool) : Pool := ds.foldl (fun p d => p.deal d) p

/-- What a deal makes of a pool. -/
inductive Dealt (p : Pool) : Deal → Pool → Prop
  | allocated (h : p.idle = []) : Dealt p .acquire { p with allocated := p.allocated + 1 }
  | reused {s : Storage} {rest : List Storage} (h : p.idle = s :: rest) :
    Dealt p .acquire { p with idle := rest }
  | kept {d : Deal} {s : Storage} (h : d.returned? = some s) (room : p.HasRoom) :
    Dealt p d { p with idle := s :: p.idle }
  | discarded {d : Deal} {s : Storage} (h : d.returned? = some s) (full : ¬p.HasRoom) :
    Dealt p d { p with discarded := p.discarded + 1 }
  | foreign {b : Bytes} {used : Nat} (h : b.size ≠ bufferSize) : Dealt p (.release b used) p

theorem dealt_store {d : Deal} {s : Storage} {used : Nat} (p : Pool)
    (h : d.returned? = some (s.clear 0 used)) : Dealt p d (p.store s used).2 := by
  unfold store
  split
  · next room => exact .kept h room
  · next full => exact .discarded h full

theorem dealt (d : Deal) (p : Pool) : Dealt p d (p.deal d) := by
  cases d with
  | acquire =>
      simp only [deal, acquire]
      split
      · next hidle => exact .reused hidle
      · next hidle => exact .allocated hidle
  | drop b => exact dealt_store p rfl
  | release b used =>
      simp only [deal, release]
      split
      · next hsize => exact dealt_store p (dif_pos hsize)
      · next hsize => exact .foreign hsize

/-- No more is idle than may be. -/
def Limited (p : Pool) : Prop := ∀ m ∈ p.maxIdle, p.idle.length ≤ m

/-- A limit is reached once there is no room. -/
theorem hasRoom_iff {p : Pool} (h : p.Limited) : p.HasRoom ↔ p.maxIdle ≠ some p.idle.length := by
  refine ⟨fun hroom hmax => Nat.lt_irrefl _ (hroom _ hmax), fun hmax m hm => ?_⟩
  refine Nat.lt_of_le_of_ne (h m hm) fun heq => hmax ?_
  rw [heq]
  exact hm

/-! ## The ledger -/

/-- A deal with the pool before and after it. -/
structure Entry where
  before : Pool
  deal : Deal
  after : Pool

namespace Entry

/-- A buffer is taken while none is idle. -/
def allocates (e : Entry) : Bool := e.deal.isAcquire && e.before.idle.isEmpty

/-- Storage comes back while as much is idle as may be. -/
def turnsAway (e : Entry) : Bool :=
  e.deal.returned?.isSome && decide (e.before.maxIdle = some e.before.idle.length)

/-- An entry is in order if the limit stays and is kept, exactly what had to be allocated is counted
as allocated, exactly what there was no room for is counted as discarded, and what is taken is what
came last of all that is idle. -/
structure InOrder (e : Entry) : Prop where
  maxIdle : e.after.maxIdle = e.before.maxIdle
  limited : e.after.Limited
  allocated : e.after.allocated = e.before.allocated + if e.allocates then 1 else 0
  discarded : e.after.discarded = e.before.discarded + if e.turnsAway then 1 else 0
  idle : e.after.idle =
    if e.deal.isAcquire then e.before.idle.tail
    else if e.turnsAway then e.before.idle
    else e.deal.returned?.toList ++ e.before.idle

variable {p q : Pool} {d : Deal} {s : Storage}

theorem allocates_of_returned? (h : d.returned? = some s) : (mk p d q).allocates = false := by
  rw [allocates, (Deal.of_returned? h).1, Bool.false_and]

theorem turnsAway_of_returned? (h : d.returned? = some s) (hp : p.Limited) :
    (mk p d q).turnsAway = !decide p.HasRoom := by
  have hroom := hasRoom_iff hp
  rw [turnsAway, h, Option.isSome_some, Bool.true_and]
  by_cases hmax : p.maxIdle = some p.idle.length
  · rw [decide_eq_true hmax, decide_eq_false fun h => hroom.mp h hmax, Bool.not_false]
  · rw [decide_eq_false hmax, decide_eq_true (hroom.mpr hmax), Bool.not_true]

end Entry

namespace Dealt

variable {p q : Pool} {d : Deal}

/-- Storage is allocated only for what is taken while nothing is idle. -/
theorem allocated_eq (h : Dealt p d q) :
    q.allocated = p.allocated + if (Entry.mk p d q).allocates then 1 else 0 := by
  cases h with
  | allocated hidle => simp [Entry.allocates, Deal.isAcquire, hidle]
  | reused hidle => simp [Entry.allocates, hidle]
  | kept hs room => simp [Entry.allocates_of_returned? hs]
  | discarded hs full => simp [Entry.allocates_of_returned? hs]
  | foreign hsize => rfl

/-- A deal with a pool within its limit is in order. -/
theorem inOrder (h : Dealt p d q) (hp : p.Limited) : (Entry.mk p d q).InOrder := by
  have hallocated := h.allocated_eq
  cases h with
  | allocated hidle =>
      refine ⟨rfl, hp, hallocated, rfl, ?_⟩
      simp only [Deal.isAcquire, if_true, hidle, List.tail_nil]
  | reused hidle =>
      refine ⟨rfl, fun m hm => ?_, hallocated, rfl, ?_⟩
      · have hle := hp m hm
        rw [hidle, List.length_cons] at hle
        exact Nat.le_of_succ_le hle
      · simp only [Deal.isAcquire, if_true, hidle, List.tail_cons]
  | @kept _ s hs room =>
      have hstays := Entry.turnsAway_of_returned? (q := { p with idle := s :: p.idle }) hs hp
      rw [decide_eq_true room, Bool.not_true] at hstays
      refine ⟨rfl, room, hallocated, ?_, ?_⟩
      · rw [hstays]
        rfl
      · rw [hstays, hs, (Deal.of_returned? hs).1]
        rfl
  | discarded hs full =>
      have hturned := Entry.turnsAway_of_returned?
        (q := { p with discarded := p.discarded + 1 }) hs hp
      rw [decide_eq_false full, Bool.not_false] at hturned
      refine ⟨rfl, hp, hallocated, ?_, ?_⟩
      · rw [hturned]
        rfl
      · rw [hturned, (Deal.of_returned? hs).1]
        rfl
  | foreign hsize =>
      refine ⟨rfl, hp, hallocated, ?_, ?_⟩
      · simp [Entry.turnsAway, Deal.returned?, hsize]
      · simp [Entry.turnsAway, Deal.isAcquire, Deal.returned?, hsize]

/-- What is allocated, given or comes back is idle, or is taken or discarded. -/
theorem count (h : Dealt p d q) :
    q.allocated + (if d.isGift then 1 else 0) + (if d.isDrop then 1 else 0) + p.idle.length +
        p.discarded =
      q.idle.length + (if d.isAcquire then 1 else 0) + q.discarded + p.allocated := by
  cases h with
  | allocated hidle =>
      simp only [Deal.isGift, Deal.isDrop, Deal.isAcquire, Bool.false_eq_true, if_false, if_true]
      omega
  | reused hidle =>
      simp only [Deal.isGift, Deal.isDrop, Deal.isAcquire, Bool.false_eq_true, if_false, if_true,
        hidle, List.length_cons]
      omega
  | kept hs room =>
      obtain ⟨hacquire, hgift⟩ := Deal.of_returned? hs
      rw [hacquire, hgift]
      cases d.isDrop <;> simp <;> omega
  | discarded hs full =>
      obtain ⟨hacquire, hgift⟩ := Deal.of_returned? hs
      rw [hacquire, hgift]
      cases d.isDrop <;> simp <;> omega
  | foreign hsize =>
      simp only [Deal.isGift, Deal.isDrop, Deal.isAcquire, beq_false_of_ne hsize,
        Bool.false_eq_true, if_false]
      omega

/-- Below what is taken everything stays. -/
theorem suffix (h : Dealt p d q) {below : List Storage} (hp : below <:+ p.idle)
    (hd : d.isAcquire = true → below.length < p.idle.length) : below <:+ q.idle := by
  cases h with
  | allocated hidle =>
      have hlt := hd rfl
      rw [hidle] at hlt
      exact absurd hlt (Nat.not_lt_zero _)
  | reused hidle =>
      have hlt := hd rfl
      rw [hidle] at hp hlt
      rcases List.suffix_cons_iff.mp hp with rfl | hrest
      · exact absurd hlt (Nat.lt_irrefl _)
      · exact hrest
  | kept hs room => exact hp.trans (List.suffix_cons ..)
  | discarded hs full => exact hp
  | foreign hsize => exact hp

end Dealt

/-- The deals done with a pool in turn, each with the pool as it was before and after. -/
def ledger : List Deal → Pool → List Entry
  | [], _ => []
  | d :: ds, p => ⟨p, d, p.deal d⟩ :: ledger ds (p.deal d)

variable {p : Pool}

theorem dealAll_cons (d : Deal) (ds : List Deal) (p : Pool) :
    p.dealAll (d :: ds) = (p.deal d).dealAll ds := rfl

theorem dealAll_append (ds ds' : List Deal) (p : Pool) :
    p.dealAll (ds ++ ds') = (p.dealAll ds).dealAll ds' := List.foldl_append

theorem limited_empty (maxIdle : Option Nat) : (empty maxIdle).Limited :=
  fun m _ => Nat.zero_le m

/-- What the ledger says of a pool that is within its limit. -/
structure Books (ds : List Deal) (p : Pool) : Prop where
  maxIdle : (p.dealAll ds).maxIdle = p.maxIdle
  limited : (p.dealAll ds).Limited
  limits : ∀ e ∈ ledger ds p, e.before.maxIdle = p.maxIdle
  inOrder : ∀ e ∈ ledger ds p, e.InOrder
  allocated : (p.dealAll ds).allocated = p.allocated + (ledger ds p).countP Entry.allocates
  discarded : (p.dealAll ds).discarded = p.discarded + (ledger ds p).countP Entry.turnsAway
  count : (p.dealAll ds).allocated + ds.countP Deal.isGift + ds.countP Deal.isDrop +
      p.idle.length + p.discarded =
    (p.dealAll ds).idle.length + ds.countP Deal.isAcquire + (p.dealAll ds).discarded + p.allocated

theorem books (ds : List Deal) (hp : p.Limited) : Books ds p := by
  -- by induction on the deals, since each leaves the pool within its limit
  induction ds generalizing p with
  | nil =>
      refine ⟨rfl, hp, fun e he => (nomatch he), fun e he => (nomatch he), rfl, rfl, ?_⟩
      simp only [dealAll, List.foldl_nil, List.countP_nil]
      omega
  | cons d ds ih =>
      have hd := (p.dealt d).inOrder hp
      have hmax : (p.deal d).maxIdle = p.maxIdle := hd.maxIdle
      have hallocated : (p.deal d).allocated = p.allocated + _ := hd.allocated
      have hdiscarded : (p.deal d).discarded = p.discarded + _ := hd.discarded
      have hcount := (p.dealt d).count
      have hrest : Books ds (p.deal d) := ih hd.limited
      refine ⟨hrest.maxIdle.trans hmax, hrest.limited, fun e he => ?_, fun e he => ?_, ?_, ?_, ?_⟩
      · rcases List.mem_cons.mp he with rfl | he
        · rfl
        · exact (hrest.limits e he).trans hmax
      · rcases List.mem_cons.mp he with rfl | he
        · exact hd
        · exact hrest.inOrder e he
      · rw [dealAll_cons, hrest.allocated, hallocated, ledger, List.countP_cons, Nat.add_assoc,
          Nat.add_comm (List.countP ..)]
      · rw [dealAll_cons, hrest.discarded, hdiscarded, ledger, List.countP_cons, Nat.add_assoc,
          Nat.add_comm (List.countP ..)]
      · have hcounts := hrest.count
        rw [dealAll_cons, List.countP_cons, List.countP_cons, List.countP_cons]
        omega

/-- A pool without limit turns nothing away. -/
theorem Books.turnsAway_of_unlimited {ds : List Deal} (h : Books ds p) (hp : p.maxIdle = none) :
    (ledger ds p).countP Entry.turnsAway = 0 := by
  refine List.countP_eq_zero.mpr fun e he => ?_
  simp [Entry.turnsAway, h.limits e he, hp]

/-- Without anything taken, nothing is allocated. -/
theorem allocated_dealAll {ds : List Deal} (hds : ∀ d ∈ ds, d.isAcquire = false) :
    (p.dealAll ds).allocated = p.allocated := by
  induction ds generalizing p with
  | nil => rfl
  | cons d ds ih =>
      have hd := (p.dealt d).allocated_eq
      rw [Entry.allocates, hds d (List.mem_cons_self ..)] at hd
      exact (ih fun d' hd' => hds d' (List.mem_cons_of_mem _ hd')).trans hd

/-- What lies below all that is taken stays where it is. -/
theorem suffix_dealAll {ds : List Deal} {below : List Storage} (hp : below <:+ p.idle)
    (hds : ∀ e ∈ ledger ds p, e.deal.isAcquire = true → below.length < e.before.idle.length) :
    below <:+ (p.dealAll ds).idle := by
  induction ds generalizing p with
  | nil => exact hp
  | cons d ds ih =>
      have hd := (p.dealt d).suffix hp (hds _ (List.mem_cons_self ..))
      exact ih hd fun e he => hds e (List.mem_cons_of_mem _ he)

end Pool

namespace PoolBench

open Pool (Deal)

variable {w : PoolBench}

/-! ## Pools by their places -/

theorem poolAt_setPool {j : Nat} (hj : j < w.pools.length) (p : Pool) (k : Nat) :
    (w.setPool j p).poolAt k = if j = k then p else w.poolAt k := by
  unfold poolAt setPool
  rw [List.getElem?_set, if_pos hj]
  split
  · rfl
  · rfl

/-- Putting a pool where it is changes nothing. -/
theorem setPool_poolAt (k : Nat) (w : PoolBench) : w.setPool k (w.poolAt k) = w := by
  unfold setPool poolAt
  rcases Nat.lt_or_ge k w.pools.length with hk | hk
  · rw [List.getElem?_eq_getElem hk, Option.getD_some, List.set_getElem_self]
  · rw [List.set_eq_of_length_le hk]

theorem poolAt_of_length_le {k : Nat} (hk : w.pools.length ≤ k) : w.poolAt k = .empty none := by
  rw [poolAt, List.getElem?_eq_none hk, Option.getD_none]

/-- Every number stands for a pool there is, and so does what is in every slot. -/
structure InPlace (w : PoolBench) : Prop where
  place : ∀ n, w.place n < w.pools.length
  loans : ∀ i l, w.slot? i = some l → l.pool < w.pools.length

namespace InPlace

theorem ofPool (p : Pool) : (PoolBench.ofPool p).InPlace := by
  refine ⟨fun n => ?_, fun i l hl => nomatch hl⟩
  cases n <;> exact Nat.one_pos

theorem setPool (h : w.InPlace) (k : Nat) (p : Pool) : (w.setPool k p).InPlace := by
  have hlength : (w.setPool k p).pools.length = w.pools.length := List.length_set
  exact ⟨fun n => hlength ▸ h.place n, fun i l hl => hlength ▸ h.loans i l hl⟩

theorem setSlot (h : w.InPlace) (i : Slot) {b : Option Loan}
    (hb : ∀ l ∈ b, l.pool < w.pools.length) : (w.setSlot i b).InPlace := by
  refine ⟨h.place, fun j l hl => ?_⟩
  rw [slot?_setSlot] at hl
  split at hl
  · exact hb l hl
  · exact h.loans j l hl

theorem clearSlot (h : w.InPlace) (i : Slot) : (w.clearSlot i).InPlace := by
  unfold PoolBench.clearSlot
  split
  · exact h
  · exact (h.setPool _ _).setSlot i fun l hl => nomatch hl

end InPlace

theorem length_clearSlot (i : Slot) (w : PoolBench) :
    (w.clearSlot i).pools.length = w.pools.length := by
  unfold clearSlot
  split
  · rfl
  · exact List.length_set

/-- One more number does not change what the others stand for. -/
theorem place_names (names : List Nat) (w : PoolBench) (k n : Nat) :
    ({ w with names := names ++ [k] } : PoolBench).place n = { w with names }.place n ∨
      ({ w with names := names ++ [k] } : PoolBench).place n = k := by
  unfold place
  simp only [List.getElem?_append]
  split
  · exact Or.inl rfl
  · next hn =>
      rw [List.getElem?_eq_none (l := names) (by omega)]
      cases n - names.length with
      | zero => exact Or.inr rfl
      | succ m => exact Or.inl rfl

theorem InPlace.step (h : w.InPlace) (st : Step) : (w.step st).2.InPlace := by
  cases st with
  | share n =>
      refine ⟨fun m => ?_, h.loans⟩
      rcases place_names w.names w (w.place n) m with hm | hm
      · exact hm ▸ h.place m
      · exact hm ▸ h.place n
  | newPool maxIdle =>
      have hlength : (w.step (.newPool maxIdle)).2.pools.length = w.pools.length + 1 :=
        List.length_append
      refine ⟨fun m => ?_, fun i l hl => ?_⟩
      · rw [hlength]
        rcases place_names w.names w w.pools.length m with hm | hm
        · exact hm ▸ Nat.lt_succ_of_lt (h.place m)
        · exact hm ▸ Nat.lt_succ_self _
      · rw [hlength]
        exact Nat.lt_succ_of_lt (h.loans i l hl)
  | acquire n i =>
      rw [step_acquire]
      refine ((h.setPool _ _).clearSlot i).setSlot i fun l hl => ?_
      rw [length_clearSlot, PoolBench.setPool, List.length_set, ← Option.some.inj hl]
      exact h.place n
  | drop i => exact h.clearSlot i
  | release n b used => exact h.setPool _ _
  | listing n => exact h
  | buffer i bs =>
      cases hi : w.slot? i with
      | none => rwa [step_buffer_empty hi]
      | some l =>
          rw [step_buffer hi]
          refine h.setSlot i fun l' hl' => ?_
          rw [← Option.some.inj hl']
          exact h.loans i l hi

/-! ## The deals of a step -/

/-- What goes back to a pool when a slot is given up. -/
def returns (k : Nat) (i : Slot) (w : PoolBench) : List Deal :=
  match w.slot? i with
  | none => []
  | some l => if l.pool = k then [.drop l.buffer] else []

/-- The deals that a step does with a pool, in turn. -/
def deals (k : Nat) (st : Step) (w : PoolBench) : List Deal :=
  match st with
  | .acquire n i => (if w.place n = k then [.acquire] else []) ++ w.returns k i
  | .drop i => w.returns k i
  | .release n b used => if w.place n = k then [.release b used] else []
  | _ => []

theorem poolAt_clearSlot (h : w.InPlace) (i : Slot) (k : Nat) :
    (w.clearSlot i).poolAt k = (w.poolAt k).dealAll (w.returns k i) := by
  unfold clearSlot returns
  cases hi : w.slot? i with
  | none => rfl
  | some l =>
      have hback := poolAt_setPool (h.loans i l hi) ((w.poolAt l.pool).drop l.buffer) k
      simp only
      refine hback.trans ?_
      split
      · next hk =>
          rw [hk]
          rfl
      · rfl

/-- A step does its deals, unless it makes the pool. -/
theorem poolAt_step (h : w.InPlace) {st : Step} {k : Nat}
    (hst : ∀ maxIdle, st = .newPool maxIdle → k ≠ w.pools.length) :
    (w.step st).2.poolAt k = (w.poolAt k).dealAll (w.deals k st) := by
  cases st with
  | share n => rfl
  | newPool maxIdle =>
      have hk := hst maxIdle rfl
      simp only [step, poolAt, List.getElem?_append, deals, Pool.dealAll, List.foldl_nil]
      split
      · rfl
      · rw [List.getElem?_eq_none (by simp; omega), List.getElem?_eq_none (by omega)]
  | acquire n i =>
      have htaken := poolAt_setPool (h.place n) (w.poolAt (w.place n)).acquire.2 k
      have hcleared := poolAt_clearSlot (h.setPool (w.place n) (w.poolAt (w.place n)).acquire.2) i k
      rw [step_acquire]
      refine hcleared.trans ?_
      rw [htaken, deals, Pool.dealAll_append]
      split
      · next hk =>
          rw [hk]
          rfl
      · rfl
  | drop i => exact poolAt_clearSlot h i k
  | release n b used =>
      refine (poolAt_setPool (h.place n) _ k).trans ?_
      rw [deals]
      split
      · next hk =>
          rw [hk]
          rfl
      · rfl
  | listing n => rfl
  | buffer i bs =>
      cases hi : w.slot? i with
      | none =>
          rw [step_buffer_empty hi]
          rfl
      | some l =>
          rw [step_buffer hi]
          rfl

/-- A pool that is made is empty, and nothing was done with it. -/
theorem poolAt_newPool (maxIdle : Option Nat) (w : PoolBench) :
    (w.step (.newPool maxIdle)).2.poolAt w.pools.length = .empty maxIdle := by
  simp only [step, poolAt, List.getElem?_concat_length, Option.getD_some]

theorem length_step (st : Step) (w : PoolBench) :
    w.pools.length ≤ (w.step st).2.pools.length := by
  cases st with
  | share n => exact Nat.le_refl _
  | newPool maxIdle => exact List.length_append ▸ Nat.le_add_right ..
  | acquire n i =>
      have hlength := length_clearSlot i (w.setPool (w.place n) (w.poolAt (w.place n)).acquire.2)
      exact Nat.le_of_eq (hlength.trans List.length_set).symm
  | drop i => exact Nat.le_of_eq (length_clearSlot i w).symm
  | release n b used => exact Nat.le_of_eq List.length_set.symm
  | listing n => exact Nat.le_refl _
  | buffer i bs =>
      cases hi : w.slot? i with
      | none => rw [step_buffer_empty hi]
      | some l =>
          rw [step_buffer hi]
          exact Nat.le_refl _

/-- Nothing is done with a pool that is not there. -/
theorem InPlace.deals_eq_nil (h : w.InPlace) {k : Nat} (hk : w.pools.length ≤ k) (st : Step) :
    w.deals k st = [] := by
  have hplace : ∀ n, w.place n ≠ k := fun n => Nat.ne_of_lt (Nat.lt_of_lt_of_le (h.place n) hk)
  have hreturns : ∀ i, w.returns k i = [] := by
    intro i
    unfold returns
    cases hi : w.slot? i with
    | none => rfl
    | some l => exact if_neg (Nat.ne_of_lt (Nat.lt_of_lt_of_le (h.loans i l hi) hk))
  cases st with
  | acquire n i => rw [deals, if_neg (hplace n), hreturns, List.append_nil]
  | drop i => exact hreturns i
  | release n b used => exact if_neg (hplace n)
  | share n => rfl
  | newPool maxIdle => rfl
  | listing n => rfl
  | buffer i bs => rfl

/-! ## Buffers that are live -/

/-- How many buffers of a pool are in slots. -/
def live (k : Nat) (w : PoolBench) : Nat :=
  w.slots.countP fun o => o.any fun l => l.pool == k

theorem live_setSlot (k : Nat) (i : Slot) (b : Option Loan) (w : PoolBench) :
    (w.setSlot i b).live k + ((w.slot? i).any fun l => l.pool == k).toNat =
      w.live k + (b.any fun l => l.pool == k).toNat :=
  List.countP_fill _ rfl ..

theorem live_clearSlot (k : Nat) (i : Slot) (w : PoolBench) :
    (w.clearSlot i).live k + (w.returns k i).countP Deal.isDrop = w.live k := by
  unfold clearSlot returns
  cases hi : w.slot? i with
  | none => rfl
  | some l =>
      have hset : ((w.giveBack l).setSlot i none).live k + ((w.slot? i).any _).toNat =
        w.live k + 0 := live_setSlot k i none (w.giveBack l)
      rw [hi, Option.any_some] at hset
      simp only
      by_cases hk : l.pool = k
      · rw [if_pos hk]
        rw [beq_iff_eq.mpr hk] at hset
        exact hset
      · rw [if_neg hk]
        rw [beq_false_of_ne hk] at hset
        exact hset

/-- A buffer takes the slot of another one, which goes back. -/
theorem live_replace (k : Nat) (i : Slot) (l : Loan) (w : PoolBench) :
    ((w.clearSlot i).setSlot i (some l)).live k + (w.returns k i).countP Deal.isDrop =
      w.live k + (l.pool == k).toNat := by
  have hset := live_setSlot k i (some l) (w.clearSlot i)
  -- the slot is empty by the time it is filled, whatever was in it
  rw [slot?_clearSlot, if_pos rfl, Option.any_none, Option.any_some, Bool.toNat_false,
    Nat.add_zero] at hset
  rw [hset, ← live_clearSlot k i w, Nat.add_right_comm]

/-- The step takes a buffer from the pool. -/
def takesFrom (k : Nat) (w : PoolBench) : Step → Bool
  | .acquire n _ => w.place n == k
  | _ => false

theorem isAcquire_of_mem_returns {k : Nat} {i : Slot} {d : Deal} (hd : d ∈ w.returns k i) :
    d.isAcquire = false := by
  unfold returns at hd
  split at hd
  · cases hd
  · split at hd
    · rw [List.mem_singleton.mp hd]
      rfl
    · cases hd

theorem countP_isAcquire_deals (k : Nat) (st : Step) (w : PoolBench) :
    (w.deals k st).countP Deal.isAcquire = (w.takesFrom k st).toNat := by
  have hreturns : ∀ i, (w.returns k i).countP Deal.isAcquire = 0 := fun i =>
    List.countP_eq_zero.mpr fun d hd => Bool.eq_false_iff.mp (isAcquire_of_mem_returns hd)
  cases st with
  | acquire n i =>
      rw [deals, takesFrom, List.countP_append, hreturns]
      by_cases hk : w.place n = k
      · rw [if_pos hk, beq_iff_eq.mpr hk]
        rfl
      · rw [if_neg hk, beq_false_of_ne hk]
        rfl
  | drop i => exact hreturns i
  | release n b used =>
      rw [deals]
      split <;> rfl
  | share n => rfl
  | newPool maxIdle => rfl
  | listing n => rfl
  | buffer i bs => rfl

/-- What is taken is live until it comes back. -/
theorem live_step (k : Nat) (st : Step) (w : PoolBench) :
    (w.step st).2.live k + (w.deals k st).countP Deal.isDrop =
      w.live k + (w.takesFrom k st).toNat := by
  cases st with
  | acquire n i =>
      have hdrops : (w.deals k (.acquire n i)).countP Deal.isDrop =
          (w.returns k i).countP Deal.isDrop := by
        rw [deals, List.countP_append]
        split <;> exact Nat.zero_add _
      rw [step_acquire, hdrops]
      exact live_replace k i _ (w.setPool _ _)
  | drop i => exact live_clearSlot k i w
  | release n b used =>
      have hdrops : (w.deals k (.release n b used)).countP Deal.isDrop = 0 := by
        rw [deals]
        split <;> rfl
      rw [hdrops]
      rfl
  | share n => rfl
  | newPool maxIdle => rfl
  | listing n => rfl
  | buffer i bs =>
      cases hi : w.slot? i with
      | none =>
          rw [step_buffer_empty hi]
          rfl
      | some l =>
          have hset := live_setSlot k i
            (some ⟨(bufferStep bs (w.poolAt l.pool) l.buffer).2, l.pool⟩) w
          rw [hi, Option.any_some, Option.any_some] at hset
          rw [step_buffer hi]
          exact Nat.add_right_cancel hset

theorem takesFrom_eq_true {k : Nat} {st : Step} :
    w.takesFrom k st = true ↔ ∃ n i, st = .acquire n i ∧ w.place n = k := by
  cases st <;> simp [takesFrom]

/-- A step allocates storage exactly when it takes a buffer from a pool with nothing idle. -/
theorem allocated_step (h : w.InPlace) (k : Nat) (st : Step) :
    ((w.step st).2.poolAt k).allocated = (w.poolAt k).allocated +
      if w.takesFrom k st = true ∧ (w.poolAt k).idle.length = 0 then 1 else 0 := by
  by_cases hnew : ∃ maxIdle, st = .newPool maxIdle ∧ k = w.pools.length
  · obtain ⟨maxIdle, rfl, rfl⟩ := hnew
    rw [poolAt_newPool, poolAt_of_length_le (Nat.le_refl _), if_neg (fun h => nomatch h.1)]
    rfl
  · rw [poolAt_step h fun maxIdle hst hk => hnew ⟨maxIdle, hst, hk⟩]
    cases ht : w.takesFrom k st with
    | false =>
        have hnone : (w.deals k st).countP Deal.isAcquire = 0 := by
          rw [countP_isAcquire_deals, ht, Bool.toNat_false]
        rw [if_neg (fun h => nomatch h.1), Nat.add_zero]
        exact Pool.allocated_dealAll fun d hd =>
          Bool.eq_false_iff.mpr (List.countP_eq_zero.mp hnone d hd)
    | true =>
        obtain ⟨n, i, rfl, hk⟩ := takesFrom_eq_true.mp ht
        have htaken := ((w.poolAt k).dealt .acquire).allocated_eq
        rw [deals, if_pos hk, List.singleton_append, Pool.dealAll_cons,
          Pool.allocated_dealAll fun d hd => isAcquire_of_mem_returns hd, htaken]
        simp [Pool.Entry.allocates, Deal.isAcquire]

/-- The most buffers of a pool that are live at once. When a buffer is taken into a slot, the one
that was there is live still. -/
def mostLive (k : Nat) : List Step → PoolBench → Nat
  | [], w => w.live k
  | st :: sts, w => max (w.live k + (w.takesFrom k st).toNat) (mostLive k sts (w.step st).2)

/-! ## Every history -/

/-- The deals that steps do with a pool, in turn. -/
def history (k : Nat) : List Step → PoolBench → List Deal
  | [], _ => []
  | st :: sts, w => w.deals k st ++ history k sts (w.step st).2

/-- A pool goes on as its deals have it. -/
theorem poolAt_run (h : w.InPlace) {k : Nat} (hk : k < w.pools.length) (steps : List Step) :
    (run steps w).poolAt k = (w.poolAt k).dealAll (history k steps w) := by
  induction steps generalizing w with
  | nil => rfl
  | cons st sts ih =>
      have hstep : (w.step st).2.poolAt k = _ := poolAt_step h fun _ _ => Nat.ne_of_lt hk
      refine (ih (h.step st) (Nat.lt_of_lt_of_le hk (length_step st w))).trans ?_
      rw [history, Pool.dealAll_append, hstep]

/-- An account of a pool: the deals that made it of nothing, and the most of its buffers that were
live at once. -/
structure Account (k : Nat) (ds : List Deal) (most : Nat) (w : PoolBench) : Prop where
  inPlace : w.InPlace
  pool : ∃ maxIdle, w.poolAt k = (Pool.empty maxIdle).dealAll ds
  unused : w.pools.length ≤ k → ds = []
  live : w.live k + ds.countP Deal.isDrop = ds.countP Deal.isAcquire
  live_le : w.live k ≤ most
  most : (w.poolAt k).maxIdle = none → ds.countP Deal.isGift = 0 → (w.poolAt k).allocated = most

namespace Account

theorem ofPool (maxIdle : Option Nat) (k : Nat) : Account k [] 0 (.ofPool (.empty maxIdle)) := by
  refine {
    inPlace := InPlace.ofPool _
    pool := ?_
    unused := fun _ => rfl
    live := rfl
    live_le := Nat.le_refl 0
    most := fun _ _ => ?_ }
  · cases k with
    | zero => exact ⟨maxIdle, rfl⟩
    | succ k => exact ⟨none, rfl⟩
  · cases k <;> rfl

variable {k most : Nat} {ds : List Deal}

/-- What the ledger says of the pool of an account. -/
theorem books (h : Account k ds most w) :
    (w.poolAt k) = (Pool.empty (w.poolAt k).maxIdle).dealAll ds ∧
      Pool.Books ds (.empty (w.poolAt k).maxIdle) := by
  obtain ⟨maxIdle, hpool⟩ := h.pool
  have hbooks := Pool.books ds (Pool.limited_empty maxIdle)
  have hmax : (w.poolAt k).maxIdle = maxIdle := by
    rw [hpool]
    exact hbooks.maxIdle
  rw [hmax]
  exact ⟨hpool, hbooks⟩

/-- All storage is idle, live or was turned away. -/
theorem balance (h : Account k ds most w) :
    (w.poolAt k).allocated + ds.countP Deal.isGift = (w.poolAt k).idle.length + w.live k +
      (Pool.ledger ds (.empty (w.poolAt k).maxIdle)).countP Pool.Entry.turnsAway := by
  obtain ⟨hpool, hbooks⟩ := h.books
  have hlive := h.live
  have hcount := hbooks.count
  rw [hbooks.discarded, ← hpool] at hcount
  simp only [Pool.empty, List.length_nil] at hcount ⊢
  omega

/-- All storage of a pool without limit that was given nothing is idle or live. -/
theorem balance_of_unlimited (h : Account k ds most w) (hmax : (w.poolAt k).maxIdle = none)
    (hgifts : ds.countP Deal.isGift = 0) :
    (w.poolAt k).allocated = (w.poolAt k).idle.length + w.live k := by
  have hbalance := h.balance
  rwa [h.books.2.turnsAway_of_unlimited hmax, hgifts, Nat.add_zero, Nat.add_zero] at hbalance

/-- A pool that has no limit had none before. -/
theorem unlimited_of_step (h : Account k ds most w) {st : Step}
    (hmax : ((w.step st).2.poolAt k).maxIdle = none) : (w.poolAt k).maxIdle = none := by
  rcases Nat.lt_or_ge k w.pools.length with hk | hk
  · obtain ⟨hpool, hbooks⟩ := h.books
    have hlimited : (w.poolAt k).Limited := hpool ▸ hbooks.limited
    rw [poolAt_step h.inPlace fun _ _ => Nat.ne_of_lt hk,
      (Pool.books (w.deals k st) hlimited).maxIdle] at hmax
    exact hmax
  · rw [poolAt_of_length_le hk]
    rfl

theorem step (h : Account k ds most w) (st : Step) :
    Account k (ds ++ w.deals k st) (max most (w.live k + (w.takesFrom k st).toNat))
      (w.step st).2 := by
  have hlive := h.live
  have hlive_le := h.live_le
  have hlive_step := live_step k st w
  have htaken := countP_isAcquire_deals k st w
  have hunused : w.pools.length ≤ k → ds ++ w.deals k st = [] := fun hk => by
    rw [h.unused hk, h.inPlace.deals_eq_nil hk, List.nil_append]
  refine {
    inPlace := h.inPlace.step st
    pool := ?_
    unused := fun hk => hunused (Nat.le_trans (length_step st w) hk)
    live := by rw [List.countP_append, List.countP_append]; omega
    live_le := by omega
    most := fun hmax hgifts => ?_ }
  · by_cases hnew : ∃ maxIdle, st = .newPool maxIdle ∧ k = w.pools.length
    · obtain ⟨maxIdle, rfl, rfl⟩ := hnew
      exact ⟨maxIdle, by rw [hunused (Nat.le_refl _), poolAt_newPool]; rfl⟩
    · obtain ⟨maxIdle, hpool⟩ := h.pool
      rw [poolAt_step h.inPlace fun maxIdle hst hk => hnew ⟨maxIdle, hst, hk⟩, hpool]
      exact ⟨maxIdle, (Pool.dealAll_append ..).symm⟩
  · rw [List.countP_append] at hgifts
    have hbefore := h.unlimited_of_step hmax
    have hmost := h.most hbefore (by omega)
    have hbalance := h.balance_of_unlimited hbefore (by omega)
    rw [allocated_step h.inPlace]
    cases ht : w.takesFrom k st with
    | false =>
        rw [if_neg (fun h => nomatch h.1), Bool.toNat_false, Nat.add_zero, Nat.add_zero, hmost,
          Nat.max_eq_left hlive_le]
    | true =>
        rw [Bool.toNat_true]
        -- one buffer more than ever is live if nothing was idle, and only then
        split
        · next hempty => rw [Nat.max_eq_right (by omega), hbalance, hempty.2, Nat.zero_add]
        · next hidle =>
            have hpos : (w.poolAt k).idle.length ≠ 0 := fun hlength => hidle ⟨rfl, hlength⟩
            rw [Nat.max_eq_left (by omega), hmost, Nat.add_zero]

theorem run (h : Account k ds most w) (steps : List Step) :
    Account k (ds ++ history k steps w) (max most (mostLive k steps w)) (run steps w) := by
  induction steps generalizing ds most w with
  | nil =>
      rw [history, List.append_nil, mostLive, Nat.max_eq_left h.live_le]
      exact h
  | cons st sts ih =>
      have hrest := ih (h.step st)
      rw [List.append_assoc, Nat.max_assoc] at hrest
      exact hrest

end Account

/-- The idle storage of a pool is handed out last in, first out: while whoever takes something finds
more than there is now, all that is there now stays below, and whoever finds just as much is handed
what is on top now. -/
def LastInFirstOut (k : Nat) (w : PoolBench) : Prop :=
  ∀ (s : Storage) (rest : List Storage) (later : List Step), (w.poolAt k).idle = s :: rest →
    (∀ e ∈ Pool.ledger (history k later w) (w.poolAt k), e.deal.isAcquire = true →
      rest.length + 1 < e.before.idle.length) →
    (s :: rest) <:+ ((run later w).poolAt k).idle ∧
      ∀ n i, (run later w).place n = k →
        ((run later w).poolAt k).idle.length = rest.length + 1 →
        ((run later w).step (.acquire n i)).2.slot? i = some ⟨.ofStorage s, k⟩

theorem lastInFirstOut (h : w.InPlace) (k : Nat) : w.LastInFirstOut k := by
  intro s rest later hidle hlater
  -- a pool that is not there has nothing idle
  have hk : k < w.pools.length := by
    refine Nat.lt_of_not_le fun hk => ?_
    rw [poolAt_of_length_le hk] at hidle
    cases hidle
  have hbelow : (s :: rest) <:+ ((run later w).poolAt k).idle := by
    rw [poolAt_run h hk]
    exact Pool.suffix_dealAll (hidle ▸ List.suffix_refl _) hlater
  refine ⟨hbelow, fun n i hn hlength => ?_⟩
  have htop : s :: rest = ((run later w).poolAt k).idle :=
    hbelow.eq_of_length (List.length_cons.trans hlength.symm)
  rw [slot?_step_acquire, hn, Pool.acquire]
  simp only [← htop]

/-- **The accounts of a pool balance.** In every history of pools with any limits, taken from and
given back to under any numbers, each pool is what the deals with it have made of it, and every one
of them is in order: no more is idle than may be, and storage is allocated exactly when a buffer is
taken while none is idle. What was allocated or given to the pool is idle, live, or was turned away
because as much was idle as may be. Bytes of another size change nothing, what is idle is handed out
last in, first out, and a pool without limit that was given nothing has allocated as many buffers as
were ever live at once. -/
theorem accounts_balance (maxIdle : Option Nat) (steps : List Step) (k : Nat) :
    let w := run steps (.ofPool (.empty maxIdle))
    let p := w.poolAt k
    let ds := history k steps (.ofPool (.empty maxIdle))
    let es := Pool.ledger ds (.empty p.maxIdle)
    p = (Pool.empty p.maxIdle).dealAll ds ∧ (∀ e ∈ es, e.InOrder) ∧
      (∀ m ∈ p.maxIdle, p.idle.length ≤ m) ∧ p.allocated = es.countP Pool.Entry.allocates ∧
      (∀ st, ((w.step st).2.poolAt k).allocated =
        p.allocated + if w.takesFrom k st = true ∧ p.idle.length = 0 then 1 else 0) ∧
      p.allocated + ds.countP Deal.isGift =
        p.idle.length + w.live k + es.countP Pool.Entry.turnsAway ∧
      (∀ n b used, b.size ≠ 65575 → (w.step (.release n b used)).2 = w) ∧
      w.LastInFirstOut k ∧
      (p.maxIdle = none → ds.countP Deal.isGift = 0 →
        p.allocated = mostLive k steps (.ofPool (.empty maxIdle))) := by
  intro w p ds es
  have h : Account k ds _ w := (Account.ofPool maxIdle k).run steps
  obtain ⟨hpool, hbooks⟩ := h.books
  refine ⟨hpool, hbooks.inOrder, fun m hm => ?_, ?_, allocated_step h.inPlace k, h.balance,
    fun n b used hb => ?_, lastInFirstOut h.inPlace k, fun hmax hgifts => ?_⟩
  · have hlimited := hbooks.limited
    rw [← hpool] at hlimited
    exact hlimited m hm
  · have hallocated := hbooks.allocated
    rw [← hpool] at hallocated
    exact hallocated.trans (Nat.zero_add _)
  · have hforeign : (w.poolAt (w.place n)).release b used = (.foreign b.size, _) := dif_neg hb
    simp only [step, hforeign, setPool_poolAt]
  · exact (h.most hmax hgifts).trans (Nat.zero_max _)

/-- A pool without limit is known under two numbers, and another one keeps one buffer. A buffer is
taken into a slot that is not empty, bytes of another size are given away, and buffers come back. -/
def trade : List Step :=
  [.share 0, .newPool (some 1), .acquire 0 0, .acquire 1 1, .acquire 1 1, .drop 0,
    .release 0 (Bytes.ofList [8]) 1, .acquire 2 2, .acquire 2 3, .drop 2, .drop 3]

/-- Three buffers of the one pool were live at once, two of them are idle, and the one that came
back last is handed out once no more is idle than was then. The other pool has turned one away. -/
theorem accounts_balance_trade :
    let w := run trade (.ofPool (.empty none))
    (w.poolAt 0).allocated = 3 ∧ (w.poolAt 0).idle.length = 2 ∧ w.live 0 = 1 ∧
      mostLive 0 trade (.ofPool (.empty none)) = 3 ∧
      (∀ s rest, (w.poolAt 0).idle = s :: rest →
        ((run [.drop 1, .acquire 0 5] w).step (.acquire 1 6)).2.slot? 6 = some ⟨.ofStorage s, 0⟩) ∧
      (Pool.ledger (history 1 trade (.ofPool (.empty none))) (.empty (some 1))).countP
        Pool.Entry.turnsAway = 1 := by
  intro w
  obtain ⟨-, -, -, -, -, -, -, hlast, hmost⟩ := accounts_balance none trade 0
  obtain ⟨-, -, -, -, -, hbalance, -⟩ := accounts_balance none trade 1
  refine ⟨rfl, rfl, rfl, (hmost rfl rfl).symm, fun s rest hidle => ?_, ?_⟩
  · have hrest : rest.length + 1 = 2 := (congrArg List.length hidle).symm
    have hlater : ∀ e ∈ Pool.ledger (history 0 [.drop 1, .acquire 0 5] w) (w.poolAt 0),
        e.deal.isAcquire = true → rest.length + 1 < e.before.idle.length := by
      rw [hrest]
      decide
    exact (hlast s rest [.drop 1, .acquire 0 5] hidle hlater).2 1 6 rfl hrest.symm
  · exact Nat.add_left_cancel (hbalance.symm.trans rfl)

end PoolBench

end Intercept
