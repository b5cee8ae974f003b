import Intercept.PoolBench
import Intercept.Proofs.Recycling

set_option autoImplicit false

/-! # Careful clients get blank buffers

When a buffer comes back, a pool zeroes only as much of it as is in use, and it relies on its
clients for the rest. A buffer may be written behind its contents, but not be given up before its
contents were made to cover what was written; and bytes that a pool is given must be zero behind
what is said to have been used of them.

How far a buffer was written behind its contents cannot be seen in the buffer itself, so it is kept
beside the bench here (`Watched.reach`), and `Watched.Allows` says in terms of it what a careful
client may do next. What a client does to a buffer leaves zeros behind the contents and the reach
(`PoolBench.zeroFrom_bufferStep`), so that what comes back is blank once it is cleared
(`Pool.Blank.drop`), and what is handed out is blank (`PoolBench.careful_blank`). -/

namespace Intercept

/-! ## Pools with nothing but blank storage -/

namespace Pool

/-- All idle storage is zero from end to end. -/
def Blank (p : Pool) : Prop := ∀ s ∈ p.idle, s = .blank

variable {p : Pool}

theorem blank_empty (maxIdle : Option Nat) : (empty maxIdle).Blank := fun _ hs => nomatch hs

namespace Blank

theorem acquire (h : p.Blank) : p.acquire.1 = .ofStorage .blank ∧ p.acquire.2.Blank := by
  obtain ⟨idle, maxIdle, allocated, discarded⟩ := p
  cases idle with
  | nil => exact ⟨rfl, fun _ hs => nomatch hs⟩
  | cons t rest =>
      have ht : t = .blank := h t List.mem_cons_self
      subst ht
      exact ⟨rfl, fun s hs => h s (List.mem_cons_of_mem _ hs)⟩

theorem store {s : Storage} {used : Nat} (h : p.Blank) (hs : s.ZeroFrom used) :
    (p.store s used).2.Blank := by
  unfold Pool.store
  split
  · intro t ht
    rcases List.mem_cons.mp ht with rfl | ht
    · exact Storage.clear_eq_blank hs
    · exact h t ht
  · exact h

theorem drop {b : Buffer} (h : p.Blank) (hb : b.ZeroTail) : (p.drop b).Blank := h.store hb

theorem release {b : Bytes} {used : Nat} (h : p.Blank) (hb : ∀ i, used ≤ i → b.byte i = 0) :
    (p.release b used).2.Blank := by
  unfold Pool.release
  split
  · exact h.store hb
  · exact h

end Blank

end Pool

namespace PoolBench

/-! ## Slots and places -/

section Bench

variable {w : PoolBench}

theorem slot?_setSlot (i j : Slot) (b : Option Loan) (w : PoolBench) :
    (w.setSlot i b).slot? j = if i = j then b else w.slot? j :=
  List.join_getElem?_fill ..

/-- All idle storage of all pools is zero from end to end. -/
def Blank (w : PoolBench) : Prop := ∀ p ∈ w.pools, p.Blank

namespace Blank

variable (h : w.Blank)

include h

theorem poolAt (k : Nat) : (w.poolAt k).Blank := by
  unfold PoolBench.poolAt
  cases hk : w.pools[k]? with
  | none => exact Pool.blank_empty none
  | some p => exact h p (List.mem_of_getElem? hk)

theorem setPool {p : Pool} (k : Nat) (hp : p.Blank) : (w.setPool k p).Blank := by
  intro q hq
  rcases List.mem_or_eq_of_mem_set hq with hq | rfl
  · exact h q hq
  · exact hp

theorem clearSlot {i : Slot} (hi : ∀ l, w.slot? i = some l → l.buffer.ZeroTail) :
    (w.clearSlot i).Blank := by
  unfold PoolBench.clearSlot
  split
  · exact h
  · next l hl => exact h.setPool l.pool ((h.poolAt l.pool).drop (hi l hl))

end Blank

/-- A slot that is given up is empty, and the others are as they were. -/
theorem slot?_clearSlot (i j : Slot) (w : PoolBench) :
    (w.clearSlot i).slot? j = if i = j then none else w.slot? j := by
  unfold clearSlot
  split
  · next hi =>
      split
      · next hij => rw [← hij, hi]
      · rfl
  · rw [slot?_setSlot]
    rfl

/-- What is acquired goes into its slot after the buffer that was there has gone back. -/
theorem step_acquire (n : Nat) (i : Slot) (w : PoolBench) :
    (w.step (.acquire n i)).2 =
      ((w.setPool (w.place n) (w.poolAt (w.place n)).acquire.2).clearSlot i).setSlot i
        (some ⟨(w.poolAt (w.place n)).acquire.1, w.place n⟩) := rfl

theorem slot?_step_acquire (n : Nat) (i : Slot) (w : PoolBench) :
    (w.step (.acquire n i)).2.slot? i =
      some ⟨(w.poolAt (w.place n)).acquire.1, w.place n⟩ := by
  rw [step_acquire, slot?_setSlot, if_pos rfl]

theorem step_buffer {i : Slot} {l : Loan} (hl : w.slot? i = some l) (bs : BufferStep) :
    (w.step (.buffer i bs)).2 =
      w.setSlot i (some ⟨(bufferStep bs (w.poolAt l.pool) l.buffer).2, l.pool⟩) := by
  simp only [step, hl]

theorem step_buffer_empty {i : Slot} (hi : w.slot? i = none) (bs : BufferStep) :
    (w.step (.buffer i bs)).2 = w := by
  simp only [step, hi]

end Bench

/-! ## Careful clients -/

/-- How far a step writes into the storage of a buffer without its contents growing along. -/
def BufferStep.extent : BufferStep → Nat
  | .writeStorage offset data =>
    if data.size ≠ 0 ∧ offset + data.size ≤ bufferSize then offset + data.size else 0
  | _ => 0

/-- Pools and buffers, and for each slot how far the buffer in it was written behind its contents,
which is zero if the contents have covered that since. -/
structure Watched where
  bench : PoolBench
  reach : Slot → Nat

/-- A reach counts until the contents cover it. -/
def uncovered (reach len : Nat) : Nat := if reach ≤ len then 0 else reach

theorem max_uncovered (reach len : Nat) : max len (uncovered reach len) = max len reach := by
  unfold uncovered
  split <;> omega

namespace Watched

/-- One pool, known under the number zero. -/
def ofPool (p : Pool) : Watched := ⟨.ofPool p, fun _ => 0⟩

/-- How far the buffer in a slot is written behind its contents after a step. -/
def reachAfter (st : Step) (w : Watched) (i : Slot) : Nat :=
  match st with
  | .acquire _ j | .drop j => if j = i then 0 else w.reach i
  | .buffer j bs =>
    if j = i then
      match (w.bench.step st).2.slot? i with
      | none => 0
      | some l => uncovered (max (w.reach i) bs.extent) l.buffer.len
    else w.reach i
  | _ => w.reach i

/-- Do a step and keep up with what it writes. -/
def step (st : Step) (w : Watched) : Watched := ⟨(w.bench.step st).2, w.reachAfter st⟩

/-- Do steps in turn. -/
def run : List Step → Watched → Watched
  | [], w => w
  | st :: sts, w => run sts (w.step st)

/-- A careful client gives up a buffer only when its contents cover all that was written into it,
and gives a pool only bytes that are zero behind those said to be used. -/
def Allows (w : Watched) : Step → Prop
  | .acquire _ i | .drop i => w.reach i = 0
  | .release _ b used => ∀ i, used ≤ i → b.byte i = 0
  | _ => True

/-- Each step is one a careful client may do then. -/
def Careful : List Step → Watched → Prop
  | [], _ => True
  | st :: sts, w => w.Allows st ∧ Careful sts (w.step st)

variable {w : Watched} {st : Step}

/-- What is watched goes on as if it were not. -/
theorem bench_run (steps : List Step) (w : Watched) :
    (run steps w).bench = PoolBench.run steps w.bench := by
  induction steps generalizing w with
  | nil => rfl
  | cons st sts ih => exact ih (w.step st)

end Watched

/-! ## What a client does to a buffer -/

theorem snd_changed (r : Option Buffer) (b : Buffer) : (changed r b).2 = r.getD b := by
  cases r <;> rfl

/-- Behind the contents and the reach of a buffer nothing is written but zeros. -/
theorem zeroFrom_bufferStep {b : Buffer} {reach : Nat} (h : b.storage.ZeroFrom (max b.len reach))
    (bs : BufferStep) (p : Pool) :
    (bufferStep bs p b).2.storage.ZeroFrom
      (max (bufferStep bs p b).2.len (max reach bs.extent)) := by
  have hstay : b.storage.ZeroFrom (max b.len (max reach bs.extent)) := by
    intro i hi
    exact h i (by omega)
  cases bs with
  | append data =>
      simp only [bufferStep, Buffer.append?]
      split
      · next b' hb' =>
          split at hb'
          · cases hb'
            intro i hi
            simp only at hi
            rw [Storage.byte_overwrite, if_neg (by omega)]
            exact h i (by omega)
          · cases hb'
      · exact hstay
  | setLen n =>
      simp only [bufferStep, snd_changed]
      cases hb : b.setLen? n with
      | none => exact hstay
      | some b' =>
          obtain ⟨-, hs, hl⟩ := Buffer.setLen?_eq_some.mp hb
          intro i hi
          rw [Option.getD_some, hl] at hi
          rw [Option.getD_some, hs, Storage.byte_clear]
          -- behind the new length there is what was given up, or what was behind the old one
          split
          · rfl
          · exact h i (by omega)
  | writeStorage offset data =>
      simp only [bufferStep, snd_changed, Buffer.writeStorage?]
      split
      · next hfit =>
          intro i hi
          simp only [Option.getD_some, Buffer.overwrite, BufferStep.extent] at hi ⊢
          -- nothing is written at the extent of the step or behind it
          have hout : ¬(offset + data.size ≤ bufferSize ∧ offset ≤ i ∧ i < offset + data.size) := by
            split at hi <;> omega
          rw [Storage.byte_overwrite, if_neg hout]
          exact h i (by omega)
      · exact hstay
  | writeContents offset data =>
      simp only [bufferStep, snd_changed, Buffer.writeContents?]
      split
      · next hfit =>
          intro i hi
          simp only [Option.getD_some, Buffer.overwrite] at hi ⊢
          rw [Storage.byte_overwrite, if_neg (by omega)]
          exact h i (by omega)
      · exact hstay
  | look => exact hstay
  | listing => exact hstay

/-! ## Every history -/

/-- All idle storage is blank, and every buffer is zero behind its contents and its reach. -/
structure Watched.Zeroed (w : Watched) : Prop where
  idle : w.bench.Blank
  slots : ∀ i l, w.bench.slot? i = some l → l.buffer.storage.ZeroFrom (max l.buffer.len (w.reach i))

namespace Watched.Zeroed

variable {w : Watched} {st : Step}

theorem ofPool (maxIdle : Option Nat) : (Watched.ofPool (.empty maxIdle)).Zeroed := by
  refine ⟨fun p hp => ?_, fun i l hl => nomatch hl⟩
  rw [List.mem_singleton.mp hp]
  exact Pool.blank_empty maxIdle

/-- A settled buffer has nothing behind its contents. -/
theorem zeroTail (h : w.Zeroed) {i : Slot} {l : Loan} (hl : w.bench.slot? i = some l)
    (hi : w.reach i = 0) : l.buffer.ZeroTail := by
  have hzero := h.slots i l hl
  rwa [hi, Nat.max_zero] at hzero

/-- What a careful client does next leaves everything as asked. -/
theorem step (h : w.Zeroed) (hst : w.Allows st) : (w.step st).Zeroed := by
  cases st with
  | share n => exact ⟨h.idle, h.slots⟩
  | newPool maxIdle =>
      refine ⟨fun p hp => ?_, h.slots⟩
      rcases List.mem_append.mp hp with hp | hp
      · exact h.idle p hp
      · rw [List.mem_singleton.mp hp]
        exact Pool.blank_empty maxIdle
  | acquire n i =>
      obtain ⟨hblank, hpool⟩ := (h.idle.poolAt (w.bench.place n)).acquire
      have hback := (h.idle.setPool (w.bench.place n) hpool).clearSlot
        (i := i) fun l hl => h.zeroTail hl hst
      refine ⟨hback, fun j l hl => ?_⟩
      simp only [Watched.step, step_acquire, slot?_setSlot, reachAfter] at hl ⊢
      by_cases hij : i = j
      · rw [if_pos hij] at hl
        cases hl
        rw [hblank]
        exact Storage.zeroFrom_blank _
      · rw [if_neg hij, slot?_clearSlot, if_neg hij] at hl
        rw [if_neg hij]
        exact h.slots j l hl
  | drop i =>
      refine ⟨h.idle.clearSlot fun l hl => h.zeroTail hl hst, fun j l hl => ?_⟩
      simp only [Watched.step, PoolBench.step, slot?_clearSlot, reachAfter] at hl ⊢
      by_cases hij : i = j
      · rw [if_pos hij] at hl
        cases hl
      · rw [if_neg hij] at hl ⊢
        exact h.slots j l hl
  | release n b used =>
      exact ⟨h.idle.setPool _ ((h.idle.poolAt _).release hst), h.slots⟩
  | listing n => exact ⟨h.idle, h.slots⟩
  | buffer i bs =>
      cases hi : w.bench.slot? i with
      | none =>
          have hsame := step_buffer_empty hi bs
          refine ⟨by rw [Watched.step, hsame]; exact h.idle, fun j l hl => ?_⟩
          simp only [Watched.step, hsame, reachAfter] at hl ⊢
          rw [if_neg fun hij => by rw [← hij, hi] at hl; cases hl]
          exact h.slots j l hl
      | some l =>
          have hstep := step_buffer hi bs
          refine ⟨by rw [Watched.step, hstep]; exact h.idle, fun j l' hl' => ?_⟩
          simp only [Watched.step, hstep, slot?_setSlot, reachAfter] at hl' ⊢
          by_cases hij : i = j
          · subst hij
            rw [if_pos rfl] at hl'
            cases hl'
            simp only [if_true]
            rw [max_uncovered]
            exact zeroFrom_bufferStep (h.slots i l hi) bs _
          · rw [if_neg hij] at hl' ⊢
            exact h.slots j l' hl'

/-- Careful clients leave everything as asked in every history. -/
theorem run {steps : List Step} (h : w.Zeroed) (hsteps : Careful steps w) :
    (Watched.run steps w).Zeroed := by
  induction steps generalizing w with
  | nil => exact h
  | cons st sts ih => exact ih (h.step hsteps.1) hsteps.2

end Watched.Zeroed

/-- **Careful clients get blank buffers.** In every history of pools with any limits whose clients
are careful, every buffer in a slot has the full size and nothing but zeros behind its contents and
what was written behind them and is still to be covered; all idle storage is zero from end to end,
and so is every buffer that is acquired next, with nothing in use. -/
theorem careful_blank (maxIdle : Option Nat) {steps : List Step}
    (hsteps : Watched.Careful steps (.ofPool (.empty maxIdle))) :
    let w := Watched.run steps (.ofPool (.empty maxIdle))
    w.bench = PoolBench.run steps (.ofPool (.empty maxIdle)) ∧
      (∀ i l, w.bench.slot? i = some l → l.buffer.storage.bytes.size = 65575 ∧
        l.buffer.storage.ZeroFrom (max l.buffer.len (w.reach i)) ∧
        (w.reach i = 0 → ∀ j, l.buffer.len ≤ j → l.buffer.storage.bytes.byte j = 0)) ∧
      (∀ p ∈ w.bench.pools, ∀ s ∈ p.idle, s.bytes = Bytes.zeros 65575) ∧
      ∀ n i, ∃ l, (w.bench.step (.acquire n i)).2.slot? i = some l ∧ l.buffer.len = 0 ∧
        l.buffer.storage.bytes = Bytes.zeros 65575 := by
  intro w
  have h : w.Zeroed := (Watched.Zeroed.ofPool maxIdle).run hsteps
  refine ⟨Watched.bench_run steps _, fun i l hl => ?_, fun p hp s hs => ?_, fun n i => ?_⟩
  · exact ⟨l.buffer.storage.size_eq, h.slots i l hl, h.zeroTail hl⟩
  · rw [h.idle p hp s hs]
    rfl
  · obtain ⟨hblank, -⟩ := (h.idle.poolAt (w.bench.place n)).acquire
    refine ⟨⟨.ofStorage .blank, w.bench.place n⟩, ?_, rfl, rfl⟩
    rw [step_acquire, slot?_setSlot, if_pos rfl, hblank]

/-- A buffer of a pool without limit is written behind its contents while another buffer is taken
from a pool that keeps nothing. -/
def behind : List Step :=
  [.newPool (some 0), .share 1, .acquire 0 0, .buffer 0 (.append (Bytes.ofList [1, 2])),
    .buffer 0 (.writeStorage 4 (Bytes.ofList [3])), .acquire 2 9]

/-- The contents come to cover what was written and are cut again, both buffers are given up, and
storage that was not taken from a pool is given to one. -/
def settled : List Step :=
  [.buffer 0 (.setLen 5), .buffer 0 (.setLen 3), .drop 9, .drop 0,
    .release 0 (Bytes.zeros 65575) 0, .release 0 (Bytes.ofList [8, 8]) 2]

/-- A byte behind the contents is owed until the contents cover it, and is zeroed in the end. -/
theorem careful_blank_settled :
    (Watched.run behind (.ofPool (.empty none))).reach 0 = 5 ∧
      Watched.Careful (behind ++ settled) (.ofPool (.empty none)) ∧
      ∀ p ∈ (Watched.run (behind ++ settled) (.ofPool (.empty none))).bench.pools,
        ∀ s ∈ p.idle, s.bytes = Bytes.zeros 65575 := by
  have hcareful : Watched.Careful (behind ++ settled) (.ofPool (.empty none)) := by
    refine ⟨trivial, trivial, rfl, trivial, trivial, rfl, trivial, trivial, rfl, rfl, ?_, ?_,
      trivial⟩
    · exact fun i _ => Bytes.byte_zeros ..
    · exact fun i hi => Bytes.byte_of_size_le hi
  exact ⟨rfl, hcareful, (careful_blank none hcareful).2.2.1⟩

end PoolBench

end Intercept
