import Intercept.Proofs.Careful

set_option autoImplicit false

/-! # Buffers as lists of bytes

Seen through its contents alone, a buffer is a list of at most 65575 bytes: bytes go behind those
that are there, the contents are cut or lengthened with zeros, and bytes are overwritten in place
(`BufferStep.onList`). Lengthening shows storage as it is, so this needs the storage behind the
contents to be zero. Cutting zeroes what it gives up, and nothing else writes behind the contents;
`Buffer.Mirrors` says so up to a bound, which every step keeps (`Buffer.Mirrors.step`).

With the bound at the length of the contents nothing is asked of the storage: no buffer shows again
what it has given up. With the bound at the end of the storage all contents are those of the list,
but only if the storage that was handed out is blank. A pool hands out what it was given,
so it takes careful clients for that: `not_actsAsList` is a history with one that is not, and
`actsAsList_iff` says what holds in every history. -/

namespace Intercept

theorem Pool.exists_acquire (p : Pool) : ∃ s, p.acquire.1 = .ofStorage s := by
  unfold Pool.acquire
  split <;> exact ⟨_, rfl⟩

namespace PoolBench

/-! ## Steps on the contents -/

namespace BufferStep

/-- A step that changes a buffer through its contents only. -/
def OnContents : BufferStep → Prop
  | .writeStorage .. => False
  | _ => True

/-- The list of bytes that a step makes of one. What does not fit is not done. -/
def onList : BufferStep → List UInt8 → List UInt8
  | .append data, l => if l.length + data.size ≤ bufferSize then l ++ data.toList else l
  | .setLen n, l =>
    if n ≤ bufferSize then l.take n ++ .replicate (n - l.length) 0 else l
  | .writeContents offset data, l =>
    if offset + data.size ≤ l.length then
      l.take offset ++ data.toList ++ l.drop (offset + data.size)
    else l
  | _, l => l

/-- The buffer that a step makes of one. The pool is only looked at. -/
def after (bs : BufferStep) (b : Buffer) : Buffer := (bufferStep bs (.empty none) b).2

theorem snd_bufferStep (bs : BufferStep) (p : Pool) (b : Buffer) :
    (bufferStep bs p b).2 = bs.after b := by
  cases bs <;> rfl

/-- A step that does not fit leaves the buffer as it was. -/
theorem after_append (data : Bytes) (b : Buffer) :
    (append data).after b = (b.append? data).getD b := by
  simp only [after, bufferStep]
  cases b.append? data <;> rfl

theorem after_setLen (n : Nat) (b : Buffer) : (setLen n).after b = (b.setLen? n).getD b :=
  snd_changed ..

theorem after_writeContents (offset : Nat) (data : Bytes) (b : Buffer) :
    (writeContents offset data).after b = (b.writeContents? offset data).getD b :=
  snd_changed ..

end BufferStep

/-- The list that steps make of one in turn. -/
def onListAll (steps : List BufferStep) (l : List UInt8) : List UInt8 :=
  steps.foldl (fun l bs => bs.onList l) l

/-- The buffer that steps make of one in turn. -/
def afterAll (steps : List BufferStep) (b : Buffer) : Buffer :=
  steps.foldl (fun b bs => bs.after b) b

end PoolBench

/-! ## A buffer beside a list -/

namespace Buffer

open PoolBench

variable {m : Nat} {l : List UInt8} {b : Buffer}

/-- A list beside a buffer: as long as its contents, and up to position `m` the bytes of the
storage, which are zero behind the contents. -/
structure Mirrors (m : Nat) (l : List UInt8) (b : Buffer) : Prop where
  length : l.length = b.len
  byte : ∀ i, i < m → b.storage.bytes.byte i = l[i]?.getD 0

namespace Mirrors

/-- The contents of any buffer, up to their end. -/
theorem contents (b : Buffer) : b.Mirrors b.len b.contents.toList := by
  refine ⟨by rw [Bytes.length_toList, size_contents], fun i hi => ?_⟩
  rw [← Bytes.byte_eq_getElem?, byte_contents, if_pos hi]

/-- Nothing is in use yet of storage that is blank. -/
theorem nil {s : Storage} (h : s = .blank) : (ofStorage s).Mirrors bufferSize [] := by
  subst h
  exact ⟨rfl, fun i _ => Storage.zeroFrom_blank 0 i (Nat.zero_le _)⟩

theorem empty (s : Storage) : (ofStorage s).Mirrors 0 [] :=
  ⟨rfl, fun i hi => absurd hi (Nat.not_lt_zero i)⟩

/-- Up to the bound the contents show the list. -/
theorem byte_contents (h : b.Mirrors m l) {i : Nat} (hi : i < m) :
    b.contents.byte i = l[i]?.getD 0 := by
  rw [Buffer.byte_contents]
  split
  · exact h.byte i hi
  · rw [List.getElem?_eq_none (by rw [h.length]; omega), Option.getD_none]

/-- A list that goes beside all of the storage is the contents. -/
theorem toList_contents (h : b.Mirrors bufferSize l) : b.contents.toList = l := by
  have hlen := b.len_le
  have hcontents : b.contents = .ofList l := by
    refine Bytes.ext_byte (by rw [size_contents, Bytes.size_ofList, h.length]) fun i hi => ?_
    rw [Bytes.size_ofList, h.length] at hi
    rw [Buffer.byte_contents, if_pos hi, h.byte i (by omega), Bytes.byte_ofList]
  rw [hcontents, Bytes.toList_ofList]

theorem append (h : b.Mirrors m l) (data : Bytes) :
    ((BufferStep.append data).after b).Mirrors m ((BufferStep.append data).onList l) := by
  rw [BufferStep.after_append, append?, BufferStep.onList, h.length]
  split
  · next hfit =>
      refine ⟨by simp [h.length], fun i hi => ?_⟩
      simp only [Option.getD_some]
      rw [Storage.byte_overwrite, List.getElem?_append, h.length, h.byte i hi]
      by_cases hlo : i < b.len
      · rw [if_neg (by omega), if_pos hlo]
      · rw [if_neg hlo, ← Bytes.byte_eq_getElem?]
        split
        · rfl
        -- behind what was appended there is still nothing
        · rw [Bytes.byte_of_size_le (by omega), List.getElem?_eq_none (by rw [h.length]; omega),
            Option.getD_none]
  · exact h

theorem setLen (h : b.Mirrors m l) (n : Nat) :
    ((BufferStep.setLen n).after b).Mirrors m ((BufferStep.setLen n).onList l) := by
  have hbound : n ≤ bufferSize ∨ ¬n ≤ bufferSize := Decidable.em _
  have hlen := h.length
  rw [BufferStep.after_setLen, BufferStep.onList]
  rcases hbound with hn | hn
  · obtain ⟨c, hc⟩ : ∃ c, b.setLen? n = some c := ⟨_, dif_pos hn⟩
    obtain ⟨-, hs, hl⟩ := setLen?_eq_some.mp hc
    rw [hc, if_pos hn, Option.getD_some]
    refine ⟨by simp only [List.length_append, List.length_take, List.length_replicate]; omega,
      fun i hi => ?_⟩
    rw [hs, Storage.byte_clear, h.byte i hi, List.getElem?_append, List.length_take,
      List.getElem?_take, List.getElem?_replicate]
    by_cases hkept : i < min n l.length
    · rw [if_neg (by omega), if_pos hkept, if_pos (by omega)]
    · -- what is given up is zeroed, and what is shown anew was zero
      rw [if_neg hkept]
      split
      · split <;> rfl
      · rw [List.getElem?_eq_none (by omega)]
        split <;> rfl
  · rw [setLen?, dif_neg hn, if_neg hn]
    exact h

theorem writeContents (h : b.Mirrors m l) (offset : Nat) (data : Bytes) :
    ((BufferStep.writeContents offset data).after b).Mirrors m
      ((BufferStep.writeContents offset data).onList l) := by
  have hlen := h.length
  have hb := b.len_le
  rw [BufferStep.after_writeContents, writeContents?, BufferStep.onList, hlen]
  split
  · next hfit =>
      refine ⟨?_, fun i hi => ?_⟩
      · simp only [List.length_append, List.length_take, List.length_drop, Bytes.length_toList,
          Option.getD_some, overwrite]
        omega
      · simp only [Option.getD_some, overwrite]
        rw [Storage.byte_overwrite, h.byte i hi, List.append_assoc, List.getElem?_append,
          List.getElem?_append, List.length_take, Bytes.length_toList, List.getElem?_take,
          List.getElem?_drop]
        by_cases hlo : i < offset
        · rw [if_neg (by omega), if_pos (by omega), if_pos hlo]
        · rw [if_neg (show ¬i < min offset l.length by omega), Nat.min_eq_left (by omega)]
          by_cases hin : i < offset + data.size
          · rw [if_pos (by omega), if_pos (by omega), Bytes.byte_eq_getElem?]
          · rw [if_neg (by omega), if_neg (by omega),
              show offset + data.size + (i - offset - data.size) = i by omega]
  · exact h

/-- A step on the contents does to the list what it does to the buffer. -/
theorem step (h : b.Mirrors m l) {bs : BufferStep} (hbs : bs.OnContents) :
    (bs.after b).Mirrors m (bs.onList l) := by
  cases bs with
  | append data => exact h.append data
  | setLen n => exact h.setLen n
  | writeStorage offset data => exact hbs.elim
  | writeContents offset data => exact h.writeContents offset data
  | look => exact h
  | listing => exact h

theorem steps (h : b.Mirrors m l) {steps : List BufferStep}
    (hsteps : ∀ bs ∈ steps, bs.OnContents) :
    (afterAll steps b).Mirrors m (onListAll steps l) := by
  induction steps generalizing b l with
  | nil => exact h
  | cons bs rest ih =>
      exact ih (h.step (hsteps bs (List.mem_cons_self ..)))
        fun x hx => hsteps x (List.mem_cons_of_mem _ hx)

end Mirrors

end Buffer

namespace PoolBench

/-! ## Working on a slot -/

variable {w : PoolBench} {i : Slot} {l : Loan}

/-- Do steps in turn on the buffer in a slot. -/
def work (i : Slot) (steps : List BufferStep) (w : PoolBench) : PoolBench :=
  run (steps.map (.buffer i)) w

/-- The bytes in use in a slot. -/
def contents? (w : PoolBench) (i : Slot) : Option (List UInt8) :=
  (w.slot? i).map fun l => l.buffer.contents.toList

/-- A buffer in a slot has room for 65575 bytes, says no to more, and is left as it was then. -/
structure Bounded (w : PoolBench) (i : Slot) (b : Buffer) : Prop where
  capacity : b.storage.bytes.size = 65575
  remaining : b.len + b.remaining = 65575
  append : ∀ data, (w.step (.buffer i (.append data))).1.answer =
    .yesNo (decide (b.len + data.size ≤ 65575))
  append_refused : ∀ data, 65575 < b.len + data.size → (w.step (.buffer i (.append data))).2 = w
  setLen : ∀ n, (w.step (.buffer i (.setLen n))).1.answer = .outOfRange ↔ 65575 < n
  setLen_refused : ∀ n, 65575 < n → (w.step (.buffer i (.setLen n))).2 = w

theorem setSlot_of_slot? (h : w.slot? i = some l) : w.setSlot i (some l) = w := by
  rw [setSlot, List.fill_of_join_getElem? h]

theorem slot?_work (h : w.slot? i = some l) (steps : List BufferStep) :
    (w.work i steps).slot? i = some ⟨afterAll steps l.buffer, l.pool⟩ := by
  induction steps generalizing w l with
  | nil => exact h
  | cons bs rest ih =>
      refine ih (l := ⟨bs.after l.buffer, l.pool⟩) ?_
      rw [step_buffer h, slot?_setSlot, if_pos rfl, BufferStep.snd_bufferStep]

theorem answer_buffer (h : w.slot? i = some l) (bs : BufferStep) :
    (w.step (.buffer i bs)).1.answer = (bufferStep bs (w.poolAt l.pool) l.buffer).1 := by
  simp only [step, h]

/-- A step that leaves the buffer as it was leaves everything as it was. -/
theorem step_buffer_of_after (h : w.slot? i = some l) {bs : BufferStep}
    (hbs : bs.after l.buffer = l.buffer) : (w.step (.buffer i bs)).2 = w := by
  rw [step_buffer h, BufferStep.snd_bufferStep, hbs]
  exact setSlot_of_slot? h

theorem bounded_of_slot? (h : w.slot? i = some l) : w.Bounded i l.buffer := by
  have hlen := l.buffer.len_le
  have hsize : bufferSize = 65575 := rfl
  refine {
    capacity := l.buffer.storage.size_eq
    remaining := by rw [Buffer.remaining]; omega
    append := fun data => ?_
    append_refused := fun data hfull => step_buffer_of_after h ?_
    setLen := fun n => ?_
    setLen_refused := fun n hfull => step_buffer_of_after h ?_ }
  · rw [answer_buffer h]
    by_cases hfit : l.buffer.len + data.size ≤ bufferSize
    · simp only [bufferStep, Buffer.append?, dif_pos hfit, ← hsize, decide_eq_true hfit]
    · simp only [bufferStep, Buffer.append?, dif_neg hfit, ← hsize, decide_eq_false hfit]
  · rw [BufferStep.after_append, Buffer.append?, dif_neg (by omega), Option.getD_none]
  · rw [answer_buffer h]
    by_cases hfit : n ≤ bufferSize
    · simp only [bufferStep, changed, Buffer.setLen?, dif_pos hfit, reduceCtorEq, false_iff]
      omega
    · simp only [bufferStep, changed, Buffer.setLen?, dif_neg hfit, true_iff]
      omega
  · rw [BufferStep.after_setLen, Buffer.setLen?, dif_neg (by omega), Option.getD_none]

/-- Lengthening the contents of an empty buffer shows its storage. -/
theorem contents_setLen_ofStorage {s : Storage} {n : Nat} (hn : n ≤ bufferSize) :
    (afterAll [.setLen n] (.ofStorage s)).contents = s.bytes.extract 0 n := by
  obtain ⟨b, hb⟩ : ∃ b, (Buffer.ofStorage s).setLen? n = some b := ⟨_, dif_pos hn⟩
  obtain ⟨-, hs, hlen⟩ := Buffer.setLen?_eq_some.mp hb
  have hafter : afterAll [.setLen n] (.ofStorage s) = b := by
    simp only [afterAll, List.foldl_cons, List.foldl_nil, BufferStep.after_setLen, hb,
      Option.getD_some]
  rw [hafter, Buffer.contents, hs, hlen]
  refine Bytes.extract_congr (Bytes.size_clear ..) fun i _ _ => ?_
  rw [Storage.byte_clear, Buffer.ofStorage, if_neg (by omega)]

/-- The buffer in a slot, from which nothing was taken yet, goes on as an empty list would,
whatever is done to its contents. -/
def ActsAsList (w : PoolBench) (i : Slot) : Prop :=
  ∀ steps : List BufferStep, (∀ bs ∈ steps, bs.OnContents) →
    (w.work i steps).contents? i = some (onListAll steps [])

theorem onContents_setLen (n : Nat) : ∀ bs ∈ [BufferStep.setLen n], bs.OnContents := by
  intro bs hbs
  rw [List.mem_singleton.mp hbs]
  trivial

/-- An empty buffer goes on as an empty list would exactly if its storage is blank. -/
theorem actsAsList_iff_blank {s : Storage} {k : Nat} (h : w.slot? i = some ⟨.ofStorage s, k⟩) :
    w.ActsAsList i ↔ s = .blank := by
  constructor
  · intro hall
    -- lengthened to the end, the contents are all of the storage
    have hshown := hall [.setLen bufferSize] (onContents_setLen bufferSize)
    have hlist : onListAll [.setLen bufferSize] [] = List.replicate bufferSize 0 := by
      simp only [onListAll, List.foldl_cons, List.foldl_nil, BufferStep.onList, Nat.le_refl,
        if_true, List.take_nil, List.length_nil, Nat.sub_zero, List.nil_append]
    simp only [contents?, slot?_work h, Option.map_some, hlist,
      contents_setLen_ofStorage (Nat.le_refl _)] at hshown
    refine Storage.eq_blank_of_zeroFrom_zero fun j _ => ?_
    by_cases hj : j < bufferSize
    · have hbyte := congrArg (fun l => (l[j]?).getD 0) (Option.some.inj hshown)
      simp only [← Bytes.byte_eq_getElem?, Bytes.byte_extract, Nat.zero_add, if_pos hj,
        List.getElem?_replicate, Option.getD_some] at hbyte
      exact hbyte
    · exact Bytes.byte_of_size_le (by rw [s.size_eq]; omega)
  · intro hs steps hsteps
    simp only [contents?, slot?_work h, Option.map_some]
    rw [((Buffer.Mirrors.nil hs).steps hsteps).toList_contents]

/-- As far as a buffer is in use, it goes on as the list of its contents would. -/
theorem goesOn_of_slot? (h : w.slot? i = some l) {steps : List BufferStep}
    (hsteps : ∀ bs ∈ steps, bs.OnContents) :
    ∃ l', (w.work i steps).slot? i = some l' ∧
      l'.buffer.len = (onListAll steps l.buffer.contents.toList).length ∧
      ∀ j, j < l.buffer.len →
        l'.buffer.contents.byte j = (onListAll steps l.buffer.contents.toList)[j]?.getD 0 := by
  have hmirrors := (Buffer.Mirrors.contents l.buffer).steps hsteps
  exact ⟨_, slot?_work h steps, hmirrors.length.symm, fun j hj => hmirrors.byte_contents hj⟩

/-! ## Buffers that are acquired -/

theorem slot?_acquire (n : Nat) (i : Slot) (w : PoolBench) :
    ∃ s, (w.step (.acquire n i)).2.slot? i = some ⟨.ofStorage s, w.place n⟩ := by
  obtain ⟨s, hs⟩ := (w.poolAt (w.place n)).exists_acquire
  exact ⟨s, by rw [slot?_step_acquire, hs]⟩

theorem slot?_acquire_of_blank (h : w.Blank) (n : Nat) (i : Slot) :
    (w.step (.acquire n i)).2.slot? i = some ⟨.ofStorage .blank, w.place n⟩ := by
  rw [slot?_step_acquire, (h.poolAt _).acquire.1]

/-- **A buffer acts as a list of bytes as far as its storage was blank.** Take any history of pools,
acquire a buffer, and change its contents by any steps. Then the buffer is as long as a list would
be that was empty and was changed by the same steps, has room for 65575 bytes, and is left as it was
when asked for more; and as far as it is in use by then, it goes on as the list of its contents
would, so that nothing shows again that was given up. All that it shows is the list, whatever is
done to it, exactly if its storage was blank, and so it is if the clients of the pools were careful
before. -/
theorem actsAsList_iff (maxIdle : Option Nat) (history : List Step) (n : Nat) (i : Slot) :
    let w := ((run history (.ofPool (.empty maxIdle))).step (.acquire n i)).2
    (∀ steps : List BufferStep, (∀ bs ∈ steps, bs.OnContents) →
      ∃ l, (w.work i steps).slot? i = some l ∧ (w.work i steps).Bounded i l.buffer ∧
        l.buffer.len = (onListAll steps []).length ∧
        ∀ more : List BufferStep, (∀ bs ∈ more, bs.OnContents) →
          ∃ l', ((w.work i steps).work i more).slot? i = some l' ∧
            l'.buffer.len = (onListAll more l.buffer.contents.toList).length ∧
            ∀ j, j < l.buffer.len →
              l'.buffer.contents.byte j = (onListAll more l.buffer.contents.toList)[j]?.getD 0) ∧
    (w.ActsAsList i ↔ ∃ l, w.slot? i = some l ∧ l.buffer.storage.bytes = Bytes.zeros 65575) ∧
    (Watched.Careful history (.ofPool (.empty maxIdle)) → w.ActsAsList i) := by
  intro w
  obtain ⟨s, hslot⟩ := slot?_acquire n i (run history (.ofPool (.empty maxIdle)))
  refine ⟨fun steps hsteps => ?_, ?_, fun hcareful => ?_⟩
  · have hwork := slot?_work hslot steps
    exact ⟨_, hwork, bounded_of_slot? hwork,
      ((Buffer.Mirrors.empty s).steps hsteps).length.symm, fun more => goesOn_of_slot? hwork⟩
  · rw [actsAsList_iff_blank hslot]
    constructor
    · rintro rfl
      exact ⟨_, hslot, rfl⟩
    · rintro ⟨l, hl, hzeros⟩
      rw [← Option.some.inj (hslot.symm.trans hl)] at hzeros
      exact Storage.ext hzeros
  · have hblank := ((Watched.Zeroed.ofPool maxIdle).run hcareful).idle
    rw [Watched.bench_run] at hblank
    exact (actsAsList_iff_blank (slot?_acquire_of_blank hblank n i)).mpr rfl

/-- A buffer is written to and given up, so that its storage is handed out again. -/
def recycled : List Step := [.acquire 0 1, .buffer 1 (.append (Bytes.ofList [9, 9])), .drop 1]

/-- Contents are cut and lengthened again, and overwritten at their end. -/
def regrown : List BufferStep :=
  [.append (Bytes.ofList [1, 2, 3]), .setLen 1, .setLen 3, .writeContents 2 (Bytes.ofList [7])]

/-- Storage that was written to is blank when it is handed out again, and what was cut away does not
show again. There is no way to get more than fits. -/
theorem actsAsList_iff_recycled :
    let w := ((run recycled (.ofPool (.empty none))).step (.acquire 0 0)).2
    (∃ l, w.slot? 0 = some l ∧ l.buffer.storage.bytes = Bytes.zeros 65575) ∧
      (w.work 0 regrown).contents? 0 = some [1, 0, 7] ∧
      ((w.work 0 regrown).step (.buffer 0 (.setLen 65576))).2 = w.work 0 regrown := by
  intro w
  have hregrown : ∀ bs ∈ regrown, bs.OnContents := by
    simp [regrown, BufferStep.OnContents]
  have hlist : onListAll regrown [] = [1, 0, 7] := rfl
  have hcareful : Watched.Careful recycled (.ofPool (.empty none)) :=
    ⟨rfl, trivial, rfl, trivial⟩
  obtain ⟨hsteps, hblank, hacts⟩ := actsAsList_iff none recycled 0 0
  obtain ⟨l, -, hbounded, -⟩ := hsteps regrown hregrown
  refine ⟨hblank.mp (hacts hcareful), ?_, hbounded.setLen_refused 65576 (by decide)⟩
  rw [hacts hcareful regrown hregrown, hlist]

/-- Storage that is given to a pool is handed out next, cleared as far as it was said to be used. -/
theorem slot?_acquire_of_release (s : Storage) (used : Nat) :
    ((run [.release 0 s.bytes used] (.ofPool (.empty none))).step (.acquire 0 0)).2.slot? 0 =
      some ⟨.ofStorage (s.clear 0 used), 0⟩ := by
  simp only [run, step, Pool.release, dif_pos s.size_eq]
  rfl

/-- Storage with something in its first byte. -/
def written : Storage :=
  ⟨(Bytes.zeros bufferSize).put 0 255, (Bytes.size_put ..).trans (Bytes.size_zeros _)⟩

theorem byte_written : written.bytes.byte 0 = 255 := by
  have hfirst : 0 < (Bytes.zeros bufferSize).size :=
    Nat.lt_of_lt_of_eq (by decide) (Bytes.size_zeros _).symm
  unfold written
  rw [Bytes.byte_put]
  exact if_pos ⟨rfl, hfirst⟩

/-- What shows of storage first, if it was given to a pool with nothing said to be used. -/
theorem extract_clear_zero (s : Storage) :
    (s.clear 0 0).bytes.extract 0 1 = Bytes.ofList [s.bytes.byte 0] := by
  have hsize : ((s.clear 0 0).bytes.extract 0 1).size = 1 := by
    rw [ByteArray.size_extract, (s.clear 0 0).size_eq]
    rfl
  refine Bytes.ext_byte hsize fun i hi => ?_
  rw [Bytes.size_ofList, List.length_singleton] at hi
  obtain rfl : i = 0 := Nat.lt_one_iff.mp hi
  rw [Bytes.byte_extract, if_pos Nat.one_pos, Storage.byte_clear,
    if_neg fun h => Nat.not_lt_zero _ h.2, Bytes.byte_ofList]
  rfl

/-- Storage is given to a pool with no word about the byte in it, and lengthening the contents of
the buffer that is acquired next shows that byte where a list would show zero. -/
theorem not_actsAsList :
    let w := ((run [.release 0 written.bytes 0] (.ofPool (.empty none))).step (.acquire 0 0)).2
    w.slot? 0 ≠ none ∧ (w.work 0 [.setLen 1]).contents? 0 = some [255] ∧
      onListAll [.setLen 1] [] = [0] ∧ ¬w.ActsAsList 0 := by
  intro w
  have hslot : w.slot? 0 = some ⟨.ofStorage (written.clear 0 0), 0⟩ := slot?_acquire_of_release ..
  have hone : 1 ≤ bufferSize := by decide
  have hshown : (w.work 0 [.setLen 1]).contents? 0 = some [255] := by
    rw [contents?, slot?_work hslot, Option.map_some, contents_setLen_ofStorage hone,
      extract_clear_zero, byte_written, Bytes.toList_ofList]
  have hlist : onListAll [.setLen 1] [] = [0] := rfl
  refine ⟨by rw [hslot]; exact Option.some_ne_none _, hshown, hlist, fun hacts => ?_⟩
  have hzero := hacts [.setLen 1] (onContents_setLen 1)
  rw [hshown, hlist] at hzero
  exact absurd (Option.some.inj hzero) (by decide)

end PoolBench

end Intercept
