import Intercept.Driver.Memory
import Intercept.Proofs.Custody
import Intercept.Proofs.Packet.Sound

set_option autoImplicit false

/-! # Recycled buffers are blank

A pool zeroes only as much of a buffer as is said to be in use, so that no byte of an old packet
shows up in a new one only if nothing was ever left behind what is in use. This is asked of every
buffer here (`Buffer.ZeroTail`), and of every packet that it has nothing behind its extent
(`Packet.Confined`). A driver lives up to it that, when it receives, writes no more than the length
it reports; while it fails it may write what it likes, because what it has written is wiped.

`Station.idle_blank` draws the conclusion for every history of a session. -/

namespace Intercept

/-- A driver that, when it receives a packet, leaves the bytes behind it alone. -/
def Driver.Clean {σ : Type} (D : Driver σ) : Prop :=
  ∀ b s c n a, D.recv b s = some c → c.answer.result = .ok (n, a) →
    ∀ i, n ≤ i → c.answer.bytes.byte i = b.byte i

/-- What a step writes into storage by itself lies within the length it gives the packet. -/
def Station.Step.WithinLength : Station.Step → Prop
  | .newFromStorage _ offset b len _ => offset + b.size ≤ len ∧ len ≤ bufferSize
  | _ => True

/-! ## Buffers with nothing behind what is in use -/

namespace Buffer

variable {b b' : Buffer}

theorem zeroTail_ofStorage_blank : (ofStorage .blank).ZeroTail := Storage.zeroFrom_blank 0

/-- A buffer that comes back is zeroed as far as it was in use, and is zero behind that. -/
theorem zeroTail_release (h : b.ZeroTail) :
    (ofStorage (b.storage.clear 0 b.len)).ZeroTail := by
  rw [Storage.clear_eq_blank h]
  exact zeroTail_ofStorage_blank

theorem zeroTail_writeStorage? {s : Storage} {offset len : Nat} {data : Bytes}
    (h : (ofStorage s).ZeroTail) (hd : offset + data.size ≤ len)
    (hw : (ofStorage s).writeStorage? offset data = some b) (hb : b.setLen? len = some b') :
    b'.ZeroTail := by
  unfold writeStorage? at hw
  split at hw
  · cases hw
    obtain ⟨-, hs, hl⟩ := setLen?_eq_some.1 hb
    intro i hi
    rw [hs, Storage.byte_clear]
    split
    · rfl
    · rw [overwrite, Storage.byte_overwrite, if_neg (by omega)]
      exact h i (Nat.zero_le _)
  · cases hw

/-- What a clean driver receives into blank storage is a buffer with nothing behind the packet. -/
theorem zeroTail_receive {s : Storage} {bytes : Bytes} {n : Nat} (h : (ofStorage s).ZeroTail)
    (hb : ((ofStorage s).overwrite 0 bytes).setLen? n = some b)
    (hclean : ∀ i, n ≤ i → bytes.byte i = s.bytes.byte i) : b.ZeroTail := by
  obtain ⟨-, hs, hl⟩ := setLen?_eq_some.1 hb
  intro i hi
  have hzero : s.bytes.byte i = 0 := h i (Nat.zero_le _)
  rw [hs, Storage.byte_clear]
  split
  · rfl
  · rw [overwrite, Storage.byte_overwrite]
    split
    · rw [Nat.sub_zero, hclean i (by omega), hzero]
    · exact hzero

end Buffer

/-- Of buffers it is asked that nothing is left behind what is in use, and of packets that nothing
is left behind their extent. A clean driver lives up to that. -/
def Custody.confining {σ : Type} {D : Driver σ} (hD : D.Clean) : Custody D where
  buffer := Buffer.ZeroTail
  packet := Packet.Confined
  admits offset b len := offset + b.size ≤ len ∧ len ≤ bufferSize
  blank := Buffer.zeroTail_ofStorage_blank
  release _ h := Buffer.zeroTail_release h
  ofBuffer _ a h := Packet.confined_ofBuffer a h
  append _ _ _ h hb := Buffer.zeroTail_append? hb h
  write s offset data len b h hallow hw := by
    refine ⟨fun hn => ?_, fun b' hb => Buffer.zeroTail_writeStorage? h hallow.1 hw hb⟩
    rw [Buffer.setLen?, dif_pos hallow.2] at hn
    cases hn
  receive s t c n a b h hc hr hb :=
    Buffer.zeroTail_receive h hb (hD s.bytes t c n a hc hr)
  run p op := Packet.kept_of_effects (fun _ _ h he => h.effect he) (p.effects_run op)
  checksums p s hp := hp.rewrite _ ((D.size_checksums ..).trans p.size_contents)
  retire _ hp := hp.exists_retire

/-! ## The memory driver -/

/-- The memory driver copies a packet to the front of the bytes and leaves the rest alone. -/
theorem Memory.clean_driver : Memory.driver.Clean := by
  intro b m c n a hc hr i hi
  obtain ⟨r, -, rfl⟩ := Option.map_eq_some_iff.1 hc
  simp only [receive, Call.plain] at hr ⊢
  obtain ⟨p, hp, he⟩ := Except.map_eq_ok.1 hr
  rw [hp]
  cases he
  simp only [Except.map, Except.toOption, Option.getD]
  rw [Bytes.byte_overwrite, if_neg (by omega)]

/-- Of a packet of a session with the memory driver it is asked that it was made of a new one by
operations and by recomputing the checksums in software. -/
def Custody.reaching : Custody Memory.driver where
  buffer := Buffer.ZeroTail
  packet := Packet.Reachable
  admits := (confining Memory.clean_driver).admits
  blank := (confining Memory.clean_driver).blank
  release := (confining Memory.clean_driver).release
  ofBuffer b a h := .fresh b a h
  append := (confining Memory.clean_driver).append
  write := (confining Memory.clean_driver).write
  receive := (confining Memory.clean_driver).receive
  run _ op hp := .run op hp
  checksums _ _ hp := .refill hp
  retire _ hp := hp.sound.confined.exists_retire

/-! ## Every history -/

namespace Station

variable {σ : Type}

/-- **Recycled buffers are blank.** In every history of a session with a clean driver, all idle
storage is zero from end to end, and so is every buffer that is taken next; and no packet, in a slot
or with the receive loop, has anything but zeros behind its extent. -/
theorem idle_blank {D : Driver σ} (hD : D.Clean) (device : σ) (config : Config)
    (maxIdle : Option Nat) {steps : List Step} (hs : ∀ x ∈ steps, x.WithinLength) :
    let st := run D steps (.ofSession (.ofDevice device config (.empty maxIdle)))
    (∀ t ∈ st.session.pool.idle, t.bytes = Bytes.zeros 65575) ∧
      st.session.acquire.1 = .ofStorage .blank ∧
      (∀ i p, st.slot? i = some p → p.buffer.storage.ZeroFrom p.extent) ∧
      ∀ l ∈ st.loop, (∀ p ∈ l.queue, p.buffer.storage.ZeroFrom p.extent) ∧
        ∀ p, l.phase = .publishing p → p.buffer.storage.ZeroFrom p.extent := by
  intro st
  have h : (Custody.confining hD).GuardsStation st := by
    refine Custody.guards_run (fun _ ht => (nomatch ht)) fun x hx => ?_
    have hlen := hs x hx
    cases x with
    | newFromStorage i offset b len a => exact hlen
    | _ => trivial
  have hblank : ∀ t : Storage, (Buffer.ofStorage t).ZeroTail → t = .blank :=
    fun t ht => Storage.eq_blank_of_zeroFrom_zero ht
  refine ⟨fun t ht => ?_, ?_, fun i p hp => (h.slots i p hp).zero, fun l hl => ?_⟩
  · rw [hblank t (h.session t ht)]
    rfl
  · obtain ⟨⟨t, ht, hb⟩, -⟩ := h.session.acquire
    rw [ht] at hb ⊢
    rw [hblank t hb]
  · have hloop := h.loop l hl
    exact ⟨fun p hp => (hloop.queue p hp).zero, fun p hp => (hloop.publishing p hp).zero⟩

/-- In every history of a session with the memory driver, every packet, in a slot or with the
receive loop, was made of a new one by operations and by recomputing the checksums in software. -/
theorem reachable_run (device : Memory) (config : Config) (maxIdle : Option Nat)
    {steps : List Step} (hs : ∀ x ∈ steps, x.WithinLength) :
    Custody.reaching.GuardsStation
      (run Memory.driver steps (.ofSession (.ofDevice device config (.empty maxIdle)))) := by
  refine Custody.guards_run (fun _ ht => (nomatch ht)) fun x hx => ?_
  have hlen := hs x hx
  cases x with
  | newFromStorage i offset b len a => exact hlen
  | _ => trivial

/-- A packet of the memory driver that is given up leaves one idle storage, and that is blank. -/
theorem idle_blank_dropped :
    let steps : List Step :=
      [.newPacket 0 (Bytes.ofList [69, 1, 2]) .blank, .checksums 0 0, .dropPacket 0]
    let st := run Memory.driver steps (.ofSession (.ofDevice .fresh .standard (.empty (some 4))))
    st.session.pool.idle.length = 1 ∧ ∀ t ∈ st.session.pool.idle, t.bytes = Bytes.zeros 65575 :=
  ⟨rfl, (idle_blank Memory.clean_driver .fresh .standard (some 4)
    (fun x hx => by
      simp only [List.mem_cons, List.not_mem_nil, or_false] at hx
      rcases hx with rfl | rfl | rfl <;> trivial)).1⟩

end Station

end Intercept
