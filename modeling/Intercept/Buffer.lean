import Intercept.Storage

set_option autoImplicit false

/-! # Buffers

A buffer is storage of which a leading part is in use, its contents. Shortening the contents zeroes
what they give up; lengthening them shows whatever the storage holds there, which is zeros as
long as nobody has written past the contents. -/

namespace Intercept

/-- Storage, and how much of it is in use. -/
structure Buffer where
  storage : Storage
  len : Nat
  len_le : len ≤ bufferSize

namespace Buffer

@[ext] theorem ext {a b : Buffer} (hs : a.storage = b.storage) (hl : a.len = b.len) : a = b := by
  cases a; cases b; cases hs; cases hl; rfl

/-- A buffer with nothing in use. -/
def ofStorage (s : Storage) : Buffer := ⟨s, 0, Nat.zero_le _⟩

/-- The bytes in use. -/
def contents (b : Buffer) : Bytes := b.storage.bytes.extract 0 b.len

/-- How many bytes can be put behind those in use. -/
def remaining (b : Buffer) : Nat := bufferSize - b.len

/-- Change how much is in use, zeroing what is given up. Out of range beyond the storage. -/
def setLen? (n : Nat) (b : Buffer) : Option Buffer :=
  if h : n ≤ bufferSize then some ⟨b.storage.clear n b.len, n, h⟩ else none

/-- Put bytes behind those in use, if they fit. -/
def append? (data : Bytes) (b : Buffer) : Option Buffer :=
  if h : b.len + data.size ≤ bufferSize then
    some ⟨b.storage.overwrite b.len data, b.len + data.size, h⟩
  else none

/-- Overwrite storage, in use or not. The amount in use stays. -/
def overwrite (offset : Nat) (data : Bytes) (b : Buffer) : Buffer :=
  { b with storage := b.storage.overwrite offset data }

/-- Overwrite storage, in use or not. Out of range beyond the storage. -/
def writeStorage? (offset : Nat) (data : Bytes) (b : Buffer) : Option Buffer :=
  if offset + data.size ≤ bufferSize then some (b.overwrite offset data) else none

/-- Overwrite bytes in use. Out of range beyond them. -/
def writeContents? (offset : Nat) (data : Bytes) (b : Buffer) : Option Buffer :=
  if offset + data.size ≤ b.len then some (b.overwrite offset data) else none

/-- All storage that is not in use is zero. -/
def ZeroTail (b : Buffer) : Prop := b.storage.ZeroFrom b.len

/-- The buffer by its record, for listings. Its bytes are not shown. -/
def listing (b : Buffer) : String :=
  "PooledBuffer \x7b len: " ++ toString b.len ++ ", capacity: " ++ toString bufferSize ++ " \x7d"

@[simp] theorem size_contents (b : Buffer) : b.contents.size = b.len := by
  have := b.len_le
  have := b.storage.size_eq
  simp only [contents, ByteArray.size_extract]
  omega

theorem byte_contents (b : Buffer) (i : Nat) :
    b.contents.byte i = if i < b.len then b.storage.bytes.byte i else 0 := by
  rw [contents, Bytes.byte_extract, Nat.zero_add]

end Buffer

end Intercept
