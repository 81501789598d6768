import Shadowsocks.Lib.Memory

/-!
# `buffer_t`

The growable buffer of `encrypt.h`: an index, a length and an allocation. The
`capacity` field of the C structure always equals the size of the allocation
(`balloc`, `brealloc` and `bfree` are the only writers of either), so here it is the
length of `array`. `bytes` is the range `array[0, len)` that most functions work on
and `pending` the range `array[idx, idx + len)` that the send callbacks drain.
-/

namespace Shadowsocks
set_option autoImplicit false
open Lib

/-- `buffer_t`: `len` bytes are in use, those before `idx` have been sent. `array` is all that is
allocated. -/
structure Buffer where
  idx : Nat := 0
  len : Nat := 0
  array : Bytes := []
  deriving DecidableEq, Repr

namespace Buffer

def capacity (b : Buffer) : Nat := b.array.length

/-- What is in use. -/
def bytes (b : Buffer) : Bytes := window b.array 0 b.len

/-- What is still to be sent. -/
def pending (b : Buffer) : Bytes := window b.array b.idx b.len

/-- The length is covered by the allocation. -/
def Fits (b : Buffer) : Prop := b.len ≤ b.array.length

instance (b : Buffer) : Decidable b.Fits := inferInstanceAs (Decidable (_ ≤ _))

/-- `n` bytes from `off` on are read, whether they are in use or not. -/
def read (b : Buffer) (off n : Nat) : Except Fault Bytes :=
  load b.array off n

/-- Bytes are stored from `off` on. The length stays, as it does after a `memcpy`. -/
def write (b : Buffer) (off : Nat) (bs : Bytes) : Except Fault Buffer := do
  let array ← store b.array off bs
  pure { b with array }

/-- `memmove` within the buffer. -/
def memmove (b : Buffer) (dst src n : Nat) : Except Fault Buffer := do
  let array ← move b.array dst src n
  pure { b with array }

/-- One byte of the allocation. -/
def byte (b : Buffer) (i : Nat) : Except Fault UInt8 :=
  match b.array[i]? with
  | some x => .ok x
  | none => .error .outOfBounds

/-- `memcpy` to the end of the bytes in use, and the new length. -/
def append (b : Buffer) (bs : Bytes) : Except Fault Buffer := do
  let b ← b.write b.len bs
  pure { b with len := b.len + bs.length }

/-- A buffer that fits has as many bytes in use as it says. -/
theorem length_bytes {b : Buffer} (h : b.Fits) : b.bytes.length = b.len :=
  length_window (by rw [Nat.zero_add]; exact h)

theorem read_ok {b : Buffer} {off n : Nat} (fits : off + n ≤ b.array.length) :
    b.read off n = .ok (window b.array off n) := load_ok fits

theorem write_ok {b : Buffer} {off : Nat} {bs : Bytes} (fits : off + bs.length ≤ b.array.length) :
    b.write off bs = .ok { b with array := splice b.array off bs } := by
  simp [write, store_ok fits]

theorem memmove_ok {b : Buffer} {dst src n : Nat} (source : src + n ≤ b.array.length)
    (target : dst + n ≤ b.array.length) :
    b.memmove dst src n = .ok { b with array := splice b.array dst (window b.array src n) } := by
  simp [memmove, move_ok source target]

/-- A read inside the allocation gives what is there, and any other one is a fault. -/
theorem read_eq_ok {b : Buffer} {off n : Nat} {bs : Bytes} :
    b.read off n = .ok bs ↔ off + n ≤ b.array.length ∧ bs = window b.array off n := by
  rw [read, load]
  split
  · rename_i fits
    simp [fits, eq_comm]
  · rename_i outside
    exact ⟨fun no => (by cases no), fun no => absurd no.1 outside⟩

/-- A write inside the allocation changes these bytes and no other ones. -/
theorem write_eq_ok {b b' : Buffer} {off : Nat} {bs : Bytes} :
    b.write off bs = .ok b' ↔ off + bs.length ≤ b.array.length ∧ b' = { b with array := splice b.array off bs } := by
  rw [write, store]
  split
  · rename_i fits
    simp [fits, eq_comm]
  · rename_i outside
    exact ⟨fun no => (by cases no), fun no => absurd no.1 outside⟩

theorem byte_eq_ok {b : Buffer} {i : Nat} {x : UInt8} : b.byte i = .ok x ↔ i < b.array.length ∧ window b.array i 1 = [x] := by
  rw [Buffer.byte]
  constructor
  · intro h
    split at h
    · rename_i y found
      cases h
      obtain ⟨within, rfl⟩ := List.getElem?_eq_some_iff.mp found
      exact ⟨within, by rw [window, List.drop_eq_getElem_cons within]; rfl⟩
    · cases h
  · rintro ⟨within, only⟩
    rw [window, List.drop_eq_getElem_cons within, List.take_succ_cons, List.take_zero, List.cons.injEq] at only
    rw [List.getElem?_eq_getElem within, only.1]

/-- Source and target of a move are inside the allocation. -/
theorem memmove_eq_ok {b b' : Buffer} {dst src n : Nat} :
    b.memmove dst src n = .ok b' ↔ src + n ≤ b.array.length ∧ dst + n ≤ b.array.length ∧
      b' = { b with array := splice b.array dst (window b.array src n) } := by
  constructor
  · intro h
    obtain ⟨array, moved, h⟩ := bind_eq_ok.mp h
    obtain ⟨bs, loaded, stored⟩ := bind_eq_ok.mp moved
    obtain ⟨source, rfl⟩ := read_eq_ok.mp (show b.read src n = .ok bs from loaded)
    rw [store, length_window source] at stored
    split at stored
    · rename_i target
      cases stored
      cases h
      exact ⟨source, target, rfl⟩
    · cases stored
  · rintro ⟨source, target, rfl⟩
    exact memmove_ok source target

end Buffer

/-- `balloc`: an empty buffer over a fresh allocation. -/
def balloc (junk : Nat → UInt8) (capacity : Nat) : Buffer :=
  { array := (List.range capacity).map junk }

/-- `brealloc`: make room for `len` and for `capacity` bytes, never shrinking. The
`ptr == NULL` guard of the source has no counterpart: every caller passes a buffer. -/
def brealloc (junk : Nat → UInt8) (b : Buffer) (len capacity : Nat) : Except Fault Buffer :=
  let realCapacity := max len capacity
  if b.capacity < realCapacity then do
    let array ← grow junk b.array realCapacity
    pure { b with array }
  else
    pure b

/-- `bfree`: the buffer no longer owns memory. -/
def bfree (_ : Buffer) : Buffer := { idx := 0, len := 0, array := [] }

@[simp] theorem length_balloc (junk : Nat → UInt8) (capacity : Nat) :
    (balloc junk capacity).array.length = capacity := by simp [balloc]

/-- What every caller needs to know of `brealloc`: the old bytes are kept, the index
and length too, and there is room. -/
theorem brealloc_ok (junk : Nat → UInt8) (b : Buffer) (len capacity : Nat)
    (size : max len capacity < 2 ^ 63) :
    ∃ more, brealloc junk b len capacity = .ok { b with array := b.array ++ more } ∧
      len ≤ (b.array ++ more).length ∧ capacity ≤ (b.array ++ more).length := by
  unfold brealloc Buffer.capacity
  by_cases short : b.array.length < max len capacity
  · obtain ⟨more, eq, long⟩ := grow_ok junk b.array size
    exact ⟨more, by simp [short, eq], by omega, by omega⟩
  · exact ⟨[], by simp [short], by simp; omega, by simp; omega⟩

/-- How large the allocation becomes. -/
theorem brealloc_length (junk : Nat → UInt8) (b : Buffer) (len capacity : Nat) (size : max len capacity < 2 ^ 63) :
    ∃ b', brealloc junk b len capacity = .ok b' ∧ b'.array.length = max b.array.length (max len capacity) := by
  unfold brealloc Buffer.capacity
  by_cases short : b.array.length < max len capacity
  · obtain ⟨more, eq, long⟩ := grow_ok junk b.array size
    exact ⟨{ b with array := b.array ++ more }, by simp [short, eq], long⟩
  · exact ⟨b, by simp [short], by omega⟩

/-- The buffer may have grown at its end. -/
theorem brealloc_cases {junk : Nat → UInt8} {b b' : Buffer} {len capacity : Nat}
    (h : brealloc junk b len capacity = .ok b') : ∃ more, b' = { b with array := b.array ++ more } := by
  unfold brealloc at h
  dsimp only at h
  split at h
  · obtain ⟨array, grown, h⟩ := bind_eq_ok.mp h
    unfold grow at grown
    split at grown
    · cases grown
      cases h
      exact ⟨_, rfl⟩
    · cases grown
  · cases h
    exact ⟨[], by rw [List.append_nil]⟩

/-! ## Allocations only grow -/

/-- The allocation of `b'` is at least that of `b`, and still one the allocator hands
out. -/
def Buffer.Grown (b b' : Buffer) : Prop :=
  b.array.length ≤ b'.array.length ∧ (b.array.length < 2 ^ 63 → b'.array.length < 2 ^ 63)

/-- A buffer that was only written to. -/
theorem Buffer.Grown.of_eq {b b' : Buffer} (same : b'.array.length = b.array.length) : b.Grown b' := by
  unfold Buffer.Grown
  omega

theorem Buffer.Grown.trans {a b c : Buffer} (ab : a.Grown b) (bc : b.Grown c) : a.Grown c :=
  ⟨Nat.le_trans ab.1 bc.1, fun small => bc.2 (ab.2 small)⟩

theorem Buffer.write_grown {b b' : Buffer} {off : Nat} {bs : Bytes} (h : b.write off bs = .ok b') : b.Grown b' := by
  obtain ⟨array, stored, h⟩ := bind_eq_ok.mp h
  cases h
  unfold store at stored
  split at stored
  · rename_i fits
    cases stored
    exact .of_eq (length_splice fits)
  · cases stored

theorem Buffer.memmove_grown {b b' : Buffer} {dst src n : Nat} (h : b.memmove dst src n = .ok b') : b.Grown b' := by
  obtain ⟨array, moved, h⟩ := bind_eq_ok.mp h
  obtain ⟨bs, -, stored⟩ := bind_eq_ok.mp moved
  cases h
  unfold store at stored
  split at stored
  · rename_i fits
    cases stored
    exact .of_eq (length_splice fits)
  · cases stored

theorem brealloc_grown {junk : Nat → UInt8} {b b' : Buffer} {len capacity : Nat}
    (h : brealloc junk b len capacity = .ok b') : b.Grown b' := by
  unfold brealloc at h
  dsimp only at h
  split at h
  · obtain ⟨array, grown, h⟩ := bind_eq_ok.mp h
    cases h
    unfold grow at grown
    split at grown
    · cases grown
      simp only [Buffer.Grown, List.length_append, List.length_map, List.length_range]
      omega
    · cases grown
  · cases h
    exact .of_eq rfl

theorem Buffer.read_length {b : Buffer} {off n : Nat} {bs : Bytes} (h : b.read off n = .ok bs) : bs.length = n := by
  obtain ⟨fits, rfl⟩ := Buffer.read_eq_ok.mp h
  exact length_window fits

/-- What was written is inside the allocation. -/
theorem Buffer.write_room {b b' : Buffer} {off : Nat} {bs : Bytes} (h : b.write off bs = .ok b') :
    off + bs.length ≤ b'.array.length :=
  Nat.le_trans (Buffer.write_eq_ok.mp h).1 (Buffer.write_grown h).1

theorem Buffer.memmove_room {b b' : Buffer} {dst src n : Nat} (h : b.memmove dst src n = .ok b') :
    dst + n ≤ b'.array.length :=
  Nat.le_trans (Buffer.memmove_eq_ok.mp h).2.1 (Buffer.memmove_grown h).1

/-! ## Writing leaves the index alone -/

theorem Buffer.write_idx {b b' : Buffer} {off : Nat} {bs : Bytes} (h : b.write off bs = .ok b') : b'.idx = b.idx := by
  obtain ⟨array, -, h⟩ := bind_eq_ok.mp h
  cases h
  rfl

theorem Buffer.memmove_idx {b b' : Buffer} {dst src n : Nat} (h : b.memmove dst src n = .ok b') : b'.idx = b.idx := by
  obtain ⟨array, -, h⟩ := bind_eq_ok.mp h
  cases h
  rfl

theorem brealloc_idx {junk : Nat → UInt8} {b b' : Buffer} {len capacity : Nat}
    (h : brealloc junk b len capacity = .ok b') : b'.idx = b.idx := by
  unfold brealloc at h
  dsimp only at h
  split at h
  · obtain ⟨array, -, h⟩ := bind_eq_ok.mp h
    cases h
    rfl
  · cases h
    rfl

theorem Buffer.append_size {b b' : Buffer} {bs : Bytes} (h : b.append bs = .ok b') : b'.array.length = b.array.length := by
  obtain ⟨written, wrote, h⟩ := bind_eq_ok.mp h
  obtain ⟨room, rfl⟩ := Buffer.write_eq_ok.mp wrote
  cases h
  exact length_splice room

theorem Buffer.append_len {b b' : Buffer} {bs : Bytes} (h : b.append bs = .ok b') : b'.len = b.len + bs.length := by
  obtain ⟨written, wrote, h⟩ := bind_eq_ok.mp h
  obtain ⟨array, -, wrote⟩ := bind_eq_ok.mp wrote
  cases wrote
  cases h
  rfl

/-! ## Buffers that hold a known string -/

/-- The part of the buffer in use is `bs`. -/
structure Buffer.Holds (b : Buffer) (bs : Bytes) : Prop where
  fits : b.Fits
  bytes : b.bytes = bs

theorem Buffer.Holds.len {b : Buffer} {bs : Bytes} (h : b.Holds bs) : b.len = bs.length := by
  rw [← h.bytes, Buffer.length_bytes h.fits]

theorem Buffer.Holds.room {b : Buffer} {bs : Bytes} (h : b.Holds bs) : bs.length ≤ b.array.length := by
  rw [← h.len]
  exact h.fits

theorem Buffer.holds_nil {b : Buffer} (empty : b.len = 0) : b.Holds [] where
  fits := by rw [Buffer.Fits, empty]; exact Nat.zero_le _
  bytes := by rw [Buffer.bytes, empty, window_nil]

/-- Any part of what a buffer holds is found at its place in the array. -/
theorem Buffer.Holds.window {b : Buffer} {bs : Bytes} (h : b.Holds bs) {off n : Nat} (inside : off + n ≤ bs.length) :
    window b.array off n = Lib.window bs off n := by
  rw [← h.len] at inside
  rw [← h.bytes, Buffer.bytes, window_window _ inside, Nat.zero_add]

/-- Reading a known part. -/
theorem Buffer.Holds.read {b : Buffer} (before part after : Bytes) (h : b.Holds (before ++ (part ++ after))) :
    b.read before.length part.length = .ok part := by
  have room := h.room
  simp only [List.length_append] at room
  rw [Buffer.read_ok (by omega), h.window (by simp only [List.length_append]; omega), window_append_right,
    List.take_left' rfl]

/-- Reading `len` bytes gives all that the buffer holds. -/
theorem Buffer.Holds.readAll {b : Buffer} {bs : Bytes} (h : b.Holds bs) : b.read 0 b.len = .ok bs := by
  have fits : b.len ≤ b.array.length := h.fits
  rw [Buffer.read_ok (by omega)]
  exact congrArg Except.ok h.bytes

theorem Buffer.Holds.byte {b : Buffer} (before : Bytes) (x : UInt8) (after : Bytes) (h : b.Holds (before ++ x :: after)) :
    b.byte before.length = .ok x := by
  have at_ : b.array[before.length]? = some x := by
    have part := congrArg (·[before.length]?) h.bytes
    simp only [Buffer.bytes, getElem?_window, h.len, List.length_append, List.length_cons] at part
    rw [if_pos (by omega), Nat.zero_add] at part
    rw [part, List.getElem?_append_right (Nat.le_refl _), Nat.sub_self, List.getElem?_cons_zero]
  rw [Buffer.byte, at_]

/-- Appending needs room behind what is in use. -/
theorem Buffer.Holds.append {b : Buffer} {bs : Bytes} (h : b.Holds bs) (more : Bytes)
    (room : bs.length + more.length ≤ b.array.length) :
    ∃ b', b.append more = .ok b' ∧ b'.Holds (bs ++ more) ∧ b'.array.length = b.array.length := by
  have len := h.len
  have within := h.fits
  have size : (splice b.array b.len more).length = b.array.length := length_splice (by omega)
  refine ⟨{ b with array := splice b.array b.len more, len := b.len + more.length }, ?_, ⟨?_, ?_⟩, size⟩
  · rw [Buffer.append, Buffer.write_ok (by omega)]
    rfl
  · dsimp only [Buffer.Fits]
    omega
  · have start : b.len ≤ b.array.length := within
    rw [Buffer.bytes, window_add, window_splice_below start (by omega), Nat.zero_add, window_splice_self _ _ _ start]
    exact congrArg (· ++ more) h.bytes

/-- Overwriting the start of a buffer. -/
theorem Buffer.Holds.overwrite {b : Buffer} {old bs rest : Bytes} (h : b.Holds (old ++ rest)) (same : old.length = bs.length) :
    ∃ b', b.write 0 bs = .ok b' ∧ b'.Holds (bs ++ rest) ∧ b'.array.length = b.array.length := by
  have room := h.room
  have len := h.len
  rw [List.length_append] at room len
  have size : (splice b.array 0 bs).length = b.array.length := length_splice (by omega)
  refine ⟨_, Buffer.write_ok (by omega), ⟨?_, ?_⟩, size⟩
  · have within := h.fits
    rw [Buffer.Fits] at within ⊢
    dsimp only
    omega
  · dsimp only [Buffer.bytes]
    have tail : Lib.window b.array bs.length rest.length = rest := by
      rw [← same, h.window (Nat.le_of_eq List.length_append.symm), window_append_right, List.take_length]
    rw [len, same, window_add, window_splice_self _ _ _ (Nat.zero_le _), Nat.zero_add,
      window_splice_above (Nat.zero_le _) (by omega), tail]

/-- What is behind the first `n` bytes moves to the start. -/
theorem Buffer.Holds.shift {b : Buffer} {before rest : Bytes} (h : b.Holds (before ++ rest)) :
    ∃ b', ({ b with len := rest.length } : Buffer).memmove 0 before.length rest.length = .ok b' ∧ b'.Holds rest ∧
      b'.array = splice b.array 0 rest ∧ b'.idx = b.idx := by
  have room := h.room
  rw [List.length_append] at room
  have tail : Lib.window b.array before.length rest.length = rest := by
    rw [h.window (Nat.le_of_eq List.length_append.symm), window_append_right, List.take_length]
  refine ⟨_, Buffer.memmove_ok (by dsimp only; omega) (by dsimp only; omega), ?_, ?_, rfl⟩
  · refine ⟨?_, ?_⟩
    · dsimp only [Buffer.Fits]
      rw [tail, length_splice (by omega)]
      omega
    · dsimp only [Buffer.bytes]
      rw [tail, window_splice_self _ _ _ (Nat.zero_le _)]
  · dsimp only
    rw [tail]

/-- Growing a buffer leaves the part that was in use alone. -/
theorem Buffer.bytes_grow {b : Buffer} (h : b.Fits) (more : Bytes) :
    ({ b with array := b.array ++ more } : Buffer).bytes = b.bytes :=
  window_append_left (by rw [Nat.zero_add]; exact h)

end Shadowsocks
