import Shadowsocks.Encrypt.Openssl
import Shadowsocks.Encrypt.Ota

/-!
# `ss_check_hash` refines the chunk parser

The reference is `otaParse`, which reads the whole stream received so far. Between two
calls the `chunk_t` holds what that reading left over (`ChunkInv`); inside a call the
same holds of the bytes consumed so far, and the one buffer holds the released data in
front, a gap, and the unread bytes behind (`LoopInv`). A byte either extends the chunk
that is being collected or completes it, and then the parser says whether it is good
(`checkHashStep_spec`).
-/

namespace Shadowsocks
set_option autoImplicit false
open Lib

/-- The reference parser on the stream received so far. -/
def otaParse (P : Platform) (iv stream : Bytes) : Parsed UInt8 Bytes := (ota P iv).parse 0 stream

theorem otaParse_nil (P : Platform) (iv : Bytes) : otaParse P iv [] = { frames := [], rest := [], ok := true } :=
  Framing.parse_none rfl

/-- A chunk structure of which the first `cidx` bytes are collected, namely `part`. The
length field is that of an earlier chunk until two bytes are there. -/
structure Chunk.Holds (c : Chunk) (cidx : Nat) (part : Bytes) : Prop where
  idx : cidx = part.length
  data : window c.buf.array 0 cidx = part
  clen : 2 ≤ cidx → c.len = ofBe16 part
  small : c.len < 2 ^ 16
  room : 2 ≤ cidx → c.len + 12 ≤ c.buf.array.length

/-- The state of the receiver after the bytes `seen`. -/
structure ChunkInv (P : Platform) (iv seen : Bytes) (c : Chunk) (cidx : Nat) : Prop where
  ok : (otaParse P iv seen).ok = true
  counter : c.counter = u32 (otaParse P iv seen).frames.length
  holds : c.Holds cidx (otaParse P iv seen).rest

theorem ChunkInv.zeroed (P : Platform) (iv : Bytes) : ChunkInv P iv [] {} 0 := by
  constructor
  · rw [otaParse_nil]
  · rw [otaParse_nil]; rfl
  · rw [otaParse_nil]
    exact ⟨rfl, rfl, by simp, by decide, by simp⟩

section
variable {P : Platform} {E : Encryptor P} {iv : Bytes}

/-- An incomplete chunk has not reached its announced length. -/
theorem Chunk.Holds.open {c : Chunk} {cidx f : Nat} {part : Bytes} (h : c.Holds cidx part)
    (more : otaNext P iv f part = none) : cidx < 2 ∨ 2 ≤ cidx ∧ cidx < c.len + 12 := by
  have idx := h.idx
  by_cases two : 2 ≤ cidx
  · have clen := h.clen two
    unfold otaNext otaSize at more
    split at more
    · cases more
    · rename_i short
      omega
  · omega

theorem Chunk.Holds.inside {c : Chunk} {cidx : Nat} {part : Bytes} (h : c.Holds cidx part) :
    cidx ≤ c.buf.array.length := by
  have long := congrArg List.length h.data
  rw [← h.idx] at long
  simp only [window, List.drop_zero, List.length_take] at long
  omega

/-- One more byte goes into the chunk buffer; the second one brings the length. There is room for
the byte, since the chunk is still open. The second byte completes the length, for which the
buffer grows. -/
theorem Chunk.Holds.fill {c : Chunk} {cidx f capacity : Nat} {part : Bytes} (h : c.Holds cidx part)
    (two : 2 ≤ c.buf.array.length) (more : otaNext P iv f part = none) (capSize : capacity < 2 ^ 63) (b : UInt8) :
    ∃ cbuf c', c.buf.write cidx [b] = .ok cbuf ∧
      readClen (P := P) capacity (cidx + 1) { c with buf := cbuf } = .ok c' ∧ c'.counter = c.counter ∧
      c'.Holds (cidx + 1) (part ++ [b]) ∧ cidx + 1 ≤ c'.len + 12 ∧ 2 ≤ c'.buf.array.length := by
  have idx := h.idx
  have inside : cidx + 1 ≤ c.buf.array.length := by
    obtain begun | ⟨begun, short⟩ := h.open more
    · omega
    · have := h.room begun
      omega
  have long : (splice c.buf.array cidx [b]).length = c.buf.array.length := length_splice (by simpa using inside)
  have stored : window (splice c.buf.array cidx [b]) 0 (cidx + 1) = part ++ [b] := by
    rw [window_add, window_splice_below (by omega) (by omega), h.data, Nat.zero_add]
    exact congrArg (part ++ ·) (window_splice_self c.buf.array [b] cidx (by omega))
  have size : cidx + 1 = (part ++ [b]).length := by rw [List.length_append, List.length_singleton, idx]
  refine ⟨{ c.buf with array := splice c.buf.array cidx [b] }, ?_⟩
  rw [Buffer.write_ok (by simpa using inside)]
  by_cases second : cidx + 1 = clenBytes
  · -- the two bytes that are there now are the length of this chunk
    have head : ofBe16 (part ++ [b]) < 2 ^ 16 := ofBe16_lt _
    obtain ⟨grown, eq, roomy, -⟩ := brealloc_ok P.junk
      { c.buf with array := splice c.buf.array cidx [b] } (ofBe16 (part ++ [b]) + authBytes) capacity
      (by simp only [authBytes, onetimeauthBytes, clenBytes]; omega)
    refine ⟨⟨c.idx, ofBe16 (part ++ [b]), c.counter, ⟨c.buf.idx, c.buf.len, splice c.buf.array cidx [b] ++ grown⟩⟩,
      rfl, ?_, rfl, ⟨size, ?_, fun _ => rfl, head, fun _ => roomy⟩, ?_, ?_⟩
    · rw [readClen, if_pos second, ← second, Buffer.read_ok (by dsimp only; omega), ok_bind]
      dsimp only
      rw [stored, eq]
      rfl
    · dsimp only
      rw [window_append_left (by omega), stored]
    · rw [second]
      exact Nat.le_add_left _ _
    · dsimp only
      rw [List.length_append]
      omega
  · have other : cidx + 1 ≠ 2 := second
    refine ⟨⟨c.idx, c.len, c.counter, ⟨c.buf.idx, c.buf.len, splice c.buf.array cidx [b]⟩⟩, rfl, ?_, rfl,
      ⟨size, stored, ?_, h.small, ?_⟩, ?_, ?_⟩
    · rw [readClen, if_neg second, pure_eq_ok]
    · intro begun
      rw [ofBe16_append (by omega)]
      exact h.clen (by omega)
    · intro begun
      have := h.room (by omega)
      dsimp only
      omega
    · have := h.open more
      dsimp only
      omega
    · dsimp only
      omega

/-- What the parser says of the collected bytes. -/
theorem Chunk.Holds.next (P : Platform) (iv : Bytes) {c : Chunk} {cidx : Nat} {part : Bytes}
    (h : c.Holds cidx part) (most : cidx ≤ c.len + 12) (f : Nat) : otaNext P iv f part =
      if cidx = c.len + 12 then
        some (part.length, if window part 2 10 = otaTag P iv f (window part 12 c.len)
          then some (window part 12 c.len) else none)
      else none := by
  have idx := h.idx
  unfold otaNext otaSize
  by_cases two : 2 ≤ cidx
  · rw [← h.clen two]
    by_cases full : cidx = c.len + 12
    · rw [if_pos full, if_pos (by omega), show 12 + c.len = part.length by omega]
    · rw [if_neg full, if_neg (by omega)]
  · rw [if_neg (by omega), if_neg (by omega)]

/-- The chunks released since `seen`. -/
def released (P : Platform) (iv seen now : Bytes) : List Bytes :=
  (otaParse P iv now).frames.drop (otaParse P iv seen).frames.length

@[simp] theorem released_self (P : Platform) (iv seen : Bytes) : released P iv seen seen = [] := List.drop_length

theorem released_nil (P : Platform) (iv now : Bytes) : released P iv [] now = (otaParse P iv now).frames := by
  rw [released, otaParse_nil]
  rfl

/-- The state of the loop after `s.i` bytes of the segment `seg`: `len0` is the length
field at the start of the call, which is what the buffer was made larger by, and `cap`
the size of the buffer. -/
structure LoopInv (P : Platform) (iv seen seg : Bytes) (len0 cap : Nat) (s : HashLoop) : Prop where
  chunk : ChunkInv P iv (seen ++ seg.take s.i) s.chunk s.cidx
  two : 2 ≤ s.chunk.buf.array.length
  frames : (otaParse P iv seen).frames.length ≤ (otaParse P iv (seen ++ seg.take s.i)).frames.length
  out : window s.buf.array 0 s.j = (released P iv seen (seen ++ seg.take s.i)).flatten
  outLen : s.j = (released P iv seen (seen ++ seg.take s.i)).flatten.length
  unread : window s.buf.array s.k (seg.length - s.i) = seg.drop s.i
  size : s.buf.array.length = cap
  alloc : len0 + seg.length ≤ cap
  order : s.j ≤ s.k ∧ s.k ≤ s.j + s.cidx
  room : s.j + s.cidx ≤ len0 + s.i + 12 ∧ s.k ≤ len0 + s.i
  -- each released chunk has 12 bytes that are not released, which keeps the `int`s small
  ints : s.k + 12 * (released P iv seen (seen ++ seg.take s.i)).length ≤ s.i + 65546 ∧
    s.j ≤ 65535 * (released P iv seen (seen ++ seg.take s.i)).length ∧
    (0 < (released P iv seen (seen ++ seg.take s.i)).length → s.k = s.j + s.cidx)

/-- The end of a chunk: the tag decides between releasing the data and returning 0. -/
theorem closeChunk_spec (iv : Bytes) {s : HashLoop} {part : Bytes} {blen f : Nat}
    (h : s.chunk.Holds s.cidx part) (full : s.cidx = s.chunk.len + 12)
    (counter : s.chunk.counter = u32 f) (source : s.k + (blen - s.i - 1) ≤ s.buf.array.length)
    (target : s.j + s.chunk.len + (blen - s.i - 1) ≤ s.buf.array.length) (small : s.j + s.chunk.len < 2 ^ 31) :
    closeChunk (P := P) iv blen s = .ok (
      if window part 2 10 = otaTag P iv f (window part 12 s.chunk.len) then
        (true, { s with
          j := s.j + s.chunk.len, k := s.j + s.chunk.len, cidx := 0,
          buf := { s.buf with array := splice (splice s.buf.array (s.j + s.chunk.len)
            (window s.buf.array s.k (blen - s.i - 1))) s.j (window part 12 s.chunk.len) },
          chunk := { s.chunk with counter := u32 (f + 1) } })
      else (false, s)) := by
  have clen := h.small
  have room := h.room (by omega)
  have wrap : u32 (s.chunk.len + authBytes) = s.chunk.len + 12 := u32_of_lt (by
    simp only [authBytes, onetimeauthBytes, clenBytes]
    omega)
  have dataLen : (window part 12 s.chunk.len).length = s.chunk.len := length_window (by have := h.idx; omega)
  have data : window s.chunk.buf.array 12 s.chunk.len = window part 12 s.chunk.len := by
    rw [← h.data, window_window _ (by omega), Nat.zero_add]
  have tag : window s.chunk.buf.array 2 10 = window part 2 10 := by
    rw [← h.data, window_window _ (by omega), Nat.zero_add]
  have tick : u32 (s.chunk.counter + 1) = u32 (f + 1) := by
    rw [counter]
    unfold u32
    omega
  unfold closeChunk
  rw [if_pos (by rw [full, wrap]), counter]
  simp only [authBytes, onetimeauthBytes, clenBytes]
  rw [Buffer.read_ok (by omega), ok_bind, Buffer.read_ok (by omega), ok_bind, data, tag]
  by_cases good : window part 2 10 = otaTag P iv f (window part 12 s.chunk.len)
  · rw [if_pos good, if_neg (by rw [good, otaTag]; simp), Buffer.memmove_ok source target, ok_bind]
    have long : (splice s.buf.array (s.j + s.chunk.len) (window s.buf.array s.k (blen - s.i - 1))).length =
        s.buf.array.length := length_splice (by rw [length_window source]; exact target)
    rw [Buffer.write_ok (by dsimp only; omega), ok_bind, int_ok small, ok_bind, ← counter, tick]
    rfl
  · rw [if_neg good, if_pos (fun same => good (by rw [← same, otaTag])), pure_eq_ok]

section
variable {seen seg : Bytes} {len0 cap : Nat} {s : HashLoop}

theorem append_take_succ (more : s.i < seg.length) :
    seen ++ seg.take (s.i + 1) = (seen ++ seg.take s.i) ++ [seg[s.i]] := by
  rw [List.append_assoc, List.take_append_getElem]

/-- The next unread byte, and the ones behind it. -/
theorem LoopInv.read (inv : LoopInv P iv seen seg len0 cap s) (more : s.i < seg.length) :
    s.buf.read s.k 1 = .ok [seg[s.i]] ∧
      window s.buf.array (s.k + 1) (seg.length - (s.i + 1)) = seg.drop (s.i + 1) := by
  have room := inv.room
  have bufSize := inv.size
  have alloc := inv.alloc
  have split := inv.unread
  rw [show seg.length - s.i = 1 + (seg.length - (s.i + 1)) by omega, window_add, List.drop_eq_getElem_cons more,
    ← List.singleton_append] at split
  have one : (window s.buf.array s.k 1).length = 1 := length_window (by omega)
  obtain ⟨byte, behind⟩ := List.append_inj split one
  exact ⟨by rw [Buffer.read_ok (by omega), byte], behind⟩

/-- A byte that does not complete a chunk. -/
theorem LoopInv.extend {c : Chunk} (inv : LoopInv P iv seen seg len0 cap s) (more : s.i < seg.length)
    (part : c.Holds (s.cidx + 1) ((otaParse P iv (seen ++ seg.take s.i)).rest ++ [seg[s.i]]))
    (counter : c.counter = s.chunk.counter) (two : 2 ≤ c.buf.array.length)
    (parse : otaParse P iv (seen ++ seg.take (s.i + 1)) =
      { frames := (otaParse P iv (seen ++ seg.take s.i)).frames,
        rest := (otaParse P iv (seen ++ seg.take s.i)).rest ++ [seg[s.i]], ok := true }) :
    LoopInv P iv seen seg len0 cap { s with i := s.i + 1, k := s.k + 1, cidx := s.cidx + 1, chunk := c } := by
  have same : released P iv seen (seen ++ seg.take (s.i + 1)) = released P iv seen (seen ++ seg.take s.i) := by
    rw [released, parse]
    rfl
  have order := inv.order
  have room := inv.room
  have ints := inv.ints
  constructor
  case chunk => exact ⟨by rw [parse], by rw [parse, counter]; exact inv.chunk.counter, by rw [parse]; exact part⟩
  case two => exact two
  case frames => rw [parse]; exact inv.frames
  case out => rw [same]; exact inv.out
  case outLen => rw [same]; exact inv.outLen
  case unread => exact (inv.read more).2
  case size => exact inv.size
  case alloc => exact inv.alloc
  case order => dsimp only; omega
  case room => dsimp only; omega
  case ints => rw [same]; dsimp only; omega

/-- A byte that completes a good chunk. -/
theorem LoopInv.release {c : Chunk} {data : Bytes} (inv : LoopInv P iv seen seg len0 cap s) (more : s.i < seg.length)
    (full : s.cidx + 1 = data.length + 12) (small : data.length < 2 ^ 16) (dataLen : c.len = data.length)
    (two : 2 ≤ c.buf.array.length)
    (parse : otaParse P iv (seen ++ seg.take (s.i + 1)) =
      { frames := (otaParse P iv (seen ++ seg.take s.i)).frames ++ [data], rest := [], ok := true }) :
    LoopInv P iv seen seg len0 cap
      { i := s.i + 1, j := s.j + data.length, k := s.j + data.length, cidx := 0,
        buf := { s.buf with array := splice (splice s.buf.array (s.j + data.length)
          (window s.buf.array (s.k + 1) (seg.length - (s.i + 1)))) s.j data },
        chunk := { c with counter := u32 ((otaParse P iv (seen ++ seg.take s.i)).frames.length + 1) } } := by
  have grown : released P iv seen (seen ++ seg.take (s.i + 1)) =
      released P iv seen (seen ++ seg.take s.i) ++ [data] := by
    rw [released, parse]
    exact List.drop_append_of_le_length inv.frames
  have order := inv.order
  have room := inv.room
  have ints := inv.ints
  have bufSize := inv.size
  have alloc := inv.alloc
  have outLen := inv.outLen
  obtain ⟨long, front, back⟩ := window_insert s.buf.array data s.j (s.k + 1)
    (seg.length - (s.i + 1)) (by omega) (by omega)
  constructor
  case chunk =>
    refine ⟨by rw [parse], by rw [parse, List.length_append]; rfl, ?_⟩
    rw [parse]
    exact ⟨rfl, window_nil _ _, by simp, by dsimp only; omega, by simp⟩
  case two => exact two
  case frames =>
    rw [parse, List.length_append]
    exact Nat.le_trans inv.frames (Nat.le_add_right _ _)
  case out =>
    rw [grown, List.flatten_append, ← inv.out]
    simpa using front
  case outLen =>
    rw [grown, List.flatten_append, List.length_append, ← outLen]
    simp
  case unread => exact back.trans (inv.read more).2
  case size => exact long.trans inv.size
  case alloc => exact inv.alloc
  case order => dsimp only; omega
  case room => dsimp only; omega
  case ints =>
    rw [grown, List.length_append, List.length_singleton]
    dsimp only
    omega

/-- One byte: the parser on the bytes so far decides what happens. The byte is stored and the
chunk looked at: it goes on, its tag is right and its data are released, or its tag is wrong, and
then the parser stops here as well. -/
theorem checkHashStep_spec (capacity : Nat) (inv : LoopInv P iv seen seg len0 cap s)
    (more : s.i < seg.length) (size : seg.length < 2 ^ 31) (capSize : capacity < 2 ^ 63) :
    (∃ s', checkHashStep (P := P) iv capacity seg.length s = .ok (true, s') ∧ s'.i = s.i ∧
        LoopInv P iv seen seg len0 cap { s' with i := s.i + 1 }) ∨
      ∃ s', checkHashStep (P := P) iv capacity seg.length s = .ok (false, s') ∧
        (otaParse P iv (seen ++ seg.take (s.i + 1))).ok = false := by
  have ok := inv.chunk.ok
  have rest : otaNext P iv (otaParse P iv (seen ++ seg.take s.i)).frames.length
      (otaParse P iv (seen ++ seg.take s.i)).rest = none := by
    have := Framing.next_rest 0 _ ok
    rwa [Nat.zero_add] at this
  obtain ⟨cbuf, c, written, clen, counter, part, most, two⟩ :=
    inv.chunk.holds.fill inv.two rest capSize seg[s.i]
  have order := inv.order
  have room := inv.room
  have ints := inv.ints
  have bufSize := inv.size
  have alloc := inv.alloc
  have small := part.small
  have next := part.next P iv most (otaParse P iv (seen ++ seg.take s.i)).frames.length
  have stepEq : checkHashStep (P := P) iv capacity seg.length s =
      closeChunk (P := P) iv seg.length { s with k := s.k + 1, cidx := s.cidx + 1, chunk := c } := by
    rw [checkHashStep, (inv.read more).1, ok_bind, written, ok_bind, int_ok (by omega), ok_bind,
      u32_of_lt (by omega)]
    simp only [clen, ok_bind]
  rw [stepEq]
  rw [append_take_succ more]
  by_cases full : s.cidx + 1 = c.len + 12
  · have dataLen : (window ((otaParse P iv (seen ++ seg.take s.i)).rest ++ [seg[s.i]]) 12 c.len).length = c.len :=
      length_window (by have := part.idx; omega)
    rw [closeChunk_spec iv (f := (otaParse P iv (seen ++ seg.take s.i)).frames.length) part full
      (counter.trans inv.chunk.counter) (by dsimp only; omega) (by dsimp only; omega) (by dsimp only; omega)]
    rw [if_pos full] at next
    by_cases good : window ((otaParse P iv (seen ++ seg.take s.i)).rest ++ [seg[s.i]]) 2 10 =
        otaTag P iv (otaParse P iv (seen ++ seg.take s.i)).frames.length
          (window ((otaParse P iv (seen ++ seg.take s.i)).rest ++ [seg[s.i]]) 12 c.len)
    · left
      rw [if_pos good] at next ⊢
      have parse := Framing.parse_append_frame (F := ota P iv) (i := 0) ok (by rw [Nat.zero_add]; exact next)
      have inv' := inv.release (c := c) more (full.trans (by rw [dataLen])) (by rw [dataLen]; exact small)
        dataLen.symm two (by rw [append_take_succ more]; exact parse)
      rw [dataLen] at inv'
      exact ⟨_, rfl, rfl, inv'⟩
    · right
      rw [if_neg good] at next ⊢
      exact ⟨_, rfl, Framing.parse_append_stop (F := ota P iv) (i := 0) ok (by rw [Nat.zero_add]; exact next)⟩
  · left
    rw [if_neg full] at next
    have parse := Framing.parse_append_none (F := ota P iv) (i := 0) ok (by rw [Nat.zero_add]; exact next)
    refine ⟨{ s with k := s.k + 1, cidx := s.cidx + 1, chunk := c }, ?_, rfl,
      inv.extend more part counter two (by rw [append_take_succ more]; exact parse)⟩
    rw [closeChunk, if_neg]
    · rfl
    · rwa [u32_of_lt (by simp only [authBytes, onetimeauthBytes, clenBytes]; omega)]

/-- The whole segment, from any point of it on. -/
theorem checkHashLoop_spec (capacity left : Nat) (inv : LoopInv P iv seen seg len0 cap s)
    (count : s.i + left = seg.length) (size : seg.length < 2 ^ 31) (capSize : capacity < 2 ^ 63) :
    (∃ s', checkHashLoop (P := P) iv capacity seg.length left s = .ok (true, s') ∧ s'.i = seg.length ∧
        LoopInv P iv seen seg len0 cap s') ∨
      ∃ s', checkHashLoop (P := P) iv capacity seg.length left s = .ok (false, s') ∧
        (otaParse P iv (seen ++ seg)).ok = false := by
  induction left generalizing s with
  | zero => exact .inl ⟨s, rfl, by omega, inv⟩
  | succ left ih =>
    obtain ⟨s', step, same, inv'⟩ | ⟨s', step, bad⟩ := checkHashStep_spec capacity
      inv (by omega) size capSize
    · simp only [checkHashLoop, step, ok_bind, same, int_ok (show s.i + 1 < 2 ^ 31 by omega)]
      exact ih inv' (by dsimp only; omega)
    · right
      refine ⟨s', by simp only [checkHashLoop, step, ok_bind, pure_eq_ok], ?_⟩
      -- the chunk that was bad in the middle of the segment is bad in all of it
      have := Framing.parse_append_bad 0 _ (seg.drop (s.i + 1)) bad
      rwa [List.append_assoc, List.take_append_drop] at this

end

/-! ## The index of the buffer -/

theorem checkHashStep_idx {iv : Bytes} {capacity blen : Nat} {s s' : HashLoop} {good : Bool}
    (h : checkHashStep (P := P) iv capacity blen s = .ok (good, s')) : s'.buf.idx = s.buf.idx := by
  obtain ⟨byte, -, h⟩ := bind_eq_ok.mp h
  obtain ⟨cbuf, -, h⟩ := bind_eq_ok.mp h
  obtain ⟨k, -, h⟩ := bind_eq_ok.mp h
  obtain ⟨chunk, -, h⟩ := bind_eq_ok.mp h
  unfold closeChunk at h
  split at h
  · obtain ⟨data, -, h⟩ := bind_eq_ok.mp h
    obtain ⟨tag, -, h⟩ := bind_eq_ok.mp h
    split at h
    · cases h
      rfl
    · obtain ⟨moved, shift, h⟩ := bind_eq_ok.mp h
      obtain ⟨filled, wrote, h⟩ := bind_eq_ok.mp h
      obtain ⟨j, -, h⟩ := bind_eq_ok.mp h
      cases h
      exact (Buffer.write_idx wrote).trans (Buffer.memmove_idx shift)
  · cases h
    rfl

theorem checkHashLoop_idx {iv : Bytes} {capacity blen left : Nat} {s s' : HashLoop} {good : Bool}
    (h : checkHashLoop (P := P) iv capacity blen left s = .ok (good, s')) : s'.buf.idx = s.buf.idx := by
  induction left generalizing s with
  | zero =>
    cases h
    rfl
  | succ left ih =>
    obtain ⟨⟨go, mid⟩, step, h⟩ := bind_eq_ok.mp h
    have here := checkHashStep_idx step
    cases go with
    | false =>
      cases h
      exact here
    | true =>
      obtain ⟨i, -, h⟩ := bind_eq_ok.mp h
      exact (ih h).trans here

theorem ssCheckHash_idx {buf : Buffer} {chunk : Chunk} {ctx : EncCtx P} {capacity : Nat} {r : CheckResult}
    (h : ssCheckHash E buf chunk ctx capacity = .ok r) : r.buf.idx = buf.idx := by
  obtain ⟨cbuf, -, h⟩ := bind_eq_ok.mp h
  obtain ⟨roomy, enlarged, h⟩ := bind_eq_ok.mp h
  obtain ⟨⟨done, s⟩, loop, h⟩ := bind_eq_ok.mp h
  have same := (checkHashLoop_idx loop).trans (brealloc_idx enlarged)
  dsimp only at h
  split at h
  · cases h
    exact same
  · cases h
    exact same

/-! ## Calls and runs -/

/-- What a call tells its caller, and the part of the chunk structure that is in use. -/
inductive Verdict where
  | rejected
  | accepted (released : Bytes) (idx counter : Nat) (held : Bytes)
  deriving DecidableEq, Repr

def CheckResult.verdict (r : CheckResult) : Verdict :=
  if r.ret = 0 then .rejected
  else .accepted r.buf.bytes r.chunk.idx r.chunk.counter (window r.chunk.buf.array 0 r.chunk.idx)

/-- The reference after a segment: everything is a function of the bytes received so
far, apart from which of the chunks are new. -/
def otaVerdict (P : Platform) (iv seen seg : Bytes) : Verdict :=
  let now := otaParse P iv (seen ++ seg)
  if now.ok then
    .accepted (released P iv seen (seen ++ seg)).flatten now.rest.length (u32 now.frames.length) now.rest
  else .rejected

/-- The loop starts with nothing of the segment consumed. -/
theorem ChunkInv.start {seen : Bytes} {chunk : Chunk} (inv : ChunkInv P iv seen chunk chunk.idx)
    (cbuf buf : Buffer) (seg : Bytes) (kept : window cbuf.array 0 chunk.idx = window chunk.buf.array 0 chunk.idx)
    (larger : chunk.buf.array.length ≤ cbuf.array.length) (two : 2 ≤ cbuf.array.length)
    (data : window buf.array 0 seg.length = seg) (alloc : chunk.len + seg.length ≤ buf.array.length) :
    LoopInv P iv seen seg chunk.len buf.array.length
      { i := 0, j := 0, k := 0, cidx := chunk.idx, buf, chunk := { chunk with buf := cbuf } } := by
  have none_ : seen ++ seg.take 0 = seen := by rw [List.take_zero, List.append_nil]
  have nothing := released_self P iv seen
  have begun := inv.holds.open (f := 0 + (otaParse P iv seen).frames.length) (Framing.next_rest 0 seen inv.ok)
  constructor
  case chunk =>
    rw [none_]
    refine ⟨inv.ok, inv.counter, inv.holds.idx, kept.trans inv.holds.data, inv.holds.clen, inv.holds.small, ?_⟩
    exact fun idx => Nat.le_trans (inv.holds.room idx) larger
  case two => exact two
  case frames => rw [none_]
  case out => rw [none_, nothing]; exact window_nil _ _
  case outLen => rw [none_, nothing]; rfl
  case unread => exact data
  case size => rfl
  case alloc => exact alloc
  case order => dsimp only; omega
  case room => dsimp only; omega
  case ints => rw [none_, nothing]; simp

/-- One call of `ss_check_hash`, from the state left by the bytes `seen`. -/
theorem ssCheckHash_spec (E : Encryptor P) (ctx : EncCtx P) {buf : Buffer} {chunk : Chunk} {capacity : Nat} {seen : Bytes}
    (inv : ChunkInv P iv seen chunk chunk.idx) (fits : buf.Fits) (size : buf.len < 2 ^ 31) (two : 2 ≤ capacity)
    (capSize : capacity < 2 ^ 63) (hiv : ctx.iv.take E.ivLen = iv) :
    ∃ r, ssCheckHash E buf chunk ctx capacity = .ok r ∧ r.verdict = otaVerdict P iv seen buf.bytes ∧
      (r.ret ≠ 0 → ChunkInv P iv (seen ++ buf.bytes) r.chunk r.chunk.idx ∧ r.buf.Fits ∧
        buf.array.length ≤ r.buf.array.length) := by
  have segLen := Buffer.length_bytes fits
  have clen := inv.holds.small
  obtain ⟨cmore, cEq, -, croomy⟩ := brealloc_ok P.junk chunk.buf (chunk.len + buf.len) capacity
    (by omega)
  obtain ⟨more, eq, roomy, -⟩ := brealloc_ok P.junk buf (chunk.len + buf.len) capacity
    (by omega)
  have long : (chunk.buf.array ++ cmore).length = chunk.buf.array.length + cmore.length := List.length_append
  have start := inv.start { chunk.buf with array := chunk.buf.array ++ cmore } { buf with array := buf.array ++ more } buf.bytes
    (window_append_left (by rw [Nat.zero_add]; exact inv.holds.inside)) (by dsimp only; omega) (by dsimp only; omega)
    (by rw [segLen]; exact Buffer.bytes_grow fits more) (by rw [segLen]; exact roomy)
  simp only [ssCheckHash, cEq, eq, ok_bind, hiv]
  obtain ⟨s, loop, end_, inv'⟩ | ⟨s, loop, bad⟩ := checkHashLoop_spec capacity
    buf.len start (by rw [segLen, Nat.zero_add]) (by rw [segLen]; exact size) capSize
  · rw [segLen] at loop
    rw [loop]
    have all : seen ++ buf.bytes.take s.i = seen ++ buf.bytes := by rw [end_, List.take_length]
    have chunkInv := inv'.chunk
    have out := inv'.out
    have room := inv'.room
    have bufSize := inv'.size
    have alloc := inv'.alloc
    rw [all] at chunkInv out
    refine ⟨_, rfl, ?_, fun _ => ⟨?_, ?_, ?_⟩⟩
    · simp only [CheckResult.verdict, otaVerdict, chunkInv.ok, if_true, Nat.one_ne_zero, if_false]
      rw [chunkInv.counter, chunkInv.holds.data, ← chunkInv.holds.idx]
      exact congrArg (Verdict.accepted · _ _ _) out
    · exact ⟨chunkInv.ok, chunkInv.counter, chunkInv.holds.idx, chunkInv.holds.data, chunkInv.holds.clen,
        chunkInv.holds.small, chunkInv.holds.room⟩
    · have order := inv'.order
      dsimp only [Buffer.Fits]
      omega
    · dsimp only at bufSize ⊢
      rw [bufSize, List.length_append]
      omega
  · rw [segLen] at loop
    rw [loop]
    refine ⟨_, rfl, ?_, fun no => absurd rfl no⟩
    simp only [CheckResult.verdict, otaVerdict, bad, if_true, Bool.false_eq_true, if_false]

/-- `ss_check_hash` on one segment after the other, until it returns 0. -/
def checkHashAll (E : Encryptor P) (ctx : EncCtx P) (capacity : Nat) : Chunk → List Buffer →
    Except Fault (List CheckResult)
  | _, [] => pure []
  | chunk, b :: bs => do
    let r ← ssCheckHash E b chunk ctx capacity
    if r.ret = 0 then pure [r]
    else do
      let rs ← checkHashAll E ctx capacity r.chunk bs
      pure (r :: rs)

/-- The verdicts of the reference on one segment after the other, until one is bad. -/
def otaVerdicts (P : Platform) (iv : Bytes) : Bytes → List Bytes → List Verdict
  | _, [] => []
  | seen, s :: ss =>
    if (otaParse P iv (seen ++ s)).ok then otaVerdict P iv seen s :: otaVerdicts P iv (seen ++ s) ss
    else [.rejected]

/-- From the state left by `seen` on, the calls give the verdicts of the reference. -/
theorem checkHashAll_spec (E : Encryptor P) (ctx : EncCtx P) {segs : List Buffer} {chunk : Chunk} {capacity : Nat} {seen : Bytes}
    (inv : ChunkInv P iv seen chunk chunk.idx) (fits : ∀ b ∈ segs, b.Fits) (size : ∀ b ∈ segs, b.len < 2 ^ 31)
    (two : 2 ≤ capacity) (capSize : capacity < 2 ^ 63) (hiv : ctx.iv.take E.ivLen = iv) :
    ∃ rs, checkHashAll E ctx capacity chunk segs = .ok rs ∧
      rs.map CheckResult.verdict = otaVerdicts P iv seen (segs.map Buffer.bytes) := by
  induction segs generalizing chunk seen with
  | nil => exact ⟨[], rfl, rfl⟩
  | cons b bs ih =>
    obtain ⟨r, call, verdict, next⟩ := ssCheckHash_spec E ctx inv (fits b List.mem_cons_self)
      (size b List.mem_cons_self) two capSize hiv
    simp only [checkHashAll, call, ok_bind, List.map_cons, otaVerdicts]
    by_cases bad : r.ret = 0
    · have rejected : (otaParse P iv (seen ++ b.bytes)).ok = false := by
        simp only [CheckResult.verdict, bad, if_true, otaVerdict] at verdict
        split at verdict
        · cases verdict
        · rename_i no
          exact Bool.eq_false_iff.mpr no
      refine ⟨[r], if_pos bad, ?_⟩
      simp only [rejected, Bool.false_eq_true, if_false, List.map_cons, List.map_nil, CheckResult.verdict, bad, if_true]
    · obtain ⟨inv', -⟩ := next bad
      obtain ⟨rs, calls, verdicts⟩ := ih inv' (fun c hc => fits c (List.mem_cons_of_mem _ hc))
        (fun c hc => size c (List.mem_cons_of_mem _ hc))
      refine ⟨r :: rs, by simp only [bad, if_false, calls, ok_bind, pure_eq_ok], ?_⟩
      simp only [inv'.ok, if_true, List.map_cons, verdict, verdicts]

/-- From a zeroed chunk structure on, any cutting of any stream: no call leaves its
buffers, and each gives the verdict of the reference parser on the stream so far. -/
theorem checkHashAll_refines {ctx : EncCtx P} {segs : List Buffer} {capacity : Nat} (fits : ∀ b ∈ segs, b.Fits)
    (size : ∀ b ∈ segs, b.len < 2 ^ 31) (two : 2 ≤ capacity) (capSize : capacity < 2 ^ 63) :
    ∃ rs, checkHashAll E ctx capacity {} segs = .ok rs ∧
      rs.map CheckResult.verdict = otaVerdicts P (ctx.iv.take E.ivLen) [] (segs.map Buffer.bytes) :=
  checkHashAll_spec E ctx (ChunkInv.zeroed P _) fits size two capSize rfl

end

/-- A chunk cut inside its length field. -/
theorem checkHashAll_refines_cut :
    let E : Encryptor rc4Platform := { method := .rc4, key := be32 5, encTable := id, decTable := id }
    ∃ rs, checkHashAll E (encCtxInit E false []) 2048 {} [⟨0, 1, [0, 9]⟩, ⟨0, 12, List.replicate 12 1⟩] = .ok rs ∧
      rs.map CheckResult.verdict = otaVerdicts rc4Platform [] [] [[0], List.replicate 12 1] := by
  intro E
  exact checkHashAll_refines (by decide) (by decide) (by decide) (by decide)

end Shadowsocks
