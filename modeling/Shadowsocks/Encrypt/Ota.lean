import Shadowsocks.Lib.Framing
import Shadowsocks.Encrypt.Stream

/-!
# One-time authentication

The four functions of `encrypt.c` that authenticate a stream: `ss_onetimeauth` signs
the request header and `ss_onetimeauth_verify` checks it; `ss_gen_hash` turns a payload
buffer into a chunk (`LEN`, `TAG`, `DATA`) and `ss_check_hash` takes chunks apart, in
place, while they arrive in pieces of any size.

The locals `i`, `j` and `k` of `ss_check_hash` are C `int`s: `int` refuses to leave
their range. The fields of `chunk_t` have 32 bits and wrap.
-/

namespace Shadowsocks
set_option autoImplicit false
open Lib

/-- `ONETIMEAUTH_BYTES`, `CLEN_BYTES` and `AUTH_BYTES`. -/
def onetimeauthBytes : Nat := 10

def clenBytes : Nat := 2

def authBytes : Nat := onetimeauthBytes + clenBytes

/-- `chunk_t`. -/
structure Chunk where
  idx : Nat := 0
  len : Nat := 0
  counter : Nat := 0
  buf : Buffer := {}
  deriving DecidableEq, Repr

/-- A value assigned to an `int`. -/
def int (n : Nat) : Except Fault Nat := if n < 2 ^ 31 then .ok n else .error .intOverflow

theorem int_ok {n : Nat} (small : n < 2 ^ 31) : int n = .ok n := if_pos small

/-- Arithmetic of `uint32_t`. -/
def u32 (n : Nat) : Nat := n % 2 ^ 32

theorem u32_of_lt {n : Nat} (small : n < 2 ^ 32) : u32 n = n := Nat.mod_eq_of_lt small

section
variable {P : Platform} (E : Encryptor P)

/-- The part of an HMAC that is sent. -/
def shortHmac (key data : Bytes) : Bytes := (P.hmacSha1 key data).toList.take onetimeauthBytes

@[simp] theorem length_shortHmac (key data : Bytes) : (shortHmac (P := P) key data).length = 10 := by
  simp [shortHmac, onetimeauthBytes]

/-- `ss_onetimeauth`. -/
def ssOnetimeauth (buf : Buffer) (iv : Bytes) (capacity : Nat) : Except Fault Buffer := do
  let authKey := iv.take E.ivLen ++ E.key
  let buf ← brealloc P.junk buf (onetimeauthBytes + buf.len) capacity
  let data ← buf.read 0 buf.len
  let buf ← buf.write buf.len (shortHmac (P := P) authKey data)
  pure { buf with len := buf.len + onetimeauthBytes }

/-- `ss_onetimeauth_verify`: whether `safe_memcmp` finds a difference. -/
def ssOnetimeauthVerify (buf : Buffer) (iv : Bytes) : Except Fault Bool := do
  let authKey := iv.take E.ivLen ++ E.key
  let len := sizeSub buf.len onetimeauthBytes
  let data ← buf.read 0 len
  let hash ← buf.read len onetimeauthBytes
  pure (hash != shortHmac (P := P) authKey data)

/-- `ss_gen_hash`: the buffer becomes a chunk and the counter moves on. -/
def ssGenHash (buf : Buffer) (counter : Nat) (ctx : EncCtx P) (capacity : Nat) : Except Fault (Buffer × Nat) := do
  let blen := buf.len
  let buf ← brealloc P.junk buf (authBytes + blen) capacity
  let key := ctx.iv.take E.ivLen ++ be32 counter
  let data ← buf.read 0 blen
  let buf ← buf.memmove authBytes 0 blen
  let buf ← buf.write clenBytes (shortHmac (P := P) key data)
  let buf ← buf.write 0 (be16 (blen % 2 ^ 16))
  pure ({ buf with len := blen + authBytes }, u32 (counter + 1))

/-- The locals of `ss_check_hash` and what it works on. -/
structure HashLoop where
  i : Nat
  j : Nat
  k : Nat
  cidx : Nat
  buf : Buffer
  chunk : Chunk

/-- `if (cidx == CLEN_BYTES)`: the length of the chunk has arrived. -/
def readClen (capacity cidx : Nat) (chunk : Chunk) : Except Fault Chunk :=
  if cidx = clenBytes then do
    let head ← chunk.buf.read 0 clenBytes
    let clen := ofBe16 head
    let buf ← brealloc P.junk chunk.buf (clen + authBytes) capacity
    pure { chunk with buf, len := clen }
  else pure chunk

/-- `if (cidx == chunk->len + AUTH_BYTES)`: the chunk is complete; `false` is the
return of 0. -/
def closeChunk (iv : Bytes) (blen : Nat) (s : HashLoop) : Except Fault (Bool × HashLoop) :=
  if s.cidx = u32 (s.chunk.len + authBytes) then do
    let key := iv ++ be32 s.chunk.counter
    let data ← s.chunk.buf.read authBytes s.chunk.len
    let tag ← s.chunk.buf.read clenBytes onetimeauthBytes
    if shortHmac (P := P) key data ≠ tag then pure (false, s)
    else do
      let buf ← s.buf.memmove (s.j + s.chunk.len) s.k (blen - s.i - 1)
      let buf ← buf.write s.j data
      let j ← int (s.j + s.chunk.len)
      pure (true, { s with j, k := j, cidx := 0, buf,
                           chunk := { s.chunk with counter := u32 (s.chunk.counter + 1) } })
  else pure (true, s)

/-- The body of the loop of `ss_check_hash`. -/
def checkHashStep (iv : Bytes) (capacity blen : Nat) (s : HashLoop) : Except Fault (Bool × HashLoop) := do
  let byte ← s.buf.read s.k 1
  let cbuf ← s.chunk.buf.write s.cidx byte
  let k ← int (s.k + 1)
  let cidx := u32 (s.cidx + 1)
  let chunk ← readClen (P := P) capacity cidx { s.chunk with buf := cbuf }
  closeChunk (P := P) iv blen { s with k, cidx, chunk }

/-- The loop of `ss_check_hash` with `left` bytes to go. -/
def checkHashLoop (iv : Bytes) (capacity blen : Nat) : Nat → HashLoop → Except Fault (Bool × HashLoop)
  | 0, s => pure (true, s)
  | left + 1, s => do
    match ← checkHashStep (P := P) iv capacity blen s with
    | (false, s) => pure (false, s)
    | (true, s) => do
      let i ← int (s.i + 1)
      checkHashLoop iv capacity blen left { s with i }

/-- The result of `ss_check_hash`. -/
structure CheckResult where
  ret : Nat
  buf : Buffer
  chunk : Chunk

/-- `ss_check_hash`. -/
def ssCheckHash (buf : Buffer) (chunk : Chunk) (ctx : EncCtx P) (capacity : Nat) : Except Fault CheckResult := do
  let blen := buf.len
  let cbuf ← brealloc P.junk chunk.buf (chunk.len + blen) capacity
  let buf ← brealloc P.junk buf (chunk.len + blen) capacity
  let (done, s) ← checkHashLoop (P := P) (ctx.iv.take E.ivLen) capacity blen blen
    { i := 0, j := 0, k := 0, cidx := chunk.idx, buf, chunk := { chunk with buf := cbuf } }
  if done then
    pure { ret := 1, buf := { s.buf with len := s.j }, chunk := { s.chunk with idx := s.cidx } }
  else pure { ret := 0, buf := s.buf, chunk := s.chunk }

end

/-! ## The wire format -/

/-- The tag of chunk number `i`. -/
def otaTag (P : Platform) (iv : Bytes) (i : Nat) (data : Bytes) : Bytes :=
  shortHmac (P := P) (iv ++ be32 (u32 i)) data

/-- Chunk number `i` as it is sent. -/
def otaChunk (P : Platform) (iv : Bytes) (i : Nat) (data : Bytes) : Bytes :=
  be16 data.length ++ (otaTag P iv i data ++ data)

@[simp] theorem length_otaChunk (P : Platform) (iv : Bytes) (i : Nat) (data : Bytes) :
    (otaChunk P iv i data).length = 12 + data.length := by
  simp only [otaChunk, otaTag, List.length_append, length_be16, length_shortHmac]
  omega

/-- How much of a stream the chunk at its front takes, once its length is there. -/
def otaSize (s : Bytes) : Nat := 12 + ofBe16 s

/-- The receiver's view: a chunk is complete when all its bytes are there, and good
when its tag is right. -/
def otaNext (P : Platform) (iv : Bytes) (i : Nat) (s : Bytes) : Option (Nat × Option Bytes) :=
  if 2 ≤ s.length ∧ otaSize s ≤ s.length then
    let data := window s 12 (ofBe16 s)
    some (otaSize s, if window s 2 10 = otaTag P iv i data then some data else none)
  else none

theorem otaNext_eq_some {P : Platform} {iv s : Bytes} {i n : Nat} {c : Option Bytes}
    (h : otaNext P iv i s = some (n, c)) : 2 ≤ s.length ∧ otaSize s ≤ s.length ∧ n = otaSize s ∧
      c = if window s 2 10 = otaTag P iv i (window s 12 (ofBe16 s)) then some (window s 12 (ofBe16 s)) else none := by
  unfold otaNext at h
  split at h
  · rename_i complete
    simp only [Option.some.injEq, Prod.mk.injEq] at h
    exact ⟨complete.1, complete.2, h.1.symm, h.2.symm⟩
  · cases h

/-- The stream of chunks under a given IV. -/
def ota (P : Platform) (iv : Bytes) : Framing UInt8 Bytes where
  next := otaNext P iv
  next_pos h := by
    obtain ⟨-, long, rfl, -⟩ := otaNext_eq_some h
    exact ⟨by unfold otaSize; omega, long⟩
  next_append {i s n c} t h := by
    obtain ⟨two, long, rfl, rfl⟩ := otaNext_eq_some h
    have same : ofBe16 (s ++ t) = ofBe16 s := ofBe16_append two t
    unfold otaSize at *
    simp only [otaNext, otaSize, same]
    rw [if_pos (by rw [List.length_append]; omega), window_append_left (by omega), window_append_left (by omega)]

theorem otaChunk_encodes (P : Platform) (iv : Bytes) {data : Bytes} (small : data.length < 2 ^ 16) :
    Framing.Encodes (ota P iv) (otaChunk P iv) data := by
  have tagLen (i : Nat) : (otaTag P iv i data).length = 10 := length_shortHmac _ _
  have size (i : Nat) := length_otaChunk P iv i data
  have clen (i : Nat) : ofBe16 (otaChunk P iv i data) = data.length := ofBe16_be16 small _
  constructor
  · intro i
    have tag : window (otaChunk P iv i data) 2 10 = otaTag P iv i data := by
      have := window_append_right (be16 data.length) (otaTag P iv i data ++ data) 10
      rwa [List.take_left' (tagLen i)] at this
    have body : window (otaChunk P iv i data) 12 data.length = data := by
      have := window_append_right (be16 data.length ++ otaTag P iv i data) data data.length
      rwa [List.length_append, length_be16, tagLen, List.append_assoc, List.take_length] at this
    change otaNext P iv i _ = _
    rw [otaNext, otaSize, if_pos (by rw [clen, size]; omega), clen, size, tag, body]
    simp only [if_true]
  · intro i n short
    change otaNext P iv i _ = _
    rw [otaNext, if_neg]
    rintro ⟨two, long⟩
    have front : ofBe16 ((otaChunk P iv i data).take n) = data.length := by
      rw [← clen i, ← List.take_append_drop n (otaChunk P iv i data), ofBe16_append two]
      rw [List.take_append_drop]
    rw [otaSize, front, List.length_take] at long
    rw [size] at short
    omega

/-! ## The sender and the header -/

section
variable {P : Platform} {E : Encryptor P}

/-- `ss_gen_hash` makes chunk number `i` out of a buffer. -/
theorem ssGenHash_spec {buf : Buffer} (ctx : EncCtx P) (iv : Bytes) {i capacity : Nat} (fits : buf.Fits)
    (small : buf.len < 2 ^ 16) (capSize : capacity < 2 ^ 63) (hiv : ctx.iv.take E.ivLen = iv) :
    ∃ buf', ssGenHash E buf (u32 i) ctx capacity = .ok (buf', u32 (i + 1)) ∧ buf'.idx = buf.idx ∧ buf'.Fits ∧
      buf.array.length ≤ buf'.array.length ∧ buf'.bytes = otaChunk P iv i buf.bytes := by
  obtain ⟨more, eq, roomy, -⟩ := brealloc_ok P.junk buf (authBytes + buf.len) capacity
    (by simp only [authBytes, onetimeauthBytes, clenBytes]; omega)
  have tick : u32 (u32 i + 1) = u32 (i + 1) := by unfold u32; omega
  have long : (buf.array ++ more).length = buf.array.length + more.length := List.length_append
  have within : buf.len ≤ buf.array.length := fits
  have data : window (buf.array ++ more) 0 buf.len = buf.bytes := window_append_left (by omega)
  have dataLen := Buffer.length_bytes fits
  have tag := length_shortHmac (P := P) (iv ++ be32 (u32 i)) buf.bytes
  simp only [authBytes, onetimeauthBytes, clenBytes, Nat.reduceAdd] at eq roomy
  obtain ⟨size, frame⟩ := window_frame (buf.array ++ more) (be16 buf.len)
    (shortHmac (P := P) (iv ++ be32 (u32 i)) buf.bytes) buf.bytes (by rw [length_be16]; omega)
  simp only [length_be16, tag, dataLen, Nat.reduceAdd] at size frame
  have moved : (splice (buf.array ++ more) 12 buf.bytes).length = (buf.array ++ more).length :=
    length_splice (by omega)
  have tagged : (splice (splice (buf.array ++ more) 12 buf.bytes) 2
      (shortHmac (P := P) (iv ++ be32 (u32 i)) buf.bytes)).length = (buf.array ++ more).length := by
    rw [length_splice (by omega), moved]
  refine ⟨⟨buf.idx, buf.len + 12, splice (splice (splice (buf.array ++ more) 12 buf.bytes) 2
      (shortHmac (P := P) (iv ++ be32 (u32 i)) buf.bytes)) 0 (be16 buf.len)⟩, ?_, rfl, ?_, ?_, ?_⟩
  · simp only [ssGenHash, authBytes, onetimeauthBytes, clenBytes, Nat.reduceAdd, eq, ok_bind, hiv,
      Nat.mod_eq_of_lt small]
    rw [Buffer.read_ok (by dsimp only; omega), ok_bind, Buffer.memmove_ok (by dsimp only; omega) (by dsimp only; omega),
      ok_bind]
    dsimp only
    rw [data, Buffer.write_ok (by dsimp only; omega), ok_bind, Buffer.write_ok (by dsimp only; rw [length_be16]; omega),
      ok_bind, tick]
    rfl
  · dsimp only [Buffer.Fits]
    omega
  · dsimp only
    omega
  · rw [otaChunk, dataLen, otaTag, ← frame, Buffer.bytes, show 2 + (10 + buf.len) = buf.len + 12 by omega]

theorem ssGenHash_grown {buf buf' : Buffer} {ctx : EncCtx P} {i i' capacity : Nat}
    (h : ssGenHash E buf i ctx capacity = .ok (buf', i')) : buf.Grown buf' := by
  obtain ⟨roomy, enlarged, h⟩ := bind_eq_ok.mp h
  obtain ⟨data, -, h⟩ := bind_eq_ok.mp h
  obtain ⟨moved, shifted, h⟩ := bind_eq_ok.mp h
  obtain ⟨tagged, wrote, h⟩ := bind_eq_ok.mp h
  obtain ⟨framed, wrote', h⟩ := bind_eq_ok.mp h
  cases h
  have all := (((brealloc_grown enlarged).trans (Buffer.memmove_grown shifted)).trans
    (Buffer.write_grown wrote)).trans (Buffer.write_grown wrote')
  exact ⟨all.1, all.2⟩

/-- `ss_onetimeauth` appends the tag of the header. -/
theorem ssOnetimeauth_spec {buf : Buffer} {iv : Bytes} {capacity : Nat} (fits : buf.Fits)
    (small : buf.len < 2 ^ 62) (capSize : capacity < 2 ^ 63) (ivLen : iv.length = E.ivLen) :
    ∃ buf', ssOnetimeauth E buf iv capacity = .ok buf' ∧ buf'.idx = buf.idx ∧ buf'.Fits ∧
      buf.array.length ≤ buf'.array.length ∧ buf'.bytes = buf.bytes ++ shortHmac (P := P) (iv ++ E.key) buf.bytes := by
  obtain ⟨more, eq, roomy, -⟩ := brealloc_ok P.junk buf (onetimeauthBytes + buf.len) capacity
    (by simp only [onetimeauthBytes]; omega)
  have long : (buf.array ++ more).length = buf.array.length + more.length := List.length_append
  have within : buf.len ≤ buf.array.length := fits
  have data : window (buf.array ++ more) 0 buf.len = buf.bytes := window_append_left (by omega)
  have tag := length_shortHmac (P := P) (iv ++ E.key) buf.bytes
  simp only [onetimeauthBytes] at eq roomy
  have stored : (splice (buf.array ++ more) buf.len (shortHmac (P := P) (iv ++ E.key) buf.bytes)).length =
      (buf.array ++ more).length := length_splice (by omega)
  refine ⟨⟨buf.idx, buf.len + 10, splice (buf.array ++ more) buf.len (shortHmac (P := P) (iv ++ E.key) buf.bytes)⟩,
    ?_, rfl, ?_, ?_, ?_⟩
  · simp only [ssOnetimeauth, onetimeauthBytes, eq, ok_bind, List.take_of_length_le (Nat.le_of_eq ivLen)]
    rw [Buffer.read_ok (by dsimp only; omega), ok_bind]
    dsimp only
    rw [data, Buffer.write_ok (by dsimp only; omega), ok_bind]
    rfl
  · dsimp only [Buffer.Fits]
    omega
  · dsimp only
    omega
  · have self := window_splice_self (buf.array ++ more) (shortHmac (P := P) (iv ++ E.key) buf.bytes) buf.len
      (by omega)
    rw [tag] at self
    rw [Buffer.bytes, window_add, window_splice_below (by omega) (by omega), data, Nat.zero_add, self]

/-- `ss_onetimeauth_verify` on a header with its tag: no difference exactly when the
tag is right. -/
theorem ssOnetimeauthVerify_spec {buf : Buffer} {iv header hash : Bytes} (fits : buf.Fits)
    (ivLen : iv.length = E.ivLen) (hash10 : hash.length = 10) (bytes : buf.bytes = header ++ hash) :
    ssOnetimeauthVerify E buf iv = .ok (hash != shortHmac (P := P) (iv ++ E.key) header) := by
  have size := congrArg List.length bytes
  have within : buf.len ≤ buf.array.length := fits
  rw [Buffer.length_bytes fits, List.length_append, hash10] at size
  have parts : window buf.array 0 header.length ++ window buf.array header.length 10 = header ++ hash := by
    have whole := window_add buf.array 0 header.length 10
    rw [Nat.zero_add, ← size] at whole
    exact whole.symm.trans bytes
  obtain ⟨head, tail⟩ := List.append_inj parts (length_window (by omega))
  simp only [ssOnetimeauthVerify, onetimeauthBytes, sizeSub_of_le (show 10 ≤ buf.len by omega)]
  rw [show buf.len - 10 = header.length by omega, Buffer.read_ok (by omega), ok_bind, Buffer.read_ok (by omega), ok_bind,
    head, tail, List.take_of_length_le (Nat.le_of_eq ivLen)]
  rfl

end

end Shadowsocks
