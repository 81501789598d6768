import Shadowsocks.Cache
import Shadowsocks.Encrypt.Cipher

/-!
# `ss_encrypt` and `ss_decrypt`

The stream functions of `encrypt.c` on buffers, with every block access checked.
Both work through a static scratch buffer `tmp` that survives between calls. The
libsodium branch can start only on a 64-byte boundary of the keystream, so `padXor`
puts padding in front of the data, XORs from the last boundary and shifts the result
back; the encryptor and the decryptor run it with the IV on opposite sides.

`size_t` is a natural number except in `ss_decrypt`, whose subtraction of the IV
length is the one place of the two functions that can go below zero (`sizeSub`).
-/

namespace Shadowsocks
set_option autoImplicit false
open Lib

/-- Subtraction of `size_t` values. -/
def sizeSub (a b : Nat) : Nat := if b ≤ a then a - b else a + 2 ^ 64 - b

theorem sizeSub_of_le {a b : Nat} (h : b ≤ a) : sizeSub a b = a - b := if_pos h

/-- The result of `ss_encrypt`: return code, the caller's buffer and context, and
the static scratch buffer. -/
structure EncResult (P : Platform) where
  ret : Int
  buf : Buffer
  ctx : Option (EncCtx P)
  tmp : Buffer

/-- The result of `ss_decrypt`, with the process-wide cache of IVs. -/
structure DecResult (P : Platform) extends EncResult P where
  ivCache : Cache Unit

section
variable {P : Platform} (E : Encryptor P)

/-- `if (padding)`: `n` bytes of `src` move up and the gap is zeroed. -/
def padFront (src : Buffer) (srcOff n padding room capacity : Nat) : Except Fault Buffer :=
  if padding ≠ 0 then do
    let src ← brealloc P.junk src room capacity
    let src ← src.memmove (srcOff + padding) srcOff n
    src.write srcOff (List.replicate padding 0)
  else pure src

/-- `if (padding)`: the `n` bytes behind the padding move down again. -/
def shiftBack (dst : Buffer) (dstOff n padding : Nat) : Except Fault Buffer :=
  if padding ≠ 0 then dst.memmove dstOff (dstOff + padding) n else pure dst

/-- The libsodium branch of both functions: `n` bytes of `src` from `srcOff` on are
XORed into `dst` at `dstOff`. `srcRoom` and `dstRoom` are the sizes asked of
`brealloc` for a given padding. -/
def padXor (src dst : Buffer) (srcOff dstOff n : Nat) (srcRoom dstRoom : Nat → Nat)
    (ctx : EncCtx P) (capacity : Nat) : Except Fault (Buffer × Buffer × EncCtx P) := do
  let padding := ctx.counter % 64
  let dst ← brealloc P.junk dst (dstRoom padding) capacity
  let src ← padFront (P := P) src srcOff n padding (srcRoom padding) capacity
  let m ← src.read srcOff (n + padding)
  let dst ← dst.write dstOff (cryptoStreamXorIc E m ctx.iv (ctx.counter / 64))
  let ctx := { ctx with counter := (ctx.counter + n) % 2 ^ 64 }
  let dst ← shiftBack dst dstOff n padding
  pure (src, dst, ctx)

/-- The end of `ss_encrypt`: the IV and the ciphertext go back to the caller. -/
def copyBack (plain cipher : Buffer) (ivLen capacity : Nat) : Except Fault Buffer := do
  let plain ← brealloc P.junk plain (ivLen + cipher.len) capacity
  let out ← cipher.read 0 (ivLen + cipher.len)
  let plain ← plain.write 0 out
  pure { plain with len := ivLen + cipher.len }

/-- `cipher_context_update`: `n` bytes of `src` go through the library into `dst`;
`none` is the return code 0. -/
def cipherContextUpdate (src dst : Buffer) (srcOff dstOff n : Nat) (ctx : EncCtx P) :
    Except Fault (Option (Buffer × EncCtx P)) := do
  let input ← src.read srcOff n
  if P.evp.succeeds ctx.evp input then do
    let out := (P.evp.update ctx.evp input).1
    let dst ← dst.write dstOff out
    pure (some ({ dst with len := out.length }, { ctx with evp := (P.evp.update ctx.evp input).2 }))
  else pure none

/-- A context that was just given its IV. -/
def started (ctx : EncCtx P) (iv : Bytes) (enc : Bool) : EncCtx P :=
  { cipherContextSetIv E ctx iv enc with counter := 0, init := true }

/-- `if (!ctx->init)` of `ss_encrypt`: set the IV and put it in front of the ciphertext. -/
def emitIv (cipher : Buffer) (ctx : EncCtx P) (ivLen : Nat) : Except Fault (Buffer × EncCtx P) :=
  if ctx.init then pure (cipher, ctx)
  else do
    let cipher ← cipher.write 0 (ctx.iv.take ivLen)
    pure (cipher, started E ctx ctx.iv true)

/-- `ss_encrypt`. -/
def ssEncrypt (plain : Buffer) (ctx : Option (EncCtx P)) (tmp : Buffer) (capacity : Nat) :
    Except Fault (EncResult P) :=
  match ctx with
  | none => do
    let xs ← plain.read 0 plain.len
    let buf ← plain.write 0 (xs.map E.encTable)
    pure { ret := 0, buf, ctx := none, tmp }
  | some ctx => do
    let ivLen := if ctx.init then 0 else E.ivLen
    let tmp ← brealloc P.junk tmp (ivLen + plain.len) capacity
    let (cipher, ctx) ← emitIv E { tmp with len := plain.len } ctx ivLen
    if E.method.sodium then do
      let (plain, cipher, ctx) ← padXor E plain cipher 0 ivLen plain.len
        (fun padding => plain.len + padding) (fun padding => ivLen + (padding + cipher.len) * 2) ctx capacity
      let buf ← copyBack (P := P) plain cipher ivLen capacity
      pure { ret := 0, buf, ctx := some ctx, tmp := cipher }
    else do
      match ← cipherContextUpdate plain cipher 0 ivLen plain.len ctx with
      | none => pure { ret := -1, buf := plain, ctx := some ctx, tmp := cipher }
      | some (cipher, ctx) => do
        let buf ← copyBack (P := P) plain cipher ivLen capacity
        pure { ret := 0, buf, ctx := some ctx, tmp := cipher }

/-- `if (!ctx->init)` of `ss_decrypt`: the IV of the first call is looked up in the
cache and remembered. The Boolean says that it was there already. -/
def admitIv (ctx : EncCtx P) (iv : Bytes) (ivCache : Cache Unit) : Bool × Cache Unit :=
  if !ctx.init && E.method.remembersIv then
    match cacheKeyExist ivCache iv with
    | (true, ivCache) => (true, ivCache)
    | (false, ivCache) => (false, (cacheInsert ivCache iv none).1)
  else (false, ivCache)

/-- `ss_decrypt`. -/
def ssDecrypt (cipher : Buffer) (ctx : Option (EncCtx P)) (tmp : Buffer) (ivCache : Cache Unit)
    (capacity : Nat) : Except Fault (DecResult P) :=
  match ctx with
  | none => do
    let xs ← cipher.read 0 cipher.len
    let buf ← cipher.write 0 (xs.map E.decTable)
    pure { ret := 0, buf, ctx := none, tmp, ivCache }
  | some ctx => do
    let tmp ← brealloc P.junk tmp cipher.len capacity
    let ivLen := if ctx.init then 0 else E.ivLen
    let plain := { tmp with len := sizeSub cipher.len ivLen }
    let iv ← cipher.read 0 ivLen
    let (known, ivCache) := admitIv E ctx iv ivCache
    let ctx := if ctx.init then ctx else started E ctx iv false
    if known then pure { ret := -1, buf := bfree cipher, ctx := some ctx, tmp := plain, ivCache }
    else if E.method.sodium then do
      let (cipher, plain, ctx) ← padXor E cipher plain ivLen 0 (sizeSub cipher.len ivLen)
        (fun padding => cipher.len + padding) (fun padding => (plain.len + padding) * 2 % 2 ^ 64) ctx capacity
      let buf ← copyBack (P := P) cipher plain 0 capacity
      pure { ret := 0, buf, ctx := some ctx, tmp := plain, ivCache }
    else do
      match ← cipherContextUpdate cipher plain ivLen 0 (sizeSub cipher.len ivLen) ctx with
      | none => pure { ret := -1, buf := bfree cipher, ctx := some ctx, tmp := plain, ivCache }
      | some (plain, ctx) => do
        let buf ← copyBack (P := P) cipher plain 0 capacity
        pure { ret := 0, buf, ctx := some ctx, tmp := plain, ivCache }

end

/-! ## One call -/

section
variable {P : Platform} {E : Encryptor P}

theorem padFront_spec {src : Buffer} {srcOff n padding room capacity : Nat}
    (source : srcOff + n ≤ src.array.length) (big : srcOff + n + padding ≤ room)
    (size : room < 2 ^ 63) (capSize : capacity < 2 ^ 63) :
    ∃ src', padFront (P := P) src srcOff n padding room capacity = .ok src' ∧
      src'.idx = src.idx ∧ src'.len = src.len ∧ src.array.length ≤ src'.array.length ∧
      srcOff + (n + padding) ≤ src'.array.length ∧
      window src'.array srcOff (n + padding) = List.replicate padding 0 ++ window src.array srcOff n := by
  unfold padFront
  by_cases zero : padding = 0
  · subst zero
    exact ⟨src, rfl, rfl, rfl, Nat.le_refl _, by omega, by simp⟩
  · obtain ⟨more, eq, roomy, -⟩ := brealloc_ok P.junk src room capacity (by omega)
    have long : (src.array ++ more).length = src.array.length + more.length := List.length_append
    have data : window (src.array ++ more) srcOff n = window src.array srcOff n := window_append_left source
    have moved : (splice (src.array ++ more) (srcOff + padding) (window src.array srcOff n)).length =
        (src.array ++ more).length := length_splice (by rw [length_window source]; omega)
    simp only [ne_eq, zero, not_false_eq_true, if_true, eq, ok_bind]
    rw [Buffer.memmove_ok (by dsimp only; omega) (by dsimp only; omega), ok_bind, data,
      Buffer.write_ok (by rw [List.length_replicate]; dsimp only; omega)]
    have gap := window_pad_front (src.array ++ more) (List.replicate padding 0) srcOff n
      (by rw [List.length_replicate]; omega)
    rw [List.length_replicate, data] at gap
    refine ⟨_, rfl, rfl, rfl, ?_, ?_, gap⟩ <;> dsimp only <;>
      rw [length_splice (by rw [List.length_replicate]; omega)] <;> omega

theorem shiftBack_spec (dst : Buffer) {dstOff n padding : Nat} (fits : dstOff + padding + n ≤ dst.array.length) :
    ∃ dst', shiftBack dst dstOff n padding = .ok dst' ∧ dst'.len = dst.len ∧
      dst'.array.length = dst.array.length ∧ window dst'.array 0 dstOff = window dst.array 0 dstOff ∧
      window dst'.array dstOff n = window dst.array (dstOff + padding) n := by
  unfold shiftBack
  by_cases zero : padding = 0
  · subst zero
    exact ⟨dst, rfl, rfl, rfl, rfl, rfl⟩
  · simp only [ne_eq, zero, not_false_eq_true, if_true]
    rw [Buffer.memmove_ok fits (by omega)]
    refine ⟨_, rfl, rfl, ?_, ?_, window_shift_down fits⟩
    · exact length_splice (by rw [length_window fits]; omega)
    · exact window_splice_below (by omega) (by omega)

/-- The padded XOR is the XOR at the byte position of the counter, whatever its
alignment, and stays inside both buffers. -/
theorem padXor_spec (E : Encryptor P) (src dst : Buffer) (srcOff dstOff n : Nat) (srcRoom dstRoom : Nat → Nat)
    (ctx : EncCtx P) (capacity : Nat) (source : srcOff + n ≤ src.array.length) (target : dstOff ≤ dst.array.length)
    (srcBig : srcOff + n + ctx.counter % 64 ≤ srcRoom (ctx.counter % 64))
    (dstBig : dstOff + n + ctx.counter % 64 ≤ dstRoom (ctx.counter % 64))
    (srcSize : srcRoom (ctx.counter % 64) < 2 ^ 63) (dstSize : dstRoom (ctx.counter % 64) < 2 ^ 63)
    (capSize : capacity < 2 ^ 63) (limit : ctx.counter + n < E.method.streamLimit) :
    ∃ src' dst', padXor E src dst srcOff dstOff n srcRoom dstRoom ctx capacity =
        .ok (src', dst', { ctx with counter := ctx.counter + n }) ∧
      src'.idx = src.idx ∧ src'.len = src.len ∧ src.array.length ≤ src'.array.length ∧
      dst'.len = dst.len ∧ dstOff + n ≤ dst'.array.length ∧
      window dst'.array 0 dstOff = window dst.array 0 dstOff ∧
      window dst'.array dstOff n =
        xorAt (P.keystream E.method ctx.iv E.key) ctx.counter (window src.array srcOff n) := by
  have below := E.method.streamLimit_le
  have counter : (ctx.counter + n) % 2 ^ 64 = ctx.counter + n := Nat.mod_eq_of_lt (by omega)
  obtain ⟨more, dstEq, roomy, -⟩ := brealloc_ok P.junk dst (dstRoom (ctx.counter % 64)) capacity
    (by omega)
  obtain ⟨src', srcEq, idx, len, grown, readable, padded⟩ :=
    padFront_spec (P := P) source srcBig srcSize capSize
  -- the keystream bytes under the padding are the end of the block before the data
  have out : cryptoStreamXorIc E (window src'.array srcOff (n + ctx.counter % 64)) ctx.iv (ctx.counter / 64) =
      xorAt (P.keystream E.method ctx.iv E.key) (64 * (ctx.counter / 64)) (List.replicate (ctx.counter % 64) 0) ++
        xorAt (P.keystream E.method ctx.iv E.key) ctx.counter (window src.array srcOff n) := by
    rw [cryptoStreamXorIc_eq E (by omega), padded, xorAt_append, List.length_replicate,
      show 64 * (ctx.counter / 64) + ctx.counter % 64 = ctx.counter by omega]
  have size := congrArg List.length out
  simp only [List.length_append, length_xorAt, List.length_replicate, length_window source] at size
  have fits : dstOff + ctx.counter % 64 + n ≤ (splice (dst.array ++ more) dstOff (cryptoStreamXorIc E
      (window src'.array srcOff (n + ctx.counter % 64)) ctx.iv (ctx.counter / 64))).length := by
    rw [length_splice (by omega)]
    omega
  obtain ⟨dst', dstEq', len', long', front, back⟩ := shiftBack_spec
    { dst with array := splice (dst.array ++ more) dstOff (cryptoStreamXorIc E
      (window src'.array srcOff (n + ctx.counter % 64)) ctx.iv (ctx.counter / 64)) } fits
  refine ⟨src', dst', ?_, idx, len, grown, len', by rw [long']; dsimp only; omega, ?_, ?_⟩
  · unfold padXor
    simp only [dstEq, srcEq, ok_bind, counter]
    rw [Buffer.read_ok readable, ok_bind, Buffer.write_ok (by dsimp only; omega), ok_bind, dstEq']
    rfl
  · rw [front]
    dsimp only
    have long : (dst.array ++ more).length = dst.array.length + more.length := List.length_append
    rw [window_splice_below (by omega) (by omega), window_append_left (by omega)]
  · rw [back]
    dsimp only
    rw [window_splice_inside _ _ (by omega) (by omega), out]
    have behind := window_append_right (xorAt (P.keystream E.method ctx.iv E.key) (64 * (ctx.counter / 64))
      (List.replicate (ctx.counter % 64) 0)) (xorAt (P.keystream E.method ctx.iv E.key) ctx.counter
      (window src.array srcOff n)) n
    rw [length_xorAt, List.length_replicate] at behind
    rw [behind, List.take_of_length_le (Nat.le_of_eq (by rw [length_xorAt, length_window source]))]

theorem copyBack_spec (plain : Buffer) {cipher : Buffer} {ivLen capacity : Nat}
    (source : ivLen + cipher.len ≤ cipher.array.length) (size : ivLen + cipher.len < 2 ^ 63)
    (capSize : capacity < 2 ^ 63) :
    ∃ buf, copyBack (P := P) plain cipher ivLen capacity = .ok buf ∧ buf.idx = plain.idx ∧ buf.Fits ∧
      plain.array.length ≤ buf.array.length ∧ capacity ≤ buf.array.length ∧
      buf.bytes = window cipher.array 0 (ivLen + cipher.len) := by
  obtain ⟨more, eq, roomy, capRoomy⟩ := brealloc_ok P.junk plain (ivLen + cipher.len) capacity
    (by omega)
  have long : (plain.array ++ more).length = plain.array.length + more.length := List.length_append
  have data : (window cipher.array 0 (ivLen + cipher.len)).length = ivLen + cipher.len :=
    length_window (by omega)
  have kept : (splice (plain.array ++ more) 0 (window cipher.array 0 (ivLen + cipher.len))).length =
      (plain.array ++ more).length := length_splice (by omega)
  unfold copyBack
  simp only [eq, ok_bind]
  rw [Buffer.read_ok (by omega), ok_bind, Buffer.write_ok (by dsimp only; omega)]
  refine ⟨⟨plain.idx, ivLen + cipher.len, splice (plain.array ++ more) 0
    (window cipher.array 0 (ivLen + cipher.len))⟩, rfl, rfl, ?_, ?_, ?_, ?_⟩
  · dsimp only [Buffer.Fits]
    omega
  · dsimp only
    omega
  · dsimp only
    omega
  · have self := window_splice_self (plain.array ++ more) (window cipher.array 0 (ivLen + cipher.len)) 0
      (by omega)
    rwa [data] at self

/-- The transformer state of a context. -/
def EncCtx.pos (ctx : EncCtx P) : Nat × P.evp.State := (ctx.counter, ctx.evp)

/-- The context as it stands when the data is processed. -/
def EncCtx.ready (E : Encryptor P) (ctx : EncCtx P) (iv : Bytes) (enc : Bool) : EncCtx P :=
  if ctx.init then ctx else started E ctx iv enc

@[simp] theorem started_init (ctx : EncCtx P) (iv : Bytes) (enc : Bool) : (started E ctx iv enc).init = true := rfl

@[simp] theorem started_counter (ctx : EncCtx P) (iv : Bytes) (enc : Bool) : (started E ctx iv enc).counter = 0 := rfl

theorem started_iv (ctx : EncCtx P) (iv : Bytes) (enc : Bool) :
    (started E ctx iv enc).iv = if enc then ctx.iv else iv := by
  simp only [started, cipherContextSetIv]
  cases enc <;> cases E.method.sodium <;> rfl

theorem cipherContextUpdate_spec (src dst : Buffer) (srcOff dstOff n : Nat) (ctx : EncCtx P)
    (lawful : P.evp.Lawful) (source : srcOff + n ≤ src.array.length) (target : dstOff + n ≤ dst.array.length) :
    ∃ dst', cipherContextUpdate src dst srcOff dstOff n ctx = .ok (some (dst',
        { ctx with evp := (P.evp.update ctx.evp (window src.array srcOff n)).2 })) ∧
      dst'.len = n ∧ dst'.array.length = dst.array.length ∧
      window dst'.array 0 dstOff = window dst.array 0 dstOff ∧
      window dst'.array dstOff n = (P.evp.update ctx.evp (window src.array srcOff n)).1 := by
  have size : (P.evp.update ctx.evp (window src.array srcOff n)).1.length = n := by
    rw [lawful.length_update, length_window source]
  unfold cipherContextUpdate
  rw [Buffer.read_ok source, ok_bind, if_pos (lawful.succeeds _ _)]
  dsimp only
  rw [Buffer.write_ok (by omega), ok_bind]
  refine ⟨_, rfl, size, length_splice (by omega), window_splice_below (by omega) (by omega), ?_⟩
  have self := window_splice_self dst.array (P.evp.update ctx.evp (window src.array srcOff n)).1 dstOff
    (by omega)
  rwa [size] at self

/-- When a call of `ss_encrypt` or `ss_decrypt` on `n` bytes after the IV is within
the limits of the machine and of the method. -/
structure InRange (E : Encryptor P) (ready : EncCtx P) (n capacity : Nat) : Prop where
  len : n < 2 ^ 61
  capacity : capacity < 2 ^ 63
  stream : E.method.sodium = true → ready.counter + n < E.method.streamLimit

/-- What a successful call leaves behind: `front ++` the processed bytes in the
caller's buffer, and a context that has moved past them. -/
structure CallPost (E : Encryptor P) (old : Buffer) (ready : EncCtx P) (front data : Bytes) (capacity : Nat)
    (r : EncResult P) : Prop where
  ret : r.ret = 0
  idx : r.buf.idx = old.idx
  fits : r.buf.Fits
  kept : old.array.length ≤ r.buf.array.length
  room : capacity ≤ r.buf.array.length
  bytes : r.buf.bytes = front ++ (cipherStep E ready.iv ready.pos data).1
  ctx : ∃ c, r.ctx = some c ∧ c.init = true ∧ c.iv = ready.iv ∧
    c.pos = (cipherStep E ready.iv ready.pos data).2

/-- Both functions end the same way: the scratch buffer holds `front` and the
processed bytes, and `copyBack` hands them to the caller. -/
theorem copyBack_post (E : Encryptor P) (old src dst : Buffer) (ready after : EncCtx P) {front : Bytes} (data : Bytes)
    {ivLen capacity : Nat}
    (idx : src.idx = old.idx) (kept : old.array.length ≤ src.array.length)
    (long : ivLen + dst.len ≤ dst.array.length) (size : ivLen + dst.len < 2 ^ 63) (capSize : capacity < 2 ^ 63)
    (head : window dst.array 0 ivLen = front)
    (body : window dst.array ivLen dst.len = (cipherStep E ready.iv ready.pos data).1)
    (init : after.init = true) (iv : after.iv = ready.iv)
    (pos : after.pos = (cipherStep E ready.iv ready.pos data).2) :
    ∃ buf, copyBack (P := P) src dst ivLen capacity = .ok buf ∧
      ∀ tmp, CallPost E old ready front data capacity { ret := 0, buf, ctx := some after, tmp } := by
  obtain ⟨buf, copied, bufIdx, bufFits, bufKept, bufRoom, bytes⟩ :=
    copyBack_spec (P := P) src long size capSize
  refine ⟨buf, copied, fun tmp => ⟨rfl, bufIdx.trans idx, bufFits, Nat.le_trans kept bufKept, bufRoom, ?_,
    ⟨after, rfl, init, iv, pos⟩⟩⟩
  rw [bytes, window_add, Nat.zero_add, head, body]

theorem ready_init (ctx : EncCtx P) (iv : Bytes) (enc : Bool) : (ctx.ready E iv enc).init = true := by
  unfold EncCtx.ready
  split
  · assumption
  · rfl

theorem emitIv_spec (cipher : Buffer) {ctx : EncCtx P} {n : Nat}
    (iv : ctx.init = false → ctx.iv.length = E.ivLen)
    (roomy : (if ctx.init then 0 else E.ivLen) + n ≤ cipher.array.length) :
    ∃ cipher', emitIv E cipher ctx (if ctx.init then 0 else E.ivLen) = .ok (cipher', ctx.ready E ctx.iv true) ∧
      cipher'.len = cipher.len ∧ cipher'.array.length = cipher.array.length ∧
      window cipher'.array 0 (if ctx.init then 0 else E.ivLen) = (if ctx.init then [] else ctx.iv) := by
  unfold emitIv EncCtx.ready
  cases begun : ctx.init with
  | true => exact ⟨cipher, rfl, rfl, rfl, window_nil _ _⟩
  | false =>
    have size := iv begun
    rw [begun] at roomy
    simp only [Bool.false_eq_true, if_false] at roomy ⊢
    rw [List.take_of_length_le (Nat.le_of_eq size), Buffer.write_ok (by omega), ok_bind]
    refine ⟨_, rfl, rfl, length_splice (by omega), ?_⟩
    have self := window_splice_self cipher.array ctx.iv 0 (by omega)
    rwa [size] at self

/-- One call of `ss_encrypt`: the IV on the first call, then the ciphertext. -/
theorem ssEncrypt_spec (plain tmp : Buffer) (ctx : EncCtx P) {capacity : Nat} (lawful : P.evp.Lawful)
    (fits : plain.Fits) (iv : ctx.init = false → ctx.iv.length = E.ivLen)
    (range : InRange E (ctx.ready E ctx.iv true) plain.len capacity) :
    ∃ r, ssEncrypt E plain (some ctx) tmp capacity = .ok r ∧
      CallPost E plain (ctx.ready E ctx.iv true) (if ctx.init then [] else ctx.iv) plain.bytes capacity r := by
  have lenSmall := range.len
  have capSmall := range.capacity
  have ivShort : (if ctx.init then 0 else E.ivLen) ≤ 16 := by
    have := E.ivLen_le
    split <;> omega
  obtain ⟨more, eq, roomy, -⟩ := brealloc_ok P.junk tmp
    ((if ctx.init then 0 else E.ivLen) + plain.len) capacity (by omega)
  obtain ⟨cipher, emitted, cipherLen, cipherLong, front⟩ :=
    emitIv_spec { tmp with len := plain.len, array := tmp.array ++ more } iv roomy
  dsimp only at cipherLen cipherLong
  generalize hready : ctx.ready E ctx.iv true = ready at *
  generalize hlen : (if ctx.init then 0 else E.ivLen) = ivLen at *
  have source : 0 + plain.len ≤ plain.array.length := by rw [Nat.zero_add]; exact fits
  unfold ssEncrypt
  simp only [eq, ok_bind, hlen, emitted]
  by_cases sodium : E.method.sodium = true
  · obtain ⟨plain', cipher', xored, idx, -, kept, len', long', front', data⟩ :=
      padXor_spec E plain cipher 0 ivLen plain.len (fun padding => plain.len + padding)
        (fun padding => ivLen + (padding + cipher.len) * 2) ready capacity
        source (by omega) (by omega) (by omega) (by omega) (by omega) capSmall (range.stream sodium)
    obtain ⟨buf, copied, post⟩ := copyBack_post E plain plain' cipher' ready
      { ready with counter := ready.counter + plain.len } plain.bytes idx kept (by omega) (by omega) capSmall (front'.trans front)
      (by rw [len', cipherLen, data]; simp only [cipherStep, sodium, if_true, Buffer.bytes, EncCtx.pos])
      (hready ▸ ready_init ctx ctx.iv true) rfl
      (by simp only [cipherStep, sodium, if_true, EncCtx.pos, Buffer.length_bytes fits])
    simp only [sodium, if_true, xored, ok_bind, copied]
    exact ⟨_, rfl, post cipher'⟩
  · obtain ⟨cipher', updated, len', long', front', data⟩ :=
      cipherContextUpdate_spec plain cipher 0 ivLen plain.len ready lawful source (by omega)
    obtain ⟨buf, copied, post⟩ := copyBack_post E plain plain cipher' ready
      { ready with evp := (P.evp.update ready.evp plain.bytes).2 } plain.bytes rfl (Nat.le_refl _) (by omega) (by omega) capSmall
      (front'.trans front)
      (by rw [len', data]; simp [cipherStep, sodium, Buffer.bytes, EncCtx.pos])
      (hready ▸ ready_init ctx ctx.iv true) rfl
      (by simp [cipherStep, sodium, EncCtx.pos])
    simp only [sodium, updated, ok_bind, copied]
    exact ⟨_, rfl, post cipher'⟩

/-- A fresh context whose IV is not in the cache may decrypt; a started one always may. -/
theorem admitIv_spec {ctx : EncCtx P} {iv : Bytes} {ivCache : Cache Unit}
    (fresh : ctx.init = false → E.method.remembersIv = true → iv ∉ ivCache.keys) :
    (admitIv E ctx iv ivCache).1 = false := by
  unfold admitIv
  split
  · rename_i looked
    simp only [Bool.and_eq_true, Bool.not_eq_true'] at looked
    rw [cacheKeyExist_fresh (fresh looked.1 looked.2)]
  · rfl

/-- One call of `ss_decrypt` on at least the IV: what is behind the IV is decrypted. Only the
first call has the IV in front, and both branches decrypt from the context as the IV has set it:
libsodium from the counter, with the block padded in front, and OpenSSL from where it is by
itself. -/
theorem ssDecrypt_spec (cipher tmp : Buffer) (ctx : EncCtx P) (ivCache : Cache Unit) (iv : Bytes) (ivLen : Nat)
    {capacity : Nat}
    (lawful : P.evp.Lawful) (fits : cipher.Fits) (hlen : (if ctx.init then 0 else E.ivLen) = ivLen)
    (long : ivLen ≤ cipher.len) (hiv : window cipher.array 0 ivLen = iv)
    (fresh : ctx.init = false → E.method.remembersIv = true → iv ∉ ivCache.keys)
    (range : InRange E (ctx.ready E iv false) (cipher.len - ivLen) capacity) :
    ∃ r, ssDecrypt E cipher (some ctx) tmp ivCache capacity = .ok r ∧
      CallPost E cipher (ctx.ready E iv false) [] (cipher.bytes.drop ivLen) capacity r.toEncResult ∧
      r.ivCache = (admitIv E ctx iv ivCache).2 := by
  have lenSmall := range.len
  have capSmall := range.capacity
  have ivShort : ivLen ≤ 16 := by
    have := E.ivLen_le
    split at hlen <;> omega
  have within : cipher.len ≤ cipher.array.length := fits
  have source : ivLen + (cipher.len - ivLen) ≤ cipher.array.length := by omega
  have data : cipher.bytes.drop ivLen = window cipher.array ivLen (cipher.len - ivLen) := by
    rw [Buffer.bytes, drop_window, Nat.zero_add]
  have dataLen : (cipher.bytes.drop ivLen).length = cipher.len - ivLen := by
    rw [List.length_drop, Buffer.length_bytes fits]
  obtain ⟨more, eq, roomy, -⟩ := brealloc_ok P.junk tmp cipher.len capacity (by omega)
  have admitted := admitIv_spec fresh
  generalize hready : ctx.ready E iv false = ready at *
  have hctx : (if ctx.init then ctx else started E ctx iv false) = ready := hready
  unfold ssDecrypt
  simp only [eq, ok_bind, hlen, sizeSub_of_le long]
  rw [Buffer.read_ok (by omega), ok_bind, hiv]
  simp only [admitted, Bool.false_eq_true, if_false, hctx]
  by_cases sodium : E.method.sodium = true
  · obtain ⟨cipher', plain', xored, idx, -, kept, len', long', -, body⟩ :=
      padXor_spec E cipher { tmp with len := cipher.len - ivLen, array := tmp.array ++ more } ivLen 0
        (cipher.len - ivLen) (fun padding => cipher.len + padding)
        (fun padding => (cipher.len - ivLen + padding) * 2 % 2 ^ 64) ready capacity
        source (by omega) (by omega) (by omega) (by omega) (by omega) capSmall (range.stream sodium)
    dsimp only at len'
    obtain ⟨buf, copied, post⟩ := copyBack_post E cipher cipher' plain' ready
      { ready with counter := ready.counter + (cipher.len - ivLen) } (cipher.bytes.drop ivLen) idx kept (by omega) (by omega) capSmall
      (window_nil _ _)
      (by rw [len', body, data]; simp only [cipherStep, sodium, if_true, EncCtx.pos])
      (hready ▸ ready_init ctx iv false) rfl
      (by simp only [cipherStep, sodium, if_true, EncCtx.pos, dataLen])
    simp only [sodium, if_true, xored, ok_bind, copied]
    exact ⟨_, rfl, post plain', rfl⟩
  · obtain ⟨plain', updated, len', long', -, body⟩ :=
      cipherContextUpdate_spec cipher { tmp with len := cipher.len - ivLen, array := tmp.array ++ more } ivLen 0
        (cipher.len - ivLen) ready lawful source (by dsimp only; omega)
    dsimp only at long'
    rw [← data] at updated body
    obtain ⟨buf, copied, post⟩ := copyBack_post E cipher cipher plain' ready
      { ready with evp := (P.evp.update ready.evp (cipher.bytes.drop ivLen)).2 } (cipher.bytes.drop ivLen)
      rfl (Nat.le_refl _)
      (by omega) (by omega) capSmall (window_nil _ _)
      (by rw [len', body]; simp [cipherStep, sodium, EncCtx.pos])
      (hready ▸ ready_init ctx iv false) rfl
      (by simp [cipherStep, sodium, EncCtx.pos])
    simp only [sodium, updated, ok_bind, copied]
    exact ⟨_, rfl, post plain', rfl⟩

/-! ## The index of the caller's buffer -/

theorem padFront_idx {src src' : Buffer} {srcOff n padding room capacity : Nat}
    (h : padFront (P := P) src srcOff n padding room capacity = .ok src') : src'.idx = src.idx := by
  unfold padFront at h
  split at h
  · obtain ⟨roomy, enlarged, h⟩ := bind_eq_ok.mp h
    obtain ⟨moved, shifted, h⟩ := bind_eq_ok.mp h
    rw [Buffer.write_idx h, Buffer.memmove_idx shifted, brealloc_idx enlarged]
  · cases h
    rfl

theorem padXor_idx {src dst src' dst' : Buffer} {srcOff dstOff n : Nat} {srcRoom dstRoom : Nat → Nat}
    {ctx ctx' : EncCtx P} {capacity : Nat}
    (h : padXor E src dst srcOff dstOff n srcRoom dstRoom ctx capacity = .ok (src', dst', ctx')) :
    src'.idx = src.idx := by
  obtain ⟨roomy, -, h⟩ := bind_eq_ok.mp h
  obtain ⟨padded, front, h⟩ := bind_eq_ok.mp h
  obtain ⟨m, -, h⟩ := bind_eq_ok.mp h
  obtain ⟨written, -, h⟩ := bind_eq_ok.mp h
  obtain ⟨shifted, -, h⟩ := bind_eq_ok.mp h
  cases h
  exact padFront_idx front

theorem copyBack_idx {plain plain' cipher : Buffer} {ivLen capacity : Nat}
    (h : copyBack (P := P) plain cipher ivLen capacity = .ok plain') : plain'.idx = plain.idx := by
  obtain ⟨roomy, enlarged, h⟩ := bind_eq_ok.mp h
  obtain ⟨out, -, h⟩ := bind_eq_ok.mp h
  obtain ⟨written, wrote, h⟩ := bind_eq_ok.mp h
  cases h
  exact (Buffer.write_idx wrote).trans (brealloc_idx enlarged)

/-- A call of `ss_decrypt` that succeeds does not touch `idx`. -/
theorem ssDecrypt_idx {cipher tmp : Buffer} {ctx : Option (EncCtx P)} {ivCache : Cache Unit} {capacity : Nat}
    {r : DecResult P} (h : ssDecrypt E cipher ctx tmp ivCache capacity = .ok r) (good : r.ret = 0) :
    r.buf.idx = cipher.idx := by
  unfold ssDecrypt at h
  split at h
  · obtain ⟨xs, -, h⟩ := bind_eq_ok.mp h
    obtain ⟨written, wrote, h⟩ := bind_eq_ok.mp h
    cases h
    exact Buffer.write_idx wrote
  · obtain ⟨roomy, -, h⟩ := bind_eq_ok.mp h
    obtain ⟨iv, -, h⟩ := bind_eq_ok.mp h
    dsimp only at h
    split at h
    · cases h
      cases good
    · split at h
      · obtain ⟨⟨padded, plain, after⟩, xored, h⟩ := bind_eq_ok.mp h
        obtain ⟨out, copied, h⟩ := bind_eq_ok.mp h
        cases h
        exact (copyBack_idx copied).trans (padXor_idx xored)
      · obtain ⟨updated, -, h⟩ := bind_eq_ok.mp h
        split at h
        · cases h
          cases good
        · obtain ⟨out, copied, h⟩ := bind_eq_ok.mp h
          cases h
          exact copyBack_idx copied

/-- Neither does a call of `ss_encrypt`. -/
theorem ssEncrypt_idx {plain tmp : Buffer} {ctx : Option (EncCtx P)} {capacity : Nat} {r : EncResult P}
    (h : ssEncrypt E plain ctx tmp capacity = .ok r) : r.buf.idx = plain.idx := by
  unfold ssEncrypt at h
  split at h
  · obtain ⟨xs, -, h⟩ := bind_eq_ok.mp h
    obtain ⟨written, wrote, h⟩ := bind_eq_ok.mp h
    cases h
    exact Buffer.write_idx wrote
  · obtain ⟨roomy, -, h⟩ := bind_eq_ok.mp h
    obtain ⟨⟨cipher, begun⟩, -, h⟩ := bind_eq_ok.mp h
    dsimp only at h
    split at h
    · obtain ⟨⟨padded, dst, after⟩, xored, h⟩ := bind_eq_ok.mp h
      obtain ⟨out, copied, h⟩ := bind_eq_ok.mp h
      cases h
      exact (copyBack_idx copied).trans (padXor_idx xored)
    · obtain ⟨updated, -, h⟩ := bind_eq_ok.mp h
      split at h
      · cases h
        rfl
      · obtain ⟨out, copied, h⟩ := bind_eq_ok.mp h
        cases h
        exact copyBack_idx copied

end

end Shadowsocks
