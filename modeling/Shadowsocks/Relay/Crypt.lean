import Shadowsocks.Encrypt.Ota
import Shadowsocks.Relay.Pipe

/-!
# The encryption calls of the callbacks

All callbacks treat the functions of `encrypt.c` alike: an error of the cipher closes
the connection. The scratch buffers of `ss_encrypt` and `ss_decrypt` and the cache of
IVs are shared by all connections of a process, so what they hold when a callback runs
is chosen by the environment.
-/

namespace Shadowsocks
set_option autoImplicit false
open Lib

/-- All that the relaying callbacks can learn from outside. -/
structure RecvEvent where
  recv : Recv
  tmp : Buffer := {}
  ivCache : Cache Unit := cacheCreate Unit 1024
  send : SendResult := .full

/-- A segment that arrives, with the scratch buffer and the cache of IVs as they are then. -/
structure Arrival where
  segment : Segment
  tmp : Buffer := {}
  ivCache : Cache Unit := cacheCreate Unit 1024

/-- The bytes that arrive, in order. -/
def received (arrivals : List Arrival) : Bytes := (arrivals.map fun a => a.segment.bytes).flatten

@[simp] theorem received_nil : received [] = [] := rfl

@[simp] theorem received_cons (a : Arrival) (as : List Arrival) : received (a :: as) = a.segment.bytes ++ received as :=
  rfl

section
variable {P : Platform} (E : Encryptor P)

/-- The two contexts of `new_server`; `iv` is what `rand_bytes` gives. -/
def newContext (enc : Bool) (iv : Bytes) : Option (EncCtx P) :=
  if E.method = .table then none else some (encCtxInit E enc iv)

/-- `ss_encrypt`, or the connection is closed. -/
def encryptBuf (buf : Buffer) (ctx : Option (EncCtx P)) (tmp : Buffer) : Except Stop (Buffer × Option (EncCtx P)) := do
  let r ← orCrash (ssEncrypt E buf ctx tmp bufSize)
  if r.ret ≠ 0 then .error (.closed .invalidCipher) else pure (r.buf, r.ctx)

/-- `ss_decrypt`, or the connection is closed. -/
def decryptBuf (buf : Buffer) (ctx : Option (EncCtx P)) (tmp : Buffer) (ivCache : Cache Unit) :
    Except Stop (Buffer × Option (EncCtx P)) := do
  let r ← orCrash (ssDecrypt E buf ctx tmp ivCache bufSize)
  if r.ret ≠ 0 then .error (.closed .invalidCipher) else pure (r.buf, r.ctx)

/-- What `remote_recv_cb` of ss-local and ss-tunnel does with a segment of the encrypted
answer. -/
def relayDecrypted (down : Pipe) (dCtx : Option (EncCtx P)) (segment : Segment) (e : RecvEvent) :
    Except Stop (Pipe × Option (EncCtx P)) := do
  let down ← down.receive 0 segment
  let (buf, dCtx) ← decryptBuf E down.buf dCtx e.tmp e.ivCache
  let down ← { down with buf }.produce.push e.send
  pure (down, dCtx)

/-- `ss_gen_hash` if authentication applies, with the chunk counter. -/
def genHash (on : Bool) (ctx : Option (EncCtx P)) (buf : Buffer) (counter : Nat) : Except Stop (Buffer × Nat) :=
  if on then do
    let ctx ← orCrash (deref ctx)
    orCrash (ssGenHash E buf counter ctx bufSize)
  else pure (buf, counter)

/-- `abuf->array[0] |= ONETIMEAUTH_FLAG` and `ss_onetimeauth` if authentication is on. -/
def authHeader (on : Bool) (ctx : Option (EncCtx P)) (abuf : Buffer) : Except Stop Buffer :=
  if on then do
    let atyp ← orCrash (abuf.byte 0)
    let abuf ← orCrash (abuf.write 0 [atyp ||| 0x10])
    let ctx ← orCrash (deref ctx)
    orCrash (ssOnetimeauth E abuf ctx.iv bufSize)
  else pure abuf

/-- `ss_check_hash` if the client authenticates, or the connection is closed. -/
def checkHash (on : Bool) (ctx : Option (EncCtx P)) (buf : Buffer) (chunk : Chunk) : Except Stop (Buffer × Chunk) :=
  if on then do
    let ctx ← orCrash (deref ctx)
    let r ← orCrash (ssCheckHash E buf chunk ctx bufSize)
    if r.ret = 0 then .error (.closed .hashError) else pure (r.buf, r.chunk)
  else pure (buf, chunk)

end

/-- Whatever the decryption gives, it is offered to the client side. -/
theorem relayDecrypted_cases {P : Platform} {E : Encryptor P} {down down' : Pipe} {dCtx dCtx' : Option (EncCtx P)}
    {segment : Segment} {e : RecvEvent} (h : relayDecrypted E down dCtx segment e = .ok (down', dCtx')) :
    ∃ buf, ({ down with buf } : Pipe).produce.push e.send = .ok down' := by
  obtain ⟨mid, received, h⟩ := bind_eq_ok.mp h
  obtain ⟨written, -, received⟩ := bind_eq_ok.mp received
  cases received
  obtain ⟨⟨buf, ctx⟩, -, h⟩ := bind_eq_ok.mp h
  obtain ⟨pushed, eq, h⟩ := bind_eq_ok.mp h
  cases h
  exact ⟨buf, eq⟩

theorem encryptBuf_idx {P : Platform} {E : Encryptor P} {buf out tmp : Buffer} {ctx ctx' : Option (EncCtx P)}
    (h : encryptBuf E buf ctx tmp = .ok (out, ctx')) : out.idx = buf.idx := by
  obtain ⟨r, call, h⟩ := bind_eq_ok.mp h
  rw [orCrash_eq_ok] at call
  split at h
  · cases h
  · cases h
    exact ssEncrypt_idx call

/-- `ss_gen_hash` leaves `idx` alone and its result lies inside the allocation. -/
theorem genHash_cases {P : Platform} {E : Encryptor P} {on : Bool} {ctx : Option (EncCtx P)} {buf out : Buffer}
    {counter counter' : Nat} (fits : buf.Fits) (h : genHash E on ctx buf counter = .ok (out, counter')) :
    out.idx = buf.idx ∧ out.Fits := by
  unfold genHash at h
  split at h
  · obtain ⟨c, -, h⟩ := bind_eq_ok.mp h
    rw [orCrash_eq_ok] at h
    obtain ⟨roomy, enlarged, h⟩ := bind_eq_ok.mp h
    obtain ⟨data, -, h⟩ := bind_eq_ok.mp h
    obtain ⟨moved, shifted, h⟩ := bind_eq_ok.mp h
    obtain ⟨tagged, wrote, h⟩ := bind_eq_ok.mp h
    obtain ⟨last, wrote', h⟩ := bind_eq_ok.mp h
    have idx := ((Buffer.write_idx wrote').trans (Buffer.write_idx wrote)).trans
      ((Buffer.memmove_idx shifted).trans (brealloc_idx enlarged))
    have long := ((Buffer.write_grown wrote).trans (Buffer.write_grown wrote')).1
    have room := Buffer.memmove_room shifted
    cases h
    refine ⟨idx, ?_⟩
    dsimp only [Buffer.Fits]
    omega
  · cases h
    exact ⟨rfl, fits⟩

/-- A decryption that succeeds does not touch `idx`. -/
theorem decryptBuf_idx {P : Platform} {E : Encryptor P} {buf out tmp : Buffer} {ctx ctx' : Option (EncCtx P)}
    {ivCache : Cache Unit} (h : decryptBuf E buf ctx tmp ivCache = .ok (out, ctx')) : out.idx = buf.idx := by
  obtain ⟨r, call, h⟩ := bind_eq_ok.mp h
  rw [orCrash_eq_ok] at call
  split at h
  · cases h
  · rename_i good
    cases h
    exact ssDecrypt_idx call (Decidable.not_not.mp good)

end Shadowsocks
