import Shadowsocks.Encrypt.Faults
import Shadowsocks.Relay.Crypt

/-!
# What the steps of a callback cannot do

The steps that all callbacks share end neither the process nor touch what was freed.
Where a callback does, it is its own doing. And with a library that works an encryption
does not close the connection.
-/

namespace Shadowsocks
set_option autoImplicit false
open Lib

variable {bad : Fault} [bad.Foreign]

omit [bad.Foreign] in
/-- Closing a connection is not a fault. -/
@[simp] theorem avoids_closed {α : Type} (why : Closing) : Avoids (Stop.crashed bad) (.error (.closed why) : Except Stop α) := by
  simp

/-- A `recv` fails only where it leaves the buffer. -/
theorem receive_avoids (p : Pipe) (len : Nat) (segment : Segment) : Avoids (.crashed bad) (p.receive len segment) :=
  .bind (orCrash_avoids (Buffer.write_avoids _ _ _)) fun _ => avoids_ok _

/-- So does a `send` of what is in the buffer, -/
theorem push_avoids (p : Pipe) (r : SendResult) : Avoids (.crashed bad) (p.push r) := by
  refine .bind (orCrash_avoids (Buffer.read_avoids _ _ _)) fun _ => ?_
  cases r.on p.buf.len with
  | again => exact avoids_ok _
  | error => exact avoids_closed _
  | count s => exact .ite (avoids_ok _) (avoids_ok _)

/-- and a `send` of what an earlier one has left. -/
theorem drain_avoids (p : Pipe) (r : SendResult) : Avoids (.crashed bad) (p.drain r) := by
  refine .ite (avoids_closed _) (.bind (orCrash_avoids (Buffer.read_avoids _ _ _)) fun _ => ?_)
  cases r.on p.buf.len with
  | again => exact avoids_ok _
  | error => exact avoids_closed _
  | count s => exact .ite (avoids_ok _) (avoids_ok _)

section
variable {P : Platform} (E : Encryptor P)

/-- Encryption follows the context and grows its buffers; where it fails, the connection is
closed. -/
theorem encryptBuf_avoids (buf : Buffer) (ctx : Option (EncCtx P)) (tmp : Buffer) :
    Avoids (.crashed bad) (encryptBuf E buf ctx tmp) :=
  .bind (orCrash_avoids (ssEncrypt_avoids E _ _ _ _)) fun _ => .ite (avoids_closed _) (avoids_ok _)

theorem decryptBuf_avoids (buf : Buffer) (ctx : Option (EncCtx P)) (tmp : Buffer) (ivCache : Cache Unit) :
    Avoids (.crashed bad) (decryptBuf E buf ctx tmp ivCache) :=
  .bind (orCrash_avoids (ssDecrypt_avoids E _ _ _ _ _)) fun _ => .ite (avoids_closed _) (avoids_ok _)

/-- What a client does with a segment of its remote, from `recv` to the buffer for its own client.
-/
theorem relayDecrypted_avoids (down : Pipe) (dCtx : Option (EncCtx P)) (segment : Segment) (e : RecvEvent) :
    Avoids (.crashed bad) (relayDecrypted E down dCtx segment e) :=
  .bind (receive_avoids _ _ _) fun _ => .bind (decryptBuf_avoids E _ _ _ _) fun _ =>
    .bind (push_avoids _ _) fun _ => avoids_ok _

theorem genHash_avoids (on : Bool) (ctx : Option (EncCtx P)) (buf : Buffer) (counter : Nat) :
    Avoids (.crashed bad) (genHash E on ctx buf counter) :=
  .ite (.bind (orCrash_avoids (deref_avoids _)) fun _ => orCrash_avoids (ssGenHash_avoids E _ _ _ _)) (avoids_ok _)

/-- With no authentication the header stays as it is. -/
theorem authHeader_avoids (on : Bool) (ctx : Option (EncCtx P)) (abuf : Buffer) :
    Avoids (.crashed bad) (authHeader E on ctx abuf) := by
  refine .ite ?_ (avoids_ok _)
  exact .bind (orCrash_avoids (Buffer.byte_avoids _ _)) fun _ => .bind (orCrash_avoids (Buffer.write_avoids _ _ _)) fun _ =>
    .bind (orCrash_avoids (deref_avoids _)) fun _ => orCrash_avoids (ssOnetimeauth_avoids E _ _ _)

/-- With no authentication a segment is taken as it is. -/
theorem checkHash_avoids (on : Bool) (ctx : Option (EncCtx P)) (buf : Buffer) (chunk : Chunk) :
    Avoids (.crashed bad) (checkHash E on ctx buf chunk) := by
  refine .ite ?_ (avoids_ok _)
  exact .bind (orCrash_avoids (deref_avoids _)) fun _ => .bind (orCrash_avoids (ssCheckHash_avoids E _ _ _ _)) fun _ =>
    .ite (avoids_closed _) (avoids_ok _)

end

/-! ## A library that works -/

section
variable {P : Platform} {E : Encryptor P} {buf out tmp : Buffer} {ctx ctx' : Option (EncCtx P)}

/-- A lawful library encrypts what it is given, to the same length. -/
theorem cipherContextUpdate_works (lawful : P.evp.Lawful) {src dst : Buffer} {srcOff dstOff n : Nat} {c : EncCtx P}
    {updated : Option (Buffer × EncCtx P)} (h : cipherContextUpdate src dst srcOff dstOff n c = .ok updated) :
    ∃ dst' c', updated = some (dst', c') ∧ dst'.len = n := by
  obtain ⟨input, read, h⟩ := bind_eq_ok.mp h
  rw [lawful.succeeds, if_pos rfl] at h
  obtain ⟨written, -, h⟩ := bind_eq_ok.mp h
  cases h
  exact ⟨_, _, rfl, (lawful.length_update _ _).trans (Buffer.read_length read)⟩

/-- The padding changes no length. -/
theorem padXor_len {src dst src' dst' : Buffer} {srcOff dstOff n : Nat} {srcRoom dstRoom : Nat → Nat} {c c' : EncCtx P}
    {capacity : Nat} (h : padXor E src dst srcOff dstOff n srcRoom dstRoom c capacity = .ok (src', dst', c')) :
    dst'.len = dst.len := by
  obtain ⟨roomy, enlarged, h⟩ := bind_eq_ok.mp h
  obtain ⟨padded, -, h⟩ := bind_eq_ok.mp h
  obtain ⟨m, -, h⟩ := bind_eq_ok.mp h
  obtain ⟨written, wrote, h⟩ := bind_eq_ok.mp h
  obtain ⟨shifted, back, h⟩ := bind_eq_ok.mp h
  cases h
  obtain ⟨more, rfl⟩ := brealloc_cases enlarged
  obtain ⟨-, rfl⟩ := Buffer.write_eq_ok.mp wrote
  unfold shiftBack at back
  split at back
  · obtain ⟨-, -, rfl⟩ := Buffer.memmove_eq_ok.mp back
    rfl
  · cases back
    rfl

/-- Behind the IV there is as much as has been encrypted. -/
theorem copyBack_len {plain cipher plain' : Buffer} {ivLen capacity : Nat}
    (h : copyBack (P := P) plain cipher ivLen capacity = .ok plain') : plain'.len = ivLen + cipher.len := by
  obtain ⟨roomy, -, h⟩ := bind_eq_ok.mp h
  obtain ⟨bytes, -, h⟩ := bind_eq_ok.mp h
  obtain ⟨written, -, h⟩ := bind_eq_ok.mp h
  cases h
  rfl

/-- An encryption succeeds, and what comes out is not shorter than what went in. -/
theorem ssEncrypt_works (lawful : P.evp.Lawful) {capacity : Nat} {r : EncResult P}
    (h : ssEncrypt E buf ctx tmp capacity = .ok r) : r.ret = 0 ∧ buf.len ≤ r.buf.len := by
  unfold ssEncrypt at h
  split at h
  · obtain ⟨xs, -, h⟩ := bind_eq_ok.mp h
    obtain ⟨written, wrote, h⟩ := bind_eq_ok.mp h
    obtain ⟨-, rfl⟩ := Buffer.write_eq_ok.mp wrote
    cases h
    exact ⟨rfl, Nat.le_refl _⟩
  · obtain ⟨roomy, -, h⟩ := bind_eq_ok.mp h
    obtain ⟨⟨cipher, begun⟩, emitted, h⟩ := bind_eq_ok.mp h
    have len : cipher.len = buf.len := by
      unfold emitIv at emitted
      split at emitted
      · cases emitted
        rfl
      · obtain ⟨written, wrote, emitted⟩ := bind_eq_ok.mp emitted
        obtain ⟨-, rfl⟩ := Buffer.write_eq_ok.mp wrote
        cases emitted
        rfl
    dsimp only at h
    split at h
    · obtain ⟨⟨padded, dst, after⟩, xored, h⟩ := bind_eq_ok.mp h
      obtain ⟨out, copied, h⟩ := bind_eq_ok.mp h
      have len' := padXor_len xored
      have size := copyBack_len copied
      cases h
      refine ⟨rfl, ?_⟩
      dsimp only at size ⊢
      omega
    · obtain ⟨updated, update, h⟩ := bind_eq_ok.mp h
      obtain ⟨dst, after, rfl, len'⟩ := cipherContextUpdate_works lawful update
      obtain ⟨out, copied, h⟩ := bind_eq_ok.mp h
      have size := copyBack_len copied
      cases h
      refine ⟨rfl, ?_⟩
      dsimp only at size ⊢
      omega

/-- `ss_encrypt` of a lawful library never makes its caller close the connection. -/
theorem encryptBuf_open (lawful : P.evp.Lawful) (buf : Buffer) (ctx : Option (EncCtx P)) (tmp : Buffer)
    (why : Closing) : Avoids (.closed why) (encryptBuf E buf ctx tmp) := by
  refine .bind_ok (orCrash_open _ _) fun r call => ?_
  rw [orCrash_eq_ok] at call
  rw [(ssEncrypt_works lawful call).1]
  exact avoids_ok _

theorem authHeader_open {on : Bool} {abuf : Buffer} (why : Closing) : Avoids (.closed why) (authHeader E on ctx abuf) :=
  .ite (.bind (orCrash_open _ _) fun _ => .bind (orCrash_open _ _) fun _ => .bind (orCrash_open _ _) fun _ =>
    orCrash_open _ _) (avoids_ok _)

/-- Authentication only adds to the header. -/
theorem authHeader_len {on : Bool} {abuf : Buffer} (h : authHeader E on ctx abuf = .ok out) : abuf.len ≤ out.len := by
  unfold authHeader at h
  split at h
  · obtain ⟨atyp, -, h⟩ := bind_eq_ok.mp h
    obtain ⟨flagged, wrote, h⟩ := bind_eq_ok.mp h
    obtain ⟨c, -, h⟩ := bind_eq_ok.mp h
    rw [orCrash_eq_ok] at wrote h
    obtain ⟨roomy, enlarged, h⟩ := bind_eq_ok.mp h
    obtain ⟨data, -, h⟩ := bind_eq_ok.mp h
    obtain ⟨signed, wrote', h⟩ := bind_eq_ok.mp h
    cases h
    obtain ⟨-, rfl⟩ := Buffer.write_eq_ok.mp wrote'
    obtain ⟨more, rfl⟩ := brealloc_cases enlarged
    obtain ⟨-, rfl⟩ := Buffer.write_eq_ok.mp wrote
    exact Nat.le_add_right _ _
  · cases h
    exact Nat.le_refl _

/-- What is encrypted gets no shorter. -/
theorem encryptBuf_len (lawful : P.evp.Lawful) (h : encryptBuf E buf ctx tmp = .ok (out, ctx')) : buf.len ≤ out.len := by
  obtain ⟨r, call, h⟩ := bind_eq_ok.mp h
  rw [orCrash_eq_ok] at call
  have len := (ssEncrypt_works lawful call).2
  split at h
  · cases h
  · cases h
    exact len

end

end Shadowsocks
