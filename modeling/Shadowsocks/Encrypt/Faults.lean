import Shadowsocks.Encrypt.Ota

/-!
# What `encrypt.c` cannot do

A call into `encrypt.c` on a bad buffer may leave an allocation or run out of memory.
None of the modelled functions ends the process by itself or touches what was freed.
-/

namespace Shadowsocks
set_option autoImplicit false
open Lib

variable {bad : Fault} [bad.Foreign]

namespace Buffer

theorem read_avoids (b : Buffer) (off n : Nat) : Avoids bad (b.read off n) := load_avoids _ _ _

theorem write_avoids (b : Buffer) (off : Nat) (bs : Bytes) : Avoids bad (b.write off bs) :=
  .bind (store_avoids _ _ _) fun _ => avoids_ok _

theorem memmove_avoids (b : Buffer) (dst src n : Nat) : Avoids bad (b.memmove dst src n) :=
  .bind (move_avoids _ _ _ _) fun _ => avoids_ok _

theorem byte_avoids (b : Buffer) (i : Nat) : Avoids bad (b.byte i) := by
  unfold byte
  split
  · exact avoids_ok _
  · exact (avoids_error _).mpr Fault.Foreign.inBounds

end Buffer

theorem brealloc_avoids (junk : Nat → UInt8) (b : Buffer) (len capacity : Nat) :
    Avoids bad (brealloc junk b len capacity) :=
  .ite (.bind (grow_avoids _ _ _) fun _ => avoids_ok _) (avoids_ok _)

theorem int_avoids (n : Nat) : Avoids bad (int n) := .ite (avoids_ok _) ((avoids_error _).mpr Fault.Foreign.int)

section
variable {P : Platform} (E : Encryptor P)

/-- The stream ciphers, for which both buffers are padded to a whole block. -/
theorem padXor_avoids (src dst : Buffer) (srcOff dstOff n : Nat) (srcRoom dstRoom : Nat → Nat) (ctx : EncCtx P)
    (capacity : Nat) : Avoids bad (padXor E src dst srcOff dstOff n srcRoom dstRoom ctx capacity) := by
  refine .bind (brealloc_avoids _ _ _ _) fun _ => .bind ?_ fun _ => .bind (Buffer.read_avoids _ _ _) fun _ =>
    .bind (Buffer.write_avoids _ _ _) fun _ => .bind ?_ fun _ => avoids_ok _
  · refine .ite ?_ (avoids_ok _)
    exact .bind (brealloc_avoids _ _ _ _) fun _ => .bind (Buffer.memmove_avoids _ _ _ _) fun _ =>
      Buffer.write_avoids _ _ _
  · exact .ite (Buffer.memmove_avoids _ _ _ _) (avoids_ok _)

/-- The result goes back to the caller's buffer, behind the IV. -/
theorem copyBack_avoids (plain cipher : Buffer) (ivLen capacity : Nat) :
    Avoids bad (copyBack (P := P) plain cipher ivLen capacity) :=
  .bind (brealloc_avoids _ _ _ _) fun _ => .bind (Buffer.read_avoids _ _ _) fun _ =>
    .bind (Buffer.write_avoids _ _ _) fun _ => avoids_ok _

/-- The update of a context fails only where it leaves one of the two buffers. -/
theorem cipherContextUpdate_avoids (src dst : Buffer) (srcOff dstOff n : Nat) (ctx : EncCtx P) :
    Avoids bad (cipherContextUpdate src dst srcOff dstOff n ctx) :=
  .bind (Buffer.read_avoids _ _ _) fun _ =>
    .ite (.bind (Buffer.write_avoids _ _ _) fun _ => avoids_ok _) (avoids_ok _)

/-- `ss_decrypt`, whatever the context is and whatever the library returns. -/
theorem ssDecrypt_avoids (cipher : Buffer) (ctx : Option (EncCtx P)) (tmp : Buffer) (ivCache : Cache Unit)
    (capacity : Nat) : Avoids bad (ssDecrypt E cipher ctx tmp ivCache capacity) := by
  unfold ssDecrypt
  split
  · exact .bind (Buffer.read_avoids _ _ _) fun _ => .bind (Buffer.write_avoids _ _ _) fun _ => avoids_ok _
  · refine .bind (brealloc_avoids _ _ _ _) fun _ => .bind (Buffer.read_avoids _ _ _) fun _ =>
      .ite (avoids_ok _) (.ite ?_ ?_)
    · exact .bind (padXor_avoids E _ _ _ _ _ _ _ _ _) fun _ => .bind (copyBack_avoids _ _ _ _) fun _ => avoids_ok _
    · refine .bind (cipherContextUpdate_avoids _ _ _ _ _ _) fun updated => ?_
      cases updated with
      | none => exact avoids_ok _
      | some result => exact .bind (copyBack_avoids _ _ _ _) fun _ => avoids_ok _

/-- `ss_encrypt`, in the same way. -/
theorem ssEncrypt_avoids (plain : Buffer) (ctx : Option (EncCtx P)) (tmp : Buffer) (capacity : Nat) :
    Avoids bad (ssEncrypt E plain ctx tmp capacity) := by
  unfold ssEncrypt
  split
  · exact .bind (Buffer.read_avoids _ _ _) fun _ => .bind (Buffer.write_avoids _ _ _) fun _ => avoids_ok _
  · refine .bind (brealloc_avoids _ _ _ _) fun _ => .bind ?_ fun _ => .ite ?_ ?_
    · exact .ite (avoids_ok _) (.bind (Buffer.write_avoids _ _ _) fun _ => avoids_ok _)
    · exact .bind (padXor_avoids E _ _ _ _ _ _ _ _ _) fun _ => .bind (copyBack_avoids _ _ _ _) fun _ => avoids_ok _
    · refine .bind (cipherContextUpdate_avoids _ _ _ _ _ _) fun updated => ?_
      cases updated with
      | none => exact avoids_ok _
      | some result => exact .bind (copyBack_avoids _ _ _ _) fun _ => avoids_ok _

/-- The tag is written behind the header. -/
theorem ssOnetimeauth_avoids (buf : Buffer) (iv : Bytes) (capacity : Nat) :
    Avoids bad (ssOnetimeauth E buf iv capacity) :=
  .bind (brealloc_avoids _ _ _ _) fun _ => .bind (Buffer.read_avoids _ _ _) fun _ =>
    .bind (Buffer.write_avoids _ _ _) fun _ => avoids_ok _

/-- A chunk gets its length and its tag in front. -/
theorem ssGenHash_avoids (buf : Buffer) (counter : Nat) (ctx : EncCtx P) (capacity : Nat) :
    Avoids bad (ssGenHash E buf counter ctx capacity) :=
  .bind (brealloc_avoids _ _ _ _) fun _ => .bind (Buffer.read_avoids _ _ _) fun _ =>
    .bind (Buffer.memmove_avoids _ _ _ _) fun _ => .bind (Buffer.write_avoids _ _ _) fun _ =>
      .bind (Buffer.write_avoids _ _ _) fun _ => avoids_ok _

theorem ssOnetimeauthVerify_avoids (buf : Buffer) (iv : Bytes) : Avoids bad (ssOnetimeauthVerify E buf iv) :=
  .bind (Buffer.read_avoids _ _ _) fun _ => .bind (Buffer.read_avoids _ _ _) fun _ => avoids_ok _

/-- One turn of the loop over a segment. -/
theorem checkHashStep_avoids (iv : Bytes) (capacity blen : Nat) (s : HashLoop) :
    Avoids bad (checkHashStep (P := P) iv capacity blen s) := by
  refine .bind (Buffer.read_avoids _ _ _) fun _ => .bind (Buffer.write_avoids _ _ _) fun _ =>
    .bind (int_avoids _) fun _ => .bind ?_ fun _ => ?_
  · exact .ite (.bind (Buffer.read_avoids _ _ _) fun _ => .bind (brealloc_avoids _ _ _ _) fun _ => avoids_ok _)
      (avoids_ok _)
  · refine .ite ?_ (avoids_ok _)
    refine .bind (Buffer.read_avoids _ _ _) fun _ => .bind (Buffer.read_avoids _ _ _) fun _ => .ite (avoids_ok _) ?_
    exact .bind (Buffer.memmove_avoids _ _ _ _) fun _ => .bind (Buffer.write_avoids _ _ _) fun _ =>
      .bind (int_avoids _) fun _ => avoids_ok _

theorem checkHashLoop_avoids (iv : Bytes) (capacity blen left : Nat) (s : HashLoop) :
    Avoids bad (checkHashLoop (P := P) iv capacity blen left s) := by
  induction left generalizing s with
  | zero => exact avoids_ok _
  | succ left ih =>
    refine .bind (checkHashStep_avoids iv capacity blen s) fun step => ?_
    obtain ⟨good, after⟩ := step
    cases good with
    | false => exact avoids_ok _
    | true => exact .bind (int_avoids _) fun _ => ih _

/-- All bytes of a segment. -/
theorem ssCheckHash_avoids (buf : Buffer) (chunk : Chunk) (ctx : EncCtx P) (capacity : Nat) :
    Avoids bad (ssCheckHash E buf chunk ctx capacity) :=
  .bind (brealloc_avoids _ _ _ _) fun _ => .bind (brealloc_avoids _ _ _ _) fun _ =>
    .bind (checkHashLoop_avoids _ _ _ _ _) fun _ => .ite (avoids_ok _) (avoids_ok _)

end

end Shadowsocks
