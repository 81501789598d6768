import Shadowsocks.Lib.Transducer
import Shadowsocks.Encrypt.Buffer

/-!
# Methods, cipher contexts and the libraries behind them

`encrypt.c` keeps one global encryptor: the method, the key derived from the
password and, for `table`, the two substitution tables. The stream ciphers are
libsodium's three (`SALSA20` and above in the numbering of `encrypt.h`) and those of
the linked crypto library, reached through `cipher_context_update`. Both libraries
are parameters (`Platform`); what the program relies on is `EvpCipher.Lawful`.
-/

namespace Shadowsocks
set_option autoImplicit false
open Lib

/-- The ciphers of `supported_ciphers`, in the order of their numbers. -/
inductive Method where
  | table | rc4 | rc4Md5 | aes128Cfb | aes192Cfb | aes256Cfb | bfCfb
  | camellia128Cfb | camellia192Cfb | camellia256Cfb | cast5Cfb | desCfb
  | ideaCfb | rc2Cfb | seedCfb | salsa20 | chacha20 | chacha20Ietf
  deriving DecidableEq, Repr

namespace Method

/-- The constant of `encrypt.h`. -/
def code : Method → Nat
  | table => 0 | rc4 => 1 | rc4Md5 => 2 | aes128Cfb => 3 | aes192Cfb => 4 | aes256Cfb => 5
  | bfCfb => 6 | camellia128Cfb => 7 | camellia192Cfb => 8 | camellia256Cfb => 9
  | cast5Cfb => 10 | desCfb => 11 | ideaCfb => 12 | rc2Cfb => 13 | seedCfb => 14
  | salsa20 => 15 | chacha20 => 16 | chacha20Ietf => 17

/-- `supported_ciphers_iv_size`. -/
def ivSize : Method → Nat
  | table => 0 | rc4 => 0 | rc4Md5 => 16 | aes128Cfb => 16 | aes192Cfb => 16 | aes256Cfb => 16
  | bfCfb => 8 | camellia128Cfb => 16 | camellia192Cfb => 16 | camellia256Cfb => 16
  | cast5Cfb => 8 | desCfb => 8 | ideaCfb => 8 | rc2Cfb => 8 | seedCfb => 16
  | salsa20 => 8 | chacha20 => 8 | chacha20Ietf => 12

/-- `method >= SALSA20`. -/
def sodium (m : Method) : Bool := decide (salsa20.code ≤ m.code)

/-- `method >= RC4_MD5`: the methods whose IVs are remembered. -/
def remembersIv (m : Method) : Bool := decide (rc4Md5.code ≤ m.code)

/-- How many bytes one context may process: the byte counter has 64 bits, and the
IETF variant of ChaCha20 numbers its blocks with 32. -/
def streamLimit : Method → Nat
  | chacha20Ietf => 2 ^ 38
  | _ => 2 ^ 64

theorem streamLimit_le (m : Method) : m.streamLimit ≤ 2 ^ 64 := by cases m <;> decide

theorem ivSize_le (m : Method) : m.ivSize ≤ 16 := by cases m <;> decide

end Method

/-- The streaming interface of the crypto library: `init` is the effect of setting
key and IV, `update` one call of the update function with the length in `size_t`
(as in PolarSSL and mbed TLS), `succeeds` its return code. -/
structure EvpCipher where
  State : Type
  blank : State
  init : Method → Bytes → Bytes → Bool → State
  succeeds : State → Bytes → Bool
  update : State → Bytes → Bytes × State

/-- The library's ciphers work as stream ciphers: no call fails or changes the
length, consecutive calls act as one, and decryption undoes encryption. -/
structure EvpCipher.Lawful (E : EvpCipher) : Prop where
  succeeds : ∀ s xs, E.succeeds s xs = true
  update_nil : ∀ s, E.update s [] = ([], s)
  update_append : ∀ s xs ys, E.update s (xs ++ ys) =
    ((E.update s xs).1 ++ (E.update (E.update s xs).2 ys).1, (E.update (E.update s xs).2 ys).2)
  length_update : ∀ s xs, (E.update s xs).1.length = xs.length
  decrypt_encrypt : ∀ m key iv xs,
    (E.update (E.init m key iv false) (E.update (E.init m key iv true) xs).1).1 = xs

/-- The libraries the program is linked with, and what fresh memory holds. The byte
`keystream m n k pos` is byte `pos % 64` of block `pos / 64` of the libsodium cipher
`m` under nonce `n` and key `k`. -/
structure Platform where
  evp : EvpCipher
  keystream : Method → Bytes → Bytes → Nat → UInt8
  hmacSha1 : Bytes → Bytes → Vector UInt8 20
  md5 : Bytes → Bytes
  junk : Nat → UInt8

/-- The statics of `encrypt.c` after `enc_init`. -/
structure Encryptor (P : Platform) where
  method : Method
  key : Bytes
  encTable : UInt8 → UInt8
  decTable : UInt8 → UInt8

/-- `enc_ctx_t`: `iv` is the part of `evp.iv` in use. -/
structure EncCtx (P : Platform) where
  init : Bool
  counter : Nat
  iv : Bytes
  evp : P.evp.State

section
variable {P : Platform} (E : Encryptor P)

/-- `enc_iv_len`. -/
def Encryptor.ivLen : Nat := E.method.ivSize

theorem Encryptor.ivLen_le : E.ivLen ≤ 16 := E.method.ivSize_le

/-- `enc_ctx_init`; `drawn` is what `rand_bytes` stores for an encryption context. -/
def encCtxInit (enc : Bool) (drawn : Bytes) : EncCtx P where
  init := false
  counter := 0
  iv := if enc then drawn else List.replicate E.ivLen 0
  evp := P.evp.blank

/-- `cipher_context_set_iv`: a decryption context keeps the IV; the key and IV reach
the library unless the cipher is one of libsodium's. -/
def cipherContextSetIv (ctx : EncCtx P) (iv : Bytes) (enc : Bool) : EncCtx P :=
  let ctx := if enc then ctx else { ctx with iv }
  if E.method.sodium then ctx
  else
    let trueKey := if E.method = .rc4Md5 then P.md5 (E.key.take 16 ++ iv.take 16) else E.key
    { ctx with evp := P.evp.init E.method trueKey iv enc }

/-- `crypto_stream_xor_ic`: `m` exclusive-or the keystream from block `ic` on. Only
the IETF variant narrows the block number to 32 bits. -/
def cryptoStreamXorIc (m n : Bytes) (ic : Nat) : Bytes :=
  let ic := if E.method = .chacha20Ietf then ic % 2 ^ 32 else ic
  xorAt (P.keystream E.method n E.key) (64 * ic) m

/-- Below the limit of the method the block number is not narrowed. -/
theorem cryptoStreamXorIc_eq {m n : Bytes} {counter : Nat} (limit : counter < E.method.streamLimit) :
    cryptoStreamXorIc E m n (counter / 64) =
      xorAt (P.keystream E.method n E.key) (64 * (counter / 64)) m := by
  unfold cryptoStreamXorIc
  split
  · rename_i ietf
    rw [ietf] at limit
    rw [Nat.mod_eq_of_lt]
    simp only [Method.streamLimit] at limit
    omega
  · rfl

end

/-! ## The cipher as a stream transformer -/

section
variable {P : Platform} (E : Encryptor P)

/-- What a context does to the bytes after the IV, with the byte counter and the
library state as the state of the transformer. -/
def cipherStep (n : Bytes) (s : Nat × P.evp.State) (xs : Bytes) : Bytes × (Nat × P.evp.State) :=
  if E.method.sodium then
    (xorAt (P.keystream E.method n E.key) s.1 xs, (s.1 + xs.length, s.2))
  else
    ((P.evp.update s.2 xs).1, (s.1, (P.evp.update s.2 xs).2))

/-- The stream cipher of the current method under nonce `n`. -/
def cipher (lawful : P.evp.Lawful) (n : Bytes) : Transducer UInt8 UInt8 where
  State := Nat × P.evp.State
  run := cipherStep E n
  run_nil s := by
    unfold cipherStep
    split
    · rfl
    · simp [lawful.update_nil]
  run_append s xs ys := by
    unfold cipherStep
    split
    · simp [xorAt_append, Nat.add_assoc]
    · simp [lawful.update_append]

/-- The transformer state of a context that was just given its IV. -/
def cipherStart (iv : Bytes) (enc : Bool) : Nat × P.evp.State :=
  (0, (cipherContextSetIv E (encCtxInit E enc iv) iv enc).evp)

theorem length_cipherStep (lawful : P.evp.Lawful) (n : Bytes) (s : Nat × P.evp.State) (xs : Bytes) :
    (cipherStep E n s xs).1.length = xs.length := by
  unfold cipherStep
  split
  · simp
  · exact lawful.length_update _ _

theorem cipher_lengthPreserving (lawful : P.evp.Lawful) (n : Bytes) : (cipher E lawful n).LengthPreserving :=
  length_cipherStep E lawful n

/-- The ciphertext of a plain stream: the IV and one run of the cipher. -/
def ciphertext (iv plain : Bytes) : Bytes := iv ++ (cipherStep E iv (cipherStart E iv true) plain).1

theorem length_ciphertext (lawful : P.evp.Lawful) (iv plain : Bytes) :
    (ciphertext E iv plain).length = iv.length + plain.length := by
  rw [ciphertext, List.length_append, length_cipherStep E lawful]

/-- Decryption undoes encryption under the same key and IV. -/
theorem cipher_inverse (lawful : P.evp.Lawful) (iv : Bytes) :
    (cipher E lawful iv).Inverse (cipher E lawful iv) (cipherStart E iv true) (cipherStart E iv false) := by
  intro xs
  change (cipherStep E iv (cipherStart E iv false) (cipherStep E iv (cipherStart E iv true) xs).1).1 = xs
  unfold cipherStep cipherStart
  by_cases hs : E.method.sodium
  · simp [hs, xorAt_xorAt]
  · simp [hs, cipherContextSetIv, lawful.decrypt_encrypt]

end

end Shadowsocks
