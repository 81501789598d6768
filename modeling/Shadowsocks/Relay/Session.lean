import Shadowsocks.Encrypt.Rechunk
import Shadowsocks.Relay.Crypt

/-!
# The two ends of an encrypted stream

A connection uses one context for each direction, one call per buffer. `EncAt` is the
encrypting end after some plain text, `DecAt` the decrypting end of the stream of a plain
text after some of its bytes. What a call reads and writes is then stated without the
cipher: the encrypting end extends the ciphertext, the decrypting end hands out the next
bytes of the plain text.
-/

namespace Shadowsocks
set_option autoImplicit false
open Lib

section
variable {P : Platform} (E : Encryptor P)

/-- The ciphertext behind the IV. -/
def cipherBody (iv plain : Bytes) : Bytes := (cipherStep E iv (cipherStart E iv true) plain).1

theorem ciphertext_eq (iv plain : Bytes) : ciphertext E iv plain = iv ++ cipherBody E iv plain := rfl

/-- A stream of this length can be encrypted with the method. -/
def InLimit (len : Nat) : Prop := E.method.sodium = true → len < E.method.streamLimit

/-- A context that has encrypted `plain`; `none` if it has not been used. -/
def EncAt (iv : Bytes) (done : Option Bytes) (ctx : Option (EncCtx P)) : Prop :=
  match done with
  | none => ctx = some (encCtxInit E true iv)
  | some plain => ∃ c, ctx = some c ∧ c.init = true ∧ c.iv = iv ∧
      c.pos = (cipherStep E iv (cipherStart E iv true) plain).2

/-- What such a context has put out. -/
def emitted (iv : Bytes) : Option Bytes → Bytes
  | none => []
  | some plain => ciphertext E iv plain

/-- A context that has decrypted the first `n` bytes behind the IV of the stream of
`plain`. -/
def DecAt (iv plain : Bytes) (n : Nat) (ctx : Option (EncCtx P)) : Prop :=
  ∃ c, ctx = some c ∧ c.init = true ∧ c.iv = iv ∧
    c.pos = (cipherStep E iv (cipherStart E iv false) ((cipherBody E iv plain).take n)).2

end

section
variable {P : Platform} {E : Encryptor P} {iv plain : Bytes}

theorem InLimit.mono {m n : Nat} (limit : InLimit E n) (le : m ≤ n) : InLimit E m :=
  fun sodium => Nat.lt_of_le_of_lt le (limit sodium)

theorem length_cipherBody (lawful : P.evp.Lawful) (iv plain : Bytes) :
    (cipherBody E iv plain).length = plain.length := length_cipherStep E lawful _ _ _

theorem cipherStep_append (lawful : P.evp.Lawful) (n : Bytes) (s : Nat × P.evp.State) (xs ys : Bytes) :
    cipherStep E n s (xs ++ ys) = ((cipherStep E n s xs).1 ++ (cipherStep E n (cipherStep E n s xs).2 ys).1,
      (cipherStep E n (cipherStep E n s xs).2 ys).2) :=
  (cipher E lawful n).run_append s xs ys

/-- For libsodium's ciphers the position is the number of bytes. -/
theorem cipherStep_counter (sodium : E.method.sodium = true) (n : Bytes) (s : Nat × P.evp.State) (xs : Bytes) :
    (cipherStep E n s xs).2.1 = s.1 + xs.length := by
  simp only [cipherStep, sodium, if_true]

/-- Decrypting the start of the stream gives the start of the plain text. -/
theorem decrypt_take (lawful : P.evp.Lawful) (iv plain : Bytes) (n : Nat) :
    (cipherStep E iv (cipherStart E iv false) ((cipherBody E iv plain).take n)).1 = plain.take n := by
  have whole : (cipherStep E iv (cipherStart E iv false) (cipherBody E iv plain)).1 = plain :=
    cipher_inverse E lawful iv plain
  rw [← List.take_append_drop n (cipherBody E iv plain), cipherStep_append lawful] at whole
  have size : ((cipherBody E iv plain).take n).length = min n plain.length := by
    rw [List.length_take, length_cipherBody lawful]
  have front := congrArg (List.take (min n plain.length)) whole
  rw [List.take_left' (by rw [length_cipherStep E lawful, size])] at front
  rw [front, ← List.take_eq_take_min]

theorem take_add_window (l : Bytes) (k n : Nat) : l.take (k + n) = l.take k ++ window l k n := by
  rw [window, List.take_add]

/-- Decrypting a part of the stream gives the same part of the plain text. -/
theorem decrypt_window (lawful : P.evp.Lawful) (iv plain : Bytes) (k n : Nat) :
    (cipherStep E iv (cipherStep E iv (cipherStart E iv false) ((cipherBody E iv plain).take k)).2
      (window (cipherBody E iv plain) k n)).1 = window plain k n := by
  have joined := decrypt_take (E := E) lawful iv plain (k + n)
  rw [take_add_window, cipherStep_append lawful, take_add_window] at joined
  exact (List.append_inj joined (congrArg List.length (decrypt_take lawful iv plain k))).2

/-- A stream cut behind its IV. -/
theorem split_behind {front rest body : Bytes} (long : iv.length ≤ front.length) (cut : front ++ rest = iv ++ body) :
    front = iv ++ window body 0 (front.length - iv.length) ∧ rest = body.drop (front.length - iv.length) := by
  have a := congrArg (List.take front.length) cut
  have b := congrArg (List.drop front.length) cut
  rw [List.take_left' rfl, List.take_append, List.take_of_length_le long] at a
  rw [List.drop_left' rfl, List.drop_append, List.drop_eq_nil_of_le long, List.nil_append] at b
  rw [window, List.drop_zero]
  exact ⟨a, b⟩

/-! ## One call -/

/-- The encrypting end: the output extends the ciphertext. -/
theorem encryptBuf_spec (lawful : P.evp.Lawful) (ivLen : iv.length = E.ivLen) {done : Option Bytes} {more : Bytes}
    {ctx : Option (EncCtx P)} {buf : Buffer} (tmp : Buffer) (at_ : EncAt E iv done ctx) (holds : buf.Holds more)
    (small : more.length < 2 ^ 61) (limit : InLimit E ((done.getD []).length + more.length)) :
    ∃ out ctx' piece, encryptBuf E buf ctx tmp = .ok (out, ctx') ∧ out.Holds piece ∧
      emitted E iv done ++ piece = ciphertext E iv (done.getD [] ++ more) ∧
      EncAt E iv (some (done.getD [] ++ more)) ctx' ∧ out.idx = buf.idx ∧ buf.array.length ≤ out.array.length ∧
      bufSize ≤ out.array.length := by
  have len := holds.len
  have capSmall : bufSize < 2 ^ 63 := by decide
  -- the context as the data meets it, and where it stands in the stream
  have ready : ∃ c, ctx = some c ∧ (c.init = false → c.iv.length = E.ivLen) ∧ (c.ready E c.iv true).iv = iv ∧
      (c.ready E c.iv true).pos = (cipherStep E iv (cipherStart E iv true) (done.getD [])).2 ∧
      emitted E iv done ++ (if c.init then [] else c.iv) = ciphertext E iv (done.getD []) := by
    have nothing := (cipher E lawful iv).run_nil (cipherStart E iv true)
    simp only [cipher] at nothing
    cases done with
    | none =>
      refine ⟨_, at_, fun _ => ivLen, started_iv _ _ _, ?_, ?_⟩
      · rw [Option.getD_none, nothing]
        rfl
      · rw [Option.getD_none, ciphertext, nothing, List.append_nil]
        rfl
    | some plain =>
      obtain ⟨c, eq, init, civ, pos⟩ := at_
      have same : c.ready E c.iv true = c := if_pos init
      refine ⟨c, eq, fun no => ?_, ?_, ?_, ?_⟩
      · rw [init] at no
        cases no
      · rw [same, civ]
      · rw [same, pos]
        rfl
      · rw [init]
        exact List.append_nil _
  obtain ⟨c, rfl, civ, readyIv, readyPos, front⟩ := ready
  have range : InRange E (c.ready E c.iv true) buf.len bufSize := by
    refine ⟨by omega, capSmall, fun sodium => ?_⟩
    have counter : (c.ready E c.iv true).counter = 0 + (done.getD []).length := by
      have first := congrArg Prod.fst readyPos
      rw [cipherStep_counter sodium] at first
      exact first
    have := limit sodium
    omega
  obtain ⟨r, call, post⟩ := ssEncrypt_spec buf tmp c lawful holds.fits civ range
  rw [holds.bytes] at post
  obtain ⟨c', eq', init', iv', pos'⟩ := post.ctx
  rw [readyIv, readyPos] at pos'
  refine ⟨r.buf, r.ctx, _, ?_, ⟨post.fits, post.bytes⟩, ?_, ⟨c', eq', init', iv'.trans readyIv, ?_⟩, post.idx, post.kept, post.room⟩
  · simp only [encryptBuf, call, orCrash_ok, ok_bind, post.ret, ne_eq, not_true, if_false, pure_eq_ok]
  · rw [← List.append_assoc, front, readyIv, readyPos, ciphertext, ciphertext, cipherStep_append lawful,
      List.append_assoc]
  · rw [pos', cipherStep_append lawful]

/-- Successive calls of `ss_encrypt` on one context: from `start` on, `plain` went in and
`cipher` came out. -/
inductive Encrypted (E : Encryptor P) (start : Option (EncCtx P)) : Bytes → Bytes → Option (EncCtx P) → Prop where
  | nil : Encrypted E start [] [] start
  | call {plain cipher : Bytes} {ctx ctx' : Option (EncCtx P)} {buf out tmp : Buffer} :
      Encrypted E start plain cipher ctx → buf.Fits → encryptBuf E buf ctx tmp = .ok (out, ctx') →
      Encrypted E start (plain ++ buf.bytes) (cipher ++ out.bytes) ctx'

/-- Whatever the pieces were, what came out is the ciphertext of what went in. -/
theorem Encrypted.emitted (lawful : P.evp.Lawful) (ivLen : iv.length = E.ivLen) {cipher : Bytes}
    {ctx : Option (EncCtx P)} (h : Encrypted E (some (encCtxInit E true iv)) plain cipher ctx)
    (small : plain.length < 2 ^ 61) (limit : InLimit E plain.length) :
    ∃ done, EncAt E iv done ctx ∧ done.getD [] = plain ∧ cipher = emitted E iv done := by
  induction h with
  | nil => exact ⟨none, rfl, rfl, rfl⟩
  | @call plain cipher ctx ctx' buf out tmp _ fits call ih =>
    rw [List.length_append] at small limit
    obtain ⟨done, at_, same, came⟩ := ih (by omega) (limit.mono (Nat.le_add_right _ _))
    rw [← same] at limit
    obtain ⟨out', after, piece, call', holds, more, at', -⟩ :=
      encryptBuf_spec lawful ivLen tmp at_ ⟨fits, rfl⟩ (by omega) limit
    rw [call] at call'
    cases call'
    refine ⟨some (done.getD [] ++ buf.bytes), at', ?_, ?_⟩
    · rw [Option.getD_some, same]
    · rw [came, holds.bytes, more]
      rfl

/-- The decrypting end, first call: the IV and the first `n` bytes behind it. -/
theorem decryptBuf_first (lawful : P.evp.Lawful) (ivLen : iv.length = E.ivLen) {n : Nat} {buf : Buffer} (tmp : Buffer)
    {ivCache : Cache Unit} (holds : buf.Holds (iv ++ window (cipherBody E iv plain) 0 n))
    (fresh : E.method.remembersIv = true → iv ∉ ivCache.keys) (small : n < 2 ^ 61) (limit : InLimit E plain.length) :
    ∃ out ctx', decryptBuf E buf (some (encCtxInit E false [])) tmp ivCache = .ok (out, ctx') ∧
      out.Holds (window plain 0 n) ∧ DecAt E iv plain n ctx' ∧ out.idx = buf.idx ∧
      buf.array.length ≤ out.array.length ∧ bufSize ≤ out.array.length := by
  have len := holds.len
  have size := length_cipherBody (E := E) lawful iv plain
  rw [List.length_append, window, List.drop_zero, List.length_take] at len
  have capSmall : bufSize < 2 ^ 63 := by decide
  have head : window buf.array 0 E.ivLen = iv := by
    rw [← ivLen, holds.window (by simp only [List.length_append]; omega), window_append_left (by omega), window_zero_length]
  have readyIv : ((encCtxInit E false []).ready E iv false).iv = iv := started_iv _ _ _
  have readyPos : ((encCtxInit E false []).ready E iv false).pos = cipherStart E iv false := rfl
  have range : InRange E ((encCtxInit E false []).ready E iv false) (buf.len - E.ivLen) bufSize := by
    refine ⟨by omega, capSmall, fun sodium => ?_⟩
    have := limit sodium
    have zero : ((encCtxInit E false []).ready E iv false).counter = 0 := rfl
    omega
  obtain ⟨r, call, post, -⟩ := ssDecrypt_spec buf tmp (encCtxInit E false []) ivCache iv E.ivLen
    lawful holds.fits rfl (by omega) head (fun _ => fresh) range
  have data : buf.bytes.drop E.ivLen = window (cipherBody E iv plain) 0 n := by
    rw [holds.bytes, ← ivLen, List.drop_left' rfl]
  rw [data] at post
  have out := post.bytes
  have part := decrypt_window (E := E) lawful iv plain 0 n
  have nothing := (cipher E lawful iv).run_nil (cipherStart E iv false)
  simp only [cipher] at nothing
  rw [List.take_zero, nothing] at part
  rw [readyIv, readyPos, List.nil_append, part] at out
  obtain ⟨c, eq, init, civ, pos⟩ := post.ctx
  refine ⟨r.buf, r.ctx, ?_, ⟨post.fits, out⟩, ⟨c, eq, init, civ.trans readyIv, ?_⟩, post.idx, post.kept, post.room⟩
  · simp only [decryptBuf, call, orCrash_ok, ok_bind, post.ret, ne_eq, not_true, if_false, pure_eq_ok]
  · rw [pos, readyIv, readyPos, ← take_eq_window]

/-- The decrypting end, later: the next `n` bytes. -/
theorem decryptBuf_next (lawful : P.evp.Lawful) {k n : Nat} {ctx : Option (EncCtx P)} {buf : Buffer} (tmp : Buffer)
    (ivCache : Cache Unit) (at_ : DecAt E iv plain k ctx) (holds : buf.Holds (window (cipherBody E iv plain) k n))
    (small : n < 2 ^ 61) (limit : InLimit E plain.length) :
    ∃ out ctx', decryptBuf E buf ctx tmp ivCache = .ok (out, ctx') ∧
      out.Holds (window plain k n) ∧ DecAt E iv plain (k + n) ctx' ∧ out.idx = buf.idx ∧
      buf.array.length ≤ out.array.length ∧ bufSize ≤ out.array.length := by
  obtain ⟨c, rfl, init, civ, pos⟩ := at_
  have len := holds.len
  have size := length_cipherBody (E := E) lawful iv plain
  rw [window, List.length_take, List.length_drop] at len
  have capSmall : bufSize < 2 ^ 63 := by decide
  have ready : c.ready E [] false = c := if_pos init
  have range : InRange E (c.ready E [] false) (buf.len - 0) bufSize := by
    refine ⟨by omega, capSmall, fun sodium => ?_⟩
    have := limit sodium
    have counter : c.counter = 0 + ((cipherBody E iv plain).take k).length := by
      have first := congrArg Prod.fst pos
      rw [cipherStep_counter sodium] at first
      exact first
    rw [List.length_take] at counter
    rw [ready]
    omega
  obtain ⟨r, call, post, -⟩ := ssDecrypt_spec buf tmp c ivCache [] 0 lawful holds.fits (by rw [init]; rfl)
    (Nat.zero_le _) (window_nil _ _) (fun no => by rw [init] at no; cases no) range
  rw [ready, List.drop_zero, holds.bytes] at post
  have out := post.bytes
  rw [civ, pos, List.nil_append, decrypt_window lawful] at out
  obtain ⟨c', eq', init', civ', pos'⟩ := post.ctx
  refine ⟨r.buf, r.ctx, ?_, ⟨post.fits, out⟩, ⟨c', eq', init', civ'.trans civ, ?_⟩, post.idx, post.kept, post.room⟩
  · simp only [decryptBuf, call, orCrash_ok, ok_bind, post.ret, ne_eq, not_true, if_false, pure_eq_ok]
  · rw [pos', civ, pos, take_add_window, cipherStep_append lawful]

end

end Shadowsocks
