import Shadowsocks.Encrypt.Openssl
import Shadowsocks.Encrypt.Stream

/-!
# Stream encryption under re-chunking

A context is used for a whole connection: `encryptAll` and `decryptAll` are the
sequences of calls made on it, with the scratch buffer and the cache of IVs carried
along. Each sequence is one run of the stream cipher over the concatenated data
(`encryptAll_spec`, `decryptAll_spec`), so any cutting of the ciphertext whose first
piece holds the IV decrypts to the plaintext.
-/

namespace Shadowsocks
set_option autoImplicit false
open Lib

section
variable {P : Platform} (E : Encryptor P) (capacity : Nat)

/-- `ss_encrypt` on one buffer after the other. -/
def encryptAll : Option (EncCtx P) → Buffer → List Buffer → Except Fault (List (EncResult P))
  | _, _, [] => pure []
  | ctx, tmp, b :: bs => do
    let r ← ssEncrypt E b ctx tmp capacity
    let rs ← encryptAll r.ctx r.tmp bs
    pure (r :: rs)

/-- `ss_decrypt` on one buffer after the other. -/
def decryptAll : Option (EncCtx P) → Buffer → Cache Unit → List Buffer → Except Fault (List (DecResult P))
  | _, _, _, [] => pure []
  | ctx, tmp, ivCache, b :: bs => do
    let r ← ssDecrypt E b ctx tmp ivCache capacity
    let rs ← decryptAll r.ctx r.tmp r.ivCache bs
    pure (r :: rs)

end

/-- The bytes held by a list of buffers, piece by piece. -/
abbrev pieces (bs : List Buffer) : List Bytes := bs.map Buffer.bytes

section
variable {P : Platform} {E : Encryptor P} {capacity : Nat}

/-- Buffers the functions can be called on one after the other, from a counter on. -/
structure Chunks (E : Encryptor P) (counter capacity : Nat) (bs : List Buffer) : Prop where
  fits : ∀ b ∈ bs, b.Fits
  len : ∀ b ∈ bs, b.len < 2 ^ 61
  capacity : capacity < 2 ^ 63
  stream : E.method.sodium = true → counter + (pieces bs).flatten.length < E.method.streamLimit

theorem Chunks.tail {counter : Nat} {b : Buffer} {bs : List Buffer} (h : Chunks E counter capacity (b :: bs)) :
    Chunks E (counter + b.len) capacity bs where
  fits c hc := h.fits c (List.mem_cons_of_mem _ hc)
  len c hc := h.len c (List.mem_cons_of_mem _ hc)
  capacity := h.capacity
  stream sodium := by
    have := h.stream sodium
    simp only [pieces, List.map_cons, List.flatten_cons, List.length_append,
      Buffer.length_bytes (h.fits b List.mem_cons_self)] at this ⊢
    omega

theorem Chunks.head {ctx : EncCtx P} {b : Buffer} (bs : List Buffer) (h : Chunks E ctx.counter capacity (b :: bs)) :
    InRange E ctx b.len capacity where
  len := h.len b List.mem_cons_self
  capacity := h.capacity
  stream sodium := by
    have := h.stream sodium
    simp only [List.map_cons, List.flatten_cons, List.length_append,
      Buffer.length_bytes (h.fits b List.mem_cons_self)] at this
    omega

/-- For the library's ciphers the counter is not used. -/
theorem Chunks.of_pos {counter counter' : Nat} {bs : List Buffer} (h : Chunks E counter capacity bs)
    (same : E.method.sodium = true → counter' = counter) : Chunks E counter' capacity bs where
  fits := h.fits
  len := h.len
  capacity := h.capacity
  stream sodium := by rw [same sodium]; exact h.stream sodium

/-- What a call leaves behind is what the next one starts from. -/
theorem CallPost.next {old : Buffer} {ready c : EncCtx P} {front data : Bytes} {r : EncResult P} {bs : List Buffer}
    (post : CallPost E old ready front data capacity r) (some_ : r.ctx = some c)
    (chunks : Chunks E (ready.counter + data.length) capacity bs) : Chunks E c.counter capacity bs := by
  obtain ⟨c', eq, -, -, pos⟩ := post.ctx
  rw [some_] at eq
  cases eq
  apply chunks.of_pos
  intro sodium
  have := congrArg Prod.fst pos
  simpa only [EncCtx.pos, cipherStep, sodium, if_true] using this

/-- The calls made on a started context are one run of the cipher. -/
theorem encryptAll_started (lawful : P.evp.Lawful) {bs : List Buffer} (ctx : EncCtx P) (tmp : Buffer)
    (init : ctx.init = true) (chunks : Chunks E ctx.counter capacity bs) :
    ∃ rs, encryptAll E capacity (some ctx) tmp bs = .ok rs ∧ (∀ r ∈ rs, r.ret = 0 ∧ r.buf.Fits) ∧
      rs.map (fun r => r.buf.bytes) = ((cipher E lawful ctx.iv).runs ctx.pos (pieces bs)).1 := by
  induction bs generalizing ctx tmp with
  | nil => exact ⟨[], rfl, by simp, rfl⟩
  | cons b bs ih =>
    have ready : ctx.ready E ctx.iv true = ctx := if_pos init
    have fits := chunks.fits b List.mem_cons_self
    obtain ⟨r, call, post⟩ := ssEncrypt_spec b tmp ctx lawful fits (by simp [init])
      (ready.symm ▸ chunks.head bs)
    rw [ready, init] at post
    obtain ⟨c, hc, cInit, cIv, cPos⟩ := post.ctx
    obtain ⟨rs, calls, all, bytes⟩ := ih c r.tmp cInit
      (post.next hc (by rw [Buffer.length_bytes fits]; exact chunks.tail))
    refine ⟨r :: rs, ?_, ?_, ?_⟩
    · simp only [encryptAll, call, ok_bind, hc, calls, pure_eq_ok]
    · simp only [List.forall_mem_cons]
      exact ⟨⟨post.ret, post.fits⟩, all⟩
    · rw [cIv, cPos] at bytes
      simp only [List.map_cons, bytes, post.bytes]
      rfl

theorem decryptAll_started (lawful : P.evp.Lawful) {bs : List Buffer} (ctx : EncCtx P) (tmp : Buffer)
    (ivCache : Cache Unit) (init : ctx.init = true) (chunks : Chunks E ctx.counter capacity bs) :
    ∃ rs, decryptAll E capacity (some ctx) tmp ivCache bs = .ok rs ∧
      (∀ r ∈ rs, r.ret = 0 ∧ r.buf.Fits ∧ ∃ c, r.ctx = some c ∧ c.iv = ctx.iv) ∧
      rs.map (fun r => r.buf.bytes) = ((cipher E lawful ctx.iv).runs ctx.pos (pieces bs)).1 := by
  induction bs generalizing ctx tmp ivCache with
  | nil => exact ⟨[], rfl, by simp, rfl⟩
  | cons b bs ih =>
    have ready : ctx.ready E [] false = ctx := if_pos init
    have fits := chunks.fits b List.mem_cons_self
    obtain ⟨r, call, post, -⟩ := ssDecrypt_spec (E := E) b tmp ctx ivCache [] 0 lawful fits (by rw [init]; rfl) (Nat.zero_le _) (window_nil _ _) (by simp [init])
      (ready.symm ▸ chunks.head bs)
    rw [ready, List.drop_zero] at post
    obtain ⟨c, hc, cInit, cIv, cPos⟩ := post.ctx
    obtain ⟨rs, calls, all, bytes⟩ := ih c r.tmp r.ivCache cInit
      (post.next hc (by rw [Buffer.length_bytes fits]; exact chunks.tail))
    refine ⟨r :: rs, ?_, ?_, ?_⟩
    · simp only [decryptAll, call, ok_bind, hc, calls, pure_eq_ok]
    · simp only [List.forall_mem_cons]
      exact ⟨⟨post.ret, post.fits, c, hc, cIv⟩, cIv ▸ all⟩
    · rw [cIv, cPos] at bytes
      simp only [List.map_cons, bytes, post.bytes]
      rfl

/-- A whole encryption: the IV and then one run of the cipher from its start. -/
theorem encryptAll_spec (tmp : Buffer) (lawful : P.evp.Lawful) {bs : List Buffer} {iv : Bytes} (ivLen : iv.length = E.ivLen) (chunks : Chunks E 0 capacity bs) :
    ∃ rs, encryptAll E capacity (some (encCtxInit E true iv)) tmp bs = .ok rs ∧
      (∀ r ∈ rs, r.ret = 0 ∧ r.buf.Fits) ∧
      rs.map (fun r => r.buf.bytes) =
        (((cipher E lawful iv).runs (cipherStart E iv true) (pieces bs)).1).modifyHead (iv ++ ·) := by
  cases bs with
  | nil => exact ⟨[], rfl, by simp, rfl⟩
  | cons b bs =>
    have ready : (encCtxInit E true iv).ready E (encCtxInit E true iv).iv true = started E (encCtxInit E true iv) iv true := rfl
    have readyIv : (started E (encCtxInit E true iv) iv true).iv = iv := started_iv _ _ _
    have fits := chunks.fits b List.mem_cons_self
    obtain ⟨r, call, post⟩ := ssEncrypt_spec b tmp (encCtxInit E true iv) lawful fits
      (fun _ => ivLen) (by rw [ready]; exact Chunks.head bs (by rw [started_counter]; exact chunks))
    rw [ready] at post
    obtain ⟨c, hc, cInit, cIv, cPos⟩ := post.ctx
    obtain ⟨rs, calls, all, bytes⟩ := encryptAll_started lawful c r.tmp cInit
      (post.next hc (by rw [Buffer.length_bytes fits]; exact chunks.tail))
    refine ⟨r :: rs, ?_, ?_, ?_⟩
    · simp only [encryptAll, call, ok_bind, hc, calls, pure_eq_ok]
    · simp only [List.forall_mem_cons]
      exact ⟨⟨post.ret, post.fits⟩, all⟩
    · rw [cIv, cPos, readyIv] at bytes
      simp only [List.map_cons, bytes, post.bytes, readyIv]
      rfl

/-- A whole decryption: the first piece gives the IV, the rest is one run of the
cipher from its start. -/
theorem decryptAll_spec (drawn : Bytes) (tmp : Buffer) (lawful : P.evp.Lawful) {first : Buffer} {rest : List Buffer}
    {iv : Bytes} {ivCache : Cache Unit} (fits : first.Fits) (small : first.len < 2 ^ 61)
    (long : E.ivLen ≤ first.len) (hiv : window first.array 0 E.ivLen = iv)
    (fresh : E.method.remembersIv = true → iv ∉ ivCache.keys)
    (later : Chunks E (first.len - E.ivLen) capacity rest) :
    ∃ rs, decryptAll E capacity (some (encCtxInit E false drawn)) tmp ivCache (first :: rest) = .ok rs ∧
      (∀ r ∈ rs, r.ret = 0 ∧ r.buf.Fits ∧ ∃ c, r.ctx = some c ∧ c.iv = iv) ∧
      rs.map (fun r => r.buf.bytes) = ((cipher E lawful iv).runs (cipherStart E iv false)
        (first.bytes.drop E.ivLen :: pieces rest)).1 := by
  have ready : (encCtxInit E false drawn).ready E iv false = started E (encCtxInit E false iv) iv false := rfl
  have readyIv : (started E (encCtxInit E false iv) iv false).iv = iv := started_iv _ _ _
  have range : InRange E (started E (encCtxInit E false iv) iv false) (first.len - E.ivLen) capacity :=
    ⟨by omega, later.capacity, fun sodium => by
      have := later.stream sodium
      rw [started_counter]
      omega⟩
  obtain ⟨r, call, post, -⟩ := ssDecrypt_spec first tmp (encCtxInit E false drawn) ivCache iv E.ivLen lawful
    fits rfl long hiv (fun _ => fresh)
    (ready ▸ range)
  rw [ready] at post
  have dataLen : 0 + (first.bytes.drop E.ivLen).length = first.len - E.ivLen := by
    rw [List.length_drop, Buffer.length_bytes fits, Nat.zero_add]
  obtain ⟨c, hc, cInit, cIv, cPos⟩ := post.ctx
  obtain ⟨rs, calls, all, bytes⟩ := decryptAll_started lawful c r.tmp r.ivCache cInit
    (post.next hc (by rw [started_counter, dataLen]; exact later))
  refine ⟨r :: rs, ?_, ?_, ?_⟩
  · simp only [decryptAll, call, ok_bind, hc, calls, pure_eq_ok]
  · simp only [List.forall_mem_cons]
    rw [cIv, readyIv] at all
    exact ⟨⟨post.ret, post.fits, c, hc, cIv.trans readyIv⟩, all⟩
  · rw [cIv, cPos, readyIv] at bytes
    simp only [List.map_cons, bytes, post.bytes, readyIv]
    rfl

/-! ## Any cutting of the ciphertext -/

/-- The first piece of a cutting that is long enough holds the IV, and what is left
of the pieces is a cutting of what follows it. -/
theorem cut_behind {first : Buffer} {rest : List Buffer} {iv body : Bytes} (fits : first.Fits)
    (cut : (pieces (first :: rest)).flatten = iv ++ body) (long : iv.length ≤ first.len) :
    window first.array 0 iv.length = iv ∧ (first.bytes.drop iv.length :: pieces rest).flatten = body := by
  have whole : first.bytes ++ (pieces rest).flatten = iv ++ body := cut
  have enough : iv.length ≤ first.bytes.length := by rw [Buffer.length_bytes fits]; exact long
  constructor
  · have front := congrArg (List.take iv.length) whole
    rw [List.take_append_of_le_length enough, List.take_left' rfl, Buffer.bytes, take_eq_window,
      window_window _ (by omega)] at front
    exact front
  · have back := congrArg (List.drop iv.length) whole
    rwa [List.drop_append_of_le_length enough, List.drop_left' rfl] at back

/-- What the calls on a fresh encryption context put out, if there are any. -/
theorem encryptAll_ciphertext (tmp : Buffer) (lawful : P.evp.Lawful) {bs : List Buffer} {iv : Bytes} (ivLen : iv.length = E.ivLen) (chunks : Chunks E 0 capacity bs) :
    ∃ rs, encryptAll E capacity (some (encCtxInit E true iv)) tmp bs = .ok rs ∧
      (∀ r ∈ rs, r.ret = 0 ∧ r.buf.Fits) ∧
      (rs.map fun r => r.buf.bytes).flatten = if bs = [] then [] else ciphertext E iv (pieces bs).flatten := by
  obtain ⟨rs, calls, all, bytes⟩ := encryptAll_spec tmp lawful ivLen chunks
  refine ⟨rs, calls, all, ?_⟩
  rw [bytes]
  cases bs with
  | nil => rfl
  | cons b bs =>
    have run := (cipher E lawful iv).flatten_runs (cipherStart E iv true) (pieces (b :: bs))
    simp only [List.map_cons, Transducer.runs, List.modifyHead_cons, List.flatten_cons, List.append_assoc,
      reduceCtorEq, if_false, ciphertext] at run ⊢
    exact congrArg (iv ++ ·) run

/-- Any cutting of a ciphertext whose first piece holds the IV decrypts to the plain
stream, piece for piece. -/
theorem decryptAll_of_cut (drawn : Bytes) (tmp : Buffer) (lawful : P.evp.Lawful) {first : Buffer}
    {rest : List Buffer} {iv plain : Bytes} {ivCache : Cache Unit} (ivLen : iv.length = E.ivLen) (fits : ∀ c ∈ first :: rest, c.Fits)
    (small : ∀ c ∈ first :: rest, c.len < 2 ^ 61) (long : E.ivLen ≤ first.len)
    (cut : (pieces (first :: rest)).flatten = ciphertext E iv plain)
    (fresh : E.method.remembersIv = true → iv ∉ ivCache.keys) (capSize : capacity < 2 ^ 63)
    (stream : E.method.sodium = true → plain.length < E.method.streamLimit) :
    ∃ ds, decryptAll E capacity (some (encCtxInit E false drawn)) tmp ivCache (first :: rest) = .ok ds ∧
      (∀ r ∈ ds, r.ret = 0 ∧ r.buf.Fits ∧ ∃ c, r.ctx = some c ∧ c.iv = iv) ∧
      ds.map (fun r => r.buf.len) = (first.len - E.ivLen) :: rest.map Buffer.len ∧
      (ds.map fun r => r.buf.bytes).flatten = plain := by
  have firstFits := fits first List.mem_cons_self
  obtain ⟨hiv, behind⟩ := cut_behind firstFits cut (by omega)
  rw [ivLen] at hiv behind
  have size := congrArg List.length behind
  rw [List.flatten_cons, List.length_append, List.length_drop, Buffer.length_bytes firstFits,
    length_cipherStep E lawful] at size
  obtain ⟨ds, decrypted, decOk, decBytes⟩ := decryptAll_spec drawn tmp lawful firstFits (small first List.mem_cons_self) long hiv fresh
    ⟨fun c hc => fits c (List.mem_cons_of_mem _ hc), fun c hc => small c (List.mem_cons_of_mem _ hc), capSize,
      fun sodium => by rw [size]; exact stream sodium⟩
  refine ⟨ds, decrypted, decOk, ?_, ?_⟩
  · have lengths := (cipher_lengthPreserving E lawful iv).runs (cipherStart E iv false)
      (first.bytes.drop E.ivLen :: pieces rest)
    rw [← decBytes, List.map_map, List.map_cons, List.length_drop, Buffer.length_bytes firstFits, List.map_map]
      at lengths
    have outLens : ds.map (fun r => r.buf.len) = ds.map (List.length ∘ fun r => r.buf.bytes) :=
      List.map_congr_left fun r hr => (Buffer.length_bytes (decOk r hr).2.1).symm
    have inLens : rest.map Buffer.len = rest.map (List.length ∘ Buffer.bytes) :=
      List.map_congr_left fun c hc => (Buffer.length_bytes (fits c (List.mem_cons_of_mem _ hc))).symm
    rw [outLens, inLens, lengths]
  · rw [decBytes]
    have cut : (first.bytes.drop E.ivLen :: pieces rest).flatten =
        ((cipher E lawful iv).runs (cipherStart E iv true) [plain]).1.flatten :=
      behind.trans (List.append_nil _).symm
    exact ((cipher_inverse E lawful iv).flatten_runs cut).trans List.flatten_singleton

/-- The whole of a list of buffers is at least as long as each of them. -/
theorem len_le_total {bs : List Buffer} (fits : ∀ b ∈ bs, b.Fits) {b : Buffer} (hb : b ∈ bs) :
    b.len ≤ (pieces bs).flatten.length := by
  have part : b.bytes.length ≤ (pieces bs).flatten.length :=
    (List.sublist_flatten_of_mem (List.mem_map_of_mem hb)).length_le
  rwa [Buffer.length_bytes (fits b hb)] at part

/-- A cutting of what an encryption context put out is a cutting of a ciphertext; without
any plaintext buffer there is none, and then the IV has no bytes. -/
theorem cut_ciphertext (lawful : P.evp.Lawful) {first : Buffer} {rest plains : List Buffer} {iv : Bytes}
    (ivLen : iv.length = E.ivLen) (fits : ∀ c ∈ first :: rest, c.Fits) (long : E.ivLen ≤ first.len)
    (cut : (pieces (first :: rest)).flatten =
      if plains = [] then [] else ciphertext E iv (pieces plains).flatten) :
    (pieces (first :: rest)).flatten = ciphertext E iv (pieces plains).flatten := by
  by_cases none_ : plains = []
  · have empty := len_le_total fits List.mem_cons_self
    rw [cut, if_pos none_, List.length_nil] at empty
    have noIv : iv = [] := List.eq_nil_of_length_eq_zero (by omega)
    rw [cut, if_pos none_, ciphertext, noIv, none_]
    exact (congrArg Prod.fst ((cipher E lawful []).run_nil _)).symm
  · rw [cut, if_neg none_]

/-- Encrypt buffers on one context, cut the ciphertext anywhere so that the first
piece holds the IV, and decrypt the pieces on a fresh context: every call succeeds and
stays inside its buffers, every output is as long as its piece less the IV, and the
outputs together are the plaintext. -/
theorem decryptAll_encryptAll (lawful : P.evp.Lawful) {plains : List Buffer} {iv drawn : Bytes}
    {encTmp decTmp : Buffer} {encCapacity decCapacity : Nat} {ivCache : Cache Unit} (ivLen : iv.length = E.ivLen)
    (fits : ∀ b ∈ plains, b.Fits) (total : (pieces plains).flatten.length < 2 ^ 38)
    (encSize : encCapacity < 2 ^ 63) (decSize : decCapacity < 2 ^ 63) (fresh : iv ∉ ivCache.keys) :
    ∃ cs, encryptAll E encCapacity (some (encCtxInit E true iv)) encTmp plains = .ok cs ∧ (∀ r ∈ cs, r.ret = 0) ∧
      ∀ first rest, (∀ c ∈ first :: rest, c.Fits) → E.ivLen ≤ first.len →
        (pieces (first :: rest)).flatten = (cs.map fun r => r.buf.bytes).flatten →
        ∃ ds, decryptAll E decCapacity (some (encCtxInit E false drawn)) decTmp ivCache (first :: rest) = .ok ds ∧
          (∀ r ∈ ds, r.ret = 0) ∧
          ds.map (fun r => r.buf.len) = (first.len - E.ivLen) :: rest.map Buffer.len ∧
          (ds.map fun r => r.buf.bytes).flatten = (pieces plains).flatten := by
  have limit : 2 ^ 38 ≤ E.method.streamLimit := by cases E.method <;> decide
  have ivShort := E.ivLen_le
  obtain ⟨cs, encrypted, encOk, encBytes⟩ := encryptAll_ciphertext (E := E) encTmp lawful ivLen
    ⟨fits, fun b hb => by have := len_le_total fits hb; omega, encSize, fun _ => by omega⟩
  refine ⟨cs, encrypted, fun r hr => (encOk r hr).1, fun first rest cutFits long cut => ?_⟩
  rw [encBytes] at cut
  have whole := cut_ciphertext lawful ivLen cutFits long cut
  have size := congrArg List.length whole
  rw [length_ciphertext E lawful] at size
  obtain ⟨ds, decrypted, decOk, lens, out⟩ := decryptAll_of_cut drawn decTmp lawful ivLen
    cutFits (fun c hc => by have := len_le_total cutFits hc; omega) long whole (fun _ => fresh) decSize
    (fun _ => by omega)
  exact ⟨ds, decrypted, fun r hr => (decOk r hr).1, lens, out⟩

end

/-- Two buffers under RC4, with any cutting of their ciphertext. -/
theorem decryptAll_encryptAll_rc4 :
    let E : Encryptor rc4Platform :=
      { method := .rc4, key := be32 7 ++ be32 1 ++ be32 3 ++ be32 2, encTable := id, decTable := id }
    ∃ cs, encryptAll E 2048 (some (encCtxInit E true [])) {} [⟨0, 3, [1, 2, 3, 0]⟩, ⟨0, 2, [4, 5]⟩] = .ok cs ∧
      (∀ r ∈ cs, r.ret = 0) ∧
      ∀ first rest, (∀ c ∈ first :: rest, c.Fits) → E.ivLen ≤ first.len →
        (pieces (first :: rest)).flatten = (cs.map fun r => r.buf.bytes).flatten →
        ∃ ds, decryptAll E 2048 (some (encCtxInit E false [])) {} (cacheCreate Unit 1024) (first :: rest) = .ok ds ∧
          (∀ r ∈ ds, r.ret = 0) ∧
          ds.map (fun r => r.buf.len) = (first.len - E.ivLen) :: rest.map Buffer.len ∧
          (ds.map fun r => r.buf.bytes).flatten = [1, 2, 3, 4, 5] := by
  intro E
  exact decryptAll_encryptAll rc4_lawful rfl (by decide) (by decide) (by decide) (by decide)
    (by simp [Cache.keys, cacheCreate])

end Shadowsocks
