import Shadowsocks.Encrypt.CheckHash
import Shadowsocks.Encrypt.Rechunk

/-!
# The authenticated payload stream, end to end

A sender turns each payload buffer into a chunk and encrypts it; the network cuts the
ciphertext anywhere behind the IV; a receiver decrypts each segment and takes the
chunks apart. The cipher stages compose to the identity on streams (`Rechunk`), the
chunk stages to the identity on chunks (`CheckHash`), so what the receiver has released
after any segment is what the sender put into the chunks that have arrived.
-/

namespace Shadowsocks
set_option autoImplicit false
open Lib

section
variable {P : Platform} (E : Encryptor P) (capacity : Nat)

/-- `ss_gen_hash` and `ss_encrypt` on one buffer after the other. -/
def sendChunks : Nat → Option (EncCtx P) → Buffer → List Buffer → Except Fault (List (EncResult P))
  | _, _, _, [] => pure []
  | counter, ctx, tmp, b :: bs => do
    let c ← deref ctx
    let (buf, counter) ← ssGenHash E b counter c capacity
    let r ← ssEncrypt E buf ctx tmp capacity
    let rs ← sendChunks counter r.ctx r.tmp bs
    pure (r :: rs)

/-- What the receiver makes of one segment. -/
structure Received where
  decRet : Int
  checkRet : Nat
  out : Bytes

/-- `ss_decrypt` and `ss_check_hash` on one segment after the other, until one fails. -/
def receiveChunks : Option (EncCtx P) → Buffer → Cache Unit → Chunk → List Buffer → Except Fault (List Received)
  | _, _, _, _, [] => pure []
  | ctx, tmp, ivCache, chunk, b :: bs => do
    let d ← ssDecrypt E b ctx tmp ivCache capacity
    if d.ret ≠ 0 then pure [{ decRet := d.ret, checkRet := 0, out := [] }]
    else do
      let c ← deref d.ctx
      let r ← ssCheckHash E d.buf chunk c capacity
      if r.ret = 0 then pure [{ decRet := d.ret, checkRet := 0, out := [] }]
      else do
        let rs ← receiveChunks d.ctx d.tmp d.ivCache r.chunk bs
        pure ({ decRet := d.ret, checkRet := r.ret, out := r.buf.bytes } :: rs)

end

section
variable {P : Platform} {E : Encryptor P} {capacity : Nat}

/-! ## The sender -/

theorem emitIv_iv {cipher cipher' : Buffer} {ctx ctx' : EncCtx P} {n : Nat}
    (h : emitIv E cipher ctx n = .ok (cipher', ctx')) : ctx'.iv = ctx.iv := by
  unfold emitIv at h
  split at h
  · cases h; rfl
  · obtain ⟨_, _, h⟩ := bind_eq_ok.mp h
    cases h
    exact started_iv _ _ _

theorem padXor_iv {src dst src' dst' : Buffer} {srcOff dstOff n : Nat} {srcRoom dstRoom : Nat → Nat}
    {ctx ctx' : EncCtx P} (h : padXor E src dst srcOff dstOff n srcRoom dstRoom ctx capacity = .ok (src', dst', ctx')) :
    ctx'.iv = ctx.iv := by
  simp only [padXor, bind_eq_ok, pure_eq_ok, Except.ok.injEq, Prod.mk.injEq] at h
  obtain ⟨-, -, -, -, -, -, -, -, -, -, -, -, rfl⟩ := h
  rfl

theorem cipherContextUpdate_iv {src dst dst' : Buffer} {srcOff dstOff n : Nat} {ctx ctx' : EncCtx P}
    (h : cipherContextUpdate src dst srcOff dstOff n ctx = .ok (some (dst', ctx'))) : ctx'.iv = ctx.iv := by
  obtain ⟨_, _, h⟩ := bind_eq_ok.mp h
  split at h
  · obtain ⟨_, _, h⟩ := bind_eq_ok.mp h
    cases h
    rfl
  · cases h

/-- Encryption keeps the IV of the context. -/
theorem ssEncrypt_iv {b tmp : Buffer} {ctx : EncCtx P} {r : EncResult P}
    (h : ssEncrypt E b (some ctx) tmp capacity = .ok r) : ∃ c, r.ctx = some c ∧ c.iv = ctx.iv := by
  obtain ⟨tmp', -, h⟩ := bind_eq_ok.mp h
  obtain ⟨⟨cipher, started_⟩, emitted, h⟩ := bind_eq_ok.mp h
  have iv := emitIv_iv emitted
  dsimp only at h
  split at h
  · obtain ⟨⟨src, dst, after⟩, xored, h⟩ := bind_eq_ok.mp h
    obtain ⟨_, _, h⟩ := bind_eq_ok.mp h
    cases h
    exact ⟨after, rfl, (padXor_iv xored).trans iv⟩
  · obtain ⟨_ | ⟨dst, after⟩, updated, h⟩ := bind_eq_ok.mp h
    · cases h
      exact ⟨started_, rfl, iv⟩
    · obtain ⟨_, _, h⟩ := bind_eq_ok.mp h
      cases h
      exact ⟨after, rfl, (cipherContextUpdate_iv updated).trans iv⟩

/-- Sending is encrypting the chunks. -/
theorem sendChunks_encryptAll {iv : Bytes} (ivLen : iv.length = E.ivLen) (capSize : capacity < 2 ^ 63) {bs : List Buffer}
    (fits : ∀ b ∈ bs, b.Fits) (small : ∀ b ∈ bs, b.len < 2 ^ 16) (i : Nat) :
    ∃ hs, (∀ h ∈ hs, h.Fits ∧ h.len < 2 ^ 17) ∧ hs.length = bs.length ∧
      (pieces hs).flatten = Framing.wire (otaChunk P iv) i (pieces bs) ∧
      ∀ ctx tmp rs, ctx.iv = iv → encryptAll E capacity (some ctx) tmp hs = .ok rs →
        sendChunks E capacity (u32 i) (some ctx) tmp bs = .ok rs := by
  induction bs generalizing i with
  | nil => exact ⟨[], by simp, rfl, rfl, fun _ _ _ _ h => h⟩
  | cons b bs ih =>
    obtain ⟨hs, hsFits, hsLen, hsBytes, hsSend⟩ := ih (fun c hc => fits c (List.mem_cons_of_mem _ hc))
      (fun c hc => small c (List.mem_cons_of_mem _ hc)) (i + 1)
    obtain ⟨h, hashed, -, hFits, -, hBytes⟩ := ssGenHash_spec (encCtxInit E true iv) iv (i := i)
      (fits b List.mem_cons_self) (small b List.mem_cons_self) capSize (List.take_of_length_le (Nat.le_of_eq ivLen))
    have hLen := congrArg List.length hBytes
    rw [Buffer.length_bytes hFits, length_otaChunk, Buffer.length_bytes (fits b List.mem_cons_self)] at hLen
    refine ⟨h :: hs, ?_, by rw [List.length_cons, hsLen, List.length_cons], ?_, ?_⟩
    · rw [List.forall_mem_cons]
      have := small b List.mem_cons_self
      exact ⟨⟨hFits, by omega⟩, hsFits⟩
    · simp only [pieces, List.map_cons, List.flatten_cons, Framing.wire, hBytes] at hsBytes ⊢
      rw [hsBytes]
    · intro ctx tmp rs hiv encrypted
      obtain ⟨r, call, encrypted⟩ := bind_eq_ok.mp encrypted
      obtain ⟨rs', calls, eq⟩ := bind_eq_ok.mp encrypted
      cases eq
      obtain ⟨c, hc, cIv⟩ := ssEncrypt_iv call
      -- `ss_gen_hash` looks at nothing of the context but the IV
      have same : ssGenHash E b (u32 i) ctx capacity = ssGenHash E b (u32 i) (encCtxInit E true iv) capacity := by
        simp only [ssGenHash, hiv, encCtxInit, if_true]
      rw [hc] at calls
      simp only [sendChunks, deref_some, ok_bind, same, hashed, call, hc, hsSend c r.tmp rs' (cIv.trans hiv) calls,
        pure_eq_ok]

/-! ## The receiver -/

def Verdict.out : Verdict → Bytes
  | .rejected => []
  | .accepted released .. => released

/-- Chunks released so far stay released. -/
theorem frames_append {iv seen : Bytes} (more : Bytes) (ok : (otaParse P iv seen).ok = true) :
    (otaParse P iv (seen ++ more)).frames = (otaParse P iv seen).frames ++ released P iv seen (seen ++ more) := by
  have split := Framing.parse_append (F := ota P iv) 0 seen more ok
  simp only [released, otaParse, split, List.drop_left]

theorem ok_of_append {iv seen more : Bytes} (ok : (otaParse P iv (seen ++ more)).ok = true) :
    (otaParse P iv seen).ok = true := by
  by_contra no
  have := Framing.parse_append_bad (F := ota P iv) 0 seen more (Bool.eq_false_iff.mpr no)
  rw [otaParse, this] at ok
  cases ok

/-- On a good stream every segment is accepted, and after each the released data is
that of the chunks that are complete. -/
theorem otaVerdicts_good {iv seen : Bytes} {segs : List Bytes}
    (ok : (otaParse P iv (seen ++ segs.flatten)).ok = true) :
    (otaVerdicts P iv seen segs).length = segs.length ∧ (∀ v ∈ otaVerdicts P iv seen segs, v ≠ .rejected) ∧
      ∀ m, (((otaVerdicts P iv seen segs).take m).map Verdict.out).flatten =
        (released P iv seen (seen ++ (segs.take m).flatten)).flatten := by
  induction segs generalizing seen with
  | nil => exact ⟨rfl, by simp [otaVerdicts], fun m => by simp [otaVerdicts]⟩
  | cons s segs ih =>
    rw [List.flatten_cons, ← List.append_assoc] at ok
    have okHere := ok_of_append ok
    have okSeen := ok_of_append okHere
    obtain ⟨len, good, out⟩ := ih ok
    simp only [otaVerdicts, okHere, if_true]
    refine ⟨by rw [List.length_cons, len, List.length_cons], ?_, fun m => ?_⟩
    · rw [List.forall_mem_cons]
      refine ⟨?_, good⟩
      simp [otaVerdict, okHere]
    · cases m with
      | zero => simp
      | succ m =>
        simp only [List.take_succ_cons, List.map_cons, List.flatten_cons, out m, otaVerdict, okHere, if_true,
          Verdict.out]
        rw [← List.flatten_append, ← List.append_assoc]
        congr 1
        have early := frames_append s okSeen
        have late := frames_append (segs.take m).flatten okHere
        have whole := frames_append (s ++ (segs.take m).flatten) okSeen
        rw [← List.append_assoc, late, early, List.append_assoc] at whole
        exact List.append_cancel_left whole

/-- Receiving is decrypting and then checking, as long as nothing fails. -/
theorem receiveChunks_eq {iv : Bytes} {c : EncCtx P} (hiv : c.iv = iv) {segs : List Buffer}
    {ctx : Option (EncCtx P)} {tmp : Buffer} {ivCache : Cache Unit} {chunk : Chunk} {ds : List (DecResult P)}
    {rs : List CheckResult} (decrypted : decryptAll E capacity ctx tmp ivCache segs = .ok ds)
    (decOk : ∀ d ∈ ds, d.ret = 0 ∧ ∃ c, d.ctx = some c ∧ c.iv = iv)
    (checked : checkHashAll E c capacity chunk (ds.map fun d => d.buf) = .ok rs) (checkOk : ∀ r ∈ rs, r.ret ≠ 0) :
    receiveChunks E capacity ctx tmp ivCache chunk segs =
      .ok (rs.map fun r => { decRet := 0, checkRet := r.ret, out := r.buf.bytes }) := by
  induction segs generalizing ctx tmp ivCache chunk ds rs with
  | nil =>
    cases decrypted
    cases checked
    rfl
  | cons b bs ih =>
    obtain ⟨d, call, decrypted⟩ := bind_eq_ok.mp decrypted
    obtain ⟨ds', calls, eq⟩ := bind_eq_ok.mp decrypted
    cases eq
    obtain ⟨⟨ret, c', hc, cIv⟩, decOk⟩ := List.forall_mem_cons.mp decOk
    obtain ⟨r, check, checked⟩ := bind_eq_ok.mp checked
    -- `ss_check_hash` looks at nothing of the context but the IV
    have same : ssCheckHash E d.buf chunk c' capacity = ssCheckHash E d.buf chunk c capacity := by
      simp only [ssCheckHash, cIv, hiv]
    split at checked
    · rename_i bad
      cases checked
      exact absurd bad (checkOk r List.mem_cons_self)
    · rename_i good
      obtain ⟨rs', checks, eq⟩ := bind_eq_ok.mp checked
      cases eq
      have rest := ih calls decOk checks (fun r hr => checkOk r (List.mem_cons_of_mem _ hr))
      simp only [receiveChunks, call, ok_bind, ret, ne_eq, not_true, if_false, hc, deref_some, same, check, good]
      rw [hc] at rest
      simp only [rest, ok_bind, pure_eq_ok, List.map_cons]

/-! ## End to end -/

theorem length_otaWire (P : Platform) (iv : Bytes) (bs : List Bytes) (i : Nat) :
    (Framing.wire (otaChunk P iv) i bs).length = bs.flatten.length + 12 * bs.length := by
  induction bs generalizing i with
  | nil => rfl
  | cons b bs ih =>
    simp only [Framing.wire, List.length_append, length_otaChunk, ih, List.flatten_cons, List.length_cons]
    omega

/-- The first segments of a cutting are the front of the stream. -/
theorem take_flatten {α : Type} (xss : List (List α)) (m : Nat) :
    (xss.take m).flatten = xss.flatten.take ((xss.take m).map List.length).sum := by
  have whole := congrArg List.flatten (List.take_append_drop m xss)
  rw [List.flatten_append] at whole
  rw [← List.length_flatten, ← whole, List.take_left]

/-- How many bytes of the plain stream the first `m` segments bring. -/
theorem sum_take_behind {first : Nat} {rest lens : List Nat} {n : Nat} (long : n ≤ first)
    (eq : lens = (first - n) :: rest) (m : Nat) : (lens.take m).sum = ((first :: rest).take m).sum - n := by
  cases m with
  | zero => simp
  | succ m =>
    rw [eq, List.take_succ_cons, List.take_succ_cons, List.sum_cons, List.sum_cons]
    omega

/-- A call that is not rejected returns something else than 0 and puts out its buffer. -/
theorem CheckResult.of_verdict {r : CheckResult} (good : r.verdict ≠ .rejected) :
    r.ret ≠ 0 ∧ r.buf.bytes = r.verdict.out := by
  unfold CheckResult.verdict at *
  split at good
  · exact absurd rfl good
  · rename_i ret
    rw [if_neg ret]
    exact ⟨ret, rfl⟩

/-- A cutting of a stream of chunks is checked without a failure, and after each segment the output is the payload of the chunks
that have arrived. -/
theorem checkHashAll_wire {c : EncCtx P} {iv : Bytes} {payloads : List Bytes} {segs : List Buffer} (hiv : c.iv.take E.ivLen = iv)
    (lens : ∀ b ∈ payloads, b.length ≤ 65535) (fits : ∀ b ∈ segs, b.Fits) (small : ∀ b ∈ segs, b.len < 2 ^ 31)
    (capSize : 2 ≤ capacity ∧ capacity < 2 ^ 63) (cut : (pieces segs).flatten = Framing.wire (otaChunk P iv) 0 payloads) :
    ∃ rs, checkHashAll E c capacity {} segs = .ok rs ∧ rs.length = segs.length ∧ (∀ r ∈ rs, r.ret ≠ 0) ∧
      ∀ m, ((rs.map fun r => r.buf.bytes).take m).flatten =
        (payloads.take (Framing.arrived (otaChunk P iv) 0 payloads ((segs.map Buffer.len).take m).sum)).flatten := by
  obtain ⟨rs, checked, verdicts⟩ := checkHashAll_spec E c (ChunkInv.zeroed P iv) fits small capSize.1 capSize.2 hiv
  have parse (n : Nat) := Framing.parse_wire (F := ota P iv) (fun b mem => otaChunk_encodes P iv (Nat.lt_succ_of_le (lens b mem))) 0 n
  have ok : (otaParse P iv ([] ++ (pieces segs).flatten)).ok = true := by
    rw [List.nil_append, cut, ← List.take_length (l := Framing.wire (otaChunk P iv) 0 payloads)]
    exact (parse _).1
  obtain ⟨len, good, out⟩ := otaVerdicts_good ok
  rw [← verdicts] at len good out
  have accepted : ∀ r ∈ rs, r.ret ≠ 0 ∧ r.buf.bytes = r.verdict.out :=
    fun r mem => CheckResult.of_verdict (good _ (List.mem_map_of_mem mem))
  refine ⟨rs, checked, by simpa using len, fun r mem => (accepted r mem).1, fun m => ?_⟩
  have outs : rs.map (fun r => r.buf.bytes) = (rs.map CheckResult.verdict).map Verdict.out := by
    rw [List.map_map]
    exact List.map_congr_left fun r mem => (accepted r mem).2
  have segLens : (pieces segs).map List.length = segs.map Buffer.len := by
    rw [List.map_map]
    exact List.map_congr_left fun b mem => Buffer.length_bytes (fits b mem)
  rw [outs, ← List.map_take, out, List.nil_append, take_flatten, cut, List.map_take, segLens, released_nil]
  exact congrArg List.flatten (parse _).2

/-- What has been decrypted of a cutting has buffers of the sizes that came, but for the IV. -/
theorem decrypted_small {first : Buffer} {rest : List Buffer} {ds : List (DecResult P)} {n : Nat}
    (small : ∀ c ∈ first :: rest, c.len < 2 ^ 31)
    (lens : ds.map (fun d => d.buf.len) = (first.len - n) :: rest.map Buffer.len) : ∀ d ∈ ds, d.buf.len < 2 ^ 31 := by
  intro d mem
  have len : d.buf.len ∈ (first.len - n) :: rest.map Buffer.len :=
    lens ▸ List.mem_map_of_mem (f := fun d : DecResult P => d.buf.len) mem
  rcases List.mem_cons.mp len with eq | other
  · have := small first List.mem_cons_self
    omega
  · obtain ⟨c, hc, eq⟩ := List.mem_map.mp other
    rw [← eq]
    exact small c (List.mem_cons_of_mem _ hc)

/-- Payload buffers of at most 65535 bytes, sent as chunks, cut anywhere behind the IV
and received: no call fails, and after every segment the output is the payload of the
chunks that have arrived. -/
theorem receiveChunks_sendChunks (lawful : P.evp.Lawful) {bs : List Buffer} {iv drawn : Bytes}
    {encTmp decTmp : Buffer} {encCapacity decCapacity : Nat} {ivCache : Cache Unit} (ivLen : iv.length = E.ivLen)
    (fits : ∀ b ∈ bs, b.Fits) (lens : ∀ b ∈ bs, b.len ≤ 65535)
    (stream : E.method.sodium = true → (pieces bs).flatten.length + 12 * bs.length < E.method.streamLimit)
    (encSize : encCapacity < 2 ^ 63) (decSize : 2 ≤ decCapacity ∧ decCapacity < 2 ^ 63)
    (fresh : iv ∉ ivCache.keys) :
    ∃ cs, sendChunks E encCapacity 0 (some (encCtxInit E true iv)) encTmp bs = .ok cs ∧ (∀ r ∈ cs, r.ret = 0) ∧
      ∀ first rest, (∀ c ∈ first :: rest, c.Fits ∧ c.len < 2 ^ 31) → E.ivLen ≤ first.len →
        (pieces (first :: rest)).flatten = (cs.map fun r => r.buf.bytes).flatten →
        ∃ rs, receiveChunks E decCapacity (some (encCtxInit E false drawn)) decTmp ivCache {} (first :: rest) = .ok rs ∧
          rs.length = (first :: rest).length ∧ (∀ r ∈ rs, r.decRet = 0 ∧ r.checkRet ≠ 0) ∧
          (∀ m, ((rs.take m).map Received.out).flatten =
            ((pieces bs).take (Framing.arrived (otaChunk P iv) 0 (pieces bs)
              ((((first :: rest).take m).map Buffer.len).sum - E.ivLen))).flatten) ∧
          (rs.map Received.out).flatten = (pieces bs).flatten := by
  obtain ⟨hs, hsFits, hsLen, hsBytes, send⟩ := sendChunks_encryptAll ivLen encSize fits
    (fun b hb => by have := lens b hb; omega) 0
  have wireLen := length_otaWire P iv (pieces bs) 0
  rw [List.length_map] at wireLen
  obtain ⟨cs, encrypted, encOk, encBytes⟩ := encryptAll_ciphertext (E := E) encTmp lawful ivLen
    ⟨fun h hh => (hsFits h hh).1, fun h hh => by have := (hsFits h hh).2; omega, encSize,
      fun sodium => by rw [hsBytes, wireLen, Nat.zero_add]; exact stream sodium⟩
  refine ⟨cs, send _ encTmp cs rfl encrypted, fun r hr => (encOk r hr).1, fun first rest cutFits long cut => ?_⟩
  have whole := cut_ciphertext lawful ivLen (fun c hc => (cutFits c hc).1) long (cut.trans encBytes)
  rw [hsBytes] at whole
  obtain ⟨ds, decrypted, decOk, decLens, decBytes⟩ := decryptAll_of_cut drawn decTmp lawful ivLen
    (fun c hc => (cutFits c hc).1) (fun c hc => by have := (cutFits c hc).2; omega) long whole
    (fun _ => fresh) decSize.2 (fun sodium => by rw [wireLen]; exact stream sodium)
  have decSmall := decrypted_small (fun c hc => (cutFits c hc).2) decLens
  -- the decrypted segments are a cutting of the sender's chunks
  have segs : (pieces (ds.map fun d => d.buf)).flatten = Framing.wire (otaChunk P iv) 0 (pieces bs) := by
    rw [pieces, List.map_map]
    exact decBytes
  have short : ∀ b ∈ pieces bs, b.length ≤ 65535 :=
    List.forall_mem_map.mpr fun b hb => by rw [Buffer.length_bytes (fits b hb)]; exact lens b hb
  obtain ⟨rs, checked, count, good, prefixes⟩ := checkHashAll_wire (E := E) (c := encCtxInit E true iv)
    (List.take_of_length_le (Nat.le_of_eq ivLen)) short
    (List.forall_mem_map.mpr fun d hd => (decOk d hd).2.1) (List.forall_mem_map.mpr decSmall) decSize segs
  have received := receiveChunks_eq (c := encCtxInit E true iv) rfl decrypted
    (fun d hd => ⟨(decOk d hd).1, (decOk d hd).2.2⟩) checked good
  have size : rs.length = (first :: rest).length := by
    have dsLen := congrArg List.length decLens
    rw [List.length_map, List.length_cons, List.length_map] at dsLen
    rw [count, List.length_map, dsLen, List.length_cons]
  have bufLens : (ds.map fun d => d.buf).map Buffer.len = (first.len - E.ivLen) :: rest.map Buffer.len := by
    rw [List.map_map]
    exact decLens
  have released (m : Nat) : ((rs.map fun r => r.buf.bytes).take m).flatten =
      ((pieces bs).take (Framing.arrived (otaChunk P iv) 0 (pieces bs)
        ((((first :: rest).take m).map Buffer.len).sum - E.ivLen))).flatten := by
    rw [prefixes m, bufLens, sum_take_behind long rfl m, ← List.map_cons, ← List.map_take (f := Buffer.len)]
    rfl
  refine ⟨_, received, by rw [List.length_map, size], ?_, fun m => ?_, ?_⟩
  · intro r hr
    obtain ⟨c, hc, rfl⟩ := List.mem_map.mp hr
    exact ⟨rfl, good c hc⟩
  · rw [← released m, ← List.map_take, List.map_map, List.map_take]
    rfl
  · have all := released (rs.length + (first :: rest).length)
    have total : ((first :: rest).map Buffer.len).sum =
        E.ivLen + (Framing.wire (otaChunk P iv) 0 (pieces bs)).length := by
      have lens : (pieces (first :: rest)).map List.length = (first :: rest).map Buffer.len := by
        rw [List.map_map]
        exact List.map_congr_left fun c hc => Buffer.length_bytes (cutFits c hc).1
      have size := congrArg List.length whole
      rw [length_ciphertext E lawful, List.length_flatten, lens] at size
      omega
    rw [List.take_of_length_le (by rw [List.length_map]; omega), List.take_of_length_le (Nat.le_add_left _ _), total,
      Framing.arrived_all (by omega), List.take_length] at all
    rw [List.map_map]
    exact all

end

/-- Two payload buffers under RC4. -/
theorem receiveChunks_sendChunks_rc4 :
    let E : Encryptor rc4Platform := { method := .rc4, key := be32 7 ++ be32 1, encTable := id, decTable := id }
    ∃ cs, sendChunks E 2048 0 (some (encCtxInit E true [])) {} [⟨0, 3, [1, 2, 3, 0]⟩, ⟨0, 2, [4, 5]⟩] = .ok cs ∧
      (∀ r ∈ cs, r.ret = 0) ∧
      ∀ first rest, (∀ c ∈ first :: rest, c.Fits ∧ c.len < 2 ^ 31) → E.ivLen ≤ first.len →
        (pieces (first :: rest)).flatten = (cs.map fun r => r.buf.bytes).flatten →
        ∃ rs, receiveChunks E 2048 (some (encCtxInit E false [])) {} (cacheCreate Unit 1024) {} (first :: rest) = .ok rs ∧
          rs.length = (first :: rest).length ∧ (∀ r ∈ rs, r.decRet = 0 ∧ r.checkRet ≠ 0) ∧
          (∀ m, ((rs.take m).map Received.out).flatten =
            ([[1, 2, 3], [4, 5]].take (Framing.arrived (otaChunk rc4Platform []) 0 [[1, 2, 3], [4, 5]]
              ((((first :: rest).take m).map Buffer.len).sum - E.ivLen))).flatten) ∧
          (rs.map Received.out).flatten = [1, 2, 3, 4, 5] := by
  intro E
  exact receiveChunks_sendChunks rc4_lawful rfl (by decide) (by decide) (by decide) (by decide) (by decide)
    (by simp [Cache.keys, cacheCreate])

end Shadowsocks
