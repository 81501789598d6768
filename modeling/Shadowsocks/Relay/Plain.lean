import Shadowsocks.Encrypt.Pipeline
import Shadowsocks.Relay.Header
import Shadowsocks.Relay.Session

/-!
# The plain text of a client's stream

A client sends a header and then a body. An authenticated header is followed by its
tag, and the body behind it is a stream of chunks, otherwise the body is the payload.
`payloadOf` is what the server forwards of a body, and `checkHash_spec` says that it can
be found segment by segment.
-/

namespace Shadowsocks
set_option autoImplicit false
open Lib

section
variable {P : Platform} (E : Encryptor P)

/-- The header as it is sent: `flag` is `ONETIMEAUTH_FLAG`, `auth` says that a tag
follows. -/
def head (iv : Bytes) (h : Header) (flag auth : Bool) : Bytes :=
  h.encode flag ++ if auth then shortHmac (P := P) (iv ++ E.key) (h.encode flag) else []

theorem head_unauthenticated (iv : Bytes) (h : Header) (flag : Bool) : head E iv h flag false = h.encode flag :=
  List.append_nil _

theorem length_head (iv : Bytes) {h : Header} (valid : h.Valid) (flag auth : Bool) :
    (head E iv h flag auth).length = 3 + h.addr.body.length + if auth then 10 else 0 := by
  rw [head, List.length_append, Header.length_encode valid]
  cases auth
  · rfl
  · rw [if_pos rfl, if_pos rfl, length_shortHmac]

theorem length_head_le (iv : Bytes) {h : Header} (valid : h.Valid) (flag auth : Bool) :
    (head E iv h flag auth).length ≤ 269 := by
  have body := valid.1.length_body
  rw [length_head E iv valid]
  cases auth
  · simp only [Bool.false_eq_true, if_false]
    omega
  · simp only [if_true]
    omega

/-- The payload in a body. -/
def payloadOf (P : Platform) (iv : Bytes) (auth : Bool) (body : Bytes) : Bytes :=
  if auth then (otaParse P iv body).frames.flatten else body

/-- No complete chunk of the body is bad. -/
def BodyOk (P : Platform) (iv : Bytes) (auth : Bool) (body : Bytes) : Prop :=
  auth = true → (otaParse P iv body).ok = true

/-- The state of the receiver of a body after the bytes `seen`. -/
def Checking (P : Platform) (iv : Bytes) (auth : Bool) (seen : Bytes) (chunk : Chunk) : Prop :=
  auth = true → ChunkInv P iv seen chunk chunk.idx

end

section
variable {P : Platform} {E : Encryptor P} {iv : Bytes} {auth : Bool}

theorem BodyOk.of_append {body more : Bytes} (ok : BodyOk P iv auth (body ++ more)) : BodyOk P iv auth body :=
  fun on => ok_of_append (ok on)

theorem Checking.zeroed (P : Platform) (iv : Bytes) (auth : Bool) : Checking P iv auth [] {} :=
  fun _ => ChunkInv.zeroed P iv

theorem payloadOf_nil (P : Platform) (iv : Bytes) (auth : Bool) : payloadOf P iv auth [] = [] := by
  cases auth
  · rfl
  · rw [payloadOf, otaParse_nil]
    rfl

/-- The payload is not longer than the body. -/
theorem length_payloadOf (iv : Bytes) (auth : Bool) (body : Bytes) : (payloadOf P iv auth body).length ≤ body.length := by
  cases auth with
  | false => exact Nat.le_refl _
  | true =>
    suffices ∀ i, ((ota P iv).parse i body).frames.flatten.length ≤ body.length from this 0
    intro i
    induction i, body using Framing.parse_induction (F := ota P iv) with
    | incomplete i s h => rw [Framing.parse_none h]; exact Nat.zero_le _
    | bad i s n h => rw [Framing.parse_bad h]; exact Nat.zero_le _
    | good i s n c h ih =>
      obtain ⟨-, long, rfl, data⟩ := otaNext_eq_some h
      split at data
      · cases data
        rw [Framing.parse_good h, List.flatten_cons, List.length_append]
        rw [List.length_drop] at ih
        have size : otaSize s = 12 + ofBe16 s := rfl
        rw [length_window (by omega)]
        omega
      · cases data

/-- `ss_check_hash` on the next part of a body hands out the next part of the payload. -/
theorem checkHash_spec {ctx : Option (EncCtx P)} {c : EncCtx P} {buf : Buffer} {chunk : Chunk} {seen more : Bytes}
    (ivLen : iv.length = E.ivLen) (hctx : ctx = some c) (hiv : c.iv = iv) (checking : Checking P iv auth seen chunk)
    (holds : buf.Holds more) (small : more.length < 2 ^ 31) (ok : BodyOk P iv auth (seen ++ more)) :
    ∃ out chunk' piece, checkHash E auth ctx buf chunk = .ok (out, chunk') ∧ out.Holds piece ∧
      payloadOf P iv auth seen ++ piece = payloadOf P iv auth (seen ++ more) ∧
      Checking P iv auth (seen ++ more) chunk' ∧ out.idx = buf.idx ∧ buf.array.length ≤ out.array.length := by
  cases auth with
  | false =>
    refine ⟨buf, chunk, more, rfl, holds, rfl, ?_, rfl, Nat.le_refl _⟩
    intro no
    cases no
  | true =>
    have good := ok rfl
    have cut : c.iv.take E.ivLen = iv := by rw [hiv, List.take_of_length_le (Nat.le_of_eq ivLen)]
    obtain ⟨r, call, verdict, next⟩ := ssCheckHash_spec E c (checking rfl) holds.fits
      (by rw [holds.len]; exact small) (show 2 ≤ bufSize by decide) (show bufSize < 2 ^ 63 by decide) cut
    rw [holds.bytes] at verdict next
    have accepted : r.ret ≠ 0 := by
      intro zero
      simp only [CheckResult.verdict, zero, if_true, otaVerdict, good] at verdict
      cases verdict
    obtain ⟨inv, fits, grown⟩ := next accepted
    have out : r.buf.bytes = (released P iv seen (seen ++ more)).flatten := by
      simp only [CheckResult.verdict, accepted, if_false, otaVerdict, good, if_true, Verdict.accepted.injEq] at verdict
      exact verdict.1
    refine ⟨r.buf, r.chunk, _, ?_, ⟨fits, out⟩, ?_, fun _ => inv, ssCheckHash_idx call, grown⟩
    · simp only [checkHash, if_true, hctx, deref_some, orCrash_ok, ok_bind, call, accepted, if_false, pure_eq_ok]
    · simp only [payloadOf, if_true]
      rw [frames_append more (checking rfl).ok, List.flatten_append]

end

end Shadowsocks
