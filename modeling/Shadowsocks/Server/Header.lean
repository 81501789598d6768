import Shadowsocks.Relay.Plain
import Shadowsocks.Server.Conn

/-!
# The header in stage 0

`readHeader` on a buffer that begins with a whole header returns it and leaves what is
behind it (`readHeader_spec`). On a part of a header it closes the connection
(`readHeader_short`): every branch needs the whole of it, and no branch waits for more.

The lengths are tested against `server->buf`, which at this point has the decrypted bytes of all
segments so far behind the IV, and a test that fails reports a bad header.
-/

namespace Shadowsocks.Server
set_option autoImplicit false
open Lib

section
variable {P : Platform} {S : Config P} {iv : Bytes} {h : Header} {flag : Bool} {buf : Buffer}

/-- `atyp & ADDRTYPE_MASK`. -/
theorem atyp_masked (h : Header) (flag : Bool) : h.atyp flag &&& 0xf = h.addr.atyp := by
  obtain ⟨addr, port⟩ := h
  cases flag <;> cases addr <;> simp only [Header.atyp, Address.atyp, Bool.false_eq_true, if_false, if_true] <;> decide

/-- `atyp & ONETIMEAUTH_FLAG`. -/
theorem atyp_flagged (h : Header) (flag : Bool) : (h.atyp flag &&& 0x10 != 0) = flag := by
  obtain ⟨addr, port⟩ := h
  cases flag <;> cases addr <;> simp only [Header.atyp, Address.atyp, Bool.false_eq_true, if_false, if_true] <;> decide

theorem toNat_nameLen {name : Bytes} (short : name.length < 256) : (UInt8.ofNat name.length).toNat = name.length := by
  rw [UInt8.toNat_ofNat']
  exact Nat.mod_eq_of_lt short

/-! ## The whole header -/

theorem parseHeaderLen_spec {more : Bytes} (valid : h.Valid) (holds : buf.Holds (h.encode flag ++ more)) :
    parseHeaderLen (h.atyp flag) buf = .ok (h.addr.body.length + 2) := by
  obtain ⟨addr, port⟩ := h
  obtain ⟨validAddr, -⟩ := valid
  unfold parseHeaderLen
  rw [atyp_masked]
  cases addr with
  | ipv4 a =>
    have a4 : a.length = 4 := validAddr
    simp only [Address.atyp, if_true, Address.body, a4, pure_eq_ok]
  | domain name =>
    have second : buf.byte 1 = .ok (UInt8.ofNat name.length) :=
      holds.byte [Header.atyp ⟨.domain name, port⟩ flag] (UInt8.ofNat name.length) (name ++ port ++ more)
    simp only [Address.atyp, show ¬ (3 : UInt8) = 1 by decide, if_false, if_true, second, ok_bind,
      toNat_nameLen validAddr, Address.body, List.length_cons, pure_eq_ok]
  | ipv6 a =>
    have a16 : a.length = 16 := validAddr
    simp only [Address.atyp, show ¬ (4 : UInt8) = 1 by decide, show ¬ (4 : UInt8) = 3 by decide, if_false, if_true,
      Address.body, a16, pure_eq_ok]

theorem verifyHeader_spec {body : Bytes} {ctx : Option (EncCtx P)} {c : EncCtx P} (ivLen : iv.length = S.E.ivLen)
    (valid : h.Valid) (hctx : ctx = some c) (hiv : c.iv = iv)
    (holds : buf.Holds (head S.E iv h flag (S.auth || flag) ++ body)) :
    verifyHeader S ctx buf (h.atyp flag) = .ok (S.auth || flag) := by
  unfold verifyHeader
  rw [atyp_flagged]
  cases auth : (S.auth || flag) with
  | false => rfl
  | true =>
    rw [auth, head, if_pos rfl, List.append_assoc] at holds
    have len := holds.len
    have size := Header.length_encode valid flag
    have tag := length_shortHmac (P := P) (iv ++ S.E.key) (h.encode flag)
    rw [List.length_append, List.length_append, size, tag] at len
    have end_ : 1 + (h.addr.body.length + 2) + onetimeauthBytes =
        (h.encode flag ++ shortHmac (P := P) (iv ++ S.E.key) (h.encode flag)).length := by
      rw [List.length_append, size, tag, onetimeauthBytes]
      omega
    have room := holds.room
    simp only [List.length_append] at room
    have front : ({ buf with len := 1 + (h.addr.body.length + 2) + onetimeauthBytes } : Buffer).bytes =
        h.encode flag ++ shortHmac (P := P) (iv ++ S.E.key) (h.encode flag) := by
      rw [← List.append_assoc] at holds
      rw [Buffer.bytes]
      dsimp only
      rw [end_, holds.window (by simp only [List.length_append]; omega), window_append_left (by omega), window_zero_length]
    have fits : ({ buf with len := 1 + (h.addr.body.length + 2) + onetimeauthBytes } : Buffer).Fits := by
      rw [Buffer.Fits, end_, List.length_append]
      dsimp only
      omega
    have verified := ssOnetimeauthVerify_spec fits ivLen tag front
    have long : ¬ buf.len < 1 + (h.addr.body.length + 2) + onetimeauthBytes := by
      rw [onetimeauthBytes]
      omega
    simp only [if_true, parseHeaderLen_spec valid holds, orCrash_ok, ok_bind, long, if_false, hctx, deref_some, hiv,
      verified, bne_self_eq_false, Bool.false_eq_true, pure_eq_ok]

/-- The upper bits of the type do not matter to the address. -/
theorem readAddr_wrote {t : UInt8} {more : Bytes} (valid : h.Valid) (typ : t &&& 0xf = h.addr.atyp)
    (holds : buf.Holds (t :: (h.addr.body ++ (h.port ++ more)))) : readAddr buf t = .ok (h.addr, 1 + h.addr.body.length) := by
  have len := holds.len
  rw [List.length_cons, List.length_append, List.length_append, valid.2] at len
  obtain ⟨addr, port⟩ := h
  obtain ⟨validAddr, -⟩ := valid
  unfold readAddr
  rw [typ]
  cases addr with
  | ipv4 a =>
    have a4 : a.length = 4 := validAddr
    have read := holds.read [t] a (port ++ more)
    rw [List.length_singleton, a4] at read
    have long : 7 ≤ buf.len := by
      simp only [Address.body] at len
      omega
    simp only [Address.atyp, if_true, long, read, orCrash_ok, ok_bind, pure_eq_ok, Address.body, a4]
  | domain name =>
    have second : buf.byte 1 = .ok (UInt8.ofNat name.length) := holds.byte [t] (UInt8.ofNat name.length) (name ++ (port ++ more))
    have read : buf.read 2 name.length = .ok name := holds.read [t, UInt8.ofNat name.length] name (port ++ more)
    have long : name.length + 4 ≤ buf.len := by
      simp only [Address.body, List.length_cons] at len
      omega
    simp only [Address.atyp, show ¬ (3 : UInt8) = 1 by decide, if_false, if_true, second, orCrash_ok, ok_bind,
      toNat_nameLen validAddr, long, read, pure_eq_ok, Address.body, List.length_cons]
    rw [Nat.add_comm 1, Nat.add_assoc]
  | ipv6 a =>
    have a16 : a.length = 16 := validAddr
    have read := holds.read [t] a (port ++ more)
    rw [List.length_singleton, a16] at read
    have long : 19 ≤ buf.len := by
      simp only [Address.body] at len
      omega
    simp only [Address.atyp, show ¬ (4 : UInt8) = 1 by decide, show ¬ (4 : UInt8) = 3 by decide, if_false, if_true,
      long, read, orCrash_ok, ok_bind, pure_eq_ok, Address.body, a16]

theorem readAddr_spec {more : Bytes} (valid : h.Valid) (holds : buf.Holds (h.encode flag ++ more)) :
    readAddr buf (h.atyp flag) = .ok (h.addr, 1 + h.addr.body.length) := by
  rw [Header.encode_append] at holds
  exact readAddr_wrote valid (atyp_masked h flag) holds

/-- A buffer that begins with a whole header. -/
theorem readHeader_spec {body : Bytes} {ctx : Option (EncCtx P)} {c : EncCtx P} (ivLen : iv.length = S.E.ivLen)
    (valid : h.Valid) (hctx : ctx = some c) (hiv : c.iv = iv)
    (holds : buf.Holds (head S.E iv h flag (S.auth || flag) ++ body)) :
    ∃ buf', readHeader S ctx buf = .ok (h, buf', S.auth || flag) ∧ buf'.Holds body ∧ buf'.idx = buf.idx ∧
      buf'.array.length = buf.array.length := by
  have verified := verifyHeader_spec ivLen valid hctx hiv holds
  have size := length_head S.E iv valid flag (S.auth || flag)
  have len := holds.len
  have room := holds.room
  rw [List.length_append, size] at len
  rw [List.length_append] at room
  have end_ : 1 + h.addr.body.length + 2 + (if (S.auth || flag) = true then onetimeauthBytes else 0) =
      (head S.E iv h flag (S.auth || flag)).length := by
    rw [size, onetimeauthBytes]
    omega
  have left : buf.len - (head S.E iv h flag (S.auth || flag)).length = body.length := by omega
  obtain ⟨buf', moved, rest, array, idx⟩ := holds.shift
  have found : buf.Holds (h.encode flag ++ ((if (S.auth || flag) = true then
      shortHmac (P := P) (iv ++ S.E.key) (h.encode flag) else []) ++ body)) := by
    rw [← List.append_assoc]
    exact holds
  have first : buf.byte 0 = .ok (h.atyp flag) := holds.byte [] (h.atyp flag) _
  have port : buf.read (1 + h.addr.body.length) 2 = .ok h.port := by
    have at_ := found
    rw [Header.encode_append, ← List.cons_append] at at_
    have read := at_.read (h.atyp flag :: h.addr.body) h.port _
    rw [List.length_cons, valid.2, Nat.add_comm] at read
    exact read
  refine ⟨buf', ?_, rest, idx, ?_⟩
  · simp only [readHeader, first, orCrash_ok, ok_bind, verified, readAddr_spec valid found, port, end_, left, moved]
    rw [if_neg (by omega), pure_eq_ok]
  · rw [array, length_splice (by omega)]

/-! ## A part of the header -/

/-- The length of a name is read wherever the header ends; it is the right one if it is
there. -/
theorem byte_one {front : UInt8} {rest part : Bytes} {len : UInt8} (cut : part <+: front :: len :: rest)
    (holds : buf.Holds part) (room : 2 ≤ buf.array.length) :
    ∃ x, buf.byte 1 = .ok x ∧ (2 ≤ part.length → x = len) := by
  obtain ⟨behind, whole⟩ := cut
  match part with
  | [] | [_] =>
    refine ⟨buf.array[1], ?_, ?_⟩
    · rw [Buffer.byte, List.getElem?_eq_getElem room]
    · intro two
      simp only [List.length_nil, List.length_singleton] at two
      omega
  | a :: x :: more =>
    simp only [List.cons_append, List.cons.injEq] at whole
    exact ⟨x, holds.byte [a] x more, fun _ => whole.2.1⟩

/-- What `parse_header_len` announces of a header that is not all there is more than is
there. -/
theorem parseHeaderLen_short {part : Bytes} {tail : Bytes} (valid : h.Valid) (holds : buf.Holds part)
    (room : 2 ≤ buf.array.length) (cut : part <+: h.encode flag ++ tail) (some_ : 0 < part.length)
    (short : part.length < 13 + h.addr.body.length) :
    ∃ n, parseHeaderLen (h.atyp flag) buf = .ok n ∧ part.length < 1 + n + onetimeauthBytes := by
  rw [Header.encode_append] at cut
  obtain ⟨addr, port⟩ := h
  obtain ⟨validAddr, -⟩ := valid
  unfold parseHeaderLen
  rw [atyp_masked]
  cases addr with
  | ipv4 a =>
    have a4 : a.length = 4 := validAddr
    simp only [Address.body, a4] at short
    refine ⟨6, ?_, ?_⟩
    · simp only [Address.atyp, if_true, pure_eq_ok]
    · rw [onetimeauthBytes]
      omega
  | domain name =>
    obtain ⟨x, byte, right⟩ := byte_one cut holds room
    simp only [Address.body, List.length_cons] at short
    refine ⟨x.toNat + 1 + 2, ?_, ?_⟩
    · simp only [Address.atyp, show ¬ (3 : UInt8) = 1 by decide, if_false, if_true, byte, ok_bind, pure_eq_ok]
    · rw [onetimeauthBytes]
      by_cases two : 2 ≤ part.length
      · rw [right two, toNat_nameLen validAddr]
        omega
      · omega
  | ipv6 a =>
    have a16 : a.length = 16 := validAddr
    simp only [Address.body, a16] at short
    refine ⟨18, ?_, ?_⟩
    · simp only [Address.atyp, show ¬ (4 : UInt8) = 1 by decide, show ¬ (4 : UInt8) = 3 by decide, if_false, if_true,
        pure_eq_ok]
    · rw [onetimeauthBytes]
      omega

theorem readAddr_short {part : Bytes} (valid : h.Valid) (holds : buf.Holds part)
    (room : 2 ≤ buf.array.length) (cut : part <+: h.encode flag) (some_ : 0 < part.length)
    (short : part.length < 3 + h.addr.body.length) :
    readAddr buf (h.atyp flag) = .error (.closed .invalidHeader) := by
  have len := holds.len
  obtain ⟨addr, port⟩ := h
  obtain ⟨validAddr, -⟩ := valid
  unfold readAddr
  rw [atyp_masked]
  cases addr with
  | ipv4 a =>
    have a4 : a.length = 4 := validAddr
    simp only [Address.body, a4] at short
    simp only [Address.atyp, if_true]
    rw [if_neg (by omega)]
  | domain name =>
    obtain ⟨x, byte, right⟩ := byte_one cut holds room
    simp only [Address.body, List.length_cons] at short
    simp only [Address.atyp, show ¬ (3 : UInt8) = 1 by decide, if_false, if_true, byte, orCrash_ok, ok_bind]
    rw [if_neg]
    by_cases two : 2 ≤ part.length
    · rw [right two, toNat_nameLen validAddr]
      omega
    · omega
  | ipv6 a =>
    have a16 : a.length = 16 := validAddr
    simp only [Address.body, a16] at short
    simp only [Address.atyp, show ¬ (4 : UInt8) = 1 by decide, show ¬ (4 : UInt8) = 3 by decide, if_false, if_true]
    rw [if_neg (by omega)]

/-- A buffer that holds a part of a header, and not all of it. -/
theorem readHeader_short {part : Bytes} (ctx : Option (EncCtx P)) (valid : h.Valid) (holds : buf.Holds part)
    (room : 2 ≤ buf.array.length) (cut : part <+: head S.E iv h flag (S.auth || flag)) (some_ : 0 < part.length)
    (short : part.length < (head S.E iv h flag (S.auth || flag)).length) :
    ∃ why, readHeader S ctx buf = .error (.closed why) := by
  rw [length_head S.E iv valid] at short
  have first : buf.byte 0 = .ok (h.atyp flag) := by
    cases part with
    | nil => cases some_
    | cons x more =>
      have same : x = h.atyp flag := by
        obtain ⟨behind, whole⟩ := cut
        exact (List.cons.inj whole).1
      rw [← same]
      exact holds.byte [] x more
  have len := holds.len
  simp only [readHeader, first, orCrash_ok, ok_bind, verifyHeader, atyp_flagged]
  rw [head] at cut
  cases auth : (S.auth || flag) with
  | false =>
    simp only [auth, Bool.false_eq_true, if_false, List.append_nil, Nat.add_zero] at cut short
    refine ⟨.invalidHeader, ?_⟩
    simp only [Bool.false_eq_true, if_false, pure_eq_ok, ok_bind, readAddr_short valid holds room cut some_ short,
      error_bind]
  | true =>
    simp only [auth, if_true] at cut short
    obtain ⟨n, announced, more⟩ := parseHeaderLen_short valid holds room cut some_ (by omega)
    refine ⟨.shortAuthHeader, ?_⟩
    simp only [if_true, announced, orCrash_ok, ok_bind, len, more, error_bind]

end

end Shadowsocks.Server
