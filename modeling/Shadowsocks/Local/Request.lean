import Shadowsocks.Encrypt.Openssl
import Shadowsocks.Local.Conn
import Shadowsocks.Relay.Header

/-!
# The SOCKS5 request in stage 1

What stage 1 of `server_recv_cb` makes of a complete `CONNECT` request and the bytes
behind it: the Shadowsocks header, the rest of the buffer, and the choice between a
direct and a proxied connection. The choice reads the type of the address again after
the rest has been moved over the request, so a fourth byte of the rest takes its place.
-/

namespace Shadowsocks.Local
set_option autoImplicit false
open Lib

/-- A well-formed `CONNECT` request. -/
def connectRequest (h : Header) : Bytes := [5, 1, 0] ++ h.encode false

/-- The text of the requested address, as `acl_match_ip` gets it. -/
def hostText (text : AddrText) : Address → Bytes
  | .ipv4 addr => text.ntop4 addr
  | .domain name => cString name
  | .ipv6 addr => text.ntop6 addr

/-- `ATYP` is 1 or 4. -/
def isIp (atyp : UInt8) : Bool := atyp == 1 || atyp == 4

/-- The decision as it is meant: direct exactly if an ACL is loaded, the address is an IP
address and the ACL matches its text. -/
def bypassed {P : Platform} (C : Config P) (h : Header) : Bool :=
  match C.acl with
  | none => false
  | some A => isIp h.addr.atyp && aclMatchIp C.text A (hostText C.text h.addr)

/-- What the buffer holds in place of the type when `rest` has been moved over the
request. -/
def atypSeen (h : Header) (rest : Bytes) : UInt8 := (rest[3]?).getD h.addr.atyp

section
variable {P : Platform} {C : Config P} {h : Header} {rest : Bytes} {buf : Buffer}

theorem balloc_holds (junk : Nat → UInt8) (capacity : Nat) : (balloc junk capacity).Holds [] :=
  Buffer.holds_nil rfl

/-- `abuf` is the Shadowsocks header, and `host` the text of the address. -/
theorem buildHeader_spec (C : Config P) {a b c : UInt8} (valid : h.Valid)
    (holds : buf.Holds ([a, b, c] ++ h.encode false ++ rest)) :
    ∃ abuf, buildHeader C buf = .ok (abuf, hostText C.text h.addr) ∧ abuf.Holds (h.encode false) ∧
      abuf.array.length = bufSize := by
  obtain ⟨addr, port⟩ := h
  obtain ⟨validAddr, portLen⟩ := valid
  have room : (balloc P.junk bufSize).array.length = bufSize := length_balloc _ _
  have first : buf.byte 3 = .ok addr.atyp := holds.byte [a, b, c] addr.atyp (addr.body ++ port ++ rest)
  obtain ⟨abuf, typed, typedHolds, typedRoom⟩ :=
    (balloc_holds P.junk bufSize).append [addr.atyp] (by rw [room, bufSize]; simp)
  rw [List.nil_append] at typedHolds
  have bodyLen := validAddr.length_body
  -- the rest of the header is copied from the request in one or two pieces
  have copy : ∀ more : Bytes, more.length ≤ 258 → ∃ abuf', abuf.append more = .ok abuf' ∧
      abuf'.Holds (addr.atyp :: more) ∧ abuf'.array.length = bufSize := by
    intro more short
    obtain ⟨abuf', eq, holds', room'⟩ := typedHolds.append more (by
      rw [typedRoom, room, List.length_singleton, bufSize]
      omega)
    exact ⟨abuf', eq, holds', by rw [room', typedRoom, room]⟩
  unfold buildHeader
  rw [first, orCrash_ok, ok_bind, typed, orCrash_ok, ok_bind]
  cases addr with
  | ipv4 ip =>
    have a4 : ip.length = 4 := validAddr
    have whole := holds.read [a, b, c, 1] (ip ++ port) rest
    rw [List.length_append, a4, portLen] at whole
    obtain ⟨abuf', eq, holds', room'⟩ := copy (ip ++ port) (by rw [List.length_append, a4, portLen]; decide)
    have read6 : buf.read 4 6 = .ok (ip ++ port) := whole
    refine ⟨abuf', ?_, holds', room'⟩
    simp only [Address.atyp, if_true, read6, orCrash_ok, ok_bind, eq, pure_eq_ok, hostText]
    rw [List.take_left' a4]
  | domain name =>
    have short : name.length < 256 := validAddr
    have nameLen : (UInt8.ofNat name.length).toNat = name.length := by
      rw [UInt8.toNat_ofNat']
      exact Nat.mod_eq_of_lt short
    have second : buf.byte 4 = .ok (UInt8.ofNat name.length) :=
      holds.byte [a, b, c, 3] (UInt8.ofNat name.length) (name ++ port ++ rest)
    have part := holds.read [a, b, c, 3, UInt8.ofNat name.length] (name ++ port) rest
    rw [List.length_append, portLen] at part
    have readName : buf.read 5 (name.length + 2) = .ok (name ++ port) := part
    obtain ⟨abuf₁, eq₁, holds₁, room₁⟩ := copy [UInt8.ofNat name.length] (by rw [List.length_singleton]; decide)
    obtain ⟨abuf₂, eq₂, holds₂, room₂⟩ := holds₁.append (name ++ port) (by
      rw [room₁, List.length_append, portLen, bufSize]
      simp only [List.length_cons, List.length_nil]
      omega)
    refine ⟨abuf₂, ?_, holds₂, by rw [room₂, room₁]⟩
    simp only [Address.atyp, show ¬ (3 : UInt8) = 1 by decide, if_false, if_true, second, orCrash_ok, ok_bind, eq₁,
      nameLen, readName, eq₂, pure_eq_ok, hostText]
    rw [List.take_left' rfl]
  | ipv6 ip =>
    have a16 : ip.length = 16 := validAddr
    have whole := holds.read [a, b, c, 4] (ip ++ port) rest
    rw [List.length_append, a16, portLen] at whole
    obtain ⟨abuf', eq, holds', room'⟩ := copy (ip ++ port) (by rw [List.length_append, a16, portLen]; decide)
    have read18 : buf.read 4 18 = .ok (ip ++ port) := whole
    refine ⟨abuf', ?_, holds', room'⟩
    simp only [Address.atyp, show ¬ (4 : UInt8) = 1 by decide, show ¬ (4 : UInt8) = 3 by decide, if_false, if_true,
      read18, orCrash_ok, ok_bind, eq, pure_eq_ok, hostText]
    rw [List.take_left' a16]

theorem stripRequest_spec {request : Bytes} {headerLen : Nat} (holds : buf.Holds (request ++ rest))
    (size : request.length = 3 + headerLen) :
    ∃ buf', stripRequest buf headerLen = .ok buf' ∧ buf'.Holds rest ∧ buf'.array = splice buf.array 0 rest ∧
      buf'.idx = buf.idx := by
  have len := holds.len
  rw [List.length_append] at len
  have left : sizeSub buf.len (3 + headerLen) = rest.length := by
    rw [sizeSub_of_le (by omega)]
    omega
  unfold stripRequest
  rw [left]
  dsimp only
  split
  · rw [← size]
    exact holds.shift
  · rename_i none_
    have empty : rest = [] := List.eq_nil_of_length_eq_zero (by omega)
    subst empty
    refine ⟨_, rfl, Buffer.holds_nil rfl, ?_, rfl⟩
    rw [splice_zero, List.nil_append, List.length_nil, List.drop_zero]

/-- The byte that `request->atyp` names after the shift. -/
theorem byte_shifted {buf' : Buffer} {a b c : UInt8} (holds : buf.Holds ([a, b, c] ++ h.encode false ++ rest))
    (moved : buf'.array = splice buf.array 0 rest) : buf'.byte 3 = .ok (atypSeen h rest) := by
  have before : buf.byte 3 = .ok h.addr.atyp := holds.byte [a, b, c] h.addr.atyp (h.addr.body ++ h.port ++ rest)
  have old : buf.array[3]? = some h.addr.atyp := by
    unfold Buffer.byte at before
    split at before
    · rename_i x found
      cases before
      exact found
    · cases before
  rw [Buffer.byte, moved, splice_zero, atypSeen]
  by_cases long : 3 < rest.length
  · rw [List.getElem?_append_left long, List.getElem?_eq_getElem long]
    rfl
  · have shorter : rest.length ≤ 3 := Nat.not_lt.mp long
    rw [List.getElem?_append_right shorter, List.getElem?_drop, List.getElem?_eq_none shorter,
      show rest.length + (3 - rest.length) = 3 by omega, old]
    rfl

/-- The choice the code makes. -/
def choice (C : Config P) (h : Header) (rest : Bytes) : Bool :=
  match C.acl with
  | none => false
  | some A => isIp (atypSeen h rest) && aclMatchIp C.text A (hostText C.text h.addr)

/-- Stage 1 on a complete request: the header, the rest, and the choice. -/
theorem readRequest_spec (C : Config P) {a b c : UInt8} (valid : h.Valid)
    (holds : buf.Holds ([a, b, c] ++ h.encode false ++ rest)) :
    ∃ abuf buf', readRequest C buf = .ok (abuf, buf', choice C h rest) ∧ abuf.Holds (h.encode false) ∧
      abuf.array.length = bufSize ∧ buf'.Holds rest ∧ buf'.array.length = buf.array.length ∧ buf'.idx = buf.idx := by
  obtain ⟨abuf, built, abufHolds, abufRoom⟩ := buildHeader_spec C valid holds
  have size : ([a, b, c] ++ h.encode false).length = 3 + abuf.len := by
    rw [abufHolds.len, List.length_append]
    rfl
  obtain ⟨buf', stripped, rest', moved, idx⟩ := stripRequest_spec holds size
  have seen := byte_shifted holds moved
  have decided : bypass C buf' (hostText C.text h.addr) = .ok (choice C h rest) := by
    unfold bypass choice
    cases C.acl with
    | none => rfl
    | some A =>
      dsimp only
      rw [seen, ok_bind]
      rfl
  have room := holds.room
  rw [List.length_append] at room
  refine ⟨abuf, buf', ?_, abufHolds, abufRoom, rest', ?_, idx⟩
  · simp only [readRequest, built, ok_bind, stripped, orCrash_ok, decided, pure_eq_ok]
  · rw [moved, length_splice (by omega)]

/-! ## Nothing else is accepted

If the segment is shorter than the request it announces, the length of the rest wraps
around and the shift leaves the buffer. -/

theorem stripRequest_enough {buf' : Buffer} {headerLen : Nat} (alloc : buf.array.length < 2 ^ 63) (small : headerLen < 2 ^ 16)
    (h : stripRequest buf headerLen = .ok buf') : 3 + headerLen ≤ buf.len := by
  by_contra short
  unfold stripRequest at h
  dsimp only at h
  rw [sizeSub, if_neg short] at h
  rw [if_pos (by omega)] at h
  obtain ⟨array, moved, -⟩ := bind_eq_ok.mp h
  obtain ⟨bs, loaded, -⟩ := bind_eq_ok.mp moved
  dsimp only at loaded
  rw [load, if_neg (by omega)] at loaded
  cases loaded

/-- How long the header is, from the bytes that were read. -/
theorem buildHeader_len {abuf : Buffer} {host : Bytes} (h : buildHeader C buf = .ok (abuf, host)) :
    ∃ t, buf.byte 3 = .ok t ∧ ((t = 1 ∧ abuf.len = 7) ∨ (∃ m, t = 3 ∧ buf.byte 4 = .ok m ∧ abuf.len = m.toNat + 4) ∨
      (t = 4 ∧ abuf.len = 19)) := by
  obtain ⟨t, typ, h⟩ := bind_eq_ok.mp h
  obtain ⟨abuf₀, first, h⟩ := bind_eq_ok.mp h
  rw [orCrash_eq_ok] at typ first
  have len₀ : abuf₀.len = 1 := Buffer.append_len first
  refine ⟨t, typ, ?_⟩
  split at h
  · rename_i v4
    obtain ⟨addr, read, h⟩ := bind_eq_ok.mp h
    obtain ⟨abuf₁, copied, h⟩ := bind_eq_ok.mp h
    rw [orCrash_eq_ok] at read copied
    cases h
    left
    rw [Buffer.append_len copied, Buffer.read_length read, len₀]
    exact ⟨v4, rfl⟩
  · split at h
    · rename_i domain
      obtain ⟨m, second, h⟩ := bind_eq_ok.mp h
      obtain ⟨abuf₁, copied, h⟩ := bind_eq_ok.mp h
      obtain ⟨name, read, h⟩ := bind_eq_ok.mp h
      obtain ⟨abuf₂, copied', h⟩ := bind_eq_ok.mp h
      rw [orCrash_eq_ok] at second copied read copied'
      cases h
      right
      left
      refine ⟨m, domain, second, ?_⟩
      rw [Buffer.append_len copied', Buffer.read_length read, Buffer.append_len copied, len₀, List.length_singleton]
      omega
    · split at h
      · rename_i v6
        obtain ⟨addr, read, h⟩ := bind_eq_ok.mp h
        obtain ⟨abuf₁, copied, h⟩ := bind_eq_ok.mp h
        rw [orCrash_eq_ok] at read copied
        cases h
        right
        right
        rw [Buffer.append_len copied, Buffer.read_length read, len₀]
        exact ⟨v6, rfl⟩
      · cases h

/-- What stage 1 accepts is three bytes, a header and a rest. The length of the header that was
built tells how many bytes were there: six behind the type for IPv4, eighteen for IPv6, and for a
name as many as the byte before it says, and three. -/
theorem readRequest_inv {bytes : Bytes} {abuf buf' : Buffer} {direct : Bool} (alloc : buf.array.length < 2 ^ 63)
    (holds : buf.Holds bytes) (read : readRequest C buf = .ok (abuf, buf', direct)) :
    ∃ (a b c : UInt8) (h : Header) (rest : Bytes), h.Valid ∧ bytes = [a, b, c] ++ h.encode false ++ rest := by
  obtain ⟨⟨abuf', host⟩, built, read⟩ := bind_eq_ok.mp read
  obtain ⟨stripped, strip, -⟩ := bind_eq_ok.mp read
  rw [orCrash_eq_ok] at strip
  obtain ⟨t, typ, lens⟩ := buildHeader_len built
  have len := holds.len
  have small : abuf'.len < 2 ^ 16 := by
    rcases lens with ⟨-, eq⟩ | ⟨m, -, -, eq⟩ | ⟨-, eq⟩
    · omega
    · have := m.toNat_lt
      omega
    · omega
  have enough := stripRequest_enough alloc small strip
  obtain ⟨a, b, c, u, tail, rfl⟩ : ∃ a b c u tail, bytes = a :: b :: c :: u :: tail := by
    rcases bytes with - | ⟨a, - | ⟨b, - | ⟨c, - | ⟨u, tail⟩⟩⟩⟩
    all_goals simp only [List.length_cons, List.length_nil] at len
    all_goals first | omega | exact ⟨a, b, c, u, tail, rfl⟩
  have same : u = t := by
    have found := holds.byte [a, b, c] u tail
    rw [List.length_cons, List.length_cons, List.length_cons, List.length_nil, typ] at found
    cases found
    rfl
  subst same
  simp only [List.length_cons] at len
  refine ⟨a, b, c, ?_⟩
  rcases lens with ⟨rfl, eq⟩ | ⟨m, rfl, second, eq⟩ | ⟨rfl, eq⟩
  · refine ⟨⟨.ipv4 (tail.take 4), window tail 4 2⟩, tail.drop 6, ⟨?_, length_window (by omega)⟩, ?_⟩
    · simp only [Address.Valid, List.length_take]
      omega
    · have split : tail = window tail 0 4 ++ window tail 4 2 ++ tail.drop 6 := by
        rw [← window_add, ← take_eq_window, List.take_append_drop]
      rw [Header.encode, Header.atyp, Address.body, take_eq_window]
      conv_lhs => rw [split]
      rfl
  · cases tail with
    | nil =>
      simp only [List.length_nil] at len
      omega
    | cons l tail =>
      have same : l = m := by
        have found := holds.byte [a, b, c, 3] l tail
        simp only [List.length_cons, List.length_nil] at found
        rw [second] at found
        cases found
        rfl
      subst same
      simp only [List.length_cons] at len
      have lt := l.toNat_lt
      have nameLen : (tail.take l.toNat).length = l.toNat := by
        rw [List.length_take]
        omega
      refine ⟨⟨.domain (tail.take l.toNat), window tail l.toNat 2⟩, tail.drop (l.toNat + 2),
        ⟨?_, length_window (by omega)⟩, ?_⟩
      · simp only [Address.Valid, nameLen]
        exact lt
      · have split : tail = window tail 0 l.toNat ++ window tail l.toNat 2 ++ tail.drop (l.toNat + 2) := by
          have joined := window_add tail 0 l.toNat 2
          rw [Nat.zero_add] at joined
          rw [← joined, ← take_eq_window, List.take_append_drop]
        rw [Header.encode, Header.atyp, Address.body, nameLen, UInt8.ofNat_toNat, take_eq_window]
        conv_lhs => rw [split]
        rfl
  · refine ⟨⟨.ipv6 (tail.take 16), window tail 16 2⟩, tail.drop 18, ⟨?_, length_window (by omega)⟩, ?_⟩
    · simp only [Address.Valid, List.length_take]
      omega
    · have split : tail = window tail 0 16 ++ window tail 16 2 ++ tail.drop 18 := by
        rw [← window_add, ← take_eq_window, List.take_append_drop]
      rw [Header.encode, Header.atyp, Address.body, take_eq_window]
      conv_lhs => rw [split]
      rfl

/-! ## The choice depends on the payload -/

/-- What stage 1 chooses: the Boolean that `create_remote` and `remote->direct` follow. -/
def chosen (C : Config P) (buf : Buffer) : Except Stop Bool := do
  let (_, _, direct) ← readRequest C buf
  pure direct

/-- The remote is direct exactly if stage 1 chose so. -/
theorem handleRequest_direct {conn conn' : Conn P} {e : ServerRecv} {remote : Remote}
    (handled : handleRequest C conn e = .ok (remote, conn')) : chosen C conn.down.buf = .ok remote.direct := by
  unfold handleRequest at handled
  obtain ⟨cmd, -, handled⟩ := bind_eq_ok.mp handled
  split at handled
  · cases handled
  · split at handled
    · cases handled
    · obtain ⟨⟨abuf, buf, direct⟩, read, handled⟩ := bind_eq_ok.mp handled
      obtain ⟨created, eq, handled⟩ := bind_eq_ok.mp handled
      obtain ⟨⟨rbuf, sbuf, counter⟩, -, handled⟩ := bind_eq_ok.mp handled
      obtain ⟨reply, -, handled⟩ := bind_eq_ok.mp handled
      have same : created.direct = direct := by
        unfold createRemote at eq
        cases direct <;> simp only [Bool.false_eq_true, if_true, if_false] at eq
        · split at eq <;> cases eq
          rfl
        · split at eq
          · split at eq <;> cases eq
            rfl
          · cases eq
      split at handled
      · split at handled
        · cases handled
        · cases handled
          rw [chosen, read, ok_bind, same]
          rfl
      · cases handled

/-- The bytes behind the request leave the decision alone: there is no ACL, or they are
too few to reach the type, or what they put in its place is of the same kind, or the
address is not matched anyway. -/
def Harmless (C : Config P) (h : Header) (rest : Bytes) : Prop :=
  match C.acl with
  | none => True
  | some A => rest.length < 4 ∨ (∀ x, rest[3]? = some x → isIp x = isIp h.addr.atyp) ∨
      aclMatchIp C.text A (hostText C.text h.addr) = false

theorem choice_eq_bypassed : choice C h rest = bypassed C h ↔ Harmless C h rest := by
  unfold choice bypassed Harmless
  cases C.acl with
  | none => simp
  | some A =>
    dsimp only
    cases aclMatchIp C.text A (hostText C.text h.addr) with
    | false => simp
    | true =>
      simp only [Bool.and_true, Bool.true_eq_false, or_false, atypSeen]
      by_cases long : 3 < rest.length
      · rw [List.getElem?_eq_getElem long, Option.getD_some]
        constructor
        · intro same
          exact .inr fun x hx => by cases hx; exact same
        · rintro (short | same)
          · omega
          · exact same _ rfl
      · rw [List.getElem?_eq_none (by omega), Option.getD_none]
        exact ⟨fun _ => .inl (by omega), fun _ => rfl⟩

theorem chosen_spec (C : Config P) {rest : Bytes} {buf : Buffer} (valid : h.Valid)
    (holds : buf.Holds (connectRequest h ++ rest)) : chosen C buf = .ok (choice C h rest) := by
  obtain ⟨_, _, read, -⟩ := readRequest_spec C valid holds
  rw [chosen, read]
  rfl

/-- The remote that stage 1 creates is the one that is meant exactly if the bytes behind the
request are harmless. -/
theorem handleRequest_meant_iff {conn conn' : Conn P} {e : ServerRecv} {remote : Remote} {rest : Bytes} (valid : h.Valid)
    (holds : conn.down.buf.Holds (connectRequest h ++ rest)) (handled : handleRequest C conn e = .ok (remote, conn')) :
    remote.direct = bypassed C h ↔ Harmless C h rest := by
  have direct := (handleRequest_direct handled).symm.trans (chosen_spec C valid holds)
  rw [Except.ok.inj direct]
  exact choice_eq_bypassed

/-- For any two strings behind the same request, stage 1 makes the same choice for both,
and the one that is meant, exactly if both strings are harmless. -/
theorem chosen_eq_bypassed (C : Config P) {rest₁ rest₂ : Bytes} {buf₁ buf₂ : Buffer} (valid : h.Valid)
    (holds₁ : buf₁.Holds (connectRequest h ++ rest₁)) (holds₂ : buf₂.Holds (connectRequest h ++ rest₂)) :
    (chosen C buf₁ = chosen C buf₂ ∧ chosen C buf₁ = .ok (bypassed C h)) ↔
      (Harmless C h rest₁ ∧ Harmless C h rest₂) := by
  rw [chosen_spec C valid holds₁, chosen_spec C valid holds₂, ← choice_eq_bypassed, ← choice_eq_bypassed]
  constructor
  · rintro ⟨same, meant⟩
    rw [Except.ok.injEq] at same meant
    exact ⟨meant, same.symm.trans meant⟩
  · rintro ⟨one, two⟩
    rw [one, two]
    exact ⟨rfl, rfl⟩

end

/-- The decimal digits of a byte. -/
def digits (b : UInt8) : Bytes :=
  if b < 10 then [48 + b]
  else if b < 100 then [48 + b / 10, 48 + b % 10]
  else [48 + b / 100, 48 + b / 10 % 10, 48 + b % 10]

/-- The text of an IPv4 address. -/
def dottedQuad (addr : Bytes) : Bytes := [46].intercalate (addr.map digits)

/-- ss-local with the method `rc4` and an ACL of one address, 10.0.0.1. -/
def aclConfig : Config rc4Platform where
  E := { method := .rc4, key := be32 7 ++ be32 1 ++ be32 3 ++ be32 2, encTable := id, decTable := id }
  text := {
    ntop4 := dottedQuad
    ntop6 := id
    corkIpInit := fun t => if t = dottedQuad [10, 0, 0, 1] then some (.v4 [10, 0, 0, 1]) else none
    pton4 := fun _ => none
    pton6 := fun _ => none }
  auth := false
  acl := some { mode := .blackList, ipv4Set := (· == [10, 0, 0, 1]), ipv6Set := fun _ => false }
  tcpOnly := true
  vpn := false

/-- `server->buf` after a `recv` of a request for 10.0.0.1:80 and more. -/
def requestBuffer (rest : Bytes) : Buffer :=
  let bytes := connectRequest { addr := .ipv4 [10, 0, 0, 1], port := [0, 80] } ++ rest
  { len := bytes.length, array := bytes ++ List.replicate (bufSize - bytes.length) 0 }

theorem chosen_eq_bypassed_harmless :
    chosen aclConfig (requestBuffer [65, 66]) = chosen aclConfig (requestBuffer [65, 66, 67, 1]) ∧
      chosen aclConfig (requestBuffer [65, 66]) = .ok true := by
  have two : (requestBuffer [65, 66]).Holds
      (connectRequest { addr := .ipv4 [10, 0, 0, 1], port := [0, 80] } ++ [65, 66]) :=
    ⟨by decide +kernel, by decide +kernel⟩
  have four : (requestBuffer [65, 66, 67, 1]).Holds
      (connectRequest { addr := .ipv4 [10, 0, 0, 1], port := [0, 80] } ++ [65, 66, 67, 1]) :=
    ⟨by decide +kernel, by decide +kernel⟩
  refine (chosen_eq_bypassed aclConfig (by decide) two four).mpr ⟨?_, ?_⟩
  · exact .inl (by decide)
  · refine .inr (.inl ?_)
    intro x hx
    cases hx
    rfl

/-- Four bytes of payload in the segment of the request send an address of the ACL
through the proxy. -/
theorem chosen_ne_bypassed :
    chosen aclConfig (requestBuffer []) = .ok true ∧ chosen aclConfig (requestBuffer [65, 66, 67, 68]) = .ok false ∧
      bypassed aclConfig { addr := .ipv4 [10, 0, 0, 1], port := [0, 80] } = true := by
  refine ⟨?_, ?_, ?_⟩ <;> decide +kernel

end Shadowsocks.Local
