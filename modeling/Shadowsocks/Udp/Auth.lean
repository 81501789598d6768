import Shadowsocks.Udp.Local
import Shadowsocks.Udp.Plain

/-!
# The authentication of other clients

`server_ctx->auth` begins as the setting and is turned on, for good and for every client,
by the first type byte with the flag that `parse_udprealy_header` sees. Until then a
datagram is treated as if it were the first one (`auth_alone`).
-/

namespace Shadowsocks.Udp.Local
set_option autoImplicit false
open Lib

/-- `array[0] |= ONETIMEAUTH_FLAG`. -/
def flagOn (auth : Bool) : Bytes → Bytes
  | [] => []
  | t :: rest => (if auth then t ||| 0x10 else t) :: rest

/-- The part of the buffer from `offset` on is `data`. -/
def Framed.Has (f : Framed) (data : Bytes) : Prop := ∃ before : Bytes, before.length = f.offset ∧ f.buf.Holds (before ++ data)

theorem Framed.Has.unique {f : Framed} {data data' : Bytes} (has : f.Has data) (has' : f.Has data') : data = data' := by
  obtain ⟨before, offset, holds⟩ := has
  obtain ⟨before', offset', holds'⟩ := has'
  exact (List.append_inj (holds.bytes.symm.trans holds'.bytes) (offset.trans offset'.symm)).2

theorem length_flagOn (auth : Bool) (data : Bytes) : (flagOn auth data).length = data.length := by
  cases data <;> rfl

section
variable {P : Platform} {C : Config P}

/-! ## The packet for the server -/

/-- The tag makes the cipher write past the end of the scratch buffer. -/
def overflows (C : Config P) (auth : Bool) (encTmp : Buffer) (n : Nat) : Prop :=
  auth = true ∧ C.E.method ≠ .table ∧ sealRoom C.E encTmp n maxUdpPacketSize < C.E.ivLen + n + onetimeauthBytes

theorem strip_spec {f : Framed} {data : Bytes} (has : f.Has data) : ∃ buf, strip f = .ok buf ∧ buf.Holds data := by
  obtain ⟨before, offset, holds⟩ := has
  have len := holds.len
  rw [List.length_append, offset] at len
  unfold strip
  by_cases zero : 0 < f.offset
  · obtain ⟨buf, moved, holds', -⟩ := holds.shift
    rw [if_pos zero, sizeSub_of_le (by omega), show f.buf.len - f.offset = data.length by omega, ← offset]
    exact ⟨buf, moved, holds'⟩
  · rw [if_neg zero]
    cases List.length_eq_zero_iff.mp (offset.trans (Nat.eq_zero_of_not_pos zero))
    exact ⟨f.buf, rfl, holds⟩

/-- A datagram without a whole `offset` wraps the length around. -/
theorem strip_short {f : Framed} (short : f.buf.len < f.offset) (small : f.offset + f.buf.array.length < 2 ^ 64) :
    strip f = .error .outOfBounds := by
  unfold strip
  rw [if_pos (by omega), sizeSub, if_neg (by omega), Buffer.memmove, move, load]
  dsimp only
  rw [if_neg (by omega)]
  rfl

theorem mark_spec (auth : Bool) {buf : Buffer} {data : Bytes} (holds : buf.Holds data) (some_ : data ≠ []) :
    ∃ buf', mark auth buf = .ok buf' ∧ buf'.Holds (flagOn auth data) := by
  obtain ⟨t, rest, rfl⟩ := List.exists_cons_of_ne_nil some_
  cases auth with
  | false => exact ⟨buf, rfl, holds⟩
  | true =>
    have first : buf.byte 0 = .ok t := holds.byte [] t rest
    obtain ⟨buf', wrote, holds', -⟩ := (show buf.Holds ([t] ++ rest) from holds).overwrite
      (show [t].length = [t ||| 0x10].length from rfl)
    rw [mark, if_pos rfl, first, ok_bind, wrote]
    exact ⟨buf', rfl, holds'⟩

/-- What there is from `offset` on is encrypted, or overflows the scratch buffer. -/
theorem encode_spec (lawful : P.evp.Lawful) {f : Framed} {data : Bytes} (has : f.Has data) (some_ : data ≠ [])
    (small : data.length < 2 ^ 31) (auth : Bool) (encTmp : Buffer) {iv : Bytes} (ivLen : iv.length = C.E.ivLen) :
    (overflows C auth encTmp data.length → encode C auth encTmp f iv = .error .outOfBounds) ∧
    (¬ overflows C auth encTmp data.length →
      ∃ encTmp', encode C auth encTmp f iv = .ok (some (sealPacket C.E auth iv (flagOn auth data)), encTmp') ∧
        encTmp'.array.length ≤ sealRoom C.E encTmp data.length maxUdpPacketSize) := by
  obtain ⟨buf, stripped, holds⟩ := strip_spec has
  obtain ⟨buf', marked, holds'⟩ := mark_spec auth holds some_
  have size := holds'.len
  rw [length_flagOn] at size
  rw [encode, stripped, ok_bind, marked, ok_bind]
  constructor
  · rintro ⟨rfl, table, full⟩
    rw [ssEncryptAll_overflow buf' encTmp lawful holds'.fits ivLen (by omega) (show maxUdpPacketSize < 2 ^ 62 by decide) table
      (by rw [size]; exact full)]
    rfl
  · intro fits
    obtain ⟨r, sealed, ret, out, -, room⟩ := ssEncryptAll_spec buf' encTmp auth lawful holds'.fits ivLen (by omega)
      (show maxUdpPacketSize < 2 ^ 62 by decide) fun on table => by
        rw [size]
        exact Nat.not_lt.mp fun full => fits ⟨on, table, full⟩
    rw [holds'.bytes] at out
    rw [size] at room
    refine ⟨r.tmp, ?_, room ▸ scratchSize_le _ _ _⟩
    rw [sealed, ok_bind, if_neg (by simp [ret]), out.readAll]
    rfl

/-! ## What is framed -/

/-- The byte that `parse_udprealy_header` looks at first: in a datagram without it, what
memory holds. -/
def typeByte (stale : Nat → UInt8) (datagram : Bytes) : UInt8 := (datagram.take maxUdpPacketSize).getD 3 (stale 3)

/-- The parser is called, and sees the flag. -/
def flagSeen (C : Config P) (stale : Nat → UInt8) (datagram : Bytes) : Bool :=
  decide (C.front = .socks) && typeByte stale datagram &&& 0x10 != 0

theorem recvFrom_byte {stale : Nat → UInt8} {datagram : Bytes} {buf : Buffer} (received : recvFrom stale datagram = .ok buf)
    {i : Nat} (inside : i < maxUdpPacketSize) : buf.byte i = .ok ((datagram.take maxUdpPacketSize).getD i (stale i)) := by
  obtain ⟨buf', wrote, done⟩ := bind_eq_ok.mp received
  cases done
  obtain ⟨-, rfl⟩ := Buffer.write_eq_ok.mp wrote
  rw [Buffer.byte]
  dsimp only
  rw [getElem?_splice (Nat.zero_le _), if_neg (Nat.not_lt_zero _), Nat.zero_add, Nat.sub_zero]
  by_cases within : i < (datagram.take maxUdpPacketSize).length
  · rw [if_pos within, List.getD_eq_getElem?_getD, List.getElem?_eq_getElem within]
    rfl
  · rw [if_neg within, List.getD_eq_getElem?_getD, List.getElem?_eq_none (Nat.not_lt.mp within)]
    simp only [balloc, List.getElem?_map, List.getElem?_range inside, Option.map_some, Option.getD_none]

theorem tunnelHeader_length {text : AddrText} {host : Bytes} {port : Nat} {addrHeader : Bytes}
    (done : tunnelHeader P text host port = .ok addrHeader) : 0 < addrHeader.length ∧ addrHeader.length ≤ 256 := by
  obtain ⟨named, first, done⟩ := bind_eq_ok.mp done
  obtain ⟨whole, second, done⟩ := bind_eq_ok.mp done
  have size : whole.array.length = 256 := by
    rw [Buffer.append_size second, Buffer.append_size first, length_balloc]
  have len := Buffer.append_len second
  have two : (be16 (port % 2 ^ 16)).length = 2 := length_be16 _
  have read := Buffer.read_length done
  obtain ⟨inside, -⟩ := Buffer.read_eq_ok.mp done
  omega

/-- What is framed has a header and a payload behind its offset, unless the datagram is shorter
than the offset. A datagram of ss-local with less than three bytes is parsed with a length that
has wrapped around. -/
theorem frame_some {auth auth' : Bool} {dst : Option Sockaddr} {stale : Nat → UInt8} {datagram : Bytes} {f : Framed}
    (framed : frame C auth dst stale datagram = .ok (auth', some f)) :
    (f.buf.len < f.offset ∧ f.offset + f.buf.array.length < 2 ^ 64) ∨
      ∃ data, f.Has data ∧ data ≠ [] ∧ data.length ≤ (datagram.take maxUdpPacketSize).length + 256 := by
  obtain ⟨buf, received, holds, size⟩ := recvFrom_spec stale datagram
  have len := holds.len
  have short : (datagram.take maxUdpPacketSize).length ≤ 65507 := List.length_take_le _ _
  simp only [maxUdpPacketSize] at size
  rw [frame, received, ok_bind] at framed
  cases front : C.front with
  | socks =>
    rw [front] at framed
    obtain ⟨frag, -, framed⟩ := bind_eq_ok.mp framed
    obtain ⟨⟨flag, parsed⟩, read, framed⟩ := bind_eq_ok.mp framed
    cases parsed with
    | none => cases framed
    | some p =>
      obtain ⟨addrHeader, -, framed⟩ := bind_eq_ok.mp framed
      cases framed
      by_cases three : 3 ≤ buf.len
      · rw [sizeSub_of_le three] at read
        obtain ⟨t, h, wrote, rfl, -, inside, -⟩ := parse_some read
        have long := headerParsed_len C.text wrote.valid
        refine .inr ⟨(datagram.take maxUdpPacketSize).drop 3, ⟨(datagram.take maxUdpPacketSize).take 3, ?_, ?_⟩, ?_, ?_⟩
        · rw [List.length_take]
          dsimp only
          omega
        · rw [List.take_append_drop]
          exact holds
        · intro none_
          have zero := congrArg List.length none_
          rw [List.length_drop, List.length_nil] at zero
          omega
        · rw [List.length_drop]
          omega
      · exact .inl ⟨by dsimp only; omega, by dsimp only; omega⟩
  | tunnel host port =>
    rw [front] at framed
    obtain ⟨addrHeader, header, framed⟩ := bind_eq_ok.mp framed
    obtain ⟨some_, small⟩ := tunnelHeader_length header
    obtain ⟨buf', prepended, holds'⟩ := prepend_spec P.junk holds addrHeader (by omega)
    obtain ⟨buf'', prepended', framed⟩ := bind_eq_ok.mp framed
    cases prepended.symm.trans prepended'
    cases framed
    refine .inr ⟨addrHeader ++ datagram.take maxUdpPacketSize, ⟨[], rfl, holds'⟩, ?_, ?_⟩
    · exact List.append_ne_nil_of_left_ne_nil (List.length_pos_iff.mp some_) _
    · rw [List.length_append]
      omega
  | redir =>
    rw [front] at framed
    cases dst with
    | none => cases framed
    | some dst =>
      dsimp only at framed
      split at framed
      · cases framed
      · rename_i some_
        have small := length_construct dst
        obtain ⟨buf', prepended, holds'⟩ := prepend_spec P.junk holds (constructUdprealyHeader dst) (by omega)
        obtain ⟨buf'', prepended', framed⟩ := bind_eq_ok.mp framed
        cases prepended.symm.trans prepended'
        cases framed
        refine .inr ⟨constructUdprealyHeader dst ++ datagram.take maxUdpPacketSize, ⟨[], rfl, holds'⟩, ?_, ?_⟩
        · exact List.append_ne_nil_of_left_ne_nil (List.length_pos_iff.mp (Nat.pos_of_ne_zero some_)) _
        · rw [List.length_append]
          omega

theorem frame_auth {auth auth' : Bool} {dst : Option Sockaddr} {stale : Nat → UInt8} {datagram : Bytes} {framed : Option Framed}
    (done : frame C auth dst stale datagram = .ok (auth', framed)) : auth' = (auth || flagSeen C stale datagram) := by
  obtain ⟨buf, received, done⟩ := bind_eq_ok.mp done
  unfold flagSeen
  cases front : C.front with
  | socks =>
    rw [front] at done
    obtain ⟨frag, -, done⟩ := bind_eq_ok.mp done
    obtain ⟨⟨flag, parsed⟩, read, done⟩ := bind_eq_ok.mp done
    obtain ⟨t, first, read⟩ := bind_eq_ok.mp read
    obtain ⟨found, -, read⟩ := bind_eq_ok.mp read
    cases read
    rw [recvFrom_byte received (by decide)] at first
    cases first
    cases parsed with
    | none =>
      cases done
      rfl
    | some p =>
      obtain ⟨addrHeader, -, done⟩ := bind_eq_ok.mp done
      cases done
      rfl
  | tunnel host port =>
    rw [front] at done
    obtain ⟨addrHeader, -, done⟩ := bind_eq_ok.mp done
    obtain ⟨buf', -, done⟩ := bind_eq_ok.mp done
    cases done
    exact (Bool.or_false _).symm
  | redir =>
    rw [front] at done
    cases dst with
    | none =>
      cases done
      exact (Bool.or_false _).symm
    | some dst =>
      dsimp only at done
      split at done
      · cases done
        exact (Bool.or_false _).symm
      · obtain ⟨buf', -, done⟩ := bind_eq_ok.mp done
        cases done
        exact (Bool.or_false _).symm

/-- What comes of one datagram, whatever memory held. -/
inductive Alike (x y : Except Fault (Bool × Option Framed)) : Prop where
  | same (eq : x = y)
  | dropped (auth auth' : Bool) (left : x = .ok (auth, none)) (right : y = .ok (auth', none))
  | framed (auth : Bool) (f f' : Framed) (data : Bytes) (left : x = .ok (auth, some f)) (right : y = .ok (auth, some f'))
      (frag : f.frag = f'.frag) (has : f.Has data) (has' : f'.Has data)

/-- From `offset` on only the datagram matters. The parser of ss-local begins behind three bytes,
which the datagram has, and sees the same bytes in both buffers; ss-tunnel and ss-redir put a
header in front that the datagram does not decide. -/
theorem frame_alike (auth : Bool) (dst : Option Sockaddr) (stale stale' : Nat → UInt8) (datagram : Bytes)
    (long : stale = stale' ∨ 3 ≤ datagram.length) : Alike (frame C auth dst stale datagram) (frame C auth dst stale' datagram) := by
  rcases long with rfl | long
  · exact .same rfl
  obtain ⟨buf, received, holds, size⟩ := recvFrom_spec stale datagram
  obtain ⟨buf', received', holds', size'⟩ := recvFrom_spec stale' datagram
  have len := holds.len
  have len' := holds'.len
  have room := holds.room
  have short : (datagram.take maxUdpPacketSize).length ≤ 65507 := List.length_take_le _ _
  simp only [maxUdpPacketSize] at size size'
  have three : 3 ≤ (datagram.take maxUdpPacketSize).length := by
    rw [List.length_take]
    exact Nat.le_min.mpr ⟨by decide, long⟩
  rw [frame, frame, received, received', ok_bind, ok_bind]
  cases front : C.front with
  | socks =>
    dsimp only
    have frag : buf.byte 2 = buf'.byte 2 := by
      rw [recvFrom_byte received (by decide), recvFrom_byte received' (by decide), List.getD_eq_getElem _ _ (by omega),
        List.getD_eq_getElem _ _ (by omega)]
    obtain ⟨x, at_⟩ : ∃ x, buf'.byte 2 = .ok x := ⟨_, recvFrom_byte received' (by decide)⟩
    rw [frag, at_, ok_bind, ok_bind, sizeSub_of_le (by omega), sizeSub_of_le (by omega), len, len']
    by_cases empty : (datagram.take maxUdpPacketSize).length = 3
    · -- nothing is said to be in use
      obtain ⟨t, parsed, -, eq⟩ := parse_total C.text buf 3 0 (by omega) (by omega)
      obtain ⟨t', parsed', -, eq'⟩ := parse_total C.text buf' 3 0 (by omega) (by omega)
      rw [show (datagram.take maxUdpPacketSize).length - 3 = 0 by omega, eq, eq']
      cases parse_nothing eq
      cases parse_nothing eq'
      exact .dropped _ _ rfl rfl
    · have same : parseUdprealyHeader C.text buf 3 ((datagram.take maxUdpPacketSize).length - 3) =
          parseUdprealyHeader C.text buf' 3 ((datagram.take maxUdpPacketSize).length - 3) := by
        refine parse_congr C.text (by omega) ?_ (by omega) (by omega) (by omega) (by omega)
        rw [holds.window (by omega), holds'.window (by omega)]
      obtain ⟨t, parsed, -, eq⟩ := parse_total C.text buf' 3 ((datagram.take maxUdpPacketSize).length - 3) (by omega) (by omega)
      rw [same, eq]
      cases parsed with
      | none => exact .same rfl
      | some p =>
        obtain ⟨-, -, -, -, -, inside, -⟩ := parse_some eq
        have front : buf.read 3 p.len = buf'.read 3 p.len := by
          rw [Buffer.read_ok (by omega), Buffer.read_ok (by omega), holds.window (by omega), holds'.window (by omega)]
        obtain ⟨addrHeader, read⟩ : ∃ bs, buf'.read 3 p.len = .ok bs := ⟨_, Buffer.read_ok (by omega)⟩
        have whole := List.take_append_drop 3 (datagram.take maxUdpPacketSize)
        have before : ((datagram.take maxUdpPacketSize).take 3).length = 3 := by
          rw [List.length_take]
          omega
        rw [ok_bind, ok_bind]
        dsimp only
        rw [front, read, ok_bind, ok_bind]
        rw [← whole] at holds holds'
        exact .framed _ _ _ _ rfl rfl rfl ⟨_, before, holds⟩ ⟨_, before, holds'⟩
  | tunnel host port =>
    dsimp only
    cases header : tunnelHeader P C.text host port with
    | error x => exact .same rfl
    | ok addrHeader =>
      obtain ⟨-, small⟩ := tunnelHeader_length header
      obtain ⟨b, done, has⟩ := prepend_spec P.junk holds addrHeader (by omega)
      obtain ⟨b', done', has'⟩ := prepend_spec P.junk holds' addrHeader (by omega)
      rw [ok_bind, ok_bind, done, done']
      exact .framed auth _ _ _ rfl rfl rfl ⟨[], rfl, has⟩ ⟨[], rfl, has'⟩
  | redir =>
    cases dst with
    | none => exact .same rfl
    | some dst =>
      dsimp only
      split
      · exact .same rfl
      · have small := length_construct dst
        obtain ⟨b, done, has⟩ := prepend_spec P.junk holds (constructUdprealyHeader dst) (by omega)
        obtain ⟨b', done', has'⟩ := prepend_spec P.junk holds' (constructUdprealyHeader dst) (by omega)
        rw [done, done']
        exact .framed auth _ _ _ rfl rfl rfl ⟨[], rfl, has⟩ ⟨[], rfl, has'⟩

/-! ## Every datagram as the first -/

/-- What becomes of a datagram: the packet for the server, if it is not dropped. -/
def outcome (C : Config P) (s : State) (dst : Option Sockaddr) (stale : Nat → UInt8) (datagram iv : Bytes) :
    Except Fault (Option Bytes) := do
  let (auth, framed) ← frame C s.auth dst stale datagram
  match framed with
  | none => pure none
  | some f =>
    if f.frag ≠ 0 then pure none
    else do
      let (packet, _) ← encode C auth s.encTmp f iv
      pure packet

/-- Authentication is on, or the event does not turn it on. -/
def quiet (C : Config P) (_ : State) : Event → Prop
  | .serverRecv _ _ datagram stale _ _ => C.auth = true ∨ flagSeen C stale datagram = false
  | _ => True

/-- The setting is in force, and the scratch buffer has not grown if there are tags. -/
structure Settled (C : Config P) (s : State) : Prop where
  auth : s.auth = C.auth
  small : C.auth = true → C.E.method ≠ .table → s.encTmp.array.length ≤ maxUdpPacketSize

theorem settled_start (C : Config P) : Settled C (start C) where
  auth := rfl
  small _ _ := Nat.zero_le _

/-- What was sent is what becomes of the datagram. -/
theorem Fired.outcome {s s' : State} {src : Sockaddr} {dst : Option Sockaddr} {datagram iv : Bytes} {stale : Nat → UInt8}
    {socket : Bool} (fired : Fired C s (.serverRecv src dst datagram stale iv socket) s') (more : s'.sent ≠ s.sent) :
    ∃ packet, Local.outcome C s dst stale datagram iv = .ok (some packet) ∧ s'.sent = s.sent ++ [packet] := by
  cases fired with
  | dropped => exact absurd rfl more
  | ignored => exact absurd rfl more
  | relayed _ _ _ _ _ _ auth f framed whole sessions moved packet encTmp encoded =>
    cases packet with
    | none => exact absurd (List.append_nil _) more
    | some packet =>
      refine ⟨packet, ?_, rfl⟩
      rw [Local.outcome, framed, ok_bind]
      dsimp only
      rw [if_neg (by simp [whole]), encoded]
      rfl

/-- A buffer of the usual size overflows if a fresh one does. -/
theorem overflows_usual {auth : Bool} {encTmp : Buffer} {n : Nat} (small : auth = true → C.E.method ≠ .table →
      encTmp.array.length ≤ maxUdpPacketSize) : overflows C auth encTmp n ↔ overflows C auth {} n := by
  unfold overflows sealRoom
  refine and_congr_right fun on => and_congr_right fun table => ?_
  have usual := small on table
  simp only [maxUdpPacketSize, List.length_nil] at usual ⊢
  omega

theorem Settled.fired {s s' : State} {e : Event} (lawful : P.evp.Lawful) (settled : Settled C s) (fired : Fired C s e s')
    (on : enabled C s e = true) (may : quiet C s e) : Settled C s' := by
  have auth_ : ∀ auth' src dst datagram stale iv socket framed, e = .serverRecv src dst datagram stale iv socket →
      frame C s.auth dst stale datagram = .ok (auth', framed) → auth' = C.auth := by
    rintro auth' src dst datagram stale iv socket framed rfl done
    rw [frame_auth done, settled.auth]
    rcases may with on | unseen
    · rw [on, Bool.true_or]
    · rw [unseen, Bool.or_false]
  cases fired with
  | dropped src dst datagram stale iv socket auth framed =>
    exact ⟨auth_ _ _ _ _ _ _ _ _ rfl framed, settled.small⟩
  | ignored src dst datagram stale iv socket auth f framed =>
    exact ⟨auth_ _ _ _ _ _ _ _ _ rfl framed, settled.small⟩
  | relayed src dst datagram stale iv socket auth f framed whole sessions moved packet encTmp encoded =>
    have ivLen : iv.length = C.E.ivLen := of_decide_eq_true on
    have setting := auth_ _ _ _ _ _ _ _ _ rfl framed
    refine ⟨setting, fun on' table => ?_⟩
    have usual := settled.small on' table
    rcases frame_some framed with ⟨short, room⟩ | ⟨data, has, some_, length⟩
    · rw [encode, strip_short short room] at encoded
      cases encoded
    · have cut : (datagram.take maxUdpPacketSize).length ≤ 65507 := List.length_take_le _ _
      obtain ⟨overflow, grow⟩ := encode_spec (C := C) lawful has some_ (by omega) auth s.encTmp ivLen
      by_cases full : overflows C auth s.encTmp data.length
      · rw [overflow full] at encoded
        cases encoded
      · obtain ⟨encTmp', encoded', room⟩ := grow full
        cases encoded.symm.trans encoded'
        have fits : ¬ sealRoom C.E s.encTmp data.length maxUdpPacketSize < C.E.ivLen + data.length + onetimeauthBytes :=
          fun less => full ⟨setting.trans on', table, less⟩
        simp only [sealRoom, onetimeauthBytes, maxUdpPacketSize] at fits room usual ⊢
        omega
  | answered => exact ⟨settled.auth, settled.small⟩
  | expired => exact ⟨settled.auth, settled.small⟩

/-- Until one type byte with the flag is seen, a datagram is treated as the first one. -/
theorem outcome_alike (lawful : P.evp.Lawful) {s s' : State} (settled : Settled C s) (settled' : Settled C s')
    (dst : Option Sockaddr) (stale stale' : Nat → UInt8) (datagram : Bytes) {iv : Bytes} (ivLen : iv.length = C.E.ivLen)
    (long : stale = stale' ∨ 3 ≤ datagram.length)
    (fits : (C.auth = true ∨ flagSeen C stale datagram = false) ∨ datagram.length + 512 ≤ maxUdpPacketSize) :
    outcome C s dst stale datagram iv = outcome C s' dst stale' datagram iv := by
  have cut : (datagram.take maxUdpPacketSize).length ≤ 65507 := List.length_take_le _ _
  -- whether the scratch buffer overflows does not depend on what was sent before
  have alike : ∀ auth f f' data, frame C s.auth dst stale datagram = .ok (auth, some f) → f.Has data → f'.Has data → data ≠ [] →
      data.length ≤ (datagram.take maxUdpPacketSize).length + 256 →
      (do let (packet, _) ← encode C auth s.encTmp f iv; pure packet : Except Fault (Option Bytes)) =
        (do let (packet, _) ← encode C auth s'.encTmp f' iv; pure packet) := by
    intro auth f f' data framed has has' some_ length
    have full : ∀ t, Settled C t → (overflows C auth t.encTmp data.length ↔ overflows C auth {} data.length) := by
      intro t settled
      by_cases on : C.auth = true
      · exact overflows_usual fun _ table => settled.small on table
      · rcases fits with (on' | unseen) | room
        · exact absurd on' on
        · -- no tags
          have off : auth = false := by
            rw [frame_auth framed, ‹Settled C s›.auth, unseen, Bool.or_false]
            exact Bool.eq_false_iff.mpr on
          exact iff_of_false (fun exceeds => Bool.false_ne_true (off.symm.trans exceeds.1)) fun exceeds =>
            Bool.false_ne_true (off.symm.trans exceeds.1)
        · have ivSmall := C.E.ivLen_le
          have inside : (datagram.take maxUdpPacketSize).length ≤ datagram.length := List.length_take_le' _ _
          have none_ : ∀ tmp, ¬ overflows C auth tmp data.length := by
            rintro tmp ⟨-, -, full⟩
            simp only [sealRoom, onetimeauthBytes, maxUdpPacketSize] at full room inside length
            omega
          exact iff_of_false (none_ _) (none_ _)
    obtain ⟨overflow, grow⟩ := encode_spec (C := C) lawful has some_ (by omega) auth s.encTmp ivLen
    obtain ⟨overflow', grow'⟩ := encode_spec (C := C) lawful has' some_ (by omega) auth s'.encTmp ivLen
    by_cases exceeds : overflows C auth {} data.length
    · rw [overflow ((full s settled).mpr exceeds), overflow' ((full s' settled').mpr exceeds)]
    · obtain ⟨encTmp, encoded, -⟩ := grow (mt (full s settled).mp exceeds)
      obtain ⟨encTmp', encoded', -⟩ := grow' (mt (full s' settled').mp exceeds)
      rw [encoded, encoded']
      rfl
  have auths : s.auth = s'.auth := settled.auth.trans settled'.auth.symm
  rw [outcome, outcome, ← auths]
  rcases frame_alike (C := C) s.auth dst stale stale' datagram long with eq | ⟨auth, auth', left, right⟩ |
    ⟨auth, f, f', data, left, right, frag, has, has'⟩
  · rw [← eq]
    cases framed : frame C s.auth dst stale datagram with
    | error x => rfl
    | ok r =>
      obtain ⟨auth, f⟩ := r
      cases f with
      | none => rfl
      | some f =>
        rw [ok_bind, ok_bind]
        dsimp only
        split
        · rfl
        · rcases frame_some framed with ⟨short, room⟩ | ⟨data, has, some_, length⟩
          · rw [encode, encode, strip_short short room]
            rfl
          · exact alike auth f f data framed has has some_ length
  · rw [left, right]
    rfl
  · rw [left, right, ok_bind, ok_bind]
    dsimp only
    rw [frag]
    split
    · rfl
    · rcases frame_some left with ⟨short, -⟩ | ⟨data', own, some_, length⟩
      · obtain ⟨before, offset, holds⟩ := has
        have len := holds.len
        rw [List.length_append] at len
        omega
      · cases has.unique own
        exact alike auth f f' data left has has' some_ length

/-! ## Datagrams with a known header -/

/-- A SOCKS5 datagram for a destination. -/
theorem frame_socks (front : C.front = .socks) (auth : Bool) (dst : Option Sockaddr) (stale : Nat → UInt8) (x y frag : UInt8)
    {t : UInt8} {h : Header} {bs : Bytes} (wrote : Wrote t h bs) (payload : Bytes)
    (fits : 3 + bs.length + payload.length ≤ maxUdpPacketSize) :
    ∃ f, frame C auth dst stale (x :: y :: frag :: (bs ++ payload)) = .ok (auth || t &&& 0x10 != 0, some f) ∧ f.frag = frag ∧
      f.Has (bs ++ payload) ∧ f.addrHeader = bs := by
  obtain ⟨buf, received, holds, size⟩ := recvFrom_spec stale (x :: y :: frag :: (bs ++ payload))
  have whole : (x :: y :: frag :: (bs ++ payload)).take maxUdpPacketSize = [x, y, frag] ++ (bs ++ payload) := by
    refine List.take_of_length_le ?_
    simp only [List.length_cons, List.length_append]
    omega
  rw [whole] at holds
  have len := holds.len
  have room := holds.room
  simp only [List.length_append, List.length_cons, List.length_nil] at len room
  have parsedLen := headerParsed_len C.text wrote.valid
  have bsLen : (headerParsed C.text h).len = bs.length := by
    rw [parsedLen, wrote.bytes, List.length_cons, List.length_append, wrote.valid.2]
    omega
  have second : buf.byte 2 = .ok frag := holds.byte [x, y] frag (bs ++ payload)
  have header : buf.read 3 bs.length = .ok bs := holds.read [x, y, frag] bs payload
  obtain ⟨inside, at_⟩ := Buffer.read_eq_ok.mp header
  have read : parseUdprealyHeader C.text buf 3 (sizeSub buf.len 3) = .ok (t &&& 0x10 != 0, some (headerParsed C.text h)) := by
    rw [sizeSub_of_le (by omega)]
    refine parse_header (t := t) (h := h) ?_ (by omega) (by omega)
    rw [bsLen, ← at_]
    exact wrote
  refine ⟨{ buf, offset := 3, addrHeader := bs, frag }, ?_, rfl, ⟨[x, y, frag], rfl, holds⟩, rfl⟩
  rw [frame, received, ok_bind, front]
  dsimp only
  rw [second, ok_bind, read, ok_bind]
  dsimp only
  rw [bsLen, header, ok_bind]
  rfl

/-- A type byte alone is refused, but its flag is seen. -/
theorem frame_type (front : C.front = .socks) (auth : Bool) (dst : Option Sockaddr) (stale : Nat → UInt8) (t : UInt8) :
    frame C auth dst stale [0, 0, 0, t] = .ok (auth || t &&& 0x10 != 0, none) := by
  obtain ⟨buf, received, holds, size⟩ := recvFrom_spec stale [0, 0, 0, t]
  have len : buf.len = 4 := holds.len
  simp only [maxUdpPacketSize] at size
  obtain ⟨t', parsed, first, eq⟩ := parse_total C.text buf 3 1 (by omega) (by omega)
  have second : buf.byte 2 = .ok 0 := holds.byte [0, 0] 0 [t]
  rw [holds.window (Nat.le_refl 4)] at first
  cases first
  have refused : parsed = none := by
    cases parsed with
    | none => rfl
    | some p =>
      obtain ⟨t, h, wrote, rfl, -, inside, -⟩ := parse_some eq
      have long := headerParsed_len C.text wrote.valid
      omega
  cases refused
  rw [frame, received, ok_bind, front]
  dsimp only
  rw [second, ok_bind, len, sizeSub_of_le (by decide), eq, ok_bind]
  rfl

/-- It is dropped. -/
theorem fire_type (front : C.front = .socks) (s : State) (src : Sockaddr) (t : UInt8) (iv : Bytes) :
    fire C s (.serverRecv src none [0, 0, 0, t] (fun _ => 0) iv true) = .ok { s with auth := s.auth || t &&& 0x10 != 0 } := by
  rw [fire, serverRecvCb, frame_type front]
  rfl

end

end Shadowsocks.Udp.Local

namespace Shadowsocks.Udp.Remote
set_option autoImplicit false
open Lib

section
variable {P : Platform} {C : Config P}

/-- What a datagram asks ss-server for, if it is accepted. -/
def request (C : Config P) (s : State) (stale : Nat → UInt8) (datagram : Bytes) : Except Fault (Option Request) := do
  let (_, _, request) ← receive C s.auth s.decTmp stale datagram
  pure request

/-- The table ciphers have no authentication; else it is on, or the packet in the datagram does
not turn it on. -/
def quiet (C : Config P) (_ : State) : Event → Prop
  | .serverRecv _ datagram _ _ => C.E.method = .table ∨ C.auth = true ∨
      ∀ packet, openPacket C.E C.auth (datagram.take maxUdpPacketSize) = some packet → flagged packet = false
  | _ => True

/-- Whatever memory holds, the packet in the datagram decides. -/
theorem request_spec (lawful : P.evp.Lawful) (s : State) (stale : Nat → UInt8) (datagram : Bytes) :
    request C s stale datagram =
      .ok ((openPacket C.E s.auth (datagram.take maxUdpPacketSize)).bind (readRequest C.text)) := by
  unfold request
  cases opened : openPacket C.E s.auth (datagram.take maxUdpPacketSize) with
  | none =>
    obtain ⟨decTmp, received⟩ := receive_closed s.decTmp stale lawful opened
    rw [received]
    rfl
  | some packet =>
    by_cases empty : packet = []
    · cases empty
      obtain ⟨flag, decTmp, received⟩ := receive_empty s.decTmp stale lawful opened
      rw [received, Option.bind_some, readRequest_nil]
      rfl
    · obtain ⟨decTmp, received, -⟩ := receive_opened s.decTmp stale lawful opened empty
      rw [received]
      rfl

/-- What a datagram does to the mode. -/
theorem receive_auth (lawful : P.evp.Lawful) {auth auth' : Bool} {decTmp decTmp' : Buffer} {stale : Nat → UInt8} {datagram : Bytes}
    {r : Option Request} (table : C.E.method ≠ .table) (received : receive C auth decTmp stale datagram = .ok (auth', decTmp', r)) :
    auth' = auth ∨ ∃ packet, openPacket C.E auth (datagram.take maxUdpPacketSize) = some packet ∧ auth' = (auth || flagged packet) := by
  cases opened : openPacket C.E auth (datagram.take maxUdpPacketSize) with
  | none =>
    obtain ⟨decTmp'', received'⟩ := receive_closed decTmp stale lawful opened
    cases received'.symm.trans received
    exact .inl rfl
  | some packet =>
    have some_ := openPacket_ne_nil lawful table opened
    obtain ⟨decTmp'', received', -⟩ := receive_opened decTmp stale lawful opened some_
    cases received'.symm.trans received
    exact .inr ⟨packet, rfl, rfl⟩

/-- The setting is in force where it matters. -/
def Settled (C : Config P) (s : State) : Prop := C.E.method = .table ∨ s.auth = C.auth

theorem Routed.auth {s s' : State} {src : Sockaddr} {r : Request} {io : Io} (routed : Routed s src r io s') : s'.auth = s.auth := by
  cases routed with
  | asks => unfold State.ask; split <;> rfl
  | queries => unfold State.ask; split <;> rfl
  | _ => rfl

theorem Resolved.auth {s s' : State} {q : Query} {addr : Sockaddr} {io : Io} (resolved : Resolved s q addr io s') :
    s'.auth = s.auth := by
  cases resolved <;> rfl

theorem Settled.fired {s s' : State} {e : Event} (lawful : P.evp.Lawful) (settled : Settled C s) (fired : Fired C s e s')
    (may : quiet C s e) : Settled C s' := by
  rcases settled with table | same
  · exact .inl table
  by_cases table : C.E.method = .table
  · exact .inl table
  have received_ : ∀ auth src datagram stale io decTmp r, e = .serverRecv src datagram stale io →
      receive C s.auth s.decTmp stale datagram = .ok (auth, decTmp, r) → auth = C.auth := by
    rintro auth src datagram stale io decTmp r rfl received
    rcases receive_auth lawful table received with kept | ⟨packet, opened, rfl⟩
    · exact kept.trans same
    · rw [same] at opened ⊢
      rcases may with isTable | on | clear
      · exact absurd isTable table
      · rw [on, Bool.true_or]
      · rw [clear packet opened, Bool.or_false]
  cases fired with
  | dropped src datagram stale io auth decTmp received => exact .inr (received_ _ _ _ _ _ _ _ rfl received)
  | routed src datagram stale io auth decTmp r received s' outcome =>
    exact .inr (outcome.auth.trans (received_ _ _ _ _ _ _ _ rfl received))
  | unanswered => exact .inr same
  | answered _ _ _ _ _ outcome => exact .inr (outcome.auth.trans same)
  | replied => exact .inr same
  | expired => exact .inr same

theorem request_alike (lawful : P.evp.Lawful) {s s' : State} (settled : Settled C s) (settled' : Settled C s') (stale stale' : Nat → UInt8)
    (datagram : Bytes) : request C s stale datagram = request C s' stale' datagram := by
  have same : openPacket C.E s.auth (datagram.take maxUdpPacketSize) = openPacket C.E s'.auth (datagram.take maxUdpPacketSize) := by
    by_cases table : C.E.method = .table
    · rw [openPacket, openPacket, if_pos table, if_pos table]
    · rw [settled.resolve_left table, settled'.resolve_left table]
  rw [request_spec lawful, request_spec lawful, same]

end

end Shadowsocks.Udp.Remote

namespace Shadowsocks.Udp
set_option autoImplicit false
open Lib

/-- While no datagram turns authentication on, a datagram is treated in one way: whatever
came before, ss-server reads the same request in it, and the relay of the client makes the
same packet of it. -/
theorem auth_alone {P : Platform} (lawful : P.evp.Lawful) (C : Remote.Config P) (L : Local.Config P) :
    (∀ s s', (Remote.machine C).Reach (Remote.quiet C) (Remote.start C) s →
      (Remote.machine C).Reach (Remote.quiet C) (Remote.start C) s' → ∀ stale stale' datagram,
      Remote.request C s stale datagram = Remote.request C s' stale' datagram) ∧
    (∀ s s', (Local.machine L).Reach (Local.quiet L) (Local.start L) s →
      (Local.machine L).Reach (Local.quiet L) (Local.start L) s' → ∀ dst stale stale' datagram iv, iv.length = L.E.ivLen →
      (stale = stale' ∨ 3 ≤ datagram.length) →
      (L.auth = true ∨ Local.flagSeen L stale datagram = false) ∨ datagram.length + 512 ≤ maxUdpPacketSize →
      Local.outcome L s dst stale datagram iv = Local.outcome L s' dst stale' datagram iv) := by
  constructor
  · intro s s' run run' stale stale' datagram
    have settled : ∀ {s}, (Remote.machine C).Reach (Remote.quiet C) (Remote.start C) s → Remote.Settled C s := by
      intro s run
      refine (run.invariant (fun s => s.sessions.Sound Remote.maxUdpConnNum ∧ Remote.Settled C s)
        ⟨Sessions.sound_init _, .inr rfl⟩ ?_).2
      rintro s e s' ⟨sound, settled⟩ on may done
      have fired := Remote.fire_cases sound on done
      exact ⟨fired.sound sound, settled.fired lawful fired may⟩
    exact Remote.request_alike lawful (settled run) (settled run') stale stale' datagram
  · intro s s' run run' dst stale stale' datagram iv ivLen long fits
    have settled : ∀ {s}, (Local.machine L).Reach (Local.quiet L) (Local.start L) s → Local.Settled L s := by
      intro s run
      refine (run.invariant (fun s => s.sessions.Sound Local.maxUdpConnNum ∧ Local.Settled L s)
        ⟨Sessions.sound_init _, Local.settled_start L⟩ ?_).2
      rintro s e s' ⟨sound, settled⟩ on may done
      have fired := Local.fire_cases sound on done
      exact ⟨fired.sound sound, settled.fired lawful fired on may⟩
    exact Local.outcome_alike lawful (settled run) (settled run') dst stale stale' datagram ivLen long fits

/-! ## The first datagram -/

section
variable {P : Platform}

/-- A fresh ss-local seals the first datagram that it gets, with the flag that belongs to its
tag. -/
theorem Local.serverRecvCb_start (L : Local.Config P) (lawful : P.evp.Lawful) (front : L.front = .socks) {t : UInt8} {h : Header}
    {bs : Bytes} (wrote : Wrote t h bs) (clear : flagged bs = false) (payload : Bytes) (small : 3 + bs.length + payload.length ≤ maxUdpPacketSize)
    (fits : packetSize L.E L.auth (bs.length + payload.length) ≤ maxUdpPacketSize) (src : Sockaddr) (dst : Option Sockaddr)
    (stale : Nat → UInt8) {iv : Bytes} (ivLen : iv.length = L.E.ivLen) :
    ∃ s, Local.fire L (Local.start L) (.serverRecv src dst ([0, 0, 0] ++ (bs ++ payload)) stale iv true) = .ok s ∧
      s.sent = [sealPacket L.E L.auth iv (Local.flagOn L.auth (bs ++ payload))] ∧
      ∃ ctx, s.sessions.heap.cell 0 = some ctx ∧ ctx.started = true ∧ ctx.srcAddr = src := by
  obtain ⟨f, framed, whole, has, header⟩ := Local.frame_socks (C := L) front L.auth dst stale 0 0 0 wrote payload small
  have flag : (t &&& 0x10 != 0) = false := by rw [wrote.bytes] at clear; exact clear
  rw [flag, Bool.or_false] at framed
  have some_ : bs ++ payload ≠ [] := by
    rw [wrote.bytes]
    exact List.cons_ne_nil _ _
  have room : ¬ Local.overflows L L.auth {} (bs ++ payload).length := by
    rintro ⟨on, table, full⟩
    rw [packetSize, if_neg table, if_pos on] at fits
    rw [List.length_append, sealRoom] at full
    simp only [maxUdpPacketSize] at fits full
    omega
  obtain ⟨encTmp, encoded, -⟩ := (Local.encode_spec (C := L) lawful has some_
    (by rw [List.length_append]; simp only [maxUdpPacketSize] at small; omega) L.auth {} ivLen).2 room
  have sound : (Local.start L).sessions.Sound Local.maxUdpConnNum := Sessions.sound_init _
  obtain ⟨sessions, admitted, entered⟩ := sound.enter (r := { af := L.remoteAf, addrHeader := f.addrHeader, srcAddr := src })
    (by decide) (List.not_mem_nil (a := RemoteCtx.key _))
  refine ⟨{ sessions, auth := L.auth, encTmp, sent := [sealPacket L.E L.auth iv (Local.flagOn L.auth (bs ++ payload))] }, ?_, rfl, ?_⟩
  · rw [Local.fire, Local.serverRecvCb, show [0, 0, 0] ++ (bs ++ payload) = 0 :: 0 :: 0 :: (bs ++ payload) from rfl,
      show (Local.start L).auth = L.auth from rfl, framed, ok_bind]
    dsimp only
    rw [show (Local.start L).sessions.lookupClient L.remoteAf src = .ok (none, (Local.start L).sessions) from sound.lookupClient _ _, ok_bind]
    dsimp only
    rw [RemoteCtx.key] at admitted
    rw [if_neg (by simp [whole]), if_pos rfl, admitted, ok_bind, Local.relay]
    dsimp only
    rw [show (Local.start L).encTmp = {} from rfl, encoded, ok_bind]
    dsimp only
    rw [Sessions.deref_ok entered.here]
    rfl
  · exact ⟨_, entered.here, rfl, rfl⟩

/-- A client without a session gets one, and the payload is sent. -/
theorem Remote.route_fresh {s : Remote.State} (sound : s.sessions.Sound Remote.maxUdpConnNum) (src : Sockaddr)
    {r : Remote.Request} (fresh : hashKey r.dst.family src ∉ s.sessions.cache.keys) (inet : r.dst.IsInet) :
    ∃ s' ctx, Remote.route s src r {} = .ok s' ∧ s'.sent = s.sent ++ [{ addrHeader := r.addrHeader, payload := r.payload, dst := r.dst }] ∧
      s'.sessions.heap.cell s.sessions.heap.next = some ctx ∧ ctx.started = true ∧ ctx.srcAddr = src ∧ ctx.af = r.dst.family := by
  obtain ⟨sessions, admitted, entered⟩ := sound.enter
    (r := { af := r.dst.family, addrHeader := r.addrHeader, srcAddr := src, dstAddr := r.dst, answered := r.addrHeader }) (by decide) fresh
  have missed : s.sessions.lookupClient r.dst.family src = .ok (none, s.sessions) := by
    rw [sound.lookupClient, Sessions.lookup, cacheLookup_miss fresh]
  refine ⟨{ s with sessions }.send r.addrHeader r.payload r.dst, _, ?_, rfl, entered.here, rfl, rfl, rfl⟩
  rw [Remote.route, missed, ok_bind]
  dsimp only
  rw [if_pos inet, if_pos rfl, if_pos rfl, Remote.State.settle, if_pos rfl, Sessions.newRemote, Sessions.modify]
  dsimp only [Remote.State.send]
  rw [Heap.modify_new]
  change (s.sessions.newRemote _).deref _ >>= _ = _
  rw [Sessions.deref_ok Heap.cell_new_self, ok_bind]
  dsimp only
  rw [Sessions.newRemote] at admitted
  rw [admitted, ok_bind]
  rfl

/-- A fresh ss-server sends the payload of the first packet to the address in its header. -/
theorem Remote.serverRecvCb_start (S : Remote.Config P) (lawful : P.evp.Lawful) {t : UInt8} {h : Header} (valid : h.Valid)
    (typ : t &&& 0xf = h.addr.atyp) (inet : (headerParsed S.text h).storage.IsInet) (payload : Bytes) {packet : Bytes}
    (opened : openPacket S.E S.auth packet = some (t :: (h.addr.body ++ (h.port ++ payload)))) (fits : packet.length ≤ maxUdpPacketSize)
    (src : Sockaddr) (stale : Nat → UInt8) :
    ∃ s ctx addrHeader, Remote.fire S (Remote.start S) (.serverRecv src packet stale {}) = .ok s ∧
      s.sent = [{ addrHeader, payload, dst := (headerParsed S.text h).storage }] ∧ s.sessions.heap.cell 0 = some ctx ∧
      ctx.started = true ∧ ctx.srcAddr = src ∧ ctx.af = (headerParsed S.text h).storage.family := by
  obtain ⟨decTmp, received, -⟩ := Remote.receive_opened (C := S) {} stale lawful
    (by rw [List.take_of_length_le fits]; exact opened) (List.cons_ne_nil _ _)
  rw [Remote.readRequest_header S.text payload valid typ] at received
  obtain ⟨s, ctx, routed, sent, here, on, client, af⟩ := Remote.route_fresh
    (s := { Remote.start S with
      auth := S.auth || flagged (t :: (h.addr.body ++ (h.port ++ payload)))
      decTmp
      asked := [(src, t :: (h.addr.body ++ h.port))] })
    (r := Remote.headerRequest S.text t h payload) (Sessions.sound_init _) src List.not_mem_nil inet
  refine ⟨s, ctx, t :: (h.addr.body ++ h.port), ?_, sent, here, on, client, af⟩
  rw [Remote.fire, Remote.serverRecvCb, show (Remote.start S).auth = S.auth from rfl, show (Remote.start S).decTmp = {} from rfl,
    received, ok_bind]
  exact routed

end

/-! ## Settings without authentication -/

/-- An ss-local without authentication. -/
def localDemo : Local.Config rc4Platform where
  E := unsortedTable
  text := Remote.demo.text
  auth := false
  front := .socks
  remoteAf := afInet

/-- A datagram for `10.0.0.5`. -/
def demoDatagram : Bytes := [0, 0, 0, 1, 10, 0, 0, 5, 0, 53, 7]

/-- The same with a cipher that could authenticate. -/
def salsaLocal : Local.Config rc4Platform := { localDemo with E := salsa }

/-- An ss-server without authentication. -/
def salsaServer : Remote.Config rc4Platform := { Remote.demo with E := salsa }

/-- What `demoDatagram` becomes for the server. -/
def demoPacket : Bytes := sealPacket salsa false (List.replicate 8 0) [1, 10, 0, 0, 5, 0, 53, 7]

theorem openPacket_demoPacket : openPacket salsa false demoPacket = some [1, 10, 0, 0, 5, 0, 53, 7] :=
  openPacket_sealPacket_flagged rc4_lawful (fun table => absurd (show Method.salsa20 = .table from table) (by decide)) (by decide)
    (by decide) (show flagged [1, 10, 0, 0, 5, 0, 53, 7] = false by decide) nofun

/-- Both relays have passed on a datagram that carries no flag; the next one is treated as if it were the first. -/
theorem auth_alone_relayed :
    (∃ s, (Remote.machine salsaServer).Reach (Remote.quiet salsaServer) (Remote.start salsaServer) s ∧ s.sent.length = 1 ∧
      ∀ stale stale' datagram, Remote.request salsaServer s stale datagram =
        Remote.request salsaServer (Remote.start salsaServer) stale' datagram) ∧
    ∃ s, (Local.machine salsaLocal).Reach (Local.quiet salsaLocal) (Local.start salsaLocal) s ∧ s.sent.length = 1 ∧
      ∀ iv, iv.length = 8 → Local.outcome salsaLocal s none (fun _ => 1) demoDatagram iv =
        Local.outcome salsaLocal (Local.start salsaLocal) none (fun _ => 2) demoDatagram iv := by
  obtain ⟨alone, alone'⟩ := auth_alone rc4_lawful salsaServer salsaLocal
  have size : demoPacket.length = 16 := length_sealPacket rc4_lawful false (by decide) _
  have short : demoPacket.length ≤ maxUdpPacketSize := by rw [size]; decide
  constructor
  · obtain ⟨s, _, header, fired, sent, -⟩ := Remote.serverRecvCb_start salsaServer rc4_lawful (h := ⟨.ipv4 [10, 0, 0, 5], [0, 53]⟩)
      (by decide) (by decide) (.inl rfl) [7] openPacket_demoPacket short .zero (fun _ => 0)
    have run : (Remote.machine salsaServer).Reach (Remote.quiet salsaServer) (Remote.start salsaServer) s := by
      refine .step (e := .serverRecv .zero demoPacket (fun _ => 0) {}) .refl rfl (.inr (.inr fun packet opened => ?_)) fired
      rw [List.take_of_length_le short] at opened
      cases openPacket_demoPacket.symm.trans opened
      decide
    exact ⟨s, run, by rw [sent]; rfl, alone s _ run .refl⟩
  · have wrote : Wrote 1 ⟨.ipv4 [10, 0, 0, 5], [0, 53]⟩ [1, 10, 0, 0, 5, 0, 53] := ⟨by decide, by decide, rfl⟩
    obtain ⟨s, fired, sent, -⟩ := Local.serverRecvCb_start salsaLocal rc4_lawful rfl wrote (by decide) [7] (by decide) (by decide)
      .zero none (fun _ => 0) (show (List.replicate 8 0 : Bytes).length = salsaLocal.E.ivLen by decide)
    have run : (Local.machine salsaLocal).Reach (Local.quiet salsaLocal) (Local.start salsaLocal) s :=
      .step (e := .serverRecv .zero none demoDatagram (fun _ => 0) (List.replicate 8 0) true) .refl rfl (.inr (by decide)) fired
    exact ⟨s, run, by rw [sent]; rfl, fun iv ivLen => alone' s _ run .refl none _ _ demoDatagram iv ivLen (.inr (by decide)) (.inr (by decide))⟩

/-- A datagram that is refused turns authentication on for the next one. -/
theorem auth_sticks :
    ¬ ∀ s s', (Local.machine localDemo).Reach (fun _ _ => True) (Local.start localDemo) s →
      (Local.machine localDemo).Reach (fun _ _ => True) (Local.start localDemo) s' → ∀ dst stale datagram iv,
      iv.length = localDemo.E.ivLen → Local.outcome localDemo s dst stale datagram iv = Local.outcome localDemo s' dst stale datagram iv := by
  intro claim
  have run : (Local.machine localDemo).Reach (fun _ _ => True) (Local.start localDemo) _ :=
    .step (e := .serverRecv .zero none [0, 0, 0, 0x1f] (fun _ => 0) [] true) .refl rfl trivial (Local.fire_type rfl _ _ _ _)
  have alike := claim _ _ .refl run none (fun _ => 0) demoDatagram [] rfl
  have wrote : Wrote 1 ⟨.ipv4 [10, 0, 0, 5], [0, 53]⟩ [1, 10, 0, 0, 5, 0, 53] := ⟨by decide, by decide, rfl⟩
  have sends : ∀ s : Local.State, Local.outcome localDemo s none (fun _ => 0) demoDatagram [] =
      .ok (some (Local.flagOn s.auth [1, 10, 0, 0, 5, 0, 53, 7])) := by
    intro s
    obtain ⟨f, framed, frag, has, -⟩ :=
      Local.frame_socks (C := localDemo) rfl s.auth none (fun _ => 0) 0 0 0 wrote [7] (by decide)
    obtain ⟨-, encode⟩ := Local.encode_spec (C := localDemo) rc4_lawful has (by decide) (by decide) (s.auth || (1 : UInt8) &&& 0x10 != 0)
      s.encTmp (show ([] : Bytes).length = localDemo.E.ivLen from rfl)
    obtain ⟨encTmp, encoded, -⟩ := encode fun full => full.2.1 rfl
    rw [Local.outcome, show demoDatagram = 0 :: 0 :: 0 :: ([1, 10, 0, 0, 5, 0, 53] ++ [7]) from rfl, framed, ok_bind]
    dsimp only
    rw [if_neg (by simp [frag]), encoded, ok_bind]
    cases s.auth <;> rfl
  rw [sends, sends] at alike
  exact absurd alike (by decide)

end Shadowsocks.Udp
