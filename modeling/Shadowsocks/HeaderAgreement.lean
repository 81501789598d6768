import Shadowsocks.Encrypt.Openssl
import Shadowsocks.Server.Header
import Shadowsocks.Udp.Grammar

/-!
# Headers of streams and of datagrams

ss-server has two copies of the parser of an address header: stage 0 of a connection and
`parse_udprealy_header`. They take the same headers and make the same of them, except for a
name that is the text of an IPv6 address: the copy for datagrams reads it with the family of
IPv4, and is left with the address `::`.
-/

namespace Shadowsocks
set_option autoImplicit false
open Lib Server Udp

/-- What stage 0 makes of a header: how long it is, and the destination. -/
def streamHeader {P : Platform} (C : Server.Config P) (dCtx : Option (EncCtx P)) (buf : Buffer) :
    Except Fault (Option (Nat × Destination)) :=
  match readHeader C dCtx buf with
  | .ok (header, rest, _) => .ok (some (buf.len - rest.len, destination C.text header))
  | .error (.closed _) => .ok none
  | .error (.crashed f) => .error f

/-- The address that was stored, or the host that is to be resolved. -/
def Udp.Parsed.destination (p : Parsed) : Destination :=
  match p.storage.endpoint with
  | some (ip, port) => .sockaddr ip port
  | none => .query p.host p.port

/-- What `parse_udprealy_header` makes of it. -/
def datagramHeader (text : AddrText) (buf : Buffer) : Except Fault (Option (Nat × Destination)) := do
  let (_, parsed) ← parseUdprealyHeader text buf 0 buf.len
  pure (parsed.map fun p => (p.len, p.destination))

/-- The bytes begin with a header whose name is the text of an IPv6 address other than `::`. -/
def SpellsIpv6 (text : AddrText) (bs : Bytes) : Prop :=
  ∃ t name port front rest a, Wrote t ⟨.domain name, port⟩ front ∧ bs = front ++ rest ∧
    text.corkIpInit (cString name) = some (.v6 a) ∧ a ≠ List.replicate 16 0

section
variable {P : Platform} {C : Server.Config P} {buf : Buffer} {t : UInt8} {h : Header} {rest : Bytes}

/-- Stage 0 without authentication, on a whole header. -/
theorem streamHeader_wrote {front : Bytes} (dCtx : Option (EncCtx P)) (off : C.auth = false) (clear : t &&& 0x10 = 0)
    (wrote : Wrote t h front) (holds : buf.Holds (front ++ rest)) :
    streamHeader C dCtx buf = .ok (some (front.length, destination C.text h)) := by
  obtain ⟨valid, typ, rfl⟩ := wrote
  have two := valid.2
  have len := holds.len
  simp only [List.length_append, List.length_cons, two] at len
  have first : buf.byte 0 = .ok t := holds.byte [] t (h.addr.body ++ h.port ++ rest)
  have verified : verifyHeader C dCtx buf t = .ok false := by
    rw [verifyHeader, off, clear]
    rfl
  have addr : readAddr buf t = .ok (h.addr, 1 + h.addr.body.length) := by
    have whole : buf.Holds (t :: (h.addr.body ++ (h.port ++ rest))) := by rwa [← List.append_assoc]
    exact readAddr_wrote valid typ whole
  have port : buf.read (1 + h.addr.body.length) 2 = .ok h.port := by
    have read := Buffer.Holds.read (t :: h.addr.body) h.port rest (b := buf) (by simpa using holds)
    rwa [List.length_cons, Nat.add_comm, two] at read
  obtain ⟨buf', moved, left, -⟩ := holds.shift
  have end_ : 1 + h.addr.body.length + 2 = (t :: (h.addr.body ++ h.port)).length := by
    simp only [List.length_cons, List.length_append, two]
    omega
  have behind : buf.len - (t :: (h.addr.body ++ h.port)).length = rest.length := by omega
  have read : readHeader C dCtx buf = .ok (h, buf', false) := by
    simp only [readHeader, first, orCrash_ok, ok_bind, verified, addr, port, Bool.false_eq_true, if_false, Nat.add_zero, end_, behind, moved]
    rw [if_neg (by omega), pure_eq_ok]
  rw [streamHeader, read]
  dsimp only
  rw [left.len]
  congr 3
  omega

/-- `parse_udprealy_header` on a whole header. -/
theorem datagramHeader_wrote {front : Bytes} (text : AddrText) (wrote : Wrote t h front) (holds : buf.Holds (front ++ rest)) :
    datagramHeader text buf = .ok (some (front.length, (headerParsed text h).destination)) := by
  have long := headerParsed_len text wrote.valid
  have size : (headerParsed text h).len = front.length := by
    rw [wrote.bytes, List.length_cons, List.length_append, wrote.valid.2]
    omega
  have len := holds.len
  have room := holds.room
  rw [List.length_append] at len room
  have front_ : window buf.array 0 (headerParsed text h).len = front := by
    rw [size, holds.window (by rw [List.length_append]; omega), window_append_left (by omega), window_zero_length]
  rw [datagramHeader, parse_header (front_.symm ▸ wrote) (by omega) (by omega), ok_bind]
  dsimp only
  rw [Option.map_some, size, pure_eq_ok]

/-- No address is read from other bytes. -/
theorem readAddr_none (holds : buf.Holds (t :: rest)) (two : 2 ≤ buf.array.length) (none_ : headerLen (t :: rest) = none) :
    readAddr buf t = .error (.closed .invalidHeader) := by
  have len := holds.len
  rw [List.length_cons] at len
  rw [headerLen] at none_
  unfold readAddr
  split
  · rename_i kind
    rw [if_pos kind] at none_
    rw [if_neg]
    intro long
    rw [if_pos (by omega)] at none_
    cases none_
  · rename_i other
    rw [if_neg other] at none_
    split
    · rename_i kind
      rw [if_pos kind] at none_
      cases rest with
      | nil =>
        have second : buf.byte 1 = .ok buf.array[1] := by rw [Buffer.byte, List.getElem?_eq_getElem two]
        rw [second, orCrash_ok, ok_bind, if_neg]
        rw [List.length_nil] at len
        omega
      | cons n more =>
        have second : buf.byte 1 = .ok n := holds.byte [t] n more
        rw [second, orCrash_ok, ok_bind, if_neg]
        intro long
        rw [domainLen, if_pos (by omega)] at none_
        cases none_
    · rename_i other
      rw [if_neg other] at none_
      split
      · rename_i kind
        rw [if_pos kind] at none_
        rw [if_neg]
        intro long
        rw [if_pos (by omega)] at none_
        cases none_
      · rfl

/-- Stage 0 takes nothing else. -/
theorem streamHeader_none (dCtx : Option (EncCtx P)) (off : C.auth = false) (clear : t &&& 0x10 = 0) (holds : buf.Holds (t :: rest))
    (two : 2 ≤ buf.array.length) (none_ : headerLen (t :: rest) = none) : streamHeader C dCtx buf = .ok none := by
  have first : buf.byte 0 = .ok t := holds.byte [] t rest
  have verified : verifyHeader C dCtx buf t = .ok false := by
    rw [verifyHeader, off, clear]
    rfl
  have addr := readAddr_none holds two none_
  rw [streamHeader]
  simp only [readHeader, first, orCrash_ok, ok_bind, verified, addr, error_bind]

theorem datagramHeader_none (text : AddrText) (holds : buf.Holds (t :: rest)) (two : 2 ≤ buf.array.length)
    (none_ : headerLen (t :: rest) = none) : datagramHeader text buf = .ok none := by
  have room : 0 + buf.len ≤ buf.array.length := by
    rw [Nat.zero_add]
    exact holds.fits
  obtain ⟨flag, parsed, done, len⟩ := parse_headerLen text buf 0 buf.len (by omega) room
  have bytes : window buf.array 0 buf.len = t :: rest := holds.bytes
  rw [bytes, none_, Option.map_eq_none_iff] at len
  rw [datagramHeader, done, len]
  rfl

/-- The destinations differ for the text of an IPv6 address only. A literal of IPv6 is none of
IPv4, which `inet_pton` is asked for, so its address stays as `memset` left it. -/
theorem destination_eq_iff {text : AddrText} (lawful : text.Lawful) (valid : h.Valid) :
    destination text h = (headerParsed text h).destination ↔
      ∀ name a, h.addr = .domain name → text.corkIpInit (cString name) = some (.v6 a) → a = List.replicate 16 0 := by
  obtain ⟨addr, port⟩ := h
  obtain ⟨fits, two⟩ := valid
  cases addr with
  | ipv4 addr =>
    refine ⟨fun _ => nofun, fun _ => ?_⟩
    have stored : (headerParsed text ⟨.ipv4 addr, port⟩).storage.endpoint = some (.v4 addr, port) := Sockaddr.endpoint_inet fits two
    rw [Udp.Parsed.destination, stored]
    rfl
  | ipv6 addr =>
    refine ⟨fun _ => nofun, fun _ => ?_⟩
    have stored : (headerParsed text ⟨.ipv6 addr, port⟩).storage.endpoint = some (.v6 addr, port) := Sockaddr.endpoint_inet6 fits two
    rw [Udp.Parsed.destination, stored]
    rfl
  | domain name =>
    simp only [destination, Udp.Parsed.destination, headerParsed, textSockaddr]
    cases reads : text.corkIpInit (cString name) with
    | none =>
      refine ⟨fun _ name' a same reads' => ?_, fun _ => rfl⟩
      cases same
      rw [reads] at reads'
      cases reads'
    | some ip =>
      cases ip with
      | v4 a =>
        have read := (lawful.v4 _ _).mp reads
        dsimp only
        rw [read, Option.getD_some, Sockaddr.endpoint_inet (lawful.length4 _ _ read) two]
        refine ⟨fun _ name' a same reads' => ?_, fun _ => rfl⟩
        cases same
        rw [reads] at reads'
        cases reads'
      | v6 a =>
        have read := (lawful.v6 _ _).mp reads
        -- a literal of IPv6 is none of IPv4, which `inet_pton` is asked for here
        have missed : text.pton4 (cString name) = none := by
          cases read4 : text.pton4 (cString name) with
          | none => rfl
          | some b =>
            rw [(lawful.v4 _ _).mpr read4] at reads
            cases reads
        have zeros : (Sockaddr.inet6 (List.replicate 4 0 ++ List.replicate 12 0) port).endpoint =
            some (.v6 (List.replicate 16 0), port) := Sockaddr.endpoint_inet6 rfl two
        dsimp only
        rw [read, missed, Option.getD_some, Option.getD_none, zeros]
        dsimp only
        constructor
        · intro same name' a' same' reads'
          cases same'
          cases reads.symm.trans reads'
          injection same with ip
          injection ip
        · intro zero
          rw [zero name a rfl reads]

end

/-- ss-server takes the same headers from a stream and from a datagram and makes the same of
them if and only if the name in the header is not the text of an IPv6 address, unless of `::`. -/
theorem headers_agree {P : Platform} (C : Server.Config P) (dCtx : Option (EncCtx P)) (lawful : C.text.Lawful) (off : C.auth = false)
    (buf : Buffer) (t : UInt8) (rest : Bytes) (holds : buf.Holds (t :: rest)) (two : 2 ≤ buf.array.length) (clear : t &&& 0x10 = 0) :
    (∃ found, streamHeader C dCtx buf = .ok found ∧ datagramHeader C.text buf = .ok found) ↔ ¬ SpellsIpv6 C.text (t :: rest) := by
  cases len : headerLen (t :: rest) with
  | none =>
    refine ⟨fun _ => ?_, fun _ => ⟨none, streamHeader_none dCtx off clear holds two len, datagramHeader_none C.text holds two len⟩⟩
    rintro ⟨t', name, port, front, more, a, wrote, same, -⟩
    rw [same, headerLen_wrote wrote] at len
    cases len
  | some n =>
    obtain ⟨-, t', h, wrote⟩ := wrote_of_headerLen len
    have cut : t :: rest = (t :: rest).take n ++ (t :: rest).drop n := (List.take_append_drop n _).symm
    have same : t = t' := by
      have bytes := wrote.bytes
      rw [bytes] at cut
      exact (List.cons.inj cut).1
    subst same
    rw [cut] at holds
    rw [streamHeader_wrote dCtx off clear wrote holds, datagramHeader_wrote C.text wrote holds]
    have only : ¬ SpellsIpv6 C.text (t :: rest) ↔
        ∀ name a, h.addr = .domain name → C.text.corkIpInit (cString name) = some (.v6 a) → a = List.replicate 16 0 := by
      constructor
      · intro plain name a domain reads
        by_contra other
        obtain ⟨addr, port⟩ := h
        cases domain
        exact plain ⟨t, name, port, _, _, a, wrote, cut, reads, other⟩
      · rintro all ⟨t', name, port, front, more, a, wrote', same, reads, other⟩
        obtain ⟨-, rfl, -⟩ := wrote.prefix_unique wrote' (cut.symm.trans same)
        exact other (all name a rfl reads)
    rw [only, ← destination_eq_iff lawful wrote.valid]
    constructor
    · rintro ⟨found, one, other⟩
      have both := Option.some.inj (Except.ok.inj (one.trans other.symm))
      exact (Prod.mk.inj both).2
    · intro same
      rw [same]
      exact ⟨_, rfl, rfl⟩

/-- The one literal is the text `::1`. -/
def loopText : AddrText where
  ntop4 := id
  ntop6 := id
  corkIpInit host := if host = [58, 58, 49] then some (.v6 (List.replicate 15 0 ++ [1])) else none
  pton4 _ := none
  pton6 host := if host = [58, 58, 49] then some (List.replicate 15 0 ++ [1]) else none

theorem loopText_lawful : loopText.Lawful where
  v4 host a := by
    simp only [loopText]
    split <;> simp
  v6 host a := by
    simp only [loopText]
    split <;> simp
  length4 _ _ := nofun
  length6 host a read := by
    simp only [loopText] at read
    split at read
    · cases read
      rfl
    · cases read

def loopConfig : Server.Config rc4Platform where
  E := unsortedTable
  text := loopText
  auth := false

/-- The header of 10.0.0.1:53 is the same for both. -/
theorem headers_agree_ten : ∃ found, streamHeader loopConfig none tenPacket = .ok found ∧ datagramHeader loopText tenPacket = .ok found := by
  refine (headers_agree loopConfig none loopText_lawful rfl tenPacket 1 [10, 0, 0, 1, 0, 53, 65, 66] ⟨by decide, by decide⟩
    (by decide) (by decide)).mpr ?_
  rintro ⟨t, name, port, front, rest, a, ⟨-, typ, rfl⟩, same, -⟩
  cases (List.cons.inj same).1
  cases typ

/-- The name `::1` and port 80. -/
def loopPacket : Buffer where
  len := 7
  array := [3, 3, 58, 58, 49, 0, 80]

/-- A datagram for `::1` goes to `::`. -/
theorem headers_disagree : loopText.Lawful ∧ loopPacket.Holds [3, 3, 58, 58, 49, 0, 80] ∧
    streamHeader loopConfig none loopPacket = .ok (some (7, .sockaddr (.v6 (List.replicate 15 0 ++ [1])) [0, 80])) ∧
    datagramHeader loopText loopPacket = .ok (some (7, .sockaddr (.v6 (List.replicate 16 0)) [0, 80])) :=
  ⟨loopText_lawful, ⟨by decide, by decide⟩, by rfl, by rfl⟩

end Shadowsocks
