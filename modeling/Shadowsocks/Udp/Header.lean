import Shadowsocks.Acl
import Shadowsocks.Encrypt.Buffer
import Shadowsocks.Relay.Header

/-!
# Socket addresses and the address header of a datagram

`struct sockaddr_storage` as `udprelay.c` uses it, and the two functions between an
address and the header in front of a payload. A `Header` says what the sender wrote:
the four upper bits of its type byte are free, and `ONETIMEAUTH_FLAG` is one of them.
-/

namespace Shadowsocks.Udp
set_option autoImplicit false
open Lib

/-- `AF_UNSPEC`, `AF_INET` and `AF_INET6`. -/
def afUnspec : UInt16 := 0

def afInet : UInt16 := 2

def afInet6 : UInt16 := 10

/-- `struct sockaddr_storage`: the family and the bytes behind it. -/
structure Sockaddr where
  family : UInt16
  data : Bytes
  size : data.length = 126
  deriving DecidableEq, Repr

/-- A number of 16 bits, least significant byte first. -/
def le16 (x : UInt16) : Bytes := [x.toUInt8, (x >>> 8).toUInt8]

namespace Sockaddr

/-- A zeroed structure in which some fields are set. -/
def make (family : UInt16) (fields : Bytes) : Sockaddr where
  family
  data := (fields ++ List.replicate 126 0).take 126
  size := by simp

/-- What `memset` leaves. -/
def zero : Sockaddr := make afUnspec []

/-- `struct sockaddr_in` and `struct sockaddr_in6`. -/
def inet (addr port : Bytes) : Sockaddr := make afInet (port ++ addr)

def inet6 (addr port : Bytes) : Sockaddr := make afInet6 (port ++ (List.replicate 4 0 ++ addr))

def bytes (a : Sockaddr) : Bytes := le16 a.family ++ a.data

/-- `sin_port` and `sin6_port`. -/
def port (a : Sockaddr) : Bytes := window a.data 0 2

def sinAddr (a : Sockaddr) : Bytes := window a.data 2 4

def sin6Addr (a : Sockaddr) : Bytes := window a.data 6 16

/-- `ss_family == AF_INET || ss_family == AF_INET6`. -/
def IsInet (a : Sockaddr) : Prop := a.family = afInet ∨ a.family = afInet6

instance (a : Sockaddr) : Decidable a.IsInet := inferInstanceAs (Decidable (_ ∨ _))

/-- Where `sendto` sends: the address and the port, of the family that the structure
says. -/
def endpoint (a : Sockaddr) : Option (Ip × Bytes) :=
  if a.family = afInet then some (.v4 a.sinAddr, a.port)
  else if a.family = afInet6 then some (.v6 a.sin6Addr, a.port)
  else none

end Sockaddr

/-- An address that a datagram can come from, or that a name can resolve to. -/
structure Inet where
  addr : Sockaddr
  inet : addr.IsInet

/-- `hash_key`. -/
def hashKey (af : UInt16) (addr : Sockaddr) : Bytes := le16 af ++ ([0, 0] ++ addr.bytes)

/-- `sockaddr_cmp`: whether it finds a difference. -/
def sockaddrCmp (a b : Sockaddr) (len : Nat) : Bool :=
  if a.family ≠ b.family then true
  else if a.family = afInet then decide (a.port ≠ b.port ∨ a.sinAddr ≠ b.sinAddr)
  else if a.family = afInet6 then decide (a.port ≠ b.port ∨ a.sin6Addr ≠ b.sin6Addr)
  else decide (a.bytes.take len ≠ b.bytes.take len)

/-- `construct_udprealy_header`; nothing is written for another family. -/
def constructUdprealyHeader (a : Sockaddr) : Bytes :=
  if a.family = afInet then 1 :: (a.sinAddr ++ a.port)
  else if a.family = afInet6 then 4 :: (a.sin6Addr ++ a.port)
  else []

/-- What `parse_udprealy_header` stores, and its result. -/
structure Parsed where
  len : Nat
  host : Bytes
  port : Bytes
  storage : Sockaddr
  deriving DecidableEq, Repr

/-- The storage for a domain: an address only if its text is one. Both calls of
`dns_pton` read it as an IPv4 address. -/
def textSockaddr (text : AddrText) (host port : Bytes) : Sockaddr :=
  match text.corkIpInit host with
  | some (.v4 _) => .inet ((text.pton4 host).getD (List.replicate 4 0)) port
  | some (.v6 _) => .inet6 ((text.pton4 host).getD (List.replicate 4 0) ++ List.replicate 12 0) port
  | none => .zero

/-- The address of the header behind its type `atyp`. -/
def parseAddr (text : AddrText) (buf : Buffer) (start bufLen : Nat) (atyp : UInt8) : Except Fault (Option Parsed) :=
  if atyp &&& 0xf = 1 then
    if 7 ≤ bufLen then do
      let addr ← buf.read (start + 1) 4
      let port ← buf.read (start + 1 + 4) 2
      pure (some { len := 7, host := text.ntop4 addr, port, storage := .inet addr port })
    else pure none
  else if atyp &&& 0xf = 3 then do
    let nameLen ← buf.byte (start + 1)
    if nameLen.toNat + 4 ≤ bufLen then do
      let name ← buf.read (start + 2) nameLen.toNat
      let port ← buf.read (start + 2 + nameLen.toNat) 2
      let host := cString name
      pure (some { len := nameLen.toNat + 4, host, port, storage := textSockaddr text host port })
    else pure none
  else if atyp &&& 0xf = 4 then
    if 19 ≤ bufLen then do
      let addr ← buf.read (start + 1) 16
      let port ← buf.read (start + 1 + 16) 2
      pure (some { len := 19, host := text.ntop6 addr, port, storage := .inet6 addr port })
    else pure none
  else pure none

/-- `parse_udprealy_header` on the buffer from `start` on, where `bufLen` bytes are said
to be in use. The Boolean is the flag that goes into `*auth`, also if the header is
invalid. -/
def parseUdprealyHeader (text : AddrText) (buf : Buffer) (start bufLen : Nat) : Except Fault (Bool × Option Parsed) := do
  let atyp ← buf.byte start
  let parsed ← parseAddr text buf start bufLen atyp
  pure (atyp &&& 0x10 != 0, parsed)

/-! ## Socket addresses -/

theorem le16_injective {x y : UInt16} (same : le16 x = le16 y) : x = y := by
  obtain ⟨low, rest⟩ := List.cons.inj same
  obtain ⟨high, -⟩ := List.cons.inj rest
  have low := congrArg UInt8.toNat low
  have high := congrArg UInt8.toNat high
  rw [UInt16.toNat_toUInt8, UInt16.toNat_toUInt8] at low high
  rw [UInt16.toNat_shiftRight, UInt16.toNat_shiftRight] at high
  have hx := x.toNat_lt
  have hy := y.toNat_lt
  apply UInt16.toNat_inj.mp
  simp [Nat.shiftRight_eq_div_pow] at high
  omega

/-- Two sessions have one key only if family and address are the same. -/
theorem hashKey_injective {af af' : UInt16} {a a' : Sockaddr} (same : hashKey af a = hashKey af' a') : af = af' ∧ a = a' := by
  obtain ⟨family, rest⟩ := List.append_inj same rfl
  obtain ⟨-, bytes⟩ := List.append_inj rest rfl
  obtain ⟨own, data⟩ := List.append_inj bytes rfl
  obtain ⟨f, d, sd⟩ := a
  obtain ⟨f', d', sd'⟩ := a'
  cases le16_injective own
  cases data
  exact ⟨le16_injective family, rfl⟩

@[simp] theorem sockaddrCmp_self (a : Sockaddr) (len : Nat) : sockaddrCmp a a len = false := by
  unfold sockaddrCmp
  split
  · rename_i differs
    exact absurd rfl differs
  · split
    · simp
    · split <;> simp

namespace Sockaddr

theorem make_data {family : UInt16} {fields : Bytes} {off n : Nat} (short : fields.length ≤ 126) (inside : off + n ≤ fields.length) :
    window (make family fields).data off n = window fields off n := by
  dsimp only [make]
  rw [take_eq_window, window_window _ (by omega), Nat.zero_add, window_append_left inside]

@[simp] theorem family_inet (addr port : Bytes) : (inet addr port).family = afInet := rfl

@[simp] theorem family_inet6 (addr port : Bytes) : (inet6 addr port).family = afInet6 := rfl

/-- An address that was stored is read back. -/
theorem endpoint_inet {addr port : Bytes} (four : addr.length = 4) (two : port.length = 2) :
    (inet addr port).endpoint = some (.v4 addr, port) := by
  have size : (port ++ addr).length = 6 := by rw [List.length_append, four, two]
  have sin : (inet addr port).sinAddr = addr := by
    rw [sinAddr, inet, make_data (by omega) (by omega), ← two, window_append_right, List.take_of_length_le (by omega)]
  have sinPort : (inet addr port).port = port := by
    rw [Sockaddr.port, inet, make_data (by omega) (by omega), window_append_left (by omega), ← two, window_zero_length]
  rw [endpoint, if_pos (family_inet _ _), sin, sinPort]

theorem endpoint_inet6 {addr port : Bytes} (sixteen : addr.length = 16) (two : port.length = 2) :
    (inet6 addr port).endpoint = some (.v6 addr, port) := by
  have size : (port ++ (List.replicate 4 0 ++ addr)).length = 22 := by simp [sixteen, two]
  have front : (port ++ List.replicate 4 0).length = 6 := by simp [two]
  have sin : (inet6 addr port).sin6Addr = addr := by
    rw [sin6Addr, inet6, make_data (by omega) (by omega), ← List.append_assoc, ← front, window_append_right,
      List.take_of_length_le (by omega)]
  have sinPort : (inet6 addr port).port = port := by
    rw [Sockaddr.port, inet6, make_data (by omega) (by omega), window_append_left (by omega), ← two, window_zero_length]
  rw [endpoint, family_inet6, if_neg (by decide), if_pos rfl, sin, sinPort]

end Sockaddr

theorem length_construct (a : Sockaddr) : (constructUdprealyHeader a).length ≤ 19 := by
  have size := a.size
  have two : a.port.length = 2 := length_window (by omega)
  have four : a.sinAddr.length = 4 := length_window (by omega)
  have sixteen : a.sin6Addr.length = 16 := length_window (by omega)
  unfold constructUdprealyHeader
  split
  · simp only [List.length_cons, List.length_append]
    omega
  · split
    · simp only [List.length_cons, List.length_append]
      omega
    · exact Nat.zero_le _

/-! ## Headers -/

/-- What the parser makes of a header. -/
def headerParsed (text : AddrText) (h : Header) : Parsed :=
  match h.addr with
  | .ipv4 addr => { len := 7, host := text.ntop4 addr, port := h.port, storage := .inet addr h.port }
  | .domain name =>
    let host := cString name
    { len := name.length + 4, host, port := h.port, storage := textSockaddr text host h.port }
  | .ipv6 addr => { len := 19, host := text.ntop6 addr, port := h.port, storage := .inet6 addr h.port }

theorem headerParsed_len (text : AddrText) {h : Header} (valid : h.Valid) : (headerParsed text h).len = 3 + h.addr.body.length := by
  obtain ⟨addr, port⟩ := h
  obtain ⟨ok, -⟩ := valid
  cases addr <;> simp only [headerParsed, Address.body, Address.Valid, List.length_cons] at * <;> omega

/-- The bytes of a header under the type byte `t`. -/
structure Wrote (t : UInt8) (h : Header) (bs : Bytes) : Prop where
  valid : h.Valid
  typ : t &&& 0xf = h.addr.atyp
  bytes : bs = t :: (h.addr.body ++ h.port)

/-- No header is the beginning of another one. -/
theorem Wrote.prefix_unique {t t' : UInt8} {h h' : Header} {bs bs' x y : Bytes} (wrote : Wrote t h bs) (wrote' : Wrote t' h' bs')
    (same : bs ++ x = bs' ++ y) : bs = bs' ∧ h = h' ∧ x = y := by
  obtain ⟨⟨fits, two⟩, typ, rfl⟩ := wrote
  obtain ⟨⟨fits', two'⟩, typ', rfl⟩ := wrote'
  rw [List.cons_append, List.cons_append, List.append_assoc, List.append_assoc] at same
  obtain ⟨rfl, rest⟩ := List.cons.inj same
  have kind : h.addr.atyp = h'.addr.atyp := typ.symm.trans typ'
  obtain ⟨addr, port⟩ := h
  obtain ⟨addr', port'⟩ := h'
  dsimp only at *
  have long : addr.body.length = addr'.body.length ∧ (addr.body = addr'.body → addr = addr') := by
    cases addr <;> cases addr' <;> simp only [Address.atyp] at kind
    · exact ⟨fits.trans fits'.symm, congrArg _⟩
    · exact absurd kind (by decide)
    · exact absurd kind (by decide)
    · exact absurd kind (by decide)
    · -- the lengths of the names are in front of them
      rename_i name name'
      have short : name.length < 256 := fits
      have short' : name'.length < 256 := fits'
      rw [Address.body, Address.body, List.cons_append, List.cons_append] at rest
      have lens := congrArg UInt8.toNat (List.cons.inj rest).1
      rw [UInt8.toNat_ofNat', UInt8.toNat_ofNat', Nat.mod_eq_of_lt short, Nat.mod_eq_of_lt short'] at lens
      refine ⟨congrArg (· + 1) lens, fun bodies => ?_⟩
      rw [(List.cons.inj bodies).2]
    · exact absurd kind (by decide)
    · exact absurd kind (by decide)
    · exact absurd kind (by decide)
    · exact ⟨fits.trans fits'.symm, congrArg _⟩
  obtain ⟨bodies, rest⟩ := List.append_inj rest long.1
  obtain ⟨rfl, rfl⟩ := List.append_inj rest (two.trans two'.symm)
  cases long.2 bodies
  exact ⟨rfl, rfl, rfl⟩

/-- A header that the parser takes is one that was written, and lies inside the bytes said to be
in use. One case for each type, with the length that it is tested for. -/
theorem parse_some {text : AddrText} {buf : Buffer} {start bufLen : Nat} {flag : Bool} {p : Parsed}
    (parsed : parseUdprealyHeader text buf start bufLen = .ok (flag, some p)) :
    ∃ t h, Wrote t h (window buf.array start p.len) ∧ p = headerParsed text h ∧ flag = (t &&& 0x10 != 0) ∧
      p.len ≤ bufLen ∧ start + p.len ≤ buf.array.length := by
  obtain ⟨t, first, parsed⟩ := bind_eq_ok.mp parsed
  obtain ⟨found, read, parsed⟩ := bind_eq_ok.mp parsed
  cases parsed
  obtain ⟨within, typ⟩ := Buffer.byte_eq_ok.mp first
  unfold parseAddr at read
  split at read
  · rename_i kind
    split at read
    · rename_i long
      obtain ⟨addr, readAddr, read⟩ := bind_eq_ok.mp read
      obtain ⟨port, readPort, read⟩ := bind_eq_ok.mp read
      cases read
      obtain ⟨-, rfl⟩ := Buffer.read_eq_ok.mp readAddr
      obtain ⟨room, rfl⟩ := Buffer.read_eq_ok.mp readPort
      refine ⟨t, ⟨.ipv4 (window buf.array (start + 1) 4), window buf.array (start + 1 + 4) 2⟩, ⟨⟨?_, ?_⟩, kind, ?_⟩, rfl, rfl,
        long, by dsimp only; omega⟩
      · exact length_window (by omega)
      · exact length_window room
      · dsimp only [Address.body]
        rw [← window_add, show 7 = 1 + (4 + 2) from rfl, window_add, typ]
        rfl
    · cases read
  · split at read
    · rename_i kind
      obtain ⟨nameLen, second, read⟩ := bind_eq_ok.mp read
      obtain ⟨-, lenAt⟩ := Buffer.byte_eq_ok.mp second
      split at read
      · rename_i long
        obtain ⟨name, readName, read⟩ := bind_eq_ok.mp read
        obtain ⟨port, readPort, read⟩ := bind_eq_ok.mp read
        cases read
        obtain ⟨-, rfl⟩ := Buffer.read_eq_ok.mp readName
        obtain ⟨room, rfl⟩ := Buffer.read_eq_ok.mp readPort
        have nameSize : (window buf.array (start + 2) nameLen.toNat).length = nameLen.toNat := length_window (by omega)
        have nameSmall : nameLen.toNat < 256 := nameLen.toNat_lt
        refine ⟨t, ⟨.domain (window buf.array (start + 2) nameLen.toNat), window buf.array (start + 2 + nameLen.toNat) 2⟩,
          ⟨⟨?_, ?_⟩, kind, ?_⟩, ?_, rfl, long, by dsimp only; omega⟩
        · dsimp only [Address.Valid]
          omega
        · exact length_window room
        · dsimp only [Address.body]
          rw [nameSize, UInt8.ofNat_toNat, List.cons_append, ← window_add,
            show nameLen.toNat + 4 = 1 + (1 + (nameLen.toNat + 2)) by omega, window_add, window_add, typ, lenAt]
          rfl
        · dsimp only [headerParsed]
          rw [nameSize]
      · cases read
    · split at read
      · rename_i kind
        split at read
        · rename_i long
          obtain ⟨addr, readAddr, read⟩ := bind_eq_ok.mp read
          obtain ⟨port, readPort, read⟩ := bind_eq_ok.mp read
          cases read
          obtain ⟨-, rfl⟩ := Buffer.read_eq_ok.mp readAddr
          obtain ⟨room, rfl⟩ := Buffer.read_eq_ok.mp readPort
          refine ⟨t, ⟨.ipv6 (window buf.array (start + 1) 16), window buf.array (start + 1 + 16) 2⟩, ⟨⟨?_, ?_⟩, kind, ?_⟩, rfl, rfl,
            long, by dsimp only; omega⟩
          · exact length_window (by omega)
          · exact length_window room
          · dsimp only [Address.body]
            rw [← window_add, show 19 = 1 + (16 + 2) from rfl, window_add, typ]
            rfl
        · cases read
      · cases read

/-- A header that was written is taken. Parts of the buffer are parts of what was written, and the
port stands behind the address, whatever its length. -/
theorem parse_header {text : AddrText} {buf : Buffer} {start bufLen : Nat} {t : UInt8} {h : Header}
    (wrote : Wrote t h (window buf.array start (headerParsed text h).len)) (inside : (headerParsed text h).len ≤ bufLen)
    (room : start + (headerParsed text h).len ≤ buf.array.length) :
    parseUdprealyHeader text buf start bufLen = .ok (t &&& 0x10 != 0, some (headerParsed text h)) := by
  have whole := wrote.bytes
  obtain ⟨fits, two⟩ := wrote.valid
  have size := headerParsed_len text wrote.valid
  have part : ∀ off n, off + n ≤ (headerParsed text h).len →
      window buf.array (start + off) n = window (t :: (h.addr.body ++ h.port)) off n := by
    intro off n within
    rw [← whole, window_window _ within]
  have portAt : window buf.array (start + (1 + h.addr.body.length)) 2 = h.port := by
    rw [part _ _ (by omega), ← two, show 1 + h.addr.body.length = (t :: h.addr.body).length by simp [Nat.add_comm],
      ← List.cons_append, window_append_right, List.take_length]
  have first : buf.byte start = .ok t := by
    refine Buffer.byte_eq_ok.mpr ⟨by omega, ?_⟩
    rw [← Nat.add_zero start, part 0 1 (by omega)]
    rfl
  rw [parseUdprealyHeader, first, ok_bind, parseAddr, wrote.typ]
  obtain ⟨addr, port⟩ := h
  dsimp only at *
  cases addr with
  | ipv4 addr =>
    have four : addr.length = 4 := fits
    simp only [headerParsed] at inside room part
    have addrAt : window buf.array (start + 1) 4 = addr := by
      rw [part 1 4 (by omega), ← four]
      simp [window, Address.body]
    simp only [Address.body, four] at portAt
    simp only [Address.atyp, if_true]
    rw [if_pos inside, Buffer.read_ok (by omega), ok_bind, Buffer.read_ok (by omega), ok_bind, addrAt, portAt]
    rfl
  | domain name =>
    have short : name.length < 256 := fits
    have lenByte : (UInt8.ofNat name.length).toNat = name.length := by
      rw [UInt8.toNat_ofNat', Nat.mod_eq_of_lt short]
    have second : buf.byte (start + 1) = .ok (UInt8.ofNat name.length) := by
      refine Buffer.byte_eq_ok.mpr ⟨by omega, ?_⟩
      rw [part 1 1 (by omega)]
      rfl
    simp only [headerParsed] at inside room part
    have nameAt : window buf.array (start + 2) name.length = name := by
      rw [part 2 _ (by omega)]
      simp [window, Address.body]
    simp only [Address.body, List.length_cons] at portAt
    simp only [Address.atyp, show ¬ (3 : UInt8) = 1 by decide, if_false, if_true]
    rw [second, ok_bind, lenByte, if_pos (by omega), Buffer.read_ok (by omega), ok_bind,
      Buffer.read_ok (by omega), ok_bind, nameAt, show start + 2 + name.length = start + (1 + (name.length + 1)) by omega, portAt]
    rfl
  | ipv6 addr =>
    have sixteen : addr.length = 16 := fits
    simp only [headerParsed] at inside room part
    have addrAt : window buf.array (start + 1) 16 = addr := by
      rw [part 1 16 (by omega), ← sixteen]
      simp [window, Address.body]
    simp only [Address.body, sixteen] at portAt
    simp only [Address.atyp, show ¬ (4 : UInt8) = 1 by decide, show ¬ (4 : UInt8) = 3 by decide, if_false, if_true]
    rw [if_pos inside, Buffer.read_ok (by omega), ok_bind,
      Buffer.read_ok (by omega), ok_bind, addrAt, portAt]
    rfl

/-- The parser stays inside a buffer of two bytes that holds what is said to be in use. -/
theorem parse_total (text : AddrText) (buf : Buffer) (start bufLen : Nat) (two : start + 2 ≤ buf.array.length)
    (room : start + bufLen ≤ buf.array.length) :
    ∃ t parsed, window buf.array start 1 = [t] ∧
      parseUdprealyHeader text buf start bufLen = .ok (t &&& 0x10 != 0, parsed) := by
  have byte : ∀ i, i < buf.array.length → ∃ x, buf.byte i = .ok x := fun i within =>
    ⟨buf.array[i], by rw [Buffer.byte, List.getElem?_eq_getElem within]⟩
  obtain ⟨t, first⟩ := byte start (by omega)
  suffices ∃ parsed, parseAddr text buf start bufLen t = .ok parsed by
    obtain ⟨parsed, read⟩ := this
    exact ⟨t, parsed, (Buffer.byte_eq_ok.mp first).2, by rw [parseUdprealyHeader, first, ok_bind, read]; rfl⟩
  unfold parseAddr
  split
  · split
    · rw [Buffer.read_ok (by omega), ok_bind, Buffer.read_ok (by omega)]
      exact ⟨_, rfl⟩
    · exact ⟨none, rfl⟩
  · split
    · obtain ⟨nameLen, second⟩ := byte (start + 1) (by omega)
      rw [second, ok_bind]
      split
      · rw [Buffer.read_ok (by omega), ok_bind, Buffer.read_ok (by omega)]
        exact ⟨_, rfl⟩
      · exact ⟨none, rfl⟩
    · split
      · split
        · rw [Buffer.read_ok (by omega), ok_bind, Buffer.read_ok (by omega)]
          exact ⟨_, rfl⟩
        · exact ⟨none, rfl⟩
      · exact ⟨none, rfl⟩

/-- Nothing is no header. -/
theorem parse_nothing {text : AddrText} {buf : Buffer} {start : Nat} {flag : Bool} {parsed : Option Parsed}
    (done : parseUdprealyHeader text buf start 0 = .ok (flag, parsed)) : parsed = none := by
  cases parsed with
  | none => rfl
  | some p =>
    obtain ⟨t, h, wrote, rfl, -, inside, -⟩ := parse_some done
    have long := headerParsed_len text wrote.valid
    omega

/-- The parser sees nothing but the bytes said to be in use, if there are any. -/
theorem parse_congr (text : AddrText) {buf buf' : Buffer} {start n : Nat} (some_ : 0 < n)
    (same : window buf.array start n = window buf'.array start n) (two : start + 2 ≤ buf.array.length)
    (room : start + n ≤ buf.array.length) (two' : start + 2 ≤ buf'.array.length) (room' : start + n ≤ buf'.array.length) :
    parseUdprealyHeader text buf start n = parseUdprealyHeader text buf' start n := by
  have part : ∀ m, m ≤ n → window buf.array start m = window buf'.array start m := fun m inside => by
    have front := congrArg (fun l => window l 0 m) same
    rwa [window_window _ (by omega), window_window _ (by omega)] at front
  obtain ⟨t, parsed, first, eq⟩ := parse_total text buf start n two room
  obtain ⟨t', parsed', first', eq'⟩ := parse_total text buf' start n two' room'
  -- what one buffer parses to, the other does as well
  have moves : ∀ {b b' : Buffer} {flag p}, (∀ m, m ≤ n → window b.array start m = window b'.array start m) →
      start + n ≤ b'.array.length → parseUdprealyHeader text b start n = .ok (flag, some p) →
      parseUdprealyHeader text b' start n = .ok (flag, some p) := by
    intro b b' flag p alike large done
    obtain ⟨t, h, wrote, rfl, rfl, inside, -⟩ := parse_some done
    exact parse_header (alike _ inside ▸ wrote) inside (by omega)
  cases parsed with
  | some p => rw [eq, moves part room' eq]
  | none =>
    cases parsed' with
    | some p' =>
      rw [moves (fun m inside => (part m inside).symm) room eq'] at eq
      exact absurd (Except.ok.inj eq) (by simp)
    | none =>
      rw [part 1 some_, first', List.cons.injEq] at first
      rw [eq, eq', first.1]

end Shadowsocks.Udp
