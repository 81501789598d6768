import Shadowsocks.Lib.OnesComplement
import Shadowsocks.Tun2socks.Delivery
import Shadowsocks.Tun2socks.Dns

/-!
# What the DNS gateway makes of a packet

A `UdpPacket` is what the protocols allow: options behind the header, bytes behind the
datagram, and the checksums of both headers, where all ones stands for a checksum of zero.
`process_device_dns_packet` knows one length of header, leaves both lengths as they are and
has no zero, so what it does to a packet depends on these.
-/

namespace Shadowsocks.Tun2socks
set_option autoImplicit false
open Lib

/-! ## Packets -/

/-- The addresses, the protocol and the length that the checksum of UDP covers too. -/
def pseudoHeader (source destination : UInt32) (len : Nat) : Bytes :=
  be32 source.toNat ++ be32 destination.toNat ++ ([0, 17] ++ be16 len)

/-- The checksum of a datagram: a computed zero is sent as all ones. -/
def datagramChecksum (source destination : UInt32) (udp : UdpHeader) (payload : Bytes) : UInt16 :=
  let sum := inetChecksum (pseudoHeader source destination (8 + payload.length) ++ { udp with checksum := 0 }.bytes ++ payload)
  if sum = 0 then 0xFFFF else sum

/-- A UDP datagram in one IPv4 packet, with bytes behind it. -/
structure UdpPacket where
  ip : Ipv4Header
  options : Bytes
  udp : UdpHeader
  payload : Bytes
  stray : Bytes
  version : ip.version = 4
  headerLen : ip.ihl * 4 = 20 + options.length
  totalLen : ip.totalLength.toNat = 20 + options.length + (8 + payload.length + stray.length)
  unfragmented : ip.flags3Fragmentoffset13 &&& 0x3FFF = 0
  protocol : ip.protocol = 17
  udpLen : udp.length.toNat = 8 + payload.length
  ipChecksum : ip.checksum = inetChecksum ({ ip with checksum := 0 }.bytes ++ options)
  udpChecksum : udp.checksum = datagramChecksum ip.sourceAddress ip.destinationAddress udp payload

def UdpPacket.bytes (p : UdpPacket) : Bytes := p.ip.bytes ++ (p.options ++ (p.udp.bytes ++ (p.payload ++ p.stray)))

/-! ## The headers in memory -/

section
variable (ip : Ipv4Header) (udp : UdpHeader) (rest : Bytes)

theorem Ipv4Header.ofBytes_bytes : Ipv4Header.ofBytes (ip.bytes ++ rest) = ip := by
  obtain ⟨_, _, _, _, _, _, _, _, _, _⟩ := ip
  simp only [Ipv4Header.ofBytes, Ipv4Header.mk.injEq]
  exact ⟨rfl, rfl, readBe16_be16 _ _, readBe16_be16 _ _, readBe16_be16 _ _, rfl, rfl, readBe16_be16 _ _, readBe32_be32 _ _,
    readBe32_be32 _ _⟩

theorem UdpHeader.ofBytes_bytes : UdpHeader.ofBytes (udp.bytes ++ rest) = udp := by
  obtain ⟨_, _, _, _⟩ := udp
  simp only [UdpHeader.ofBytes, UdpHeader.mk.injEq]
  exact ⟨readBe16_be16 _ _, readBe16_be16 _ _, readBe16_be16 _ _, readBe16_be16 _ _⟩

end

/-! ## The checksums -/

theorem isOnesSum_foldCarry (t : Nat) : IsOnesSum t (foldCarry t) := by
  induction t using foldCarry.induct with
  | case1 t small =>
    rw [foldCarry, if_pos small]
    exact isOnesSum_self small
  | case2 t large ih =>
    obtain ⟨small, congruent, zero⟩ := ih
    rw [foldCarry, if_neg large]
    exact ⟨small, by omega, by omega⟩

theorem checksumSummer_eq {bs : Bytes} (even : bs.length % 2 = 0) : checksumSummer bs = (words bs).sum := by
  induction bs using words.induct with
  | case1 hi lo rest ih =>
    rw [List.length_cons, List.length_cons] at even
    rw [checksumSummer, words, List.sum_cons, ih (by omega)]
  | case2 hi =>
    rw [List.length_singleton] at even
    omega
  | case3 => rfl

theorem payloadSum_eq (payload : Bytes) : payloadSum payload = (words payload).sum := by
  unfold payloadSum
  split
  · rename_i even
    exact checksumSummer_eq even
  · rename_i odd
    obtain ⟨init, last, rfl⟩ := List.eq_nil_or_concat' payload |>.resolve_left (by rintro rfl; exact odd rfl)
    have even : init.length % 2 = 0 := by
      rw [List.length_append, List.length_singleton] at odd
      omega
    have last_ : (init ++ [last]).getD init.length 0 = last := by simp
    rw [List.length_append, List.length_singleton, Nat.add_sub_cancel, List.take_left, words_append even, List.sum_append,
      checksumSummer_eq even, last_]
    simp [checksumSummer, words]

theorem ipv4Checksum_eq (header : Ipv4Header) {extra : Bytes} (even : extra.length % 2 = 0) :
    ipv4Checksum header extra = inetChecksum (header.bytes ++ extra) := by
  have twenty : header.bytes.length % 2 = 0 := by rw [Ipv4Header.length_bytes]
  refine (inetChecksum_eq ?_).symm
  rw [words_append twenty, List.sum_append, ← checksumSummer_eq twenty, ← checksumSummer_eq even]
  exact isOnesSum_foldCarry _

/-- The sum over a datagram is that of its parts. -/
theorem datagram_words (header : UdpHeader) (payload : Bytes) (source destination : UInt32) :
    words (pseudoHeader source destination (8 + payload.length) ++ header.bytes ++ payload) =
      words (be32 source.toNat) ++ words (be32 destination.toNat) ++ words (be16 ipv4ProtocolUdp.toNat) ++
        words (be16 (8 + payload.length)) ++ words header.bytes ++ words payload := by
  rfl

/-- The number of the protocol is in it. -/
theorem datagram_sum_pos (header : UdpHeader) (payload : Bytes) (source destination : UInt32) :
    (words (pseudoHeader source destination (8 + payload.length) ++ header.bytes ++ payload)).sum ≠ 0 := by
  have protocol : (words (be16 ipv4ProtocolUdp.toNat)).sum = 17 := by decide
  rw [datagram_words]
  simp only [List.sum_append, protocol]
  omega

theorem udpChecksum_eq (header : UdpHeader) (payload : Bytes) (source destination : UInt32) :
    Tun2socks.udpChecksum header payload source destination =
      inetChecksum (pseudoHeader source destination (8 + payload.length) ++ header.bytes ++ payload) := by
  have sum : checksumSummer (be32 source.toNat) + checksumSummer (be32 destination.toNat) +
      checksumSummer (be16 ipv4ProtocolUdp.toNat) + checksumSummer (be16 (8 + payload.length)) + checksumSummer header.bytes +
      payloadSum payload = (words (pseudoHeader source destination (8 + payload.length) ++ header.bytes ++ payload)).sum := by
    have two (n : Nat) : (be16 n).length % 2 = 0 := by rw [length_be16]
    have four (n : Nat) : (be32 n).length % 2 = 0 := by rw [show (be32 n).length = 4 from rfl]
    have eight : header.bytes.length % 2 = 0 := by rw [UdpHeader.length_bytes]
    rw [datagram_words, payloadSum_eq]
    simp only [List.sum_append]
    rw [checksumSummer_eq (four _), checksumSummer_eq (four _), checksumSummer_eq (two _), checksumSummer_eq (two _),
      checksumSummer_eq eight]
  have positive := datagram_sum_pos header payload source destination
  rw [Tun2socks.udpChecksum, sum]
  have folded := isOnesSum_foldCarry (words (pseudoHeader source destination (8 + payload.length) ++ header.bytes ++ payload)).sum
  rw [if_neg (mt folded.zero.mp positive), inetChecksum_eq folded]

/-- Without the encoding of zero a datagram has the checksum that is computed. -/
theorem datagramChecksum_iff (source destination : UInt32) (udp : UdpHeader) (payload : Bytes) :
    datagramChecksum source destination udp payload =
        Tun2socks.udpChecksum { udp with checksum := 0 } payload source destination ↔
      datagramChecksum source destination udp payload ≠ 0xFFFF := by
  have ones := inetChecksum_ne (datagram_sum_pos { udp with checksum := 0 } payload source destination)
  rw [udpChecksum_eq]
  unfold datagramChecksum
  dsimp only
  split
  · rename_i zero
    rw [zero]
    decide
  · exact ⟨fun _ => ones, fun _ => rfl⟩

/-! ## Reading a packet -/

section
variable (p : UdpPacket)

theorem UdpPacket.length_bytes : p.bytes.length = p.ip.totalLength.toNat := by
  rw [p.totalLen]
  simp only [bytes, List.length_append, Ipv4Header.length_bytes, UdpHeader.length_bytes]
  omega

theorem UdpPacket.ipv4Check_bytes : ipv4Check p.bytes = some (p.ip, p.udp.bytes ++ (p.payload ++ p.stray)) := by
  have header : Ipv4Header.ofBytes p.bytes = p.ip := Ipv4Header.ofBytes_bytes _ _
  have len := p.length_bytes
  have total := p.totalLen
  have ihl := p.headerLen
  have even : p.options.length % 2 = 0 := by omega
  have options : window p.bytes 20 p.options.length = p.options := by
    rw [window, bytes, List.drop_left' (Ipv4Header.length_bytes _), List.take_left]
  have rest : window p.bytes (20 + p.options.length) (8 + p.payload.length + p.stray.length) =
      p.udp.bytes ++ (p.payload ++ p.stray) := by
    rw [window, ← List.drop_drop, bytes, List.drop_left' (Ipv4Header.length_bytes _), List.drop_left, List.take_of_length_le]
    rw [List.length_append, List.length_append, UdpHeader.length_bytes, Nat.add_assoc]
  rw [ipv4Check, if_neg (by omega)]
  dsimp only
  rw [header, if_neg (by rw [p.version]; decide), if_neg (by omega), if_neg (by omega), if_neg (by omega), if_neg (by omega)]
  rw [ihl, Nat.add_sub_cancel_left, options, ipv4Checksum_eq _ even, if_neg (not_not.mpr p.ipChecksum), total,
    Nat.add_sub_cancel_left, rest]

theorem UdpPacket.udpCheck_bytes : udpCheck (p.udp.bytes ++ (p.payload ++ p.stray)) = some (p.udp, p.payload) := by
  have header : UdpHeader.ofBytes (p.udp.bytes ++ (p.payload ++ p.stray)) = p.udp := UdpHeader.ofBytes_bytes _ _
  have len := p.udpLen
  have size : (p.udp.bytes ++ (p.payload ++ p.stray)).length = 8 + (p.payload.length + p.stray.length) := by
    rw [List.length_append, List.length_append, UdpHeader.length_bytes]
  have payload : window (p.udp.bytes ++ (p.payload ++ p.stray)) 8 p.payload.length = p.payload := by
    rw [window, List.drop_left' (UdpHeader.length_bytes _), List.take_left]
  rw [udpCheck, if_neg (by omega)]
  dsimp only
  rw [header, if_neg (by omega), if_neg (by omega), len, Nat.add_sub_cancel_left, payload]

/-- The switch shifts the byte that `IPV4_GET_VERSION` masks too. -/
theorem masked_version (v : UInt8) : (v &&& 0xF0) >>> 4 = v >>> 4 := by
  have small : (v >>> 4).toNat < 2 ^ 4 := by
    rw [UInt8.toNat_shiftRight, Nat.shiftRight_eq_div_pow]
    have := v.toNat_lt
    exact Nat.div_lt_of_lt_mul this
  rw [UInt8.shiftRight_and, ← UInt8.toNat_inj, UInt8.toNat_and]
  exact (Nat.and_two_pow_sub_one_eq_mod _ 4).trans (Nat.mod_eq_of_lt small)

/-- tun2socks takes a packet unless its checksum stands for zero. -/
theorem UdpPacket.readDatagram_bytes : readDatagram p.bytes =
    if p.udp.checksum = 0xFFFF then none else some { ip := p.ip, udp := p.udp, data := p.payload } := by
  have version : p.bytes.headD 0 >>> 4 = 4 := by
    have four : ((p.ip.version4Ihl4 &&& 0xF0) >>> 4).toNat = 4 := p.version
    rw [masked_version] at four
    exact UInt8.toNat_inj.mp four
  have protocol : p.bytes.getD 9 0 = ipv4ProtocolUdp := p.protocol
  have twenty : ¬ p.bytes.length < 20 := by
    have := p.length_bytes
    have := p.totalLen
    omega
  have checked := datagramChecksum_iff p.ip.sourceAddress p.ip.destinationAddress p.udp p.payload
  rw [← p.udpChecksum] at checked
  rw [readDatagram, if_neg (not_not.mpr version), if_neg (not_or.mpr ⟨twenty, not_not.mpr protocol⟩), p.ipv4Check_bytes]
  dsimp only
  rw [p.udpCheck_bytes]
  dsimp only
  by_cases zero : p.udp.checksum = 0xFFFF
  · rw [if_pos zero, if_pos (mt checked.mp (not_not.mpr zero))]
  · rw [if_neg zero, if_neg (not_not.mpr (checked.mpr zero))]

end

/-! ## A packet to port 53 -/

namespace Dns

/-- The headers of a packet on its way to the gateway, before the checksums. -/
def toGateway (C : Config) (gw : Ipv4Addr) (d : Datagram) : Datagram :=
  { d with
    ip := { d.ip with destinationAddress := gw.ip, sourceAddress := C.netifIpaddr }
    udp := { d.udp with destPort := gw.port } }

/-- `packet` carries the payload of `p` to the gateway: it is well-formed, nothing is behind the
datagram, and tun2socks itself would take it. -/
def Forwards (C : Config) (gw : Ipv4Addr) (p : UdpPacket) (packet : Bytes) : Prop :=
  ∃ q : UdpPacket, packet = q.bytes ∧ q.stray = [] ∧ q.payload = p.payload ∧
    q.ip.sourceAddress = C.netifIpaddr ∧ q.udp.sourcePort = p.udp.sourcePort ∧
    q.ip.destinationAddress = gw.ip ∧ q.udp.destPort = gw.port ∧
    readDatagram packet = some { ip := q.ip, udp := q.udp, data := q.payload }

/-- The query can be counted: there is a record for its port whose counter is not at its maximum, or
memory for a record. -/
def Counts (s : State) (port : UInt16) (memory : Bool) : Prop :=
  match (if s.init then s else { s with init := true, connections := [] }).findConnection port with
  | some con => con.count + 1 < 2 ^ 31
  | none => memory = true

/-- The header has its smallest length, the datagram ends the packet, and no checksum stands for zero, neither
the one of the packet nor the one it gets. -/
structure Plain (C : Config) (gw : Ipv4Addr) (p : UdpPacket) : Prop where
  options : p.options = []
  stray : p.stray = []
  checksum : p.udp.checksum ≠ 0xFFFF
  rewritten : datagramChecksum C.netifIpaddr gw.ip { p.udp with destPort := gw.port } p.payload ≠ 0xFFFF

section
variable {C : Config} {gw : Ipv4Addr} {s : State} {e : Event} (p : UdpPacket)

/-- A packet that has been taken is forwarded as it should be if and only if its lengths are those of the one that is
sent and its new checksum does not stand for zero. -/
theorem forwards_iff : Forwards C gw p (toGateway C gw { ip := p.ip, udp := p.udp, data := p.payload }).update.bytes ↔
    p.options = [] ∧ p.stray = [] ∧ datagramChecksum C.netifIpaddr gw.ip { p.udp with destPort := gw.port } p.payload ≠ 0xFFFF := by
  have checked := datagramChecksum_iff C.netifIpaddr gw.ip { p.udp with destPort := gw.port } p.payload
  have size : (toGateway C gw { ip := p.ip, udp := p.udp, data := p.payload }).update.bytes.length = 20 + 8 + p.payload.length := by
    simp only [Datagram.bytes, List.length_append, Ipv4Header.length_bytes, UdpHeader.length_bytes]
    rfl
  constructor
  · rintro ⟨q, same, -, payload, source, -, destination, -⟩
    have ip : (toGateway C gw { ip := p.ip, udp := p.udp, data := p.payload }).update.ip = q.ip := by
      have fields := congrArg Ipv4Header.ofBytes same
      rw [Datagram.bytes, List.append_assoc, Ipv4Header.ofBytes_bytes, UdpPacket.bytes, Ipv4Header.ofBytes_bytes] at fields
      exact fields
    -- the lengths are copied, so only one length of packet agrees with them
    have total : p.ip.totalLength = q.ip.totalLength := by
      rw [← ip]
      rfl
    have ihl : p.ip.ihl = q.ip.ihl := by
      rw [← ip]
      rfl
    have sent := q.length_bytes
    rw [← same, size, ← total, p.totalLen] at sent
    have options : p.options = [] := List.length_eq_zero_iff.mp (by omega)
    have stray : p.stray = [] := List.length_eq_zero_iff.mp (by omega)
    have none_ : q.options = [] := by
      have short := q.headerLen
      rw [← ihl, p.headerLen, options, List.length_nil] at short
      exact List.length_eq_zero_iff.mp (by omega)
    have udp : (toGateway C gw { ip := p.ip, udp := p.udp, data := p.payload }).update.udp = q.udp := by
      have fields := congrArg (fun bs => UdpHeader.ofBytes (bs.drop 20)) same
      rw [Datagram.bytes, List.append_assoc, List.drop_left' (Ipv4Header.length_bytes _), UdpHeader.ofBytes_bytes, UdpPacket.bytes,
        none_, List.nil_append, List.drop_left' (Ipv4Header.length_bytes _), UdpHeader.ofBytes_bytes] at fields
      exact fields
    refine ⟨options, stray, checked.mp ?_⟩
    have correct := q.udpChecksum
    rw [← udp, source, destination, payload] at correct
    exact correct.symm
  · rintro ⟨options, stray, nonzero⟩
    have headerLen := p.headerLen
    have totalLen := p.totalLen
    rw [options, List.length_nil] at headerLen totalLen
    rw [stray, List.length_nil] at totalLen
    let sent := (toGateway C gw { ip := p.ip, udp := p.udp, data := p.payload }).update
    let q : UdpPacket :=
      { ip := sent.ip, options := [], udp := sent.udp, payload := p.payload, stray := []
        version := p.version
        headerLen := headerLen
        totalLen := totalLen
        unfragmented := p.unfragmented
        protocol := p.protocol
        udpLen := p.udpLen
        ipChecksum := ipv4Checksum_eq _ rfl
        udpChecksum := (checked.mpr nonzero).symm }
    have whole : sent.bytes = q.bytes := by
      rw [UdpPacket.bytes, Datagram.bytes, List.append_assoc, List.nil_append, List.append_nil]
      rfl
    refine ⟨q, whole, rfl, rfl, rfl, rfl, rfl, rfl, ?_⟩
    have zero : q.udp.checksum ≠ 0xFFFF := by
      rw [q.udpChecksum]
      exact nonzero
    rw [whole, q.readDatagram_bytes, if_neg zero]

theorem insertConnection_iff (localAddr remoteAddr : Ipv4Addr) {port : UInt16} {memory : Bool} :
    (∃ t, s.insertConnection localAddr remoteAddr port memory = .ok t) ↔
      match s.findConnection port with
      | some con => con.count + 1 < 2 ^ 31
      | none => memory = true := by
  unfold State.insertConnection
  cases s.findConnection port with
  | some con =>
    dsimp only
    split
    · rename_i small
      exact ⟨fun _ => small, fun _ => ⟨_, rfl⟩⟩
    · rename_i full
      exact ⟨fun ⟨_, no⟩ => (nomatch no), fun small => absurd small full⟩
  | none =>
    cases memory with
    | true => exact ⟨fun _ => rfl, fun _ => ⟨_, rfl⟩⟩
    | false => exact ⟨fun ⟨_, no⟩ => (nomatch no), nofun⟩

/-- A query that is read and can be counted is sent to the gateway. -/
theorem toDns_iff (on : (machine C).enabled s e = true) {d : Datagram} (read : readDatagram e.data = some d) (good : Bytes → Prop) :
    (∃ s' m, toDns C gw s e d = .ok s' ∧ s'.log = s.log ++ [m] ∧ good m.packet) ↔
      Counts s d.udp.sourcePort e.memory ∧ good (toGateway C gw d).update.bytes := by
  unfold toDns Counts
  generalize started : (if s.init then s else { s with init := true, connections := [] }) = t
  have log : t.log = s.log := by
    rw [← started]
    split <;> rfl
  rw [← insertConnection_iff d.source d.destination]
  have same : (toGateway C gw d).data = d.data := rfl
  let m : Message := ⟨.toDns, d, (toGateway C gw d).update, (toGateway C gw d).update.bytes⟩
  have submits (u : State) : submit u .toDns e.stale d (toGateway C gw d) = .ok { u with log := u.log ++ [m] } :=
    submit_ok on read same u .toDns
  have kept {u : State} (inserted : t.insertConnection d.source d.destination d.udp.sourcePort e.memory = .ok u) : u.log = s.log := by
    obtain ⟨_, _, rfl, -⟩ := insertConnection_change inserted
    exact log
  constructor
  · rintro ⟨s', m', fired, logged, fine⟩
    obtain ⟨u, inserted, submitted⟩ := bind_eq_ok.mp fired
    obtain rfl := Except.ok.inj ((submits u).symm.trans submitted)
    dsimp only at logged
    rw [kept inserted] at logged
    obtain rfl := List.singleton_inj.mp (List.append_cancel_left logged)
    exact ⟨⟨u, inserted⟩, fine⟩
  · rintro ⟨⟨u, inserted⟩, fine⟩
    refine ⟨{ u with log := u.log ++ [m] }, m, ?_, ?_, fine⟩
    · change (t.insertConnection d.source d.destination d.udp.sourcePort e.memory >>= fun u => submit u .toDns e.stale d
        (toGateway C gw d)) = _
      rw [inserted, ok_bind]
      exact submits u
    · dsimp only
      rw [kept inserted]

/-- Every well-formed packet to port 53 is forwarded as a well-formed packet to the gateway, and as one that tun2socks
would take, if and only if it is plain and can be counted. -/
theorem forwarded_iff (gateway : C.dnsgw = some gw) (on : (machine C).enabled s e = true) (packet : e.data = p.bytes)
    (dns : p.udp.destPort = dnsPort) :
    (∃ s' m, processDeviceDnsPacket C s e = .ok s' ∧ s'.log = s.log ++ [m] ∧ Forwards C gw p m.packet) ↔
      Plain C gw p ∧ Counts s p.udp.sourcePort e.memory := by
  have read := p.readDatagram_bytes
  rw [← packet] at read
  by_cases zero : p.udp.checksum = 0xFFFF
  · rw [if_pos zero] at read
    refine ⟨?_, fun ⟨plain, _⟩ => absurd zero plain.checksum⟩
    rintro ⟨s', m, fired, log, -⟩
    simp only [processDeviceDnsPacket, gateway, read] at fired
    cases fired
    have len := congrArg List.length log
    rw [List.length_append, List.length_singleton] at len
    omega
  · rw [if_neg zero] at read
    have fires : processDeviceDnsPacket C s e = toDns C gw s e { ip := p.ip, udp := p.udp, data := p.payload } := by
      simp only [processDeviceDnsPacket, gateway, read]
      exact if_pos dns
    rw [fires, toDns_iff on read, forwards_iff]
    constructor
    · rintro ⟨counts, options, stray, nonzero⟩
      exact ⟨⟨options, stray, zero, nonzero⟩, counts⟩
    · rintro ⟨plain, counts⟩
      exact ⟨counts, plain.options, plain.stray, plain.rewritten⟩

end

/-! ## Two queries -/

/-- The header of an empty datagram from 10.0.0.1 to 8.8.8.8, without its checksum. -/
def emptyIp : Ipv4Header where
  version4Ihl4 := 0x45
  ds := 0
  totalLength := 28
  identification := 0
  flags3Fragmentoffset13 := 0
  ttl := 64
  protocol := ipv4ProtocolUdp
  checksum := 0
  sourceAddress := 0x0A000001
  destinationAddress := 0x08080808

def emptyUdp (port : UInt16) : UdpHeader where
  sourcePort := port
  destPort := dnsPort
  length := 8
  checksum := 0

/-- An empty query from a port of 10.0.0.1 to 8.8.8.8. -/
def emptyQuery (port : UInt16) : UdpPacket where
  ip := { emptyIp with checksum := inetChecksum (emptyIp.bytes ++ []) }
  options := []
  udp := { emptyUdp port with checksum := datagramChecksum 0x0A000001 0x08080808 (emptyUdp port) [] }
  payload := []
  stray := []
  version := rfl
  headerLen := rfl
  totalLen := rfl
  unfragmented := rfl
  protocol := rfl
  udpLen := rfl
  ipChecksum := rfl
  udpChecksum := rfl

/-- The query is read from the device. -/
def emptyEvent (port : UInt16) : Event where
  data := (emptyQuery port).bytes
  memory := true
  stale := List.replicate 64 0

/-- From port 4000 it is forwarded. -/
theorem forwarded_query : ∃ s' m, processDeviceDnsPacket demo {} (emptyEvent 4000) = .ok s' ∧ s'.log = [m] ∧
    Forwards demo ⟨0xA9FE0101, 8153⟩ (emptyQuery 4000) m.packet := by
  refine (@forwarded_iff demo ⟨0xA9FE0101, 8153⟩ {} (emptyEvent 4000) (emptyQuery 4000) rfl (by decide +kernel) rfl rfl).mpr
    ⟨⟨rfl, rfl, ?_, ?_⟩, rfl⟩
  · decide +kernel
  · decide +kernel

/-- From port 58776 its checksum is computed to be zero, and it is passed on to lwIP. -/
theorem zero_not_forwarded : (emptyQuery 58776).udp.checksum = 0xFFFF ∧
    ¬ ∃ s' m, processDeviceDnsPacket demo {} (emptyEvent 58776) = .ok s' ∧ s'.log = [m] ∧
      Forwards demo ⟨0xA9FE0101, 8153⟩ (emptyQuery 58776) m.packet := by
  have zero : (emptyQuery 58776).udp.checksum = 0xFFFF := by decide +kernel
  refine ⟨zero, ?_⟩
  rintro ⟨s', m, fired, log, -⟩
  have read := (emptyQuery 58776).readDatagram_bytes
  rw [if_pos zero] at read
  have passed : processDeviceDnsPacket demo {} (emptyEvent 58776) = .ok {} := by
    simp only [processDeviceDnsPacket, demo, emptyEvent, read]
  cases passed.symm.trans fired
  cases log

end Dns

end Shadowsocks.Tun2socks
