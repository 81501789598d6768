import Shadowsocks.Tun2socks.Rewrite

/-!
# UDP packets of the device

`process_device_udp_packet` and `udpgw_client_handler_received`, for both versions of IP. What one
of them takes and what the other one writes are the packets that the protocols allow, but for the
checksum of UDP: where the computed one is zero, the one in the packet is zero too.
-/

namespace Shadowsocks.Tun2socks
set_option autoImplicit false
open Lib

/-! ## IPv6 -/

/-- `struct ipv6_header`. -/
structure Ipv6Header where
  version4Tc4 : UInt8
  tc4Fl4 : UInt8
  fl : UInt16
  payloadLength : UInt16
  nextHeader : UInt8
  hopLimit : UInt8
  sourceAddress : Vector UInt8 16
  destinationAddress : Vector UInt8 16
  deriving DecidableEq, Repr

def Ipv6Header.bytes (h : Ipv6Header) : Bytes :=
  [h.version4Tc4, h.tc4Fl4] ++ be16 h.fl.toNat ++ be16 h.payloadLength.toNat ++ [h.nextHeader, h.hopLimit] ++
    h.sourceAddress.toList ++ h.destinationAddress.toList

/-- `memcpy` of 16 bytes. -/
def readIp6 (data : Bytes) (off : Nat) : Vector UInt8 16 := .ofFn fun i => data.getD (off + i.val) 0

/-- `memcpy` of the first 40 bytes into the structure. -/
def Ipv6Header.ofBytes (data : Bytes) : Ipv6Header where
  version4Tc4 := data.getD 0 0
  tc4Fl4 := data.getD 1 0
  fl := readBe16 data 2
  payloadLength := readBe16 data 4
  nextHeader := data.getD 6 0
  hopLimit := data.getD 7 0
  sourceAddress := readIp6 data 8
  destinationAddress := readIp6 data 24

/-- `IPV6_NEXT_UDP`. -/
def ipv6NextUdp : UInt8 := 17

/-- `ipv6_check`: the header and the payload. -/
def ipv6Check (data : Bytes) : Option (Ipv6Header × Bytes) :=
  if data.length < 40 then none else
  let header := Ipv6Header.ofBytes data
  if header.version4Tc4 >>> 4 ≠ 6 then none else
  let payloadLength := header.payloadLength.toNat
  if data.length - 40 < payloadLength then none else
  some (header, window data 40 payloadLength)

/-- `udp_ip6_checksum`. -/
def udpIp6Checksum (header : UdpHeader) (payload : Bytes) (sourceAddr destAddr : Vector UInt8 16) : UInt16 :=
  let t := foldCarry (checksumSummer sourceAddr.toList + checksumSummer destAddr.toList +
    checksumSummer (be32 (8 + payload.length)) + checksumSummer (be32 ipv6NextUdp.toNat) +
    checksumSummer header.bytes + payloadSum payload)
  ~~~ UInt16.ofNat (if t = 0 then 0xFFFF else t)

/-- A UDP packet over IPv6: its headers and its payload. -/
structure Datagram6 where
  ip : Ipv6Header
  udp : UdpHeader
  data : Bytes
  deriving DecidableEq, Repr

def Datagram6.bytes (d : Datagram6) : Bytes := d.ip.bytes ++ d.udp.bytes ++ d.data

/-- The checksum computed anew. -/
def Datagram6.update (d : Datagram6) : Datagram6 :=
  let udp := { d.udp with checksum := 0 }
  { d with udp := { udp with checksum := udpIp6Checksum udp d.data d.ip.sourceAddress d.ip.destinationAddress } }

/-- `case 6` from the protocol up to the comparison of the UDP checksum. -/
def readDatagram6 (data : Bytes) : Option Datagram6 :=
  if data.length < 40 ∨ data.getD 6 0 ≠ ipv6NextUdp then none else
  match ipv6Check data with
  | none => none
  | some (ip, data) =>
    match udpCheck data with
    | none => none
    | some (udp, data) =>
      if udp.checksum ≠ udpIp6Checksum { udp with checksum := 0 } data ip.sourceAddress ip.destinationAddress then none
      else some { ip, udp, data }

/-! ## From the device -/

/-- The options that UDP packets depend on, beside those of the DNS gateway: whether there is a
`udpgw_remote_server_addr` and a `netif_ip6addr`, and `udpgw_transparent_dns`. -/
structure Settings extends Dns.Config where
  udpgwRemoteServerAddr : Bool
  netifIp6addr : Bool
  udpgwTransparentDns : Bool

/-- `udp_mtu`. -/
def Settings.udpMtu (S : Settings) : Nat :=
  let udpMtu : Int := S.mtu - (20 + 8)
  let udpIp6Mtu : Int := S.mtu - (40 + 8)
  let udpMtu := if S.netifIp6addr = true ∧ udpMtu < udpIp6Mtu then udpIp6Mtu else udpMtu
  (if udpMtu < 0 then 0 else udpMtu).toNat

/-- The arguments of `SocksUdpGwClient_SubmitPacket`. -/
structure Submission where
  request : Request
  isDns : Bool
  deriving DecidableEq, Repr

def Datagram.submission (S : Settings) (d : Datagram) : Submission where
  request := ⟨⟨.ipv4 d.source, .ipv4 d.destination⟩, d.data⟩
  isDns := S.udpgwTransparentDns && d.ip.destinationAddress == S.netifIpaddr && d.udp.destPort == Dns.dnsPort

def Datagram6.submission (d : Datagram6) : Submission where
  request := ⟨⟨.ipv6 d.ip.sourceAddress d.udp.sourcePort, .ipv6 d.ip.destinationAddress d.udp.destPort⟩, d.data⟩
  isDns := false

/-- The switch on the version. -/
def readSubmission (S : Settings) (data : Bytes) : Option Submission :=
  if data.headD 0 >>> 4 = 4 then (readDatagram data).map (Datagram.submission S)
  else if data.headD 0 >>> 4 = 6 ∧ S.netifIp6addr = true then (readDatagram6 data).map Datagram6.submission
  else none

/-- `process_device_udp_packet`: what it submits. -/
def processDeviceUdpPacket (S : Settings) (data : Bytes) : Option Submission :=
  if S.udpgwRemoteServerAddr = false then none
  else (readSubmission S data).filter fun sub => sub.request.data.length ≤ S.udpMtu

/-! ## To the device -/

/-- The packet that `udpgw_client_handler_received` builds for IPv4. -/
def replyDatagram (localAddr remoteAddr : Ipv4Addr) (data : Bytes) : Datagram :=
  Datagram.update
    { ip :=
        { version4Ihl4 := 0x45
          ds := 0
          totalLength := UInt16.ofNat (20 + 8 + data.length)
          identification := 0
          flags3Fragmentoffset13 := 0
          ttl := 64
          protocol := ipv4ProtocolUdp
          checksum := 0
          sourceAddress := remoteAddr.ip
          destinationAddress := localAddr.ip }
      udp := { sourcePort := remoteAddr.port, destPort := localAddr.port, length := UInt16.ofNat (8 + data.length), checksum := 0 }
      data }

/-- The packet that it builds for IPv6. -/
def replyDatagram6 (localIp remoteIp : Vector UInt8 16) (localPort remotePort : UInt16) (data : Bytes) : Datagram6 :=
  Datagram6.update
    { ip :=
        { version4Tc4 := (6 : UInt8) <<< 4
          tc4Fl4 := 0
          fl := 0
          payloadLength := UInt16.ofNat (8 + data.length)
          nextHeader := ipv6NextUdp
          hopLimit := 64
          sourceAddress := remoteIp
          destinationAddress := localIp }
      udp := { sourcePort := remotePort, destPort := localPort, length := UInt16.ofNat (8 + data.length), checksum := 0 }
      data }

/-- `memcpy` of the headers and the data into `device_write_buf`; what `BTap_Send` gets. -/
def writePacket6 (deviceWriteBuf : Bytes) (d : Datagram6) : Except Fault Bytes := do
  let buf ← store deviceWriteBuf 0 d.ip.bytes
  let buf ← store buf 40 d.udp.bytes
  let buf ← store buf 48 d.data
  pure (buf.take (40 + 8 + d.data.length))

/-- `udpgw_client_handler_received`: the packet that is sent, unless it is too large. The addresses
are of one type, or an `ASSERT` fails. -/
def udpgwClientHandlerReceived (S : Settings) (deviceWriteBuf : Bytes) (localAddr remoteAddr : BAddr) (data : Bytes) :
    Except Fault (Option Bytes) :=
  match localAddr, remoteAddr with
  | .ipv4 localAddr, .ipv4 remoteAddr =>
    if 65535 - (20 + 8) < data.length ∨ (S.mtu : Int) - (20 + 8) < data.length then .ok none
    else (Dns.writePacket deviceWriteBuf (replyDatagram localAddr remoteAddr data)).map some
  | .ipv6 localIp localPort, .ipv6 remoteIp remotePort =>
    if S.netifIp6addr = false then .ok none else
    if 65535 - 8 < data.length ∨ (S.mtu : Int) - (40 + 8) < data.length then .ok none
    else (writePacket6 deviceWriteBuf (replyDatagram6 localIp remoteIp localPort remotePort data)).map some
  | _, _ => .error .abort

/-! ## The headers in memory -/

section
variable {data : Bytes}

theorem be16_readBe16 {off : Nat} (inside : off + 2 ≤ data.length) : be16 (readBe16 data off).toNat = window data off 2 := by
  obtain ⟨hi, lo, rest, split⟩ : ∃ hi lo rest, data.drop off = hi :: lo :: rest := by
    match split : data.drop off with
    | hi :: lo :: rest => exact ⟨hi, lo, rest, rfl⟩
    | [_] | [] =>
      have := congrArg List.length split
      simp only [List.length_drop, List.length_cons, List.length_nil] at this
      omega
  have high := hi.toNat_lt
  have low := lo.toNat_lt
  have value : (readBe16 data off).toNat = hi.toNat * 256 + lo.toNat := by
    rw [readBe16, split, ofBe16, UInt16.toNat_ofNat']
    omega
  have first : UInt8.ofNat ((hi.toNat * 256 + lo.toNat) / 256) = hi := by
    rw [← UInt8.toNat_inj, UInt8.toNat_ofNat']
    omega
  have second : UInt8.ofNat (hi.toNat * 256 + lo.toNat) = lo := by
    rw [← UInt8.toNat_inj, UInt8.toNat_ofNat']
    omega
  rw [window, split, value, be16, first, second]
  rfl

theorem be32_readBe32 {off : Nat} (inside : off + 4 ≤ data.length) : be32 (readBe32 data off).toNat = window data off 4 := by
  have high := ofBe16_lt (data.drop off)
  have low := ofBe16_lt (data.drop (off + 2))
  have value : (readBe32 data off).toNat = ofBe16 (data.drop off) * 2 ^ 16 + ofBe16 (data.drop (off + 2)) := by
    rw [readBe32, UInt32.toNat_ofNat']
    omega
  have halves : be32 (readBe32 data off).toNat = be16 (readBe16 data off).toNat ++ be16 (readBe16 data (off + 2)).toNat := by
    simp only [value, readBe16, be32, be16, UInt16.toNat_ofNat', List.cons_append, List.nil_append, List.cons.injEq, and_true]
    refine ⟨?_, ?_, ?_, ?_⟩ <;> rw [← UInt8.toNat_inj, UInt8.toNat_ofNat', UInt8.toNat_ofNat'] <;> omega
  rw [halves, be16_readBe16 (by omega), be16_readBe16 (by omega), show (4 : Nat) = 2 + 2 from rfl, window_add]

theorem readIp6_toList {off : Nat} (inside : off + 16 ≤ data.length) : (readIp6 data off).toList = window data off 16 := by
  apply List.ext_getElem?
  intro i
  rw [getElem?_window]
  by_cases small : i < 16
  · rw [if_pos small, readIp6, Vector.toList_ofFn, List.getElem?_ofFn, dif_pos small, List.getD_eq_getElem?_getD,
      List.getElem?_eq_getElem (by omega)]
    rfl
  · rw [if_neg small, List.getElem?_eq_none (by rw [Vector.length_toList]; omega)]

theorem getD_window {off : Nat} (inside : off < data.length) : [data.getD off 0] = window data off 1 := by
  rw [window, List.drop_eq_getElem_cons inside, List.take_succ_cons, List.take_zero, List.getD_eq_getElem?_getD,
    List.getElem?_eq_getElem inside]
  rfl

/-- `memcpy` into a header and out of it again. -/
theorem Ipv4Header.bytes_ofBytes (enough : 20 ≤ data.length) : (Ipv4Header.ofBytes data).bytes = window data 0 20 := by
  have pair (off : Nat) (inside : off + 2 ≤ data.length) : [data.getD off 0, data.getD (off + 1) 0] = window data off 2 := by
    rw [show (2 : Nat) = 1 + 1 from rfl, window_add, ← getD_window (by omega), ← getD_window (by omega)]
    rfl
  rw [bytes, ofBytes, be16_readBe16 (by omega), be16_readBe16 (by omega), be16_readBe16 (by omega), be16_readBe16 (by omega),
    be32_readBe32 (by omega), be32_readBe32 (by omega), pair 0 (by omega), pair 8 (by omega), ← window_add,
    ← window_add, ← window_add, ← window_add, ← window_add, ← window_add, ← window_add]

theorem UdpHeader.bytes_ofBytes (enough : 8 ≤ data.length) : (UdpHeader.ofBytes data).bytes = window data 0 8 := by
  rw [bytes, ofBytes, be16_readBe16 (by omega), be16_readBe16 (by omega), be16_readBe16 (by omega), be16_readBe16 (by omega),
    ← window_add, ← window_add, ← window_add]

theorem Ipv6Header.bytes_ofBytes (enough : 40 ≤ data.length) : (Ipv6Header.ofBytes data).bytes = window data 0 40 := by
  have pair (off : Nat) (inside : off + 2 ≤ data.length) : [data.getD off 0, data.getD (off + 1) 0] = window data off 2 := by
    rw [show (2 : Nat) = 1 + 1 from rfl, window_add, ← getD_window (by omega), ← getD_window (by omega)]
    rfl
  rw [bytes, ofBytes, be16_readBe16 (by omega), be16_readBe16 (by omega), readIp6_toList (by omega), readIp6_toList (by omega),
    pair 0 (by omega), pair 6 (by omega), ← window_add, ← window_add, ← window_add, ← window_add, ← window_add]

@[simp] theorem Ipv6Header.length_bytes (h : Ipv6Header) : h.bytes.length = 40 := by
  simp [bytes]

theorem readIp6_append (as : Bytes) (ip : Vector UInt8 16) (rest : Bytes) : readIp6 (as ++ (ip.toList ++ rest)) as.length = ip := by
  rw [← toList_inj, readIp6_toList (by simp), window, List.drop_left, List.take_left' (by simp)]

theorem Ipv6Header.ofBytes_bytes (ip : Ipv6Header) (rest : Bytes) : Ipv6Header.ofBytes (ip.bytes ++ rest) = ip := by
  have source : readIp6 (ip.bytes ++ rest) 8 = ip.sourceAddress := by
    have split : ip.bytes ++ rest = ([ip.version4Tc4, ip.tc4Fl4] ++ be16 ip.fl.toNat ++ be16 ip.payloadLength.toNat ++
        [ip.nextHeader, ip.hopLimit]) ++ (ip.sourceAddress.toList ++ (ip.destinationAddress.toList ++ rest)) := by
      simp only [bytes, List.append_assoc]
    rw [split]
    exact readIp6_append _ _ _
  have destination : readIp6 (ip.bytes ++ rest) 24 = ip.destinationAddress := by
    have split : ip.bytes ++ rest = ([ip.version4Tc4, ip.tc4Fl4] ++ be16 ip.fl.toNat ++ be16 ip.payloadLength.toNat ++
        [ip.nextHeader, ip.hopLimit] ++ ip.sourceAddress.toList) ++ (ip.destinationAddress.toList ++ rest) := by
      simp only [bytes, List.append_assoc]
    rw [split, show (24 : Nat) = ([ip.version4Tc4, ip.tc4Fl4] ++ be16 ip.fl.toNat ++ be16 ip.payloadLength.toNat ++
        [ip.nextHeader, ip.hopLimit] ++ ip.sourceAddress.toList).length by simp]
    exact readIp6_append _ _ _
  rw [ofBytes, source, destination]
  obtain ⟨_, _, _, _, _, _, _, _⟩ := ip
  simp only [Ipv6Header.mk.injEq, and_true]
  exact ⟨rfl, rfl, readBe16_be16 _ _, readBe16_be16 _ _, rfl, rfl⟩

end

/-! ## What the checks take -/

/-- The header of an IPv4 packet with its options and what it carries. -/
structure Ipv4Framed (ip : Ipv4Header) (options rest : Bytes) : Prop where
  version : ip.version = 4
  headerLen : ip.ihl * 4 = 20 + options.length
  totalLen : ip.totalLength.toNat = 20 + options.length + rest.length
  checksum : ip.checksum = inetChecksum ({ ip with checksum := 0 }.bytes ++ options)

section
variable {data rest payload : Bytes}

/-- A byte string is what is in front of an offset, what is in a window there, and the rest. -/
theorem window_split (data : Bytes) (off n : Nat) :
    data = window data 0 off ++ (window data off n ++ data.drop (off + n)) := by
  rw [window, window, List.drop_zero, ← List.drop_drop, List.take_append_drop, List.take_append_drop]

theorem ipv4Check_iff {ip : Ipv4Header} : ipv4Check data = some (ip, rest) ↔
    ∃ options trailing, data = ip.bytes ++ (options ++ (rest ++ trailing)) ∧ Ipv4Framed ip options rest := by
  constructor
  · intro checked
    unfold ipv4Check at checked
    simp only [Option.ite_none_left_eq_some, ne_eq, not_not, Option.some.injEq, Prod.mk.injEq] at checked
    obtain ⟨enough, version, minimal, header, longer, whole, sum, same, rest_⟩ := checked
    simp only [same] at version minimal header longer whole sum rest_
    subst rest_
    have options : (window data 20 (ip.ihl * 4 - 20)).length = ip.ihl * 4 - 20 := length_window (by omega)
    have length : (window data (ip.ihl * 4) (ip.totalLength.toNat - ip.ihl * 4)).length = ip.totalLength.toNat - ip.ihl * 4 :=
      length_window (by omega)
    refine ⟨window data 20 (ip.ihl * 4 - 20), data.drop ip.totalLength.toNat, ?_, version, by omega, by omega, ?_⟩
    · have front : window data 0 (ip.ihl * 4) = ip.bytes ++ window data 20 (ip.ihl * 4 - 20) := by
        rw [← same, Ipv4Header.bytes_ofBytes (by omega), same, ← window_add, Nat.add_sub_cancel' (by omega)]
      have split := window_split data (ip.ihl * 4) (ip.totalLength.toNat - ip.ihl * 4)
      rwa [Nat.add_sub_cancel' (by omega), front, List.append_assoc] at split
    · exact sum.trans (ipv4Checksum_eq _ (by omega))
  · rintro ⟨options, trailing, rfl, version, headerLen, totalLen, checksum⟩
    have header : Ipv4Header.ofBytes (ip.bytes ++ (options ++ (rest ++ trailing))) = ip := Ipv4Header.ofBytes_bytes _ _
    have len : (ip.bytes ++ (options ++ (rest ++ trailing))).length = 20 + (options.length + (rest.length + trailing.length)) := by
      simp only [List.length_append, Ipv4Header.length_bytes]
    have even : options.length % 2 = 0 := by omega
    have options_ : window (ip.bytes ++ (options ++ (rest ++ trailing))) 20 options.length = options := by
      rw [window, List.drop_left' (Ipv4Header.length_bytes _), List.take_left]
    have rest_ : window (ip.bytes ++ (options ++ (rest ++ trailing))) (20 + options.length) rest.length = rest := by
      rw [window, ← List.drop_drop, List.drop_left' (Ipv4Header.length_bytes _), List.drop_left, List.take_left]
    rw [ipv4Check, if_neg (by omega)]
    dsimp only
    rw [header, if_neg (by rw [version]; decide), if_neg (by omega), if_neg (by omega), if_neg (by omega), if_neg (by omega), headerLen,
      Nat.add_sub_cancel_left, options_, ipv4Checksum_eq _ even, if_neg (not_not.mpr checksum), totalLen, Nat.add_sub_cancel_left, rest_]

theorem ipv6Check_iff {ip : Ipv6Header} : ipv6Check data = some (ip, rest) ↔
    ∃ trailing, data = ip.bytes ++ (rest ++ trailing) ∧ ip.version4Tc4 >>> 4 = 6 ∧ ip.payloadLength.toNat = rest.length := by
  constructor
  · intro checked
    unfold ipv6Check at checked
    simp only [Option.ite_none_left_eq_some, ne_eq, not_not, Option.some.injEq, Prod.mk.injEq] at checked
    obtain ⟨enough, version, whole, rfl, rfl⟩ := checked
    refine ⟨data.drop (40 + (Ipv6Header.ofBytes data).payloadLength.toNat), ?_, version, (length_window (by omega)).symm⟩
    rw [Ipv6Header.bytes_ofBytes (by omega)]
    exact window_split _ _ _
  · rintro ⟨trailing, rfl, version, length⟩
    have header : Ipv6Header.ofBytes (ip.bytes ++ (rest ++ trailing)) = ip := Ipv6Header.ofBytes_bytes _ _
    have len : (ip.bytes ++ (rest ++ trailing)).length = 40 + (rest.length + trailing.length) := by
      simp only [List.length_append, Ipv6Header.length_bytes]
    have rest_ : window (ip.bytes ++ (rest ++ trailing)) 40 rest.length = rest := by
      rw [window, List.drop_left' (Ipv6Header.length_bytes _), List.take_left]
    rw [ipv6Check, if_neg (by omega)]
    dsimp only
    rw [header, if_neg (not_not.mpr version), if_neg (by omega), length, rest_]

theorem udpCheck_iff {udp : UdpHeader} : udpCheck data = some (udp, payload) ↔
    ∃ stray, data = udp.bytes ++ (payload ++ stray) ∧ udp.length.toNat = 8 + payload.length := by
  constructor
  · intro checked
    unfold udpCheck at checked
    simp only [Option.ite_none_left_eq_some, Option.some.injEq, Prod.mk.injEq] at checked
    obtain ⟨enough, minimal, whole, rfl, rfl⟩ := checked
    have length : (window data 8 ((UdpHeader.ofBytes data).length.toNat - 8)).length = (UdpHeader.ofBytes data).length.toNat - 8 :=
      length_window (by omega)
    refine ⟨data.drop (8 + ((UdpHeader.ofBytes data).length.toNat - 8)), ?_, by omega⟩
    rw [UdpHeader.bytes_ofBytes (by omega)]
    exact window_split _ _ _
  · rintro ⟨stray, rfl, length⟩
    have header : UdpHeader.ofBytes (udp.bytes ++ (payload ++ stray)) = udp := UdpHeader.ofBytes_bytes _ _
    have len : (udp.bytes ++ (payload ++ stray)).length = 8 + (payload.length + stray.length) := by
      simp only [List.length_append, UdpHeader.length_bytes]
    have payload_ : window (udp.bytes ++ (payload ++ stray)) 8 payload.length = payload := by
      rw [window, List.drop_left' (UdpHeader.length_bytes _), List.take_left]
    rw [udpCheck, if_neg (by omega)]
    dsimp only
    rw [header, if_neg (by omega), if_neg (by omega), length, Nat.add_sub_cancel_left, payload_]

theorem readDatagram_iff {d : Datagram} : readDatagram data = some d ↔
    ∃ options stray trailing, data = d.ip.bytes ++ (options ++ ((d.udp.bytes ++ (d.data ++ stray)) ++ trailing)) ∧
      Ipv4Framed d.ip options (d.udp.bytes ++ (d.data ++ stray)) ∧ d.ip.protocol = ipv4ProtocolUdp ∧
      d.udp.length.toNat = 8 + d.data.length ∧
      d.udp.checksum = udpChecksum { d.udp with checksum := 0 } d.data d.ip.sourceAddress d.ip.destinationAddress := by
  constructor
  · intro read
    simp only [readDatagram] at read
    repeat' split at read
    all_goals cases read
    next ahead _ _ _ framed _ _ _ carried sum =>
      obtain ⟨options, trailing, split, framed⟩ := ipv4Check_iff.mp framed
      obtain ⟨stray, rfl, length⟩ := udpCheck_iff.mp carried
      refine ⟨options, stray, trailing, split, framed, ?_, length, not_not.mp sum⟩
      have udp := not_not.mp (not_or.mp ahead).2
      rwa [split] at udp
  · rintro ⟨options, stray, trailing, rfl, framed, protocol, length, sum⟩
    have version : (d.ip.bytes ++ (options ++ ((d.udp.bytes ++ (d.data ++ stray)) ++ trailing))).headD 0 >>> 4 = 4 := by
      have four : ((d.ip.version4Ihl4 &&& 0xF0) >>> 4).toNat = 4 := framed.version
      rw [masked_version] at four
      exact UInt8.toNat_inj.mp four
    have enough : ¬ (d.ip.bytes ++ (options ++ ((d.udp.bytes ++ (d.data ++ stray)) ++ trailing))).length < 20 := by
      rw [List.length_append, Ipv4Header.length_bytes]
      omega
    have udp : (d.ip.bytes ++ (options ++ ((d.udp.bytes ++ (d.data ++ stray)) ++ trailing))).getD 9 0 = ipv4ProtocolUdp := protocol
    rw [readDatagram, if_neg (not_not.mpr version), if_neg (not_or.mpr ⟨enough, not_not.mpr udp⟩),
      ipv4Check_iff.mpr ⟨options, trailing, rfl, framed⟩]
    dsimp only
    rw [udpCheck_iff.mpr ⟨stray, rfl, length⟩]
    dsimp only
    rw [if_neg (not_not.mpr sum)]

theorem readDatagram6_iff {d : Datagram6} : readDatagram6 data = some d ↔
    ∃ stray trailing, data = d.ip.bytes ++ ((d.udp.bytes ++ (d.data ++ stray)) ++ trailing) ∧
      d.ip.version4Tc4 >>> 4 = 6 ∧ d.ip.payloadLength.toNat = (d.udp.bytes ++ (d.data ++ stray)).length ∧
      d.ip.nextHeader = ipv6NextUdp ∧ d.udp.length.toNat = 8 + d.data.length ∧
      d.udp.checksum = udpIp6Checksum { d.udp with checksum := 0 } d.data d.ip.sourceAddress d.ip.destinationAddress := by
  constructor
  · intro read
    simp only [readDatagram6] at read
    repeat' split at read
    all_goals cases read
    next ahead _ _ _ framed _ _ _ carried sum =>
      obtain ⟨trailing, split, version, whole⟩ := ipv6Check_iff.mp framed
      obtain ⟨stray, rfl, length⟩ := udpCheck_iff.mp carried
      refine ⟨stray, trailing, split, version, whole, ?_, length, not_not.mp sum⟩
      have udp := not_not.mp (not_or.mp ahead).2
      rwa [split] at udp
  · rintro ⟨stray, trailing, rfl, version, whole, next, length, sum⟩
    have enough : ¬ (d.ip.bytes ++ ((d.udp.bytes ++ (d.data ++ stray)) ++ trailing)).length < 40 := by
      rw [List.length_append, Ipv6Header.length_bytes]
      omega
    have udp : (d.ip.bytes ++ ((d.udp.bytes ++ (d.data ++ stray)) ++ trailing)).getD 6 0 = ipv6NextUdp := next
    rw [readDatagram6, if_neg (not_or.mpr ⟨enough, not_not.mpr udp⟩), ipv6Check_iff.mpr ⟨trailing, rfl, version, whole⟩]
    dsimp only
    rw [udpCheck_iff.mpr ⟨stray, rfl, length⟩]
    dsimp only
    rw [if_neg (not_not.mpr sum)]

end

/-! ## Packets of both versions -/

/-- What the checksum of UDP covers with IPv6: the addresses, the length and the next header. -/
def pseudoHeader6 (source destination : Vector UInt8 16) (len : Nat) : Bytes :=
  source.toList ++ destination.toList ++ (be32 len ++ [0, 0, 0, 17])

/-- The checksum of a datagram over IPv6: a computed zero is sent as all ones. -/
def datagramChecksum6 (source destination : Vector UInt8 16) (udp : UdpHeader) (payload : Bytes) : UInt16 :=
  let sum := inetChecksum (pseudoHeader6 source destination (8 + payload.length) ++ { udp with checksum := 0 }.bytes ++ payload)
  if sum = 0 then 0xFFFF else sum

/-- A UDP datagram in one IPv6 packet without extension headers, with bytes behind it. -/
structure UdpPacket6 where
  ip : Ipv6Header
  udp : UdpHeader
  payload : Bytes
  stray : Bytes
  version : ip.version4Tc4 >>> 4 = 6
  payloadLen : ip.payloadLength.toNat = 8 + payload.length + stray.length
  protocol : ip.nextHeader = 17
  udpLen : udp.length.toNat = 8 + payload.length
  udpChecksum : udp.checksum = datagramChecksum6 ip.sourceAddress ip.destinationAddress udp payload

def UdpPacket6.bytes (p : UdpPacket6) : Bytes := p.ip.bytes ++ (p.udp.bytes ++ (p.payload ++ p.stray))

/-- A well-formed packet of the device. -/
inductive DevicePacket where
  | v4 (p : UdpPacket)
  | v6 (p : UdpPacket6)

namespace DevicePacket

def bytes : DevicePacket → Bytes
  | v4 p => p.bytes
  | v6 p => p.bytes

def udp : DevicePacket → UdpHeader
  | v4 p => p.udp
  | v6 p => p.udp

/-- Its addresses, as a pair of a request, and its payload. -/
def request : DevicePacket → Request
  | v4 p => ⟨⟨.ipv4 ⟨p.ip.sourceAddress, p.udp.sourcePort⟩, .ipv4 ⟨p.ip.destinationAddress, p.udp.destPort⟩⟩, p.payload⟩
  | v6 p => ⟨⟨.ipv6 p.ip.sourceAddress p.udp.sourcePort, .ipv6 p.ip.destinationAddress p.udp.destPort⟩, p.payload⟩

/-- The packet with the checksum that tun2socks computes. -/
def coded : DevicePacket → Bytes
  | v4 p => p.ip.bytes ++ (p.options ++ ({ p.udp with
      checksum := Tun2socks.udpChecksum { p.udp with checksum := 0 } p.payload p.ip.sourceAddress p.ip.destinationAddress }.bytes ++
        (p.payload ++ p.stray)))
  | v6 p => p.ip.bytes ++ ({ p.udp with
      checksum := udpIp6Checksum { p.udp with checksum := 0 } p.payload p.ip.sourceAddress p.ip.destinationAddress }.bytes ++
        (p.payload ++ p.stray))

/-- Whether tun2socks handles its version of IP. -/
def Handled (S : Settings) : DevicePacket → Prop
  | v4 _ => True
  | v6 _ => S.netifIp6addr = true

/-- What is submitted for it. -/
def submission (S : Settings) (p : DevicePacket) : Submission where
  request := p.request
  isDns := match p with
    | v4 p => S.udpgwTransparentDns && p.ip.destinationAddress == S.netifIpaddr && p.udp.destPort == Dns.dnsPort
    | v6 _ => false

end DevicePacket

/-! ## Their checksums -/

section
variable (header : UdpHeader) (payload : Bytes) (source destination : Vector UInt8 16)

theorem datagram6_words :
    words (pseudoHeader6 source destination (8 + payload.length) ++ header.bytes ++ payload) =
      words source.toList ++ words destination.toList ++ words (be32 (8 + payload.length)) ++ words (be32 ipv6NextUdp.toNat) ++
        words header.bytes ++ words payload := by
  have sixteen (ip : Vector UInt8 16) : ip.toList.length % 2 = 0 := by rw [Vector.length_toList]
  simp only [pseudoHeader6, List.append_assoc]
  rw [words_append (sixteen _), words_append (sixteen _)]
  rfl

theorem datagram6_sum_pos : (words (pseudoHeader6 source destination (8 + payload.length) ++ header.bytes ++ payload)).sum ≠ 0 := by
  have next : (words (be32 ipv6NextUdp.toNat)).sum = 17 := by decide
  rw [datagram6_words]
  simp only [List.sum_append, next]
  omega

theorem udpIp6Checksum_eq : udpIp6Checksum header payload source destination =
    inetChecksum (pseudoHeader6 source destination (8 + payload.length) ++ header.bytes ++ payload) := by
  have sum : checksumSummer source.toList + checksumSummer destination.toList + checksumSummer (be32 (8 + payload.length)) +
      checksumSummer (be32 ipv6NextUdp.toNat) + checksumSummer header.bytes + payloadSum payload =
        (words (pseudoHeader6 source destination (8 + payload.length) ++ header.bytes ++ payload)).sum := by
    have sixteen (ip : Vector UInt8 16) : ip.toList.length % 2 = 0 := by rw [Vector.length_toList]
    have four (n : Nat) : (be32 n).length % 2 = 0 := by rw [show (be32 n).length = 4 from rfl]
    have eight : header.bytes.length % 2 = 0 := by rw [UdpHeader.length_bytes]
    rw [datagram6_words, payloadSum_eq]
    simp only [List.sum_append]
    rw [checksumSummer_eq (sixteen _), checksumSummer_eq (sixteen _), checksumSummer_eq (four _), checksumSummer_eq (four _),
      checksumSummer_eq eight]
  have folded := isOnesSum_foldCarry (words (pseudoHeader6 source destination (8 + payload.length) ++ header.bytes ++ payload)).sum
  rw [udpIp6Checksum, sum, if_neg (mt folded.zero.mp (datagram6_sum_pos header payload source destination)), inetChecksum_eq folded]

theorem datagramChecksum6_iff (udp : UdpHeader) : datagramChecksum6 source destination udp payload =
      udpIp6Checksum { udp with checksum := 0 } payload source destination ↔
    datagramChecksum6 source destination udp payload ≠ 0xFFFF := by
  have ones := inetChecksum_ne (datagram6_sum_pos { udp with checksum := 0 } payload source destination)
  rw [udpIp6Checksum_eq]
  unfold datagramChecksum6
  dsimp only
  split
  next zero =>
    rw [zero]
    decide
  · exact ⟨fun _ => ones, fun _ => rfl⟩

end

theorem UdpHeader.bytes_checksum {udp : UdpHeader} {c : UInt16} {as as' : Bytes} :
    { udp with checksum := c }.bytes ++ as = udp.bytes ++ as' → udp.checksum = c := by
  intro same
  have read := congrArg UdpHeader.ofBytes same
  rw [ofBytes_bytes, ofBytes_bytes] at read
  exact (congrArg UdpHeader.checksum read).symm

/-- Tun2socks writes a packet as it should be unless its checksum is computed to be zero. -/
theorem DevicePacket.coded_eq_iff (p : DevicePacket) : p.coded = p.bytes ↔ p.udp.checksum ≠ 0xFFFF := by
  cases p with
  | v4 p =>
    have computed := datagramChecksum_iff p.ip.sourceAddress p.ip.destinationAddress p.udp p.payload
    rw [← p.udpChecksum] at computed
    change _ ↔ p.udp.checksum ≠ 0xFFFF
    rw [← computed]
    constructor
    · intro same
      exact UdpHeader.bytes_checksum (List.append_cancel_left (List.append_cancel_left same))
    · intro same
      rw [coded, ← same]
      rfl
  | v6 p =>
    have computed := datagramChecksum6_iff p.payload p.ip.sourceAddress p.ip.destinationAddress p.udp
    rw [← p.udpChecksum] at computed
    change _ ↔ p.udp.checksum ≠ 0xFFFF
    rw [← computed]
    constructor
    · intro same
      exact UdpHeader.bytes_checksum (List.append_cancel_left same)
    · intro same
      rw [coded, ← same]
      rfl

/-! ## What is submitted -/

section
variable {S : Settings} {data : Bytes} {sub : Submission}

theorem Settings.udpMtu_eq (S : Settings) : S.udpMtu = S.mtu - 28 := by
  simp only [udpMtu]
  split <;> split <;> omega

/-- The packet without a fragment's header: what is read is in one piece. -/
def Whole (data : Bytes) : Prop := data.headD 0 >>> 4 = 4 → readBe16 data 6 &&& 0x3FFF = 0

/-- A packet read with its version. -/
theorem readSubmission_coded (p : DevicePacket) (handled : p.Handled S) (trailing : Bytes) :
    readSubmission S (p.coded ++ trailing) = some (p.submission S) := by
  cases p with
  | v4 p =>
    have version : ((DevicePacket.v4 p).coded ++ trailing).headD 0 >>> 4 = 4 := by
      have four : ((p.ip.version4Ihl4 &&& 0xF0) >>> 4).toNat = 4 := p.version
      rw [masked_version] at four
      exact UInt8.toNat_inj.mp four
    let d : Datagram :=
      { ip := p.ip
        udp := { p.udp with
          checksum := udpChecksum { p.udp with checksum := 0 } p.payload p.ip.sourceAddress p.ip.destinationAddress }
        data := p.payload }
    have size : (d.udp.bytes ++ (d.data ++ p.stray)).length = 8 + p.payload.length + p.stray.length := by
      simp only [List.length_append, UdpHeader.length_bytes, d, Nat.add_assoc]
    have read : readDatagram ((DevicePacket.v4 p).coded ++ trailing) = some d := by
      refine readDatagram_iff.mpr ⟨p.options, p.stray, trailing, ?_, ⟨p.version, p.headerLen, ?_, p.ipChecksum⟩, p.protocol, p.udpLen, rfl⟩
      · simp only [DevicePacket.coded, List.append_assoc, d]
      · rw [size]
        exact p.totalLen
    rw [readSubmission, if_pos version, read]
    rfl
  | v6 p =>
    have version : ((DevicePacket.v6 p).coded ++ trailing).headD 0 >>> 4 = 6 := p.version
    have other : ¬ ((DevicePacket.v6 p).coded ++ trailing).headD 0 >>> 4 = 4 := by
      rw [version]
      decide
    let d : Datagram6 :=
      { ip := p.ip
        udp := { p.udp with
          checksum := udpIp6Checksum { p.udp with checksum := 0 } p.payload p.ip.sourceAddress p.ip.destinationAddress }
        data := p.payload }
    have size : (d.udp.bytes ++ (d.data ++ p.stray)).length = 8 + p.payload.length + p.stray.length := by
      simp only [List.length_append, UdpHeader.length_bytes, d, Nat.add_assoc]
    have read : readDatagram6 ((DevicePacket.v6 p).coded ++ trailing) = some d := by
      refine readDatagram6_iff.mpr ⟨p.stray, trailing, ?_, p.version, ?_, p.protocol, p.udpLen, rfl⟩
      · simp only [DevicePacket.coded, List.append_assoc, d]
      · rw [size]
        exact p.payloadLen
    rw [readSubmission, if_neg other, if_pos ⟨version, handled⟩, read]
    rfl

theorem readSubmission_cases (read : readSubmission S data = some sub) :
    (∃ d, data.headD 0 >>> 4 = 4 ∧ readDatagram data = some d ∧ sub = d.submission S) ∨
      ∃ d, S.netifIp6addr = true ∧ readDatagram6 data = some d ∧ sub = d.submission := by
  unfold readSubmission at read
  split at read
  next version =>
    obtain ⟨d, datagram, same⟩ := Option.map_eq_some_iff.mp read
    exact .inl ⟨d, version, datagram, same.symm⟩
  · split at read
    next both =>
      obtain ⟨d, datagram, same⟩ := Option.map_eq_some_iff.mp read
      exact .inr ⟨d, both.2, datagram, same.symm⟩
    · cases read

/-- What is read is a packet, with bytes behind it. -/
theorem coded_of_readSubmission (whole : Whole data) (read : readSubmission S data = some sub) :
    ∃ p : DevicePacket, ∃ trailing, data = p.coded ++ trailing ∧ p.Handled S ∧ sub = p.submission S := by
  rcases readSubmission_cases read with ⟨d, version, datagram, rfl⟩ | ⟨d, enabled, datagram, rfl⟩
  · obtain ⟨options, stray, trailing, rfl, framed, protocol, length, sum⟩ := readDatagram_iff.mp datagram
    have unfragmented : d.ip.flags3Fragmentoffset13 &&& 0x3FFF = 0 := by
      have flags : readBe16 (d.ip.bytes ++ (options ++ ((d.udp.bytes ++ (d.data ++ stray)) ++ trailing))) 6 =
          d.ip.flags3Fragmentoffset13 :=
        congrArg Ipv4Header.flags3Fragmentoffset13 (Ipv4Header.ofBytes_bytes d.ip _)
      have clear := whole version
      rwa [flags] at clear
    have total := framed.totalLen
    simp only [List.length_append, UdpHeader.length_bytes] at total
    let p : UdpPacket :=
      { ip := d.ip, options, payload := d.data, stray
        udp := { d.udp with checksum := datagramChecksum d.ip.sourceAddress d.ip.destinationAddress d.udp d.data }
        version := framed.version
        headerLen := framed.headerLen
        totalLen := by omega
        unfragmented
        protocol
        udpLen := length
        ipChecksum := framed.checksum
        udpChecksum := rfl }
    refine ⟨.v4 p, trailing, ?_, trivial, rfl⟩
    have udp : d.udp = { d.udp with
        checksum := udpChecksum { d.udp with checksum := 0 } d.data d.ip.sourceAddress d.ip.destinationAddress } := by
      rw [← sum]
    conv => lhs; rw [udp]
    simp only [DevicePacket.coded, List.append_assoc, p]
  · obtain ⟨stray, trailing, rfl, version, length, protocol, udpLen, sum⟩ := readDatagram6_iff.mp datagram
    simp only [List.length_append, UdpHeader.length_bytes] at length
    let p : UdpPacket6 :=
      { ip := d.ip, payload := d.data, stray
        udp := { d.udp with checksum := datagramChecksum6 d.ip.sourceAddress d.ip.destinationAddress d.udp d.data }
        version
        payloadLen := by omega
        protocol
        udpLen
        udpChecksum := rfl }
    refine ⟨.v6 p, trailing, ?_, enabled, rfl⟩
    have udp : d.udp = { d.udp with
        checksum := udpIp6Checksum { d.udp with checksum := 0 } d.data d.ip.sourceAddress d.ip.destinationAddress } := by
      rw [← sum]
    conv => lhs; rw [udp]
    simp only [DevicePacket.coded, List.append_assoc, p]

theorem processDeviceUdpPacket_iff : processDeviceUdpPacket S data = some sub ↔
    S.udpgwRemoteServerAddr = true ∧ readSubmission S data = some sub ∧ sub.request.data.length ≤ S.udpMtu := by
  unfold processDeviceUdpPacket
  cases S.udpgwRemoteServerAddr with
  | false => simp
  | true => simp [Option.filter_eq_some_iff]

theorem submitted_coded (p : DevicePacket) (on : S.udpgwRemoteServerAddr = true) (handled : p.Handled S)
    (fits : p.request.data.length ≤ S.udpMtu) (trailing : Bytes) :
    processDeviceUdpPacket S (p.coded ++ trailing) = some (p.submission S) :=
  processDeviceUdpPacket_iff.mpr ⟨on, readSubmission_coded p handled trailing, fits⟩

/-- A packet in one piece is submitted exactly if it begins with a well-formed packet, of a version that is handled and with the
checksum that is computed, whose payload is no longer than `udp_mtu`. -/
theorem submitted_iff (whole : Whole data) : processDeviceUdpPacket S data = some sub ↔
    S.udpgwRemoteServerAddr = true ∧ ∃ p : DevicePacket, ∃ trailing, data = p.coded ++ trailing ∧ p.Handled S ∧
      p.request.data.length ≤ S.udpMtu ∧ sub = p.submission S := by
  constructor
  · intro submitted
    obtain ⟨on, read, fits⟩ := processDeviceUdpPacket_iff.mp submitted
    obtain ⟨p, trailing, split, handled, rfl⟩ := coded_of_readSubmission whole read
    exact ⟨on, p, trailing, split, handled, fits, rfl⟩
  · rintro ⟨on, p, trailing, rfl, handled, fits, rfl⟩
    exact submitted_coded p on handled fits trailing

theorem UdpPacket6.readDatagram6_bytes (p : UdpPacket6) (zero : p.udp.checksum = 0xFFFF) : readDatagram6 p.bytes = none := by
  by_contra some_
  obtain ⟨d, read⟩ := Option.ne_none_iff_exists'.mp some_
  obtain ⟨stray, trailing, split, -, -, -, length, sum⟩ := readDatagram6_iff.mp read
  have ip : p.ip = d.ip := by
    have same := congrArg Ipv6Header.ofBytes split
    rwa [bytes, Ipv6Header.ofBytes_bytes, Ipv6Header.ofBytes_bytes] at same
  rw [bytes, ip] at split
  have rest := List.append_cancel_left split
  have udp : p.udp = d.udp := by
    have same := congrArg UdpHeader.ofBytes rest
    rwa [UdpHeader.ofBytes_bytes, List.append_assoc, UdpHeader.ofBytes_bytes] at same
  rw [← udp, zero] at sum
  rw [udpIp6Checksum_eq] at sum
  exact inetChecksum_ne (datagram6_sum_pos _ _ _ _) sum.symm

/-- A well-formed packet is submitted as what it is, unless its checksum stands for zero. -/
theorem submitted_bytes_iff (p : DevicePacket) (on : S.udpgwRemoteServerAddr = true) (handled : p.Handled S)
    (fits : p.request.data.length ≤ S.udpMtu) : processDeviceUdpPacket S p.bytes = some (p.submission S) ↔ p.udp.checksum ≠ 0xFFFF := by
  constructor
  · intro submitted zero
    obtain ⟨-, read, -⟩ := processDeviceUdpPacket_iff.mp submitted
    rcases readSubmission_cases read with ⟨d, -, datagram, same⟩ | ⟨d, -, datagram, same⟩
    · cases p with
      | v4 p =>
        have none_ := p.readDatagram_bytes
        rw [if_pos (show p.udp.checksum = 0xFFFF from zero)] at none_
        cases none_.symm.trans datagram
      | v6 p => cases same
    · cases p with
      | v4 p => cases same
      | v6 p => cases (p.readDatagram6_bytes zero).symm.trans datagram
  · intro nonzero
    rw [← p.coded_eq_iff.mpr nonzero, ← List.append_nil p.coded]
    exact submitted_coded p on handled fits []

end

/-! ## What is written -/

/-- The packet has room on the device, and in its length. -/
def Room (S : Settings) (data : Bytes) : BAddr → Prop
  | .ipv4 _ => 20 + 8 + data.length ≤ S.mtu ∧ 20 + 8 + data.length < 2 ^ 16
  | .ipv6 _ _ => S.netifIp6addr = true ∧ 40 + 8 + data.length ≤ S.mtu ∧ 8 + data.length < 2 ^ 16

section
variable {S : Settings} {stale data : Bytes}

instance (S : Settings) (data : Bytes) (addr : BAddr) : Decidable (Room S data addr) :=
  match addr with
  | .ipv4 _ => inferInstanceAs (Decidable (_ ∧ _))
  | .ipv6 _ _ => inferInstanceAs (Decidable (_ ∧ _))

/-- What has room for a header has room in a request. -/
theorem Room.udpMtu {addr : BAddr} (room : Room S data addr) : data.length ≤ S.udpMtu := by
  rw [S.udpMtu_eq]
  cases addr with
  | ipv4 addr =>
    have fits := room.1
    omega
  | ipv6 ip port =>
    have fits := room.2.1
    omega

theorem writePacket6_ok {buf : Bytes} {d : Datagram6} (room : d.bytes.length ≤ buf.length) : writePacket6 buf d = .ok d.bytes := by
  simp only [Datagram6.bytes, List.length_append, Ipv6Header.length_bytes, UdpHeader.length_bytes] at room
  have first : (splice buf 0 d.ip.bytes).length = buf.length := length_splice (by rw [Ipv6Header.length_bytes]; omega)
  have second : (splice (splice buf 0 d.ip.bytes) 40 d.udp.bytes).length = buf.length := by
    rw [length_splice (by rw [UdpHeader.length_bytes, first]; omega), first]
  rw [writePacket6, store_ok (by rw [Ipv6Header.length_bytes]; omega), ok_bind,
    store_ok (by rw [UdpHeader.length_bytes, first]; omega), ok_bind, store_ok (by rw [second]; omega), ok_bind, pure_eq_ok]
  congr 1
  have two := window_splice_two buf d.ip.bytes d.udp.bytes (by rw [Ipv6Header.length_bytes, UdpHeader.length_bytes]; omega)
  rw [Ipv6Header.length_bytes, UdpHeader.length_bytes] at two
  rw [take_eq_window, window_add, window_splice_below (by omega) (by omega), window_splice_self _ _ _ (by omega), two]
  rfl

/-- What is built for IPv4, as a packet. -/
def replyPacket (localAddr remoteAddr : Ipv4Addr) (data : Bytes) (short : 20 + 8 + data.length < 2 ^ 16) : UdpPacket where
  ip := (replyDatagram localAddr remoteAddr data).ip
  options := []
  udp := { (replyDatagram localAddr remoteAddr data).udp with
    checksum := datagramChecksum remoteAddr.ip localAddr.ip (replyDatagram localAddr remoteAddr data).udp data }
  payload := data
  stray := []
  version := show ((0x45 &&& 0xF0 : UInt8) >>> 4).toNat = 4 by decide
  headerLen := show (0x45 &&& 0x0F : UInt8).toNat * 4 = 20 by decide
  totalLen := (UInt16.toNat_ofNat_of_lt' short).trans (by rw [List.length_nil]; omega)
  unfragmented := show (0 : UInt16) &&& 0x3FFF = 0 by decide
  protocol := rfl
  udpLen := UInt16.toNat_ofNat_of_lt' (show 8 + data.length < 2 ^ 16 by omega)
  ipChecksum := ipv4Checksum_eq _ rfl
  udpChecksum := rfl

/-- What is built for IPv6. -/
def replyPacket6 (localIp remoteIp : Vector UInt8 16) (localPort remotePort : UInt16) (data : Bytes)
    (short : 8 + data.length < 2 ^ 16) : UdpPacket6 where
  ip := (replyDatagram6 localIp remoteIp localPort remotePort data).ip
  udp := { (replyDatagram6 localIp remoteIp localPort remotePort data).udp with
    checksum := datagramChecksum6 remoteIp localIp (replyDatagram6 localIp remoteIp localPort remotePort data).udp data }
  payload := data
  stray := []
  version := show ((6 : UInt8) <<< 4) >>> 4 = 6 by decide
  payloadLen := UInt16.toNat_ofNat_of_lt' short
  protocol := rfl
  udpLen := UInt16.toNat_ofNat_of_lt' short
  udpChecksum := rfl

theorem coded_replyPacket (localAddr remoteAddr : Ipv4Addr) (short : 20 + 8 + data.length < 2 ^ 16) :
    (DevicePacket.v4 (replyPacket localAddr remoteAddr data short)).coded = (replyDatagram localAddr remoteAddr data).bytes := by
  simp only [DevicePacket.coded, Datagram.bytes, List.append_assoc, replyPacket, List.nil_append, List.append_nil]
  rfl

theorem coded_replyPacket6 (localIp remoteIp : Vector UInt8 16) (localPort remotePort : UInt16) (short : 8 + data.length < 2 ^ 16) :
    (DevicePacket.v6 (replyPacket6 localIp remoteIp localPort remotePort data short)).coded =
      (replyDatagram6 localIp remoteIp localPort remotePort data).bytes := by
  simp only [DevicePacket.coded, Datagram6.bytes, List.append_assoc, replyPacket6, List.append_nil]
  rfl

/-- What is written when there is room. -/
theorem received_room {localAddr remoteAddr : BAddr} (types : localAddr.type = remoteAddr.type) (buffer : stale.length = S.mtu)
    (room : Room S data localAddr) : ∃ p : DevicePacket,
      udpgwClientHandlerReceived S stale localAddr remoteAddr data = .ok (some p.coded) ∧ p.coded.length ≤ S.mtu ∧
      p.request = ⟨⟨remoteAddr, localAddr⟩, data⟩ ∧ p.Handled S := by
  cases localAddr with
  | ipv4 l =>
    cases remoteAddr with
    | ipv6 ip port => cases types
    | ipv4 r =>
      obtain ⟨fits, short⟩ := room
      have size : (replyDatagram l r data).bytes.length = 20 + 8 + data.length := by
        simp only [Datagram.bytes, List.length_append, Ipv4Header.length_bytes, UdpHeader.length_bytes]
        rfl
      refine ⟨.v4 (replyPacket l r data short), ?_, by rw [coded_replyPacket, size]; exact fits, rfl, trivial⟩
      rw [udpgwClientHandlerReceived, if_neg (by omega), Dns.writePacket_ok (by omega), coded_replyPacket]
      rfl
  | ipv6 lip lport =>
    cases remoteAddr with
    | ipv4 r => cases types
    | ipv6 rip rport =>
      obtain ⟨enabled, fits, short⟩ := room
      have size : (replyDatagram6 lip rip lport rport data).bytes.length = 40 + 8 + data.length := by
        simp only [Datagram6.bytes, List.length_append, Ipv6Header.length_bytes, UdpHeader.length_bytes]
        rfl
      refine ⟨.v6 (replyPacket6 lip rip lport rport data short), ?_, by rw [coded_replyPacket6, size]; exact fits, rfl, enabled⟩
      rw [udpgwClientHandlerReceived, if_neg (by simp [enabled]), if_neg (by omega), writePacket6_ok (by omega), coded_replyPacket6]
      rfl

theorem received_full {localAddr remoteAddr : BAddr} (types : localAddr.type = remoteAddr.type) (full : ¬ Room S data localAddr) :
    udpgwClientHandlerReceived S stale localAddr remoteAddr data = .ok none := by
  cases localAddr with
  | ipv4 l =>
    cases remoteAddr with
    | ipv6 ip port => cases types
    | ipv4 r =>
      unfold Room at full
      exact if_pos (by omega)
  | ipv6 lip lport =>
    cases remoteAddr with
    | ipv4 r => cases types
    | ipv6 rip rport =>
      rw [udpgwClientHandlerReceived]
      split
      · rfl
      next enabled =>
        rw [Bool.not_eq_false] at enabled
        simp only [Room, enabled, true_and] at full
        exact if_pos (by omega)

/-- A reply is written exactly if it has room: as a packet from the remote address to the local one, which is well-formed unless
its checksum is computed to be zero, and which tun2socks itself would submit. -/
theorem reply_written {localAddr remoteAddr : BAddr} (types : localAddr.type = remoteAddr.type) (buffer : stale.length = S.mtu)
    (on : S.udpgwRemoteServerAddr = true) :
    (udpgwClientHandlerReceived S stale localAddr remoteAddr data = .ok none ↔ ¬ Room S data localAddr) ∧
    (Room S data localAddr → ∃ p : DevicePacket, udpgwClientHandlerReceived S stale localAddr remoteAddr data = .ok (some p.coded) ∧
      p.coded.length ≤ S.mtu ∧ p.request = ⟨⟨remoteAddr, localAddr⟩, data⟩ ∧ (p.coded = p.bytes ↔ p.udp.checksum ≠ 0xFFFF) ∧
      processDeviceUdpPacket S p.coded = some (p.submission S)) := by
  refine ⟨⟨fun none_ room => ?_, received_full types⟩, fun room => ?_⟩
  · obtain ⟨p, written, -⟩ := received_room types buffer room
    cases none_.symm.trans written
  · obtain ⟨p, written, short, request, handled⟩ := received_room types buffer room
    have fits : p.request.data.length ≤ S.udpMtu := by
      rw [request]
      exact room.udpMtu
    refine ⟨p, written, short, request, p.coded_eq_iff, ?_⟩
    rw [← List.append_nil p.coded]
    exact submitted_coded p on handled fits []

end

/-- The settings of a device with an MTU of 1500, for both versions. -/
def demoSettings : Settings where
  dnsgw := none
  netifIpaddr := 0x0A000002
  mtu := 1500
  udpgwRemoteServerAddr := true
  netifIp6addr := true
  udpgwTransparentDns := false

/-- An empty query from port 4000, with a byte behind it. -/
theorem submitted_iff_query : processDeviceUdpPacket demoSettings ((Dns.emptyQuery 4000).bytes ++ [7]) =
    some ⟨⟨⟨.ipv4 ⟨0x0A000001, 4000⟩, .ipv4 ⟨0x08080808, 53⟩⟩, []⟩, false⟩ := by
  have nonzero : (Dns.emptyQuery 4000).udp.checksum ≠ 0xFFFF := by decide +kernel
  refine (submitted_iff (fun _ => by decide +kernel)).mpr ⟨rfl, .v4 (Dns.emptyQuery 4000), [7], ?_, trivial, Nat.zero_le _, rfl⟩
  rw [(DevicePacket.v4 (Dns.emptyQuery 4000)).coded_eq_iff.mpr nonzero]
  rfl

theorem submitted_bytes_query :
    processDeviceUdpPacket demoSettings (Dns.emptyQuery 4000).bytes = some ((DevicePacket.v4 (Dns.emptyQuery 4000)).submission demoSettings) :=
  (submitted_bytes_iff (.v4 (Dns.emptyQuery 4000)) rfl trivial (Nat.zero_le _)).mpr (show _ ≠ _ by decide +kernel)

theorem reply_written_query : ∃ p : DevicePacket, p.request = ⟨⟨.ipv4 ⟨0x08080808, 53⟩, .ipv4 ⟨0x0A000001, 4000⟩⟩, [1, 2]⟩ ∧
    udpgwClientHandlerReceived demoSettings (List.replicate 1500 0) (.ipv4 ⟨0x0A000001, 4000⟩) (.ipv4 ⟨0x08080808, 53⟩) [1, 2] =
      .ok (some p.coded) := by
  obtain ⟨p, written, -, request, -⟩ := (@reply_written demoSettings (List.replicate 1500 0) [1, 2] (.ipv4 ⟨0x0A000001, 4000⟩)
    (.ipv4 ⟨0x08080808, 53⟩) rfl List.length_replicate rfl).2 (by decide)
  exact ⟨p, request, written⟩

end Shadowsocks.Tun2socks
