import Shadowsocks.Lib.Memory

/-!
# IPv4 and UDP headers of packets on the TUN device

`misc/ipv4_proto.h` and `misc/udp_proto.h`. A packet is the list of the `data_len`
bytes at `data`; a field in network byte order is the number it stands for.
-/

namespace Shadowsocks.Tun2socks
set_option autoImplicit false
open Lib

/-- The number in network byte order at `off`. -/
def readBe16 (data : Bytes) (off : Nat) : UInt16 := UInt16.ofNat (ofBe16 (data.drop off))

def readBe32 (data : Bytes) (off : Nat) : UInt32 :=
  UInt32.ofNat (ofBe16 (data.drop off) * 2 ^ 16 + ofBe16 (data.drop (off + 2)))

/-- The address and port of an IPv4 `BAddr`. -/
structure Ipv4Addr where
  ip : UInt32
  port : UInt16
  deriving DecidableEq, Repr

/-- `struct ipv4_header`. -/
structure Ipv4Header where
  version4Ihl4 : UInt8
  ds : UInt8
  totalLength : UInt16
  identification : UInt16
  flags3Fragmentoffset13 : UInt16
  ttl : UInt8
  protocol : UInt8
  checksum : UInt16
  sourceAddress : UInt32
  destinationAddress : UInt32
  deriving DecidableEq, Repr

/-- `struct udp_header`. -/
structure UdpHeader where
  sourcePort : UInt16
  destPort : UInt16
  length : UInt16
  checksum : UInt16
  deriving DecidableEq, Repr

def Ipv4Header.bytes (h : Ipv4Header) : Bytes :=
  [h.version4Ihl4, h.ds] ++ be16 h.totalLength.toNat ++ be16 h.identification.toNat ++
    be16 h.flags3Fragmentoffset13.toNat ++ [h.ttl, h.protocol] ++ be16 h.checksum.toNat ++
    be32 h.sourceAddress.toNat ++ be32 h.destinationAddress.toNat

/-- `memcpy` of the first 20 bytes into the structure. -/
def Ipv4Header.ofBytes (data : Bytes) : Ipv4Header where
  version4Ihl4 := data.getD 0 0
  ds := data.getD 1 0
  totalLength := readBe16 data 2
  identification := readBe16 data 4
  flags3Fragmentoffset13 := readBe16 data 6
  ttl := data.getD 8 0
  protocol := data.getD 9 0
  checksum := readBe16 data 10
  sourceAddress := readBe32 data 12
  destinationAddress := readBe32 data 16

def UdpHeader.bytes (h : UdpHeader) : Bytes :=
  be16 h.sourcePort.toNat ++ be16 h.destPort.toNat ++ be16 h.length.toNat ++ be16 h.checksum.toNat

def UdpHeader.ofBytes (data : Bytes) : UdpHeader where
  sourcePort := readBe16 data 0
  destPort := readBe16 data 2
  length := readBe16 data 4
  checksum := readBe16 data 6

/-- `IPV4_GET_VERSION` and `IPV4_GET_IHL`. -/
def Ipv4Header.version (h : Ipv4Header) : Nat := ((h.version4Ihl4 &&& 0xF0) >>> 4).toNat

def Ipv4Header.ihl (h : Ipv4Header) : Nat := (h.version4Ihl4 &&& 0x0F).toNat

/-! ## Checksums -/

/-- `udp_checksum_summer`, and the two loops of `ipv4_checksum`: the sum of the 16-bit
numbers. No packet is long enough for the sum to leave `uint32_t`. -/
def checksumSummer : Bytes → Nat
  | hi :: lo :: rest => hi.toNat * 256 + lo.toNat + checksumSummer rest
  | _ => 0

/-- The loop `while (t >> 16)`. -/
def foldCarry (t : Nat) : Nat :=
  if t < 2 ^ 16 then t else foldCarry (t % 2 ^ 16 + t / 2 ^ 16)
termination_by t

def ipv4Checksum (header : Ipv4Header) (extra : Bytes) : UInt16 :=
  ~~~ UInt16.ofNat (foldCarry (checksumSummer header.bytes + checksumSummer extra))

/-- The payload's part of the sum; an odd last byte is the upper half of a number. -/
def payloadSum (payload : Bytes) : Nat :=
  if payload.length % 2 = 0 then checksumSummer payload
  else checksumSummer (payload.take (payload.length - 1)) + checksumSummer [payload.getD (payload.length - 1) 0, 0]

/-- `IPV4_PROTOCOL_UDP`. -/
def ipv4ProtocolUdp : UInt8 := 17

def udpChecksum (header : UdpHeader) (payload : Bytes) (sourceAddr destAddr : UInt32) : UInt16 :=
  let t := foldCarry (checksumSummer (be32 sourceAddr.toNat) + checksumSummer (be32 destAddr.toNat) +
    checksumSummer (be16 ipv4ProtocolUdp.toNat) + checksumSummer (be16 (8 + payload.length)) +
    checksumSummer header.bytes + payloadSum payload)
  ~~~ UInt16.ofNat (if t = 0 then 0xFFFF else t)

/-! ## Checks -/

/-- The header and the payload. -/
def ipv4Check (data : Bytes) : Option (Ipv4Header × Bytes) :=
  if data.length < 20 then none else
  let header := Ipv4Header.ofBytes data
  if header.version ≠ 4 then none else
  let headerLen := header.ihl * 4
  if headerLen < 20 then none else
  if data.length < headerLen then none else
  let totalLength := header.totalLength.toNat
  if totalLength < headerLen then none else
  if data.length < totalLength then none else
  if header.checksum ≠ ipv4Checksum { header with checksum := 0 } (window data 20 (headerLen - 20)) then none else
  some (header, window data headerLen (totalLength - headerLen))

/-- The header and the payload; stray data behind it is ignored. -/
def udpCheck (data : Bytes) : Option (UdpHeader × Bytes) :=
  if data.length < 8 then none else
  let header := UdpHeader.ofBytes data
  if header.length.toNat < 8 then none else
  if 8 + (data.length - 8) < header.length.toNat then none else
  some (header, window data 8 (header.length.toNat - 8))

/-- A UDP packet over IPv4: its headers and its payload. -/
structure Datagram where
  ip : Ipv4Header
  udp : UdpHeader
  data : Bytes
  deriving DecidableEq, Repr

namespace Datagram

def source (d : Datagram) : Ipv4Addr := ⟨d.ip.sourceAddress, d.udp.sourcePort⟩

def destination (d : Datagram) : Ipv4Addr := ⟨d.ip.destinationAddress, d.udp.destPort⟩

def bytes (d : Datagram) : Bytes := d.ip.bytes ++ d.udp.bytes ++ d.data

/-- Both checksums computed anew. -/
def update (d : Datagram) : Datagram :=
  let ip := { d.ip with checksum := 0 }
  let udp := { d.udp with checksum := 0 }
  { d with
    ip := { ip with checksum := ipv4Checksum ip [] }
    udp := { udp with checksum := udpChecksum udp d.data ip.sourceAddress ip.destinationAddress } }

@[simp] theorem update_source (d : Datagram) : d.update.source = d.source := rfl

@[simp] theorem update_destination (d : Datagram) : d.update.destination = d.destination := rfl

end Datagram

/-- The switch on the version and `case 4` up to the comparison of the UDP checksum. -/
def readDatagram (data : Bytes) : Option Datagram :=
  if data.headD 0 >>> 4 ≠ 4 then none else
  if data.length < 20 ∨ data.getD 9 0 ≠ ipv4ProtocolUdp then none else
  match ipv4Check data with
  | none => none
  | some (ip, data) =>
    match udpCheck data with
    | none => none
    | some (udp, data) =>
      if udp.checksum ≠ udpChecksum { udp with checksum := 0 } data ip.sourceAddress ip.destinationAddress then none
      else some { ip, udp, data }

section
variable {data rest : Bytes} {ip : Ipv4Header} {udp : UdpHeader} {d : Datagram}

@[simp] theorem Ipv4Header.length_bytes (h : Ipv4Header) : h.bytes.length = 20 := rfl

@[simp] theorem UdpHeader.length_bytes (h : UdpHeader) : h.bytes.length = 8 := rfl

theorem ipv4Check_length (checked : ipv4Check data = some (ip, rest)) : rest.length + 20 ≤ data.length := by
  simp only [ipv4Check] at checked
  repeat' split at checked
  all_goals cases checked
  rw [length_window (by omega)]
  omega

theorem udpCheck_length (checked : udpCheck data = some (udp, rest)) : rest.length + 8 ≤ data.length := by
  simp only [udpCheck] at checked
  repeat' split at checked
  all_goals cases checked
  rw [length_window (by omega)]
  omega

/-- Without the options the packet is no longer than it was. -/
theorem readDatagram_length (read : readDatagram data = some d) : d.bytes.length ≤ data.length := by
  simp only [readDatagram] at read
  repeat' split at read
  all_goals cases read
  rename_i checked _ _ _ udpChecked _
  have ipLen := ipv4Check_length checked
  have udpLen := udpCheck_length udpChecked
  simp only [Datagram.bytes, List.length_append, Ipv4Header.length_bytes, UdpHeader.length_bytes]
  omega

end

end Shadowsocks.Tun2socks
