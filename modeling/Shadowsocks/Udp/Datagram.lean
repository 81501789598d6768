import Shadowsocks.Encrypt.Packet
import Shadowsocks.Udp.Header

/-!
# Datagrams in buffers

What both relays do to a datagram: it is received into a fresh buffer, decrypted, or
given a header in front.
-/

namespace Shadowsocks.Udp
set_option autoImplicit false
open Lib

/-- `MAX_UDP_PACKET_SIZE`, the `BUF_SIZE` of `udprelay.c`. -/
def maxUdpPacketSize : Nat := 65507

/-- `balloc` and `recvfrom`: the datagram in a fresh buffer, where memory held `stale`. -/
def recvFrom (stale : Nat → UInt8) (datagram : Bytes) : Except Fault Buffer := do
  let received := datagram.take maxUdpPacketSize
  let buf ← (balloc stale maxUdpPacketSize).write 0 received
  pure { buf with len := received.length }

theorem recvFrom_spec (stale : Nat → UInt8) (datagram : Bytes) :
    ∃ buf, recvFrom stale datagram = .ok buf ∧ buf.Holds (datagram.take maxUdpPacketSize) ∧
      buf.array.length = maxUdpPacketSize := by
  have short : (datagram.take maxUdpPacketSize).length ≤ maxUdpPacketSize := List.length_take_le _ _
  have room : 0 + (datagram.take maxUdpPacketSize).length ≤ (balloc stale maxUdpPacketSize).array.length := by
    rw [length_balloc, Nat.zero_add]
    exact short
  have size : (splice (balloc stale maxUdpPacketSize).array 0 (datagram.take maxUdpPacketSize)).length = maxUdpPacketSize :=
    (length_splice room).trans (length_balloc _ _)
  refine ⟨⟨0, (datagram.take maxUdpPacketSize).length, splice (balloc stale maxUdpPacketSize).array 0
    (datagram.take maxUdpPacketSize)⟩, ?_, ⟨?_, ?_⟩, size⟩
  · rw [recvFrom, Buffer.write_ok room]
    rfl
  · dsimp only [Buffer.Fits]
    omega
  · exact window_splice_self _ _ _ (Nat.zero_le _)

/-- What arrives is decrypted, as a packet of its own. -/
theorem openRecv_spec {P : Platform} (E : Encryptor P) (lawful : P.evp.Lawful) (auth : Bool) (decTmp : Buffer)
    (stale : Nat → UInt8) (datagram : Bytes) :
    ∃ buf r, recvFrom stale datagram = .ok buf ∧ ssDecryptAll E buf auth decTmp maxUdpPacketSize = .ok r ∧
      (∀ bs, openPacket E auth (datagram.take maxUdpPacketSize) = some bs →
        r.ret = 0 ∧ r.buf.Holds bs ∧ maxUdpPacketSize ≤ r.buf.array.length) ∧
      (openPacket E auth (datagram.take maxUdpPacketSize) = none → r.ret = -1) ∧
      (E.method = .table → r.tmp = decTmp) := by
  obtain ⟨buf, received, holds, size⟩ := recvFrom_spec stale datagram
  have short : (datagram.take maxUdpPacketSize).length ≤ 65507 := List.length_take_le _ _
  have len := holds.len
  obtain ⟨r, decrypted, opened, closed, same⟩ := ssDecryptAll_spec (E := E) buf decTmp auth lawful holds.fits (by omega)
    (show maxUdpPacketSize < 2 ^ 62 by decide)
  rw [holds.bytes, size] at opened
  rw [holds.bytes] at closed
  exact ⟨buf, r, received, decrypted, opened, closed, same⟩

/-- `brealloc`, `memmove` and `memcpy`: a header goes in front of what is there. -/
def prepend (junk : Nat → UInt8) (buf : Buffer) (addrHeader : Bytes) : Except Fault Buffer := do
  let buf ← brealloc junk buf (buf.len + addrHeader.length) maxUdpPacketSize
  let buf ← buf.memmove addrHeader.length 0 buf.len
  let buf ← buf.write 0 addrHeader
  pure { buf with len := buf.len + addrHeader.length }

theorem prepend_spec (junk : Nat → UInt8) {buf : Buffer} {bs : Bytes} (holds : buf.Holds bs) (addrHeader : Bytes)
    (small : bs.length + addrHeader.length < 2 ^ 32) :
    ∃ buf', prepend junk buf addrHeader = .ok buf' ∧ buf'.Holds (addrHeader ++ bs) := by
  have len := holds.len
  have within := holds.room
  obtain ⟨more, grown, room, -⟩ := brealloc_ok junk buf (buf.len + addrHeader.length) maxUdpPacketSize
    (by simp only [maxUdpPacketSize]; omega)
  have kept : window (buf.array ++ more) 0 buf.len = bs := (Buffer.bytes_grow holds.fits more).trans holds.bytes
  have moved : (window (buf.array ++ more) 0 buf.len).length = buf.len := by rw [kept, len]
  have long : (splice (buf.array ++ more) addrHeader.length (window (buf.array ++ more) 0 buf.len)).length =
      (buf.array ++ more).length := length_splice (by omega)
  have front := window_pad_front (buf.array ++ more) addrHeader 0 buf.len (by omega)
  rw [Nat.zero_add, kept] at front
  rw [kept] at long
  rw [prepend, grown, ok_bind, Buffer.memmove_ok (by dsimp only; omega) (by dsimp only; omega), ok_bind]
  dsimp only
  rw [kept, Buffer.write_ok (by dsimp only; omega), ok_bind]
  refine ⟨_, rfl, ?_, front⟩
  dsimp only [Buffer.Fits]
  rw [length_splice (by omega)]
  omega

end Shadowsocks.Udp
