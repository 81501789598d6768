import Shadowsocks.Udp.Auth
import Shadowsocks.Udp.Grammar

/-!
# What a client may send to ss-local

A datagram of a SOCKS5 client has three bytes in front of its header. `server_recv_cb` takes
them off without asking how long the datagram is: of a shorter one the parser sees what the
buffer held before, and what is left over is as long as memory. Datagrams of three bytes and
more are dropped, or sent on without these bytes.
-/

namespace Shadowsocks.Udp.Local
set_option autoImplicit false
open Lib

section
variable {P : Platform}

/-- `ss_encrypt_all` and `sendto`. -/
def encryptAndSend (C : Config P) (s : State) (id : Nat) (buf : Buffer) (iv : Bytes) : Except Fault State := do
  let r ← ssEncryptAll C.E buf s.auth iv s.encTmp maxUdpPacketSize
  let s := { s with encTmp := r.tmp }
  if r.ret ≠ 0 then pure s
  else do
    let packet ← r.buf.read 0 r.buf.len
    let _ ← s.sessions.deref id
    pure { s with sent := s.sent ++ [packet] }

/-- The datagram is dropped: there is no new session, and nothing is sent. -/
def Drops (s s' : State) : Prop := s'.sessions.heap.cell = s.sessions.heap.cell ∧ s'.sent = s.sent

/-- The datagram is dropped, or it is three bytes, a whole header and a payload, and what
follows the three bytes is encrypted. -/
def Entry (C : Config P) (s : State) (src : Sockaddr) (datagram : Bytes) (stale : Nat → UInt8) (iv : Bytes) (socket : Bool) : Prop :=
  (∃ s', serverRecvCb C s src none datagram stale iv socket = .ok s' ∧ Drops s s') ∨
  ∃ (rsv : Bytes) (frag t : UInt8) (h : Header) (payload : Bytes) (buf : Buffer) (id : Nat) (sessions : Sessions), datagram = rsv ++ frag :: (t :: (h.addr.body ++ (h.port ++ payload))) ∧
    rsv.length = 2 ∧ h.Valid ∧ t &&& 0xf = h.addr.atyp ∧
    buf.Holds (flagOn (s.auth || (t &&& 0x10 != 0)) (t :: (h.addr.body ++ (h.port ++ payload)))) ∧
    serverRecvCb C s src none datagram stale iv socket =
      encryptAndSend C { s with auth := s.auth || (t &&& 0x10 != 0), sessions } id buf iv

variable {C : Config P} {s : State}

/-- What is taken off and marked is encrypted. -/
theorem relay_eq {f : Framed} {stripped buf : Buffer} (taken : strip f = .ok stripped) (marked : mark s.auth stripped = .ok buf)
    (id : Nat) (iv : Bytes) : relay C s id f iv = encryptAndSend C s id buf iv := by
  rw [relay, encode, taken, ok_bind, marked, ok_bind, encryptAndSend]
  cases encrypted : ssEncryptAll C.E buf s.auth iv s.encTmp maxUdpPacketSize with
  | error f => rfl
  | ok r =>
    rw [ok_bind, ok_bind]
    split
    · rfl
    · cases r.buf.read 0 r.buf.len <;> rfl

/-- What the parser sees of a datagram that has the three bytes. -/
theorem frame_three (socks : C.front = .socks) (auth : Bool) (stale : Nat → UInt8) {datagram : Bytes}
    (small : datagram.length ≤ maxUdpPacketSize) (three : 3 ≤ datagram.length) :
    (∃ auth', frame C auth none stale datagram = .ok (auth', none)) ∨
    ∃ (rsv : Bytes) (frag t : UInt8) (h : Header) (payload : Bytes) (f : Framed),
      datagram = rsv ++ frag :: (t :: (h.addr.body ++ (h.port ++ payload))) ∧ rsv.length = 2 ∧ h.Valid ∧ t &&& 0xf = h.addr.atyp ∧
      frame C auth none stale datagram = .ok (auth || (t &&& 0x10 != 0), some f) ∧ f.offset = 3 ∧ f.buf.Holds datagram := by
  obtain ⟨buf, received, holds, size⟩ := recvFrom_spec stale datagram
  rw [List.take_of_length_le small] at holds
  have len := holds.len
  have room : buf.len ≤ buf.array.length := holds.fits
  have wide : 65507 = buf.array.length := size.symm
  obtain ⟨frag, two⟩ : ∃ x, buf.byte 2 = .ok x :=
    ⟨buf.array.get ⟨2, by omega⟩, by rw [Buffer.byte, List.getElem?_eq_getElem (by omega)]; rfl⟩
  have inUse : sizeSub buf.len 3 = buf.len - 3 := sizeSub_of_le (by omega)
  obtain ⟨t, parsed, -, done⟩ := parse_total C.text buf 3 (buf.len - 3) (by omega) (by omega)
  cases parsed with
  | none =>
    refine .inl ⟨auth || (t &&& 0x10 != 0), ?_⟩
    simp only [frame, received, ok_bind, socks, two, inUse, done]
    rfl
  | some p =>
    have framed : frame C auth none stale datagram = (do
        let addrHeader ← buf.read 3 p.len
        pure (auth || (t &&& 0x10 != 0), some { buf, offset := 3, addrHeader, frag }) : Except Fault (Bool × Option Framed)) := by
      simp only [frame, received, ok_bind, socks, two, inUse, done]
    obtain ⟨t', h, wrote, rfl, flag, inside, room'⟩ := parse_some done
    obtain ⟨-, fragAt⟩ := Buffer.byte_eq_ok.mp two
    have cut : datagram = window buf.array 0 2 ++ frag :: (window buf.array 3 (headerParsed C.text h).len ++
        window buf.array (3 + (headerParsed C.text h).len) (buf.len - 3 - (headerParsed C.text h).len)) := by
      have whole : window buf.array 0 buf.len = datagram := holds.bytes
      have lens : buf.len = 2 + (1 + ((headerParsed C.text h).len + (buf.len - 3 - (headerParsed C.text h).len))) := by omega
      rw [lens, window_add, window_add, window_add, Nat.zero_add, fragAt] at whole
      exact whole.symm
    rw [Buffer.read_ok room', ok_bind, flag] at framed
    refine .inr ⟨window buf.array 0 2, frag, t', h,
      window buf.array (3 + (headerParsed C.text h).len) (buf.len - 3 - (headerParsed C.text h).len), _, ?_, ?_, wrote.valid, wrote.typ, framed, rfl, holds⟩
    · rw [wrote.bytes, List.cons_append, List.append_assoc] at cut
      exact cut
    · exact length_window (by omega)

/-- `server_recv_cb` after the lookup. -/
theorem serverRecvCb_framed {src : Sockaddr} {datagram : Bytes} {stale : Nat → UInt8} (iv : Bytes) (socket : Bool) {auth : Bool}
    {f : Framed} {r : Option Nat × Sessions} (framed : frame C s.auth none stale datagram = .ok (auth, some f))
    (looked : s.sessions.lookupClient C.remoteAf src = .ok r) :
    serverRecvCb C s src none datagram stale iv socket =
      if f.frag ≠ 0 then pure { s with auth, sessions := r.2 }
      else match r.1 with
        | some id => relay C { s with auth, sessions := r.2 } id f iv
        | none =>
          if socket then do
            let ctx : RemoteCtx := { af := C.remoteAf, addrHeader := f.addrHeader, srcAddr := src }
            let sessions ← (r.2.newRemote ctx).insertAndStart r.2.heap.next (hashKey C.remoteAf src)
            relay C { s with auth, sessions } r.2.heap.next f iv
          else pure { s with auth, sessions := r.2 } := by
  rw [serverRecvCb, framed, ok_bind]
  dsimp only
  rw [looked]
  rcases r with ⟨_ | _, _⟩ <;> rfl

/-- A datagram that has the three bytes is dropped, or relayed without them. -/
theorem entry_of_three (socks : C.front = .socks) (sound : s.sessions.Sound maxUdpConnNum) {datagram : Bytes}
    (small : datagram.length ≤ maxUdpPacketSize) (three : 3 ≤ datagram.length) (src : Sockaddr) (stale : Nat → UInt8) (iv : Bytes)
    (socket : Bool) : Entry C s src datagram stale iv socket := by
  rcases frame_three socks s.auth stale small three with ⟨auth, framed⟩ |
    ⟨rsv, frag, t, h, payload, f, whole, two, valid, typ, framed, offset, holds⟩
  · refine .inl ⟨{ s with auth }, ?_, rfl, rfl⟩
    rw [serverRecvCb, framed, ok_bind]
    rfl
  · obtain ⟨kept, -, miss⟩ := sound.lookup (hashKey C.remoteAf src)
    have looked := sound.lookupClient C.remoteAf src
    have has : f.Has (t :: (h.addr.body ++ (h.port ++ payload))) :=
      ⟨rsv ++ [frag], by rw [List.length_append, two, offset]; rfl, by rw [List.append_assoc]; exact whole ▸ holds⟩
    obtain ⟨stripped, taken, left⟩ := strip_spec has
    obtain ⟨buf, marked, ready⟩ := mark_spec (s.auth || (t &&& 0x10 != 0)) left (List.cons_ne_nil _ _)
    have goes : ∀ sessions id, serverRecvCb C s src none datagram stale iv socket =
        relay C { s with auth := s.auth || (t &&& 0x10 != 0), sessions } id f iv → Entry C s src datagram stale iv socket :=
      fun sessions id run => .inr ⟨rsv, frag, t, h, payload, buf, id, sessions, whole, two, valid, typ, ready,
        run.trans (relay_eq taken marked id iv)⟩
    cases found : s.sessions.lookup (hashKey C.remoteAf src) with
    | mk known sessions =>
      rw [found] at looked kept miss
      have run := serverRecvCb_framed iv socket framed looked
      have dropped : serverRecvCb C s src none datagram stale iv socket = .ok { s with auth := s.auth || (t &&& 0x10 != 0), sessions } →
          Entry C s src datagram stale iv socket := fun run => .inl ⟨_, run, kept.cell, rfl⟩
      split at run
      · exact dropped run
      · cases known with
        | some id => exact goes _ _ run
        | none =>
          obtain ⟨fresh, rfl⟩ := miss rfl
          dsimp only at run
          split at run
          · obtain ⟨sessions', admitted, -⟩ := sound.enter
              (r := { af := C.remoteAf, addrHeader := f.addrHeader, srcAddr := src }) (by decide) fresh
            rw [show hashKey C.remoteAf src = RemoteCtx.key { af := C.remoteAf, addrHeader := f.addrHeader, srcAddr := src } from rfl,
              admitted, ok_bind] at run
            exact goes _ _ run
          · exact dropped run

/-! ## Shorter datagrams -/

theorem window_balloc (stale : Nat → UInt8) {size off n : Nat} (inside : off + n ≤ size) :
    window (balloc stale size).array off n = (List.range n).map fun i => stale (off + i) := by
  dsimp only [balloc]
  refine List.ext_getElem? fun i => ?_
  rw [getElem?_window, List.getElem?_map, List.getElem?_map]
  by_cases below : i < n
  · rw [if_pos below, List.getElem?_range (by omega), List.getElem?_range below]
    rfl
  · rw [if_neg below, List.getElem?_eq_none (by rw [List.length_range]; omega)]
    rfl

/-- What the buffer held before is seen behind a datagram. -/
theorem recvFrom_stale (stale : Nat → UInt8) {datagram : Bytes} (small : datagram.length ≤ maxUdpPacketSize) :
    ∃ buf, recvFrom stale datagram = .ok buf ∧ buf.len = datagram.length ∧ buf.array.length = maxUdpPacketSize ∧
      ∀ off n, datagram.length ≤ off → off + n ≤ maxUdpPacketSize → window buf.array off n = (List.range n).map fun i => stale (off + i) := by
  have size : (balloc stale maxUdpPacketSize).array.length = maxUdpPacketSize := length_balloc _ _
  refine ⟨⟨0, datagram.length, splice (balloc stale maxUdpPacketSize).array 0 datagram⟩, ?_, rfl, ?_, ?_⟩
  · rw [recvFrom, List.take_of_length_le small, Buffer.write_ok (by omega)]
    rfl
  · rw [length_splice (by omega), size]
  · intro off n behind inside
    have behind : 0 + datagram.length ≤ off := by omega
    exact (window_splice_above (Nat.zero_le _) behind).trans (window_balloc stale inside)

/-- A buffer in which `01` follows three bytes that are not of the datagram. -/
def oneAtThree (i : Nat) : UInt8 := if i = 3 then 1 else 0

/-- Of a datagram that has not three bytes, more is moved than there is. -/
theorem short_overruns (socks : C.front = .socks) {datagram : Bytes} (short : datagram.length < 3) (src : Sockaddr) (iv : Bytes) :
    ∃ fault, serverRecvCb C (start C) src none datagram oneAtThree iv true = .error fault := by
  obtain ⟨buf, received, len, size, behind⟩ := recvFrom_stale oneAtThree (show datagram.length ≤ maxUdpPacketSize by
    simp only [maxUdpPacketSize]
    omega)
  simp only [maxUdpPacketSize] at size behind
  have header : window buf.array 3 7 = [1, 0, 0, 0, 0, 0, 0] := behind 3 7 (by omega) (by omega)
  have frag : buf.byte 2 = .ok 0 := Buffer.byte_eq_ok.mpr ⟨by omega, behind 2 1 (by omega) (by omega)⟩
  have wrapped : sizeSub buf.len 3 = buf.len + 2 ^ 64 - 3 := by
    rw [sizeSub, if_neg (by omega)]
  have parsed : parseUdprealyHeader C.text buf 3 (sizeSub buf.len 3) =
      .ok (false, some (headerParsed C.text ⟨.ipv4 [0, 0, 0, 0], [0, 0]⟩)) :=
    parse_header (t := 1) (h := ⟨.ipv4 [0, 0, 0, 0], [0, 0]⟩) ⟨⟨rfl, rfl⟩, rfl, header⟩
      (show 7 ≤ _ by omega) (show 3 + 7 ≤ _ by omega)
  have framed : frame C (start C).auth none oneAtThree datagram =
      .ok ((start C).auth || false, some { buf, offset := 3, addrHeader := [1, 0, 0, 0, 0, 0, 0], frag := 0 }) := by
    have read : buf.read 3 7 = .ok [1, 0, 0, 0, 0, 0, 0] := by rw [Buffer.read_ok (by omega), header]
    simp only [frame, received, ok_bind, socks, frag, parsed]
    change buf.read 3 7 >>= _ = _
    rw [read]
    rfl
  have sound := Sessions.sound_init maxUdpConnNum
  have looked := sound.lookupClient C.remoteAf src
  obtain ⟨sessions, admitted, -⟩ := sound.enter (r := { af := C.remoteAf, addrHeader := [1, 0, 0, 0, 0, 0, 0], srcAddr := src })
    (by decide) List.not_mem_nil
  have overrun : strip { buf, offset := 3, addrHeader := [1, 0, 0, 0, 0, 0, 0], frag := 0 } = .error .outOfBounds :=
    strip_short (show buf.len < 3 by omega) (show 3 + buf.array.length < 2 ^ 64 by omega)
  refine ⟨.outOfBounds, ?_⟩
  have missed : (Sessions.init maxUdpConnNum).lookup (hashKey C.remoteAf src) = (none, Sessions.init maxUdpConnNum) := by
    rw [Sessions.lookup, cacheLookup_miss List.not_mem_nil]
  rw [missed] at looked
  rw [serverRecvCb_framed iv true framed looked]
  change ((Sessions.init maxUdpConnNum).newRemote { af := C.remoteAf, addrHeader := [1, 0, 0, 0, 0, 0, 0], srcAddr := src }).insertAndStart
    (Sessions.init maxUdpConnNum).heap.next _ >>= _ = _
  rw [show hashKey C.remoteAf src = RemoteCtx.key { af := C.remoteAf, addrHeader := [1, 0, 0, 0, 0, 0, 0], srcAddr := src } from rfl,
    admitted, ok_bind, relay, encode, overrun]
  rfl

theorem not_entry (socks : C.front = .socks) {datagram : Bytes} (short : datagram.length < 3) (src : Sockaddr) (iv : Bytes) :
    ¬ Entry C (start C) src datagram oneAtThree iv true := by
  obtain ⟨fault, failed⟩ := short_overruns socks short src iv
  rintro (⟨s', done, -⟩ | ⟨rsv, frag, t, h, payload, -, -, -, whole, two, -⟩)
  · cases failed.symm.trans done
  · rw [whole, List.length_append, two, List.length_cons] at short
    omega

/-- ss-local treats a datagram as it should, whatever its buffer held before, if and only if the
datagram has three bytes or more. -/
theorem entry_iff (C : Config P) (socks : C.front = .socks) (datagram : Bytes) (small : datagram.length ≤ maxUdpPacketSize) :
    (∀ s src stale iv socket, (machine C).Reach (fun _ _ => True) (start C) s → Entry C s src datagram stale iv socket) ↔
      3 ≤ datagram.length := by
  constructor
  · intro all
    by_contra short
    exact not_entry socks (Nat.lt_of_not_le short) .zero [] (all (start C) .zero oneAtThree [] true .refl)
  · intro three s src stale iv socket reach
    exact entry_of_three socks (reach_sound reach) small three src stale iv socket

end

/-- ss-local with the method `table`. -/
def socksDemo : Config rc4Platform where
  E := unsortedTable
  text := noText
  auth := false
  front := .socks
  remoteAf := afInet

/-- Two bytes for 10.0.0.1:53. -/
theorem entry_ten : Entry socksDemo (start socksDemo) .zero [0, 0, 0, 1, 10, 0, 0, 1, 0, 53, 65, 66] (fun _ => 0) [] true :=
  (entry_iff socksDemo rfl [0, 0, 0, 1, 10, 0, 0, 1, 0, 53, 65, 66] (show 12 ≤ 65507 by omega)).mpr (by decide) _ _ _ _ _ .refl

/-- A datagram of two bytes in a buffer that held a header. -/
theorem entry_two : ¬ Entry socksDemo (start socksDemo) .zero [0, 0] oneAtThree [] true := not_entry rfl (by decide) .zero []

end Shadowsocks.Udp.Local
