import Shadowsocks.Lib.Machine
import Shadowsocks.Udp.Datagram
import Shadowsocks.Udp.Session

/-!
# The UDP relays on the client's side

`udprelay.c` compiled with `MODULE_LOCAL`, as a machine: for ss-local, whose clients speak
SOCKS5, for ss-tunnel, where the destination is configured, and for ss-redir, where the
kernel knows it. All sessions are with the one server, so the family in their keys is that
of its address.
-/

namespace Shadowsocks.Udp.Local
set_option autoImplicit false
open Lib

/-- `MAX_UDP_CONN_NUM`. -/
def maxUdpConnNum : Nat := 256

/-- Where the header in front of a client's data comes from: the datagram itself, the
settings (`MODULE_TUNNEL`; `port` is the value of `atoi`) or the kernel (`MODULE_REDIR`). -/
inductive Front where
  | socks
  | tunnel (host : Bytes) (port : Nat)
  | redir
  deriving DecidableEq, Repr

/-- The settings of the process; `remoteAf` is `remote_addr->sa_family`. -/
structure Config (P : Platform) where
  E : Encryptor P
  text : AddrText
  auth : Bool
  front : Front
  remoteAf : UInt16

/-- `server_ctx_t` and the scratch buffers. The last two fields are ghosts: the packets sent
to the server, and what was sent back to clients. -/
structure State where
  sessions : Sessions
  auth : Bool
  encTmp : Buffer := {}
  decTmp : Buffer := {}
  sent : List Bytes := []
  replied : List Replied := []

/-- `dst` is what `get_dstaddr` finds, `iv` what `rand_bytes` gives, and `socket` says
whether a socket can be had: for a new session, or in ss-redir for a reply. -/
inductive Event where
  | serverRecv (src : Sockaddr) (dst : Option Sockaddr) (datagram : Bytes) (stale : Nat → UInt8) (iv : Bytes) (socket : Bool)
  | remoteRecv (id : Nat) (datagram : Bytes) (stale : Nat → UInt8) (socket : Bool)
  | remoteTimeout (id : Nat)

/-- A datagram that will be relayed: the header is at `offset` in the buffer. -/
structure Framed where
  buf : Buffer
  offset : Nat
  addrHeader : Bytes
  frag : UInt8

section
variable {P : Platform}

/-- `init_udprelay`. -/
def start (C : Config P) : State where
  sessions := .init maxUdpConnNum
  auth := C.auth

/-! ## `server_recv_cb` -/

/-- `addr_header` of ss-tunnel. An address that `dns_pton` cannot read is what the stack
holds. -/
def tunnelHeader (P : Platform) (text : AddrText) (host : Bytes) (port : Nat) : Except Fault Bytes := do
  let garbage (n : Nat) := (List.range n).map P.junk
  let addr := match text.corkIpInit host with
    | some (.v4 _) => 1 :: (text.pton4 host).getD (garbage 4)
    | some (.v6 _) => 4 :: (text.pton6 host).getD (garbage 16)
    | none => 3 :: UInt8.ofNat host.length :: host
  let addrHeader ← (balloc (fun _ => 0) 256).append addr
  let addrHeader ← addrHeader.append (be16 (port % 2 ^ 16))
  addrHeader.read 0 addrHeader.len

/-- The part up to the lookup: the new `server_ctx->auth`, and the datagram unless it is
dropped. -/
def frame (C : Config P) (auth : Bool) (dst : Option Sockaddr) (stale : Nat → UInt8) (datagram : Bytes) :
    Except Fault (Bool × Option Framed) := do
  let buf ← recvFrom stale datagram
  match C.front with
  | .socks => do
    let frag ← buf.byte 2
    let (flag, parsed) ← parseUdprealyHeader C.text buf 3 (sizeSub buf.len 3)
    match parsed with
    | none => pure (auth || flag, none)
    | some p => do
      let addrHeader ← buf.read 3 p.len
      pure (auth || flag, some { buf, offset := 3, addrHeader, frag })
  | .tunnel host port => do
    let addrHeader ← tunnelHeader P C.text host port
    let buf ← prepend P.junk buf addrHeader
    pure (auth, some { buf, offset := 0, addrHeader, frag := 0 })
  | .redir =>
    match dst with
    | none => pure (auth, none)
    | some dst =>
      let addrHeader := constructUdprealyHeader dst
      if addrHeader.length = 0 then pure (auth, none)
      else do
        let buf ← prepend P.junk buf addrHeader
        pure (auth, some { buf, offset := 0, addrHeader, frag := 0 })

/-- What is in front of the header is taken off. -/
def strip (f : Framed) : Except Fault Buffer :=
  if 0 < f.offset then
    let len := sizeSub f.buf.len f.offset
    ({ f.buf with len } : Buffer).memmove 0 f.offset len
  else pure f.buf

/-- `buf->array[0] |= ONETIMEAUTH_FLAG`. -/
def mark (auth : Bool) (buf : Buffer) : Except Fault Buffer :=
  if auth then do
    let first ← buf.byte 0
    buf.write 0 [first ||| 0x10]
  else pure buf

/-- The packet for the server, and the scratch buffer. -/
def encode (C : Config P) (auth : Bool) (encTmp : Buffer) (f : Framed) (iv : Bytes) : Except Fault (Option Bytes × Buffer) := do
  let buf ← strip f
  let buf ← mark auth buf
  let r ← ssEncryptAll C.E buf auth iv encTmp maxUdpPacketSize
  if r.ret ≠ 0 then pure (none, r.tmp)
  else do
    let packet ← r.buf.read 0 r.buf.len
    pure (some packet, r.tmp)

/-- The packet goes to the server on the socket of the session. -/
def relay (C : Config P) (s : State) (id : Nat) (f : Framed) (iv : Bytes) : Except Fault State := do
  let (packet, encTmp) ← encode C s.auth s.encTmp f iv
  let s := { s with encTmp }
  match packet with
  | none => pure s
  | some packet => do
    let _ ← s.sessions.deref id
    pure { s with sent := s.sent ++ [packet] }

def serverRecvCb (C : Config P) (s : State) (src : Sockaddr) (dst : Option Sockaddr) (datagram : Bytes) (stale : Nat → UInt8)
    (iv : Bytes) (socket : Bool) : Except Fault State := do
  let (auth, framed) ← frame C s.auth dst stale datagram
  let s := { s with auth }
  match framed with
  | none => pure s
  | some f => do
    let (found, sessions) ← s.sessions.lookupClient C.remoteAf src
    let s := { s with sessions }
    if f.frag ≠ 0 then pure s
    else match found with
      | some id => relay C s id f iv
      | none =>
        if socket then do
          let ctx : RemoteCtx := { af := C.remoteAf, addrHeader := f.addrHeader, srcAddr := src }
          let sessions ← (s.sessions.newRemote ctx).insertAndStart s.sessions.heap.next (hashKey C.remoteAf src)
          relay C { s with sessions } s.sessions.heap.next f iv
        else pure s

/-! ## The other callbacks -/

/-- The first half of `remote_recv_cb`: what the server sent is decrypted and its header
read. -/
def openReply (E : Encryptor P) (text : AddrText) (buf decTmp : Buffer) : Except Fault (Option (Buffer × Parsed) × Buffer) := do
  let r ← ssDecryptAll E buf false decTmp maxUdpPacketSize
  if r.ret ≠ 0 then pure (none, r.tmp)
  else do
    let (_, parsed) ← parseUdprealyHeader text r.buf 0 r.buf.len
    pure (parsed.map (r.buf, ·), r.tmp)

/-- What the client is sent, and where from in the case of ss-redir. -/
def construct (C : Config P) (buf : Buffer) (p : Parsed) : Except Fault (Option (Buffer × Option Sockaddr)) :=
  match C.front with
  | .socks => do
    let buf ← prepend P.junk buf [0, 0, 0]
    pure (some (buf, none))
  | .tunnel .. => do
    let len := sizeSub buf.len p.len
    let buf ← ({ buf with len } : Buffer).memmove 0 p.len len
    pure (some (buf, none))
  | .redir =>
    if p.storage.IsInet then do
      let len := sizeSub buf.len p.len
      let buf ← ({ buf with len } : Buffer).memmove 0 p.len len
      pure (some (buf, some p.storage))
    else pure none

/-- What the client is sent for a datagram of the server, and where from, and the scratch buffer. -/
def answer (C : Config P) (decTmp : Buffer) (datagram : Bytes) (stale : Nat → UInt8) :
    Except Fault (Option (Bytes × Option Sockaddr) × Buffer) := do
  let buf ← recvFrom stale datagram
  let (opened, decTmp) ← openReply C.E C.text buf decTmp
  match opened with
  | none => pure (none, decTmp)
  | some (buf, p) => do
    match ← construct C buf p with
    | none => pure (none, decTmp)
    | some (buf, src) => do
      let packet ← buf.read 0 buf.len
      pure (some (packet, src), decTmp)

/-- The end of `remote_recv_cb`: the packet goes to the client whose session it is, in ss-redir on a socket of its own. -/
def sendBack (ctx : RemoteCtx) (socket : Bool) : Option (Bytes × Option Sockaddr) → List Replied
  | none => []
  | some (packet, src) => if src.isSome ∧ socket = false then [] else [{ packet, dst := ctx.srcAddr, src }]

/-- `remote_recv_cb`. -/
def remoteRecvCb (C : Config P) (s : State) (id : Nat) (datagram : Bytes) (stale : Nat → UInt8) (socket : Bool) :
    Except Fault State := do
  let ctx ← s.sessions.deref id
  let (packet, decTmp) ← answer C s.decTmp datagram stale
  pure { s with decTmp, replied := s.replied ++ sendBack ctx socket packet }

/-- `remote_timeout_cb`. -/
def remoteTimeoutCb (s : State) (id : Nat) : Except Fault State := do
  let sessions ← s.sessions.remoteTimeoutCb id
  pure { s with sessions }

/-! ## The machine -/

def enabled (C : Config P) (s : State) : Event → Bool
  | .serverRecv _ _ _ _ iv _ => decide (iv.length = C.E.ivLen)
  | .remoteRecv id _ _ _ => s.sessions.watched id
  | .remoteTimeout id => s.sessions.watched id

def fire (C : Config P) (s : State) : Event → Except Fault State
  | .serverRecv src dst datagram stale iv socket => serverRecvCb C s src dst datagram stale iv socket
  | .remoteRecv id datagram stale socket => remoteRecvCb C s id datagram stale socket
  | .remoteTimeout id => remoteTimeoutCb s id

def machine (C : Config P) : Machine State Event Fault where
  enabled := enabled C
  fire := fire C

/-! ## What a callback can do -/

/-- The outcomes of an event that does not fail. -/
inductive Fired (C : Config P) (s : State) : Event → State → Prop where
  | dropped (src : Sockaddr) (dst : Option Sockaddr) (datagram : Bytes) (stale : Nat → UInt8) (iv : Bytes) (socket auth : Bool)
      (framed : frame C s.auth dst stale datagram = .ok (auth, none)) :
      Fired C s (.serverRecv src dst datagram stale iv socket) { s with auth }
  | ignored (src : Sockaddr) (dst : Option Sockaddr) (datagram : Bytes) (stale : Nat → UInt8) (iv : Bytes) (socket auth : Bool)
      (f : Framed) (framed : frame C s.auth dst stale datagram = .ok (auth, some f)) (sessions : Sessions)
      (kept : Sessions.Kept maxUdpConnNum s.sessions sessions) :
      Fired C s (.serverRecv src dst datagram stale iv socket) { s with auth, sessions }
  | relayed (src : Sockaddr) (dst : Option Sockaddr) (datagram : Bytes) (stale : Nat → UInt8) (iv : Bytes) (socket auth : Bool)
      (f : Framed) (framed : frame C s.auth dst stale datagram = .ok (auth, some f)) (whole : f.frag = 0) (sessions : Sessions)
      (moved : Sessions.Kept maxUdpConnNum s.sessions sessions ∨
        ∃ ctx, Sessions.Entered maxUdpConnNum s.sessions ctx sessions)
      (packet : Option Bytes) (encTmp : Buffer) (encoded : encode C auth s.encTmp f iv = .ok (packet, encTmp)) :
      Fired C s (.serverRecv src dst datagram stale iv socket)
        { s with auth, sessions, encTmp, sent := s.sent ++ packet.toList }
  | answered (id : Nat) (datagram : Bytes) (stale : Nat → UInt8) (socket : Bool) (ctx : RemoteCtx)
      (here : s.sessions.heap.cell id = some ctx) (packet : Option (Bytes × Option Sockaddr)) (decTmp : Buffer)
      (made : answer C s.decTmp datagram stale = .ok (packet, decTmp)) :
      Fired C s (.remoteRecv id datagram stale socket) { s with decTmp, replied := s.replied ++ sendBack ctx socket packet }
  | expired (id : Nat) (ctx : RemoteCtx) (here : s.sessions.heap.cell id = some ctx) (sessions : Sessions)
      (sound : sessions.Sound maxUdpConnNum) (heap : sessions.heap = s.sessions.heap.free id) :
      Fired C s (.remoteTimeout id) { s with sessions }

section
variable {C : Config P} {s s' : State} {e : Event}

theorem relay_cases {id : Nat} {f : Framed} {iv : Bytes} (done : relay C s id f iv = .ok s') :
    ∃ packet encTmp, encode C s.auth s.encTmp f iv = .ok (packet, encTmp) ∧
      s' = { s with encTmp, sent := s.sent ++ packet.toList } := by
  obtain ⟨⟨packet, encTmp⟩, encoded, done⟩ := bind_eq_ok.mp done
  refine ⟨packet, encTmp, encoded, ?_⟩
  cases packet with
  | none =>
    cases done
    simp
  | some packet =>
    obtain ⟨ctx, -, done⟩ := bind_eq_ok.mp done
    cases done
    rfl

theorem fire_cases (sound : s.sessions.Sound maxUdpConnNum) (on : enabled C s e = true) (done : fire C s e = .ok s') :
    Fired C s e s' := by
  cases e with
  | serverRecv src dst datagram stale iv socket =>
    obtain ⟨⟨auth, framed⟩, eq, done⟩ := bind_eq_ok.mp done
    cases framed with
    | none =>
      cases done
      exact .dropped src dst datagram stale iv socket auth eq
    | some f =>
      obtain ⟨kept, -, miss⟩ := sound.lookup (hashKey C.remoteAf src)
      obtain ⟨⟨found, sessions⟩, looked, done⟩ := bind_eq_ok.mp done
      rw [sound.lookupClient] at looked
      have looked := Except.ok.inj looked
      rw [looked] at kept miss
      dsimp only at kept miss done
      split at done
      · cases done
        exact .ignored src dst datagram stale iv socket auth f eq sessions kept
      · rename_i whole
        have whole := Decidable.not_not.mp whole
        cases found with
        | some id =>
          obtain ⟨packet, encTmp, encoded, rfl⟩ := relay_cases done
          exact .relayed src dst datagram stale iv socket auth f eq whole sessions (.inl kept) packet encTmp encoded
        | none =>
          obtain ⟨fresh, rfl⟩ := miss rfl
          dsimp only at done
          split at done
          · obtain ⟨sessions', admitted, entered⟩ := sound.enter
              (r := { af := C.remoteAf, addrHeader := f.addrHeader, srcAddr := src }) (by decide) fresh
            obtain ⟨sessions'', admitted', done⟩ := bind_eq_ok.mp done
            cases admitted.symm.trans admitted'
            obtain ⟨packet, encTmp, encoded, rfl⟩ := relay_cases done
            exact .relayed src dst datagram stale iv socket auth f eq whole sessions' (.inr ⟨_, entered⟩) packet encTmp encoded
          · cases done
            exact .ignored src dst datagram stale iv socket auth f eq s.sessions kept
  | remoteRecv id datagram stale socket =>
    obtain ⟨ctx, here, done⟩ := bind_eq_ok.mp done
    obtain ⟨⟨packet, decTmp⟩, made, done⟩ := bind_eq_ok.mp done
    cases done
    exact .answered id datagram stale socket ctx (Sessions.deref_eq_ok.mp here) packet decTmp made
  | remoteTimeout id =>
    obtain ⟨ctx, here, -⟩ := Sessions.watched_iff.mp on
    obtain ⟨sessions, expired, sound', heap⟩ := sound.timeout here
    obtain ⟨sessions', expired', done⟩ := bind_eq_ok.mp done
    cases expired.symm.trans expired'
    cases done
    exact .expired id ctx here sessions sound' heap

theorem Fired.sound (fired : Fired C s e s') (sound : s.sessions.Sound maxUdpConnNum) : s'.sessions.Sound maxUdpConnNum := by
  cases fired with
  | dropped => exact sound
  | ignored _ _ _ _ _ _ _ _ _ _ kept => exact kept.sound
  | relayed _ _ _ _ _ _ _ _ _ _ _ moved =>
    rcases moved with kept | ⟨ctx, entered⟩
    · exact kept.sound
    · exact entered.sound
  | answered => exact sound
  | expired _ _ _ _ sound' => exact sound'

/-- The sessions are sound in every run. -/
theorem reach_sound {allowed : State → Event → Prop} (run : (machine C).Reach allowed (start C) s) :
    s.sessions.Sound maxUdpConnNum :=
  run.invariant (fun s => s.sessions.Sound maxUdpConnNum) (Sessions.sound_init _)
    fun _ _ _ sound on _ done => (fire_cases sound on done).sound sound

end

end

end Shadowsocks.Udp.Local
