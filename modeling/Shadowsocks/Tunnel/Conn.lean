import Shadowsocks.Acl
import Shadowsocks.Relay.Crypt

/-!
# A connection of `tunnel.c`

One connection of ss-tunnel as a machine. The remote exists from `accept_cb` on, so
`server->remote` is never null here. Nothing is read from the client before the remote
is connected and has been sent the address header.
-/

namespace Shadowsocks.Tunnel
set_option autoImplicit false
open Lib

/-- The settings of the process; `port` is the value of `atoi` on the text given. -/
structure Config (P : Platform) where
  E : Encryptor P
  text : AddrText
  auth : Bool
  host : Bytes
  port : Nat

/-- `server_t` with its remote. The last field is a ghost: the plain text of all that was
produced upstream. -/
structure Conn (P : Platform) where
  connected : Bool := false
  counter : Nat := 0
  sendTimer : Bool := false
  up : Pipe
  down : Pipe
  eCtx : Option (EncCtx P)
  dCtx : Option (EncCtx P)
  plain : Bytes := []

section
variable {P : Platform}

/-- `new_server` and `new_remote`; `iv` is what `rand_bytes` gives. -/
def newConn (C : Config P) (iv : Bytes) : Conn P where
  up := { buf := balloc P.junk bufSize }
  down := { buf := balloc P.junk bufSize }
  eCtx := newContext C.E true iv
  dCtx := newContext C.E false []

/-- `abuf` with the configured destination. An address that `dns_pton` cannot read is
what the stack holds. -/
def buildHeader (C : Config P) : Except Fault Buffer := do
  let garbage (n : Nat) := (List.range n).map P.junk
  let addr := match C.text.corkIpInit C.host with
    | some (.v4 _) => 1 :: (C.text.pton4 C.host).getD (garbage 4)
    | some (.v6 _) => 4 :: (C.text.pton6 C.host).getD (garbage 16)
    | none => 3 :: UInt8.ofNat C.host.length :: C.host
  let abuf ← (balloc P.junk bufSize).append addr
  abuf.append (be16 (C.port % 2 ^ 16))

/-- `remote_send_cb` when the connection is reported: the header is sent once, and
`bfree` has cleared `abuf->len` before the result of `send` is compared with it. -/
def sendHeader (C : Config P) (conn : Conn P) (tmp : Buffer) (send : SendResult) : Except Stop (Conn P) := do
  let conn := { conn with connected := true, sendTimer := false, up := { conn.up with draining := false } }
  let abuf ← orCrash (buildHeader C)
  let abuf ← authHeader C.E C.auth conn.eCtx abuf
  let (cipher, eCtx) ← encryptBuf C.E abuf conn.eCtx tmp
  let data ← orCrash (cipher.read 0 cipher.len)
  let sent := match send.on cipher.len with
    | .count s => data.take s
    | _ => []
  pure { conn with
    up := { conn.up with filling := true, produced := conn.up.produced ++ data, accepted := conn.up.accepted ++ sent }
    down := { conn.down with filling := true }
    eCtx
    plain := conn.plain ++ abuf.bytes }

/-- `remote_send_cb`. -/
def remoteSendCb (C : Config P) (conn : Conn P) (peer : Bool) (tmp : Buffer) (send : SendResult) :
    Except Stop (Conn P) :=
  if conn.connected then do
    let up ← conn.up.drain send
    pure { conn with up }
  else if peer then sendHeader C conn tmp send
  else .error (.closed .notConnected)

/-- The part of `accept_cb` behind the allocations. -/
def acceptCb (C : Config P) (iv : Bytes) (connect : ConnectResult) (tmp : Buffer) : Except Stop (Conn P) :=
  let conn := newConn C iv
  match connect with
  | .failed => .error (.closed .connectFailed)
  | .immediate peer send => remoteSendCb C conn peer tmp send
  | .inProgress => pure { conn with up := { conn.up with draining := true }, sendTimer := true }

/-- `server_recv_cb`. -/
def serverRecvCb (C : Config P) (conn : Conn P) (e : RecvEvent) : Except Stop (Conn P) :=
  match e.recv with
  | .eof => .error (.closed .eof)
  | .failed => .error (.closed .recvFailed)
  | .wouldBlock => pure conn
  | .data segment => do
    let up ← conn.up.receive 0 segment
    let (buf, counter) ← genHash C.E C.auth conn.eCtx up.buf conn.counter
    let (cipher, eCtx) ← encryptBuf C.E buf conn.eCtx e.tmp
    let up ← { up with buf := cipher }.produce.push e.send
    pure { conn with up, counter, eCtx, plain := conn.plain ++ buf.bytes }

/-- `server_send_cb`. -/
def serverSendCb (conn : Conn P) (send : SendResult) : Except Stop (Conn P) := do
  let down ← conn.down.drain send
  pure { conn with down }

/-- `remote_recv_cb`. -/
def remoteRecvCb (C : Config P) (conn : Conn P) (e : RecvEvent) : Except Stop (Conn P) :=
  match e.recv with
  | .eof => .error (.closed .eof)
  | .failed => .error (.closed .recvFailed)
  | .wouldBlock => pure conn
  | .data segment => do
    let (down, dCtx) ← relayDecrypted C.E conn.down conn.dCtx segment e
    pure { conn with down, dCtx }

inductive Event where
  | serverRecv (e : RecvEvent)
  | serverSend (send : SendResult)
  | remoteRecv (e : RecvEvent)
  | remoteSend (peer : Bool) (tmp : Buffer) (send : SendResult)
  | remoteTimeout

/-- A callback runs only while its watcher is active. -/
def enabled (conn : Conn P) : Event → Bool
  | .serverRecv _ => conn.up.filling
  | .serverSend _ => conn.down.draining
  | .remoteRecv _ => conn.down.filling
  | .remoteSend .. => conn.up.draining
  | .remoteTimeout => conn.sendTimer

def fire (C : Config P) (conn : Conn P) : Event → Except Stop (Conn P)
  | .serverRecv e => serverRecvCb C conn e
  | .serverSend send => serverSendCb conn send
  | .remoteRecv e => remoteRecvCb C conn e
  | .remoteSend peer tmp send => remoteSendCb C conn peer tmp send
  | .remoteTimeout => .error (.closed .timeout)

def machine (C : Config P) : Machine (Conn P) Event Stop where
  enabled := enabled
  fire := fire C

end

/-! ## Downstream -/

section
variable {P : Platform} {C : Config P} {conn conn' : Conn P}

/-- The downstream pipe is in order, and untouched until the remote is connected. -/
structure DownInv (conn : Conn P) : Prop where
  ok : conn.down.Ok
  waiting : conn.connected = false → conn.down.draining = false ∧ conn.down.filling = false

theorem remoteSendCb_down {peer : Bool} {tmp : Buffer} {send : SendResult} (inv : DownInv conn)
    (h : remoteSendCb C conn peer tmp send = .ok conn') : DownInv conn' := by
  unfold remoteSendCb at h
  split at h
  · rename_i on
    obtain ⟨up, -, h⟩ := bind_eq_ok.mp h
    cases h
    exact ⟨inv.ok, inv.waiting⟩
  · rename_i off
    rw [Bool.not_eq_true] at off
    obtain ⟨idle, unread⟩ := inv.waiting off
    split at h
    · obtain ⟨abuf, -, h⟩ := bind_eq_ok.mp h
      obtain ⟨auth, -, h⟩ := bind_eq_ok.mp h
      obtain ⟨⟨cipher, eCtx⟩, -, h⟩ := bind_eq_ok.mp h
      obtain ⟨data, -, h⟩ := bind_eq_ok.mp h
      cases h
      constructor
      · exact inv.ok.reuse idle conn.down.buf true
      · intro off'
        cases off'
    · cases h

theorem remoteRecvCb_down {e : RecvEvent} (inv : DownInv conn) (filling : conn.down.filling = true)
    (h : remoteRecvCb C conn e = .ok conn') : DownInv conn' := by
  have on : conn.connected = true := by
    cases connected : conn.connected with
    | true => rfl
    | false =>
      have unread := (inv.waiting connected).2
      rw [filling] at unread
      cases unread
  unfold remoteRecvCb at h
  split at h
  · cases h
  · cases h
  · cases h
    exact inv
  · obtain ⟨⟨down, dCtx⟩, relayed, h⟩ := bind_eq_ok.mp h
    obtain ⟨plain, pushed⟩ := relayDecrypted_cases relayed
    cases h
    have fresh := Pipe.Fresh.produce (inv.ok.delivered filling) plain
    constructor
    · exact Pipe.push_ok fresh (inv.ok.not_draining filling) pushed
    · intro off
      rw [on] at off
      cases off

theorem fire_down {e : Event} (inv : DownInv conn) (on : enabled conn e = true) (h : fire C conn e = .ok conn') :
    DownInv conn' := by
  cases e with
  | serverRecv e =>
    simp only [fire, serverRecvCb] at h
    split at h
    · cases h
    · cases h
    · cases h
      exact inv
    · obtain ⟨up, -, h⟩ := bind_eq_ok.mp h
      obtain ⟨⟨buf, counter⟩, -, h⟩ := bind_eq_ok.mp h
      obtain ⟨⟨cipher, eCtx⟩, -, h⟩ := bind_eq_ok.mp h
      obtain ⟨up', -, h⟩ := bind_eq_ok.mp h
      cases h
      exact ⟨inv.ok, inv.waiting⟩
  | serverSend send =>
    have draining : conn.down.draining = true := on
    obtain ⟨down, drained, h⟩ := bind_eq_ok.mp h
    cases h
    refine ⟨Pipe.drain_ok inv.ok draining drained, ?_⟩
    intro off
    have idle := (inv.waiting off).1
    rw [draining] at idle
    cases idle
  | remoteRecv e => exact remoteRecvCb_down inv on h
  | remoteSend peer tmp send => exact remoteSendCb_down inv h
  | remoteTimeout => cases h

theorem newConn_down (C : Config P) (iv : Bytes) : DownInv (newConn C iv) where
  ok := Pipe.Ok.idle rfl rfl
  waiting _ := ⟨rfl, rfl⟩

theorem acceptCb_down {iv : Bytes} {connect : ConnectResult} {tmp : Buffer} (h : acceptCb C iv connect tmp = .ok conn) :
    DownInv conn := by
  have inv := newConn_down C iv
  unfold acceptCb at h
  dsimp only at h
  split at h
  · cases h
  · exact remoteSendCb_down inv h
  · cases h
    exact ⟨inv.ok, inv.waiting⟩

/-- Along every run the downstream pipe is in order. -/
theorem down_ok {iv : Bytes} {connect : ConnectResult} {tmp : Buffer} {start : Conn P}
    (accepted : acceptCb C iv connect tmp = .ok start)
    (reach : (machine C).Reach (fun _ _ => True) start conn) : conn.down.Ok := by
  have inv := reach.invariant DownInv (acceptCb_down accepted) fun _ _ _ inv on _ fired => fire_down inv on fired
  exact inv.ok

end

end Shadowsocks.Tunnel
