import Shadowsocks.Acl
import Shadowsocks.Relay.Crypt

/-!
# A connection of `redir.c`

One connection of ss-redir as a machine. The remote exists from `accept_cb` on. One
buffer of the client may arrive before the remote is connected; it waits in
`remote->buf`, framed but not encrypted, until `remote_send_cb` puts the header in front
of it.
-/

namespace Shadowsocks.Redir
set_option autoImplicit false
open Lib

/-- The settings of the process. -/
structure Config (P : Platform) where
  E : Encryptor P
  auth : Bool

/-- `server->destaddr`: the destination the client meant, with the two bytes of the
port. -/
structure Destaddr where
  ip : Ip
  port : Bytes
  deriving DecidableEq, Repr

/-- `server_t` with its remote. The last two fields are ghosts: what the client has sent,
as it leaves `ss_gen_hash`, and the plain text of all that was produced upstream. -/
structure Conn (P : Platform) where
  destaddr : Destaddr
  connected : Bool := false
  counter : Nat := 0
  sendTimer : Bool := false
  up : Pipe
  down : Pipe
  eCtx : Option (EncCtx P)
  dCtx : Option (EncCtx P)
  framed : Bytes := []
  plain : Bytes := []

section
variable {P : Platform}

/-- `new_server` and `new_remote`; `iv` is what `rand_bytes` gives. -/
def newConn (C : Config P) (iv : Bytes) (destaddr : Destaddr) : Conn P where
  destaddr
  up := { buf := balloc P.junk bufSize }
  down := { buf := balloc P.junk bufSize }
  eCtx := newContext C.E true iv
  dCtx := newContext C.E false []

/-- `abuf` with the destination. -/
def buildHeader (P : Platform) (destaddr : Destaddr) : Except Fault Buffer := do
  let addr := match destaddr.ip with
    | .v6 a => 4 :: a
    | .v4 a => 1 :: a
  let abuf ← (balloc P.junk bufSize).append addr
  abuf.append destaddr.port

/-- `brealloc`, `memmove` and `memcpy`: the header goes in front of what has arrived. -/
def prepend (P : Platform) (buf abuf : Buffer) : Except Fault Buffer := do
  let buf ← brealloc P.junk buf (buf.len + abuf.len) bufSize
  let buf ← buf.memmove abuf.len 0 buf.len
  let header ← abuf.read 0 abuf.len
  let buf ← buf.write 0 header
  pure { buf with len := buf.len + abuf.len }

/-- `remote_send_cb` when the connection is reported. Both watchers of the upstream
direction are stopped. -/
def openStream (C : Config P) (conn : Conn P) (tmp : Buffer) : Except Stop (Conn P) := do
  let conn := { conn with connected := true, sendTimer := false,
                          up := { conn.up with filling := false, draining := false } }
  let abuf ← orCrash (buildHeader P conn.destaddr)
  let abuf ← authHeader C.E C.auth conn.eCtx abuf
  let buf ← orCrash (prepend P conn.up.buf abuf)
  let (cipher, eCtx) ← encryptBuf C.E buf conn.eCtx tmp
  pure { conn with
    up := { conn.up with buf := cipher }.produce
    down := { conn.down with filling := true }
    eCtx
    plain := conn.plain ++ buf.bytes }

/-- `remote_send_cb`. What it sends, it sends in the same way at first and later. -/
def remoteSendCb (C : Config P) (conn : Conn P) (peer : Bool) (tmp : Buffer) (send : SendResult) :
    Except Stop (Conn P) :=
  if conn.connected then do
    let up ← conn.up.drain send
    pure { conn with up }
  else if peer then do
    let conn ← openStream C conn tmp
    let up ← conn.up.drain send
    pure { conn with up }
  else .error (.closed .notConnected)

/-- The part of `accept_cb` behind the allocations. Its last statement starts the read
watcher of the client, also when `remote_send_cb` has just freed it. -/
def acceptCb (C : Config P) (iv : Bytes) (destaddr : Destaddr) (connect : ConnectResult) (tmp : Buffer) :
    Except Stop (Conn P) :=
  let conn := newConn C iv destaddr
  match connect with
  | .failed => .error (.closed .connectFailed)
  | .immediate peer send =>
    match remoteSendCb C conn peer tmp send with
    | .error (.closed _) => .error (.crashed .useAfterFree)
    | .error (.crashed fault) => .error (.crashed fault)
    | .ok conn => pure { conn with up := { conn.up with filling := true } }
  | .inProgress => pure { conn with up := { conn.up with filling := true, draining := true }, sendTimer := true }

/-- `server_recv_cb`. -/
def serverRecvCb (C : Config P) (conn : Conn P) (e : RecvEvent) : Except Stop (Conn P) :=
  match e.recv with
  | .eof => .error (.closed .eof)
  | .failed => .error (.closed .recvFailed)
  | .wouldBlock => pure conn
  | .data segment => do
    let up ← conn.up.receive 0 segment
    let (buf, counter) ← genHash C.E C.auth conn.eCtx up.buf conn.counter
    let conn := { conn with up := { up with buf }, counter, framed := conn.framed ++ buf.bytes }
    if !conn.connected then pure { conn with up := conn.up.await }
    else do
      let (cipher, eCtx) ← encryptBuf C.E buf conn.eCtx e.tmp
      let up ← { conn.up with buf := cipher }.produce.push e.send
      pure { conn with up, eCtx, plain := conn.plain ++ buf.bytes }

/-- `server_send_cb`. -/
def serverSendCb (conn : Conn P) (send : SendResult) : Except Stop (Conn P) := do
  let down ← conn.down.drain send
  pure { conn with down }

/-- `remote_recv_cb`. -/
def remoteRecvCb (C : Config P) (conn : Conn P) (e : RecvEvent) : Except Stop (Conn P) :=
  match e.recv with
  | .eof => .error (.closed .eof)
  | .failed => .error (.closed .recvFailed)
  | .wouldBlock => pure conn
  | .data segment => do
    let (down, dCtx) ← relayDecrypted C.E conn.down conn.dCtx segment e
    pure { conn with down, dCtx }

inductive Event where
  | serverRecv (e : RecvEvent)
  | serverSend (send : SendResult)
  | remoteRecv (e : RecvEvent)
  | remoteSend (peer : Bool) (tmp : Buffer) (send : SendResult)
  | remoteTimeout

/-- A callback runs only while its watcher is active. -/
def enabled (conn : Conn P) : Event → Bool
  | .serverRecv _ => conn.up.filling
  | .serverSend _ => conn.down.draining
  | .remoteRecv _ => conn.down.filling
  | .remoteSend .. => conn.up.draining
  | .remoteTimeout => conn.sendTimer

def fire (C : Config P) (conn : Conn P) : Event → Except Stop (Conn P)
  | .serverRecv e => serverRecvCb C conn e
  | .serverSend send => serverSendCb conn send
  | .remoteRecv e => remoteRecvCb C conn e
  | .remoteSend peer tmp send => remoteSendCb C conn peer tmp send
  | .remoteTimeout => .error (.closed .timeout)

def machine (C : Config P) : Machine (Conn P) Event Stop where
  enabled := enabled
  fire := fire C

end

end Shadowsocks.Redir
