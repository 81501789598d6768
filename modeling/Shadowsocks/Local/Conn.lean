import Shadowsocks.Acl
import Shadowsocks.Relay.Crypt

/-!
# A connection of `local.c`

One connection of ss-local as a machine: the callbacks of `local.c` with everything
they learn from outside in the event. `server->buf` is the buffer of the downstream
pipe and `remote->buf` that of the upstream one; `server->remote` is set exactly in
stage 5, so the stage and the remote are one field (`Phase`).
-/

namespace Shadowsocks.Local
set_option autoImplicit false
open Lib

/-- The settings of the process. -/
structure Config (P : Platform) where
  E : Encryptor P
  text : AddrText
  auth : Bool
  acl : Option Acl
  tcpOnly : Bool
  vpn : Bool

/-- The part of `remote_t` that is not in the pipes. -/
structure Remote where
  direct : Bool
  connected : Bool := false
  counter : Nat := 0
  sendTimer : Bool := false
  recvTimer : Bool := false
  deriving DecidableEq, Repr

/-- Stages 0, 1 and 5. -/
inductive Phase where
  | handshake
  | request
  | stream (remote : Remote)
  deriving DecidableEq, Repr

/-- `server_t` with its remote. The last three fields are ghosts: the replies sent to the
client before the relay begins, the address header that was built from the request, and
the plain text of all that was produced upstream. -/
structure Conn (P : Platform) where
  phase : Phase
  up : Pipe
  down : Pipe
  eCtx : Option (EncCtx P)
  dCtx : Option (EncCtx P)
  replies : Bytes := []
  header : Option Bytes := none
  plain : Bytes := []

/-- `sendto` with `MSG_FASTOPEN`. -/
inductive SendtoResult where
  | full
  | short (n : Nat)
  | inProgress
  | failed
  deriving DecidableEq, Repr

/-- All that `server_recv_cb` can learn from outside. -/
structure ServerRecv where
  recv : Recv
  encTmp : Buffer := {}
  fastOpen : Bool := false
  greeting : SendResult := .full
  resolved : Bool := true
  created : Bool := true
  reply : SendResult := .full
  protect : Bool := true
  connect : ConnectResult := .inProgress
  sendto : SendtoResult := .inProgress
  send : SendResult := .full

section
variable {P : Platform}

/-- `new_server` and the start of the read watcher in `accept_cb`; `iv` is what
`rand_bytes` gives. -/
def acceptCb (C : Config P) (iv : Bytes) : Conn P where
  phase := .handshake
  up := { filling := true }
  down := { buf := balloc P.junk bufSize }
  eCtx := newContext C.E true iv
  dCtx := newContext C.E false []

/-! ## Stages 0 and 1 -/

/-- What a `send` of `bs` whose result is ignored puts on the wire. -/
def delivered (r : SendResult) (bs : Bytes) : Bytes :=
  match r.on bs.length with
  | .count n => bs.take n
  | _ => []

/-- Stage 0. The Boolean says that the request came in the same segment. -/
def methodSelect (conn : Conn P) (e : ServerRecv) : Except Stop (Bool × Conn P) := do
  let conn := { conn with phase := .request, replies := conn.replies ++ delivered e.greeting [5, 0] }
  let buf := conn.down.buf
  let nmethods ← orCrash (buf.byte 1)
  let ver ← orCrash (buf.byte 0)
  let off := nmethods.toNat + 2
  if ver = 5 ∧ off < buf.len then do
    let buf ← orCrash (buf.memmove 0 off (buf.len - off))
    pure (true, { conn with down := { conn.down with buf := { buf with len := buf.len - off } } })
  else pure (false, conn)

/-- `abuf` and the text of the requested address. -/
def buildHeader (C : Config P) (buf : Buffer) : Except Stop (Buffer × Bytes) := do
  let atyp ← orCrash (buf.byte 3)
  let abuf ← orCrash ((balloc P.junk bufSize).append [atyp])
  if atyp = 1 then do
    let addr ← orCrash (buf.read 4 6)
    let abuf ← orCrash (abuf.append addr)
    pure (abuf, C.text.ntop4 (addr.take 4))
  else if atyp = 3 then do
    let nameLen ← orCrash (buf.byte 4)
    let abuf ← orCrash (abuf.append [nameLen])
    let name ← orCrash (buf.read 5 (nameLen.toNat + 2))
    let abuf ← orCrash (abuf.append name)
    pure (abuf, cString (name.take nameLen.toNat))
  else if atyp = 4 then do
    let addr ← orCrash (buf.read 4 18)
    let abuf ← orCrash (abuf.append addr)
    pure (abuf, C.text.ntop6 (addr.take 16))
  else .error (.closed .unsupportedAddrType)

/-- `buf->len -= (3 + abuf->len)` and the shift of what is behind the request. -/
def stripRequest (buf : Buffer) (headerLen : Nat) : Except Fault Buffer :=
  let buf := { buf with len := sizeSub buf.len (3 + headerLen) }
  if 0 < buf.len then buf.memmove 0 (3 + headerLen) buf.len else pure buf

/-- `acl && (request->atyp == 1 || request->atyp == 4) && acl_match_ip(host)`; `request`
points into the buffer that was just shifted. -/
def bypass (C : Config P) (buf : Buffer) (host : Bytes) : Except Fault Bool :=
  match C.acl with
  | none => pure false
  | some A => do
    let atyp ← buf.byte 3
    pure ((atyp == 1 || atyp == 4) && aclMatchIp C.text A host)

/-- The header, the shifted buffer and the choice between a direct and a proxied
connection. -/
def readRequest (C : Config P) (buf : Buffer) : Except Stop (Buffer × Buffer × Bool) := do
  let (abuf, host) ← buildHeader C buf
  let buf ← orCrash (stripRequest buf abuf.len)
  let direct ← orCrash (bypass C buf host)
  pure (abuf, buf, direct)

/-- The new remote: a direct one is dereferenced without a check. -/
def createRemote (direct : Bool) (e : ServerRecv) : Except Stop Remote :=
  if direct then
    if e.resolved then
      if e.created then .ok { direct := true } else .error (.crashed .nullPointer)
    else .error (.closed .invalidRemoteAddr)
  else if e.created then .ok { direct := false }
  else .error (.closed .invalidRemoteAddr)

/-- The first contents of `remote->buf`: the header and what came with the request, or
only the latter. Also `server->buf` and the chunk counter. -/
def fillRemote (C : Config P) (eCtx : Option (EncCtx P)) (abuf buf : Buffer) (direct : Bool) :
    Except Stop (Buffer × Buffer × Nat) := do
  let rbuf := balloc P.junk bufSize
  if direct then
    if 0 < buf.len then do
      let data ← orCrash (buf.read 0 buf.len)
      let rbuf ← orCrash (rbuf.write 0 data)
      pure ({ rbuf with len := buf.len }, buf, 0)
    else pure (rbuf, buf, 0)
  else do
    let abuf ← authHeader C.E C.auth eCtx abuf
    let rbuf ← orCrash (brealloc P.junk rbuf (buf.len + abuf.len) bufSize)
    let header ← orCrash (abuf.read 0 abuf.len)
    let rbuf ← orCrash (rbuf.write 0 header)
    let rbuf := { rbuf with len := buf.len + abuf.len }
    if 0 < buf.len then do
      let (buf, counter) ← genHash C.E C.auth eCtx buf 0
      let data ← orCrash (buf.read 0 buf.len)
      let rbuf ← orCrash (rbuf.write abuf.len data)
      pure (rbuf, buf, counter)
    else pure (rbuf, buf, 0)

/-- The reply to a request; for `CONNECT` the address in it is zero. -/
def fakeReply : Bytes := [5, 0, 0, 1, 0, 0, 0, 0, 0, 0]

/-- Stage 1. An associate request is answered and closed. -/
def handleRequest (C : Config P) (conn : Conn P) (e : ServerRecv) : Except Stop (Remote × Conn P) := do
  let buf := conn.down.buf
  let cmd ← orCrash (buf.byte 1)
  if !C.tcpOnly && cmd == 3 then .error (.closed .udpAssociate)
  else if cmd ≠ 1 then .error (.closed .unsupportedCmd)
  else do
    let (abuf, buf, direct) ← readRequest C buf
    let remote ← createRemote direct e
    let (rbuf, buf, counter) ← fillRemote C conn.eCtx abuf buf direct
    let remote := { remote with counter }
    let buf ← orCrash (buf.write 0 fakeReply)
    match e.reply.on fakeReply.length with
    | .count s =>
      if s < fakeReply.length then .error (.closed .fakeReplyFailed)
      else pure (remote, { conn with
        phase := .stream remote, up := { conn.up with buf := rbuf }, down := { conn.down with buf },
        replies := conn.replies ++ fakeReply, header := some abuf.bytes })
    | _ => .error (.closed .fakeReplyFailed)

/-! ## Stage 5 -/

/-- `remote_send_cb`. -/
def remoteSendCb (conn : Conn P) (remote : Remote) (peer : Bool) (send : SendResult) : Except Stop (Conn P) :=
  if remote.connected then do
    let up ← conn.up.drain send
    pure { conn with up }
  else if peer then
    let remote := { remote with connected := true, sendTimer := false, recvTimer := true }
    let conn := { conn with phase := .stream remote, down := { conn.down with filling := true } }
    if conn.up.buf.len = 0 then pure { conn with up := conn.up.resume }
    else do
      let up ← conn.up.drain send
      pure { conn with up }
  else .error (.closed .notConnected)

/-- `if (!remote->send_ctx->connected)` of `server_recv_cb`. -/
def openRemote (C : Config P) (conn : Conn P) (remote : Remote) (e : ServerRecv) : Except Stop (Conn P) :=
  if C.vpn && !e.protect then .error (.closed .protectFailed)
  else
    let conn := { conn with up := { conn.up with buf := { conn.up.buf with idx := 0 } } }
    if !e.fastOpen || remote.direct then
      match e.connect with
      | .failed => .error (.closed .connectFailed)
      | .immediate peer send => remoteSendCb conn remote peer send
      | .inProgress => pure { conn with phase := .stream { remote with sendTimer := true }, up := conn.up.await }
    else
      match e.sendto with
      | .failed => .error (.closed .sendFailed)
      | .inProgress => pure { conn with up := conn.up.await }
      | result => do
        let data ← orCrash (conn.up.buf.read 0 conn.up.buf.len)
        let s := match result with
          | .short n => min n (conn.up.buf.len - 1)
          | _ => conn.up.buf.len
        pure { conn with
          phase := .stream { remote with connected := true, sendTimer := false }
          up := { conn.up with
            accepted := conn.up.accepted ++ data.take s
            buf := { conn.up.buf with len := conn.up.buf.len - s, idx := s } }
          down := { conn.down with filling := true } }

/-- The authentication and encryption of `remote->buf`. -/
def encryptUp (C : Config P) (conn : Conn P) (remote : Remote) (encTmp : Buffer) : Except Stop (Remote × Conn P) :=
  if remote.direct then
    pure (remote, { conn with up := conn.up.produce, plain := conn.plain ++ conn.up.buf.bytes })
  else do
    let (buf, counter) ← genHash C.E (remote.connected && C.auth) conn.eCtx conn.up.buf remote.counter
    let remote := { remote with counter }
    let (cipher, eCtx) ← encryptBuf C.E buf conn.eCtx encTmp
    pure (remote, { conn with
      phase := .stream remote, up := { conn.up with buf := cipher }.produce, eCtx, plain := conn.plain ++ buf.bytes })

/-- Stage 5 of `server_recv_cb`. -/
def relayUp (C : Config P) (conn : Conn P) (remote : Remote) (e : ServerRecv) : Except Stop (Conn P) := do
  let (remote, conn) ← encryptUp C conn remote e.encTmp
  if remote.connected then do
    let up ← conn.up.push e.send
    pure { conn with up }
  else openRemote C conn remote e

/-! ## The callbacks -/

/-- `server_recv_cb`: the loop over the stages runs at most once through each. -/
def serverRecvCb (C : Config P) (conn : Conn P) (e : ServerRecv) : Except Stop (Conn P) :=
  match e.recv with
  | .eof => .error (.closed .eof)
  | .failed => .error (.closed .recvFailed)
  | .wouldBlock => pure conn
  | .data segment =>
    match conn.phase with
    | .stream remote => do
      let up ← conn.up.receive 0 segment
      relayUp C { conn with up } remote e
    | .request => do
      let down ← conn.down.receive 0 segment
      let (remote, conn) ← handleRequest C { conn with down } e
      relayUp C conn remote e
    | .handshake => do
      let down ← conn.down.receive 0 segment
      let (more, conn) ← methodSelect { conn with down } e
      if more then do
        let (remote, conn) ← handleRequest C conn e
        relayUp C conn remote e
      else pure conn

/-- `server_send_cb`. -/
def serverSendCb (conn : Conn P) (send : SendResult) : Except Stop (Conn P) := do
  let down ← conn.down.drain send
  pure { conn with down }

/-- `remote_recv_cb`. -/
def remoteRecvCb (C : Config P) (conn : Conn P) (remote : Remote) (e : RecvEvent) : Except Stop (Conn P) :=
  let conn := { conn with phase := .stream { remote with recvTimer := true } }
  match e.recv with
  | .eof => .error (.closed .eof)
  | .failed => .error (.closed .recvFailed)
  | .wouldBlock => pure conn
  | .data segment =>
    if remote.direct then do
      let down ← conn.down.receive 0 segment
      let down ← down.produce.push e.send
      pure { conn with down }
    else do
      let (down, dCtx) ← relayDecrypted C.E conn.down conn.dCtx segment e
      pure { conn with down, dCtx }

inductive Event where
  | serverRecv (e : ServerRecv)
  | serverSend (send : SendResult)
  | remoteRecv (e : RecvEvent)
  | remoteSend (peer : Bool) (send : SendResult)
  | remoteTimeout

def Phase.remote? : Phase → Option Remote
  | .stream remote => some remote
  | _ => none

/-- A callback runs only while its watcher is active. -/
def enabled (conn : Conn P) : Event → Bool
  | .serverRecv _ => conn.up.filling
  | .serverSend _ => conn.down.draining
  | .remoteRecv _ => conn.down.filling
  | .remoteSend .. => conn.up.draining
  | .remoteTimeout => conn.phase.remote?.any fun r => r.sendTimer || r.recvTimer

/-- The watchers of a remote exist only with the remote. -/
def fire (C : Config P) (conn : Conn P) : Event → Except Stop (Conn P)
  | .serverRecv e => serverRecvCb C conn e
  | .serverSend send => serverSendCb conn send
  | .remoteRecv e => do
    let remote ← orCrash (deref conn.phase.remote?)
    remoteRecvCb C conn remote e
  | .remoteSend peer send => do
    let remote ← orCrash (deref conn.phase.remote?)
    remoteSendCb conn remote peer send
  | .remoteTimeout => .error (.closed .timeout)

def machine (C : Config P) : Machine (Conn P) Event Stop where
  enabled := enabled
  fire := fire C

end

/-- A greeting with the one method that needs no authentication. -/
def shortGreeting : Segment where
  bytes := [5, 1, 0]

end Shadowsocks.Local
