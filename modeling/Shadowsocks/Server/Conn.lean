import Shadowsocks.Acl
import Shadowsocks.Relay.Crypt
import Shadowsocks.Relay.Header

/-!
# A connection of `server.c`

One connection of ss-server as a machine. `server->buf` (the buffer of the downstream
pipe) first collects the client's header; what follows the header moves to
`remote->buf` (the buffer of the upstream pipe) when the destination is being
connected. Stage 4 is split by what the connection waits for: the resolver, before
there is a remote, or the remote.
-/

namespace Shadowsocks.Server
set_option autoImplicit false
open Lib

/-- The settings of the process. -/
structure Config (P : Platform) where
  E : Encryptor P
  text : AddrText
  auth : Bool

/-- What the program connects to at once, or asks the resolver for. -/
inductive Destination where
  | sockaddr (ip : Ip) (port : Bytes)
  | query (host : Bytes) (port : Bytes)
  deriving DecidableEq, Repr

/-- Stages 0, 4 and 5. -/
inductive Phase where
  | init
  | resolving
  | connecting (connected : Bool)
  | stream
  deriving DecidableEq, Repr

/-- `server_t` with its remote. The header is a ghost: what stage 0 has read. -/
structure Conn (P : Platform) where
  phase : Phase
  up : Pipe
  down : Pipe
  eCtx : Option (EncCtx P)
  dCtx : Option (EncCtx P)
  auth : Bool := false
  chunk : Chunk := {}
  header : Option Header := none

/-- `sendto` with `MSG_FASTOPEN`; `short n` takes `n` bytes, or all but one if there are
not more. -/
inductive SendtoResult where
  | full
  | short (n : Nat)
  | inProgress
  | unsupported
  | failed
  deriving DecidableEq, Repr

/-- How many of `len` bytes went with the `SYN`, if `sendto` did not fail. -/
def SendtoResult.count (r : SendtoResult) (len : Nat) : Option Nat :=
  match r with
  | .full => some len
  | .short n => some (min n (len - 1))
  | _ => none

/-- All that `connect_to_remote` can learn from outside. -/
structure Opening where
  socket : Bool := true
  fastOpen : Bool := false
  sendto : SendtoResult := .inProgress
  connect : ConnectResult := .inProgress

section
variable {P : Platform}

/-- `new_server` and the start of the read watcher in `accept_cb`; `iv` is what
`rand_bytes` gives. -/
def acceptCb (C : Config P) (iv : Bytes) : Conn P where
  phase := .init
  up := { filling := true }
  down := { buf := balloc P.junk bufSize }
  eCtx := newContext C.E true iv
  dCtx := newContext C.E false []

/-! ## Stage 0 -/

/-- `parse_header_len`. -/
def parseHeaderLen (atyp : UInt8) (buf : Buffer) : Except Fault Nat :=
  if atyp &&& 0xf = 1 then pure 6
  else if atyp &&& 0xf = 3 then do
    let nameLen ← buf.byte 1
    pure (nameLen.toNat + 1 + 2)
  else if atyp &&& 0xf = 4 then pure 18
  else pure 2

/-- The authentication of the header, if it is asked for. The result is `server->auth`. -/
def verifyHeader (C : Config P) (dCtx : Option (EncCtx P)) (buf : Buffer) (atyp : UInt8) : Except Stop Bool :=
  if C.auth || atyp &&& 0x10 != 0 then do
    let headerLen ← orCrash (parseHeaderLen atyp buf)
    if buf.len < 1 + headerLen + onetimeauthBytes then .error (.closed .shortAuthHeader)
    else do
      let ctx ← orCrash (deref dCtx)
      let differs ← orCrash (ssOnetimeauthVerify C.E { buf with len := 1 + headerLen + onetimeauthBytes } ctx.iv)
      if differs then .error (.closed .authenticationError) else pure true
  else pure false

/-- The address and the offset behind it. -/
def readAddr (buf : Buffer) (atyp : UInt8) : Except Stop (Address × Nat) :=
  if atyp &&& 0xf = 1 then
    if 7 ≤ buf.len then do
      let addr ← orCrash (buf.read 1 4)
      pure (.ipv4 addr, 5)
    else .error (.closed .invalidHeader)
  else if atyp &&& 0xf = 3 then do
    let nameLen ← orCrash (buf.byte 1)
    if nameLen.toNat + 4 ≤ buf.len then do
      let name ← orCrash (buf.read 2 nameLen.toNat)
      pure (.domain name, nameLen.toNat + 2)
    else .error (.closed .invalidHeader)
  else if atyp &&& 0xf = 4 then
    if 19 ≤ buf.len then do
      let addr ← orCrash (buf.read 1 16)
      pure (.ipv6 addr, 17)
    else .error (.closed .invalidHeader)
  else .error (.closed .invalidHeader)

/-- The header, the rest of the buffer and `server->auth`. -/
def readHeader (C : Config P) (dCtx : Option (EncCtx P)) (buf : Buffer) : Except Stop (Header × Buffer × Bool) := do
  let atyp ← orCrash (buf.byte 0)
  let auth ← verifyHeader C dCtx buf atyp
  let (addr, offset) ← readAddr buf atyp
  let port ← orCrash (buf.read offset 2)
  let offset := offset + 2 + (if auth then onetimeauthBytes else 0)
  if buf.len < offset then .error (.closed .shortHeader)
  else do
    let len := buf.len - offset
    let buf ← orCrash ({ buf with len }.memmove 0 offset len)
    pure ({ addr, port }, buf, auth)

/-- A domain that is the text of an address is not looked up. What `dns_pton` does not
store is zero. -/
def destination (text : AddrText) (h : Header) : Destination :=
  match h.addr with
  | .ipv4 addr => .sockaddr (.v4 addr) h.port
  | .ipv6 addr => .sockaddr (.v6 addr) h.port
  | .domain name =>
    let host := cString name
    match text.corkIpInit host with
    | some (.v4 _) => .sockaddr (.v4 ((text.pton4 host).getD (List.replicate 4 0))) h.port
    | some (.v6 _) => .sockaddr (.v6 ((text.pton6 host).getD (List.replicate 16 0))) h.port
    | none => .query host h.port

/-! ## Connecting -/

/-- Stage 5 begins, and the remote is read. -/
def toStream (conn : Conn P) : Conn P := { conn with phase := .stream, down := { conn.down with filling := true } }

/-- The second half of `remote_send_cb`. When all is sent out, stage 4 is over. -/
def sendPending (conn : Conn P) (send : SendResult) : Except Stop (Conn P) := do
  let up ← conn.up.drain send
  let conn := { conn with up }
  if up.buf.len = 0 ∧ conn.phase ≠ .stream then pure (toStream conn) else pure conn

/-- `remote_send_cb`. -/
def remoteSendCb (conn : Conn P) (peer : Bool) (send : SendResult) : Except Stop (Conn P) :=
  if conn.phase = .connecting false then
    if peer then
      if conn.up.buf.len = 0 then pure (toStream { conn with up := conn.up.resume })
      else sendPending { conn with phase := .connecting true } send
    else .error (.closed .notConnected)
  else sendPending conn send

/-- `connect_to_remote`: what of the buffer was sent with the `SYN`, and the results that
follow if the connection is there at once. -/
def connectToRemote (buf : Buffer) (o : Opening) : Except Stop (Buffer × Bytes × Option (Bool × SendResult)) := do
  if !o.socket then .error (.closed .connectFailed)
  else do
    let (buf, taken) ←
      match o.fastOpen, o.sendto.count buf.len with
      | true, some s => do
        let data ← orCrash (buf.read buf.idx buf.len)
        pure ({ buf with idx := buf.idx + s, len := buf.len - s }, data.take s)
      | _, _ => pure (buf, [])
    if o.fastOpen && o.sendto ≠ .unsupported then pure (buf, taken, none)
    else match o.connect with
      | .failed => .error (.closed .connectFailed)
      | .inProgress => pure (buf, taken, none)
      | .immediate peer send => pure (buf, taken, some (peer, send))

/-- The new remote with what the client sent behind its header. `start` is where the
copy begins. -/
def attachRemote (conn : Conn P) (buf : Buffer) (taken : Bytes) (start : Nat) : Except Stop (Conn P) := do
  let rbuf := balloc P.junk bufSize
  let up := { conn.up with accepted := conn.up.accepted ++ taken }
  if 0 < buf.len then do
    let data ← orCrash (buf.read start buf.len)
    let rbuf ← orCrash (rbuf.write 0 data)
    pure { conn with
      phase := .connecting false
      up := { up with buf := { rbuf with len := buf.len } }
      down := { conn.down with buf := { buf with len := 0, idx := 0 } } }
  else pure { conn with phase := .connecting false, up := { up with buf := rbuf }, down := { conn.down with buf } }

/-- The end of stage 0. What is left of the buffer is payload. The copy begins at the
start of the buffer. -/
def handleHeader (C : Config P) (conn : Conn P) (o : Opening) : Except Stop (Conn P) := do
  let (header, buf, auth) ← readHeader C conn.dCtx conn.down.buf
  let (buf, chunk) ← checkHash C.E auth conn.dCtx buf conn.chunk
  let up := { conn.up with produced := conn.up.produced ++ buf.bytes }
  let conn := { conn with up, down := { conn.down with buf }, auth, chunk, header := some header }
  match destination C.text header with
  | .query .. => pure { conn with phase := .resolving, up := { conn.up with filling := false } }
  | .sockaddr .. => do
    let (buf, taken, inline) ← connectToRemote buf o
    let conn ← attachRemote conn buf taken 0
    match inline with
    | some (peer, send) => remoteSendCb conn peer send
    | none => pure { conn with up := conn.up.await }

/-! ## The callbacks -/

/-- `server_recv_cb`. In stage 4 it would end the process. -/
def serverRecvCb (C : Config P) (conn : Conn P) (e : RecvEvent) (o : Opening) : Except Stop (Conn P) :=
  if conn.phase = .resolving then .error (.crashed .nullPointer)
  else match e.recv with
  | .eof => .error (.closed .eof)
  | .failed => .error (.closed .recvFailed)
  | .wouldBlock => pure conn
  | .data segment =>
    if conn.phase = .init then do
      let down ← conn.down.receive conn.down.buf.len segment
      if down.buf.len ≤ C.E.ivLen then pure { conn with down }
      else do
        let (buf, dCtx) ← decryptBuf C.E down.buf conn.dCtx e.tmp e.ivCache
        handleHeader C { conn with down := { down with buf }, dCtx } o
    else do
      let up ← conn.up.receive 0 segment
      let (buf, dCtx) ← decryptBuf C.E up.buf conn.dCtx e.tmp e.ivCache
      if conn.phase = .stream then do
        let (buf, chunk) ← checkHash C.E conn.auth dCtx buf conn.chunk
        let up ← { up with buf }.produce.push e.send
        pure { conn with up, dCtx, chunk }
      else .error (.crashed .abort)

/-- `server_resolve_cb`. The copy begins at the index of the buffer. -/
def serverResolveCb (conn : Conn P) (found : Bool) (o : Opening) : Except Stop (Conn P) :=
  if found then do
    let (buf, taken, inline) ← connectToRemote conn.down.buf o
    let conn ← attachRemote conn buf taken buf.idx
    match inline with
    | some (peer, send) => remoteSendCb conn peer send
    | none => pure { conn with up := { conn.up with draining := true } }
  else .error (.closed .unresolved)

/-- `server_send_cb`. -/
def serverSendCb (conn : Conn P) (send : SendResult) : Except Stop (Conn P) :=
  if conn.phase = .init ∨ conn.phase = .resolving then .error (.closed .invalidServer)
  else do
    let down ← conn.down.drain send
    pure { conn with down }

/-- `remote_recv_cb`. -/
def remoteRecvCb (C : Config P) (conn : Conn P) (e : RecvEvent) : Except Stop (Conn P) :=
  match e.recv with
  | .eof => .error (.closed .eof)
  | .failed => .error (.closed .recvFailed)
  | .wouldBlock => pure conn
  | .data segment => do
    let down ← conn.down.receive 0 segment
    let (buf, eCtx) ← encryptBuf C.E down.buf conn.eCtx e.tmp
    let down ← { down with buf }.produce.push e.send
    pure { conn with down, eCtx }

inductive Event where
  | serverRecv (e : RecvEvent) (o : Opening)
  | serverSend (send : SendResult)
  | remoteRecv (e : RecvEvent)
  | remoteSend (peer : Bool) (send : SendResult)
  | resolved (found : Bool) (o : Opening)
  | timeout

/-- A callback runs only while its watcher is active, or its query is pending. The timer
is never stopped. -/
def enabled (conn : Conn P) : Event → Bool
  | .serverRecv .. => conn.up.filling
  | .serverSend _ => conn.down.draining
  | .remoteRecv _ => conn.down.filling
  | .remoteSend .. => conn.up.draining
  | .resolved .. => conn.phase = .resolving
  | .timeout => true

def fire (C : Config P) (conn : Conn P) : Event → Except Stop (Conn P)
  | .serverRecv e o => serverRecvCb C conn e o
  | .serverSend send => serverSendCb conn send
  | .remoteRecv e => remoteRecvCb C conn e
  | .remoteSend peer send => remoteSendCb conn peer send
  | .resolved found o => serverResolveCb conn found o
  | .timeout => .error (.closed .timeout)

def machine (C : Config P) : Machine (Conn P) Event Stop where
  enabled := enabled
  fire := fire C

end

end Shadowsocks.Server
