import Shadowsocks.Lib.Pool
import Shadowsocks.Lib.Program
import Shadowsocks.Server.Conn

/-!
# The objects of ss-server

The process as a whole: any number of clients, each with a `server_t`, at most one
`remote_t` and at most one query to the resolver. The three point at each other, and the
callbacks free them. Following a pointer to an object that has been freed is the fault
`useAfterFree`, and so is freeing it again. Watchers are fields of the objects: a callback
runs for the object its watcher is in.
-/

namespace Shadowsocks.Server.Process
set_option autoImplicit false
open Lib

/-- The settings of the process; `fast_open` may be turned off later. -/
structure Config (P : Platform) extends Server.Config P where
  verbose : Bool
  fastOpen : Bool

/-- `remote_t`. -/
structure RemoteT where
  buf : Buffer
  server : Option Nat := none
  connected : Bool := false
  recvIo : Bool := false
  sendIo : Bool := false

/-- `server_t`. -/
structure ServerT (P : Platform) where
  stage : Nat := 0
  buf : Buffer
  auth : Bool := false
  chunk : Chunk := {}
  eCtx : Option (EncCtx P)
  dCtx : Option (EncCtx P)
  remote : Option Nat := none
  query : Option Nat := none
  recvIo : Bool := false
  sendIo : Bool := false

/-- The objects, `connections`, and the global variables. A query points at its server. -/
structure State (P : Platform) where
  servers : Pool (ServerT P) := {}
  remotes : Pool RemoteT := {}
  queries : Pool Nat := {}
  connections : List Nat := []
  serverConn : Int := 0
  remoteConn : Int := 0
  fastOpen : Bool
  stopped : Bool := false

/-- What `connect_to_remote` learns from outside. -/
structure Dial where
  socket : Bool := true
  sendto : SendtoResult := .inProgress
  connect : ConnectResult := .inProgress

section
variable {P : Platform}

/-- Code of `server.c`. -/
abbrev Callback (P : Platform) := StateT (State P) (Except Fault)

/-! ## Objects -/

def getServer (w : Nat) : Callback P (ServerT P) := do
  match (← get).servers.cell w with
  | some server => pure server
  | none => throw .useAfterFree

def setServer (w : Nat) (f : ServerT P → ServerT P) : Callback P Unit := do
  let _ ← getServer w
  modify fun s => { s with servers := s.servers.modify w f }

def getRemote (r : Nat) : Callback P RemoteT := do
  match (← get).remotes.cell r with
  | some remote => pure remote
  | none => throw .useAfterFree

def setRemote (r : Nat) (f : RemoteT → RemoteT) : Callback P Unit := do
  let _ ← getRemote r
  modify fun s => { s with remotes := s.remotes.modify r f }

/-- `remote_conn` and `server_conn` are kept if `verbose` is set. -/
def countRemotes (C : Config P) (n : Int) : Callback P Unit :=
  if C.verbose then modify fun s => { s with remoteConn := s.remoteConn + n } else pure ()

def countServers (C : Config P) (n : Int) : Callback P Unit :=
  if C.verbose then modify fun s => { s with serverConn := s.serverConn + n } else pure ()

/-- `new_remote`. -/
def newRemote (C : Config P) : Callback P Nat := do
  countRemotes C 1
  let s ← get
  modify fun s => { s with remotes := s.remotes.new { buf := balloc P.junk bufSize } }
  pure s.remotes.next

/-- `remote->server->remote = NULL`. -/
def detachServer (remote : RemoteT) : Callback P Unit :=
  match remote.server with
  | some w => setServer w fun server => { server with remote := none }
  | none => pure ()

/-- `free_remote`. -/
def freeRemote (r : Nat) : Callback P Unit := do
  let remote ← getRemote r
  detachServer remote
  modify fun s => { s with remotes := s.remotes.free r }

/-- `close_and_free_remote`. -/
def closeAndFreeRemote (C : Config P) (remote : Option Nat) : Callback P Unit :=
  match remote with
  | none => pure ()
  | some r => do
    setRemote r fun remote => { remote with sendIo := false, recvIo := false }
    freeRemote r
    countRemotes C (-1)

/-- `new_server`; `iv` is what `rand_bytes` gives. -/
def newServer (C : Config P) (iv : Bytes) : Callback P Nat := do
  countServers C 1
  let s ← get
  let server : ServerT P :=
    { buf := balloc P.junk bufSize, eCtx := newContext C.E true iv, dCtx := newContext C.E false [] }
  modify fun s => { s with servers := s.servers.new server, connections := s.connections ++ [s.servers.next] }
  pure s.servers.next

/-- `server->remote->server = NULL`. -/
def detachRemote (server : ServerT P) : Callback P Unit :=
  match server.remote with
  | some r => setRemote r fun remote => { remote with server := none }
  | none => pure ()

/-- `free_server`. -/
def freeServer (w : Nat) : Callback P Unit := do
  let server ← getServer w
  modify fun s => { s with connections := s.connections.erase w }
  detachRemote server
  modify fun s => { s with servers := s.servers.free w }

/-- `resolv_cancel` of `server->query`, which is `NULL` then. -/
def resolvCancel (w : Nat) (server : ServerT P) : Callback P Unit :=
  match server.query with
  | some q => do
    match (← get).queries.cell q with
    | some _ => do
      modify fun s => { s with queries := s.queries.free q }
      setServer w fun server => { server with query := none }
    | none => throw .useAfterFree
  | none => pure ()

/-- `close_and_free_server`. -/
def closeAndFreeServer (C : Config P) (w : Nat) : Callback P Unit := do
  let server ← getServer w
  resolvCancel w server
  setServer w fun server => { server with sendIo := false, recvIo := false }
  freeServer w
  countServers C (-1)

/-- The order in which most paths close the two. -/
def closeBoth (C : Config P) (remote : Option Nat) (w : Nat) : Callback P Unit := do
  closeAndFreeRemote C remote
  closeAndFreeServer C w

/-! ## Connecting -/

/-- `recv(fd, buf->array + len, BUF_SIZE - len, 0)` and the new length. -/
def recvInto (buf : Buffer) (len : Nat) (segment : Segment) : Except Fault Buffer := do
  let bytes := segment.bytes.take (bufSize - len)
  let buf ← buf.write len bytes
  pure { buf with len := len + bytes.length }

/-- What follows an operation on data that may fail: the callback goes on, or it closes the
connection. -/
def orClose {α : Type} (x : Except Stop α) (close : Callback P Unit) (k : α → Callback P Unit) : Callback P Unit :=
  match x with
  | .ok a => k a
  | .error (.closed _) => close
  | .error (.crashed f) => throw f

/-- The `sendto` of `connect_to_remote`, with `fast_open`. -/
def fastOpenSend (w : Nat) (d : Dial) : Callback P Unit := do
  if (← get).fastOpen then do
    let server ← getServer w
    let _ ← liftM (server.buf.read server.buf.idx server.buf.len)
    match d.sendto.count server.buf.len with
    | some n => setServer w fun server =>
        { server with buf := { server.buf with idx := server.buf.idx + n, len := server.buf.len - n } }
    | none => if d.sendto = .unsupported then modify fun s => { s with fastOpen := false }

/-- `connect_to_remote`: the remote, unless it is `NULL`, and the results that follow if
`*connected` is set. -/
def connectToRemote (C : Config P) (w : Nat) (d : Dial) : Callback P (Option (Nat × Option (Bool × SendResult))) :=
  if !d.socket then pure none
  else do
    let r ← newRemote C
    fastOpenSend w d
    if (← get).fastOpen then pure (some (r, none))
    else match d.connect with
      | .failed => pure none
      | .inProgress => pure (some (r, none))
      | .immediate peer send => pure (some (r, some (peer, send)))

/-- `server->remote = remote` and `remote->server = server`. -/
def link (w r : Nat) : Callback P Unit := do
  setServer w fun server => { server with remote := some r }
  setRemote r fun remote => { remote with server := some w }

/-- The server and the new remote are linked, and what the client sent behind its header is
handed over. `start` is where the copy begins. -/
def attachRemote (w r : Nat) (start : Buffer → Nat) : Callback P Unit := do
  link w r
  let server ← getServer w
  if 0 < server.buf.len then do
    let data ← liftM (server.buf.read (start server.buf) server.buf.len)
    let remote ← getRemote r
    let buf ← liftM (remote.buf.write 0 data)
    setRemote r fun remote => { remote with buf := { buf with len := server.buf.len, idx := 0 } }
    setServer w fun server => { server with buf := { server.buf with len := 0, idx := 0 } }

/-- The second half of `remote_send_cb`. -/
def sendPending (C : Config P) (r w : Nat) (send : SendResult) : Callback P Unit := do
  let remote ← getRemote r
  if remote.buf.len = 0 then closeBoth C (some r) w
  else do
    let _ ← liftM (remote.buf.read remote.buf.idx remote.buf.len)
    match send.on remote.buf.len with
    | .error => closeBoth C (some r) w
    | .again => pure ()
    | .count n =>
      if n < remote.buf.len then
        setRemote r fun remote =>
          { remote with buf := { remote.buf with len := remote.buf.len - n, idx := remote.buf.idx + n } }
      else do
        setRemote r fun remote => { remote with buf := { remote.buf with len := 0, idx := 0 }, sendIo := false }
        setServer w fun server => { server with recvIo := true }
        let server ← getServer w
        if server.stage = 4 then do
          setServer w fun server => { server with stage := 5 }
          setRemote r fun remote => { remote with recvIo := true }

/-- `remote_send_cb`. -/
def remoteSendCb (C : Config P) (r : Nat) (peer : Bool) (send : SendResult) : Callback P Unit := do
  let remote ← getRemote r
  match remote.server with
  | none => closeAndFreeRemote C (some r)
  | some w =>
    if remote.connected then sendPending C r w send
    else if peer then do
      setRemote r fun remote => { remote with connected := true }
      if remote.buf.len = 0 then do
        setServer w fun server => { server with stage := 5 }
        setRemote r fun remote => { remote with sendIo := false }
        setServer w fun server => { server with recvIo := true }
        setRemote r fun remote => { remote with recvIo := true }
      else sendPending C r w send
    else closeBoth C (some r) w

/-! ## The callbacks -/

/-- What stage 0 learns from the decrypted buffer: the destination, the rest of the buffer,
`server->auth` and the chunk. -/
def readRequest (C : Config P) (server : ServerT P) (buf : Buffer) (dCtx : Option (EncCtx P)) :
    Except Stop (Destination × Buffer × Bool × Chunk) := do
  let (header, buf, auth) ← readHeader C.toConfig dCtx buf
  let (buf, chunk) ← checkHash C.E auth dCtx buf server.chunk
  pure (destination C.text header, buf, auth, chunk)

/-- `resolv_query`, unless it fails. -/
def resolvQuery (w : Nat) (query : Bool) : Callback P Unit :=
  if query then do
    let s ← get
    modify fun s => { s with queries := s.queries.new w }
    setServer w fun server => { server with query := some s.queries.next }
  else pure ()

/-- The end of stage 0. -/
def handleRequest (C : Config P) (w : Nat) (dst : Destination) (d : Dial) (query : Bool) : Callback P Unit := do
  match dst with
  | .query .. => do
    setServer w fun server => { server with stage := 4 }
    resolvQuery w query
    setServer w fun server => { server with recvIo := false }
  | .sockaddr .. => do
    match ← connectToRemote C w d with
    | none => closeAndFreeServer C w
    | some (r, inline) => do
      attachRemote w r fun _ => 0
      setServer w fun server => { server with stage := 4 }
      match inline with
      | some (peer, send) => remoteSendCb C r peer send
      | none => do
        setServer w fun server => { server with recvIo := false }
        setRemote r fun remote => { remote with sendIo := true }

/-- `server_recv_cb` in stage 5, with what was decrypted. -/
def forward (C : Config P) (w r : Nat) (server : ServerT P) (buf : Buffer) (dCtx : Option (EncCtx P)) (send : SendResult) :
    Callback P Unit :=
  orClose (checkHash C.E server.auth dCtx buf server.chunk)
    (do closeAndFreeServer C w; closeAndFreeRemote C (some r)) fun (buf, chunk) => do
      setServer w fun server => { server with dCtx, chunk }
      let _ ← liftM (buf.read 0 buf.len)
      match send.on buf.len with
      | .again => do
        setRemote r fun remote => { remote with buf := { buf with idx := 0 } }
        setServer w fun server => { server with recvIo := false }
        setRemote r fun remote => { remote with sendIo := true }
      | .error => closeBoth C (some r) w
      | .count n =>
        if n < buf.len then do
          setRemote r fun remote => { remote with buf := { buf with len := buf.len - n, idx := n } }
          setServer w fun server => { server with recvIo := false }
          setRemote r fun remote => { remote with sendIo := true }
        else setRemote r fun remote => { remote with buf }

/-- `server_recv_cb` in stage 0 with a segment. -/
def recvHeader (C : Config P) (w : Nat) (server : ServerT P) (segment : Segment) (e : RecvEvent) (d : Dial) (query : Bool) :
    Callback P Unit := do
  let buf ← liftM (recvInto server.buf server.buf.len segment)
  if buf.len ≤ C.E.ivLen then setServer w fun server => { server with buf }
  else orClose (decryptBuf C.E buf server.dCtx e.tmp e.ivCache) (closeAndFreeServer C w) fun (buf, dCtx) =>
    orClose (readRequest C server buf dCtx) (closeAndFreeServer C w) fun (dst, buf, auth, chunk) => do
      setServer w fun server => { server with buf, dCtx, auth, chunk }
      handleRequest C w dst d query

/-- `server_recv_cb` in the other stages with a segment. -/
def recvStream (C : Config P) (w r : Nat) (server : ServerT P) (segment : Segment) (e : RecvEvent) : Callback P Unit := do
  let remote ← getRemote r
  let buf ← liftM (recvInto remote.buf 0 segment)
  orClose (decryptBuf C.E buf server.dCtx e.tmp e.ivCache) (closeBoth C (some r) w) fun (buf, dCtx) =>
    if server.stage = 5 then forward C w r server buf dCtx e.send else throw .abort

/-- `server_recv_cb`. -/
def serverRecvCb (C : Config P) (w : Nat) (e : RecvEvent) (d : Dial) (query : Bool) : Callback P Unit := do
  let server ← getServer w
  if server.stage = 0 then
    match e.recv with
    | .eof => closeAndFreeServer C w
    | .failed => closeAndFreeServer C w
    | .wouldBlock => pure ()
    | .data segment => recvHeader C w server segment e d query
  else do
    let r ← liftM (Lib.deref server.remote)
    match e.recv with
    | .eof => closeBoth C (some r) w
    | .failed => closeBoth C (some r) w
    | .wouldBlock => pure ()
    | .data segment => recvStream C w r server segment e

/-- `server_send_cb`. -/
def serverSendCb (C : Config P) (w : Nat) (send : SendResult) : Callback P Unit := do
  let server ← getServer w
  match server.remote with
  | none => closeAndFreeServer C w
  | some r =>
    if server.buf.len = 0 then closeBoth C (some r) w
    else do
      let _ ← liftM (server.buf.read server.buf.idx server.buf.len)
      match send.on server.buf.len with
      | .error => closeBoth C (some r) w
      | .again => pure ()
      | .count n =>
        if n < server.buf.len then
          setServer w fun server =>
            { server with buf := { server.buf with len := server.buf.len - n, idx := server.buf.idx + n } }
        else do
          setServer w fun server => { server with buf := { server.buf with len := 0, idx := 0 }, sendIo := false }
          setRemote r fun remote => { remote with recvIo := true }

/-- `server_timeout_cb`. -/
def serverTimeoutCb (C : Config P) (w : Nat) : Callback P Unit := do
  let server ← getServer w
  closeBoth C server.remote w

/-- `server_resolve_cb`. -/
def serverResolveCb (C : Config P) (w : Nat) (found : Bool) (d : Dial) : Callback P Unit := do
  setServer w fun server => { server with query := none }
  if found then
    match ← connectToRemote C w d with
    | none => closeAndFreeServer C w
    | some (r, inline) => do
      attachRemote w r Buffer.idx
      match inline with
      | some (peer, send) => remoteSendCb C r peer send
      | none => setRemote r fun remote => { remote with sendIo := true }
  else closeAndFreeServer C w

/-- `remote_recv_cb`. -/
def remoteRecvCb (C : Config P) (r : Nat) (e : RecvEvent) : Callback P Unit := do
  let remote ← getRemote r
  match remote.server with
  | none => closeAndFreeRemote C (some r)
  | some w =>
    match e.recv with
    | .eof => closeBoth C (some r) w
    | .failed => closeBoth C (some r) w
    | .wouldBlock => pure ()
    | .data segment => do
      let server ← getServer w
      let buf ← liftM (recvInto server.buf 0 segment)
      orClose (encryptBuf C.E buf server.eCtx e.tmp) (closeBoth C (some r) w) fun (buf, eCtx) => do
        setServer w fun server => { server with eCtx }
        let _ ← liftM (buf.read 0 buf.len)
        match e.send.on buf.len with
        | .again => do
          setServer w fun server => { server with buf := { buf with idx := 0 } }
          setRemote r fun remote => { remote with recvIo := false }
          setServer w fun server => { server with sendIo := true }
        | .error => closeBoth C (some r) w
        | .count n =>
          if n < buf.len then do
            setServer w fun server => { server with buf := { buf with len := buf.len - n, idx := n } }
            setRemote r fun remote => { remote with recvIo := false }
            setServer w fun server => { server with sendIo := true }
          else setServer w fun server => { server with buf }

/-- `accept_cb`; `admitted` says that `accept` gives a socket and the ACL allows it. -/
def acceptCb (C : Config P) (admitted : Bool) (iv : Bytes) : Callback P Unit :=
  if admitted then do
    let w ← newServer C iv
    setServer w fun server => { server with recvIo := true }
  else pure ()

/-- The resolver drops a query when it has an answer. -/
def answerQuery (C : Config P) (q : Nat) (found : Bool) (d : Dial) : Callback P Unit := do
  match (← get).queries.cell q with
  | some w => do
    modify fun s => { s with queries := s.queries.free q }
    serverResolveCb C w found d
  | none => throw .useAfterFree

/-- `free_connections`, when the loop has been left. -/
def freeConnections (C : Config P) : List Nat → Callback P Unit
  | [] => pure ()
  | w :: rest => do
    let server ← getServer w
    closeAndFreeServer C w
    closeAndFreeRemote C server.remote
    freeConnections C rest

/-! ## The machine -/

inductive Event where
  | accept (admitted : Bool) (iv : Bytes)
  | serverRecv (w : Nat) (e : RecvEvent) (d : Dial) (query : Bool)
  | serverSend (w : Nat) (send : SendResult)
  | remoteRecv (r : Nat) (e : RecvEvent)
  | remoteSend (r : Nat) (peer : Bool) (send : SendResult)
  | answer (q : Nat) (found : Bool) (d : Dial)
  | timeout (w : Nat)
  | terminate

def start (C : Config P) : State P where
  fastOpen := C.fastOpen

/-- The timers of the servers run as long as they exist. -/
def enabled (s : State P) : Event → Bool
  | .accept .. => !s.stopped
  | .serverRecv w .. => (s.servers.cell w).any ServerT.recvIo
  | .serverSend w _ => (s.servers.cell w).any ServerT.sendIo
  | .remoteRecv r _ => (s.remotes.cell r).any RemoteT.recvIo
  | .remoteSend r .. => (s.remotes.cell r).any RemoteT.sendIo
  | .answer q .. => (s.queries.cell q).isSome
  | .timeout w => (s.servers.cell w).isSome
  | .terminate => !s.stopped

/-- The code that an event runs. -/
def callback (C : Config P) : Event → Callback P Unit
  | .accept admitted iv => acceptCb C admitted iv
  | .serverRecv w e d query => serverRecvCb C w e d query
  | .serverSend w send => serverSendCb C w send
  | .remoteRecv r e => remoteRecvCb C r e
  | .remoteSend r peer send => remoteSendCb C r peer send
  | .answer q found d => answerQuery C q found d
  | .timeout w => serverTimeoutCb C w
  | .terminate => do
    freeConnections C (← get).connections
    modify fun s => { s with stopped := true }

def machine (C : Config P) : Machine (State P) Event Fault where
  enabled := enabled
  fire s e := Prod.snd <$> callback C e s

end

/-- The header of a client that asks for 10.0.0.1:80. -/
def askForTen : Segment where
  bytes := [1, 10, 0, 0, 1, 0, 80]

end Shadowsocks.Server.Process
